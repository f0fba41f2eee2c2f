import PathRouting.Text.Percent
import PathRouting.Template.Chunk
import PathRouting.Template.Pattern

/-! Path templates. A template is read once; after that it says of any request path
whether it matches and which values the parameters have in it. -/

namespace PathRouting

/-- A template that has been read. -/
structure Template where
  path : Text
  segments : List Segment
  names : List Text
  variants : List Variant

namespace Template

/-- Whether a path stands for itself and everything below: it ends in a parameter followed
by a star. -/
def coversSubPaths (path : Text) : Bool :=
  ['\x7D', '*'].isSuffixOf path || ['>', '*'].isSuffixOf path

/-- The chunks of a path: the texts between slashes that are not empty, without the star
that stands for everything below. -/
def chunks (path : Text) : List Text :=
  (Text.pieces '/' (if coversSubPaths path then path.dropLast else path)).filter (!·.isEmpty)

def ofPath (policy : Policy) (path : Text) : Except RouteError Template := do
  if Text.occurs ['/', ':'] path then throw (.colonParameter path)
  let segments ← (chunks path).mapM (Segment.ofChunk path policy.rawLiterals)
  let names := segments.flatMap Segment.names
  if ¬names.Nodup then throw (.repeatedName path)
  let variants ← compile policy path (coversSubPaths path) segments
  return { path, segments, names, variants }

def accepts (t : Template) (uri : Text) : Bool :=
  t.variants.any fun v => v.matching.regex.isMatch uri

/-- The values of the parameters in a request path, in the order of declaration; none if
the request path does not match. -/
def params (t : Template) (uri : Text) : List (Text × Text) :=
  match t.variants.find? fun v => v.matching.regex.isMatch uri with
  | none => []
  | some v =>
    let values := (v.capturing.regex.captures? uri).getD []
    t.names.zip (values.map fun value => Percent.decode (value.getD []))

end Template

end PathRouting

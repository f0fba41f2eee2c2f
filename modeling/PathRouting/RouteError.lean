import PathRouting.Kind

/-! The reasons for which a route cannot be registered. Comparing a request with the
registered routes never fails. -/

namespace PathRouting

/-- Why a template or a route is refused. -/
inductive RouteError where
  /-- Brackets in a chunk of the path are unbalanced, nested or of mixed kinds. -/
  | misplacedBrackets (chunk path : Text)
  /-- A star stands next to a bracket in a chunk of the path. -/
  | starBesideBracket (chunk path : Text)
  /-- Two parameters have the same name. -/
  | repeatedName (path : Text)
  /-- The method already has a route with this path. -/
  | duplicateRoute (kind : Kind) (path : Text)
  /-- A parameter is written with a colon. -/
  | colonParameter (path : Text)
  /-- The path does not make a pattern. -/
  | invalidPattern (path : Text)
  /-- The name of a kind of route is not known. -/
  | unknownKind (name : Text)
  deriving DecidableEq

namespace RouteError

def quoted (t : Text) : String := "'" ++ t.toString ++ "'"

/-- The parts of the wording of the error. Of a path that does not make a pattern the reader of
patterns says more, in words of its own that are left out here. -/
def words : RouteError → List String
  | misplacedBrackets chunk path =>
    ["missing or misplaced brackets in segment ", quoted chunk, " of path ", quoted path]
  | starBesideBracket chunk path =>
    ["wildcard and parameter delimiter are adjacent in segment ", quoted chunk, " of path ",
      quoted path]
  | repeatedName path => ["duplicate path parameter names in path ", quoted path]
  | duplicateRoute kind path =>
    ["handler with type ", quoted kind.name.toList, " and path ", quoted path, " already exists"]
  | colonParameter path =>
    ["path ", quoted path,
      " uses ':param' syntax, declare parameters as '\x7Bparam\x7D' instead"]
  | invalidPattern path => ["path ", quoted path, " compiles to an invalid regex"]
  | unknownKind name => ["unknown handler type ", quoted name]

def message (e : RouteError) : String := String.join e.words

end RouteError

end PathRouting

import PathRouting.RouteError
import PathRouting.Template.Segment

/-! Reading one chunk of a path template. Braces enclose a parameter that stops at a
slash, angle brackets one that does not, and a star outside of them is a wildcard. -/

namespace PathRouting

/-- Whether a character opens or closes a parameter. -/
def isDelimiter (c : Char) : Bool := ['\x7B', '\x7D', '<', '>'].contains c

namespace Reach

def opening : Reach → Char
  | chunk => '\x7B'
  | path => '<'

def closing : Reach → Char
  | chunk => '\x7D'
  | path => '>'

end Reach

namespace Element

def literals (raw : Bool) (text : Text) : List Element :=
  if text.isEmpty then [] else [literal text raw]

/-- Takes a text apart into elements. `inside` is the parameter being read, if any, and
`buffer` the characters read since the last element, last first. There is no result if a
bracket closes nothing, opens inside a parameter or stays open. -/
def scan? (raw : Bool) (inside : Option Reach) (buffer : Text) : Text → Option (List Element)
  | [] =>
    match inside with
    | none => some (literals raw buffer.reverse)
    | some _ => none
  | c :: cs =>
    match inside with
    | none =>
      if c = '*' then
        (scan? raw none [] cs).map fun es => literals raw buffer.reverse ++ wildcard :: es
      else if c = Reach.chunk.opening then
        (scan? raw (some .chunk) [] cs).map fun es => literals raw buffer.reverse ++ es
      else if c = Reach.path.opening then
        (scan? raw (some .path) [] cs).map fun es => literals raw buffer.reverse ++ es
      else if isDelimiter c then none
      else scan? raw none (c :: buffer) cs
    | some reach =>
      if c = reach.closing then
        (scan? raw none [] cs).map fun es => parameter buffer.reverse reach :: es
      else if isDelimiter c then none
      else scan? raw (some reach) (c :: buffer) cs

/-- Joins neighbouring wildcards, and neighbouring literals that are both raw or both
not. -/
def merge : List Element → List Element
  | [] => []
  | e :: es =>
    match e, merge es with
    | wildcard, wildcard :: rest => wildcard :: rest
    | literal t raw, literal u raw' :: rest =>
      if raw = raw' then literal (t ++ u) raw :: rest
      else literal t raw :: literal u raw' :: rest
    | e, rest => e :: rest

end Element

namespace Segment

/-- Elements as one segment; a single one stays by itself. -/
def ofElements : List Element → Segment
  | [e] => element e
  | es => composite (es.map element)

/-- Whether a star stands next to a bracket, outside of a parameter. -/
def starBesideBracket (chunk : Text) : Bool :=
  [['*', '\x7B'], ['*', '<'], ['\x7D', '*'], ['>', '*']].any fun pair => Text.occurs pair chunk

/-- The name in a chunk that is nothing but one parameter, given that it has just two
delimiters. -/
def enclosed? (reach : Reach) (chunk : Text) : Option Text :=
  match chunk with
  | [] => none
  | c :: cs =>
    if c = reach.opening ∧ cs.getLast? = some reach.closing then some cs.dropLast else none

/-- The segment of a chunk, read element by element. -/
def scanned? (raw : Bool) (chunk : Text) : Option Segment :=
  (Element.scan? raw none [] chunk).map fun es => ofElements (Element.merge es)

/-- The segment of a chunk that can be told at sight: a star, a literal, or a parameter. -/
def plain? (raw : Bool) (chunk : Text) : Option Segment :=
  let delimiters := chunk.countP isDelimiter
  if chunk = ['*'] then some (element .wildcard)
  else if delimiters = 0 ∧ !chunk.contains '*' then some (element (.literal chunk raw))
  else if delimiters = 2 then
    ((enclosed? .chunk chunk).map fun name => element (.parameter name .chunk)).or
      ((enclosed? .path chunk).map fun name => element (.parameter name .path))
  else none

/-- The segment of a chunk of a path. The brackets are counted first, then the stars beside
them are looked at; most chunks can then be told at sight. -/
def ofChunk (path : Text) (raw : Bool) (chunk : Text) : Except RouteError Segment :=
  if chunk.countP isDelimiter % 2 ≠ 0 then .error (.misplacedBrackets chunk path)
  else if starBesideBracket chunk then .error (.starBesideBracket chunk path)
  else
    match (plain? raw chunk).or (scanned? raw chunk) with
    | some s => .ok s
    | none => .error (.misplacedBrackets chunk path)

end Segment

end PathRouting

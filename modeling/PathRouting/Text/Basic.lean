/-! Text as a list of characters. Paths, patterns and names are taken apart one
character at a time, so the list is the working form and `String` the outer one. -/

namespace PathRouting

/-- A piece of text, first character first. -/
abbrev Text := List Char

namespace Text

def toString (t : Text) : String := String.ofList t

/-- The pieces between the occurrences of `sep`; there is always at least one. -/
def pieces (sep : Char) : Text → List Text
  | [] => [[]]
  | c :: cs =>
    match pieces sep cs with
    | [] => [[c]]
    | p :: ps => if c = sep then [] :: p :: ps else (c :: p) :: ps

/-- The parts written one after another with `sep` between them. -/
def join (sep : Text) : List Text → Text
  | [] => []
  | [t] => t
  | t :: ts => t ++ sep ++ join sep ts

/-- Whether `t` holds `pattern` somewhere as consecutive characters. -/
def occurs (pattern : Text) : Text → Bool
  | [] => pattern.isEmpty
  | c :: cs => pattern.isPrefixOf (c :: cs) || occurs pattern cs

/-- Lower case on the ASCII letters, every other character as it is. -/
def lowerAscii (t : Text) : Text := t.map Char.toLower

def upperAscii (t : Text) : Text := t.map Char.toUpper

/-- Lexicographic order by code point, which is also the order of the UTF-8 forms. -/
def precedes : Text → Text → Bool
  | [], [] => false
  | [], _ :: _ => true
  | _ :: _, [] => false
  | c :: cs, d :: ds => c.toNat < d.toNat || (c == d && precedes cs ds)

end Text

end PathRouting

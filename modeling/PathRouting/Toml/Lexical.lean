import PathRouting.Toml.Value

/-! The smallest parts of a TOML document: blanks, line ends, comments and keys. A reader
of such a part gives what it read with the rest of the text, or nothing. -/

namespace PathRouting.Toml

/-- A reader of a part at the front of a text. -/
abbrev Scan (α : Type) := Text → Option (α × Text)

def isBlank (c : Char) : Bool := c == ' ' || c == '\t'

def skipBlanks (s : Text) : Text := s.dropWhile isBlank

/-- Whether a character can stand in a comment or a string: control characters other than
the tab cannot. -/
def isPrintable (c : Char) : Bool := c == '\t' || (0x20 ≤ c.toNat && c.toNat != 0x7F)

/-- The text after a line end, if there is one: a line feed, or a carriage return with a
line feed. -/
def newline? : Text → Option Text
  | '\n' :: cs => some cs
  | '\r' :: '\n' :: cs => some cs
  | _ => none

def skipComment : Text → Text
  | '#' :: cs => cs.dropWhile isPrintable
  | cs => cs

/-- The text after what may end a line: blanks, a comment, and the line end or the end of
the text. -/
def endLine? (s : Text) : Option Text :=
  match skipComment (skipBlanks s) with
  | [] => some []
  | rest => newline? rest

/-- The text without the blanks, line ends and comments at its front. The number bounds
the lines that are passed. -/
def skipLines : Nat → Text → Text
  | 0, s => s
  | n + 1, s =>
    let rest := skipComment (skipBlanks s)
    match newline? rest with
    | some next => skipLines n next
    | none => rest

/-- Reads the digits of a code point and the character that has it. -/
def codePoint? (count : Nat) : Scan Char := fun s =>
  let digits := s.take count
  let value := digits.foldl (fun n d => n * 16 + hexValue d) 0
  if digits.length = count ∧ digits.all isHex ∧ value.isValidChar then
    some (Char.ofNat value, s.drop count)
  else none
where
  /-- Whether a character is a hexadecimal digit. -/
  isHex (c : Char) : Bool :=
    c.isDigit || ('a' ≤ c && c ≤ 'f') || ('A' ≤ c && c ≤ 'F')
  /-- The value of a hexadecimal digit. -/
  hexValue (c : Char) : Nat :=
    if c.isDigit then c.toNat - '0'.toNat
    else if 'a' ≤ c then c.toNat - 'a'.toNat + 10
    else c.toNat - 'A'.toNat + 10

def escape? : Scan Char
  | 'b' :: cs => some ('\x08', cs)
  | 't' :: cs => some ('\t', cs)
  | 'n' :: cs => some ('\n', cs)
  | 'f' :: cs => some ('\x0C', cs)
  | 'r' :: cs => some ('\r', cs)
  | '"' :: cs => some ('"', cs)
  | '\\' :: cs => some ('\\', cs)
  | 'u' :: cs => codePoint? 4 cs
  | 'U' :: cs => codePoint? 8 cs
  | _ => none

/-- Reads the rest of a string in double quotes. The number bounds its characters. -/
def basicRest? : Nat → Scan Text
  | 0, _ => none
  | n + 1, s =>
    match s with
    | [] => none
    | '"' :: cs => some ([], cs)
    | '\\' :: cs =>
      match escape? cs with
      | none => none
      | some (c, cs) => (basicRest? n cs).map fun (t, rest) => (c :: t, rest)
    | c :: cs =>
      if isPrintable c then (basicRest? n cs).map fun (t, rest) => (c :: t, rest) else none

/-- Reads the rest of a string in single quotes. -/
def literalRest? (s : Text) : Option (Text × Text) :=
  match s.dropWhile fun c => isPrintable c && c != '\'' with
  | '\'' :: rest => some (s.takeWhile fun c => isPrintable c && c != '\'', rest)
  | _ => none

def isBareKeyChar (c : Char) : Bool := c.isAlphanum || c == '-' || c == '_'

def keyPart? : Scan Text
  | '"' :: cs => basicRest? (cs.length + 1) cs
  | '\'' :: cs => literalRest? cs
  | cs =>
    match cs.takeWhile isBareKeyChar with
    | [] => none
    | key => some (key, cs.dropWhile isBareKeyChar)

/-- The number of parts that a key, and of levels that a value, stays below. -/
def maxDepth : Nat := 80

/-- Reads the parts of a dotted key with the blanks around them. The number bounds the
parts. -/
def keyParts? : Nat → Scan (List Text)
  | 0, _ => none
  | n + 1, s =>
    match keyPart? (skipBlanks s) with
    | none => none
    | some (part, rest) =>
      match skipBlanks rest with
      | '.' :: rest => (keyParts? n rest).map fun (parts, rest) => (part :: parts, rest)
      | rest => some ([part], rest)

/-- Reads a dotted key as the path to a table and the key in it. -/
def key? (s : Text) : Option ((List Text × Text) × Text) :=
  match keyParts? (maxDepth - 1) s with
  | none => none
  | some (parts, rest) => parts.getLast?.map fun last => ((parts.dropLast, last), rest)

end PathRouting.Toml

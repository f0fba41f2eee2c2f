import PathRouting.Regex.Reading
import PathRouting.Text.Percent

/-! Escapes of patterns: the characters, sets and conditions that begin with a
backslash. -/

namespace PathRouting.Regex

/-- What an escape stands for. -/
inductive Escape where
  /-- A character; `byte` tells that it was written as two hexadecimal digits. -/
  | char (c : Char) (byte : Bool)
  | set (s : CharSet)
  | look (l : Look)

def hexNumber (digits : Text) : Nat :=
  digits.foldl (fun n d => n * 16 + (Percent.digitValue? d).getD 0) 0

def hexChar? (digits : Text) : Except Fault Char :=
  let n := hexNumber digits
  if n.isValidChar then .ok (Char.ofNat n) else .error .badCodePoint

def hexDigits (f : Flags) : Nat → Text → Reading Text
  | 0, s => .ok ([], s)
  | n + 1, s =>
    match s with
    | [] => .error .unfinished
    | c :: cs =>
      if (Percent.digitValue? c).isNone then .error .badEscape
      else
        match hexDigits f n (f.skip cs) with
        | .ok (ds, rest) => .ok (c :: ds, rest)
        | .error e => .error e

def bracedDigits (f : Flags) : Nat → Text → Reading Text
  | 0, _ => .error .unfinished
  | n + 1, s =>
    match s with
    | [] => .error .unfinished
    | '\x7D' :: cs => .ok ([], f.skip cs)
    | c :: cs =>
      if (Percent.digitValue? c).isNone then .error .badEscape
      else
        match bracedDigits f n (f.skip cs) with
        | .ok (ds, rest) => .ok (c :: ds, rest)
        | .error e => .error e

/-- Reads the code point of an escape that writes it in hexadecimal, in braces or with a
fixed number of digits. -/
def hexEscape (f : Flags) (count : Nat) (s : Text) : Reading Escape :=
  match f.skip s with
  | [] => .error .unfinished
  | '\x7B' :: cs =>
    let cs := f.skip cs
    match bracedDigits f (cs.length + 1) cs with
    | .error e => .error e
    | .ok ([], _) => .error .badEscape
    | .ok (ds, rest) =>
      match hexChar? ds with
      | .error e => .error e
      | .ok c => .ok (.char c false, rest)
  | cs =>
    match hexDigits f count cs with
    | .error e => .error e
    | .ok (ds, rest) =>
      match hexChar? ds with
      | .error e => .error e
      | .ok c => .ok (.char c (count == 2), rest)

def bracedText (f : Flags) : Nat → Text → Reading Text
  | 0, _ => .error .unfinished
  | n + 1, s =>
    match s with
    | [] => .error .unfinished
    | '\x7D' :: cs => .ok ([], cs)
    | c :: cs =>
      match bracedText f n (f.skip cs) with
      | .ok (ds, rest) => .ok (c :: ds, rest)
      | .error e => .error e

/-- The text before and after the first place where `sep` occurs in `t`. -/
def splitAround (sep : Text) : Text → Option (Text × Text)
  | [] => none
  | c :: cs =>
    if sep.isPrefixOf (c :: cs) then some ([], (c :: cs).drop sep.length)
    else (splitAround sep cs).map fun (a, b) => (c :: a, b)

/-- The property that the text in the braces of a property escape means. -/
def propertyOf? (t : Text) : Option Unicode.Property :=
  match splitAround ['!', '='] t with
  | some (name, value) => Unicode.Property.valued? name value
  | none =>
    match splitAround [':'] t with
    | some (name, value) => Unicode.Property.valued? name value
    | none =>
      match splitAround ['='] t with
      | some (name, value) => Unicode.Property.valued? name value
      | none => Unicode.Property.named? t

/-- Reads the name of a property escape: one character, or a text in braces. -/
def propertyEscape (f : Flags) (negated : Bool) (s : Text) : Reading Escape :=
  let name : Reading Text :=
    match f.skip s with
    | [] => .error .unfinished
    | '\x7B' :: cs => let cs := f.skip cs; bracedText f (cs.length + 1) cs
    | '\\' :: _ => .error .badEscape
    | c :: cs => .ok ([c], f.skip cs)
  match name with
  | .error e => .error e
  | .ok (t, rest) =>
    if !f.unicode then .error .needsUnicode
    else
      match propertyOf? t with
      | none => .error .unknownProperty
      | some p =>
        match f.finishSet negated (.property p) with
        | .error e => .error e
        | .ok set => .ok (.set set, rest)

/-- A set that is written with one letter, or its complement. -/
def letterSet (f : Flags) (negated : Bool) (wide ascii : CharSet) : Except Fault CharSet :=
  if f.unicode then .ok (.complIf negated wide)
  else if negated then .error .needsUnicode
  else .ok ascii

def isEdgeNameChar (c : Char) : Bool := c.isAlpha || c == '-'

def edgeName (f : Flags) : Nat → Text → Text × Text
  | 0, s => ([], s)
  | n + 1, s =>
    match s with
    | [] => ([], [])
    | c :: cs =>
      if isEdgeNameChar c then
        let (name, rest) := edgeName f n (f.skip cs)
        (c :: name, rest)
      else ([], c :: cs)

/-- Reads what follows the escape of a word boundary. Braces that hold a name choose
another edge; braces that do not are left for the repetition that they may be. -/
def boundaryEscape (f : Flags) (s : Text) : Reading Escape :=
  let plain : Escape := .look (.word (!f.unicode) .boundary)
  match s with
  | '\x7B' :: cs =>
    match f.skip cs with
    | [] => .error .unfinished
    | c :: cs =>
      if isEdgeNameChar c then
        match edgeName f (cs.length + 1) (c :: cs) with
        | (name, '\x7D' :: rest) =>
          match [("start", WordEdge.start), ("end", .stop), ("start-half", .startHalf),
            ("end-half", .stopHalf)].lookup (String.ofList name) with
          | some edge => .ok (.look (.word (!f.unicode) edge), rest)
          | none => .error .badEscape
        | _ => .error .unfinished
      else .ok (plain, s)
  | _ => .ok (plain, s)

/-- Whether a backslash before the character stands for the character itself. -/
def isEscapable (c : Char) : Bool :=
  isMeta c || (c.toNat < 0x80 && !c.isAlphanum && c != '<' && c != '>')

/-- The control character that an escape with one letter stands for. -/
def controlEscape? (c : Char) : Option Char :=
  [('a', '\x07'), ('f', '\x0C'), ('t', '\t'), ('n', '\n'), ('r', '\r'), ('v', '\x0B')].lookup c

def readEscape (f : Flags) : Text → Reading Escape
  | [] => .error .unfinished
  | c :: cs =>
    if c.isDigit then .error .backreference
    else if isEscapable c then .ok (.char c false, cs)
    else
      let fixed (s : Except Fault CharSet) : Reading Escape :=
        match s with
        | .error e => .error e
        | .ok s => .ok (.set s, cs)
      let edge (e : WordEdge) : Reading Escape := .ok (.look (.word (!f.unicode) e), cs)
      match controlEscape? c with
      | some d => .ok (.char d false, cs)
      | none =>
        match c with
        | 'x' => hexEscape f 2 cs
        | 'u' => hexEscape f 4 cs
        | 'U' => hexEscape f 8 cs
        | 'p' => propertyEscape f false cs
        | 'P' => propertyEscape f true cs
        | 'd' => fixed (letterSet f false .digits .asciiDigits)
        | 'D' => fixed (letterSet f true .digits .asciiDigits)
        | 's' => fixed (letterSet f false .blanks .asciiBlanks)
        | 'S' => fixed (letterSet f true .blanks .asciiBlanks)
        | 'w' => fixed (letterSet f false .wordChars .asciiWordChars)
        | 'W' => fixed (letterSet f true .wordChars .asciiWordChars)
        | 'A' => .ok (.look .textStart, cs)
        | 'z' => .ok (.look .textEnd, cs)
        | 'b' => boundaryEscape f cs
        | 'B' => edge .noBoundary
        | '<' => edge .start
        | '>' => edge .stop
        | _ => .error .badEscape

end PathRouting.Regex

import PathRouting.Regex.Escape
import PathRouting.Regex.Basic
import PathRouting.Text.Blank

/-! What the reading of patterns starts from: the faults a pattern can have, the flags
that are in force at each place of it, and blank space in verbose patterns. -/

namespace PathRouting.Regex

/-- Why a text is not a pattern. -/
inductive Fault where
  /-- The pattern ends inside a group, a class, an escape or a repetition. -/
  | unfinished
  | unopenedGroup
  | nothingToRepeat
  | badCount
  | badEscape
  | badCodePoint
  | backreference
  | lookAround
  | badFlags
  | badGroupName
  | duplicateGroupName
  /-- Something in brackets is not a set of characters, or not a bound of a range. -/
  | badMember
  | emptyRange
  | unknownProperty
  /-- The construct could take a part of a character unless Unicode mode is on. -/
  | needsUnicode
  | tooNested
  /-- A repetition takes too much room when it is written out. -/
  | tooLarge
  deriving DecidableEq

/-- The result of reading something off the front of a text: what was read and what is
left. -/
abbrev Reading (α : Type) := Except Fault (α × Text)

/-- The flags of a pattern. -/
structure Flags where
  caseless : Bool := false
  multiLine : Bool := false
  dotAll : Bool := false
  swapGreed : Bool := false
  unicode : Bool := true
  crlf : Bool := false
  verbose : Bool := false
  deriving DecidableEq

/-- Drops white space and comments. A comment runs to the end of its line. -/
def skipComments (inComment : Bool) : Text → Text
  | [] => []
  | c :: cs =>
    if inComment then skipComments (c != '\n') cs
    else if Text.isBlank c then skipComments false cs
    else if c = '#' then skipComments true cs
    else c :: cs

namespace Flags

/-- Drops what does not count between the parts of a pattern: nothing, unless the pattern
is verbose. -/
def skip (f : Flags) (s : Text) : Text := if f.verbose then skipComments false s else s

/-- The next character that counts, in a class, after a hyphen. -/
def peek (f : Flags) (s : Text) : Option Char :=
  if f.verbose then
    match s.dropWhile Text.isBlank with
    | [] => s.head?
    | '#' :: cs => ((cs.dropWhile Text.isBlank).head?).or s.head?
    | c :: _ => some c
  else s.head?

/-- A set of characters under the flags: closed under case, then complemented. Without
Unicode mode sets are sets of ASCII characters, and complements are refused. -/
def finishSet (f : Flags) (negated : Bool) (s : CharSet) : Except Fault CharSet :=
  if f.unicode then .ok (.complIf negated (.foldedIf f.caseless s))
  else if negated then .error .needsUnicode
  else .ok (if f.caseless then .inter (.folded s) (.range '\x00' '\x7F') else s)

/-- The set of characters that a literal stands for. -/
def literalSet (f : Flags) (c : Char) : CharSet :=
  if f.caseless then
    if f.unicode then .caseless c
    else if c.toNat < 0x80 then .inter (.caseless c) (.range '\x00' '\x7F')
    else .single c
  else .single c

def dotSet (f : Flags) : Except Fault CharSet :=
  if !f.unicode then .error .needsUnicode
  else if f.dotAll then .ok (.compl .none)
  else if f.crlf then .ok (.compl (.union (.single '\r') (.single '\n')))
  else .ok (.compl (.single '\n'))

def startLook (f : Flags) : Look := if f.multiLine then .lineStart f.crlf else .textStart

def endLook (f : Flags) : Look := if f.multiLine then .lineEnd f.crlf else .textEnd

end Flags

end PathRouting.Regex

import PathRouting.Regex.Escapes

/-! What an opening parenthesis begins: a group that remembers, one that does not, or a
directive that sets flags for the rest of the enclosing group. -/

namespace PathRouting.Regex

/-- What an opening parenthesis begins. -/
inductive Opening where
  /-- A group that remembers what it took. -/
  | capture (name : Option Text)
  /-- A group under the given flags. -/
  | plain (f : Flags)
  /-- No group: the flags from here on. -/
  | directive (f : Flags)

/-- The flags with the one of a given letter set or cleared. -/
def Flags.set? (f : Flags) (letter : Char) (on : Bool) : Option Flags :=
  match letter with
  | 'i' => some { f with caseless := on }
  | 'm' => some { f with multiLine := on }
  | 's' => some { f with dotAll := on }
  | 'U' => some { f with swapGreed := on }
  | 'u' => some { f with unicode := on }
  | 'R' => some { f with crlf := on }
  | 'x' => some { f with verbose := on }
  | _ => none

/-- Reads flag letters up to a colon or a closing parenthesis and applies them to `f`.
`seen` are the letters and hyphens before; none of them may come again, and the letters
after a hyphen clear their flags. -/
def readFlags (f : Flags) (seen : Text) : Text → Reading (Flags × Text)
  | [] => .error .unfinished
  | c :: cs =>
    if c = ':' ∨ c = ')' then
      if seen.head? = some '-' then .error .badFlags else .ok ((f, seen), c :: cs)
    else if seen.contains c then .error .badFlags
    else if c = '-' then readFlags f (c :: seen) cs
    else
      match f.set? c (!seen.contains '-') with
      | none => .error .badFlags
      | some g => readFlags g (c :: seen) cs

def isNameChar (first : Bool) (c : Char) : Bool :=
  let letter := Unicode.hasBinary "alphabetic" c
  if first then c == '_' || letter
  else
    c == '_' || c == '.' || c == '[' || c == '\x5D' || letter ||
      ["Nd", "Nl", "No"].contains (Unicode.category c)

def readName (s : Text) : Reading Text :=
  let name := s.takeWhile (· != '>')
  if !(name.take 1).all (isNameChar true) || !(name.drop 1).all (isNameChar false) then
    .error .badGroupName
  else
    match s.dropWhile (· != '>') with
    | [] => .error .unfinished
    | _ :: rest => if name.isEmpty then .error .badGroupName else .ok (name, rest)

def readOpening (f : Flags) (s : Text) : Reading Opening :=
  match f.skip s with
  | '?' :: '=' :: _ => .error .lookAround
  | '?' :: '!' :: _ => .error .lookAround
  | '?' :: '<' :: '=' :: _ => .error .lookAround
  | '?' :: '<' :: '!' :: _ => .error .lookAround
  | '?' :: 'P' :: '<' :: cs => named cs
  | '?' :: '<' :: cs => named cs
  | '?' :: cs =>
    match readFlags f [] cs with
    | .error e => .error e
    | .ok ((_, []), ')' :: _) => .error .nothingToRepeat
    | .ok ((g, _), ')' :: rest) => .ok (.directive g, rest)
    | .ok ((g, _), _ :: rest) => .ok (.plain g, rest)
    | .ok (_, []) => .error .unfinished
  | cs => .ok (.capture none, cs)
where
  /-- A group with a name. -/
  named (cs : Text) : Reading Opening :=
    match readName cs with
    | .error e => .error e
    | .ok (name, rest) => .ok (.capture (some name), rest)

end PathRouting.Regex

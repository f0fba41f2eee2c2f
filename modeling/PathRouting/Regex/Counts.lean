import PathRouting.Regex.Reading

/-! The signs that repeat what stands before them: `?`, `*`, `+` and counts in braces. -/

namespace PathRouting.Regex

/-- How often something is repeated: a least number of turns and the number of further
ones, any number if there is no bound. -/
structure Count where
  least : Nat
  extra : Option Nat

/-- Reads a decimal number with white space around it; `none` if it has no digit. -/
def readDecimal (f : Flags) (s : Text) : Option (Except Fault Nat) × Text :=
  let s := s.dropWhile Text.isBlank
  let (digits, rest) := decimalDigits (s.length + 1) s
  let rest := skipBlanks (rest.length + 1) rest
  let n := digits.foldl (fun n d => n * 10 + (d.toNat - '0'.toNat)) 0
  if digits.isEmpty then (none, rest)
  else (some (if n < 4294967296 then .ok n else .error .badCount), rest)
where
  /-- The digits at the front of a text. -/
  decimalDigits : Nat → Text → Text × Text
    | 0, s => ([], s)
    | n + 1, s =>
      match s with
      | [] => ([], [])
      | c :: cs =>
        if c.isDigit then
          let (ds, rest) := decimalDigits n (f.skip cs)
          (c :: ds, rest)
        else ([], c :: cs)
  /-- The text without the white space at its front. -/
  skipBlanks : Nat → Text → Text
    | 0, s => s
    | n + 1, s =>
      match s with
      | [] => []
      | c :: cs => if Text.isBlank c then skipBlanks n (f.skip cs) else c :: cs

/-- Reads the sign that may follow a repetition and make it prefer fewer turns. -/
def readLazy (s : Text) : Bool × Text :=
  match s with
  | '?' :: cs => (true, cs)
  | cs => (false, cs)

/-- Reads a count after its opening brace, up to the closing one. -/
def readCount (f : Flags) (s : Text) : Reading Count :=
  match f.skip s with
  | [] => .error .unfinished
  | cs =>
    let (least, rest) := readDecimal f cs
    match rest with
    | [] => .error .unfinished
    | ',' :: ds =>
      match f.skip ds with
      | [] => .error .unfinished
      | '\x7D' :: rest =>
        match least with
        | none => .error .badCount
        | some (.error e) => .error e
        | some (.ok n) => .ok (⟨n, none⟩, rest)
      | ds =>
        match least, readDecimal f ds with
        | some (.ok n), (some (.ok m), '\x7D' :: rest) =>
          if n ≤ m then .ok (⟨n, some (m - n)⟩, rest) else .error .badCount
        | _, _ => .error .badCount
    | '\x7D' :: rest =>
      match least with
      | none => .error .badCount
      | some (.error e) => .error e
      | some (.ok n) => .ok (⟨n, some 0⟩, rest)
    | _ => .error .badCount

/-- Reads a sign of repetition with the question mark that may follow it. -/
def readRepeat (f : Flags) (s : Text) : Option (Reading (Bool × Count)) :=
  match s with
  | '?' :: cs => some (simple ⟨0, some 1⟩ cs)
  | '*' :: cs => some (simple ⟨0, none⟩ cs)
  | '+' :: cs => some (simple ⟨1, none⟩ cs)
  | '\x7B' :: cs =>
    some <|
      match readCount f cs with
      | .error e => .error e
      | .ok (count, rest) => simple count (f.skip rest)
  | _ => none
where
  /-- A repetition with a known count. -/
  simple (count : Count) (s : Text) : Reading (Bool × Count) :=
    let (isLazy, rest) := readLazy s
    .ok ((isLazy == f.swapGreed, count), rest)

end PathRouting.Regex

import PathRouting.Toml.Lexical

/-! TOML numbers, dates and times. -/

namespace PathRouting.Toml

/-- Reads one or more digits of a kind; single underscores may stand between them and are
dropped. -/
def digits? (isDigit : Char → Bool) : Nat → Scan Text
  | 0, _ => none
  | n + 1, s =>
    match s with
    | [] => none
    | c :: cs =>
      if !isDigit c then none
      else
        match cs with
        | '_' :: ds => (digits? isDigit n ds).map fun (t, rest) => (c :: t, rest)
        | d :: _ =>
          if isDigit d then (digits? isDigit n cs).map fun (t, rest) => (c :: t, rest)
          else some ([c], cs)
        | [] => some ([c], [])

def number (base : Nat) (digits : Text) : Nat :=
  digits.foldl (fun n d =>
    n * base + (if d.isDigit then d.toNat - '0'.toNat else d.toLower.toNat - 'a'.toNat + 10)) 0

/-- Reads a sign that may be there: whether it is a minus. -/
def sign (s : Text) : Bool × Text :=
  match s with
  | '-' :: cs => (true, cs)
  | '+' :: cs => (false, cs)
  | cs => (false, cs)

/-- Reads a decimal integer without its sign; only a lone zero begins with a zero. -/
def decimal? : Scan Text
  | '0' :: cs => some (['0'], cs)
  | cs => digits? Char.isDigit (cs.length + 1) cs

def fits (n : Int) : Bool := -9223372036854775808 ≤ n && n < 9223372036854775808

def fitting? (n : Int) (rest : Text) : Option (Value × Text) :=
  if fits n then some (.integer n, rest) else none

/-- Reads an integer in another base than ten after its mark. -/
def based? (base : Nat) (isDigit : Char → Bool) (s : Text) : Option (Value × Text) :=
  match digits? isDigit (s.length + 1) s with
  | none => none
  | some (ds, rest) => fitting? (number base ds) rest

def integer? (s : Text) : Option (Value × Text) :=
  match s with
  | '0' :: 'x' :: cs => based? 16 codePoint?.isHex cs
  | '0' :: 'o' :: cs => based? 8 (fun c => '0' ≤ c && c ≤ '7') cs
  | '0' :: 'b' :: cs => based? 2 (fun c => c == '0' || c == '1') cs
  | _ =>
    let (minus, cs) := sign s
    match decimal? cs with
    | none => none
    | some (ds, rest) =>
      let n : Int := number 10 ds
      fitting? (if minus then -n else n) rest

def fraction? (s : Text) : Option (Text × Text) :=
  match s with
  | '.' :: cs => digits? Char.isDigit (cs.length + 1) cs
  | cs => some ([], cs)

def exponent? (s : Text) : Option (Option Int × Text) :=
  let read (cs : Text) : Option (Option Int × Text) :=
    let (minus, cs) := sign cs
    (digits? Char.isDigit (cs.length + 1) cs).map fun (ds, rest) =>
      let n : Int := number 10 ds
      (some (if minus then -n else n), rest)
  match s with
  | 'e' :: cs => read cs
  | 'E' :: cs => read cs
  | cs => some (none, cs)

/-- Whether `digits` times ten to the power `exponent` is beyond all finite 64-bit
floats: it is not below the middle between the largest of them and the next power of
two. -/
def isInfinite (digits : Text) (exponent : Int) : Bool :=
  let significant := digits.dropWhile (· == '0')
  let magnitude := (significant.length : Int) + exponent
  if significant.isEmpty || magnitude < 300 then false
  else if 400 < magnitude then true
  else
    let limit := (Nat.pow 2 54 - 1) * Nat.pow 2 970
    let n := number 10 significant
    if 0 ≤ exponent then limit ≤ n * Nat.pow 10 exponent.toNat
    else limit * Nat.pow 10 (-exponent).toNat ≤ n

/-- Reads a float. A float has a fraction or an exponent, or is a sign with one of the two
words for what is no number. A positive one has to be finite. -/
def float? (s : Text) : Option (Value × Text) :=
  let (minus, cs) := sign s
  match cs with
  | 'i' :: 'n' :: 'f' :: rest => some (.float, rest)
  | 'n' :: 'a' :: 'n' :: rest => some (.float, rest)
  | _ =>
    match decimal? cs with
    | none => none
    | some (whole, rest) =>
      match fraction? rest with
      | none => none
      | some (part, rest) =>
        match exponent? rest with
        | none => none
        | some (power, rest) =>
          if part.isEmpty && power.isNone then none
          else if !minus && isInfinite (whole ++ part) (power.getD 0 - part.length) then none
          else some (.float, rest)

def fixed? (count low high : Nat) (s : Text) : Option (Nat × Text) :=
  let ds := s.take count
  let n := number 10 ds
  if ds.length = count ∧ ds.all Char.isDigit ∧ low ≤ n ∧ n ≤ high then some (n, s.drop count)
  else none

def after? (c : Char) : Text → Option Text
  | d :: cs => if c = d then some cs else none
  | [] => none

def daysIn (year month : Nat) : Nat :=
  if month = 2 then
    if year % 4 = 0 ∧ (year % 100 ≠ 0 ∨ year % 400 = 0) then 29 else 28
  else if [4, 6, 9, 11].contains month then 30
  else 31

def date? (s : Text) : Option Text := do
  let (year, s) ← fixed? 4 0 9999 s
  let s ← after? '-' s
  let (month, s) ← fixed? 2 1 12 s
  let s ← after? '-' s
  let (_, s) ← fixed? 2 1 (daysIn year month) s
  return s

/-- The text after a time of day, with seconds and perhaps a fraction of them. -/
def time? (s : Text) : Option Text := do
  let (_, s) ← fixed? 2 0 23 s
  let s ← after? ':' s
  let (_, s) ← fixed? 2 0 59 s
  let s ← after? ':' s
  let (_, s) ← fixed? 2 0 60 s
  match s with
  | '.' :: cs => if (cs.take 1).any Char.isDigit then some (cs.dropWhile Char.isDigit) else none
  | cs => some cs

/-- The text after an offset from universal time that may be there. -/
def offset? (s : Text) : Option Text :=
  let read (cs : Text) : Option Text := do
    let (_, s) ← fixed? 2 0 23 cs
    let s ← after? ':' s
    let (_, s) ← fixed? 2 0 59 s
    return s
  match s with
  | 'Z' :: cs => some cs
  | 'z' :: cs => some cs
  | '+' :: cs => read cs
  | '-' :: cs => read cs
  | cs => some cs

/-- Reads a date, a time, or both with perhaps an offset. A blank after a date belongs to
it only if a time follows. -/
def moment? (s : Text) : Option (Value × Text) :=
  match date? s with
  | none => (time? s).map fun rest => (.moment, rest)
  | some rest =>
    match rest with
    | [] => some (.moment, [])
    | c :: cs =>
      if c = 'T' ∨ c = 't' ∨ c = ' ' then
        match (time? cs).bind offset? with
        | some rest => some (.moment, rest)
        | none => some (.moment, rest)
      else some (.moment, rest)

def numeric? (s : Text) : Option (Value × Text) :=
  ((moment? s).or (float? s)).or (integer? s)

end PathRouting.Toml

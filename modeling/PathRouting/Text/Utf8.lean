import PathRouting.Text.Basic

/-! UTF-8 as a stream of bytes. A reader that keeps the unfinished character as its
state splits any byte sequence into characters and ill-formed stretches, one stretch
for each longest beginning of a character that is not carried on. -/

namespace PathRouting.Utf8

def encode (t : Text) : List UInt8 := t.flatMap String.utf8EncodeChar

/-- A character of which some bytes have been read: its value so far, how many bytes
are still to come, and the range in which the next one has to be. -/
structure Unfinished where
  value : Nat
  missing : Nat
  low : Nat
  high : Nat

/-- What a byte does where a character may begin. -/
inductive Opening where
  | char (c : Char)
  | more (u : Unfinished)
  | illFormed

/-- The ranges of the second byte shut out overlong forms, surrogates and values
beyond the last code point. -/
def opening (b : Nat) : Opening :=
  if b < 0x80 then .char (Char.ofNat b)
  else if b < 0xC2 then .illFormed
  else if b < 0xE0 then .more ⟨b - 0xC0, 1, 0x80, 0xBF⟩
  else if b = 0xE0 then .more ⟨0, 2, 0xA0, 0xBF⟩
  else if b = 0xED then .more ⟨0xD, 2, 0x80, 0x9F⟩
  else if b < 0xF0 then .more ⟨b - 0xE0, 2, 0x80, 0xBF⟩
  else if b = 0xF0 then .more ⟨0, 3, 0x90, 0xBF⟩
  else if b < 0xF4 then .more ⟨b - 0xF0, 3, 0x80, 0xBF⟩
  else if b = 0xF4 then .more ⟨4, 3, 0x80, 0x8F⟩
  else .illFormed

/-- What a byte completes where a character may begin, and the character it begins;
`none` stands for an ill-formed stretch. -/
def start (b : Nat) : List (Option Char) × Option Unfinished :=
  match opening b with
  | .char c => ([some c], none)
  | .more u => ([], some u)
  | .illFormed => ([none], none)

/-- What a byte completes after the character begun before it. A byte that does not carry
this character on ends an ill-formed stretch and may itself begin a character. -/
def step (pending : Option Unfinished) (b : Nat) : List (Option Char) × Option Unfinished :=
  match pending with
  | none => start b
  | some u =>
    if u.low ≤ b ∧ b ≤ u.high then
      let value := u.value * 64 + (b - 0x80)
      if u.missing ≤ 1 then ([some (Char.ofNat value)], none)
      else ([], some ⟨value, u.missing - 1, 0x80, 0xBF⟩)
    else (none :: (start b).1, (start b).2)

/-- The characters and ill-formed stretches of a byte sequence, `pending` being the
character begun before it. -/
def units (pending : Option Unfinished) : List UInt8 → List (Option Char)
  | [] => if pending.isSome then [none] else []
  | byte :: bytes =>
    let (out, next) := step pending byte.toNat
    out ++ units next bytes

def replacement : Char := Char.ofNat 0xFFFD

/-- The text of a byte sequence with U+FFFD for every ill-formed stretch. -/
def decodeLossy (bytes : List UInt8) : Text :=
  (units none bytes).map fun u => u.getD replacement

/-- The text of a byte sequence, if the sequence is well formed. -/
def decode? (bytes : List UInt8) : Option Text := (units none bytes).mapM id

end PathRouting.Utf8

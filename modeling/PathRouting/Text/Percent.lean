import PathRouting.Text.Utf8

/-! Percent escapes in the text of a path. Reading replaces each escape by its byte and
leaves everything else alone, a plus sign and a broken escape included; writing escapes
every byte that is not an unreserved character. -/

namespace PathRouting.Percent

/-- The value of a hexadecimal digit in either case. -/
def digitValue? (c : Char) : Option Nat :=
  if '0' ≤ c ∧ c ≤ '9' then some (c.toNat - '0'.toNat)
  else if 'a' ≤ c ∧ c ≤ 'f' then some (c.toNat - 'a'.toNat + 10)
  else if 'A' ≤ c ∧ c ≤ 'F' then some (c.toNat - 'A'.toNat + 10)
  else none

/-- The bytes that a text stands for once its escapes are resolved. -/
def bytes : Text → List UInt8
  | '%' :: h :: l :: rest =>
    match digitValue? h, digitValue? l with
    | some x, some y => UInt8.ofNat (x * 16 + y) :: bytes rest
    | _, _ => '%'.toUInt8 :: bytes (h :: l :: rest)
  | c :: rest => String.utf8EncodeChar c ++ bytes rest
  | [] => []

/-- The text that a text stands for once its escapes are resolved. -/
def decode (t : Text) : Text := Utf8.decodeLossy (bytes t)

def isUnreserved (c : Char) : Bool :=
  c.isAlphanum || c == '-' || c == '.' || c == '_' || c == '~'

def digit (n : Nat) : Char :=
  if n < 10 then Char.ofNat ('0'.toNat + n) else Char.ofNat ('A'.toNat + (n - 10))

def escape (b : UInt8) : Text := ['%', digit (b.toNat / 16), digit (b.toNat % 16)]

/-- The text with every byte outside the unreserved characters escaped. -/
def encode (t : Text) : Text :=
  t.flatMap fun c => if isUnreserved c then [c] else (String.utf8EncodeChar c).flatMap escape

end PathRouting.Percent

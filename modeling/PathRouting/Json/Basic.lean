import PathRouting.Text.Basic

/-! JSON values with objects whose fields keep their order, and the layout in which they
are printed: one field or item a line, indented by two spaces. -/

namespace PathRouting

/-- A JSON value. A number is kept as it is written. -/
inductive Json where
  | null
  | bool (b : Bool)
  | number (digits : String)
  | string (s : String)
  | array (items : List Json)
  | object (fields : List (String × Json))
  deriving Inhabited

namespace Json

def hexDigit (n : Nat) : Char :=
  if n < 10 then Char.ofNat ('0'.toNat + n) else Char.ofNat ('a'.toNat + (n - 10))

/-- A character inside quotes: quotes, backslashes and control characters are escaped. -/
def escapeChar (c : Char) : Text :=
  if c = '"' then ['\\', '"']
  else if c = '\\' then ['\\', '\\']
  else if c = '\n' then ['\\', 'n']
  else if c = '\r' then ['\\', 'r']
  else if c = '\t' then ['\\', 't']
  else if c = '\x08' then ['\\', 'b']
  else if c = '\x0C' then ['\\', 'f']
  else if c.toNat < 0x20 then
    ['\\', 'u', '0', '0', hexDigit (c.toNat / 16), hexDigit (c.toNat % 16)]
  else [c]

def quote (s : String) : Text := '"' :: s.toList.flatMap escapeChar ++ ['"']

/-- The start of a line at a depth. -/
def newline (depth : Nat) : Text := '\n' :: List.replicate (2 * depth) ' '

mutual

/-- A value that begins at a depth. -/
def render (depth : Nat) : Json → Text
  | null => ['n', 'u', 'l', 'l']
  | bool true => ['t', 'r', 'u', 'e']
  | bool false => ['f', 'a', 'l', 's', 'e']
  | number digits => digits.toList
  | string s => quote s
  | array [] => ['[', ']']
  | array (v :: vs) =>
    '[' :: newline (depth + 1) ++ render (depth + 1) v ++ renderItems (depth + 1) vs ++
      newline depth ++ [']']
  | object [] => ['\x7B', '\x7D']
  | object ((k, v) :: fs) =>
    '\x7B' :: newline (depth + 1) ++ quote k ++ [':', ' '] ++ render (depth + 1) v ++
      renderFields (depth + 1) fs ++ newline depth ++ ['\x7D']

def renderItems (depth : Nat) : List Json → Text
  | [] => []
  | v :: vs => ',' :: newline depth ++ render depth v ++ renderItems depth vs

def renderFields (depth : Nat) : List (String × Json) → Text
  | [] => []
  | (k, v) :: fs =>
    ',' :: newline depth ++ quote k ++ [':', ' '] ++ render depth v ++ renderFields depth fs

end

def pretty (v : Json) : Text := v.render 0

end Json

end PathRouting

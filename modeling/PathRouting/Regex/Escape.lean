import PathRouting.Text.Basic

/-! Writing a text as a pattern that matches exactly this text. -/

namespace PathRouting.Regex

/-- Whether a character has a meaning of its own somewhere in a pattern. -/
def isMeta (c : Char) : Bool :=
  ['\\', '.', '+', '*', '?', '(', ')', '|', '[', ']', '\x7B', '\x7D', '^', '$', '#', '&', '-',
    '~'].contains c

/-- One character as a pattern: a meta character gets a backslash. -/
def escapeChar (c : Char) : Text := if isMeta c then ['\\', c] else [c]

def escape (t : Text) : Text := t.flatMap escapeChar

end PathRouting.Regex

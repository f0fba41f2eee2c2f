import PathRouting.Text.Basic
import PathRouting.Unicode.Binary
import PathRouting.Unicode.Script

/-! Properties of characters by name. Names are compared without regard to case, spaces,
hyphens, underscores and a leading "is". -/

namespace PathRouting.Unicode

/-- A set of characters that the Unicode standard gives a name. -/
inductive Property where
  | any
  | assigned
  | ascii
  | category (codes : List String)
  | script (code : String)
  | scriptExtensions (code : String)
  | binary (name : String)
  deriving DecidableEq

namespace Property

def holds : Property → Char → Bool
  | any, _ => true
  | assigned, c => Unicode.category c != "Cn"
  | ascii, c => c.toNat < 0x80
  | category codes, c => codes.contains (Unicode.category c)
  | script code, c => Unicode.script c == code
  | scriptExtensions code, c => inScriptExtensions code c
  | binary name, c => hasBinary name c

/-- A name without what does not count in a comparison of names. "isc" keeps its first
two letters, since what is left of it would be the name of a category. -/
def plainName (name : Text) : String :=
  let lower := Text.lowerAscii name
  let isForm := ['i', 's'].isPrefixOf lower
  let counted := (if isForm then lower.drop 2 else lower).filter fun c =>
    c != ' ' && c != '_' && c != '-' && c.toNat < 0x80
  if isForm && counted == ['c'] then "isc" else String.ofList counted

def categoryNamed? (name : String) : Option Property :=
  if name == "any" then some any
  else if name == "assigned" then some assigned
  else if name == "ascii" then some ascii
  else (categoryNames.find? fun row => row.1.contains name).map fun row => category row.2

def scriptCode? (name : String) : Option String :=
  (scriptNames.find? fun row => row.2.contains name).map (·.1)

/-- The property that a bare name means: a property that holds or does not hold, a general
category or a script. "cf", "sc" and "lc" always mean categories. -/
def named? (name : Text) : Option Property :=
  let plain := plainName name
  let asBinary :=
    if ["cf", "sc", "lc"].contains plain then none
    else (Binary.named? plain).map fun p => binary (p.names.headD plain)
  asBinary <|> categoryNamed? plain <|> (scriptCode? plain).map script

def valued? (name value : Text) : Option Property :=
  let plain := plainName value
  let kind := plainName name
  if ["gc", "generalcategory"].contains kind then categoryNamed? plain
  else if ["sc", "script"].contains kind then (scriptCode? plain).map script
  else if ["scx", "scriptextensions"].contains kind then
    (scriptCode? plain).map scriptExtensions
  else none

end Property

end PathRouting.Unicode

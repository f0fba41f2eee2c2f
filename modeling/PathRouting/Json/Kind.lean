import PathRouting.Json.Basic
import PathRouting.Kind

/-! Kinds of routes as JSON values. -/

namespace PathRouting.Kind

def toJson (k : Kind) : Json := .string k.name

/-- The kind that a value stands for: its exact name, or an object whose only field has
this name and holds nothing. -/
def ofJson? : Json → Option Kind
  | .string s => named? s
  | .object [(s, .null)] => named? s
  | _ => none

end PathRouting.Kind

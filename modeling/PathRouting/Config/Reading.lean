import PathRouting.Config.Validation
import PathRouting.Toml.Document

/-! Configurations written in TOML. A record can be written as a table or as the array of
its fields in their order; keys and items that are not known are passed over. A field that
has a default may be missing, in an array only at the end. -/

namespace PathRouting.Config

open Toml (Value Rows)

/-- A record as it is written: the value of each field by its name and its place. -/
structure Record where
  field? : String → Nat → Option Value

/-- The record that a value writes. A date counts as a record with no known field. -/
def Record.of? : Value → Option Record
  | .table _ rows => some ⟨fun name _ => rows.lookup name.toList⟩
  | .array items => some ⟨fun _ i => items[i]?⟩
  | .tables items => some ⟨fun _ i => items[i]?.map (Value.table .header)⟩
  | .moment => some ⟨fun _ _ => none⟩
  | _ => none

/-- The field of a name and place, read by `read?`, or the default if it is missing. -/
def Record.optional (r : Record) (name : String) (i : Nat) (read? : Value → Option α)
    (default : α) : Option α :=
  match r.field? name i with
  | none => some default
  | some v => read? v

/-- The field of a name and place, which has to be there, read by `read?`. -/
def Record.required (r : Record) (name : String) (i : Nat) (read? : Value → Option α) :
    Option α :=
  (r.field? name i).bind read?

def boolean? : Value → Option Bool
  | .boolean b => some b
  | _ => none

def text? : Value → Option Text
  | .string t => some t
  | _ => none

def string? (v : Value) : Option String := (text? v).map Text.toString

/-- The list that a value writes, its items read by `read?`. -/
def list? (read? : Value → Option α) : Value → Option (List α)
  | .array items => items.mapM read?
  | .tables items => items.mapM fun rows => read? (.table .header rows)
  | _ => none

def isVoid : Value → Bool
  | .array items => items.isEmpty
  | .table _ rows => rows.isEmpty
  | _ => false

/-- The kind of route that a value writes: its exact name, or a table whose first key is
the name and holds nothing. A table in braces may have no other key. -/
def kind? : Value → Option Kind
  | .string t => Kind.named? t.toString
  | .table origin ((name, v) :: more) =>
    if (origin = .inline ∧ ¬more.isEmpty) ∨ !isVoid v then none else Kind.named? name.toString
  | _ => none

def policy? (v : Value) : Option Policy := do
  let r ← Record.of? v
  let ignoreTrailingSlashes ← r.optional "ignore_trailing_slashes" 0 boolean? true
  let mergeSlashes ← r.optional "treat_multiple_slashes_as_single_slash" 1 boolean? false
  let caseless ← r.optional "case_insensitive" 2 boolean? false
  let rawLiterals ← r.optional "regex_literals" 3 boolean? false
  return { ignoreTrailingSlashes, mergeSlashes, caseless, rawLiterals }

def route? (v : Value) : Option RouteEntry := do
  let r ← Record.of? v
  let kind ← r.required "method" 0 kind?
  let path ← r.required "path" 1 text?
  let handler ← r.required "handler" 2 string?
  let roles ← r.optional "roles" 3 (list? string?) []
  return { kind, path, handler, roles := Roles.ofList roles }

def logLevel? (v : Value) : Option String := do
  let r ← Record.of? v
  r.optional "log_level" 0 string? "info"

/-- The configuration that the table of a document writes. -/
def ofRows? (rows : Rows) : Option Config := do
  let r ← Record.of? (.table .header rows)
  let policy ← r.optional "routing" 0 policy? {}
  let routes ← r.optional "routes" 1 (list? route?) []
  let logLevel ← r.optional "observability" 2 logLevel? "info"
  return { policy, routes, logLevel }

end PathRouting.Config

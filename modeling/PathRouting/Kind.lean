import PathRouting.Text.Blank

/-! What a route is registered for: an HTTP method, or a stage in the life of a request
that is not a method. -/

namespace PathRouting

/-- An HTTP method or a stage around the handling of a request. -/
inductive Kind where
  | get
  | post
  | put
  | patch
  | delete
  | head
  | trace
  | connect
  | options
  | before
  | beforeMatched
  | afterMatched
  | after
  deriving DecidableEq

namespace Kind

/-- The HTTP methods in their fixed order. -/
def httpMethods : List Kind :=
  [get, post, put, patch, delete, head, trace, connect, options]

/-- The stages in their fixed order. -/
def stages : List Kind := [before, beforeMatched, afterMatched, after]

/-- All kinds in their fixed order. -/
def all : List Kind := httpMethods ++ stages

def isHttp (k : Kind) : Bool := httpMethods.contains k

/-- The place of the kind in the fixed order. -/
def rank (k : Kind) : Nat := all.idxOf k

def name : Kind → String
  | get => "GET"
  | post => "POST"
  | put => "PUT"
  | patch => "PATCH"
  | delete => "DELETE"
  | head => "HEAD"
  | trace => "TRACE"
  | connect => "CONNECT"
  | options => "OPTIONS"
  | before => "BEFORE"
  | beforeMatched => "BEFORE_MATCHED"
  | afterMatched => "AFTER_MATCHED"
  | after => "AFTER"

def named? (s : String) : Option Kind := all.find? fun k => k.name == s

/-- The kind that a text means: white space around the name, the case of its letters and
the choice between hyphen and underscore do not count. -/
def ofText? (t : Text) : Option Kind :=
  named? (String.ofList ((Text.upperAscii t.trim).map fun c => if c = '-' then '_' else c))

/-- The kinds in the fixed order, equal ones staying together. -/
def sorted (ks : List Kind) : List Kind := all.flatMap fun k => ks.filter (· == k)

theorem isHttp_eq_false_iff {k : Kind} : k.isHttp = false ↔ k ∈ stages := by
  cases k <;> decide

theorem isHttp_iff {k : Kind} : k.isHttp = true ↔ k ∉ stages := by
  rw [← isHttp_eq_false_iff, Bool.not_eq_false]

end Kind

end PathRouting

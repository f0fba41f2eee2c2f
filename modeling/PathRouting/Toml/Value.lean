import PathRouting.Text.Basic

/-! TOML values and the rules by which the lines of a document build up tables. Every
table knows how it came about, because that decides whether later lines may add to it. -/

namespace PathRouting.Toml

/-- How a table came about. -/
inductive Origin where
  /-- Written in braces, and complete with them. -/
  | inline
  /-- Opened by a header of its own. -/
  | header
  /-- Passed through by the header of a table below it. -/
  | passed
  /-- Passed through by a dotted key. -/
  | dotted
  deriving DecidableEq

/-- A value. What a reader of configurations does not look into, the value of a float or
a date, is not kept. -/
inductive Value where
  | string (text : Text)
  | integer (n : Int)
  | float
  | boolean (b : Bool)
  | moment
  | array (items : List Value)
  | table (origin : Origin) (rows : List (Text × Value))
  /-- The tables opened by headers in double brackets. -/
  | tables (items : List (List (Text × Value)))
  deriving Inhabited

namespace Value

mutual

/-- The value with the tables that dotted keys made in it complete. -/
def sealed : Value → Value
  | table .dotted rows => table .inline (sealedRows rows)
  | v => v

def sealedRows : List (Text × Value) → List (Text × Value)
  | [] => []
  | (key, v) :: rows => (key, v.sealed) :: sealedRows rows

end

end Value

/-- The contents of a table, in the order in which the keys came up. -/
abbrev Rows := List (Text × Value)

namespace Rows

def set (rows : Rows) (key : Text) (v : Value) : Rows :=
  rows.map fun row => if row.1 = key then (key, v) else row

def erase (rows : Rows) (key : Text) : Rows := rows.filter fun row => row.1 ≠ key

/-- Changes the table at the end of a path by `f`, which is given its origin and rows. A
table that is missing on the way comes about as `new` says. A step into an array of
tables leads to its last table. A dotted path does not lead into a table with a header of
its own, and no path leads into a table in braces or through any other value. -/
def alter (new : Origin) (f : Origin → Rows → Option Rows) :
    Origin → List Text → Rows → Option Rows
  | origin, [], rows => f origin rows
  | _, key :: path, rows =>
    match rows.lookup key with
    | none => (alter new f new path []).map fun sub => rows ++ [(key, .table new sub)]
    | some (.tables items) =>
      match items.getLast? with
      | none => none
      | some last =>
        (alter new f .header path last).map fun sub =>
          rows.set key (.tables (items.dropLast ++ [sub]))
    | some (.table origin sub) =>
      if origin = .inline ∨ (new = .dotted ∧ origin = .header) then none
      else (alter new f origin path sub).map fun sub => rows.set key (.table origin sub)
    | some _ => none

/-- Adds a value under a dotted key. The table that takes it has to come from dotted keys
just like this one, or be the table where the path starts, and the key has to be new. -/
def insert (origin : Origin) (path : List Text) (key : Text) (v : Value) (rows : Rows) :
    Option Rows :=
  alter .dotted
    (fun o rows =>
      if ((o = .dotted) ↔ path = []) ∨ (rows.lookup key).isSome then none
      else some (rows ++ [(key, v)]))
    origin path rows

/-- Opens a table by a header. It may have been passed through before, by other headers
only. -/
def openTable (path : List Text) (key : Text) (rows : Rows) : Option Rows :=
  alter .passed
    (fun _ rows =>
      match rows.lookup key with
      | none => some (rows ++ [(key, .table .header [])])
      | some (.table .passed sub) => some (rows.erase key ++ [(key, .table .header sub)])
      | some _ => none)
    .header path rows

def openNext (path : List Text) (key : Text) (rows : Rows) : Option Rows :=
  alter .passed
    (fun _ rows =>
      match rows.lookup key with
      | none => some (rows ++ [(key, .tables [[]])])
      | some (.tables items) => some (rows.set key (.tables (items ++ [[]])))
      | some _ => none)
    .header path rows

/-- Adds a value under a dotted key to the table that the last header opened. -/
def insertUnder (header : List Text) (path : List Text) (key : Text) (v : Value)
    (rows : Rows) : Option Rows :=
  alter .passed (fun _ sub => insert .header path key v sub) .header header rows

end Rows

end PathRouting.Toml

import PathRouting.Toml.Strings
import PathRouting.Toml.Numbers

/-! TOML documents. The text is read line by line into statements, and the statements
build up the table of the document. -/

namespace PathRouting.Toml

/-- Builds the table of the rows in braces, which is complete with them. -/
def inlineRows : List ((List Text × Text) × Value) → Rows → Option Rows
  | [], rows => some (Value.sealedRows rows)
  | ((path, key), v) :: more, rows =>
    (Rows.insert .inline path key v rows).bind (inlineRows more)

mutual

/-- Reads a value. `room` is how many levels of arrays and tables it may hold, and the
first number bounds the steps of reading. -/
def value? : Nat → Nat → Scan Value
  | 0, _, _ => none
  | n + 1, room, s =>
    match s with
    | '[' :: cs =>
      match room with
      | 0 => none
      | room + 1 =>
        match items? n room cs with
        | some (items, ']' :: rest) => some (.array items, rest)
        | _ => none
    | '\x7B' :: cs =>
      match room with
      | 0 => none
      | room + 1 =>
        match skipBlanks cs with
        | '\x7D' :: rest => some (.table .inline [], rest)
        | cs =>
          match entries? n room cs with
          | some (entries, '\x7D' :: rest) =>
            (inlineRows entries []).map fun rows => (.table .inline rows, rest)
          | _ => none
    | 't' :: 'r' :: 'u' :: 'e' :: rest => some (.boolean true, rest)
    | 'f' :: 'a' :: 'l' :: 's' :: 'e' :: rest => some (.boolean false, rest)
    | 'i' :: 'n' :: 'f' :: rest => some (.float, rest)
    | 'n' :: 'a' :: 'n' :: rest => some (.float, rest)
    | c :: _ =>
      if c = '"' ∨ c = '\'' then (string? s).map fun (t, rest) => (.string t, rest)
      else if c.isDigit ∨ c = '+' ∨ c = '-' then numeric? s
      else none
    | [] => none

def items? : Nat → Nat → Scan (List Value)
  | 0, _, _ => none
  | n + 1, room, s =>
    match skipLines (s.length + 1) s with
    | ']' :: rest => some ([], ']' :: rest)
    | cs =>
      match value? n room cs with
      | none => none
      | some (v, rest) =>
        match skipLines (rest.length + 1) rest with
        | ',' :: rest => (items? n room rest).map fun (vs, rest) => (v :: vs, rest)
        | rest => some ([v], rest)

/-- Reads the rows of a table in braces, which stand on one line and are separated by
commas. -/
def entries? : Nat → Nat → Scan (List ((List Text × Text) × Value))
  | 0, _, _ => none
  | n + 1, room, s =>
    match key? s with
    | some (key, '=' :: rest) =>
      match value? n room (skipBlanks rest) with
      | none => none
      | some (v, rest) =>
        match skipBlanks rest with
        | ',' :: rest => (entries? n room rest).map fun (es, rest) => ((key, v) :: es, rest)
        | rest => some ([(key, v)], rest)
    | _ => none

end

/-- A line of a document that says something. -/
inductive Statement where
  | entry (path : List Text) (key : Text) (v : Value)
  | table (path : List Text) (key : Text)
  | nextTable (path : List Text) (key : Text)

/-- Reads a statement up to the end of its line. -/
def statement? (s : Text) : Option (Statement × Text) :=
  match s with
  | '[' :: '[' :: cs =>
    match key? cs with
    | some ((path, key), ']' :: ']' :: rest) =>
      (endLine? rest).map fun rest => (.nextTable path key, rest)
    | _ => none
  | '[' :: cs =>
    match key? cs with
    | some ((path, key), ']' :: rest) => (endLine? rest).map fun rest => (.table path key, rest)
    | _ => none
  | cs =>
    match key? cs with
    | some ((path, key), '=' :: rest) =>
      let rest := skipBlanks rest
      match value? (2 * rest.length + 2) (maxDepth - 1) rest with
      | none => none
      | some (v, rest) => (endLine? rest).map fun rest => (.entry path key v, rest)
    | _ => none

def statements? : Nat → Text → Option (List Statement)
  | 0, _ => none
  | n + 1, s =>
    match skipLines (s.length + 1) s with
    | [] => some []
    | cs =>
      match statement? cs with
      | none => none
      | some (st, rest) => (statements? n rest).map (st :: ·)

/-- Builds up the table of a document by statements; `header` is the path of the table that
was opened last. -/
def build? (header : List Text) : List Statement → Rows → Option Rows
  | [], rows => some rows
  | .entry path key v :: more, rows =>
    (rows.insertUnder header path key v).bind (build? header more)
  | .table path key :: more, rows => (rows.openTable path key).bind (build? (path ++ [key]) more)
  | .nextTable path key :: more, rows =>
    (rows.openNext path key).bind (build? (path ++ [key]) more)

def withoutMark : Text → Text
  | c :: cs => if c.toNat = 0xFEFF then cs else c :: cs
  | [] => []

/-- The table that a document describes, if the text is a document. -/
def document? (s : Text) : Option Rows :=
  let s := withoutMark s
  (statements? (s.length + 1) s).bind fun sts => build? [] sts []

end PathRouting.Toml

/-! Compact tables over the code points: run-length tables that give every code point
one tag, and lists of ranges. Both are written as text and read once. -/

namespace PathRouting.Unicode

/-- The first code point of each run with the tag of the run, in increasing order. -/
abbrev Runs := Array (Nat × String)

/-- What has been read of a run-length table: the finished runs, the code point at which
the current run starts, and the letters and digits of its entry. -/
structure RunsReader where
  runs : Runs := #[]
  start : Nat := 0
  tag : List Char := []
  digits : List Char := []

namespace RunsReader

/-- The number that a list of decimal digits, last digit first, stands for; no digit
stands for one. -/
def count (digits : List Char) : Nat :=
  if digits.isEmpty then 1
  else digits.foldr (fun d n => n * 10 + (d.toNat - '0'.toNat)) 0

def close (s : RunsReader) : RunsReader :=
  if s.tag.isEmpty then s
  else
    { runs := s.runs.push (s.start, String.ofList s.tag.reverse)
      start := s.start + count s.digits }

/-- Reads a character: a capital letter begins an entry, a digit belongs to its length. -/
def step (s : RunsReader) (c : Char) : RunsReader :=
  if c.isUpper then { s.close with tag := [c] }
  else if c.isDigit then { s with digits := c :: s.digits }
  else { s with tag := c :: s.tag }

end RunsReader

/-- Reads a run-length table: each entry is a tag followed by the length of its run, the
length one being left out. -/
def Runs.read (lines : List String) : Runs :=
  (lines.foldl (fun (s : RunsReader) (line : String) => line.toList.foldl RunsReader.step s) {}).close.runs

/-- The tag of the last run, among those from `low` to before `high`, that starts at or
before `n`. -/
def Runs.search (runs : Runs) (n : Nat) : Nat → Nat → Nat → String
  | 0, low, _ => ((runs[low]?).getD (0, "")).2
  | fuel + 1, low, high =>
    if high ≤ low + 1 then ((runs[low]?).getD (0, "")).2
    else
      let middle := (low + high) / 2
      if ((runs[middle]?).getD (0, "")).1 ≤ n then search runs n fuel middle high
      else search runs n fuel low middle

def Runs.tagOf (runs : Runs) (n : Nat) : String := runs.search n runs.size 0 runs.size

def hexValue (digits : List Char) : Nat :=
  digits.foldl (fun n d =>
    n * 16 + (if d.isDigit then d.toNat - '0'.toNat else d.toNat - 'A'.toNat + 10)) 0

/-- Inclusive ranges of code points. -/
abbrev Ranges := List (Nat × Nat)

/-- Reads a line of ranges written in hexadecimal, such as `41-5A 5F`. -/
def Ranges.readLine (line : String) : Ranges :=
  ((line.toList.splitBy fun a b => a != ' ' && b != ' ').filter fun w => w != [' ']).map fun w =>
    match w.span (· != '-') with
    | (low, []) => (hexValue low, hexValue low)
    | (low, _ :: high) => (hexValue low, hexValue high)

def Ranges.read (lines : List String) : Ranges := lines.flatMap Ranges.readLine

def Ranges.contain (ranges : Ranges) (n : Nat) : Bool :=
  ranges.any fun r => r.1 ≤ n && n ≤ r.2

end PathRouting.Unicode

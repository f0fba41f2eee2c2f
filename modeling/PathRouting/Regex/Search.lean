import PathRouting.Regex.Heads

/-! Search for a pattern in a text. All ways to go on are followed side by side, one
character at a time, the preferred ones first. Of two threads with the same tasks left
only the preferred one is kept, so the work per character does not grow with the length
of the text. The match found starts as early as possible, and among the matches that
start there it is the one that the pattern prefers. -/

namespace PathRouting

/-- The marks of a match with their offsets, the latest first. -/
abbrev Slots := List (Mark × Nat)

/-- A way that is being followed: what is left to do and what has been remembered. -/
structure Thread where
  tasks : List Task
  slots : Slots

/-- What a thread comes to at a place. -/
inductive Leaf where
  | accept (slots : Slots)
  | await (set : CharSet) (thread : Thread)

namespace Thread

/-- What a thread comes to at a place, in order of preference. -/
def leaves (p : Place) (offset : Nat) (t : Thread) : List Leaf :=
  (Task.headsAll p t.tasks).map fun
    | .done marks => .accept (marks.map (·, offset) ++ t.slots)
    | .read set rest marks => .await set ⟨rest, marks.map (·, offset) ++ t.slots⟩

/-- The threads without those that have the tasks of an earlier one. -/
def distinct : List Thread → List Thread
  | [] => []
  | t :: ts => t :: (distinct ts).filter fun u => u.tasks != t.tasks

end Thread

namespace Leaf

def accepted? : List Leaf → Option Slots
  | [] => none
  | accept slots :: _ => some slots
  | await .. :: ls => accepted? ls

/-- The threads that go on over a character. Those less preferred than a thread that is
done cannot win any more and are dropped. -/
def advance (c : Char) : List Leaf → List Thread
  | [] => []
  | accept _ :: _ => []
  | await set t :: ls => if set.contains c then t :: advance c ls else advance c ls

end Leaf

namespace Regex

/-- Follows threads through the text from a place on. -/
def follow (before : Option Char) (offset : Nat) (threads : List Thread) : Text → Option Slots
  | [] => Leaf.accepted? (threads.flatMap (Thread.leaves ⟨before, none⟩ offset))
  | c :: cs =>
    let leaves := threads.flatMap (Thread.leaves ⟨before, some c⟩ offset)
    let next := Thread.distinct (Leaf.advance c leaves)
    if next.isEmpty then Leaf.accepted? leaves
    else (follow (some c) (offset + 1) next cs).or (Leaf.accepted? leaves)

/-- The match that starts right here, if there is one. -/
def matchHere (r : Regex) (before : Option Char) (offset : Nat) (text : Text) : Option Slots :=
  follow before offset [⟨[.run r], []⟩] text

/-- The match that starts here or at the next possible place. -/
def searchFrom (r : Regex) (before : Option Char) (offset : Nat) : Text → Option Slots
  | [] => r.matchHere before offset []
  | c :: cs =>
    match r.matchHere before offset (c :: cs) with
    | some slots => some slots
    | none => searchFrom r (some c) (offset + 1) cs

def search (r : Regex) (text : Text) : Option Slots := r.searchFrom none 0 text

/-- Whether the pattern matches somewhere in a text. -/
def isMatch (r : Regex) (text : Text) : Bool := (r.search text).isSome

/-- The part of the text that a group took last, if it took part in the match. -/
def groupText? (text : Text) (slots : Slots) (i : Nat) : Option Text :=
  match slots.lookup (.opened i), slots.lookup (.closed i) with
  | some low, some high => some ((text.drop low).take (high - low))
  | _, _ => none

/-- What the groups of the first match took, in the order of their indices. -/
def captures? (r : Regex) (text : Text) : Option (List (Option Text)) :=
  (r.search text).map fun slots =>
    (List.range r.groupCount).map fun i => groupText? text slots (i + 1)

end Regex

end PathRouting

import PathRouting.Regex.CharSet

/-! Patterns as trees, and the conditions on a place in the text that a pattern may ask
for. The number of turns of a repetition is kept as a least number and a further number
of turns that are optional, so that one turn taken leaves a repetition again. -/

namespace PathRouting

/-- A condition on the word characters beside a place. -/
inductive WordEdge where
  | boundary
  | noBoundary
  | start
  | stop
  | startHalf
  | stopHalf
  deriving DecidableEq

/-- A condition on a place in the text. -/
inductive Look where
  | textStart
  | textEnd
  /-- After a line break or at the start; with `crlf` the pair of carriage return and
  line feed breaks a line as a whole, and so does each of them alone. -/
  | lineStart (crlf : Bool)
  | lineEnd (crlf : Bool)
  /-- `ascii` restricts the word characters to ASCII. -/
  | word (ascii : Bool) (edge : WordEdge)
  deriving DecidableEq

/-- A place in the text: the character before it and the one after it. -/
structure Place where
  before : Option Char
  after : Option Char

def WordEdge.holds (edge : WordEdge) (before after : Bool) : Bool :=
  match edge with
  | boundary => before != after
  | noBoundary => before == after
  | start => !before && after
  | stop => before && !after
  | startHalf => !before
  | stopHalf => !after

def Look.holds (l : Look) (p : Place) : Bool :=
  match l with
  | textStart => p.before.isNone
  | textEnd => p.after.isNone
  | lineStart false => p.before.isNone || p.before == some '\n'
  | lineEnd false => p.after.isNone || p.after == some '\n'
  | lineStart true =>
    p.before.isNone || p.before == some '\n' ||
      (p.before == some '\r' && p.after != some '\n')
  | lineEnd true =>
    p.after.isNone || p.after == some '\r' || (p.after == some '\n' && p.before != some '\r')
  | word ascii edge =>
    let set := if ascii then CharSet.asciiWordChars else CharSet.wordChars
    edge.holds (p.before.any set.contains) (p.after.any set.contains)

/-- A pattern. -/
inductive Regex where
  /-- Takes no character. -/
  | empty
  /-- Takes one character of a set. -/
  | one (set : CharSet)
  /-- Takes no character and asks for a condition on the place. -/
  | look (l : Look)
  /-- Takes what `a` takes and then what `b` takes. -/
  | cat (a b : Regex)
  /-- Takes what `a` takes, or else what `b` takes. -/
  | alt (a b : Regex)
  /-- Takes `least` turns of `r` and then up to `extra` more, any number if there is no
  bound; it prefers a further turn if it is greedy and leaving if it is not. -/
  | rep (greedy : Bool) (least : Nat) (extra : Option Nat) (r : Regex)
  /-- Takes what `r` takes and remembers where. -/
  | group (index : Nat) (r : Regex)
  deriving DecidableEq

namespace Regex

/-- Whether the pattern can take no character at all, whatever the text. -/
def onlyEmpty : Regex → Bool
  | empty => true
  | one _ => false
  | look _ => true
  | cat a b => a.onlyEmpty && b.onlyEmpty
  | alt a b => a.onlyEmpty && b.onlyEmpty
  | rep _ _ _ r => r.onlyEmpty
  | group _ r => r.onlyEmpty

/-- The pattern repeated. A second turn of a pattern that takes no character adds nothing
and is dropped, and a repetition of no turn at all leaves nothing of the pattern. -/
def repeated (greedy : Bool) (least : Nat) (extra : Option Nat) (r : Regex) : Regex :=
  if least = 0 ∧ extra = some 0 then empty
  else if r.onlyEmpty then if least = 0 then rep greedy 0 (some 1) r else r
  else if least = 1 ∧ extra = some 0 then r
  else rep greedy least extra r

/-- The room that a set of characters takes when a pattern is written out. -/
def setWeight : CharSet → Nat
  | .range _ _ => 1
  | .caseless _ => 1
  | .property _ => 700
  | .union a b => setWeight a + setWeight b
  | .inter a b => setWeight a + setWeight b
  | .compl a => setWeight a
  | .folded a => setWeight a
  | .none => 1

/-- The room that a pattern takes when all turns of its repetitions are written out. -/
def weight : Regex → Nat
  | empty => 1
  | one set => setWeight set
  | look _ => 1
  | cat a b => a.weight + b.weight
  | alt a b => a.weight + b.weight + 1
  | rep _ least extra r => (least + extra.getD 0) * r.weight + extra.getD 0 + 1
  | group _ r => r.weight + 2

def catAll : List Regex → Regex
  | [] => empty
  | [r] => r
  | r :: rs => cat r (catAll rs)

def altAll : List Regex → Regex
  | [] => empty
  | [r] => r
  | r :: rs => alt r (altAll rs)

/-- The highest index of a group. Groups are counted from one in the order in which they
are opened. -/
def groupCount : Regex → Nat
  | empty => 0
  | one _ => 0
  | look _ => 0
  | cat a b => max a.groupCount b.groupCount
  | alt a b => max a.groupCount b.groupCount
  | rep _ _ _ r => r.groupCount
  | group i r => max i r.groupCount

end Regex

end PathRouting

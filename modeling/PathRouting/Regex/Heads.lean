import PathRouting.Regex.Basic

/-! The ways in which a pattern can go on at a place, in order of preference. Each way
either reads a next character or is done without one. A turn of a repetition that reads
nothing is not followed by another turn, so the list of ways is finite and is found by
recursion on the pattern alone. Of the ways that are done only the first is kept: what
follows them is the same. -/

namespace PathRouting

/-- An event that is remembered with the offset at which it occurs. -/
inductive Mark where
  | opened (group : Nat)
  | closed (group : Nat)
  deriving DecidableEq

/-- A thing left to do. -/
inductive Task where
  /-- Take what the pattern takes. -/
  | run (r : Regex)
  /-- Take another turn of an unbounded repetition, or leave it. -/
  | again (greedy : Bool) (r : Regex)
  /-- Remember the end of a group. -/
  | close (group : Nat)
  deriving DecidableEq

/-- One way to go on. Marks are listed with the latest first. -/
inductive Head where
  /-- Done without reading a character. -/
  | done (marks : List Mark)
  /-- Reads a character of the set; the tasks remain. -/
  | read (set : CharSet) (rest : List Task) (marks : List Mark)
  deriving DecidableEq

namespace Head

/-- The same way after some marks. -/
def after (earlier : List Mark) : Head → Head
  | done marks => done (marks ++ earlier)
  | read set rest marks => read set rest (marks ++ earlier)

def reads : Head → Bool
  | done _ => false
  | read .. => true

/-- Adds tasks behind those that remain after reading. -/
def followedBy (tasks : List Task) : Head → Head
  | done marks => done marks
  | read set rest marks => read set (rest ++ tasks) marks

/-- The ways in the same order with only the first of those that are done. -/
def firstDone : List Head → List Head
  | [] => []
  | done marks :: hs => done marks :: hs.filter reads
  | read set rest marks :: hs => read set rest marks :: firstDone hs

/-- The ways of something that may be left out. -/
def optional (greedy : Bool) (hs : List Head) : List Head :=
  firstDone (if greedy then hs ++ [done []] else done [] :: hs)

end Head

namespace Regex

/-- The ways of up to `n` optional turns of `r`, given those of one turn. -/
def optionalTurns (greedy : Bool) (r : Regex) (turn : List Head) : Nat → List Head
  | 0 => [.done []]
  | n + 1 =>
    Head.optional greedy <| turn.flatMap fun
      | .done marks => (optionalTurns greedy r turn n).map (Head.after marks)
      | .read set rest marks => [.read set (rest ++ [.run (rep greedy 0 (some n) r)]) marks]

/-- The ways of a repetition of `r`, given those of one turn. -/
def turns (greedy : Bool) (r : Regex) (turn : List Head) : Nat → Option Nat → List Head
  | 0, some n => optionalTurns greedy r turn n
  | 0, none => Head.optional greedy (turn.map (Head.followedBy [.again greedy r]))
  | 1, none => turn.map (Head.followedBy [.again greedy r])
  | n + 1, extra =>
    turn.flatMap fun
      | .done marks => (turns greedy r turn n extra).map (Head.after marks)
      | .read set rest marks => [.read set (rest ++ [.run (rep greedy n extra r)]) marks]

/-- The ways in which a pattern can go on at a place. -/
def heads (p : Place) : Regex → List Head
  | empty => [.done []]
  | one set => [.read set [] []]
  | look l => if l.holds p then [.done []] else []
  | cat a b =>
    (heads p a).flatMap fun
      | .done marks => (heads p b).map (Head.after marks)
      | .read set rest marks => [.read set (rest ++ [.run b]) marks]
  | alt a b => Head.firstDone (heads p a ++ heads p b)
  | rep greedy least extra r => turns greedy r (heads p r) least extra
  | group i r =>
    (heads p r).map fun
      | .done marks => .done (.closed i :: marks ++ [.opened i])
      | .read set rest marks => .read set (rest ++ [.close i]) (marks ++ [.opened i])

end Regex

namespace Task

/-- The ways in which a task can go on. A turn that reads nothing would come back to the
same choice and is left out. -/
def heads (p : Place) : Task → List Head
  | run r => r.heads p
  | again greedy r =>
    let more := ((r.heads p).filter Head.reads).map (Head.followedBy [again greedy r])
    if greedy then more ++ [.done []] else .done [] :: more
  | close i => [.done [.closed i]]

/-- The ways in which a list of tasks can go on. -/
def headsAll (p : Place) : List Task → List Head
  | [] => [.done []]
  | t :: ts =>
    (t.heads p).flatMap fun
      | .done marks => (headsAll p ts).map (Head.after marks)
      | .read set rest marks => [.read set (rest ++ ts) marks]

end Task

end PathRouting

import PathRouting.Regex.Search

/-! # Ordered runs of a search

A search follows all ways to go on side by side and drops what cannot win. The runs of a
list of tasks say what it looks for: everything the tasks can come to, the preferred
outcome first. The search finds the head of this list. -/

namespace PathRouting

/-- What a list of tasks comes to from a place on, in the order of preference: for each
way to be done, the marks with their offsets, the latest first. -/
def Task.runs (before : Option Char) (offset : Nat) (tasks : List Task) : Text → List Slots
  | [] =>
    (headsAll ⟨before, none⟩ tasks).flatMap fun
      | .done marks => [marks.map (·, offset)]
      | .read .. => []
  | c :: cs =>
    (headsAll ⟨before, some c⟩ tasks).flatMap fun
      | .done marks => [marks.map (·, offset)]
      | .read set rest marks =>
        if set.contains c then
          (runs (some c) (offset + 1) rest cs).map (· ++ marks.map (·, offset))
        else []

def Thread.runs (before : Option Char) (offset : Nat) (t : Thread) (s : Text) : List Slots :=
  (Task.runs before offset t.tasks s).map (· ++ t.slots)

/-! ## The search finds the preferred run -/

theorem flatMap_filter_of_eq_nil {α β : Type} {f : α → List β} {p : α → Bool} (xs : List α)
    (h : ∀ x, p x = false → f x = []) : (xs.filter p).flatMap f = xs.flatMap f := by
  induction xs with
  | nil => rfl
  | cons x xs ih =>
      cases hx : p x with
      | true => simp [hx, ih]
      | false => simp [hx, ih, h x hx]

namespace Thread

/-- Dropping the later one of two threads with the same tasks does not change the preferred
outcome: the earlier one has an outcome whenever the later one has. -/
theorem head?_runs_distinct (before : Option Char) (offset : Nat) (s : Text)
    (ts : List Thread) :
    ((distinct ts).flatMap fun t => t.runs before offset s).head? =
      (ts.flatMap fun t => t.runs before offset s).head? := by
  induction ts with
  | nil => rfl
  | cons t ts ih =>
      simp only [distinct, List.flatMap_cons, List.head?_append]
      cases ht : t.runs before offset s with
      | cons slots rest => simp
      | nil =>
          rw [← ih, flatMap_filter_of_eq_nil]
          intro u hu
          have htasks : u.tasks = t.tasks := by simpa using hu
          simpa [runs, htasks] using ht

end Thread

namespace Leaf

def runsAtEnd : Leaf → List Slots
  | accept slots => [slots]
  | await .. => []

def runs (offset : Nat) (c : Char) (cs : Text) : Leaf → List Slots
  | accept slots => [slots]
  | await set t => if set.contains c then t.runs (some c) (offset + 1) cs else []

theorem accepted?_eq_head? (ls : List Leaf) :
    accepted? ls = (ls.flatMap runsAtEnd).head? := by
  induction ls with
  | nil => rfl
  | cons l ls ih =>
      cases l with
      | accept slots => simp [accepted?, runsAtEnd]
      | await set t => simpa [accepted?, runsAtEnd] using ih

/-- The threads that go on over a character are those before the first one that is done. -/
theorem head?_runs_advance (offset : Nat) (c : Char) (cs : Text) (ls : List Leaf) :
    (ls.flatMap (runs offset c cs)).head? =
      ((advance c ls).flatMap fun t => t.runs (some c) (offset + 1) cs).head?.or
        (accepted? ls) := by
  induction ls with
  | nil => rfl
  | cons l ls ih =>
      cases l with
      | accept slots => simp [accepted?, advance, runs]
      | await set t =>
          by_cases hc : set.contains c
          · simp [accepted?, advance, runs, hc, ih, Option.or_assoc, List.head?_append]
          · simp [accepted?, advance, runs, hc, ih]

end Leaf

namespace Thread

theorem runs_nil (before : Option Char) (offset : Nat) (t : Thread) :
    t.runs before offset [] = (t.leaves ⟨before, none⟩ offset).flatMap Leaf.runsAtEnd := by
  simp only [runs, leaves, Task.runs, List.map_flatMap, List.flatMap_map]
  congr 1
  funext h
  cases h <;> simp [Leaf.runsAtEnd]

theorem runs_cons (before : Option Char) (offset : Nat) (t : Thread) (c : Char) (cs : Text) :
    t.runs before offset (c :: cs) =
      (t.leaves ⟨before, some c⟩ offset).flatMap (Leaf.runs offset c cs) := by
  simp only [runs, leaves, Task.runs, List.map_flatMap, List.flatMap_map]
  congr 1
  funext h
  cases h with
  | done marks => simp [Leaf.runs]
  | read set rest marks =>
      by_cases hc : set.contains c <;> simp [Leaf.runs, runs, hc]

end Thread

namespace Regex

/-- Following threads side by side finds the preferred one of all their outcomes. -/
theorem follow_eq_head?_runs (before : Option Char) (offset : Nat) (ts : List Thread)
    (s : Text) :
    follow before offset ts s = (ts.flatMap fun t => t.runs before offset s).head? := by
  induction s generalizing before offset ts with
  | nil =>
      simp only [follow, Leaf.accepted?_eq_head?, List.flatMap_assoc, Thread.runs_nil]
  | cons c cs ih =>
      simp only [follow, ih, Thread.head?_runs_distinct, Thread.runs_cons,
        ← List.flatMap_assoc, Leaf.head?_runs_advance]
      split
      · rename_i hnext
        have hadvance : (Leaf.advance c
            (ts.flatMap (Thread.leaves ⟨before, some c⟩ offset))) = [] := by
          cases h : Leaf.advance c (ts.flatMap (Thread.leaves ⟨before, some c⟩ offset)) with
          | nil => rfl
          | cons t ts => simp [h, Thread.distinct] at hnext
        simp [hadvance]
      · rfl

theorem matchHere_eq_head?_runs (r : Regex) (before : Option Char) (offset : Nat) (s : Text) :
    r.matchHere before offset s = (Task.runs before offset [.run r] s).head? := by
  simp [matchHere, follow_eq_head?_runs, Thread.runs]

end Regex

/-! ## Runs of the single constructs -/

namespace Task

def headRuns (before : Option Char) (offset : Nat) (tasks : List Task) (s : Text) :
    Head → List Slots
  | .done marks => (runs before offset tasks s).map (· ++ marks.map (·, offset))
  | .read set rest marks =>
    match s with
    | [] => []
    | c :: cs =>
      if set.contains c then
        (runs (some c) (offset + 1) (rest ++ tasks) cs).map (· ++ marks.map (·, offset))
      else []

/-- The runs of the first task are continued by those of the tasks behind it. -/
theorem runs_cons (before : Option Char) (offset : Nat) (t : Task) (ts : List Task)
    (s : Text) :
    runs before offset (t :: ts) s =
      (t.heads ⟨before, s.head?⟩).flatMap (headRuns before offset ts s) := by
  cases s with
  | nil =>
      simp only [runs, headsAll, List.flatMap_assoc, List.head?_nil]
      congr 1
      funext h
      cases h with
      | done marks =>
          simp only [headRuns, runs, List.flatMap_map, List.map_flatMap]
          congr 1
          funext h
          cases h <;> simp [Head.after]
      | read set rest marks => simp [headRuns]
  | cons c cs =>
      simp only [runs, headsAll, List.flatMap_assoc, List.head?_cons]
      congr 1
      funext h
      cases h with
      | done marks =>
          simp only [headRuns, runs, List.flatMap_map, List.map_flatMap]
          congr 1
          funext h
          cases h with
          | done marks => simp [Head.after]
          | read set rest marks => by_cases hc : set.contains c <;> simp [Head.after, hc]
      | read set rest marks => simp [headRuns]

@[simp] theorem runs_empty (before : Option Char) (offset : Nat) (s : Text) :
    runs before offset [] s = [[]] := by
  cases s <;> simp [runs, headsAll]

theorem runs_run_empty (before : Option Char) (offset : Nat) (ts : List Task) (s : Text) :
    runs before offset (.run .empty :: ts) s = runs before offset ts s := by
  simp [runs_cons, heads, Regex.heads, headRuns]

theorem runs_look (before : Option Char) (offset : Nat) (l : Look) (ts : List Task)
    (s : Text) :
    runs before offset (.run (.look l) :: ts) s =
      if l.holds ⟨before, s.head?⟩ then runs before offset ts s else [] := by
  rw [runs_cons]
  by_cases h : l.holds ⟨before, s.head?⟩ <;> simp [heads, Regex.heads, headRuns, h]

theorem runs_cat (before : Option Char) (offset : Nat) (a b : Regex) (ts : List Task)
    (s : Text) :
    runs before offset (.run (.cat a b) :: ts) s =
      runs before offset (.run a :: .run b :: ts) s := by
  simp only [runs_cons before offset (.run (.cat a b)), runs_cons before offset (.run a),
    heads, Regex.heads, List.flatMap_assoc]
  congr 1
  funext h
  cases h with
  | done marks =>
      simp only [headRuns, runs_cons, heads, List.flatMap_map, List.map_flatMap]
      congr 1
      funext h
      cases h with
      | done marks => simp [Head.after]
      | read set rest marks =>
          cases s with
          | nil => simp [Head.after]
          | cons c cs => by_cases hc : set.contains c <;> simp [Head.after, hc]
  | read set rest marks => simp [headRuns]

theorem runs_close (before : Option Char) (offset group : Nat) (ts : List Task) (s : Text) :
    runs before offset (.close group :: ts) s =
      (runs before offset ts s).map (· ++ [(.closed group, offset)]) := by
  simp [runs_cons, heads, headRuns]

theorem runs_group (before : Option Char) (offset group : Nat) (r : Regex) (ts : List Task)
    (s : Text) :
    runs before offset (.run (.group group r) :: ts) s =
      (runs before offset (.run r :: .close group :: ts) s).map
        (· ++ [(.opened group, offset)]) := by
  simp only [runs_cons before offset (.run _), heads, Regex.heads, List.flatMap_map,
    List.map_flatMap]
  congr 1
  funext h
  cases h with
  | done marks => simp [headRuns, runs_close]
  | read set rest marks =>
      cases s with
      | nil => simp [headRuns]
      | cons c cs => by_cases hc : set.contains c <;> simp [headRuns, hc]

/-- Tasks that always come to the same may be exchanged at the end of a list. -/
theorem runs_append_congr {ts us : List Task}
    (h : ∀ before offset s, runs before offset ts s = runs before offset us s)
    (front : List Task) (before : Option Char) (offset : Nat) (s : Text) :
    runs before offset (front ++ ts) s = runs before offset (front ++ us) s := by
  induction s generalizing front before offset with
  | nil =>
      induction front with
      | nil => exact h before offset []
      | cons t front ih =>
          rw [List.cons_append, List.cons_append, runs_cons, runs_cons]
          congr 1
          funext head
          cases head with
          | done marks => simp only [headRuns, ih]
          | read set rest marks => rfl
  | cons c cs ihs =>
      induction front with
      | nil => exact h before offset (c :: cs)
      | cons t front ih =>
          rw [List.cons_append, List.cons_append, runs_cons, runs_cons]
          congr 1
          funext head
          cases head with
          | done marks => simp only [headRuns, ih]
          | read set rest marks => simp only [headRuns, ← List.append_assoc, ihs]

/-- The patterns of a sequence are run one after another. -/
theorem runs_catAll (before : Option Char) (offset : Nat) (rs : List Regex) (ts : List Task)
    (s : Text) :
    runs before offset (.run (.catAll rs) :: ts) s =
      runs before offset (rs.map run ++ ts) s := by
  induction rs generalizing before offset ts s with
  | nil => simp [Regex.catAll, runs_run_empty]
  | cons r rs ih =>
      cases rs with
      | nil => rfl
      | cons r' rs =>
          have hcat : Regex.catAll (r :: r' :: rs) = .cat r (.catAll (r' :: rs)) := rfl
          rw [hcat, runs_cat]
          exact runs_append_congr (fun before offset s => ih before offset ts s) [.run r]
            before offset s

end Task

end PathRouting

import PathRouting.Proofs.Runs

/-! # Patterns without their groups

Groups only remember what they take. A pattern and the one that is left of it when its groups
are removed come to the same outcomes in the same order, up to what is remembered, so they
are found in the same texts. -/

namespace PathRouting

def Regex.ungrouped : Regex → Regex
  | empty => empty
  | one set => one set
  | look l => look l
  | cat a b => cat a.ungrouped b.ungrouped
  | alt a b => alt a.ungrouped b.ungrouped
  | rep greedy least extra r => rep greedy least extra r.ungrouped
  | group _ r => r.ungrouped

/-- The tasks without groups to be closed and without the groups of their patterns. -/
def Task.ungrouped : List Task → List Task
  | [] => []
  | .run r :: ts => .run r.ungrouped :: ungrouped ts
  | .again greedy r :: ts => .again greedy r.ungrouped :: ungrouped ts
  | .close _ :: ts => ungrouped ts

theorem Task.ungrouped_append (ts us : List Task) :
    ungrouped (ts ++ us) = ungrouped ts ++ ungrouped us := by
  induction ts with
  | nil => rfl
  | cons t ts ih => cases t <;> simp [ungrouped, ih]

namespace Head

def ungrouped : Head → Head
  | done _ => done []
  | read set rest _ => read set (Task.ungrouped rest) []

theorem map_ungrouped_after (marks : List Mark) (hs : List Head) :
    (hs.map ungrouped).map (after []) = (hs.map (after marks)).map ungrouped := by
  rw [List.map_map, List.map_map]
  apply List.map_congr_left
  intro h _
  cases h <;> rfl

theorem ungrouped_followedBy (ts : List Task) (h : Head) :
    (h.followedBy ts).ungrouped = h.ungrouped.followedBy (Task.ungrouped ts) := by
  cases h with
  | done marks => rfl
  | read set rest marks => simp [followedBy, ungrouped, Task.ungrouped_append]

theorem reads_ungrouped (h : Head) : h.ungrouped.reads = h.reads := by
  cases h <;> rfl

theorem map_ungrouped_filter (hs : List Head) :
    (hs.filter reads).map ungrouped = (hs.map ungrouped).filter reads := by
  rw [List.filter_map]
  congr 2
  funext h
  exact (reads_ungrouped h).symm

theorem map_ungrouped_firstDone (hs : List Head) :
    (firstDone hs).map ungrouped = firstDone (hs.map ungrouped) := by
  induction hs with
  | nil => rfl
  | cons h hs ih =>
      cases h with
      | done marks => simp [firstDone, ungrouped, map_ungrouped_filter]
      | read set rest marks => simpa [firstDone, ungrouped] using ih

theorem map_ungrouped_optional (greedy : Bool) (hs : List Head) :
    (optional greedy hs).map ungrouped = optional greedy (hs.map ungrouped) := by
  rw [optional, map_ungrouped_firstDone, optional]
  cases greedy <;> simp [ungrouped]

end Head

namespace Regex

theorem optionalTurns_ungrouped (greedy : Bool) (r : Regex) (turn : List Head) (n : Nat) :
    optionalTurns greedy r.ungrouped (turn.map Head.ungrouped) n =
      (optionalTurns greedy r turn n).map Head.ungrouped := by
  induction n with
  | zero => rfl
  | succ n ih =>
      rw [optionalTurns, optionalTurns, Head.map_ungrouped_optional, List.flatMap_map,
        List.map_flatMap]
      congr 2
      funext h
      cases h with
      | done marks =>
          simp only [Head.ungrouped, ih]
          exact Head.map_ungrouped_after marks _
      | read set rest marks =>
          simp [Head.ungrouped, Task.ungrouped_append, Task.ungrouped, ungrouped]

theorem map_ungrouped_again (greedy : Bool) (r : Regex) (turn : List Head) :
    (turn.map Head.ungrouped).map (Head.followedBy [.again greedy r.ungrouped]) =
      (turn.map (Head.followedBy [.again greedy r])).map Head.ungrouped := by
  rw [List.map_map, List.map_map]
  apply List.map_congr_left
  intro h _
  exact (Head.ungrouped_followedBy [.again greedy r] h).symm

theorem turns_ungrouped (greedy : Bool) (r : Regex) (turn : List Head) (n : Nat)
    (extra : Option Nat) :
    turns greedy r.ungrouped (turn.map Head.ungrouped) n extra =
      (turns greedy r turn n extra).map Head.ungrouped := by
  induction n with
  | zero =>
      cases extra with
      | some n => exact optionalTurns_ungrouped greedy r turn n
      | none => rw [turns, turns, Head.map_ungrouped_optional, map_ungrouped_again]
  | succ n ih =>
      by_cases hlast : n = 0 ∧ extra = none
      · obtain ⟨rfl, rfl⟩ := hlast
        exact map_ungrouped_again greedy r turn
      · have hmore : extra = none → n = 0 → False := fun hextra hn => hlast ⟨hn, hextra⟩
        rw [turns.eq_4 _ _ _ _ _ hmore, turns.eq_4 _ _ _ _ _ hmore, List.flatMap_map,
          List.map_flatMap]
        congr 1
        funext h
        cases h with
        | done marks =>
            simp only [Head.ungrouped, ih]
            exact Head.map_ungrouped_after marks _
        | read set rest marks =>
            simp [Head.ungrouped, Task.ungrouped_append, Task.ungrouped, ungrouped]

theorem heads_ungrouped (p : Place) (r : Regex) :
    r.ungrouped.heads p = (r.heads p).map Head.ungrouped := by
  induction r with
  | empty => rfl
  | one set => rfl
  | look l =>
      simp only [ungrouped, heads]
      split <;> rfl
  | cat a b iha ihb =>
      simp only [ungrouped, heads, iha, ihb, List.flatMap_map, List.map_flatMap]
      congr 1
      funext h
      cases h with
      | done marks => exact Head.map_ungrouped_after marks _
      | read set rest marks =>
          simp [Head.ungrouped, Task.ungrouped_append, Task.ungrouped]
  | alt a b iha ihb =>
      simp only [ungrouped, heads, iha, ihb, Head.map_ungrouped_firstDone, List.map_append]
  | rep greedy least extra r ih =>
      simp only [ungrouped, heads, ih, turns_ungrouped]
  | group i r ih =>
      simp only [ungrouped, heads, ih, List.map_map]
      apply List.map_congr_left
      intro h _
      cases h with
      | done marks => rfl
      | read set rest marks => simp [Head.ungrouped, Task.ungrouped_append, Task.ungrouped]

end Regex

namespace Task

theorem heads_again_ungrouped (p : Place) (greedy : Bool) (r : Regex) :
    (again greedy r.ungrouped).heads p = ((again greedy r).heads p).map Head.ungrouped := by
  have hmore : ((r.ungrouped.heads p).filter Head.reads).map
        (Head.followedBy [again greedy r.ungrouped]) =
      (((r.heads p).filter Head.reads).map (Head.followedBy [again greedy r])).map
        Head.ungrouped := by
    rw [Regex.heads_ungrouped, ← Head.map_ungrouped_filter, Regex.map_ungrouped_again]
  simp only [heads, hmore]
  cases greedy <;> simp [Head.ungrouped]

theorem headsAll_cons_ungrouped {p : Place} {t t' : Task} {ts : List Task}
    (ht : t'.heads p = (t.heads p).map Head.ungrouped)
    (hts : headsAll p (ungrouped ts) = (headsAll p ts).map Head.ungrouped) :
    headsAll p (t' :: ungrouped ts) = (headsAll p (t :: ts)).map Head.ungrouped := by
  rw [headsAll, headsAll, ht, List.flatMap_map, List.map_flatMap]
  congr 1
  funext h
  cases h with
  | done marks =>
      simp only [Head.ungrouped, hts]
      exact Head.map_ungrouped_after marks _
  | read set rest marks => simp [Head.ungrouped, ungrouped_append]

theorem headsAll_ungrouped (p : Place) (ts : List Task) :
    headsAll p (ungrouped ts) = (headsAll p ts).map Head.ungrouped := by
  induction ts with
  | nil => rfl
  | cons t ts ih =>
      cases t with
      | run r => exact headsAll_cons_ungrouped (Regex.heads_ungrouped p r) ih
      | again greedy r => exact headsAll_cons_ungrouped (heads_again_ungrouped p greedy r) ih
      | close i =>
          simp only [ungrouped, headsAll, heads, List.flatMap_singleton, ih, List.map_map]
          apply List.map_congr_left
          intro h _
          cases h <;> rfl

/-- Tasks without groups come to as many outcomes as the tasks with them. -/
theorem runs_ungrouped (before : Option Char) (offset : Nat) (ts : List Task) (s : Text) :
    runs before offset (ungrouped ts) s = (runs before offset ts s).map fun _ => [] := by
  induction s generalizing before offset ts with
  | nil =>
      simp only [runs, headsAll_ungrouped, List.flatMap_map, List.map_flatMap]
      congr 1
      funext h
      cases h <;> rfl
  | cons c cs ih =>
      simp only [runs, headsAll_ungrouped, List.flatMap_map, List.map_flatMap]
      congr 1
      funext h
      cases h with
      | done marks => rfl
      | read set rest marks =>
          by_cases hc : set.contains c
          · simp only [Head.ungrouped, hc, ite_true, ih, List.map_map]
            rfl
          · simp [Head.ungrouped, hc]

end Task

namespace Regex

/-- Removing the groups of a pattern does not change the texts in which it is found. -/
theorem isMatch_ungrouped (r : Regex) (text : Text) :
    r.ungrouped.isMatch text = r.isMatch text := by
  have hhere (before : Option Char) (offset : Nat) (s : Text) :
      (r.ungrouped.matchHere before offset s).isSome =
        (r.matchHere before offset s).isSome := by
    have hruns := Task.runs_ungrouped before offset [.run r] s
    rw [matchHere_eq_head?_runs, matchHere_eq_head?_runs]
    simp only [Task.ungrouped] at hruns
    rw [hruns, List.head?_map, Option.isSome_map]
  have hfrom (before : Option Char) (offset : Nat) (s : Text) :
      (r.ungrouped.searchFrom before offset s).isSome =
        (r.searchFrom before offset s).isSome := by
    induction s generalizing before offset with
    | nil => exact hhere before offset []
    | cons c cs ih =>
        have hfirst := hhere before offset (c :: cs)
        rw [searchFrom, searchFrom]
        cases h : r.matchHere before offset (c :: cs) with
        | none =>
            rw [h, Option.isSome_none, Option.isSome_eq_false_iff, Option.isNone_iff_eq_none]
              at hfirst
            simp only [hfirst, ih]
        | some slots =>
            rw [h, Option.isSome_some, Option.isSome_iff_exists] at hfirst
            obtain ⟨slots', hslots⟩ := hfirst
            simp only [hslots, Option.isSome_some]
  exact hfrom none 0 text

end Regex

end PathRouting

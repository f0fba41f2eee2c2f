import PathRouting.Regex.Reader

/-! # The groups of a pattern

The groups of a pattern are listed from left to right, and their number is the highest index
among them. Putting patterns one after another, making them alternatives or repeating them keeps
the highest index of all. -/

namespace PathRouting.Regex

/-- The groups of a pattern from left to right, each with its index and the pattern in it. -/
def groups : Regex → List (Nat × Regex)
  | empty => []
  | one _ => []
  | look _ => []
  | cat a b => a.groups ++ b.groups
  | alt a b => a.groups ++ b.groups
  | rep _ _ _ r => r.groups
  | group i r => (i, r) :: r.groups

/-- The number of groups is the highest index of a group. -/
theorem groupCount_le_iff {n : Nat} (r : Regex) :
    r.groupCount ≤ n ↔ ∀ g ∈ r.groups, g.1 ≤ n := by
  induction r with
  | empty => simp [groupCount, groups]
  | one set => simp [groupCount, groups]
  | look l => simp [groupCount, groups]
  | cat a b iha ihb =>
      rw [groupCount, groups, Nat.max_le, iha, ihb, List.forall_mem_append]
  | alt a b iha ihb =>
      rw [groupCount, groups, Nat.max_le, iha, ihb, List.forall_mem_append]
  | rep greedy least extra r ih => exact ih
  | group i r ih => rw [groupCount, groups, Nat.max_le, ih, List.forall_mem_cons]

theorem groups_catAll (rs : List Regex) : (catAll rs).groups = rs.flatMap groups := by
  induction rs with
  | nil => rfl
  | cons r rs ih =>
      cases rs with
      | nil => simp [catAll]
      | cons s rs =>
          rw [List.flatMap_cons, ← ih]
          rfl

theorem groups_repeated_one (greedy : Bool) (least : Nat) (extra : Option Nat) (set : CharSet) :
    (repeated greedy least extra (.one set)).groups = [] := by
  unfold repeated
  split
  · rfl
  · split
    · split <;> rfl
    · split <;> rfl

theorem groupCount_catAll_cons (r : Regex) (rs : List Regex) :
    (catAll (r :: rs)).groupCount = max r.groupCount (catAll rs).groupCount := by
  cases rs with
  | nil => simp [catAll, groupCount]
  | cons s rs => rfl

theorem groupCount_catAll_append (rs ss : List Regex) :
    (catAll (rs ++ ss)).groupCount = max (catAll rs).groupCount (catAll ss).groupCount := by
  induction rs with
  | nil => simp [catAll, groupCount]
  | cons r rs ih =>
      rw [List.cons_append, groupCount_catAll_cons, groupCount_catAll_cons, ih, Nat.max_assoc]

theorem groupCount_altAll (rs : List Regex) :
    (altAll rs).groupCount = (catAll rs).groupCount := by
  induction rs with
  | nil => rfl
  | cons r rs ih =>
      cases rs with
      | nil => rfl
      | cons s rs =>
          rw [groupCount_catAll_cons, ← ih]
          rfl

theorem groupCount_catAll_reverse (rs : List Regex) :
    (catAll rs.reverse).groupCount = (catAll rs).groupCount := by
  induction rs with
  | nil => rfl
  | cons r rs ih =>
      rw [List.reverse_cons, groupCount_catAll_append, ih, groupCount_catAll_cons r rs,
        Nat.max_comm]
      rfl

/-- A repetition that allows a turn keeps the groups. -/
theorem groupCount_repeated {least : Nat} {extra : Option Nat}
    (h : ¬(least = 0 ∧ extra = some 0)) (greedy : Bool) (r : Regex) :
    (repeated greedy least extra r).groupCount = r.groupCount := by
  rw [repeated, if_neg h]
  split
  · split <;> rfl
  · split <;> rfl

/-! ## The groups that a reader has read -/

namespace Level

def highestOf (parts : List Part) : Nat := (catAll (parts.map (·.regex))).groupCount

def highest (l : Level) : Nat := max (highestOf l.branches) (highestOf l.parts)

theorem highestOf_cons (p : Part) (ps : List Part) :
    highestOf (p :: ps) = max p.regex.groupCount (highestOf ps) := by
  rw [highestOf, List.map_cons, groupCount_catAll_cons, highestOf]

theorem groupCount_sequence (ps : List Part) :
    (sequence ps).regex.groupCount = highestOf ps := by
  match ps with
  | [] => rfl
  | [p] => rfl
  | p :: q :: ps =>
      have hsequence : (sequence (p :: q :: ps)).regex =
          catAll ((p :: q :: ps).reverse.map (·.regex)) := rfl
      rw [hsequence, List.map_reverse, groupCount_catAll_reverse, highestOf]

theorem groupCount_close (l : Level) : l.close.regex.groupCount = l.highest := by
  obtain ⟨branches, parts⟩ := l
  cases branches with
  | nil =>
      rw [highest, highestOf, List.map_nil, catAll, groupCount, Nat.zero_max,
        ← groupCount_sequence]
      rfl
  | cons b bs =>
      have hclose : (close ⟨b :: bs, parts⟩).regex =
          altAll ((sequence parts :: b :: bs).reverse.map (·.regex)) := rfl
      rw [hclose, groupCount_altAll, List.map_reverse, groupCount_catAll_reverse, List.map_cons,
        groupCount_catAll_cons, groupCount_sequence, Nat.max_comm]
      rfl

end Level

end PathRouting.Regex

import PathRouting.Proofs.Runs

/-! # What patterns take

A pattern takes a stretch of a text. What stands before the stretch and behind it only counts
for the conditions that the pattern asks for. The search finds a pattern in a text just if the
pattern takes some stretch of it. -/

namespace PathRouting

/-- So many turns take a stretch one after another, each of them as `P` says. -/
inductive Turns (P : Text → Text → Text → Prop) : Nat → Text → Text → Text → Prop
  | zero (front back : Text) : Turns P 0 front [] back
  | succ {n : Nat} {front t u back : Text} (h : P front t (u ++ back))
      (hs : Turns P n (front ++ t) u back) : Turns P (n + 1) front (t ++ u) back

/-- The pattern takes `t` where `front` stands before it and `back` behind it. -/
def Regex.Takes : Regex → Text → Text → Text → Prop
  | empty, _, t, _ => t = []
  | one set, _, t, _ => ∃ c, t = [c] ∧ set.contains c = true
  | look l, front, t, back => t = [] ∧ l.holds ⟨front.getLast?, back.head?⟩ = true
  | cat a b, front, t, back =>
    ∃ u v, t = u ++ v ∧ a.Takes front u (v ++ back) ∧ b.Takes (front ++ u) v back
  | alt a b, front, t, back => a.Takes front t back ∨ b.Takes front t back
  | rep _ least extra r, front, t, back =>
    ∃ n, least ≤ n ∧ (∀ m ∈ extra, n ≤ least + m) ∧ Turns r.Takes n front t back
  | group _ r, front, t, back => r.Takes front t back

def Task.Takes : Task → Text → Text → Text → Prop
  | run r, front, t, back => r.Takes front t back
  | again _ r, front, t, back => ∃ n, Turns r.Takes n front t back
  | close _, _, t, _ => t = []

def Task.TakesAll : List Task → Text → Text → Text → Prop
  | [], _, t, _ => t = []
  | k :: ks, front, t, back =>
    ∃ u v, t = u ++ v ∧ k.Takes front u (v ++ back) ∧ TakesAll ks (front ++ u) v back

def Head.Takes : Head → Text → Text → Text → Prop
  | done _, _, t, _ => t = []
  | read set rest _, front, t, back =>
    ∃ c u, t = c :: u ∧ set.contains c = true ∧ Task.TakesAll rest (front ++ [c]) u back

def Head.AnyTakes (hs : List Head) (front t back : Text) : Prop :=
  ∃ h ∈ hs, h.Takes front t back

variable {front t back : Text} {hs : List Head}

/-! ## Turns -/

theorem Turns.zero_iff {P : Text → Text → Text → Prop} :
    Turns P 0 front t back ↔ t = [] := by
  constructor
  · intro h
    cases h
    rfl
  · rintro rfl
    exact .zero front back

theorem Turns.succ_iff {P : Text → Text → Text → Prop} {n : Nat} :
    Turns P (n + 1) front t back ↔
      ∃ u v, t = u ++ v ∧ P front u (v ++ back) ∧ Turns P n (front ++ u) v back := by
  constructor
  · intro h
    cases h with
    | succ h hs => exact ⟨_, _, rfl, h, hs⟩
  · rintro ⟨u, v, rfl, h, hs⟩
    exact .succ h hs

/-- Turns that take something begin, but for turns that take nothing, with one that does. -/
theorem Turns.exists_first {P : Text → Text → Text → Prop} {n : Nat}
    (h : Turns P n front t back) (ht : t ≠ []) :
    ∃ k u v, k < n ∧ u ≠ [] ∧ t = u ++ v ∧ P front u (v ++ back) ∧
      Turns P k (front ++ u) v back := by
  induction h with
  | zero => exact absurd rfl ht
  | @succ n front u v back hu hv ih =>
      cases u with
      | nil =>
          rw [List.append_nil] at ih
          obtain ⟨k, u, v, hk, hrest⟩ := ih ht
          exact ⟨k, u, v, by omega, hrest⟩
      | cons c cs => exact ⟨n, c :: cs, v, by omega, by simp, rfl, hu, hv⟩

theorem Turns.imp {P Q : Text → Text → Text → Prop}
    (h : ∀ front t back, P front t back → Q front t back) {n : Nat} {front t back : Text}
    (hturns : Turns P n front t back) : Turns Q n front t back := by
  induction hturns with
  | zero => exact .zero _ _
  | succ hturn _ ih => exact .succ (h _ _ _ hturn) ih

/-- Turns that do not depend on what stands around them can be taken anywhere. -/
theorem Turns.elsewhere {P : Text → Text → Text → Prop}
    (h : ∀ front t back front' back', P front t back → P front' t back') {n : Nat}
    {front t back : Text} (hturns : Turns P n front t back) (front' back' : Text) :
    Turns P n front' t back' := by
  induction hturns generalizing front' with
  | zero => exact .zero front' back'
  | succ hturn _ ih => exact .succ (h _ _ _ _ _ hturn) (ih _)

/-! ## Ways to go on -/

namespace Task

theorem takesAll_singleton {k : Task} : TakesAll [k] front t back ↔ k.Takes front t back := by
  constructor
  · rintro ⟨u, v, rfl, hk, rfl⟩
    simpa using hk
  · intro hk
    exact ⟨t, [], by simp, hk, rfl⟩

theorem takesAll_run {r : Regex} :
    TakesAll [.run r] front t back ↔ r.Takes front t back :=
  takesAll_singleton

theorem takesAll_append {ks ls : List Task} :
    TakesAll (ks ++ ls) front t back ↔
      ∃ u v, t = u ++ v ∧ TakesAll ks front u (v ++ back) ∧ TakesAll ls (front ++ u) v back := by
  induction ks generalizing front t with
  | nil =>
      constructor
      · intro h
        exact ⟨[], t, rfl, rfl, by simpa using h⟩
      · rintro ⟨_, v, rfl, rfl, h⟩
        simpa using h
  | cons k ks ih =>
      simp only [List.cons_append, TakesAll, ih]
      constructor
      · rintro ⟨u, _, rfl, hk, v, w, rfl, hks, hls⟩
        exact ⟨u ++ v, w, by simp, ⟨u, v, rfl, by simpa using hk, hks⟩, by simpa using hls⟩
      · rintro ⟨_, w, rfl, ⟨u, v, rfl, hk, hks⟩, hls⟩
        exact ⟨u, v ++ w, by simp, by simpa using hk, v, w, rfl, hks, by simpa using hls⟩

end Task

namespace Head

theorem takes_after {marks : List Mark} {h : Head} :
    (h.after marks).Takes front t back ↔ h.Takes front t back := by
  cases h <;> rfl

theorem anyTakes_append {hs' : List Head} :
    AnyTakes (hs ++ hs') front t back ↔ AnyTakes hs front t back ∨ AnyTakes hs' front t back := by
  simp only [AnyTakes, List.mem_append, or_and_right, exists_or]

theorem anyTakes_map_after (marks : List Mark) :
    AnyTakes (hs.map (after marks)) front t back ↔ AnyTakes hs front t back := by
  constructor
  · rintro ⟨_, hmem, htakes⟩
    obtain ⟨h, hh, rfl⟩ := List.mem_map.mp hmem
    exact ⟨h, hh, takes_after.mp htakes⟩
  · rintro ⟨h, hh, htakes⟩
    exact ⟨_, List.mem_map.mpr ⟨h, hh, rfl⟩, takes_after.mpr htakes⟩

theorem anyTakes_cons {h : Head} :
    AnyTakes (h :: hs) front t back ↔ h.Takes front t back ∨ AnyTakes hs front t back := by
  simp [AnyTakes]

theorem anyTakes_filter_reads :
    AnyTakes (hs.filter reads) front t back ↔ t ≠ [] ∧ AnyTakes hs front t back := by
  constructor
  · rintro ⟨h, hh, htakes⟩
    obtain ⟨hmem, hreads⟩ := List.mem_filter.mp hh
    cases h with
    | done marks => simp [reads] at hreads
    | read set rest marks =>
        refine ⟨?_, _, hmem, htakes⟩
        obtain ⟨c, u, rfl, _⟩ := htakes
        simp
  · rintro ⟨ht, h, hmem, htakes⟩
    cases h with
    | done marks => exact absurd htakes ht
    | read set rest marks => exact ⟨_, List.mem_filter.mpr ⟨hmem, rfl⟩, htakes⟩

/-- Of the ways that are done only one counts. -/
theorem anyTakes_firstDone : AnyTakes (firstDone hs) front t back ↔ AnyTakes hs front t back := by
  induction hs with
  | nil => rfl
  | cons h hs ih =>
      cases h with
      | done marks =>
          rw [firstDone, anyTakes_cons, anyTakes_cons, anyTakes_filter_reads]
          have hdone : (done marks).Takes front t back ↔ t = [] := .rfl
          rw [hdone]
          by_cases ht : t = [] <;> simp [ht]
      | read set rest marks => rw [firstDone, anyTakes_cons, anyTakes_cons, ih]

theorem anyTakes_choice {greedy : Bool} :
    AnyTakes (if greedy then hs ++ [done []] else done [] :: hs) front t back ↔
      t = [] ∨ AnyTakes hs front t back := by
  have hdone : AnyTakes [done []] front t back ↔ t = [] := by simp [AnyTakes, Takes]
  cases greedy with
  | true =>
      simp only [ite_true]
      rw [anyTakes_append, hdone, or_comm]
  | false =>
      simp only [Bool.false_eq_true, ite_false]
      rw [anyTakes_cons]
      rfl

theorem anyTakes_optional {greedy : Bool} :
    AnyTakes (optional greedy hs) front t back ↔ t = [] ∨ AnyTakes hs front t back := by
  rw [optional, anyTakes_firstDone, anyTakes_choice]

theorem filter_reads_followedBy (ks : List Task) (hs : List Head) :
    (hs.map (followedBy ks)).filter reads = (hs.filter reads).map (followedBy ks) := by
  rw [List.filter_map]
  congr 2
  funext h
  cases h <;> rfl

/-- Ways that go on with tasks take what the ways take and then what the tasks take. Those
that are done without reading go on with ways of their own, which the tasks stand for. -/
theorem anyTakes_seq {next : List Head} {ks : List Task}
    (hnext : AnyTakes next front t back ↔ Task.TakesAll ks front t back) :
    AnyTakes (hs.flatMap fun
      | done marks => next.map (after marks)
      | read set rest marks => [read set (rest ++ ks) marks]) front t back ↔
      ∃ u v, t = u ++ v ∧ AnyTakes hs front u (v ++ back) ∧
        Task.TakesAll ks (front ++ u) v back := by
  constructor
  · rintro ⟨h, hh, htakes⟩
    obtain ⟨h', hh', hmem⟩ := List.mem_flatMap.mp hh
    cases h' with
    | done marks =>
        have hany : AnyTakes next front t back := (anyTakes_map_after marks).mp ⟨h, hmem, htakes⟩
        exact ⟨[], t, rfl, ⟨_, hh', rfl⟩, by simpa using hnext.mp hany⟩
    | read set rest marks =>
        obtain rfl := List.mem_singleton.mp hmem
        obtain ⟨c, w, rfl, hc, hall⟩ := htakes
        obtain ⟨u, v, rfl, hrest, hks⟩ := Task.takesAll_append.mp hall
        exact ⟨c :: u, v, rfl, ⟨_, hh', c, u, rfl, hc, hrest⟩, by simpa using hks⟩
  · rintro ⟨u, v, rfl, ⟨h, hh, htakes⟩, hks⟩
    cases h with
    | done marks =>
        obtain rfl : u = [] := htakes
        rw [List.append_nil] at hks
        obtain ⟨h, hmem, htakes⟩ := (anyTakes_map_after marks).mpr (hnext.mpr hks)
        exact ⟨h, List.mem_flatMap.mpr ⟨_, hh, hmem⟩, htakes⟩
    | read set rest marks =>
        obtain ⟨c, w, rfl, hc, hrest⟩ := htakes
        refine ⟨_, List.mem_flatMap.mpr ⟨_, hh, List.mem_singleton_self _⟩, c, w ++ v, rfl, hc, ?_⟩
        exact Task.takesAll_append.mpr ⟨w, v, rfl, hrest, by simpa using hks⟩

/-- Ways that are not followed by tasks unless they read take nothing, or something and then
what the tasks take. -/
theorem anyTakes_followedBy {ks : List Task} :
    AnyTakes (hs.map (followedBy ks)) front t back ↔
      t = [] ∧ AnyTakes hs front [] back ∨
        ∃ u v, u ≠ [] ∧ t = u ++ v ∧ AnyTakes hs front u (v ++ back) ∧
          Task.TakesAll ks (front ++ u) v back := by
  constructor
  · rintro ⟨h, hh, htakes⟩
    obtain ⟨h', hh', rfl⟩ := List.mem_map.mp hh
    cases h' with
    | done marks => exact .inl ⟨htakes, _, hh', rfl⟩
    | read set rest marks =>
        obtain ⟨c, w, rfl, hc, hall⟩ := htakes
        obtain ⟨u, v, rfl, hrest, hks⟩ := Task.takesAll_append.mp hall
        exact .inr ⟨c :: u, v, by simp, rfl, ⟨_, hh', c, u, rfl, hc, hrest⟩, by simpa using hks⟩
  · rintro (⟨rfl, h, hh, htakes⟩ | ⟨u, v, hu, rfl, ⟨h, hh, htakes⟩, hks⟩)
    · cases h with
      | done marks => exact ⟨_, List.mem_map.mpr ⟨_, hh, rfl⟩, rfl⟩
      | read set rest marks =>
          obtain ⟨c, w, hnil, _⟩ := htakes
          simp at hnil
    · cases h with
      | done marks => exact absurd htakes hu
      | read set rest marks =>
          obtain ⟨c, w, rfl, hc, hrest⟩ := htakes
          refine ⟨_, List.mem_map.mpr ⟨_, hh, rfl⟩, c, w ++ v, rfl, hc, ?_⟩
          exact Task.takesAll_append.mpr ⟨w, v, rfl, hrest, by simpa using hks⟩

end Head

/-! ## Patterns -/

namespace Regex

variable {r : Regex} {turn : List Head} {greedy : Bool}

/-- The stretches that a pattern repeated takes. -/
theorem anyTakes_optionalTurns
    (hturn : ∀ u v, t = u ++ v → (Head.AnyTakes turn front u (v ++ back) ↔
      r.Takes front u (v ++ back))) (n : Nat) :
    Head.AnyTakes (optionalTurns greedy r turn n) front t back ↔
      ∃ k ≤ n, Turns r.Takes k front t back := by
  induction n with
  | zero => simp [optionalTurns, Head.AnyTakes, Head.Takes, Turns.zero_iff]
  | succ n ih =>
      have hmore : ∀ {u v : Text}, Task.TakesAll [.run (rep greedy 0 (some n) r)] u v back ↔
          ∃ k ≤ n, Turns r.Takes k u v back := by
        intro u v
        rw [Task.takesAll_singleton]
        simp [Task.Takes, Takes]
      rw [optionalTurns, Head.anyTakes_optional]
      refine (or_congr .rfl (Head.anyTakes_seq (ih.trans hmore.symm))).trans ?_
      constructor
      · rintro (rfl | ⟨u, v, rfl, hu, hv⟩)
        · exact ⟨0, by omega, .zero front back⟩
        · obtain ⟨k, hk, hturns⟩ := hmore.mp hv
          exact ⟨k + 1, by omega, .succ ((hturn u v rfl).mp hu) hturns⟩
      · rintro ⟨k, hk, hturns⟩
        cases k with
        | zero => exact .inl (Turns.zero_iff.mp hturns)
        | succ k =>
            obtain ⟨u, v, rfl, hu, hv⟩ := Turns.succ_iff.mp hturns
            exact .inr ⟨u, v, rfl, (hturn u v rfl).mpr hu, hmore.mpr ⟨k, by omega, hv⟩⟩

/-- Ways that go on with further turns without bound. A turn that takes nothing is the last
one, which does not matter, for what follows it can be taken right away. -/
theorem anyTakes_again
    (hturn : ∀ u v, t = u ++ v → (Head.AnyTakes turn front u (v ++ back) ↔
      r.Takes front u (v ++ back))) :
    Head.AnyTakes (turn.map (Head.followedBy [.again greedy r])) front t back ↔
      ∃ k, Turns r.Takes (k + 1) front t back := by
  have hmore : ∀ {u v : Text}, Task.TakesAll [.again greedy r] u v back ↔
      ∃ k, Turns r.Takes k u v back := by
    intro u v
    rw [Task.takesAll_singleton]
    rfl
  rw [Head.anyTakes_followedBy]
  constructor
  · rintro (⟨rfl, hnothing⟩ | ⟨u, v, _, rfl, hu, hv⟩)
    · have hlast : r.Takes front [] ([] ++ back) := (hturn [] [] rfl).mp hnothing
      exact ⟨0, .succ hlast (.zero _ _)⟩
    · obtain ⟨k, hturns⟩ := hmore.mp hv
      exact ⟨k, .succ ((hturn u v rfl).mp hu) hturns⟩
  · rintro ⟨k, hturns⟩
    by_cases ht : t = []
    · subst ht
      obtain ⟨u, v, hnil, hu, _⟩ := Turns.succ_iff.mp hturns
      obtain ⟨rfl, rfl⟩ := List.append_eq_nil_iff.mp hnil.symm
      exact .inl ⟨rfl, (hturn [] [] rfl).mpr hu⟩
    · obtain ⟨k, u, v, _, hne, rfl, hu, hv⟩ := hturns.exists_first ht
      exact .inr ⟨u, v, hne, rfl, (hturn u v rfl).mpr hu, hmore.mpr ⟨k, hv⟩⟩

theorem anyTakes_turns
    (hturn : ∀ u v, t = u ++ v → (Head.AnyTakes turn front u (v ++ back) ↔
      r.Takes front u (v ++ back))) (least : Nat) (extra : Option Nat) :
    Head.AnyTakes (turns greedy r turn least extra) front t back ↔
      (rep greedy least extra r).Takes front t back := by
  induction least with
  | zero =>
      cases extra with
      | some n =>
          rw [turns, anyTakes_optionalTurns hturn]
          simp [Takes]
      | none =>
          rw [turns, Head.anyTakes_optional, anyTakes_again hturn]
          constructor
          · rintro (rfl | ⟨k, hturns⟩)
            · exact ⟨0, by omega, by simp, .zero front back⟩
            · exact ⟨k + 1, by omega, by simp, hturns⟩
          · rintro ⟨k, _, _, hturns⟩
            cases k with
            | zero => exact .inl (Turns.zero_iff.mp hturns)
            | succ k => exact .inr ⟨k, hturns⟩
  | succ n ih =>
      by_cases hlast : n = 0 ∧ extra = none
      · obtain ⟨rfl, rfl⟩ := hlast
        have hagain : turns greedy r turn 1 none =
            turn.map (Head.followedBy [.again greedy r]) := rfl
        rw [hagain, anyTakes_again hturn]
        constructor
        · rintro ⟨k, hturns⟩
          exact ⟨k + 1, by omega, by simp, hturns⟩
        · rintro ⟨k, hk, _, hturns⟩
          obtain ⟨k, rfl⟩ : ∃ m, k = m + 1 := ⟨k - 1, by omega⟩
          exact ⟨k, hturns⟩
      · have hmore : extra = none → n = 0 → False := fun hextra hn => hlast ⟨hn, hextra⟩
        have hrest : Head.AnyTakes (turns greedy r turn n extra) front t back ↔
            Task.TakesAll [.run (rep greedy n extra r)] front t back :=
          ih.trans Task.takesAll_run.symm
        rw [turns.eq_4 _ _ _ _ _ hmore]
        refine (Head.anyTakes_seq hrest).trans ?_
        constructor
        · rintro ⟨u, v, rfl, hu, hv⟩
          obtain ⟨k, hleast, hextra, hturns⟩ := Task.takesAll_singleton.mp hv
          refine ⟨k + 1, by omega, ?_, .succ ((hturn u v rfl).mp hu) hturns⟩
          intro m hm
          have hle := hextra m hm
          omega
        · rintro ⟨k, hleast, hextra, hturns⟩
          obtain ⟨k, rfl⟩ : ∃ m, k = m + 1 := ⟨k - 1, by omega⟩
          obtain ⟨u, v, rfl, hu, hv⟩ := Turns.succ_iff.mp hturns
          refine ⟨u, v, rfl, (hturn u v rfl).mpr hu,
            Task.takesAll_singleton.mpr ⟨k, by omega, ?_, hv⟩⟩
          intro m hm
          have hle := hextra m hm
          omega

/-- The ways in which a pattern can go on at a place take what the pattern takes there. -/
theorem anyTakes_heads (r : Regex) (front t back : Text) :
    Head.AnyTakes (r.heads ⟨front.getLast?, (t ++ back).head?⟩) front t back ↔
      r.Takes front t back := by
  induction r generalizing front t back with
  | empty => simp [heads, Head.AnyTakes, Head.Takes, Takes]
  | one set =>
      simp only [heads, Head.AnyTakes, List.mem_singleton, exists_eq_left, Head.Takes,
        Task.TakesAll, Takes]
      constructor
      · rintro ⟨c, u, rfl, hc, rfl⟩
        exact ⟨c, rfl, hc⟩
      · rintro ⟨c, rfl, hc⟩
        exact ⟨c, [], rfl, hc, rfl⟩
  | look l =>
      rw [heads, Takes]
      constructor
      · rintro ⟨h, hh, htakes⟩
        split at hh
        · rename_i hl
          obtain rfl := List.mem_singleton.mp hh
          obtain rfl : t = [] := htakes
          exact ⟨rfl, hl⟩
        · simp at hh
      · rintro ⟨rfl, hl⟩
        exact ⟨.done [], by simp [hl], rfl⟩
  | cat a b iha ihb =>
      have hb : Head.AnyTakes (b.heads ⟨front.getLast?, (t ++ back).head?⟩) front t back ↔
          Task.TakesAll [.run b] front t back :=
        (ihb front t back).trans Task.takesAll_run.symm
      rw [heads, Takes]
      refine (Head.anyTakes_seq hb).trans ?_
      constructor
      · rintro ⟨u, v, rfl, hu, hv⟩
        rw [List.append_assoc] at hu
        exact ⟨u, v, rfl, (iha front u (v ++ back)).mp hu, Task.takesAll_run.mp hv⟩
      · rintro ⟨u, v, rfl, hu, hv⟩
        refine ⟨u, v, rfl, ?_, Task.takesAll_run.mpr hv⟩
        rw [List.append_assoc]
        exact (iha front u (v ++ back)).mpr hu
  | alt a b iha ihb => rw [heads, Head.anyTakes_firstDone, Head.anyTakes_append, iha, ihb, Takes]
  | rep greedy least extra r ih =>
      rw [heads]
      apply anyTakes_turns
      rintro u v rfl
      rw [List.append_assoc]
      exact ih front u (v ++ back)
  | group i r ih =>
      rw [heads, Takes, ← ih]
      constructor
      · rintro ⟨_, hmem, htakes⟩
        obtain ⟨h, hh, rfl⟩ := List.mem_map.mp hmem
        refine ⟨h, hh, ?_⟩
        cases h with
        | done marks => exact htakes
        | read set rest marks =>
            obtain ⟨c, w, rfl, hc, hall⟩ := htakes
            obtain ⟨u, v, rfl, hrest, hclose⟩ := Task.takesAll_append.mp hall
            obtain rfl : v = [] := Task.takesAll_singleton.mp hclose
            exact ⟨c, u, by simp, hc, by simpa using hrest⟩
      · rintro ⟨h, hh, htakes⟩
        refine ⟨_, List.mem_map.mpr ⟨h, hh, rfl⟩, ?_⟩
        cases h with
        | done marks => exact htakes
        | read set rest marks =>
            obtain ⟨c, u, rfl, hc, hrest⟩ := htakes
            refine ⟨c, u, rfl, hc, Task.takesAll_append.mpr ⟨u, [], by simp, hrest, ?_⟩⟩
            exact Task.takesAll_singleton.mpr rfl

end Regex

/-! ## Searches -/

namespace Task

theorem anyTakes_heads (k : Task) (front t back : Text) :
    Head.AnyTakes (k.heads ⟨front.getLast?, (t ++ back).head?⟩) front t back ↔
      k.Takes front t back := by
  cases k with
  | run r => exact r.anyTakes_heads front t back
  | close i => simp [heads, Head.AnyTakes, Head.Takes, Takes]
  | again greedy r =>
      have hmore : Head.AnyTakes (((r.heads ⟨front.getLast?, (t ++ back).head?⟩).filter
            Head.reads).map (Head.followedBy [again greedy r])) front t back ↔
          t ≠ [] ∧ ∃ n, Turns r.Takes (n + 1) front t back := by
        rw [← Head.filter_reads_followedBy, Head.anyTakes_filter_reads, Regex.anyTakes_again]
        rintro u v rfl
        rw [List.append_assoc]
        exact r.anyTakes_heads front u (v ++ back)
      rw [heads, Head.anyTakes_choice, hmore]
      constructor
      · rintro (rfl | ⟨_, n, hturns⟩)
        · exact ⟨0, .zero front back⟩
        · exact ⟨n + 1, hturns⟩
      · rintro ⟨n, hturns⟩
        cases n with
        | zero => exact .inl (Turns.zero_iff.mp hturns)
        | succ n =>
            by_cases ht : t = []
            · exact .inl ht
            · exact .inr ⟨ht, n, hturns⟩

theorem anyTakes_headsAll (ks : List Task) (front t back : Text) :
    Head.AnyTakes (headsAll ⟨front.getLast?, (t ++ back).head?⟩ ks) front t back ↔
      TakesAll ks front t back := by
  induction ks generalizing t with
  | nil => simp [headsAll, Head.AnyTakes, Head.Takes, TakesAll]
  | cons k ks ih =>
      refine (Head.anyTakes_seq (ih t)).trans ?_
      constructor
      · rintro ⟨u, v, rfl, hu, hv⟩
        rw [List.append_assoc] at hu
        exact ⟨u, v, rfl, (anyTakes_heads k front u (v ++ back)).mp hu, hv⟩
      · rintro ⟨u, v, rfl, hu, hv⟩
        refine ⟨u, v, rfl, ?_, hv⟩
        rw [List.append_assoc]
        exact (anyTakes_heads k front u (v ++ back)).mpr hu

/-- Tasks come to an outcome just if they take a stretch at the front of the text. -/
theorem runs_ne_nil_iff (ks : List Task) (front : Text) (offset : Nat) (s : Text) :
    runs front.getLast? offset ks s ≠ [] ↔
      ∃ t back, s = t ++ back ∧ TakesAll ks front t back := by
  induction s generalizing ks front offset with
  | nil =>
      have hheads := anyTakes_headsAll ks front [] []
      rw [runs, ne_eq, List.flatMap_eq_nil_iff, Classical.not_forall]
      constructor
      · rintro ⟨h, hh⟩
        obtain ⟨hmem, hne⟩ := Classical.not_imp.mp hh
        cases h with
        | done marks => exact ⟨[], [], rfl, hheads.mp ⟨_, hmem, rfl⟩⟩
        | read set rest marks => exact absurd rfl hne
      · rintro ⟨t, back, hnil, htakes⟩
        obtain ⟨rfl, rfl⟩ := List.append_eq_nil_iff.mp hnil.symm
        obtain ⟨h, hmem, hh⟩ := hheads.mpr htakes
        refine ⟨h, fun hnone => ?_⟩
        cases h with
        | done marks => simpa using hnone hmem
        | read set rest marks =>
            obtain ⟨c, u, hcons, _⟩ := hh
            simp at hcons
  | cons c cs ih =>
      have hheads (t back : Text) (ht : c :: cs = t ++ back) := anyTakes_headsAll ks front t back
      have hnext : (front ++ [c]).getLast? = some c := by simp
      rw [runs, ne_eq, List.flatMap_eq_nil_iff, Classical.not_forall]
      constructor
      · rintro ⟨h, hh⟩
        obtain ⟨hmem, hne⟩ := Classical.not_imp.mp hh
        cases h with
        | done marks => exact ⟨[], c :: cs, rfl, (hheads _ _ rfl).mp ⟨_, hmem, rfl⟩⟩
        | read set rest marks =>
            simp only [ite_eq_right_iff, List.map_eq_nil_iff, Classical.not_imp] at hne
            obtain ⟨hc, hruns⟩ := hne
            rw [← hnext] at hruns
            obtain ⟨t, back, rfl, hrest⟩ := (ih rest (front ++ [c]) (offset + 1)).mp hruns
            exact ⟨c :: t, back, rfl, (hheads _ _ rfl).mp ⟨_, hmem, c, t, rfl, hc, hrest⟩⟩
      · rintro ⟨t, back, ht, htakes⟩
        obtain ⟨h, hmem, hh⟩ := (hheads t back ht).mpr htakes
        rw [← ht, List.head?_cons] at hmem
        refine ⟨h, fun hnone => ?_⟩
        have hnil := hnone hmem
        cases h with
        | done marks => simp at hnil
        | read set rest marks =>
            obtain ⟨d, u, rfl, hd, hrest⟩ := hh
            obtain ⟨rfl, rfl⟩ := List.cons.inj ht
            simp only [hd, ite_true, List.map_eq_nil_iff] at hnil
            rw [← hnext] at hnil
            exact (ih rest (front ++ [c]) (offset + 1)).mpr ⟨u, back, rfl, hrest⟩ hnil

end Task

namespace Regex

theorem matchHere_isSome_iff (r : Regex) (front : Text) (offset : Nat) (s : Text) :
    (r.matchHere front.getLast? offset s).isSome = true ↔
      ∃ t back, s = t ++ back ∧ r.Takes front t back := by
  rw [matchHere_eq_head?_runs, List.isSome_head?, Task.runs_ne_nil_iff]
  simp only [Task.takesAll_run]

theorem searchFrom_isSome_iff (r : Regex) (front : Text) (offset : Nat) (s : Text) :
    (r.searchFrom front.getLast? offset s).isSome = true ↔
      ∃ u t back, s = u ++ t ++ back ∧ r.Takes (front ++ u) t back := by
  induction s generalizing front offset with
  | nil =>
      rw [searchFrom, matchHere_isSome_iff]
      constructor
      · rintro ⟨t, back, ht, htakes⟩
        exact ⟨[], t, back, ht, by simpa using htakes⟩
      · rintro ⟨u, t, back, ht, htakes⟩
        obtain ⟨hu, rfl⟩ := List.append_eq_nil_iff.mp ht.symm
        obtain ⟨rfl, rfl⟩ := List.append_eq_nil_iff.mp hu
        exact ⟨[], [], rfl, by simpa using htakes⟩
  | cons c cs ih =>
      have hnext : (front ++ [c]).getLast? = some c := by simp
      have hlater := ih (front ++ [c]) (offset + 1)
      rw [hnext] at hlater
      have hsplit : (r.searchFrom front.getLast? offset (c :: cs)).isSome =
          ((r.matchHere front.getLast? offset (c :: cs)).isSome ||
            (r.searchFrom (some c) (offset + 1) cs).isSome) := by
        rw [searchFrom]
        cases r.matchHere front.getLast? offset (c :: cs) <;> rfl
      rw [hsplit, Bool.or_eq_true, matchHere_isSome_iff, hlater]
      constructor
      · rintro (⟨t, back, ht, htakes⟩ | ⟨u, t, back, rfl, htakes⟩)
        · exact ⟨[], t, back, ht, by simpa using htakes⟩
        · exact ⟨c :: u, t, back, rfl, by simpa using htakes⟩
      · rintro ⟨u, t, back, ht, htakes⟩
        cases u with
        | nil => exact .inl ⟨t, back, ht, by simpa using htakes⟩
        | cons d u =>
            obtain ⟨rfl, rfl⟩ := List.cons.inj ht
            exact .inr ⟨u, t, back, rfl, by simpa using htakes⟩

/-- A pattern is found in a text just if it takes some stretch of it. -/
theorem isMatch_iff_takes (r : Regex) (s : Text) :
    r.isMatch s = true ↔ ∃ front t back, s = front ++ t ++ back ∧ r.Takes front t back := by
  exact r.searchFrom_isSome_iff [] 0 s

/-! ## Sequences and whole texts -/

theorem takes_catAll {rs : List Regex} {front t back : Text} :
    (catAll rs).Takes front t back ↔ Task.TakesAll (rs.map .run) front t back := by
  induction rs generalizing front t with
  | nil => rfl
  | cons r rs ih =>
      cases rs with
      | nil => exact Task.takesAll_run.symm
      | cons r' rs =>
          have hcat : catAll (r :: r' :: rs) = .cat r (catAll (r' :: rs)) := rfl
          rw [hcat, Takes]
          simp only [ih]
          rfl

/-- A sequence between the ends of the text is found if it takes the whole text. -/
theorem isMatch_anchored (rs : List Regex) (s : Text) :
    (catAll (.look .textStart :: rs ++ [.look .textEnd])).isMatch s = true ↔
      Task.TakesAll (rs.map .run) [] s [] := by
  have hstart {u front back : Text} :
      (look .textStart).Takes front u back ↔ u = [] ∧ front = [] := by
    simp [Takes, Look.holds]
  have hend {u front back : Text} : (look .textEnd).Takes front u back ↔ u = [] ∧ back = [] := by
    simp [Takes, Look.holds]
  rw [isMatch_iff_takes]
  simp only [takes_catAll, List.cons_append, List.map_cons, List.map_append, List.map_nil,
    Task.TakesAll, Task.takesAll_append, Task.Takes, hstart, hend]
  constructor
  · rintro ⟨front, t, back, rfl, _, v, rfl, ⟨rfl, rfl⟩, u, w, rfl, hall, _, _, rfl, ⟨rfl, hback⟩,
      rfl⟩
    obtain rfl : back = [] := by simpa using hback
    simpa using hall
  · intro hall
    exact ⟨[], s, [], by simp, [], s, rfl, ⟨rfl, rfl⟩, s, [], by simp, by simpa using hall, [], [],
      rfl, ⟨rfl, rfl⟩, rfl⟩

def whole (r : Regex) : Regex := catAll [.look .textStart, r, .look .textEnd]

theorem isMatch_whole (r : Regex) (s : Text) : r.whole.isMatch s = true ↔ r.Takes [] s [] :=
  (isMatch_anchored [r] s).trans Task.takesAll_run

/-- The pattern asks for no condition on a place. -/
def conditionFree : Regex → Bool
  | empty => true
  | one _ => true
  | look _ => false
  | cat a b => a.conditionFree && b.conditionFree
  | alt a b => a.conditionFree && b.conditionFree
  | rep _ _ _ r => r.conditionFree
  | group _ r => r.conditionFree

theorem Takes.elsewhere {r : Regex} (hr : r.conditionFree = true) {front t back : Text}
    (h : r.Takes front t back) (front' back' : Text) : r.Takes front' t back' := by
  induction r generalizing front t back front' back' with
  | empty => exact h
  | one set => exact h
  | look l => simp [conditionFree] at hr
  | cat a b iha ihb =>
      obtain ⟨ha, hb⟩ := Bool.and_eq_true_iff.mp hr
      obtain ⟨u, v, rfl, hu, hv⟩ := h
      exact ⟨u, v, rfl, iha ha hu _ _, ihb hb hv _ _⟩
  | alt a b iha ihb =>
      obtain ⟨ha, hb⟩ := Bool.and_eq_true_iff.mp hr
      exact h.imp (fun h => iha ha h _ _) (fun h => ihb hb h _ _)
  | rep greedy least extra r ih =>
      obtain ⟨n, hleast, hextra, hturns⟩ := h
      have hturn (front t back front' back' : Text) (h : r.Takes front t back) :
          r.Takes front' t back' := ih hr h front' back'
      exact ⟨n, hleast, hextra, hturns.elsewhere hturn front' back'⟩
  | group i r ih => exact ih hr h _ _

/-- A pattern that asks for no condition takes a stretch just if it is found in the stretch
as a whole. -/
theorem takes_iff_isMatch_whole {r : Regex} (hr : r.conditionFree = true)
    (front t back : Text) : r.Takes front t back ↔ r.whole.isMatch t = true := by
  rw [isMatch_whole]
  exact ⟨fun h => h.elsewhere hr [] [], fun h => h.elsewhere hr front back⟩

end Regex

end PathRouting

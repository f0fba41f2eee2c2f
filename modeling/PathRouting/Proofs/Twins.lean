import PathRouting.Proofs.Alike
import PathRouting.Proofs.Openings
import PathRouting.Proofs.Reading

/-! # Patterns with and without the groups of parameters

Two texts are twins if they only differ in the parentheses around the values of parameters.
When the groups that are opened in the one are just those of the parameters, the patterns
that twins write are the same up to groups. -/

namespace PathRouting.Regex

/-- The text `s` has a group for every parameter where `t` has none. The places are those of
the groups: the numbers of characters from their parentheses to the end of the text. -/
inductive Twin : List Nat → Text → Text → Prop
  | nil : Twin [] [] []
  | cons (c : Char) {places : List Nat} {s t : Text} : Twin places s t →
      Twin places (c :: s) (c :: t)
  | value (reach : Reach) {places : List Nat} {s t : Text} : Twin places s t →
      Twin (((reach.body ++ ')' :: s).length + 1) :: places) ('(' :: (reach.body ++ ')' :: s))
        (reach.body ++ t)

namespace Twin

variable {places : List Nat} {s t : Text}

theorem swap (h : Twin places s t) : Swap s t := by
  induction h with
  | nil => exact .nil
  | cons c _ ih => exact .cons c ih
  | value reach _ _ =>
      cases reach with
      | chunk => exact .seam _ _ rfl rfl
      | path => exact .seam _ _ rfl rfl

theorem eq_nil (h : Twin places [] t) : t = [] := by
  cases h
  rfl

theorem swaps (h : Twin places s t) (f : Flags) : f.Swaps s t := by
  refine ⟨h.swap, ?_⟩
  rintro _ rfl
  exact h.eq_nil

theorem le_length (h : Twin places s t) : ∀ place ∈ places, place ≤ s.length := by
  induction h with
  | nil => simp
  | cons c _ ih =>
      intro place hplace
      have hle := ih place hplace
      simp only [List.length_cons]
      omega
  | value reach _ ih =>
      intro place hplace
      rcases List.mem_cons.mp hplace with rfl | hplace
      · simp
      · have hle := ih place hplace
        simp only [List.length_cons, List.length_append]
        omega

theorem append (h : Twin places s t) (u : Text) : Twin places (u ++ s) (u ++ t) := by
  induction u with
  | nil => exact h
  | cons c u ih => exact .cons c ih

/-- A front in which no group has its place is the same in twins. -/
theorem of_append {used : Text} (h : Twin places (used ++ s) t)
    (hplaces : ∀ place ∈ places, place ≤ s.length) :
    ∃ t', t = used ++ t' ∧ Twin places s t' := by
  induction used generalizing t with
  | nil => exact ⟨t, rfl, h⟩
  | cons c used ih =>
      generalize htext : c :: used ++ s = text at h
      cases h with
      | nil => simp at htext
      | cons d h =>
          obtain ⟨rfl, rfl⟩ := List.cons.inj htext
          obtain ⟨t', rfl, ht'⟩ := ih h
          exact ⟨t', rfl, ht'⟩
      | value reach h =>
          have hle := hplaces _ List.mem_cons_self
          have hlength := congrArg List.length htext
          simp only [List.length_append, List.length_cons] at hle hlength
          omega

theorem skip {f : Flags} (h : Twin places s t)
    (hplaces : ∀ place ∈ places, place ≤ (f.skip s).length) :
    Twin places (f.skip s) (f.skip t) := by
  obtain ⟨used, hused, hskip⟩ := f.skip_local s
  rw [hused] at h
  obtain ⟨t', rfl, ht'⟩ := h.of_append hplaces
  rwa [hskip t' (ht'.swaps f)]

end Twin

namespace Reader

variable {r r' q : Reader} {s t rest : Text} {n : Nat} {reach : Reach}

/-! ## Reading values and their groups -/

theorem loop_step {c : Char} {cs : Text} (hskip : r.flags.skip s = c :: cs)
    (hstep : r.step c cs = .ok (r', rest)) (n : Nat) : loop (n + 1) r s = loop n r' rest := by
  rw [loop]
  simp only [hskip, hstep]

theorem openings_step {c : Char} {cs : Text} (hskip : r.flags.skip s = c :: cs)
    (hstep : r.step c cs = .ok (r', rest)) (hgroups : r'.groups = r.groups) (n : Nat) :
    openings (n + 1) r s = openings n r' rest := by
  rw [openings]
  simp only [hskip, hstep, hgroups, ite_true]

theorem openings_enter {c : Char} {cs : Text} (hskip : r.flags.skip s = c :: cs)
    (hstep : r.step c cs = .ok (r', rest)) (hgroups : r'.groups ≠ r.groups) (n : Nat) :
    openings (n + 1) r s = (cs.length + 1, r'.groups) :: openings n r' rest := by
  rw [openings]
  simp only [hskip, hstep, hgroups, ite_false]

/-- What is dropped before a step does not matter. -/
theorem loop_congr_skip (h : r.flags.skip s = r.flags.skip t) (n : Nat) :
    loop n r s = loop n r t ∧ openings n r s = openings n r t := by
  rw [loop.eq_def n r s, loop.eq_def n r t, openings.eq_def n r s, openings.eq_def n r t]
  simp only [h, and_self]

theorem loop_value {p : Part} (hset : valueSet r.flags reach = .ok p) (rest : Text) (n : Nat) :
    loop (n + 2) r (reach.body ++ rest) =
        loop n (r.extended [repeatedPart r.flags.swapGreed ⟨1, none⟩ p] 0) rest ∧
      openings (n + 2) r (reach.body ++ rest) =
        openings n (r.extended [repeatedPart r.flags.swapGreed ⟨1, none⟩ p] 0) rest := by
  obtain ⟨c, cs, hbody, hseam, _, hstep⟩ := exists_step_value reach rest
  have hfirst : r.step c cs = .ok (r.extended [p] 0, '+' :: '?' :: rest) := by
    rw [hstep, hset]
    rfl
  have hsecond := step_plus r (directive_valueSet hset) rest
  have hskip := r.flags.skip_seam hseam cs
  have hskip' : (r.extended [p] 0).flags.skip ('+' :: '?' :: rest) = '+' :: '?' :: rest :=
    r.flags.skip_cons (by decide) (by decide) _
  rw [hbody, loop_step hskip hfirst, loop_step hskip' hsecond, openings_step hskip hfirst rfl,
    openings_step hskip' hsecond rfl]
  exact ⟨rfl, rfl⟩

theorem exists_of_loop_value (h : loop n r (reach.body ++ rest) = .ok q) :
    ∃ p k, valueSet r.flags reach = .ok p ∧ n = k + 2 := by
  obtain ⟨c, cs, hbody, hseam, _, hstep⟩ := exists_step_value reach rest
  rw [hbody] at h
  have hskip := r.flags.skip_seam hseam cs
  rcases loop_turn h with ⟨hend, _⟩ | ⟨d, ds, k, r₁, rest₁, hds, rfl, hfirst, hmore, _⟩
  · simp [hskip] at hend
  · obtain ⟨rfl, rfl⟩ := List.cons.inj (hskip.symm.trans hds)
    rw [hstep] at hfirst
    cases hset : valueSet r.flags reach with
    | error e => simp [hset, Except.map] at hfirst
    | ok p =>
        simp only [hset, Except.map, Except.ok.injEq, Prod.mk.injEq] at hfirst
        obtain ⟨rfl, rfl⟩ := hfirst
        have hskip' : (r.extended [p] 0).flags.skip ('+' :: '?' :: rest) = '+' :: '?' :: rest :=
          r.flags.skip_cons (by decide) (by decide) _
        rcases loop_turn hmore with ⟨hend, _⟩ | ⟨_, _, k', _, _, _, rfl, _⟩
        · exact absurd (hskip'.symm.trans hend) (by simp)
        · exact ⟨p, k', rfl, rfl⟩

def groupedValue (r : Reader) (p : Part) : Part :=
  groupPart (r.groups + 1) (repeatedPart r.flags.swapGreed ⟨1, none⟩ p)

theorem skip_parenthesis (f : Flags) (rest : Text) :
    f.skip ('(' :: rest) = '(' :: rest ∧ f.skip (')' :: rest) = ')' :: rest :=
  ⟨f.skip_cons (by decide) (by decide) rest, f.skip_cons (by decide) (by decide) rest⟩

theorem loop_group {p : Part} (hset : valueSet r.flags reach = .ok p) (rest : Text) (n : Nat) :
    loop (n + 4) r ('(' :: (reach.body ++ ')' :: rest)) =
        loop n (r.extended [r.groupedValue p] 1) rest ∧
      openings (n + 4) r ('(' :: (reach.body ++ ')' :: rest)) =
        ((reach.body ++ ')' :: rest).length + 1, r.groups + 1) ::
          openings n (r.extended [r.groupedValue p] 1) rest := by
  let inside := r.entered.extended [repeatedPart r.flags.swapGreed ⟨1, none⟩ p] 0
  have hopen := step_open r reach (')' :: rest)
  have hskip := (skip_parenthesis r.flags (reach.body ++ ')' :: rest)).1
  obtain ⟨hloop, hopenings⟩ := loop_value (r := r.entered) hset (')' :: rest) (n + 1)
  have hclose : inside.step ')' rest = .ok (r.extended [r.groupedValue p] 1, rest) :=
    step_close r (repeatedPart r.flags.swapGreed ⟨1, none⟩ p) rest
  have hskip' : inside.flags.skip (')' :: rest) = ')' :: rest :=
    (skip_parenthesis r.flags rest).2
  have hgroups : r.entered.groups ≠ r.groups := by simp [entered]
  refine ⟨?_, ?_⟩
  · rw [loop_step hskip hopen, hloop]
    exact loop_step hskip' hclose n
  · rw [openings_enter hskip hopen hgroups, hopenings]
    exact congrArg _ (openings_step hskip' hclose rfl n)

theorem exists_of_loop_group (h : loop n r ('(' :: (reach.body ++ ')' :: rest)) = .ok q) :
    ∃ p k, valueSet r.flags reach = .ok p ∧ n = k + 4 := by
  have hskip := (skip_parenthesis r.flags (reach.body ++ ')' :: rest)).1
  have hopen := step_open r reach (')' :: rest)
  rcases loop_turn h with ⟨hend, _⟩ | ⟨d, ds, k, r₁, rest₁, hds, rfl, hfirst, hmore, _⟩
  · simp [hskip] at hend
  · obtain ⟨rfl, rfl⟩ := List.cons.inj (hskip.symm.trans hds)
    rw [hopen] at hfirst
    obtain ⟨rfl, rfl⟩ := Prod.mk.inj (Except.ok.inj hfirst)
    obtain ⟨p, k, hset, rfl⟩ := exists_of_loop_value hmore
    rw [(loop_value hset (')' :: rest) k).1] at hmore
    have hskip' := (skip_parenthesis r.flags rest).2
    rcases loop_turn hmore with ⟨hend, _⟩ | ⟨_, _, k', _, _, _, rfl, _⟩
    · exact absurd (hskip'.symm.trans hend) (by simp)
    · exact ⟨p, k', hset, rfl⟩

/-! ## Reading twins -/

theorem Alike.extended {p p' : Part} (h : r.Alike r') (hp : p.Alike p') (k k' : Nat) :
    (r.extended [p] k).Alike (r'.extended [p'] k') :=
  ⟨h.flags, h.level.push hp, h.outer⟩

theorem Alike.groupedValue (h : r.Alike r') (p : Part) :
    (r.groupedValue p).Alike (repeatedPart r'.flags.swapGreed ⟨1, none⟩ p) := by
  rw [← h.flags]
  exact ⟨rfl, rfl⟩

/-- A turn that opens no group is the same over twins. -/
theorem turn_twin {places : List Nat} {c : Char} {cs : Text} {move : Move} {r₁ : Reader}
    (hcs : r.flags.skip s = c :: cs) (hplain : move.Plain) (hfollow : r.follow move = .ok r₁)
    (hmakes : Makes r.flags c cs move rest) (htwin : Twin places (c :: cs) (r.flags.skip t))
    (hplaces : ∀ place ∈ places, place ≤ rest.length) (halike : r.Alike r') :
    ∃ r₁' t', (∀ m, loop (m + 1) r' t = loop m r₁' t') ∧ t'.length < t.length ∧
      Twin places rest t' ∧ r₁.Alike r₁' := by
  obtain ⟨used, rfl, hfront⟩ := hmakes
  have hsplit : Twin places ((c :: used) ++ rest) (r.flags.skip t) := htwin
  obtain ⟨t', hskip, ht'⟩ := hsplit.of_append hplaces
  obtain ⟨r₁', hfollow', halike'⟩ := halike.follow hplain hfollow
  have hstep : r'.step c (used ++ t') = .ok (r₁', t') := by
    exact hfront r' r₁' t' halike.flags.symm hfollow' (ht'.swaps r₁'.flags)
  have hlength := r.flags.length_skip_le t
  rw [hskip, List.length_append, List.length_cons] at hlength
  rw [halike.flags] at hskip
  exact ⟨r₁', t', loop_step hskip hstep, by omega, ht', halike'⟩

/-- A group that twins differ in is opened and closed where the other text has a value. -/
theorem group_twin {u v : Text} (hs : r.flags.skip s = '(' :: (reach.body ++ ')' :: u))
    (ht : r.flags.skip t = reach.body ++ v) (h : loop n r s = .ok q) (halike : r.Alike r') :
    ∃ k r₁ r₁', n = k + 4 ∧ loop k r₁ u = .ok q ∧
      openings n r s =
        ((reach.body ++ ')' :: u).length + 1, r.groups + 1) :: openings k r₁ u ∧
      (∀ m, loop (m + 2) r' t = loop m r₁' v) ∧ r₁.Alike r₁' := by
  have hskip := hs.trans (skip_parenthesis r.flags (reach.body ++ ')' :: u)).1.symm
  obtain ⟨c, cs, hbody, hseam, _⟩ := exists_step_value reach v
  have hskip' : r'.flags.skip t = r'.flags.skip (reach.body ++ v) := by
    rw [← halike.flags, ht, hbody, r.flags.skip_seam hseam]
  rw [(loop_congr_skip hskip n).1] at h
  obtain ⟨p, k, hset, rfl⟩ := exists_of_loop_group h
  obtain ⟨hloop, hopenings⟩ := loop_group hset u k
  rw [hloop] at h
  refine ⟨k, _, r'.extended [repeatedPart r'.flags.swapGreed ⟨1, none⟩ p] 0, rfl, h, ?_, ?_,
    halike.extended (halike.groupedValue p) 1 0⟩
  · rw [(loop_congr_skip hskip (k + 4)).2, hopenings]
  · intro m
    rw [halike.flags] at hset
    rw [(loop_congr_skip hskip' (m + 2)).1, (loop_value hset v m).1]

/-- Readers that are alike stay so over twins, if the groups that the first one opens are
those in which the twins differ. -/
theorem loop_twin {places : List Nat} {m : Nat} (hs : Bare s) (h : loop n r s = .ok q)
    (hplaces : (openings n r s).map Prod.fst = places) (htwin : Twin places s t)
    (halike : r.Alike r') (hm : t.length ≤ m) : ∃ q', loop m r' t = .ok q' ∧ q.Alike q' := by
  -- A group takes several turns at once, so the induction is on all smaller numbers of turns.
  induction n using Nat.strongRecOn generalizing r r' s t m places with
  | ind n ih =>
      have hlength := r.flags.length_skip_le t
      have hskipped := htwin.skip (f := r.flags)
      rcases loop_turn h with ⟨hend, rfl, hnone⟩ |
        ⟨c, cs, k, r₁, rest, hcs, rfl, hstep, hmore, hnext⟩
      · rw [hnone] at hplaces
        subst hplaces
        have hends := hskipped (by simp)
        rw [hend, halike.flags] at hends
        refine ⟨r', ?_, halike⟩
        rw [loop.eq_def]
        simp only [hends.eq_nil]
      · obtain ⟨hbare, hrest, hshorter, _, move, hplain, hfollow, hmakes⟩ :=
          step_turn hs hcs hstep
        have hbound : ∀ place ∈ (openings k r₁ rest).map Prod.fst, place ≤ rest.length := by
          intro place hplace
          obtain ⟨o, ho, rfl⟩ := List.mem_map.mp hplace
          exact (openings_loop hrest hmore).2.2.2 o ho
        rw [hcs, List.length_cons] at hskipped
        rcases follow_groups hplain hfollow with ⟨hsame, _⟩ | ⟨rfl, hnew, _⟩
        · rw [hnext, if_pos hsame] at hplaces
          rw [hplaces] at hbound
          obtain ⟨r₁', t', hloop, hless, ht', halike'⟩ :=
            turn_twin hcs hplain hfollow hmakes
              (hskipped fun place hplace => Nat.le_trans (hbound place hplace) (by omega)) hbound
              halike
          obtain ⟨m, rfl⟩ : ∃ k, m = k + 1 := ⟨m - 1, by omega⟩
          rw [hloop]
          exact ih k (by omega) hrest hmore hplaces ht' halike' (by omega)
        · have hall := hplaces
          rw [hnext, if_neg (by omega), List.map_cons] at hplaces
          have hnow : Twin places (c :: cs) (r.flags.skip t) := by
            apply hskipped
            rw [← hplaces]
            intro place hplace
            rcases List.mem_cons.mp hplace with rfl | hplace
            · exact Nat.le_refl _
            · exact Nat.le_trans (hbound place hplace) (by omega)
          generalize htext : r.flags.skip t = t' at hnow
          cases hnow with
          | cons c hnow =>
              have hle := hnow.le_length (cs.length + 1) (by simp [← hplaces])
              omega
          | @value reach places s' t' hnow =>
              obtain ⟨k', r₂, r₂', hk, hloop, hopenings, hvalue, halike'⟩ :=
                group_twin hcs htext h halike
              rw [hopenings, List.map_cons] at hall
              have hbody : 2 ≤ reach.body.length := by cases reach <;> decide
              rw [htext, List.length_append] at hlength
              obtain ⟨m, rfl⟩ : ∃ k, m = k + 2 := ⟨m - 2, by omega⟩
              rw [hvalue]
              exact ih k' (by omega) hbare.tail.of_append.tail hloop (List.cons.inj hall).2 hnow
                halike' (by omega)

theorem regex_of_finish {a : Regex} (h : r.finish = .ok a) : a = r.level.close.regex := by
  simp only [finish] at h
  split at h
  · simp at h
  · split at h
    · simp at h
    · exact (Except.ok.inj h).symm

end Reader

/-- Twins write the same pattern up to groups, if the groups of the first one are those in
which they differ. -/
theorem ungrouped_eq_of_twin {caseless : Bool} {s t : Text} {a b : Regex} (hs : Bare s)
    (htwin : Twin ((openings caseless s).map Prod.fst) s t) (ha : read caseless s = .ok a)
    (hb : read caseless t = .ok b) : a.ungrouped = b.ungrouped := by
  unfold read at ha hb
  cases hloop : Reader.loop s.length { flags := { caseless := caseless } } s with
  | error e => simp [hloop] at ha
  | ok q =>
      have hstart : Reader.Alike { flags := { caseless := caseless } }
          { flags := { caseless := caseless } } := ⟨rfl, ⟨.nil, .nil⟩, .nil⟩
      obtain ⟨q', hloop', halike⟩ :=
        Reader.loop_twin hs hloop rfl htwin hstart (Nat.le_refl t.length)
      simp only [hloop, hloop'] at ha hb
      rw [Reader.regex_of_finish ha, Reader.regex_of_finish hb]
      exact halike.level.close

end PathRouting.Regex

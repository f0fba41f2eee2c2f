import PathRouting.Proofs.GroupCounts
import PathRouting.Proofs.LocalSteps

/-! # The groups that are opened

The groups of a pattern that remember are numbered in the order in which they are opened, so
that the index of a group tells how many parentheses before its own one opened a group. -/

namespace PathRouting.Regex

namespace Reader

def outerHighest : List OpenGroup → Nat
  | [] => 0
  | g :: gs => max (g.index.getD 0) (max g.level.highest (outerHighest gs))

def highest (r : Reader) : Nat := max r.level.highest (outerHighest r.outer)

theorem highest_push (l : Level) (p : Part) :
    (l.push p).highest = max p.regex.groupCount l.highest := by
  simp only [Level.highest, Level.push, Level.highestOf_cons]
  omega

theorem highest_bar (l : Level) : l.bar.highest = l.highest := by
  have hempty : Level.highestOf [] = 0 := rfl
  simp only [Level.highest, Level.bar, Level.highestOf_cons, Level.groupCount_sequence, hempty]
  omega

theorem highest_empty : Level.highest {} = 0 := rfl

/-- A move opens the next group, or it changes neither the number of groups nor the highest
index. -/
theorem follow_groups {r q : Reader} {m : Move} (hm : m.Plain) (h : r.follow m = .ok q) :
    q.groups = r.groups ∧ q.highest = r.highest ∨
      m = .enter (.capture none) ∧ q.groups = r.groups + 1 ∧
        q.highest = max (r.groups + 1) r.highest := by
  cases m with
  | enter o =>
      cases o with
      | capture name =>
          obtain rfl : name = none := hm
          obtain rfl := Except.ok.inj h
          refine .inr ⟨rfl, rfl, ?_⟩
          simp only [highest, outerHighest, highest_empty, Option.getD_some]
          omega
      | plain f =>
          obtain rfl := Except.ok.inj h
          refine .inl ⟨rfl, ?_⟩
          simp only [highest, outerHighest, highest_empty, Option.getD_none]
          omega
      | directive f =>
          obtain rfl := Except.ok.inj h
          refine .inl ⟨rfl, ?_⟩
          simp only [highest, push, highest_push, groupCount]
          omega
  | leave =>
      simp only [follow, closeGroup] at h
      cases houter : r.outer with
      | nil => simp [houter] at h
      | cons g gs =>
          simp only [houter] at h
          obtain rfl := Except.ok.inj h
          refine .inl ⟨rfl, ?_⟩
          simp only [highest, houter, outerHighest, highest_push]
          cases g.index with
          | none =>
              simp only [Level.groupCount_close, Option.getD_none]
              omega
          | some i =>
              simp only [groupCount, Level.groupCount_close, Option.getD_some]
              omega
  | bar =>
      obtain rfl := Except.ok.inj h
      refine .inl ⟨rfl, ?_⟩
      simp only [highest, highest_bar]
  | push p =>
      obtain rfl := Except.ok.inj h
      refine .inl ⟨rfl, ?_⟩
      have hp : p.regex.groupCount = 0 := hm
      simp only [highest, push, highest_push, hp]
      omega
  | again greedy count =>
      simp only [follow, repeatLast] at h
      cases hparts : r.level.parts with
      | nil => simp [hparts] at h
      | cons p ps =>
          have hcount : ¬(count.least = 0 ∧ count.extra = some 0) := by
            obtain ⟨c, hc⟩ := hm
            cases hc <;> simp
          simp only [hparts] at h
          split at h
          · simp at h
          · split at h
            · simp at h
            · obtain rfl := Except.ok.inj h
              refine .inl ⟨rfl, ?_⟩
              simp only [highest, Level.highest, hparts, Level.highestOf_cons,
                groupCount_repeated hcount]

/-- The groups that are opened while a text is read: for each the number of characters from
its parenthesis to the end of the text, and its index. -/
def openings : Nat → Reader → Text → List (Nat × Nat)
  | n, r, s =>
    match r.flags.skip s with
    | [] => []
    | c :: cs =>
      match n with
      | 0 => []
      | n + 1 =>
        match r.step c cs with
        | .error _ => []
        | .ok (q, rest) =>
          if q.groups = r.groups then openings n q rest
          else (cs.length + 1, q.groups) :: openings n q rest

variable {r q : Reader} {s : Text} {n : Nat}

/-- What one turn of reading does: it finds the text at its end, or it makes a step. -/
theorem loop_turn (h : loop n r s = .ok q) :
    (r.flags.skip s = [] ∧ r = q ∧ openings n r s = []) ∨
      ∃ c cs k r' rest, r.flags.skip s = c :: cs ∧ n = k + 1 ∧ r.step c cs = .ok (r', rest) ∧
        loop k r' rest = .ok q ∧
        openings n r s =
          if r'.groups = r.groups then openings k r' rest
          else (cs.length + 1, r'.groups) :: openings k r' rest := by
  rw [loop.eq_def] at h
  cases hskip : r.flags.skip s with
  | nil =>
      simp only [hskip, Except.ok.injEq] at h
      refine .inl ⟨rfl, h, ?_⟩
      rw [openings.eq_def]
      simp only [hskip]
  | cons c cs =>
      simp only [hskip] at h
      cases n with
      | zero => simp at h
      | succ k =>
          cases hstep : r.step c cs with
          | error e => simp [hstep] at h
          | ok x =>
              obtain ⟨r', rest⟩ := x
              simp only [hstep] at h
              refine .inr ⟨c, cs, k, r', rest, rfl, rfl, hstep, h, ?_⟩
              rw [openings.eq_def]
              simp only [hskip, hstep]

theorem Bare.skip {f : Flags} (hs : Bare s) : Bare (f.skip s) := by
  obtain ⟨used, hused, _⟩ := f.skip_local s
  rw [hused] at hs
  exact hs.of_append

/-- The step of a turn is a move that leaves a part of the text. -/
theorem step_turn {r' : Reader} {c : Char} {cs rest : Text} (hs : Bare s)
    (hskip : r.flags.skip s = c :: cs) (hstep : r.step c cs = .ok (r', rest)) :
    Bare (c :: cs) ∧ Bare rest ∧ rest.length ≤ cs.length ∧ cs.length < s.length ∧
      ∃ m : Move, m.Plain ∧ r.follow m = .ok r' ∧ Makes r.flags c cs m rest := by
  have hbare : Bare (c :: cs) := by
    rw [← hskip]
    exact Bare.skip hs
  have hlength := r.flags.length_skip_le s
  rw [hskip, List.length_cons] at hlength
  obtain ⟨m, hm, hfollow, used, rfl, hfront⟩ := exists_makes hbare hstep
  exact ⟨hbare, hbare.tail.of_append, by simp, by omega, m, hm, hfollow, used, rfl, hfront⟩

/-- Groups are numbered in the order in which they are opened, and the highest index is the
number of groups. -/
theorem openings_loop (hs : Bare s) (h : loop n r s = .ok q) :
    (openings n r s).map Prod.snd = List.range' (r.groups + 1) (openings n r s).length ∧
      q.groups = r.groups + (openings n r s).length ∧
      (r.highest = r.groups → q.highest = q.groups) ∧
      ∀ o ∈ openings n r s, o.1 ≤ s.length := by
  induction n generalizing r s with
  | zero =>
      rcases loop_turn h with ⟨_, rfl, hnil⟩ | ⟨c, cs, k, r', rest, _, hk, _⟩
      · simp [hnil]
      · omega
  | succ n ih =>
      rcases loop_turn h with ⟨_, rfl, hnil⟩ | ⟨c, cs, k, r', rest, hskip, hk, hstep, hrest, hnext⟩
      · simp [hnil]
      · obtain rfl : n = k := by omega
        obtain ⟨_, hbare, hshorter, hlength, m, hm, hfollow, _⟩ := step_turn hs hskip hstep
        obtain ⟨hindices, hgroups, hhighest, hplaces⟩ := ih hbare hrest
        rcases follow_groups hm hfollow with ⟨hsame, hsame'⟩ | ⟨_, hnew, hnew'⟩
        · rw [hnext, if_pos hsame]
          rw [hsame] at hindices hgroups
          rw [hsame, hsame'] at hhighest
          refine ⟨hindices, hgroups, hhighest, ?_⟩
          intro o ho
          have hle := hplaces o ho
          omega
        · have hne : ¬r'.groups = r.groups := by omega
          rw [hnext, if_neg hne]
          refine ⟨?_, ?_, ?_, ?_⟩
          · rw [List.map_cons, hindices, List.length_cons, List.range'_succ, hnew]
          · rw [hgroups, hnew, List.length_cons]
            omega
          · intro hr
            exact hhighest (by omega)
          · intro o ho
            rcases List.mem_cons.mp ho with rfl | ho
            · exact hlength
            · have hle := hplaces o ho
              omega

/-- Groups are opened from left to right. -/
theorem pairwise_openings (hs : Bare s) (h : loop n r s = .ok q) :
    ((openings n r s).map Prod.fst).Pairwise (· > ·) := by
  induction n generalizing r s with
  | zero =>
      rcases loop_turn h with ⟨_, rfl, hnil⟩ | ⟨_, _, _, _, _, _, hk, _⟩
      · simp [hnil]
      · omega
  | succ n ih =>
      rcases loop_turn h with ⟨_, rfl, hnil⟩ | ⟨c, cs, k, r', rest, hskip, hk, hstep, hrest, hnext⟩
      · simp [hnil]
      · obtain rfl : n = k := by omega
        obtain ⟨_, hbare, hshorter, _⟩ := step_turn hs hskip hstep
        have hlater := ih hbare hrest
        rw [hnext]
        split
        · exact hlater
        · refine List.pairwise_cons.mpr ⟨?_, hlater⟩
          intro place hplace
          obtain ⟨o, ho, rfl⟩ := List.mem_map.mp hplace
          have hle := (openings_loop hbare hrest).2.2.2 o ho
          omega

end Reader

def openings (caseless : Bool) (s : Text) : List (Nat × Nat) :=
  Reader.openings s.length { flags := { caseless := caseless } } s

theorem pairwise_openings {caseless : Bool} {s : Text} {r : Regex} (hs : Bare s)
    (h : read caseless s = .ok r) : ((openings caseless s).map Prod.fst).Pairwise (· > ·) := by
  unfold read at h
  cases hloop : Reader.loop s.length { flags := { caseless := caseless } } s with
  | error e => simp [hloop] at h
  | ok q => exact Reader.pairwise_openings hs hloop

/-- The number of groups of a pattern is that of the groups that have been opened, and their
indices count them. -/
theorem groupCount_of_read {caseless : Bool} {s : Text} {r : Regex} (hs : Bare s)
    (h : read caseless s = .ok r) :
    r.groupCount = (openings caseless s).length ∧
      (openings caseless s).map Prod.snd = List.range' 1 (openings caseless s).length := by
  unfold read at h
  cases hloop : Reader.loop s.length { flags := { caseless := caseless } } s with
  | error e => simp [hloop] at h
  | ok q =>
      obtain ⟨hindices, hgroups, hhighest, _⟩ := Reader.openings_loop hs hloop
      rw [Nat.zero_add] at hindices
      refine ⟨?_, hindices⟩
      simp only [hloop, Reader.finish] at h
      cases houter : q.outer with
      | cons g gs => simp [houter] at h
      | nil =>
          simp only [houter] at h
          split at h
          · simp at h
          · obtain rfl := Except.ok.inj h
            have hcount := hhighest rfl
            rw [Reader.highest, houter, Reader.outerHighest, Nat.max_zero, hgroups,
              Nat.zero_add] at hcount
            rw [Level.groupCount_close, hcount]
            rfl

end PathRouting.Regex

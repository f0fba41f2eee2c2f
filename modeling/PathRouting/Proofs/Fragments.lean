import PathRouting.Proofs.Matching
import PathRouting.Proofs.Twins

/-! # Texts that are patterns of their own

A text that is put into a pattern as it is may reach beyond its place: an alternative outside
of its groups takes in what stands around it, and flags stay in force behind it. A text that
does neither is read in its place as it is read alone. What has been read before lies below
all that is read of the text. -/

namespace PathRouting.Regex

/-- The text is a pattern by itself that leaves no alternative open and no flags in force. -/
def selfContained (caseless : Bool) (s : Text) : Bool :=
  match Reader.loop s.length { flags := { caseless := caseless } } s with
  | .error _ => false
  | .ok q => q.finish.isOk && q.level.branches.isEmpty && q.flags == { caseless := caseless }

/-! ## Levels on top of parts that were there before -/

/-- The level `l'` is the level `l` on top of the parts `base`. Once an alternative has been
finished nothing is said any more of what it was finished with. -/
inductive Level.Atop (base : List Part) : Level → Level → Prop
  | open {ps ps' : List Part} : List.Forall₂ Part.Alike ps ps' →
      Atop base ⟨[], ps⟩ ⟨[], ps' ++ base⟩
  | barred {l l' : Level} : l.branches ≠ [] → List.Forall₂ Part.Alike l.parts l'.parts →
      Atop base l l'

theorem Level.kept_atop (base : List Part) : Kept (Level.Atop base) where
  push := by
    intro l l' p p' h hp
    cases h with
    | «open» hps => exact .open (.cons hp hps)
    | barred hbranches hps => exact .barred hbranches (.cons hp hps)
  bar := fun _ => .barred (by simp [Level.bar]) .nil
  last := by
    intro l l' p ps h hl
    cases h with
    | «open» hps =>
        obtain rfl := hl
        cases hps with
        | cons hp hps => exact ⟨_, _, rfl, hp, fun hq => .open (.cons hq hps)⟩
    | barred hbranches hps =>
        rw [hl] at hps
        generalize hl' : l'.parts = ps' at hps
        cases hps with
        | cons hp hps => exact ⟨_, _, rfl, hp, fun hq => .barred hbranches (.cons hq hps)⟩

/-! ## Reading a text in its place -/

theorem swap_append {X : Text} (hX : X.head?.any isSeam = true) (s : Text) :
    Swap s (s ++ X) := by
  cases X with
  | nil => simp at hX
  | cons d t => simpa using (Swap.stop t hX).append s

/-- Where something is left of a text, what is put behind it is not dropped. -/
theorem Flags.skip_append (f : Flags) {s X : Text} (hX : X.head?.any isSeam = true)
    (hs : f.skip s ≠ []) : f.skip (s ++ X) = f.skip s ++ X := by
  obtain ⟨used, hused, hskip⟩ := f.skip_local s
  have hswaps : f.Swaps (f.skip s) (f.skip s ++ X) :=
    ⟨swap_append hX _, fun _ hnil => absurd hnil hs⟩
  have hplace := hskip _ hswaps
  rwa [← List.append_assoc, ← hused] at hplace

namespace Reader

variable {base : List Part} {r r' q : Reader}

theorem loop_nil (n : Nat) (r : Reader) : loop n r [] = .ok r := by
  have hskip : r.flags.skip [] = [] := by
    cases hverbose : r.flags.verbose <;> simp [Flags.skip, hverbose, skipComments]
  rw [loop.eq_def]
  simp only [hskip]

theorem Reads.turn {c : Char} {s cs rest : Text} (hskip : r.flags.skip s = c :: cs)
    (hstep : r.step c cs = .ok (r', rest)) (hlength : rest.length ≤ cs.length) :
    Reads r s r' rest := by
  refine ⟨1, ?_, fun n => by rw [Nat.add_comm, loop_step hskip hstep]⟩
  have hskipped := r.flags.length_skip_le s
  rw [hskip, List.length_cons] at hskipped
  omega

/-- A text that ends under flags that count every character is read in its place as it is
read alone. -/
theorem reads_atop {s X : Text} {n : Nat} (hs : Bare s) (hX : X.head?.any isSeam = true)
    (h : loop n r s = .ok q) (hverbose : q.flags.verbose = false)
    (hatop : Over (Level.Atop base) r r') :
    ∃ q', Reads r' (s ++ X) q' X ∧ Over (Level.Atop base) q q' := by
  induction n using Nat.strongRecOn generalizing r r' s with
  | ind n ih =>
      rcases loop_turn h with ⟨hend, rfl, _⟩ | ⟨c, cs, k, r₁, rest, hcs, rfl, hstep, hmore, _⟩
      · obtain rfl : s = [] := by simpa [Flags.skip, hverbose] using hend
        exact ⟨r', .refl r' X, hatop⟩
      · obtain ⟨_, hbare, _, _, m, hm, hfollow, used, rfl, hfront⟩ := step_turn hs hcs hstep
        obtain ⟨r₁', hfollow', hatop'⟩ := hatop.follow (Level.kept_atop base) hm hfollow
        obtain ⟨q', hreads, hq'⟩ := ih k (by omega) hbare hmore hatop'
        -- Where a verbose text ends, what is put behind it would not be read as it is.
        have hends : r₁'.flags.Swaps rest (rest ++ X) := by
          refine ⟨swap_append hX rest, ?_⟩
          rintro hflags rfl
          obtain rfl := Except.ok.inj ((loop_nil k r₁).symm.trans hmore)
          rw [← hatop'.flags, hverbose] at hflags
          simp at hflags
        have hskip : r'.flags.skip (s ++ X) = c :: (used ++ (rest ++ X)) := by
          rw [← hatop.flags, r.flags.skip_append hX (by simp [hcs]), hcs]
          simp
        have hturn := hfront r' r₁' (rest ++ X) hatop.flags.symm hfollow' hends
        exact ⟨q', (Reads.turn hskip hturn (by simp)).trans hreads, hq'⟩

end Reader

/-! ## Patterns without their groups take the same -/

theorem takes_ungrouped (r : Regex) (front t back : Text) :
    r.ungrouped.Takes front t back ↔ r.Takes front t back := by
  induction r generalizing front t back with
  | empty => rfl
  | one set => rfl
  | look l => rfl
  | cat a b iha ihb => simp only [ungrouped, Takes, iha, ihb]
  | alt a b iha ihb => simp only [ungrouped, Takes, iha, ihb]
  | rep greedy least extra r ih =>
      have hturns (n : Nat) : Turns r.ungrouped.Takes n front t back ↔
          Turns r.Takes n front t back :=
        ⟨.imp fun front t back => (ih front t back).mp,
          .imp fun front t back => (ih front t back).mpr⟩
      simp only [ungrouped, Takes, hturns]
  | group i r ih => exact ih front t back

theorem Part.Alike.takes_iff {p p' : Part} (h : p.Alike p') (front t back : Text) :
    p.regex.Takes front t back ↔ p'.regex.Takes front t back := by
  rw [← takes_ungrouped, h.regex, takes_ungrouped]

theorem takesAll_of_alike {ps ps' : List Part} (h : List.Forall₂ Part.Alike ps ps')
    (front t back : Text) :
    Task.TakesAll (ps.map fun p => .run p.regex) front t back ↔
      Task.TakesAll (ps'.map fun p => .run p.regex) front t back := by
  induction h generalizing front t with
  | nil => rfl
  | cons hp _ ih =>
      simp only [List.map_cons, Task.TakesAll, Task.Takes, hp.takes_iff, ih]

/-! ## Texts that stay in their place -/

theorem exists_loop_of_selfContained {caseless : Bool} {s : Text}
    (h : selfContained caseless s = true) : ∃ q a,
      Reader.loop s.length { flags := { caseless := caseless } } s = .ok q ∧
        q.finish = .ok a ∧ q.level.branches = [] ∧ q.flags = { caseless := caseless } := by
  unfold selfContained at h
  split at h
  · simp at h
  · rename_i q hloop
    simp only [Bool.and_eq_true, List.isEmpty_iff, beq_iff_eq] at h
    obtain ⟨⟨hfinish, hbranches⟩, hflags⟩ := h
    cases ha : q.finish with
    | error e => simp [ha, Except.isOk, Except.toBool] at hfinish
    | ok a => exact ⟨q, a, hloop, ha, hbranches, hflags⟩

/-- There is nothing to repeat where a text begins. -/
theorem head?_of_selfContained {caseless : Bool} {s : Text}
    (h : selfContained caseless s = true) : s.head? ≠ some '?' := by
  intro hhead
  obtain ⟨cs, rfl⟩ := List.head?_eq_some_iff.mp hhead
  obtain ⟨q, _, hloop, _⟩ := exists_loop_of_selfContained h
  have hstep : Reader.step { flags := { caseless := caseless } } '?' cs =
      .error .nothingToRepeat := by
    rw [step_repeat .optional]
    rfl
  rcases Reader.loop_turn hloop with ⟨hend, _⟩ | ⟨c, ds, _, _, _, hskip, _, hturn, _⟩
  · simp [Flags.skip] at hend
  · obtain ⟨rfl, rfl⟩ : '?' = c ∧ cs = ds := by simpa [Flags.skip] using hskip
    rw [hstep] at hturn
    simp at hturn

namespace Reader

/-- A text that is a pattern of its own is read in its place as parts that take what the
pattern takes. -/
theorem reads_selfContained {caseless : Bool} {s X : Text} {r : Reader} (hs : Bare s)
    (hself : selfContained caseless s = true) (hX : X.head?.any isSeam = true)
    (hflags : r.flags = { caseless := caseless }) (houter : r.outer = [])
    (hbranches : r.level.branches = []) :
    ∃ a ps r', read caseless s = .ok a ∧ Reads r (s ++ X) r' X ∧ r.Adds ps r' ∧
      ∀ front t back,
        Task.TakesAll (ps.map fun p => .run p.regex) front t back ↔ a.Takes front t back := by
  obtain ⟨q, a, hloop, hfinish, hopen, hkept⟩ := exists_loop_of_selfContained hself
  have hread : read caseless s = .ok a := by simp only [read, hloop, hfinish]
  have hclosed : q.outer = [] := by
    cases hq : q.outer with
    | nil => rfl
    | cons g gs => simp [finish, hq] at hfinish
  have hlevel : r.level = ⟨[], [] ++ r.level.parts⟩ := by
    rw [List.nil_append, ← hbranches]
  have hstart : Over (Level.Atop r.level.parts) { flags := { caseless := caseless } } r := by
    refine ⟨hflags.symm, ?_⟩
    rw [houter, hlevel]
    exact .bottom (.open .nil)
  obtain ⟨r', hreads, hatop⟩ := reads_atop hs hX hloop (by rw [hkept]) hstart
  obtain ⟨ps, hps, hparts, hbelow⟩ : ∃ ps, List.Forall₂ Part.Alike q.level.parts ps ∧
      r'.level = ⟨[], ps ++ r.level.parts⟩ ∧ r'.outer = [] := by
    have hstacked := hatop.stacked
    rw [hclosed] at hstacked
    generalize hl : q.level = l at hstacked hopen
    generalize hl' : r'.level = l' at hstacked
    generalize hgs : r'.outer = gs at hstacked
    cases hstacked with
    | bottom h =>
        cases h with
        | «open» hps => exact ⟨_, hps, rfl, rfl⟩
        | barred hbarred _ => exact absurd hopen hbarred
  refine ⟨a, ps.reverse, r', hread, hreads, ⟨?_, by rw [hbelow, houter], ?_⟩, ?_⟩
  · rw [← hatop.flags, hkept, hflags]
  · rw [hparts, hbranches, List.reverse_reverse]
  · intro front t back
    have hregex : a = catAll (q.level.parts.reverse.map (·.regex)) := by
      rw [regex_of_finish hfinish, Level.close_regex, hopen]
      exact Level.sequence_regex q.level.parts
    rw [hregex, takes_catAll, List.map_map]
    exact (takesAll_of_alike (List.rel_reverse hps) front t back).symm

end Reader

end PathRouting.Regex

import PathRouting.Proofs.LocalBrackets

/-! # Single steps do not depend on what follows

Each step of the reader of patterns takes a front off the text. What it does with that front
stays the same whatever follows, so reading only depends on the parts that are read. -/

namespace PathRouting.Regex

variable {f : Flags} {s rest : Text}

/-! ## Opening parentheses -/

theorem readFlags_local {g : Flags} {seen seen' : Text}
    (h : readFlags f seen s = .ok ((g, seen'), rest)) :
    ∃ used c cs, s = used ++ c :: cs ∧ rest = c :: cs ∧ (c = ':' ∨ c = ')') ∧
      ∀ t, readFlags f seen (used ++ c :: t) = .ok ((g, seen'), c :: t) := by
  induction s generalizing f seen with
  | nil => simp [readFlags] at h
  | cons c cs ih =>
      by_cases hstop : c = ':' ∨ c = ')'
      · by_cases hhyphen : seen.head? = some '-'
        · simp [readFlags, hstop, hhyphen] at h
        · obtain ⟨⟨rfl, rfl⟩, rfl⟩ : (f = g ∧ seen = seen') ∧ c :: cs = rest := by
            simpa [readFlags, hstop, hhyphen] using h
          exact ⟨[], c, cs, rfl, rfl, hstop, fun t => by simp [readFlags, hstop, hhyphen]⟩
      · by_cases hseen : seen.contains c
        · simp only [readFlags, hstop, hseen, ite_true, ite_false, reduceCtorEq] at h
        · by_cases hhyphen : c = '-'
          · have hread (t : Text) : readFlags f seen (c :: t) = readFlags f (c :: seen) t := by
              rw [readFlags, if_neg hstop, if_neg hseen, if_pos hhyphen]
            rw [hread] at h
            obtain ⟨used, d, ds, rfl, rfl, hd, hmore⟩ := ih h
            exact ⟨c :: used, d, ds, rfl, rfl, hd, fun t => by
              rw [List.cons_append, hread, hmore]⟩
          · cases hset : f.set? c (!seen.contains '-') with
            | none => simp only [readFlags, hstop, hseen, hhyphen, hset, ite_false,
                reduceCtorEq] at h
            | some f' =>
                have hread (t : Text) :
                    readFlags f seen (c :: t) = readFlags f' (c :: seen) t := by
                  rw [readFlags, if_neg hstop, if_neg hseen, if_neg hhyphen, hset]
                rw [hread] at h
                obtain ⟨used, d, ds, rfl, rfl, hd, hmore⟩ := ih h
                exact ⟨c :: used, d, ds, rfl, rfl, hd, fun t => by
                  rw [List.cons_append, hread, hmore]⟩

theorem readOpening_capture (hs : (f.skip s).head? ≠ some '?') :
    readOpening f s = .ok (.capture none, f.skip s) := by
  unfold readOpening
  split <;> simp_all

theorem readOpening_flags {cs seen : Text} {g : Flags} {c : Char}
    (hs : f.skip s = '?' :: cs) (hflags : readFlags f [] cs = .ok ((g, seen), c :: rest)) :
    readOpening f s =
      if c = ')' then if seen = [] then .error .nothingToRepeat else .ok (.directive g, rest)
      else .ok (.plain g, rest) := by
  unfold readOpening
  rw [hs]
  split
  · simp_all [readFlags, Flags.set?]
  · simp_all [readFlags, Flags.set?]
  · simp_all [readFlags, Flags.set?]
  · simp_all [readFlags, Flags.set?]
  · simp_all [readFlags, Flags.set?]
  · simp_all [readFlags, Flags.set?]
  · rename_i hcs
    obtain rfl := (List.cons.inj hcs).2
    rw [hflags]
    by_cases hc : c = ')'
    · subst hc
      cases seen <;> simp
    · simp [hc]
  · simp_all

theorem exists_readFlags {cs : Text} {o : Opening} (hs : Bare s) (hskip : f.skip s = '?' :: cs)
    (h : readOpening f s = .ok (o, rest)) :
    ∃ g seen c ds, readFlags f [] cs = .ok ((g, seen), c :: ds) := by
  have hbare : Bare ('?' :: cs) := by
    obtain ⟨u, hu, _⟩ := f.skip_local s
    rw [hu, hskip] at hs
    exact hs.of_append
  cases hflags : readFlags f [] cs with
  | ok r =>
      obtain ⟨⟨g, seen⟩, ds⟩ := r
      obtain ⟨_, c, ds, _, rfl, _⟩ := readFlags_local hflags
      exact ⟨g, seen, c, ds, rfl⟩
  | error e =>
      unfold readOpening at h
      rw [hskip] at h
      split at h
      · simp at h
      · simp at h
      · simp at h
      · simp at h
      · rename_i hcs
        rw [hcs] at hbare
        exact absurd (by simp) hbare.2
      · rename_i hcs
        rw [hcs] at hbare
        exact absurd (by simp) hbare.2
      · rename_i hcs
        obtain rfl := (List.cons.inj hcs).2
        simp [hflags] at h
      · simp_all

def Opening.flags (f : Flags) : Opening → Flags
  | capture _ => f
  | plain g => g
  | directive g => g

theorem readOpening_local {o : Opening} (hs : Bare s) (h : readOpening f s = .ok (o, rest)) :
    Local (o.flags f) (readOpening f) s o rest := by
  obtain ⟨u, hu, hskip⟩ := f.skip_local s
  by_cases hsign : (f.skip s).head? = some '?'
  · obtain ⟨cs, hcs⟩ := List.head?_eq_some_iff.mp hsign
    obtain ⟨g, seen, c, ds, hflags⟩ := exists_readFlags hs hcs h
    obtain ⟨v, d, ds', rfl, hd, _, hmore⟩ := readFlags_local hflags
    obtain ⟨rfl, rfl⟩ := List.cons.inj hd
    rw [readOpening_flags hcs hflags] at h
    have hrest : ds = rest := by
      split at h
      · split at h
        · simp at h
        · exact (Prod.mk.inj (Except.ok.inj h)).2
      · exact (Prod.mk.inj (Except.ok.inj h)).2
    subst hrest
    refine ⟨u ++ '?' :: (v ++ [c]), by simpa [hcs] using hu, ?_⟩
    intro t ht
    have hswap : f.Swaps (f.skip s) ('?' :: (v ++ c :: t)) := by
      rw [hcs]
      exact ⟨((ht.swap.append [c]).append v).append ['?'], by simp⟩
    have hread := readOpening_flags (hskip _ hswap) (hmore t)
    simp only [List.append_assoc, List.cons_append, List.nil_append]
    rw [hread]
    split at h
    · split at h
      · simp at h
      · rename_i hc hseen
        obtain ⟨rfl, _⟩ := Prod.mk.inj (Except.ok.inj h)
        rw [if_pos hc, if_neg hseen]
    · rename_i hc
      obtain ⟨rfl, _⟩ := Prod.mk.inj (Except.ok.inj h)
      rw [if_neg hc]
  · rw [readOpening_capture hsign] at h
    obtain ⟨rfl, rfl⟩ := Prod.mk.inj (Except.ok.inj h)
    refine ⟨u, hu, ?_⟩
    intro t ht
    have hseam : isSeam '?' = false := by decide
    have hcapture : (f.skip (u ++ t)).head? ≠ some '?' := by
      rwa [hskip t ht, ne_eq, ← ht.swap.head?_eq_iff hseam]
    rw [readOpening_capture hcapture, hskip t ht]

/-! ## Steps as moves -/

/-- The signs that repeat what stands before them, and how often they do. -/
inductive RepeatSign : Char → Count → Prop
  | optional : RepeatSign '?' ⟨0, some 1⟩
  | star : RepeatSign '*' ⟨0, none⟩
  | plus : RepeatSign '+' ⟨1, none⟩

/-- A sign of repetition never writes out more than one turn. -/
theorem RepeatSign.le_one {c : Char} {count : Count} (h : RepeatSign c count) :
    count.least + count.extra.getD 0 ≤ 1 := by
  cases h <;> decide

/-- What a step does to the reader once its front has been read. -/
inductive Move where
  | enter (o : Opening)
  | leave
  | bar
  | push (p : Part)
  | again (greedy : Bool) (count : Count)

namespace Reader

def follow (r : Reader) : Move → Except Fault Reader
  | .enter o => r.openGroup o
  | .leave => r.closeGroup
  | .bar => .ok { r with level := r.level.bar }
  | .push p => .ok (r.push p)
  | .again greedy count => r.repeatLast greedy count

end Reader

/-- The moves of texts without braces and angle brackets: groups have no names, no
repetition is counted, and what is written without parentheses has no groups. -/
def Move.Plain : Move → Prop
  | enter (.capture name) => name = none
  | push p => p.regex.groupCount = 0
  | again _ count => ∃ c, RepeatSign c count
  | _ => True

/-- The front of the text makes the move `m`, whatever may stand behind it under the flags to
which the move leads and whatever has been read before, as long as the flags are the same. -/
def Makes (f : Flags) (c : Char) (cs : Text) (m : Move) (rest : Text) : Prop :=
  ∃ used, cs = used ++ rest ∧ ∀ (r q : Reader) (t : Text), r.flags = f → r.follow m = .ok q →
    q.flags.Swaps rest t → r.step c (used ++ t) = .ok (q, t)

theorem makes_of_eq {c : Char} {cs : Text} {m : Move}
    (h : ∀ (r q : Reader) (t : Text), r.flags = f → r.follow m = .ok q →
      r.step c t = .ok (q, t)) : Makes f c cs m cs :=
  ⟨[], rfl, fun r q t hr hq _ => h r q t hr hq⟩

theorem makes_of_local {α : Type} {f' : Flags} {g : Text → Reading α} {c : Char} {cs : Text}
    {x : α} {m : Move} (hlocal : Local f' g cs x rest)
    (hflags : ∀ r q : Reader, r.flags = f → r.follow m = .ok q → q.flags = f')
    (h : ∀ (r q : Reader) (s t : Text), r.flags = f → r.follow m = .ok q → g s = .ok (x, t) →
      r.step c s = .ok (q, t)) : Makes f c cs m rest := by
  obtain ⟨used, hused, hmore⟩ := hlocal
  refine ⟨used, hused, ?_⟩
  intro r q t hr hq ht
  rw [hflags r q hr hq] at ht
  exact h r q _ t hr hq (hmore t ht)

theorem readLazy_local (f : Flags) (s : Text) :
    Local f (fun t => .ok (readLazy t)) s (readLazy s).1 (readLazy s).2 := by
  by_cases hsign : s.head? = some '?'
  · obtain ⟨cs, rfl⟩ := List.head?_eq_some_iff.mp hsign
    exact ⟨['?'], rfl, fun t _ => rfl⟩
  · have hlazy {t : Text} (ht : t.head? ≠ some '?') : readLazy t = (false, t) := by
      unfold readLazy
      split
      · simp at ht
      · rfl
    refine ⟨[], by rw [hlazy hsign]; rfl, ?_⟩
    intro t ht
    rw [hlazy hsign] at ht ⊢
    have hseam : isSeam '?' = false := by decide
    have hkept : t.head? ≠ some '?' := by rwa [ne_eq, ← ht.swap.head?_eq_iff hseam]
    simp only [List.nil_append, hlazy hkept]

theorem readOpening_plain {o : Opening} (hs : Bare s) (h : readOpening f s = .ok (o, rest)) :
    (Move.enter o).Plain := by
  by_cases hsign : (f.skip s).head? = some '?'
  · obtain ⟨cs, hcs⟩ := List.head?_eq_some_iff.mp hsign
    obtain ⟨g, seen, c, ds, hflags⟩ := exists_readFlags hs hcs h
    rw [readOpening_flags hcs hflags] at h
    split at h
    · split at h
      · simp at h
      · obtain ⟨rfl, _⟩ := Prod.mk.inj (Except.ok.inj h)
        trivial
    · obtain ⟨rfl, _⟩ := Prod.mk.inj (Except.ok.inj h)
      trivial
  · rw [readOpening_capture hsign] at h
    obtain ⟨rfl, _⟩ := Prod.mk.inj (Except.ok.inj h)
    rfl

theorem step_repeat {c : Char} {count : Count} (hc : RepeatSign c count) (r : Reader)
    (t : Text) : r.step c t =
      (r.follow (.again ((readLazy t).1 == r.flags.swapGreed) count)).map
        (·, (readLazy t).2) := by
  cases hlast : r.repeatLast ((readLazy t).1 == r.flags.swapGreed) count with
  | error e =>
      cases hc <;>
        simp [Reader.step, readRepeat, readRepeat.simple, Reader.follow, hlast, Except.map]
  | ok q =>
      cases hc <;>
        simp [Reader.step, readRepeat, readRepeat.simple, Reader.follow, hlast, Except.map]

/-- Where no group is left and no flags are set, the flags stay as they are. -/
theorem Reader.follow_flags {r q : Reader} {m : Move} (h : r.follow m = .ok q) :
    match m with
    | .enter o => q.flags = o.flags r.flags
    | .leave => True
    | _ => q.flags = r.flags := by
  cases m with
  | enter o =>
      cases o with
      | capture name =>
          simp only [follow, openGroup] at h
          split at h
          · simp at h
          · obtain rfl := Except.ok.inj h
            rfl
      | plain g =>
          obtain rfl := Except.ok.inj h
          rfl
      | directive g =>
          obtain rfl := Except.ok.inj h
          rfl
  | leave => trivial
  | bar =>
      obtain rfl := Except.ok.inj h
      rfl
  | push p =>
      obtain rfl := Except.ok.inj h
      rfl
  | again greedy count =>
      simp only [follow, repeatLast] at h
      split at h
      · simp at h
      · split at h
        · simp at h
        · split at h
          · simp at h
          · obtain rfl := Except.ok.inj h
            rfl

theorem exists_makes_repeat {r r' : Reader} {c : Char} {cs : Text} {count : Count}
    (hc : RepeatSign c count) (h : r.step c cs = .ok (r', rest)) :
    ∃ m : Move, m.Plain ∧ r.follow m = .ok r' ∧ Makes r.flags c cs m rest := by
  let greedy := (readLazy cs).1 == r.flags.swapGreed
  rw [step_repeat hc] at h
  cases hfollow : r.follow (.again greedy count) with
  | error e => simp [greedy, hfollow, Except.map] at h
  | ok q =>
      simp only [greedy, hfollow, Except.map, Except.ok.injEq, Prod.mk.injEq] at h
      obtain ⟨rfl, rfl⟩ := h
      refine ⟨.again greedy count, ⟨c, hc⟩, hfollow, makes_of_local (readLazy_local r.flags cs)
        (fun p q hp hq => hp ▸ Reader.follow_flags hq) ?_⟩
      intro p q s t hp hq hread
      have hlazy : readLazy s = ((readLazy cs).1, t) := Except.ok.inj hread
      rw [step_repeat hc, hp, hlazy, hq]
      rfl

theorem exists_makes_opening {r r' : Reader} {cs : Text} (hs : Bare cs)
    (h : r.step '(' cs = .ok (r', rest)) :
    ∃ m : Move, m.Plain ∧ r.follow m = .ok r' ∧ Makes r.flags '(' cs m rest := by
  simp only [Reader.step] at h
  cases hopening : readOpening r.flags cs with
  | error e => simp [hopening] at h
  | ok x =>
      obtain ⟨o, s'⟩ := x
      cases hopen : r.openGroup o with
      | error e => simp [hopening, hopen] at h
      | ok q =>
          simp only [hopening, hopen, Except.ok.injEq, Prod.mk.injEq] at h
          obtain ⟨rfl, rfl⟩ := h
          refine ⟨.enter o, readOpening_plain hs hopening, hopen,
            makes_of_local (readOpening_local hs hopening)
              (fun p q hp hq => hp ▸ Reader.follow_flags hq) ?_⟩
          intro p q s t hp hq hread
          have hgroup : p.openGroup o = .ok q := hq
          simp only [Reader.step, hp, hread, hgroup]

theorem exists_makes_closing {r r' : Reader} {cs : Text} (h : r.step ')' cs = .ok (r', rest)) :
    ∃ m : Move, m.Plain ∧ r.follow m = .ok r' ∧ Makes r.flags ')' cs m rest := by
  simp only [Reader.step] at h
  cases hclose : r.closeGroup with
  | error e => simp [hclose] at h
  | ok q =>
      simp only [hclose, Except.ok.injEq, Prod.mk.injEq] at h
      obtain ⟨rfl, rfl⟩ := h
      refine ⟨.leave, trivial, hclose, makes_of_eq ?_⟩
      intro p q t _ hq
      have hgroup : p.closeGroup = .ok q := hq
      simp only [Reader.step, hgroup]

/-- A step that adds a part makes the move that pushes it. -/
theorem makes_push {α : Type} {g : Text → Reading α} {c : Char} {cs : Text} {x : α} {p : Part}
    (hlocal : Local f g cs x rest)
    (h : ∀ (r : Reader) (s t : Text), r.flags = f → g s = .ok (x, t) →
      r.step c s = .ok (r.push p, t)) : Makes f c cs (.push p) rest := by
  refine makes_of_local hlocal (fun r q hr hq => hr ▸ Reader.follow_flags hq) ?_
  intro r q s t hr hq hread
  obtain rfl := Except.ok.inj hq
  exact h r s t hr hread

theorem makes_push_of_eq {c : Char} {cs : Text} {p : Part}
    (h : ∀ (r : Reader) (t : Text), r.flags = f → r.step c t = .ok (r.push p, t)) :
    Makes f c cs (.push p) cs := by
  apply makes_of_eq
  intro r q t hr hq
  obtain rfl := Except.ok.inj hq
  exact h r t hr

theorem exists_makes_bracket {r r' : Reader} {cs : Text} (hs : Bare cs)
    (h : r.step '[' cs = .ok (r', rest)) :
    ∃ p : Part, p.regex.groupCount = 0 ∧ r.push p = r' ∧ Makes r.flags '[' cs (.push p) rest := by
  simp only [Reader.step] at h
  cases hbracket : readBracket r.flags cs with
  | error e => simp [hbracket] at h
  | ok x =>
      obtain ⟨b, s'⟩ := x
      simp only [hbracket, Except.ok.injEq, Prod.mk.injEq] at h
      obtain ⟨rfl, rfl⟩ := h
      refine ⟨{ regex := .one b.set, depth := b.depth }, rfl, rfl,
        makes_push (readBracket_local hs hbracket) ?_⟩
      intro q s t hq hread
      simp only [Reader.step, hq, hread]

theorem exists_makes_dot {r r' : Reader} {cs : Text} (h : r.step '.' cs = .ok (r', rest)) :
    ∃ p : Part, p.regex.groupCount = 0 ∧ r.push p = r' ∧ Makes r.flags '.' cs (.push p) rest := by
  simp only [Reader.step] at h
  cases hdot : r.flags.dotSet with
  | error e => simp [hdot] at h
  | ok set =>
      simp only [hdot, Except.ok.injEq, Prod.mk.injEq] at h
      obtain ⟨rfl, rfl⟩ := h
      refine ⟨{ regex := .one set }, rfl, rfl, makes_push_of_eq ?_⟩
      intro q t hq
      simp only [Reader.step, hq, hdot]
      rfl

theorem exists_makes_escape {r r' : Reader} {cs : Text} (hs : Bare cs)
    (h : r.step '\\' cs = .ok (r', rest)) :
    ∃ p : Part, p.regex.groupCount = 0 ∧ r.push p = r' ∧ Makes r.flags '\\' cs (.push p) rest := by
  have hstep (q : Reader) (t : Text) : q.step '\\' t = q.escape t := rfl
  rw [hstep, Reader.escape] at h
  cases hescape : readEscape r.flags cs with
  | error e => simp [hescape] at h
  | ok x =>
      obtain ⟨e, s'⟩ := x
      have hlocal := readEscape_local hs hescape
      cases e with
      | char c byte =>
          by_cases hwide : !r.flags.unicode && byte && 0x80 ≤ c.toNat
          · simp only [hescape, hwide, ite_true, reduceCtorEq] at h
          · simp only [hescape, if_neg hwide] at h
            obtain ⟨rfl, rfl⟩ := Prod.mk.inj (Except.ok.inj h)
            refine ⟨{ regex := .one (r.flags.literalSet c) }, rfl, rfl, makes_push hlocal ?_⟩
            intro q s t hq hread
            simp only [hstep, Reader.escape, hq, hread, if_neg hwide]
            rfl
      | set set =>
          simp only [hescape, Except.ok.injEq, Prod.mk.injEq] at h
          obtain ⟨rfl, rfl⟩ := h
          refine ⟨{ regex := .one set }, rfl, rfl, makes_push hlocal ?_⟩
          intro q s t hq hread
          simp only [hstep, Reader.escape, hq, hread]
          rfl
      | look l =>
          simp only [hescape, Except.ok.injEq, Prod.mk.injEq] at h
          obtain ⟨rfl, rfl⟩ := h
          refine ⟨{ regex := .look l }, rfl, rfl, makes_push hlocal ?_⟩
          intro q s t hq hread
          simp only [hstep, Reader.escape, hq, hread]
          rfl

/-- Every step of reading a text without braces and angle brackets makes a move that only
depends on the front that it takes and on the flags. -/
theorem exists_makes {r r' : Reader} {c : Char} {cs : Text} (hs : Bare (c :: cs))
    (h : r.step c cs = .ok (r', rest)) :
    ∃ m : Move, m.Plain ∧ r.follow m = .ok r' ∧ Makes r.flags c cs m rest := by
  have hpush (hpart : ∃ p : Part, p.regex.groupCount = 0 ∧ r.push p = r' ∧
      Makes r.flags c cs (.push p) rest) :
      ∃ m : Move, m.Plain ∧ r.follow m = .ok r' ∧ Makes r.flags c cs m rest := by
    obtain ⟨p, hgroups, rfl, hmakes⟩ := hpart
    exact ⟨.push p, hgroups, rfl, hmakes⟩
  by_cases hrepeat : ∃ count : Count, RepeatSign c count
  · obtain ⟨count, hc⟩ := hrepeat
    exact exists_makes_repeat hc h
  · unfold Reader.step at h
    split at h
    · exact exists_makes_opening hs.tail h
    · exact exists_makes_closing h
    · obtain ⟨rfl, rfl⟩ := Prod.mk.inj (Except.ok.inj h)
      refine ⟨.bar, trivial, rfl, makes_of_eq ?_⟩
      intro p q t _ hq
      obtain rfl := Except.ok.inj hq
      rfl
    · exact hpush (exists_makes_bracket hs.tail h)
    · exact hpush (exists_makes_escape hs.tail h)
    · exact hpush (exists_makes_dot h)
    · obtain ⟨rfl, rfl⟩ := Prod.mk.inj (Except.ok.inj h)
      refine hpush ⟨{ regex := .look r.flags.startLook }, rfl, rfl, makes_push_of_eq ?_⟩
      intro q t hq
      simp only [Reader.step, hq]
      rfl
    · obtain ⟨rfl, rfl⟩ := Prod.mk.inj (Except.ok.inj h)
      refine hpush ⟨{ regex := .look r.flags.endLook }, rfl, rfl, makes_push_of_eq ?_⟩
      intro q t hq
      simp only [Reader.step, hq]
      rfl
    · rename_i hopening hclosing hbar hbracket hbackslash hdot hcaret hdollar
      have hbrace : c ≠ '\x7B' := by
        rintro rfl
        exact hs.1 (by simp)
      have hsign : c ≠ '?' ∧ c ≠ '*' ∧ c ≠ '+' := by
        refine ⟨?_, ?_, ?_⟩
        · rintro rfl
          exact hrepeat ⟨_, .optional⟩
        · rintro rfl
          exact hrepeat ⟨_, .star⟩
        · rintro rfl
          exact hrepeat ⟨_, .plus⟩
      have hnone (g : Flags) (t : Text) : readRepeat g (c :: t) = none := by
        simp [readRepeat, hbrace, hsign]
      simp only [hnone, Except.ok.injEq, Prod.mk.injEq] at h
      obtain ⟨rfl, rfl⟩ := h
      refine hpush ⟨{ regex := .one (r.flags.literalSet c) }, rfl, rfl, makes_push_of_eq ?_⟩
      intro q t hq
      simp only [Reader.step, hnone, hq]
      rfl

end PathRouting.Regex

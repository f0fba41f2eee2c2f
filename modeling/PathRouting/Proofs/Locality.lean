import PathRouting.Regex.Reader

/-! # What is read does not depend on what follows

Every reader of the pattern language takes a front off its text and looks at what follows
only to see whether it begins with one of a few signs. So the text that follows may be
exchanged for another one, as long as both begin with characters that are no such sign, and
where nothing follows such a text may be added. The texts here hold no braces and no angle
brackets. -/

namespace PathRouting.Regex

/-- The characters with which the text behind a literal begins: those of the pattern of a
parameter in its two forms, of a separator, and of the end of the text. -/
def isSeam (c : Char) : Bool := ['(', '[', '.', '/', '$'].contains c

theorem ne_of_isSeam {c k : Char} (hk : isSeam k = false) (h : isSeam c = true) : c ≠ k := by
  rintro rfl
  exact absurd h (by simp [hk])

/-- Two texts that are the same up to a place where such a character stands in both of them,
or in the second one while the first one ends. -/
inductive Swap : Text → Text → Prop
  | nil : Swap [] []
  | cons (c : Char) {s t : Text} : Swap s t → Swap (c :: s) (c :: t)
  | seam {c d : Char} (s t : Text) : isSeam c = true → isSeam d = true → Swap (c :: s) (d :: t)
  | stop {d : Char} (t : Text) : isSeam d = true → Swap [] (d :: t)

/-- A text without the opening signs of counts and of names. -/
def Bare (s : Text) : Prop := '\x7B' ∉ s ∧ '<' ∉ s

namespace Swap

variable {s t : Text}

theorem append (u : Text) (h : Swap s t) : Swap (u ++ s) (u ++ t) := by
  induction u with
  | nil => exact h
  | cons c u ih => exact .cons c ih

theorem cons_left {c : Char} (h : Swap (c :: s) t) :
    ∃ d t', t = d :: t' ∧ (d = c ∧ Swap s t' ∨ isSeam c = true ∧ isSeam d = true) := by
  cases h with
  | cons c h => exact ⟨c, _, rfl, .inl ⟨rfl, h⟩⟩
  | seam s t hc hd => exact ⟨_, t, rfl, .inr ⟨hc, hd⟩⟩

/-- A sign at the front is there in both texts. -/
theorem head?_eq_iff {k : Char} (hk : isSeam k = false) (h : Swap s t) :
    s.head? = some k ↔ t.head? = some k := by
  cases h with
  | nil => rfl
  | cons c h => rfl
  | seam s t hc hd => simp [ne_of_isSeam hk hc, ne_of_isSeam hk hd]
  | stop t hd => simp [ne_of_isSeam hk hd]

theorem ne_nil (h : Swap s t) (hs : s ≠ []) : t ≠ [] := by
  cases h with
  | nil => exact absurd rfl hs
  | cons c h => simp
  | seam s t hc hd => simp
  | stop t hd => simp

theorem cons_right_of_not_seam {c : Char} (hc : isSeam c = false) (h : Swap s (c :: t)) :
    ∃ s', s = c :: s' ∧ Swap s' t := by
  cases h with
  | cons c h => exact ⟨_, rfl, h⟩
  | seam s t _ hd => simp [hc] at hd
  | stop t hd => simp [hc] at hd

theorem dropWhile {p : Char → Bool} (hp : ∀ c, isSeam c = true → p c = false) (h : Swap s t) :
    Swap (s.dropWhile p) (t.dropWhile p) := by
  induction h with
  | nil => exact .nil
  | cons c h ih =>
      cases hc : p c with
      | true => simpa [List.dropWhile_cons, hc] using ih
      | false => simpa [List.dropWhile_cons, hc] using h.cons c
  | seam s t hc hd => simpa [List.dropWhile_cons, hp _ hc, hp _ hd] using seam s t hc hd
  | stop t hd => simpa [List.dropWhile_cons, hp _ hd] using stop t hd

/-- A front without seams is there in both texts. -/
theorem of_append_right {u : Text} (hu : ∀ c ∈ u, isSeam c = false) (h : Swap s (u ++ t)) :
    ∃ s', s = u ++ s' ∧ Swap s' t := by
  induction u generalizing s with
  | nil => exact ⟨s, rfl, h⟩
  | cons c u ih =>
      obtain ⟨s₁, rfl, h₁⟩ := cons_right_of_not_seam (hu c (by simp)) h
      obtain ⟨s', rfl, h'⟩ := ih (fun d hd => hu d (by simp [hd])) h₁
      exact ⟨s', rfl, h'⟩

end Swap

theorem Bare.of_append {u s : Text} (h : Bare (u ++ s)) : Bare s :=
  ⟨fun hmem => h.1 (by simp [hmem]), fun hmem => h.2 (by simp [hmem])⟩

theorem Bare.append {u s : Text} (hu : Bare u) (hs : Bare s) : Bare (u ++ s) := by
  simp only [Bare, List.mem_append, not_or]
  exact ⟨⟨hu.1, hs.1⟩, hu.2, hs.2⟩

theorem Bare.tail {c : Char} {s : Text} (h : Bare (c :: s)) : Bare s :=
  Bare.of_append (u := [c]) h

/-! ## Blank space -/

theorem isBlank_of_isSeam {c : Char} (h : isSeam c = true) : Text.isBlank c = false := by
  have hseams : (['(', '[', '.', '/', '$'].all fun c => !Text.isBlank c) = true := by decide
  simpa using List.all_eq_true.mp hseams c (by simpa [isSeam] using h)

/-- Two texts one of which may stand for the other under the flags. Where nothing follows a
verbose pattern, nothing may be added, for a comment at its end would go on. -/
structure Flags.Swaps (f : Flags) (s t : Text) : Prop where
  swap : Swap s t
  ends : f.verbose = true → s = [] → t = []

namespace Flags.Swaps

variable {f : Flags} {s t : Text}

theorem append (u : Text) (h : f.Swaps s t) : f.Swaps (u ++ s) (u ++ t) := by
  refine ⟨h.swap.append u, ?_⟩
  intro hverbose hnil
  obtain ⟨rfl, hs⟩ := List.append_eq_nil_iff.mp hnil
  exact h.ends hverbose hs

theorem cons (c : Char) (h : f.Swaps s t) : f.Swaps (c :: s) (c :: t) := h.append [c]

end Flags.Swaps

theorem skipComments_seam {c : Char} (hc : isSeam c = true) (cs : Text) :
    skipComments false (c :: cs) = c :: cs := by
  have hsharp : c ≠ '#' := ne_of_isSeam (by decide) hc
  simp [skipComments, isBlank_of_isSeam hc, hsharp]

theorem skipComments_local (inComment : Bool) (s : Text) :
    ∃ used, s = used ++ skipComments inComment s ∧ ∀ t, Swap (skipComments inComment s) t →
      (skipComments inComment s = [] → t = []) → skipComments inComment (used ++ t) = t := by
  induction s generalizing inComment with
  | nil =>
      refine ⟨[], rfl, ?_⟩
      intro t _ hends
      obtain rfl := hends rfl
      rfl
  | cons c cs ih =>
      cases inComment with
      | true =>
          obtain ⟨used, hused, hswap⟩ := ih (c != '\n')
          refine ⟨c :: used, by simpa [skipComments] using hused, ?_⟩
          intro t ht hends
          exact hswap t ht hends
      | false =>
          by_cases hblank : Text.isBlank c
          · have hskip (ds : Text) : skipComments false (c :: ds) = skipComments false ds := by
              rw [skipComments, if_neg (by simp), if_pos hblank]
            obtain ⟨used, hused, hswap⟩ := ih false
            rw [hskip]
            refine ⟨c :: used, by rw [List.cons_append, ← hused], ?_⟩
            intro t ht hends
            rw [List.cons_append, hskip]
            exact hswap t ht hends
          · by_cases hsharp : c = '#'
            · have hskip (ds : Text) : skipComments false (c :: ds) = skipComments true ds := by
                rw [skipComments, if_neg (by simp), if_neg hblank, if_pos hsharp]
              obtain ⟨used, hused, hswap⟩ := ih true
              rw [hskip]
              refine ⟨c :: used, by rw [List.cons_append, ← hused], ?_⟩
              intro t ht hends
              rw [List.cons_append, hskip]
              exact hswap t ht hends
            · have hskip (ds : Text) : skipComments false (c :: ds) = c :: ds := by
                rw [skipComments, if_neg (by simp), if_neg hblank, if_neg hsharp]
              rw [hskip]
              refine ⟨[], rfl, ?_⟩
              intro t ht _
              obtain ⟨d, t', rfl, ⟨rfl, _⟩ | ⟨_, hd⟩⟩ := ht.cons_left
              · exact hskip t'
              · exact skipComments_seam hd t'

namespace Flags

/-- What is dropped does not depend on what follows. -/
theorem skip_local (f : Flags) (s : Text) :
    ∃ used, s = used ++ f.skip s ∧ ∀ t, f.Swaps (f.skip s) t → f.skip (used ++ t) = t := by
  cases hverbose : f.verbose with
  | true =>
      obtain ⟨used, hused, hswap⟩ := skipComments_local false s
      have hskip (t : Text) : f.skip t = skipComments false t := by simp [skip, hverbose]
      rw [hskip]
      refine ⟨used, hused, ?_⟩
      intro t ht
      rw [hskip]
      exact hswap t ht.swap (ht.ends hverbose)
  | false =>
      have hskip (t : Text) : f.skip t = t := by simp [skip, hverbose]
      exact ⟨[], (hskip s).symm, fun t _ => hskip t⟩

theorem skip_cons (f : Flags) {c : Char} (hblank : Text.isBlank c = false) (hsharp : c ≠ '#')
    (cs : Text) : f.skip (c :: cs) = c :: cs := by
  cases hverbose : f.verbose <;> simp [skip, hverbose, skipComments, hblank, hsharp]

theorem skip_seam (f : Flags) {c : Char} (hc : isSeam c = true) (cs : Text) :
    f.skip (c :: cs) = c :: cs :=
  f.skip_cons (isBlank_of_isSeam hc) (ne_of_isSeam (by decide) hc) cs

theorem length_skip_le (f : Flags) (s : Text) : (f.skip s).length ≤ s.length := by
  obtain ⟨used, hused, _⟩ := f.skip_local s
  have hlength := congrArg List.length hused
  simp only [List.length_append] at hlength
  omega

/-- A character that is not blank stands at the front of a text only if it is the first one
that is not blank. -/
theorem head?_dropWhile_blank {s : Text} {k : Char} (hk : Text.isBlank k = false)
    (h : s.head? = some k) : (s.dropWhile Text.isBlank).head? = some k := by
  cases s with
  | nil => simp at h
  | cons c cs =>
      obtain rfl : c = k := by simpa using h
      simp [hk]

/-- The characters that end a set or a range are seen ahead in both texts. -/
theorem peek_eq_iff (f : Flags) {s t : Text} (h : Swap s t) {k : Char}
    (hk : k = '\x5D' ∨ k = '-') : f.peek s = some k ↔ f.peek t = some k := by
  obtain ⟨hseam, hplain, hsharp⟩ : isSeam k = false ∧ Text.isBlank k = false ∧ '#' ≠ k := by
    rcases hk with rfl | rfl <;> decide
  have hblank := h.dropWhile fun c hc => isBlank_of_isSeam hc
  have hs := head?_dropWhile_blank (s := s) hplain
  have ht := head?_dropWhile_blank (s := t) hplain
  unfold peek
  cases f.verbose with
  | false => simpa using h.head?_eq_iff hseam
  | true =>
      simp only [if_true]
      generalize s.dropWhile Text.isBlank = u at hblank hs ⊢
      generalize t.dropWhile Text.isBlank = v at hblank ht ⊢
      cases hblank with
      | nil => simp_all
      | stop v hd => simp_all [ne_of_isSeam (k := '#') (by decide) hd, ne_of_isSeam hseam hd]
      | @cons c u v huv =>
          by_cases hc : c = '#'
          · subst hc
            have hnext := (huv.dropWhile fun c hc => isBlank_of_isSeam hc).head?_eq_iff hseam
            simp_all [Option.or_eq_some_iff]
          · split <;> simp_all
      | seam u v hc hd =>
          have hnot {c : Char} (hc : isSeam c = true) : c ≠ '#' ∧ c ≠ k :=
            ⟨ne_of_isSeam (by decide) hc, ne_of_isSeam hseam hc⟩
          simp [hnot hc, hnot hd]

end Flags

/-- The reader `g` takes `rest` to be left of `s`, and the same front of any text that may
stand in the place of `rest` under the flags. -/
def Local {α : Type} (f : Flags) (g : Text → Reading α) (s : Text) (x : α) (rest : Text) : Prop :=
  ∃ used, s = used ++ rest ∧ ∀ t, f.Swaps rest t → g (used ++ t) = .ok (x, t)

namespace Local

variable {α : Type} {f : Flags} {g k : Text → Reading α} {s rest : Text} {x : α}

theorem here (h : ∀ t, g t = .ok (x, t)) (s : Text) : Local f g s x s :=
  ⟨[], rfl, fun t _ => h t⟩

theorem cons {c : Char} (hfront : ∀ t, g (c :: t) = k t) (h : Local f k s x rest) :
    Local f g (c :: s) x rest := by
  obtain ⟨used, rfl, hmore⟩ := h
  refine ⟨c :: used, rfl, ?_⟩
  intro t ht
  rw [List.cons_append, hfront]
  exact hmore t ht

theorem bare (h : Local f g s x rest) (hs : Bare s) : Bare rest := by
  obtain ⟨used, rfl, _⟩ := h
  exact hs.of_append

theorem length_le (h : Local f g s x rest) : rest.length ≤ s.length := by
  obtain ⟨used, rfl, _⟩ := h
  simp

end Local

/-! ## Escapes -/

variable {f : Flags} {s rest : Text}

theorem hexDigits_local {n : Nat} {digits : Text} (h : hexDigits f n s = .ok (digits, rest)) :
    Local f (hexDigits f n) s digits rest := by
  induction n generalizing s digits with
  | zero =>
      obtain ⟨rfl, rfl⟩ : [] = digits ∧ s = rest := by simpa [hexDigits] using h
      exact ⟨[], rfl, fun t _ => rfl⟩
  | succ n ih =>
      cases s with
      | nil => simp [hexDigits] at h
      | cons c cs =>
          by_cases hc : (Percent.digitValue? c).isNone
          · simp [hexDigits, hc] at h
          · cases hrest : hexDigits f n (f.skip cs) with
            | error e => simp [hexDigits, hc, hrest] at h
            | ok r =>
                obtain ⟨ds, rest'⟩ := r
                obtain ⟨rfl, rfl⟩ : c :: ds = digits ∧ rest' = rest := by
                  simpa [hexDigits, hc, hrest] using h
                obtain ⟨u, hu, hskip⟩ := f.skip_local cs
                obtain ⟨v, hv, hmore⟩ := ih hrest
                refine ⟨c :: (u ++ v), ?_, ?_⟩
                · rw [List.cons_append, List.append_assoc, ← hv, ← hu]
                · intro t ht
                  have hswap : f.Swaps (f.skip cs) (v ++ t) := by
                    rw [hv]
                    exact ht.append v
                  simp [hexDigits, hc, hskip _ hswap, hmore t ht]

theorem hexEscape_eq_ok_iff {count : Nat} {e : Escape}
    (hs : (f.skip s).head? ≠ some '\x7B') :
    hexEscape f (count + 1) s = .ok (e, rest) ↔
      ∃ digits c, hexDigits f (count + 1) (f.skip s) = .ok (digits, rest) ∧
        hexChar? digits = .ok c ∧ e = .char c (count + 1 == 2) := by
  unfold hexEscape
  split
  · rename_i hnil
    simp [hnil, hexDigits]
  · rename_i hbrace
    simp [hbrace] at hs
  · grind

theorem Bare.head?_skip (hs : Bare s) : (f.skip s).head? ≠ some '\x7B' := by
  obtain ⟨u, hu, _⟩ := f.skip_local s
  rw [hu] at hs
  intro hhead
  obtain ⟨cs, hcs⟩ := List.head?_eq_some_iff.mp hhead
  exact hs.of_append.1 (by simp [hcs])

theorem hexEscape_local {count : Nat} {e : Escape} (hs : Bare s)
    (h : hexEscape f (count + 1) s = .ok (e, rest)) :
    Local f (hexEscape f (count + 1)) s e rest := by
  obtain ⟨u, hu, hskip⟩ := f.skip_local s
  obtain ⟨digits, c, hdigits, hchar, rfl⟩ := (hexEscape_eq_ok_iff hs.head?_skip).mp h
  obtain ⟨v, hv, hmore⟩ := hexDigits_local hdigits
  refine ⟨u ++ v, by rw [List.append_assoc, ← hv, ← hu], ?_⟩
  intro t ht
  have hswap : f.Swaps (f.skip s) (v ++ t) := by
    rw [hv]
    exact ht.append v
  have hseam : isSeam '\x7B' = false := by decide
  have hhead : (v ++ t).head? ≠ some '\x7B' := by
    rw [ne_eq, ← hswap.swap.head?_eq_iff hseam]
    exact hs.head?_skip
  rw [List.append_assoc, hexEscape_eq_ok_iff (by rwa [hskip _ hswap]), hskip _ hswap]
  exact ⟨digits, c, hmore t ht, hchar, rfl⟩

theorem propertyEscape_eq_ok_iff {negated : Bool} {e : Escape}
    (hs : (f.skip s).head? ≠ some '\x7B') :
    propertyEscape f negated s = .ok (e, rest) ↔
      ∃ c cs p set, f.skip s = c :: cs ∧ c ≠ '\\' ∧ f.skip cs = rest ∧ f.unicode = true ∧
        propertyOf? [c] = some p ∧ f.finishSet negated (.property p) = .ok set ∧ e = .set set := by
  unfold propertyEscape
  cases hskip : f.skip s with
  | nil => simp
  | cons c cs =>
      have hc : c ≠ '\x7B' := by simpa [hskip] using hs
      grind

theorem propertyEscape_local {negated : Bool} {e : Escape} (hs : Bare s)
    (h : propertyEscape f negated s = .ok (e, rest)) :
    Local f (propertyEscape f negated) s e rest := by
  obtain ⟨u, hu, hskip⟩ := f.skip_local s
  obtain ⟨c, cs, p, set, hcs, hc, rfl, hunicode, hp, hset, rfl⟩ :=
    (propertyEscape_eq_ok_iff hs.head?_skip).mp h
  obtain ⟨v, hv, hmore⟩ := f.skip_local cs
  refine ⟨u ++ c :: v, by rw [List.append_assoc, List.cons_append, ← hv, ← hcs, ← hu], ?_⟩
  intro t ht
  have hswap : f.Swaps (f.skip s) (c :: (v ++ t)) := by
    rw [hcs, hv]
    exact (ht.append v).cons c
  have hhead : c ≠ '\x7B' := by
    have hskipped := hs.head?_skip (f := f)
    simpa [hcs] using hskipped
  rw [List.append_assoc, List.cons_append,
    propertyEscape_eq_ok_iff (by simpa [hskip _ hswap] using hhead), hskip _ hswap]
  exact ⟨c, v ++ t, p, set, rfl, hc, hmore t ht, hunicode, hp, hset, rfl⟩

theorem boundaryEscape_eq (hs : s.head? ≠ some '\x7B') :
    boundaryEscape f s = .ok (.look (.word (!f.unicode) .boundary), s) := by
  unfold boundaryEscape
  split
  · simp at hs
  · rfl

theorem boundaryEscape_local {e : Escape} (hs : Bare s)
    (h : boundaryEscape f s = .ok (e, rest)) : Local f (boundaryEscape f) s e rest := by
  have hhead : s.head? ≠ some '\x7B' := by
    intro hbrace
    obtain ⟨cs, rfl⟩ := List.head?_eq_some_iff.mp hbrace
    exact hs.1 (by simp)
  rw [boundaryEscape_eq hhead] at h
  obtain ⟨rfl, rfl⟩ : Escape.look (.word (!f.unicode) .boundary) = e ∧ s = rest := by
    simpa using h
  refine ⟨[], rfl, ?_⟩
  intro t ht
  have hseam : isSeam '\x7B' = false := by decide
  have hswapped : t.head? ≠ some '\x7B' := by rwa [ne_eq, ← ht.swap.head?_eq_iff hseam]
  exact boundaryEscape_eq hswapped

def letterSets : List (Char × Bool × CharSet × CharSet) :=
  [('d', false, .digits, .asciiDigits), ('D', true, .digits, .asciiDigits),
    ('s', false, .blanks, .asciiBlanks), ('S', true, .blanks, .asciiBlanks),
    ('w', false, .wordChars, .asciiWordChars), ('W', true, .wordChars, .asciiWordChars)]

theorem readEscape_letter {c : Char} {negated : Bool} {wide ascii : CharSet}
    (hc : (c, negated, wide, ascii) ∈ letterSets) (t : Text) :
    readEscape f (c :: t) =
      (letterSet f negated wide ascii).map fun set => (.set set, t) := by
  simp only [letterSets, List.mem_cons, Prod.mk.injEq, List.not_mem_nil, or_false] at hc
  have hletter : ¬c.isDigit = true ∧ ¬isEscapable c = true ∧ controlEscape? c = none := by
    rcases hc with ⟨rfl, _⟩ | ⟨rfl, _⟩ | ⟨rfl, _⟩ | ⟨rfl, _⟩ | ⟨rfl, _⟩ | ⟨rfl, _⟩ <;> decide
  simp only [readEscape, hletter]
  rcases hc with ⟨rfl, rfl, rfl, rfl⟩ | ⟨rfl, rfl, rfl, rfl⟩ | ⟨rfl, rfl, rfl, rfl⟩ |
    ⟨rfl, rfl, rfl, rfl⟩ | ⟨rfl, rfl, rfl, rfl⟩ | ⟨rfl, rfl, rfl, rfl⟩
  · cases letterSet f false .digits .asciiDigits <;> rfl
  · cases letterSet f true .digits .asciiDigits <;> rfl
  · cases letterSet f false .blanks .asciiBlanks <;> rfl
  · cases letterSet f true .blanks .asciiBlanks <;> rfl
  · cases letterSet f false .wordChars .asciiWordChars <;> rfl
  · cases letterSet f true .wordChars .asciiWordChars <;> rfl

theorem letter_local {c : Char} {cs : Text} {negated : Bool} {wide ascii : CharSet} {e : Escape}
    (hc : (c, negated, wide, ascii) ∈ letterSets)
    (h : readEscape f (c :: cs) = .ok (e, rest)) : Local f (readEscape f) (c :: cs) e rest := by
  refine .cons (readEscape_letter hc) ?_
  rw [readEscape_letter hc] at h
  cases hset : letterSet f negated wide ascii with
  | error e => simp [hset, Except.map] at h
  | ok set =>
      obtain ⟨rfl, rfl⟩ : Escape.set set = e ∧ cs = rest := by simpa [hset, Except.map] using h
      exact .here (fun t => rfl) cs

theorem readEscape_local {e : Escape} (hs : Bare s) (h : readEscape f s = .ok (e, rest)) :
    Local f (readEscape f) s e rest := by
  cases s with
  | nil => simp [readEscape] at h
  | cons c cs =>
      have hplain (e' : Escape) (hread : ∀ t, readEscape f (c :: t) = .ok (e', t)) :
          Local f (readEscape f) (c :: cs) e rest := by
        rw [hread] at h
        obtain ⟨rfl, rfl⟩ : e' = e ∧ cs = rest := by simpa using h
        exact .cons hread (.here (fun t => rfl) cs)
      by_cases hdigit : c.isDigit
      · simp [readEscape, hdigit] at h
      · by_cases hescapable : isEscapable c
        · exact hplain (.char c false) fun t => by simp [readEscape, hdigit, hescapable]
        · cases hcontrol : controlEscape? c with
          | some d =>
              exact hplain (.char d false) fun t => by
                simp [readEscape, hdigit, hescapable, hcontrol]
          | none =>
              have hcases := h
              simp only [readEscape, hdigit, hescapable, hcontrol, Bool.false_eq_true,
                ite_false] at hcases
              split at hcases
              · exact .cons (fun t => rfl) (hexEscape_local hs.tail hcases)
              · exact .cons (fun t => rfl) (hexEscape_local hs.tail hcases)
              · exact .cons (fun t => rfl) (hexEscape_local hs.tail hcases)
              · exact .cons (fun t => rfl) (propertyEscape_local hs.tail hcases)
              · exact .cons (fun t => rfl) (propertyEscape_local hs.tail hcases)
              · exact letter_local (.head _) h
              · exact letter_local (.tail _ (.head _)) h
              · exact letter_local (.tail _ (.tail _ (.head _))) h
              · exact letter_local (.tail _ (.tail _ (.tail _ (.head _)))) h
              · exact letter_local (.tail _ (.tail _ (.tail _ (.tail _ (.head _))))) h
              · exact letter_local (.tail _ (.tail _ (.tail _ (.tail _ (.tail _ (.head _)))))) h
              · exact hplain _ fun t => rfl
              · exact hplain _ fun t => rfl
              · exact .cons (fun t => rfl) (boundaryEscape_local hs.tail hcases)
              · exact hplain _ fun t => rfl
              · exact hplain _ fun t => rfl
              · exact hplain _ fun t => rfl
              · simp at hcases

end PathRouting.Regex

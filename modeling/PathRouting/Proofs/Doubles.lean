import PathRouting.Proofs.Remainders
import PathRouting.Proofs.Tables

/-! # Wildcards that are written twice

Of two texts that differ by a wildcard that the first one writes once more right behind itself,
every reader of the pattern language takes the same front or fails at the first one: no escape,
count, name or opening of a group runs across a wildcard. The texts are any texts, so a wildcard
may also stand between brackets or in a comment. -/

namespace PathRouting.Regex

open Unicode

def isSign (c : Char) : Bool := ['?', '*', '+', '\x7B', '-'].contains c

/-- Whatever the flags, the text begins with a character that is no such sign. -/
def Fresh (v : Text) : Prop := ∀ f : Flags, ∃ c cs, f.skip v = c :: cs ∧ isSign c = false

/-- The second text is the first one, or what is left of it when a wildcard is dropped that
stands right behind another one. A backslash stays with the character behind it. -/
inductive Doubled : Text → Text → Prop
  | same (s : Text) : Doubled s s
  | wildcard {v : Text} : Fresh v →
      Doubled ('.' :: '*' :: '?' :: '.' :: '*' :: '?' :: v) ('.' :: '*' :: '?' :: v)
  | cons {c : Char} {s t : Text} : c ≠ '\\' → Doubled s t → Doubled (c :: s) (c :: t)
  | pair (c : Char) {s t : Text} : Doubled s t → Doubled ('\\' :: c :: s) ('\\' :: c :: t)

namespace Doubled

variable {f : Flags} {c : Char} {s t : Text}

/-- A front without wildcards and backslashes is the same in both texts. -/
theorem of_cons (hc : isPlain c = true) (h : Doubled (c :: s) t) :
    ∃ t', t = c :: t' ∧ Doubled s t' := by
  obtain ⟨hdot, hbackslash⟩ := isPlain_iff.mp hc
  cases h with
  | same => exact ⟨s, rfl, .same s⟩
  | wildcard => exact absurd rfl hdot
  | cons _ h => exact ⟨_, rfl, h⟩
  | pair _ h => exact absurd rfl hbackslash

theorem of_cons_right (hc : isPlain c = true) (h : Doubled s (c :: t)) :
    ∃ s', s = c :: s' ∧ Doubled s' t := by
  obtain ⟨hdot, hbackslash⟩ := isPlain_iff.mp hc
  cases h with
  | same => exact ⟨t, rfl, .same t⟩
  | wildcard => exact absurd rfl hdot
  | cons _ h => exact ⟨_, rfl, h⟩
  | pair _ h => exact absurd rfl hbackslash

theorem of_backslash (h : Doubled ('\\' :: s) t) :
    s = [] ∧ t = ['\\'] ∨ ∃ c s' t', s = c :: s' ∧ t = '\\' :: c :: t' ∧ Doubled s' t' := by
  cases h with
  | same =>
      cases s with
      | nil => exact .inl ⟨rfl, rfl⟩
      | cons c s => exact .inr ⟨c, s, s, rfl, rfl, .same s⟩
  | cons hc _ => exact absurd rfl hc
  | pair c h => exact .inr ⟨c, _, _, rfl, rfl, h⟩

theorem of_dot (h : Doubled ('.' :: s) t) :
    (∃ t', t = '.' :: t' ∧ Doubled s t') ∨
      ∃ v, Fresh v ∧ s = '*' :: '?' :: '.' :: '*' :: '?' :: v ∧ t = '.' :: '*' :: '?' :: v := by
  cases h with
  | same => exact .inl ⟨s, rfl, .same s⟩
  | wildcard hv => exact .inr ⟨_, hv, rfl, rfl⟩
  | cons _ h => exact .inl ⟨_, rfl, h⟩

theorem exists_cons (h : Doubled (c :: s) t) : ∃ t', t = c :: t' := by
  cases h <;> exact ⟨_, rfl⟩

theorem head?_eq (h : Doubled s t) : s.head? = t.head? := by
  cases h <;> rfl

theorem ne_nil (h : Doubled s t) (hs : s ≠ []) : t ≠ [] := by
  cases h <;> simp_all

/-! ## Blank space -/

theorem dropWhile_blank (h : Doubled s t) :
    Doubled (s.dropWhile Text.isBlank) (t.dropWhile Text.isBlank) := by
  induction h with
  | same s => exact .same _
  | wildcard hv =>
      have hdot : Text.isBlank '.' = false := by decide
      simpa [hdot] using Doubled.wildcard hv
  | @cons c s t hc h ih =>
      cases hblank : Text.isBlank c with
      | true => simpa [hblank] using ih
      | false => simpa [hblank] using Doubled.cons hc h
  | pair c h _ =>
      have hbackslash : Text.isBlank '\\' = false := by decide
      simpa [hbackslash] using Doubled.pair c h

theorem skipComments (h : Doubled s t) (inComment : Bool) :
    Doubled (skipComments inComment s) (Regex.skipComments inComment t) := by
  induction h generalizing inComment with
  | same s => exact .same _
  | @wildcard v hv =>
      cases inComment with
      | true => exact .same _
      | false => exact .wildcard hv
  | @cons c s t hc h ih =>
      cases inComment with
      | true => exact ih (c != '\n')
      | false =>
          simp only [Regex.skipComments, Bool.false_eq_true, ite_false]
          split
          · exact ih false
          · split
            · exact ih true
            · exact .cons hc h
  | pair c h ih =>
      cases inComment with
      | true => exact ih (c != '\n')
      | false => exact .pair c h

theorem skip (h : Doubled s t) (f : Flags) : Doubled (f.skip s) (f.skip t) := by
  unfold Flags.skip
  split
  · exact h.skipComments false
  · exact h

theorem peek_eq (h : Doubled s t) (f : Flags) : f.peek s = f.peek t := by
  have hblank := h.dropWhile_blank
  have hhead := hblank.head?_eq
  unfold Flags.peek
  split
  · cases hs : s.dropWhile Text.isBlank with
    | nil =>
        have ht : t.dropWhile Text.isBlank = [] := by simpa [hs] using hhead.symm
        rw [ht]
        exact h.head?_eq
    | cons c cs =>
        rw [hs] at hblank
        by_cases hc : c = '#'
        · subst hc
          obtain ⟨ds, ht, hrest⟩ := hblank.of_cons (by decide)
          simp only [ht, hrest.dropWhile_blank.head?_eq, h.head?_eq]
        · obtain ⟨ds, ht⟩ := hblank.exists_cons
          simp [ht]
  · exact h.head?_eq

end Doubled

/-- What is read off the first text is read off the second one. -/
def TakesAlike {α : Type} (x y : Reading α) : Prop :=
  ∀ a rest, x = .ok (a, rest) → ∃ rest', y = .ok (a, rest') ∧ Doubled rest rest'

namespace TakesAlike

variable {α : Type} {x y : Reading α} {s t : Text}

theorem ok (h : Doubled s t) (a : α) : TakesAlike (.ok (a, s)) (.ok (a, t)) := by
  intro b rest hb
  obtain ⟨rfl, rfl⟩ := Prod.mk.inj (Except.ok.inj hb)
  exact ⟨t, rfl, h⟩

theorem error (e : Fault) (y : Reading α) : TakesAlike (.error e) y := by
  intro a rest h
  simp at h

theorem cases (h : TakesAlike x y) : (∃ e, x = .error e) ∨
    ∃ a rest rest', x = .ok (a, rest) ∧ y = .ok (a, rest') ∧ Doubled rest rest' := by
  cases x with
  | error e => exact .inl ⟨e, rfl⟩
  | ok r =>
      obtain ⟨a, rest⟩ := r
      obtain ⟨rest', hy, hrest⟩ := h a rest rfl
      exact .inr ⟨a, rest, rest', rfl, hy, hrest⟩

theorem map {β : Type} (h : TakesAlike x y) (k : α → β) :
    TakesAlike (x.map fun r => (k r.1, r.2)) (y.map fun r => (k r.1, r.2)) := by
  obtain ⟨e, rfl⟩ | ⟨a, u, u', rfl, rfl, hrest⟩ := h.cases
  · exact .error _ _
  · exact .ok hrest _

end TakesAlike

/-! ## Escapes -/

section

variable {f : Flags} {c : Char} {s cs rest : Text} {e : Escape}

theorem isPlain_of_digitValue (hc : ¬(Percent.digitValue? c).isNone = true) :
    isPlain c = true := by
  rw [isPlain_iff]
  constructor
  · rintro rfl
    exact hc (by decide)
  · rintro rfl
    exact hc (by decide)

theorem isPlain_of_isEdgeNameChar (hc : isEdgeNameChar c = true) : isPlain c = true := by
  rw [isPlain_iff]
  constructor
  · rintro rfl
    exact absurd hc (by decide)
  · rintro rfl
    exact absurd hc (by decide)

theorem hexEscape_eq_ok_iff_of_brace {count : Nat} (hs : f.skip s = '\x7B' :: cs) :
    hexEscape f count s = .ok (e, rest) ↔
      ∃ digits c, bracedDigits f ((f.skip cs).length + 1) (f.skip cs) = .ok (digits, rest) ∧
        digits ≠ [] ∧ hexChar? digits = .ok c ∧ e = .char c false := by
  unfold hexEscape
  rw [hs]
  grind

theorem propertyEscape_eq_ok_iff_of_brace {negated : Bool} (hs : f.skip s = '\x7B' :: cs) :
    propertyEscape f negated s = .ok (e, rest) ↔
      ∃ name p set, bracedText f ((f.skip cs).length + 1) (f.skip cs) = .ok (name, rest) ∧
        f.unicode = true ∧ propertyOf? name = some p ∧
        f.finishSet negated (.property p) = .ok set ∧ e = .set set := by
  unfold propertyEscape
  rw [hs]
  grind

end

namespace Doubled

variable {f : Flags} {c : Char} {s t : Text}

theorem hexDigits (h : Doubled s t) (n : Nat) :
    TakesAlike (hexDigits f n s) (Regex.hexDigits f n t) := by
  induction n generalizing s t with
  | zero => exact .ok h []
  | succ n ih =>
      cases s with
      | nil => exact .error _ _
      | cons c cs =>
          by_cases hc : (Percent.digitValue? c).isNone = true
          · simp only [Regex.hexDigits, hc, ite_true]
            exact .error _ _
          · obtain ⟨ds, rfl, hrest⟩ := h.of_cons (isPlain_of_digitValue hc)
            simp only [Regex.hexDigits, if_neg hc]
            obtain ⟨e, hx⟩ | ⟨digits, rest, rest', hx, hy, hrest'⟩ := (ih (hrest.skip f)).cases
            · simp only [hx]
              exact .error _ _
            · simp only [hx, hy]
              exact .ok hrest' _

theorem bracedDigits (h : Doubled s t) {n m : Nat} (hm : t.length < m) :
    TakesAlike (bracedDigits f n s) (Regex.bracedDigits f m t) := by
  induction n generalizing s t m with
  | zero => exact .error _ _
  | succ n ih =>
      obtain ⟨m, rfl⟩ := Nat.exists_eq_add_one_of_ne_zero (Nat.ne_zero_of_lt hm)
      cases s with
      | nil => exact .error _ _
      | cons c cs =>
          by_cases hclose : c = '\x7D'
          · subst hclose
            obtain ⟨ds, rfl, hrest⟩ := h.of_cons (by decide)
            exact .ok (hrest.skip f) []
          · by_cases hc : (Percent.digitValue? c).isNone = true
            · simp only [Regex.bracedDigits, hc, ite_true]
              exact .error _ _
            · obtain ⟨ds, rfl, hrest⟩ := h.of_cons (isPlain_of_digitValue hc)
              have hlength := f.length_skip_le ds
              rw [List.length_cons] at hm
              simp only [Regex.bracedDigits, if_neg hc]
              obtain ⟨e, hx⟩ | ⟨digits, rest, rest', hx, hy, hrest'⟩ :=
                (ih (m := m) (hrest.skip f) (by omega)).cases
              · simp only [hx]
                exact .error _ _
              · simp only [hx, hy]
                exact .ok hrest' _

theorem hexEscape (h : Doubled s t) (count : Nat) :
    TakesAlike (hexEscape f (count + 1) s) (Regex.hexEscape f (count + 1) t) := by
  intro e rest hread
  have hskip := h.skip f
  by_cases hbrace : (f.skip s).head? = some '\x7B'
  · obtain ⟨cs, hs⟩ := List.head?_eq_some_iff.mp hbrace
    rw [hs] at hskip
    obtain ⟨ds, ht, hrest⟩ := hskip.of_cons (by decide)
    obtain ⟨digits, c, hdigits, hne, hchar, rfl⟩ := (hexEscape_eq_ok_iff_of_brace hs).mp hread
    obtain ⟨rest', hdigits', hdoubled⟩ :=
      (hrest.skip f).bracedDigits (Nat.lt_succ_self _) digits rest hdigits
    exact ⟨rest', (hexEscape_eq_ok_iff_of_brace ht).mpr ⟨digits, c, hdigits', hne, hchar, rfl⟩,
      hdoubled⟩
  · obtain ⟨digits, c, hdigits, hchar, rfl⟩ := (hexEscape_eq_ok_iff hbrace).mp hread
    obtain ⟨rest', hdigits', hdoubled⟩ := hskip.hexDigits (count + 1) digits rest hdigits
    rw [hskip.head?_eq] at hbrace
    exact ⟨rest', (hexEscape_eq_ok_iff hbrace).mpr ⟨digits, c, hdigits', hchar, rfl⟩, hdoubled⟩

/-- A text in braces is read alike, unless a wildcard or a backslash stands in it. -/
theorem bracedText (h : Doubled s t) {n m : Nat} (hm : t.length < m) {u rest : Text}
    (hs : bracedText f n s = .ok (u, rest)) (hu : u.all isPlain = true) :
    ∃ rest', Regex.bracedText f m t = .ok (u, rest') ∧ Doubled rest rest' := by
  induction n generalizing s t m u with
  | zero => simp [Regex.bracedText] at hs
  | succ n ih =>
      obtain ⟨m, rfl⟩ := Nat.exists_eq_add_one_of_ne_zero (Nat.ne_zero_of_lt hm)
      cases s with
      | nil => simp [Regex.bracedText] at hs
      | cons c cs =>
          by_cases hclose : c = '\x7D'
          · subst hclose
            obtain ⟨ds, rfl, hrest⟩ := h.of_cons (by decide)
            obtain ⟨rfl, rfl⟩ := Prod.mk.inj (Except.ok.inj hs)
            exact ⟨ds, rfl, hrest⟩
          · cases hread : Regex.bracedText f n (f.skip cs) with
            | error e => simp [Regex.bracedText, hread] at hs
            | ok r =>
                obtain ⟨v, rest'⟩ := r
                obtain ⟨rfl, rfl⟩ : c :: v = u ∧ rest' = rest := by
                  simpa [Regex.bracedText, hread] using hs
                obtain ⟨hc, hv⟩ : isPlain c = true ∧ v.all isPlain = true := by simpa using hu
                obtain ⟨ds, rfl, hrest⟩ := h.of_cons hc
                have hlength := f.length_skip_le ds
                rw [List.length_cons] at hm
                obtain ⟨more, hmore, hdoubled⟩ :=
                  ih (m := m) (hrest.skip f) (by omega) hread hv
                exact ⟨more, by simp [Regex.bracedText, hmore], hdoubled⟩

theorem propertyEscape (h : Doubled s t) (negated : Bool) :
    TakesAlike (propertyEscape f negated s) (Regex.propertyEscape f negated t) := by
  intro e rest hread
  have hskip := h.skip f
  by_cases hbrace : (f.skip s).head? = some '\x7B'
  · obtain ⟨cs, hs⟩ := List.head?_eq_some_iff.mp hbrace
    rw [hs] at hskip
    obtain ⟨ds, ht, hrest⟩ := hskip.of_cons (by decide)
    obtain ⟨name, p, set, hname, hunicode, hp, hset, rfl⟩ :=
      (propertyEscape_eq_ok_iff_of_brace hs).mp hread
    obtain ⟨rest', hname', hdoubled⟩ :=
      (hrest.skip f).bracedText (Nat.lt_succ_self _) hname (plain_of_propertyOf hp)
    exact ⟨rest', (propertyEscape_eq_ok_iff_of_brace ht).mpr
      ⟨name, p, set, hname', hunicode, hp, hset, rfl⟩, hdoubled⟩
  · obtain ⟨c, cs, p, set, hs, hc, rfl, hunicode, hp, hset, rfl⟩ :=
      (propertyEscape_eq_ok_iff hbrace).mp hread
    have hplain : isPlain c = true := by simpa using plain_of_propertyOf hp
    rw [hskip.head?_eq] at hbrace
    rw [hs] at hskip
    obtain ⟨ds, ht, hrest⟩ := hskip.of_cons hplain
    exact ⟨f.skip ds, (propertyEscape_eq_ok_iff hbrace).mpr
      ⟨c, ds, p, set, ht, hc, rfl, hunicode, hp, hset, rfl⟩, hrest.skip f⟩

theorem edgeName (h : Doubled s t) {n m : Nat} (hn : s.length ≤ n) (hm : t.length ≤ m) :
    (edgeName f n s).1 = (Regex.edgeName f m t).1 ∧
      Doubled (Regex.edgeName f n s).2 (Regex.edgeName f m t).2 := by
  induction n generalizing s t m with
  | zero =>
      obtain rfl := List.length_eq_zero_iff.mp (Nat.le_zero.mp hn)
      obtain rfl : t = [] := by simpa using h.head?_eq.symm
      cases m <;> exact ⟨rfl, .same []⟩
  | succ n ih =>
      cases s with
      | nil =>
          obtain rfl : t = [] := by simpa using h.head?_eq.symm
          cases m <;> exact ⟨rfl, .same []⟩
      | cons c cs =>
          obtain ⟨ds, rfl⟩ := h.exists_cons
          obtain ⟨m, rfl⟩ := Nat.exists_eq_add_one_of_ne_zero (Nat.ne_zero_of_lt hm)
          by_cases hc : isEdgeNameChar c = true
          · obtain ⟨ds, heq, hrest⟩ := h.of_cons (isPlain_of_isEdgeNameChar hc)
            obtain rfl := (List.cons.inj heq).2
            have hleft := f.length_skip_le cs
            have hright := f.length_skip_le ds
            rw [List.length_cons] at hn hm
            obtain ⟨hname, hmore⟩ := ih (m := m) (hrest.skip f) (by omega) (by omega)
            simp only [Regex.edgeName, hc, ite_true, hname]
            exact ⟨trivial, hmore⟩
          · simp only [Regex.edgeName, if_neg hc]
            exact ⟨trivial, h⟩

theorem boundaryEscape (h : Doubled s t) :
    TakesAlike (boundaryEscape f s) (Regex.boundaryEscape f t) := by
  by_cases hbrace : s.head? = some '\x7B'
  · obtain ⟨cs, rfl⟩ := List.head?_eq_some_iff.mp hbrace
    obtain ⟨ds, rfl, hrest⟩ := h.of_cons (by decide)
    have hskip := hrest.skip f
    unfold Regex.boundaryEscape
    simp only
    cases hs : f.skip cs with
    | nil => exact .error _ _
    | cons c cs =>
        rw [hs] at hskip
        obtain ⟨ds', ht⟩ := hskip.exists_cons
        rw [ht] at hskip ⊢
        by_cases hc : isEdgeNameChar c = true
        · obtain ⟨hname, hmore⟩ := hskip.edgeName (f := f) (Nat.le_refl _) (Nat.le_refl _)
          simp only [List.length_cons] at hname hmore
          simp only [hc, ite_true]
          rcases hread : Regex.edgeName f (cs.length + 1) (c :: cs) with ⟨name, rest⟩
          rcases hread' : Regex.edgeName f (ds'.length + 1) (c :: ds') with ⟨name', rest'⟩
          simp only [hread, hread'] at hname hmore
          subst hname
          by_cases hclose : rest.head? = some '\x7D'
          · obtain ⟨more, rfl⟩ := List.head?_eq_some_iff.mp hclose
            obtain ⟨more', rfl, hends⟩ := hmore.of_cons (by decide)
            simp only
            split
            · exact .ok hends _
            · exact .error _ _
          · intro e more hends
            split at hends <;> simp_all
        · simp only [if_neg hc]
          exact .ok h _
  · rw [boundaryEscape_eq hbrace, boundaryEscape_eq (by rwa [← h.head?_eq])]
    exact .ok h _

/-- An escape is read alike once its first character is known. -/
theorem readEscape (h : Doubled s t) (c : Char) :
    TakesAlike (readEscape f (c :: s)) (Regex.readEscape f (c :: t)) := by
  have hletter {c : Char} {negated : Bool} {wide ascii : CharSet}
      (hc : (c, negated, wide, ascii) ∈ letterSets) :
      TakesAlike (Regex.readEscape f (c :: s)) (Regex.readEscape f (c :: t)) := by
    rw [readEscape_letter hc, readEscape_letter hc]
    cases letterSet f negated wide ascii with
    | error e => exact .error _ _
    | ok set => exact .ok h _
  by_cases hdigit : c.isDigit
  · simp only [Regex.readEscape, hdigit, ite_true]
    exact .error _ _
  · by_cases hescapable : isEscapable c
    · simp only [Regex.readEscape, hdigit, hescapable, ite_true]
      exact .ok h _
    · cases hcontrol : controlEscape? c with
      | some d =>
          simp only [Regex.readEscape, hdigit, hescapable, hcontrol]
          exact .ok h _
      | none =>
          simp only [Regex.readEscape, hdigit, hescapable, hcontrol, Bool.false_eq_true, ite_false]
          split
          · exact h.hexEscape 1
          · exact h.hexEscape 3
          · exact h.hexEscape 7
          · exact h.propertyEscape false
          · exact h.propertyEscape true
          · exact hletter (.head _)
          · exact hletter (.tail _ (.head _))
          · exact hletter (.tail _ (.tail _ (.head _)))
          · exact hletter (.tail _ (.tail _ (.tail _ (.head _))))
          · exact hletter (.tail _ (.tail _ (.tail _ (.tail _ (.head _)))))
          · exact hletter (.tail _ (.tail _ (.tail _ (.tail _ (.tail _ (.head _))))))
          · exact .ok h _
          · exact .ok h _
          · exact h.boundaryEscape
          · exact .ok h _
          · exact .ok h _
          · exact .ok h _
          · exact .error _ _

/-! ## Openings of groups -/

theorem isPlain_of_set? {g : Flags} {on : Bool} (h : f.set? c on = some g) :
    isPlain c = true := by
  rw [isPlain_iff]
  constructor
  · rintro rfl
    simp [Flags.set?] at h
  · rintro rfl
    simp [Flags.set?] at h

theorem readFlags (h : Doubled s t) (seen : Text) :
    TakesAlike (readFlags f seen s) (Regex.readFlags f seen t) := by
  induction s generalizing f t seen with
  | nil => exact .error _ _
  | cons c cs ih =>
      obtain ⟨ds, rfl⟩ := h.exists_cons
      unfold Regex.readFlags
      split
      · split
        · exact .error _ _
        · exact .ok h _
      · split
        · exact .error _ _
        · split
          · rename_i hhyphen
            subst hhyphen
            obtain ⟨ds', heq, hrest⟩ := h.of_cons (by decide)
            obtain rfl := (List.cons.inj heq).2
            exact ih hrest _
          · cases hset : f.set? c (!seen.contains '-') with
            | none => exact .error _ _
            | some g =>
                obtain ⟨ds', heq, hrest⟩ := h.of_cons (isPlain_of_set? hset)
                obtain rfl := (List.cons.inj heq).2
                exact ih hrest _

/-- A front in which no wildcard can stand as a whole is the same in both texts. -/
theorem of_append {u : Text} (hu : ∀ c ∈ u, c ≠ '*' ∧ c ≠ '\\') (hc : isPlain c = true)
    (hstar : c ≠ '*') (h : Doubled (u ++ c :: s) t) :
    ∃ t', t = u ++ c :: t' ∧ Doubled s t' := by
  induction u generalizing t with
  | nil => exact h.of_cons hc
  | cons d u ih =>
      obtain ⟨t', rfl, hrest⟩ : ∃ t', t = d :: t' ∧ Doubled (u ++ c :: s) t' := by
        by_cases hd : d = '.'
        · subst hd
          obtain hrest | ⟨v, _, hv, _⟩ := h.of_dot
          · exact hrest
          · cases u with
            | nil => exact absurd (List.cons.inj hv).1 hstar
            | cons e u => exact absurd (List.cons.inj hv).1 (hu e (by simp)).1
        · exact h.of_cons (isPlain_iff.mpr ⟨hd, (hu d (by simp)).2⟩)
      obtain ⟨t'', rfl, hmore⟩ := ih (fun e he => hu e (by simp [he])) hrest
      exact ⟨t'', rfl, hmore⟩

theorem readName (h : Doubled s t) : TakesAlike (readName s) (Regex.readName t) := by
  intro name rest hread
  obtain ⟨rfl, hne, hclose, hname⟩ := readName_eq_ok_iff.mp hread
  have hplain : ∀ c ∈ name, c ≠ '*' ∧ c ≠ '\\' := by
    have hchar {c : Char} (hc : c = '*' ∨ c = '\\') : c ∉ name := by
      intro hmem
      rw [← List.take_append_drop 1 name, List.mem_append] at hmem
      rcases hmem with hmem | hmem
      · simpa [isNameChar_eq_false hc] using List.all_eq_true.mp hname.1 c hmem
      · simpa [isNameChar_eq_false hc] using List.all_eq_true.mp hname.2 c hmem
    intro c hc
    exact ⟨fun hstar => hchar (.inl hstar) hc, fun hbackslash => hchar (.inr hbackslash) hc⟩
  obtain ⟨rest', rfl, hrest⟩ := h.of_append hplain (by decide) (by decide)
  exact ⟨rest', readName_eq_ok_iff.mpr ⟨rfl, hne, hclose, hname⟩, hrest⟩

theorem readOpening (h : Doubled s t) :
    TakesAlike (readOpening f s) (Regex.readOpening f t) := by
  have hskip := h.skip f
  by_cases hsign : (f.skip s).head? = some '?'
  · obtain ⟨cs, hs⟩ := List.head?_eq_some_iff.mp hsign
    rw [hs] at hskip
    obtain ⟨ds, ht, hrest⟩ := hskip.of_cons (by decide)
    intro o rest hread
    rcases (readOpening_eq_ok_iff hs).mp hread with
      ⟨name, u, hu, hname, rfl⟩ | ⟨g, seen, c, hflags, ho⟩
    · obtain ⟨u', hu', hdoubled⟩ : ∃ u', (ds = '<' :: u' ∧ u'.head? ≠ some '=' ∧
          u'.head? ≠ some '!' ∨ ds = 'P' :: '<' :: u') ∧ Doubled u u' := by
        rcases hu with ⟨rfl, hlook⟩ | rfl
        · obtain ⟨u', rfl, hdoubled⟩ := hrest.of_cons (by decide)
          rw [hdoubled.head?_eq] at hlook
          exact ⟨u', .inl ⟨rfl, hlook⟩, hdoubled⟩
        · obtain ⟨v, rfl, hangle⟩ := hrest.of_cons (by decide)
          obtain ⟨u', rfl, hdoubled⟩ := hangle.of_cons (by decide)
          exact ⟨u', .inr rfl, hdoubled⟩
      obtain ⟨rest', hname', hmore⟩ := hdoubled.readName name rest hname
      exact ⟨rest', (readOpening_eq_ok_iff ht).mpr (.inl ⟨name, u', hu', hname', rfl⟩), hmore⟩
    · obtain ⟨more, hflags', hdoubled⟩ := hrest.readFlags [] _ _ hflags
      obtain ⟨c', _, _, _, hc, hplain, _⟩ := readFlags_local hflags
      obtain ⟨rest', rfl, hmore⟩ := hdoubled.of_cons (by
        obtain ⟨rfl, _⟩ := List.cons.inj hc
        rcases hplain with rfl | rfl <;> decide)
      exact ⟨rest', (readOpening_eq_ok_iff ht).mpr (.inr ⟨g, seen, c, hflags', ho⟩), hmore⟩
  · have hsign' : (f.skip t).head? ≠ some '?' := by rwa [← hskip.head?_eq]
    rw [readOpening_capture hsign, readOpening_capture hsign']
    exact .ok hskip _

/-! ## Counts -/

theorem isPlain_of_isDigit (hc : c.isDigit = true) : isPlain c = true := by
  rw [isPlain_iff]
  constructor
  · rintro rfl
    exact absurd hc (by decide)
  · rintro rfl
    exact absurd hc (by decide)

theorem isPlain_of_isBlank (hc : Text.isBlank c = true) : isPlain c = true := by
  rw [isPlain_iff]
  constructor
  · rintro rfl
    exact absurd hc (by decide)
  · rintro rfl
    exact absurd hc (by decide)

theorem decimalDigits (h : Doubled s t) {n m : Nat} (hn : s.length < n) (hm : t.length < m) :
    (readDecimal.decimalDigits f n s).1 = (readDecimal.decimalDigits f m t).1 ∧
      Doubled (readDecimal.decimalDigits f n s).2 (readDecimal.decimalDigits f m t).2 := by
  induction n generalizing s t m with
  | zero => omega
  | succ n ih =>
      obtain ⟨m, rfl⟩ := Nat.exists_eq_add_one_of_ne_zero (Nat.ne_zero_of_lt hm)
      cases s with
      | nil =>
          obtain rfl : t = [] := by simpa using h.head?_eq.symm
          exact ⟨rfl, .same []⟩
      | cons c cs =>
          obtain ⟨ds, rfl⟩ := h.exists_cons
          by_cases hc : c.isDigit = true
          · obtain ⟨ds, heq, hrest⟩ := h.of_cons (isPlain_of_isDigit hc)
            obtain rfl := (List.cons.inj heq).2
            have hleft := f.length_skip_le cs
            have hright := f.length_skip_le ds
            rw [List.length_cons] at hn hm
            obtain ⟨hdigits, hmore⟩ := ih (m := m) (hrest.skip f) (by omega) (by omega)
            simp only [readDecimal.decimalDigits, hc, ite_true, hdigits]
            exact ⟨trivial, hmore⟩
          · simp only [readDecimal.decimalDigits, if_neg hc]
            exact ⟨trivial, h⟩

theorem skipBlanks (h : Doubled s t) {n m : Nat} (hn : s.length < n) (hm : t.length < m) :
    Doubled (readDecimal.skipBlanks f n s) (readDecimal.skipBlanks f m t) := by
  induction n generalizing s t m with
  | zero => omega
  | succ n ih =>
      obtain ⟨m, rfl⟩ := Nat.exists_eq_add_one_of_ne_zero (Nat.ne_zero_of_lt hm)
      cases s with
      | nil =>
          obtain rfl : t = [] := by simpa using h.head?_eq.symm
          exact .same []
      | cons c cs =>
          obtain ⟨ds, rfl⟩ := h.exists_cons
          by_cases hc : Text.isBlank c = true
          · obtain ⟨ds, heq, hrest⟩ := h.of_cons (isPlain_of_isBlank hc)
            obtain rfl := (List.cons.inj heq).2
            have hleft := f.length_skip_le cs
            have hright := f.length_skip_le ds
            rw [List.length_cons] at hn hm
            simp only [readDecimal.skipBlanks, hc, ite_true]
            exact ih (hrest.skip f) (by omega) (by omega)
          · simp only [readDecimal.skipBlanks, if_neg hc]
            exact h

theorem readDecimal (h : Doubled s t) :
    (readDecimal f s).1 = (Regex.readDecimal f t).1 ∧
      Doubled (Regex.readDecimal f s).2 (Regex.readDecimal f t).2 := by
  obtain ⟨hdigits, hmore⟩ :=
    h.dropWhile_blank.decimalDigits (f := f) (Nat.lt_succ_self _) (Nat.lt_succ_self _)
  have hrest := hmore.skipBlanks (f := f) (Nat.lt_succ_self _) (Nat.lt_succ_self _)
  simp only [Regex.readDecimal, ← hdigits]
  split
  · exact ⟨rfl, hrest⟩
  · exact ⟨rfl, hrest⟩

theorem readCount (h : Doubled s t) : TakesAlike (readCount f s) (Regex.readCount f t) := by
  intro count rest hread
  obtain ⟨hne, n, u, hleast, hends⟩ := readCount_eq_ok_iff.mp hread
  have hskip := h.skip f
  obtain ⟨hfirst, hmore⟩ := hskip.readDecimal (f := f)
  rcases hright : Regex.readDecimal f (f.skip t) with ⟨least, u'⟩
  simp only [hleast, hright] at hfirst hmore
  subst hfirst
  rcases hends with ⟨rfl, rfl⟩ | ⟨v, rfl, hends⟩
  · obtain ⟨rest', rfl, hrest⟩ := hmore.of_cons (by decide)
    exact ⟨rest', readCount_eq_ok_iff.mpr ⟨hskip.ne_nil hne, n, _, hright, .inl ⟨rfl, rfl⟩⟩,
      hrest⟩
  · obtain ⟨v', rfl, hnext⟩ := hmore.of_cons (by decide)
    have hblank := hnext.skip f
    rcases hends with ⟨hclose, rfl⟩ | ⟨hopen, hne', m, hmost, hle, rfl⟩
    · rw [hclose] at hblank
      obtain ⟨rest', hclose', hrest⟩ := hblank.of_cons (by decide)
      exact ⟨rest', readCount_eq_ok_iff.mpr ⟨hskip.ne_nil hne, n, _, hright,
        .inr ⟨v', rfl, .inl ⟨hclose', rfl⟩⟩⟩, hrest⟩
    · obtain ⟨hsecond, hlast⟩ := hblank.readDecimal (f := f)
      rcases hright' : Regex.readDecimal f (f.skip v') with ⟨most, w⟩
      simp only [hmost, hright'] at hsecond hlast
      subst hsecond
      obtain ⟨rest', rfl, hrest⟩ := hlast.of_cons (by decide)
      rw [hblank.head?_eq] at hopen
      exact ⟨rest', readCount_eq_ok_iff.mpr ⟨hskip.ne_nil hne, n, _, hright, .inr ⟨v', rfl,
        .inr ⟨hopen, hblank.ne_nil hne', m, hright', hle, rfl⟩⟩⟩, hrest⟩

theorem readLazy (h : Doubled s t) :
    (readLazy s).1 = (Regex.readLazy t).1 ∧ Doubled (Regex.readLazy s).2 (Regex.readLazy t).2 := by
  by_cases hsign : s.head? = some '?'
  · obtain ⟨cs, rfl⟩ := List.head?_eq_some_iff.mp hsign
    obtain ⟨ds, rfl, hrest⟩ := h.of_cons (by decide)
    exact ⟨rfl, hrest⟩
  · have hlazy {u : Text} (hu : u.head? ≠ some '?') : Regex.readLazy u = (false, u) := by
      unfold Regex.readLazy
      split
      · simp at hu
      · rfl
    rw [hlazy hsign, hlazy (by rwa [← h.head?_eq])]
    exact ⟨rfl, h⟩

end Doubled

end PathRouting.Regex

import PathRouting.Proofs.Chunks

/-! # Case variants of paths

A policy may count characters as the same that differ in case only. The slash, the star and the
brackets have no case, so paths that count as the same have the same chunks and spell the same
elements, but for the case of literals and names. -/

namespace PathRouting

/-! ## Texts that count as the same -/

namespace Policy

variable {policy : Policy} {c d : Char} {t u : Text}

abbrev SameText (policy : Policy) : Text → Text → Prop := List.Forall₂ policy.Same

theorem sameText_refl (policy : Policy) (t : Text) : policy.SameText t t :=
  List.forall₂_same.mpr fun c _ => policy.same_refl c

theorem SameText.symm (h : policy.SameText t u) : policy.SameText u t :=
  h.flip.imp fun _ _ hsame => Same.symm hsame

theorem Same.isDelimiter_eq (h : policy.Same c d) : isDelimiter c = isDelimiter d := by
  have hmark {x : Char} (hx : x ∈ Unicode.marks) : c = x ↔ d = x :=
    h.eq_iff (Unicode.isUncased_of_mem_marks hx)
  rw [Bool.eq_iff_iff]
  simp only [isDelimiter, List.contains_iff_mem, List.mem_cons, List.not_mem_nil, or_false]
  rw [hmark (x := '\x7B') (by decide), hmark (x := '\x7D') (by decide),
    hmark (x := '<') (by decide), hmark (x := '>') (by decide)]

/-- A text without case is the same as no other one. -/
theorem SameText.eq_of_uncased (h : policy.SameText t u)
    (ht : ∀ c ∈ t, Unicode.isUncased c.toNat = true) : u = t := by
  induction h with
  | nil => rfl
  | @cons c d t u hsame _ ih =>
      have hfirst : d = c := (hsame.eq_iff (ht c (by simp))).mp rfl
      rw [hfirst, ih fun e he => ht e (by simp [he])]

theorem SameText.eq_singleton_iff (h : policy.SameText t u)
    (hc : Unicode.isUncased c.toNat = true) : t = [c] ↔ u = [c] := by
  have hfirst {t u : Text} (h : policy.SameText t u) : t = [c] → u = [c] := by
    rintro rfl
    exact h.eq_of_uncased (by simpa using hc)
  exact ⟨hfirst h, hfirst h.symm⟩

theorem SameText.getLast?_eq_iff (h : policy.SameText t u)
    (hc : Unicode.isUncased c.toNat = true) : t.getLast? = some c ↔ u.getLast? = some c := by
  have hfirst {t u : Text} (h : policy.SameText t u) :
      t.getLast? = some c → u.getLast? = some c := by
    intro ht
    obtain ⟨r, rfl⟩ := List.getLast?_eq_some_iff.mp ht
    obtain ⟨s, v, rfl, _, hv⟩ := Template.exists_append_of_forall₂ h
    rw [SameText.eq_of_uncased hv (by simpa using hc), List.getLast?_concat]
  exact ⟨hfirst h, hfirst h.symm⟩

/-- Cutting at a character without case cuts texts that count as the same at the same places. -/
theorem SameText.pieces (h : policy.SameText t u) (hc : Unicode.isUncased c.toNat = true) :
    List.Forall₂ policy.SameText (Text.pieces c t) (Text.pieces c u) := by
  induction h with
  | nil => exact .cons .nil .nil
  | @cons x y t u hsame _ ih =>
      obtain ⟨first, rest, hpieces, hmore⟩ := Text.pieces_cons c x t
      obtain ⟨first', rest', hpieces', hmore'⟩ := Text.pieces_cons c y u
      rw [hpieces, hpieces'] at ih
      rw [hmore, hmore']
      by_cases hx : x = c
      · rw [if_pos hx, if_pos ((hsame.eq_iff hc).mp hx)]
        exact .cons .nil ih
      · rw [if_neg hx, if_neg fun hy => hx ((hsame.eq_iff hc).mpr hy)]
        cases ih with
        | cons hfirst hrest => exact .cons (.cons hsame hfirst) hrest

end Policy

open Policy (SameText)

/-! ## Paths and their chunks -/

namespace Element

theorem isUncased_opening (reach : Reach) : Unicode.isUncased reach.opening.toNat = true := by
  cases reach <;> exact Unicode.isUncased_of_mem_marks (by decide)

theorem isUncased_closing (reach : Reach) : Unicode.isUncased reach.closing.toNat = true := by
  cases reach <;> exact Unicode.isUncased_of_mem_marks (by decide)

theorem isUncased_star : Unicode.isUncased '*'.toNat = true :=
  Unicode.isUncased_of_mem_marks (by decide)

end Element

namespace Template

open Element (isUncased_closing isUncased_star)

variable {policy : Policy} {path path' : Text}

theorem coversSubPaths_of_same (h : policy.SameText path path')
    (hcovers : coversSubPaths path = true) : coversSubPaths path' = true := by
  obtain ⟨r, reach, rfl⟩ := coversSubPaths_iff.mp hcovers
  rw [List.append_assoc] at h
  obtain ⟨r', v, rfl, _, hv⟩ := exists_append_of_forall₂ h
  have hends : v = [reach.closing] ++ ['*'] := by
    apply SameText.eq_of_uncased hv
    intro c hc
    rcases List.mem_append.mp hc with hc | hc
    · rw [List.mem_singleton.mp hc]
      exact isUncased_closing reach
    · rw [List.mem_singleton.mp hc]
      exact isUncased_star
  rw [hends, ← List.append_assoc]
  exact coversSubPaths_iff.mpr ⟨r', reach, rfl⟩

theorem coversSubPaths_eq_of_same (h : policy.SameText path path') :
    coversSubPaths path = coversSubPaths path' :=
  Bool.eq_iff_iff.mpr ⟨coversSubPaths_of_same h, coversSubPaths_of_same h.symm⟩

theorem chunks_same (h : policy.SameText path path') :
    List.Forall₂ policy.SameText (chunks path) (chunks path') := by
  have hwhole : policy.SameText (if coversSubPaths path then path.dropLast else path)
      (if coversSubPaths path' then path'.dropLast else path') := by
    rw [← coversSubPaths_eq_of_same h]
    split
    · rw [List.dropLast_eq_take, List.dropLast_eq_take, h.length_eq]
      exact List.forall₂_take _ h
    · exact h
  refine List.rel_filter ?_ (hwhole.pieces Unicode.isUncased_slash)
  intro t u hsame
  cases hsame <;> simp

end Template

/-! ## Elements that count as the same -/

namespace Element

variable {policy : Policy} {raw : Bool} {e e' : Element} {es es' : List Element} {t u : Text}

/-- Whether two elements are the same up to what the policy counts as the same in their texts. -/
inductive Same (policy : Policy) : Element → Element → Prop where
  | literal {text text' : Text} {raw : Bool} (h : policy.SameText text text') :
    Same policy (literal text raw) (literal text' raw)
  | parameter {name name' : Text} {reach : Reach} (h : policy.SameText name name') :
    Same policy (parameter name reach) (parameter name' reach)
  | wildcard : Same policy wildcard wildcard

theorem same_refl (policy : Policy) (e : Element) : e.Same policy e := by
  cases e with
  | literal text raw => exact .literal (policy.sameText_refl text)
  | parameter name reach => exact .parameter (policy.sameText_refl name)
  | wildcard => exact .wildcard

theorem forall_of_same {P : Char → Prop} (hP : ∀ c d, policy.Same c d → P c → P d)
    (h : policy.SameText t u) (ht : ∀ c ∈ t, P c) : ∀ d ∈ u, P d := by
  intro d hd
  obtain ⟨c, hc, hsame⟩ := Template.exists_left_of_mem h hd
  exact hP c d hsame (ht c hc)

theorem Spells.exists_same (h : Spells raw e t) (hsame : policy.SameText t u) :
    ∃ e', e.Same policy e' ∧ Spells raw e' u := by
  cases e with
  | literal text r =>
      obtain ⟨rfl, rfl, hne, hplain⟩ := h
      refine ⟨literal u r, .literal hsame, rfl, rfl, ?_, ?_⟩
      · rintro rfl
        cases hsame
        exact hne rfl
      · refine forall_of_same ?_ hsame hplain
        rintro c d hcd ⟨hstar, hdelimiter⟩
        exact ⟨mt (hcd.eq_iff isUncased_star).mpr hstar, hcd.isDelimiter_eq ▸ hdelimiter⟩
  | parameter name reach =>
      obtain ⟨rfl, hname⟩ := h
      rw [List.cons_append] at hsame
      cases hsame with
      | @cons _ d _ v hopen hrest =>
          -- The brackets have no case, so what differs is in the name.
          obtain rfl : d = reach.opening := (hopen.eq_iff (isUncased_opening reach)).mp rfl
          obtain ⟨name', w, rfl, hnames, hclose⟩ := Template.exists_append_of_forall₂ hrest
          obtain rfl : w = [reach.closing] :=
            SameText.eq_of_uncased hclose (by simpa using isUncased_closing reach)
          refine ⟨parameter name' reach, .parameter hnames, rfl, ?_⟩
          refine forall_of_same ?_ hnames hname
          intro c d hcd hdelimiter
          exact hcd.isDelimiter_eq ▸ hdelimiter
  | wildcard =>
      obtain ⟨hne, hstars⟩ := h
      obtain rfl : u = t := by
        refine SameText.eq_of_uncased hsame ?_
        intro c hc
        rw [hstars c hc]
        exact isUncased_star
      exact ⟨wildcard, .wildcard, hne, hstars⟩

theorem SpellAll.exists_same (h : SpellAll raw es t) (hsame : policy.SameText t u) :
    ∃ es', List.Forall₂ (Same policy) es es' ∧ SpellAll raw es' u := by
  induction es generalizing t u with
  | nil =>
      obtain rfl := spellAll_nil_iff.mp h
      cases hsame
      exact ⟨[], .nil, spellAll_nil raw⟩
  | cons e es ih =>
      obtain ⟨v, w, hv, hw, rfl⟩ := spellAll_cons_iff.mp h
      obtain ⟨v', w', rfl, hfirst, hrest⟩ := Template.exists_append_of_forall₂ hsame
      obtain ⟨e', he, hspells⟩ := hv.exists_same hfirst
      obtain ⟨es', hes, hspelled⟩ := ih hw hrest
      exact ⟨e' :: es', .cons he hes, hspelled.cons hspells⟩

theorem Same.apart {f f' : Element} (he : e.Same policy e') (hf : f.Same policy f')
    (h : Apart e f) : Apart e' f' := by
  cases he <;> cases hf <;> exact h

theorem isChain_apart_of_same (hes : List.Forall₂ (Same policy) es es')
    (h : es.IsChain Apart) : es'.IsChain Apart := by
  induction hes with
  | nil => exact .nil
  | cons he hes ih =>
      cases hes with
      | nil => exact .singleton _
      | cons hf hes =>
          rw [List.isChain_cons_cons] at h ⊢
          exact ⟨he.apart hf h.1, ih h.2⟩

/-- Chunks that count as the same spell elements that do. -/
theorem Spelling.exists_same (h : Spelling raw t es) (hsame : policy.SameText t u) :
    ∃ es', List.Forall₂ (Same policy) es es' ∧ Spelling raw u es' := by
  obtain ⟨es', hes, hspelled⟩ := h.spelled.exists_same hsame
  exact ⟨es', hes, hspelled, isChain_apart_of_same hes h.apart⟩

end Element

namespace Template

variable {policy : Policy} {path path' : Text} {raw : Bool} {ess ess' : List (List Element)}

theorem exists_spelled_same {texts texts' : List Text}
    (h : List.Forall₂ (Element.Spelling raw) texts ess)
    (hsame : List.Forall₂ policy.SameText texts texts') :
    ∃ ess', List.Forall₂ (List.Forall₂ (Element.Same policy)) ess ess' ∧
      List.Forall₂ (Element.Spelling raw) texts' ess' := by
  induction h generalizing texts' with
  | nil =>
      cases hsame
      exact ⟨[], .nil, .nil⟩
  | cons hspelling _ ih =>
      cases hsame with
      | cons hfirst hrest =>
          obtain ⟨es', hes, hspelling'⟩ := hspelling.exists_same hfirst
          obtain ⟨ess', hess, hspelled⟩ := ih hrest
          exact ⟨es' :: ess', .cons hes hess, .cons hspelling' hspelled⟩

/-! ## Pieces that count as the same -/

/-- Whether two pieces are the same up to what the policy counts as the same in their texts. -/
inductive Piece.Same (policy : Policy) : Piece → Piece → Prop where
  | separator : Same policy .separator .separator
  | element {e e' : Element} (h : e.Same policy e') : Same policy (.element e) (.element e')
  | suffix : Same policy .suffix .suffix

theorem stem_same (h : List.Forall₂ (List.Forall₂ (Element.Same policy)) ess ess') :
    List.Forall₂ (Piece.Same policy) (stem ess) (stem ess') := by
  have hchunk {es es' : List Element} (hes : List.Forall₂ (Element.Same policy) es es') :
      List.Forall₂ (Piece.Same policy) (.separator :: es.map .element)
        (.separator :: es'.map .element) :=
    .cons .separator (List.rel_map (fun _ _ he => .element he) hes)
  induction h with
  | nil => exact .cons .separator .nil
  | @cons es es' ess ess' hes hess ih =>
      cases hess with
      | nil =>
          rw [stem_singleton, stem_singleton]
          exact hchunk hes
      | cons hfs hess =>
          rw [stem_cons (List.cons_ne_nil _ _), stem_cons (List.cons_ne_nil _ _)]
          exact List.rel_append (hchunk hes) ih

theorem pieces_same (h : List.Forall₂ (List.Forall₂ (Element.Same policy)) ess ess') :
    List.Forall₂ (Piece.Same policy) (pieces ess) (pieces ess') :=
  List.rel_append (stem_same h) (.cons .suffix .nil)

/-- Paths that count as the same, with elements that do, are followed in ways that do. -/
theorem waysOf_same (h : policy.SameText path path')
    (hess : List.Forall₂ (List.Forall₂ (Element.Same policy)) ess ess') :
    List.Forall₂ (List.Forall₂ (List.Forall₂ (Element.Same policy))) (waysOf path ess)
      (waysOf path' ess') := by
  rw [waysOf, waysOf, ← coversSubPaths_eq_of_same h]
  split
  · exact .cons hess (.cons (List.rel_append hess (.cons (.cons .wildcard .nil) .nil)) .nil)
  · exact .cons hess .nil

end Template

end PathRouting

import PathRouting.Proofs.Chunks
import PathRouting.Proofs.Strictness

/-! # Runs of slashes

Merging slashes makes separators and suffixes take runs of slashes. What a template accepts then
are the request paths of which, by shortening runs of slashes, one comes that it accepts without
merging. The cut of the one path is carried over to the other piece by piece. -/

namespace PathRouting

namespace Text

/-- The second text is the first one with some runs of slashes shortened, none of them to
nothing. -/
inductive Shortened : Text → Text → Prop
  | nil : Shortened [] []
  | keep {c : Char} {u v : Text} (hc : c ≠ '/') (h : Shortened u v) : Shortened (c :: u) (c :: v)
  /-- A run of `n` slashes, with no further slash behind it, becomes one of `m`. -/
  | run {n m : Nat} {u v : Text} (hm : 0 < m) (hn : m ≤ n) (hu : u.head? ≠ some '/')
      (h : Shortened u v) :
      Shortened (List.replicate n '/' ++ u) (List.replicate m '/' ++ v)

variable {u v a b : Text}

theorem Shortened.slashes {n m : Nat} (hm : 0 < m) (hn : m ≤ n) (h : Shortened u v) :
    Shortened (List.replicate n '/' ++ u) (List.replicate m '/' ++ v) := by
  cases h with
  | nil => exact .run hm hn (by simp) .nil
  | keep hc h => exact .run hm hn (by simpa using hc) (.keep hc h)
  | run hm' hn' hu h =>
      rw [← List.append_assoc, ← List.append_assoc, List.replicate_append_replicate,
        List.replicate_append_replicate]
      exact .run (by omega) (by omega) hu h

theorem Shortened.cons (c : Char) (h : Shortened u v) : Shortened (c :: u) (c :: v) := by
  by_cases hc : c = '/'
  · subst hc
    exact h.slashes (n := 1) Nat.one_pos (Nat.le_refl 1)
  · exact h.keep hc

theorem Shortened.refl (u : Text) : Shortened u u := by
  induction u with
  | nil => exact .nil
  | cons c cs ih => exact ih.cons c

theorem Shortened.append (h : Shortened u v) (h' : Shortened a b) :
    Shortened (u ++ a) (v ++ b) := by
  induction h with
  | nil => exact h'
  | keep hc _ ih => exact ih.keep hc
  | run hm hn _ _ ih =>
      rw [List.append_assoc, List.append_assoc]
      exact ih.slashes hm hn

theorem Shortened.mem_iff (h : Shortened u v) (c : Char) : c ∈ u ↔ c ∈ v := by
  induction h with
  | nil => rfl
  | keep hc _ ih => simp [ih]
  | run hm hn _ _ ih =>
      have hn' := Nat.ne_of_gt (Nat.lt_of_lt_of_le hm hn)
      simp [ih, Nat.ne_of_gt hm, hn']

theorem Shortened.eq_nil_iff (h : Shortened u v) : u = [] ↔ v = [] := by
  simp only [List.eq_nil_iff_forall_not_mem, h.mem_iff]

theorem Shortened.eq_of_notMem (h : Shortened u v) (hv : '/' ∉ v) : u = v := by
  induction h with
  | nil => rfl
  | keep hc _ ih =>
      rw [List.mem_cons, not_or] at hv
      rw [ih hv.2]
  | run hm _ _ _ _ => simp [Nat.ne_of_gt hm] at hv

theorem shortened_slash {t : Text} (hne : t ≠ []) (h : ∀ c ∈ t, c = '/') : Shortened t ['/'] := by
  have hrun := Shortened.nil.slashes Nat.one_pos (List.length_pos_iff.mpr hne)
  rw [← List.eq_replicate_of_mem h, List.append_nil] at hrun
  exact hrun

/-- Where the shortened text is cut, the longer one can be cut so that each part of it is
shortened by itself. -/
theorem Shortened.exists_append (h : Shortened u (a ++ b)) :
    ∃ a' b', a' ++ b' = u ∧ Shortened a' a ∧ Shortened b' b := by
  generalize hv : a ++ b = v at h
  induction h generalizing a with
  | nil =>
      obtain ⟨rfl, rfl⟩ := List.append_eq_nil_iff.mp hv
      exact ⟨[], [], rfl, .nil, .nil⟩
  | @keep c u v hc h ih =>
      cases a with
      | nil =>
          obtain rfl : b = c :: v := hv
          exact ⟨[], c :: u, rfl, .nil, h.keep hc⟩
      | cons d a =>
          obtain ⟨rfl, hrest⟩ := List.cons.inj hv
          obtain ⟨a', b', rfl, ha, hb⟩ := ih hrest
          exact ⟨d :: a', b', rfl, ha.keep hc, hb⟩
  | @run n m u v hm hn hu h ih =>
      rcases List.append_eq_append_iff.mp hv with ⟨r, hrun, rfl⟩ | ⟨r, rfl, hrest⟩
      · cases a with
        | nil =>
            obtain rfl : List.replicate m '/' = r := hrun
            exact ⟨[], _, rfl, .nil, .run hm hn hu h⟩
        | cons d a =>
            -- The slashes that are left out are taken from the first part.
            obtain ⟨hlength, ha, hr⟩ := List.replicate_eq_append_iff.mp hrun
            rw [List.length_cons] at hlength
            refine ⟨List.replicate (n - r.length) '/', r ++ u, ?_, ?_, (Shortened.refl r).append h⟩
            · rw [hr, ← List.append_assoc, List.replicate_append_replicate, List.length_replicate]
              congr 2
              omega
            · have hfirst := Shortened.nil.slashes (show 0 < a.length + 1 by omega)
                (show a.length + 1 ≤ n - r.length by omega)
              rw [List.append_nil, List.append_nil] at hfirst
              rwa [ha]
      · obtain ⟨a', b', rfl, ha, hb⟩ := ih hrest.symm
        exact ⟨List.replicate n '/' ++ a', b', by simp, ha.slashes hm hn, hb⟩

end Text

def Policy.merging (policy : Policy) (merge : Bool) : Policy :=
  { policy with mergeSlashes := merge }

theorem Policy.tail_merging (policy : Policy) (merge : Bool) (path : Text) :
    (policy.merging merge).tail path = policy.tail path :=
  rfl

theorem Policy.stricter_merging (policy : Policy) :
    (policy.merging false).Stricter (policy.merging true) :=
  ⟨id, fun _ => rfl, id⟩

namespace Template

open Text (Shortened shortened_slash)

variable {policy : Policy} {path u v t : Text}

/-! ## What a piece takes when slashes are merged -/

theorem slash_notMem_of_same {text : Text} (h : List.Forall₂ policy.Same text t)
    (htext : '/' ∉ text) : '/' ∉ t := by
  intro hslash
  obtain ⟨c, hc, hsame⟩ := exists_left_of_mem h hslash
  rw [(hsame.eq_iff Unicode.isUncased_slash).mpr rfl] at hc
  exact htext hc

theorem isSeparator_of_subset (hmerge : policy.mergeSlashes = true) (h : policy.IsSeparator t)
    (hv : v ≠ []) (hsub : v ⊆ t) : policy.IsSeparator v := by
  rw [Policy.IsSeparator, if_pos hmerge] at h ⊢
  exact ⟨hv, fun c hc => h.2 c (hsub hc)⟩

/-- When slashes are merged, a piece that takes a text with a slash takes any text of the same
characters, no text only excepted. -/
theorem takes_of_subset {p : Piece} (hmerge : policy.mergeSlashes = true) (hp : p.Solid)
    (h : p.Takes policy path t) (hslash : '/' ∈ t) (hsub : v ⊆ t)
    (hnil : v = [] → p.Takes policy path []) : p.Takes policy path v := by
  by_cases hv : v = []
  · subst hv
    exact hnil rfl
  · cases p with
    | separator => exact isSeparator_of_subset hmerge h hv hsub
    | suffix =>
        rw [Piece.Takes, Policy.isSuffix_iff] at h ⊢
        generalize policy.tail path = tail at h ⊢
        cases tail with
        | nothing =>
            obtain rfl : t = [] := h
            simp at hslash
        | slash => exact isSeparator_of_subset hmerge h hv hsub
        | optionalSlash =>
            rcases h with rfl | h
            · simp at hslash
            · exact .inr (isSeparator_of_subset hmerge h hv hsub)
    | element e =>
        cases e with
        | literal text raw => exact absurd hslash (slash_notMem_of_same h hp.2)
        | wildcard => exact fun hnewline => h (hsub hnewline)
        | parameter name reach =>
            cases reach with
            | chunk => exact absurd hslash h.2
            | path => exact ⟨hv, fun hnewline => h.2 (hsub hnewline)⟩

/-- When slashes are merged, a piece that takes a text takes the longer ones, too. -/
theorem takes_of_shortened {p : Piece} (hmerge : policy.mergeSlashes = true) (hp : p.Solid)
    (h : p.Takes policy path v) (hshort : Shortened u v) : p.Takes policy path u := by
  by_cases hslash : '/' ∈ v
  · refine takes_of_subset hmerge hp h hslash (fun c hc => (hshort.mem_iff c).mp hc) ?_
    intro hu
    simp [hshort.eq_nil_iff.mp hu] at hslash
  · rwa [hshort.eq_of_notMem hslash]

theorem exists_shortened_of_isSeparator (h : (policy.merging true).IsSeparator t) :
    ∃ v, Shortened t v ∧ (policy.merging false).IsSeparator v :=
  ⟨['/'], shortened_slash h.1 h.2, rfl⟩

/-- A text that a piece takes when slashes are merged can be shortened to one that it takes when
they are not. -/
theorem exists_shortened_of_takes {p : Piece} (h : p.Takes (policy.merging true) path t) :
    ∃ v, Shortened t v ∧ p.Takes (policy.merging false) path v := by
  cases p with
  | element e => cases e <;> exact ⟨t, .refl t, h⟩
  | separator => exact exists_shortened_of_isSeparator h
  | suffix =>
      simp only [Piece.Takes, Policy.isSuffix_iff, Policy.tail_merging] at h ⊢
      generalize policy.tail path = tail at h ⊢
      cases tail with
      | nothing => exact ⟨t, .refl t, h⟩
      | slash => exact exists_shortened_of_isSeparator h
      | optionalSlash =>
          rcases h with rfl | h
          · exact ⟨[], .nil, .inl rfl⟩
          · obtain ⟨v, hshort, hv⟩ := exists_shortened_of_isSeparator h
            exact ⟨v, hshort, .inr hv⟩

/-! ## Cuts when slashes are merged -/

variable {ps : List Piece}

/-- When slashes are merged, a request path can be cut if it can be after runs of slashes have
been shortened. -/
theorem hasCut_of_shortened (hps : ∀ p ∈ ps, p.Solid) (hshort : Shortened u v)
    (h : HasCut (policy.merging true) path ps v) : HasCut (policy.merging true) path ps u := by
  induction ps generalizing u v with
  | nil =>
      rw [hasCut_nil_iff] at h ⊢
      exact hshort.eq_nil_iff.mpr h
  | cons p ps ih =>
      rw [hasCut_cons_iff] at h ⊢
      obtain ⟨t, rest, rfl, ht, hrest⟩ := h
      obtain ⟨t', rest', rfl, hfirst, hlater⟩ := hshort.exists_append
      refine ⟨t', rest', rfl, takes_of_shortened rfl (hps p (by simp)) ht hfirst, ?_⟩
      exact ih (fun q hq => hps q (by simp [hq])) hlater hrest

/-- When slashes are merged, a request path that can be cut can be shortened to one that can be
cut without merging. -/
theorem exists_shortened_of_hasCut (h : HasCut (policy.merging true) path ps u) :
    ∃ v, Shortened u v ∧ HasCut (policy.merging false) path ps v := by
  induction ps generalizing u with
  | nil => exact ⟨u, .refl u, hasCut_nil_iff.mpr (hasCut_nil_iff.mp h)⟩
  | cons p ps ih =>
      obtain ⟨t, rest, rfl, ht, hrest⟩ := hasCut_cons_iff.mp h
      obtain ⟨first, hfirst, hshort⟩ := exists_shortened_of_takes ht
      obtain ⟨later, hlater, hcut⟩ := ih hrest
      exact ⟨first ++ later, hfirst.append hlater,
        hasCut_cons_iff.mpr ⟨first, later, rfl, hshort, hcut⟩⟩

/-! ## Templates when slashes are merged -/

theorem follows_of_shortened (hshort : Shortened u v)
    (h : Follows (policy.merging true) path v) : Follows (policy.merging true) path u := by
  obtain ⟨ess, hspelled, way, hway, hcut⟩ := h
  exact ⟨ess, hspelled, way, hway, hasCut_of_shortened (solid_way hspelled hway) hshort hcut⟩

theorem follows_merging_iff :
    Follows (policy.merging true) path u ↔
      ∃ v, Shortened u v ∧ Follows (policy.merging false) path v := by
  constructor
  · rintro ⟨ess, hspelled, way, hway, hcut⟩
    obtain ⟨v, hshort, hcut⟩ := exists_shortened_of_hasCut hcut
    exact ⟨v, hshort, ess, hspelled, way, hway, hcut⟩
  · rintro ⟨v, hshort, hfollows⟩
    exact follows_of_shortened hshort (follows_of_stricter policy.stricter_merging hfollows)

/-- A template with plain literals accepts when slashes are merged just those request paths that
it accepts without merging after some runs of slashes have been shortened. So a request path that
is accepted in either way goes on being accepted with merging when its runs of slashes grow. -/
theorem accepts_merging_iff {t : Template} (hraw : policy.rawLiterals = false)
    (h : ofPath policy path = .ok t) :
    ∃ plain merging, ofPath (policy.merging false) path = .ok plain ∧
      ofPath (policy.merging true) path = .ok merging ∧ ∀ u,
        (merging.accepts u = true ↔ ∃ v, Shortened u v ∧ plain.accepts v = true) ∧
        ∀ v, Shortened u v → plain.accepts v = true ∨ merging.accepts v = true →
          merging.accepts u = true := by
  have hraw' (merge : Bool) : (policy.merging merge).rawLiterals = false := hraw
  obtain ⟨plain, hplain, _⟩ := exists_ofPath_of_ok hraw h _ (hraw' false)
  obtain ⟨merging, hmerging, _⟩ := exists_ofPath_of_ok hraw h _ (hraw' true)
  refine ⟨plain, merging, hplain, hmerging, ?_⟩
  obtain ⟨_, hmadePlain⟩ := exists_madeOf (hraw' false) hplain
  obtain ⟨_, hmadeMerging⟩ := exists_madeOf (hraw' true) hmerging
  intro u
  simp only [hmadePlain.accepts_iff, ← hmadePlain.follows_iff, hmadeMerging.accepts_iff,
    ← hmadeMerging.follows_iff]
  refine ⟨follows_merging_iff, ?_⟩
  intro v hshort hfollows
  have hmerging : Follows (policy.merging true) path v :=
    hfollows.elim (follows_of_stricter policy.stricter_merging) id
  exact follows_of_shortened hshort hmerging

theorem accepts_merging_shared_run :
    ∃ plain merging, ofPath (Policy.merging {} false) "/a/<x>b/".toList = .ok plain ∧
      ofPath (Policy.merging {} true) "/a/<x>b/".toList = .ok merging ∧
      plain.accepts "//a///b//".toList = false ∧ merging.accepts "//a///b//".toList = true ∧
      ∃ v, Shortened "//a///b//".toList v ∧ plain.accepts v = true := by
  have h : (ofPath (Policy.merging {} false) "/a/<x>b/".toList).toOption.any
      (fun t => !t.accepts "//a///b//".toList) = true := by decide +kernel
  have h' : (ofPath (Policy.merging {} true) "/a/<x>b/".toList).toOption.any
      (·.accepts "//a///b//".toList) = true := by decide +kernel
  obtain ⟨t, ht, hrejects⟩ := exists_ok_of_any h
  obtain ⟨t', ht', haccepts⟩ := exists_ok_of_any h'
  obtain ⟨plain, merging, hplain, hmerging, hiff⟩ := accepts_merging_iff rfl ht
  obtain rfl : t = plain := Except.ok.inj (ht.symm.trans hplain)
  obtain rfl : t' = merging := Except.ok.inj (ht'.symm.trans hmerging)
  have hshort := (hiff "//a///b//".toList).1.mp haccepts
  exact ⟨t, t', ht, ht', by simpa using hrejects, haccepts, hshort⟩

end Template

end PathRouting

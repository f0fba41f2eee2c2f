import PathRouting.Regex.Reading

/-! # The character sets of templates

Templates write the slash, literal characters, characters other than the slash, and
characters other than the line feed. Closing a set under change of case does not touch the
slash: no other character folds to it. -/

namespace PathRouting

namespace Unicode

def isUncased (n : Nat) : Bool := foldRanges.all fun r => !r.covers n && (r.preimage n).isEmpty

theorem FoldRange.mem_preimage_apply {r : FoldRange} {n : Nat} (h : r.covers n = true) :
    n ∈ r.preimage (r.apply n) := by
  have hfirst : r.first ≤ n := by
    simp only [covers, Bool.and_eq_true, decide_eq_true_eq] at h
    exact h.1.1
  have hback : r.first + (n - r.first) = n := by omega
  simp [preimage, apply, hback, h]

theorem FoldRange.covers_of_mem_preimage {r : FoldRange} {m n : Nat} (h : n ∈ r.preimage m) :
    r.covers n = true := by
  simp only [preimage] at h
  split at h
  · rename_i hcovers
    rw [List.mem_singleton.mp h]
    exact (Bool.and_eq_true_iff.mp hcovers).2
  · simp at h

theorem covers_of_isUncased {n : Nat} (h : isUncased n = true) {r : FoldRange}
    (hr : r ∈ foldRanges) : r.covers n = false := by
  have hrange := List.all_eq_true.mp h r hr
  simp only [Bool.and_eq_true, Bool.not_eq_true'] at hrange
  exact hrange.1

theorem notMem_preimage_of_isUncased {n : Nat} (h : isUncased n = true) {r : FoldRange}
    (hr : r ∈ foldRanges) (m : Nat) : m ∉ r.preimage n := by
  have hrange := List.all_eq_true.mp h r hr
  simp only [Bool.and_eq_true, List.isEmpty_iff] at hrange
  simp [hrange.2]

theorem foldCode_eq_iff {n : Nat} (h : isUncased n = true) (m : Nat) : foldCode m = n ↔ m = n := by
  constructor
  · intro hm
    unfold foldCode at hm
    cases hr : foldRanges.find? fun r => r.covers m with
    | none => simpa [hr] using hm
    | some r =>
        simp only [hr] at hm
        have hmem := FoldRange.mem_preimage_apply (r := r) (n := m)
          (by simpa using List.find?_some hr)
        rw [hm] at hmem
        exact absurd hmem (notMem_preimage_of_isUncased h (List.mem_of_find?_eq_some hr) m)
  · rintro rfl
    have hnone : foldRanges.find? (fun r => r.covers m) = none := by
      rw [List.find?_eq_none]
      intro r hr
      simp [covers_of_isUncased h hr]
    rw [foldCode, hnone]

/-- A character without case is the same as no other one. -/
theorem sameFold_iff_eq {c : Char} (h : isUncased c.toNat = true) (d : Char) :
    sameFold c d = true ↔ d = c := by
  have hself : fold c = c.toNat := (foldCode_eq_iff h c.toNat).mpr rfl
  rw [sameFold, hself, beq_iff_eq, eq_comm, fold, foldCode_eq_iff h, Char.toNat_inj]

/-- The characters that end literals and values: those with a meaning of their own in paths, and
the line feed. -/
def marks : List Char := ['/', '*', '\x7B', '\x7D', '<', '>', '\n']

theorem isUncased_of_mem_marks {c : Char} (h : c ∈ marks) : isUncased c.toNat = true := by
  have hall : marks.all (fun c => isUncased c.toNat) = true := by decide +kernel
  exact List.all_eq_true.mp hall c h

theorem isUncased_slash : isUncased '/'.toNat = true := isUncased_of_mem_marks (by decide)

theorem sameFold_slash (c : Char) : sameFold '/' c = true ↔ c = '/' :=
  sameFold_iff_eq isUncased_slash c

theorem eq_of_ofNat_eq_slash {n : Nat} (h : Char.ofNat n = '/') : n = 47 := by
  by_cases hn : n.isValidChar
  · rw [Char.ofNat, dif_pos hn] at h
    exact congrArg Char.toNat h
  · rw [Char.ofNat, dif_neg hn] at h
    exact absurd h (by decide)

/-- The slash is a case variant of no other character. -/
theorem slash_mem_caseVariants (c : Char) : '/' ∈ caseVariants c ↔ c = '/' := by
  constructor
  · intro h
    obtain ⟨n, hn, hslash⟩ := List.mem_map.mp h
    obtain rfl := eq_of_ofNat_eq_slash hslash
    rcases List.mem_cons.mp hn with hn | hn
    · exact Char.toNat_inj.mp ((foldCode_eq_iff isUncased_slash _).mp hn.symm)
    · obtain ⟨r, hr, hn⟩ := List.mem_flatMap.mp hn
      have hcovers := FoldRange.covers_of_mem_preimage hn
      simp [show r.covers 47 = false from covers_of_isUncased isUncased_slash hr] at hcovers
  · rintro rfl
    have hself : fold '/' = 47 := (foldCode_eq_iff isUncased_slash _).mpr rfl
    exact List.mem_map.mpr ⟨47, List.mem_cons.mpr (.inl hself.symm), rfl⟩

end Unicode

namespace CharSet

theorem contains_single (c d : Char) : (single c).contains d = true ↔ d = c := by
  simp only [single, contains, Bool.and_eq_true, decide_eq_true_eq]
  rw [← Char.toNat_inj]
  omega

theorem contains_compl (a : CharSet) (c : Char) :
    (compl a).contains c = true ↔ ¬a.contains c = true := by
  simp [contains]

theorem contains_folded_slash (c : Char) :
    (folded (single '/')).contains c = true ↔ c = '/' := by
  rw [← Unicode.slash_mem_caseVariants, contains, List.any_eq_true]
  constructor
  · rintro ⟨d, hd, hslash⟩
    rwa [← (contains_single '/' d).mp hslash]
  · intro h
    exact ⟨'/', h, (contains_single '/' '/').mpr rfl⟩

end CharSet

namespace Regex.Flags

def notSlash (f : Flags) : CharSet := .compl (.foldedIf f.caseless (.single '/'))

def notNewline : CharSet := .compl (.single '\n')

theorem contains_literalSet {f : Flags} (hf : f.unicode = true) (c d : Char) :
    (f.literalSet c).contains d = true ↔
      if f.caseless then Unicode.sameFold c d = true else d = c := by
  cases hcase : f.caseless <;>
    simp [literalSet, hf, hcase, CharSet.contains, CharSet.contains_single]

theorem contains_slashSet {f : Flags} (hf : f.unicode = true) (c : Char) :
    (f.literalSet '/').contains c = true ↔ c = '/' := by
  rw [contains_literalSet hf]
  split
  · exact Unicode.sameFold_slash c
  · rfl

theorem contains_notSlash (f : Flags) (c : Char) : f.notSlash.contains c = true ↔ c ≠ '/' := by
  rw [notSlash, CharSet.contains_compl]
  cases hcase : f.caseless with
  | false =>
      simp only [CharSet.foldedIf, Bool.false_eq_true, ite_false, CharSet.contains_single, ne_eq]
  | true => simp only [CharSet.foldedIf, ite_true, CharSet.contains_folded_slash, ne_eq]

theorem contains_notNewline (c : Char) : notNewline.contains c = true ↔ c ≠ '\n' := by
  rw [notNewline, CharSet.contains_compl, CharSet.contains_single]

end Regex.Flags

end PathRouting

import PathRouting.Proofs.Grammar

/-! # Scanning chunks

A star, a literal or a parameter by itself is told at sight. Scanning the chunk would come to the
same: what is told at sight is what the chunk spells, and a chunk spells one list of elements only.
So whichever way a chunk is read, it is read as the elements that it spells. -/

namespace PathRouting.Segment

open Element

variable {path chunk : Text} {raw : Bool} {s : Segment} {es : List Element}

theorem exists_element_of_plain? (h : plain? raw chunk = some s) : ∃ e, s = element e := by
  simp only [plain?] at h
  split at h
  · exact ⟨wildcard, (Option.some.inj h).symm⟩
  · split at h
    · exact ⟨literal chunk raw, (Option.some.inj h).symm⟩
    · split at h
      · rcases Option.or_eq_some_iff.mp h with h | ⟨_, h⟩
        · obtain ⟨name, _, hs⟩ := Option.map_eq_some_iff.mp h
          exact ⟨parameter name .chunk, hs.symm⟩
        · obtain ⟨name, _, hs⟩ := Option.map_eq_some_iff.mp h
          exact ⟨parameter name .path, hs.symm⟩
      · simp at h

/-- Scanning a chunk finds the elements that it spells. -/
theorem scanned?_of_spelling (h : Spelling raw chunk es) :
    scanned? raw chunk = some (ofElements es) := by
  obtain ⟨found, hscan⟩ := Option.isSome_iff_exists.mp (isSome_scan? h.spelled raw [])
  have hmerged : merge found = es := (spelling_of_scan? hscan).unique h
  rw [scanned?, hscan, Option.map_some, hmerged]

theorem scanned?_of_plain? (hne : chunk ≠ []) (h : plain? raw chunk = some s) :
    scanned? raw chunk = some s := by
  have hspelling := spelling_of_plain? hne h
  obtain ⟨e, rfl⟩ := exists_element_of_plain? h
  exact scanned?_of_spelling hspelling

/-- What can be told at sight makes no difference. -/
theorem plain?_or_scanned? (hne : chunk ≠ []) (raw : Bool) :
    (plain? raw chunk).or (scanned? raw chunk) = scanned? raw chunk := by
  cases h : plain? raw chunk with
  | none => rfl
  | some s => rw [Option.some_or, scanned?_of_plain? hne h]

/-- A chunk is read as the elements that it spells, unless a wildcard among them stands beside a
parameter. -/
theorem ofChunk_of_spelling (hne : chunk ≠ []) (h : Spelling raw chunk es)
    (hborder : es.IsChain MayBorder) (path : Text) :
    ofChunk path raw chunk = .ok (ofElements es) := by
  have heven := Nat.even_iff.mp (even_of_spellAll h.spelled)
  have hstar : ¬StarBeside chunk := isChain_mayMeet_iff.mp (h.spelled.isChain_iff.mpr hborder)
  rw [ofChunk, if_neg (by simp [heven]), if_neg (starBesideBracket_iff.not.mpr hstar),
    plain?_or_scanned? hne, scanned?_of_spelling h]

/-- A segment that has been read is the one of its elements: a single element stands by itself, and
parts are not parted again. -/
theorem eq_ofElements_of_ofChunk (h : ofChunk path raw chunk = .ok s) :
    s = ofElements s.elements := by
  simp only [ofChunk] at h
  split at h
  · simp at h
  · split at h
    · simp at h
    · split at h
      · rename_i s' hs
        obtain rfl := Except.ok.inj h
        rcases Option.or_eq_some_iff.mp hs with hs | ⟨_, hs⟩
        · obtain ⟨e, rfl⟩ := exists_element_of_plain? hs
          rfl
        · obtain ⟨found, _, rfl⟩ := Option.map_eq_some_iff.mp hs
          rw [elements_ofElements]
      · simp at h

/-- A chunk with an even number of brackets and no star beside one of them is read as if nothing
could be told at sight: it is scanned, neighbours that can be one are joined, and a single element
stands by itself. If it cannot be scanned, its brackets are misplaced. -/
theorem ofChunk_eq_scan (path : Text) (raw : Bool) {chunk : Text} (hne : chunk ≠ [])
    (heven : chunk.countP isDelimiter % 2 = 0) (hstar : starBesideBracket chunk = false) :
    ofChunk path raw chunk =
      match scan? raw none [] chunk with
      | some es => .ok (ofElements (merge es))
      | none => .error (.misplacedBrackets chunk path) := by
  rw [ofChunk, if_neg (by simp [heven]), if_neg (by simp [hstar]), plain?_or_scanned? hne, scanned?]
  cases scan? raw none [] chunk <;> rfl

/-- A star inside of brackets belongs to the name, for the scan as well as at sight. -/
theorem ofChunk_eq_scan_starred_name :
    ofChunk "/\x7Ba*b\x7D".toList false "\x7Ba*b\x7D".toList =
      .ok (element (parameter "a*b".toList .chunk)) ∧
    ofChunk "/\x7Ba*b\x7D".toList false "\x7Ba*b\x7D".toList =
      match scan? false none [] "\x7Ba*b\x7D".toList with
      | some es => .ok (ofElements (merge es))
      | none => .error (.misplacedBrackets "\x7Ba*b\x7D".toList "/\x7Ba*b\x7D".toList) := by
  refine ⟨rfl, ofChunk_eq_scan _ false ?_ ?_ ?_⟩
  · decide
  · decide
  · decide

end PathRouting.Segment

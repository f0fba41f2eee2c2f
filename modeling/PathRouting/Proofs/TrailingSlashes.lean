import PathRouting.Proofs.Grammar
import PathRouting.Proofs.SubPaths

/-! # Slashes at the end of request paths

What may follow the last chunk is told by the end of the path and by the policy, whatever the
chunks are. So a template accepts what its strict form accepts with such an end behind it, and a
slash at the end of the path makes the slash that the policy tolerates a duty. -/

namespace PathRouting

namespace Template

variable {policy : Policy} {path path' u : Text} {t strict : Template} {ess : List (List Element)}

/-! ## The end of a way -/

/-- Chunks are followed by what follows them strictly and an end that the path asks for. -/
theorem hasCut_tail_iff (h : path.getLast? ≠ some '/') (path' : Text) :
    HasCut policy path' (pieces ess) u ↔
      ∃ v w, u = v ++ w ∧ HasCut (policy.ignoring false) path (pieces ess) v ∧
        (policy.tail path').Takes policy w := by
  rw [pieces_eq_stem ess, hasCut_append_iff, ← pieces_eq_stem]
  simp only [hasCut_strict_iff h path', hasCut_singleton_iff, Piece.Takes, Policy.isSuffix_iff,
    eq_comm (a := u)]

/-- A template accepts what the strict template of the same chunks accepts, with an end behind it
that its own path asks for. -/
theorem MadeOf.accepts_tail_iff (ht : MadeOf policy path' t ess)
    (hstrict : MadeOf (policy.ignoring false) path strict ess) (h : path.getLast? ≠ some '/')
    (hcovers : coversSubPaths path' = coversSubPaths path) (u : Text) :
    t.accepts u = true ↔
      ∃ v w, u = v ++ w ∧ strict.accepts v = true ∧ (policy.tail path').Takes policy w := by
  have hways : waysOf path' ess = waysOf path ess := by rw [waysOf, waysOf, hcovers]
  simp only [ht.accepts_iff, hstrict.accepts_iff, hways]
  constructor
  · rintro ⟨way, hway, hcut⟩
    obtain ⟨v, w, rfl, hv, hw⟩ := (hasCut_tail_iff h path').mp hcut
    exact ⟨v, w, rfl, ⟨way, hway, hv⟩, hw⟩
  · rintro ⟨v, w, rfl, ⟨way, hway, hv⟩, hw⟩
    exact ⟨way, hway, (hasCut_tail_iff h path').mpr ⟨v, w, rfl, hv, hw⟩⟩

/-- What follows a path that ends in a slash does not depend on what the policy tolerates. -/
theorem MadeOf.accepts_ignoring {lenient : Template}
    (hlenient : MadeOf (policy.ignoring true) path lenient ess)
    (hstrict : MadeOf (policy.ignoring false) path strict ess) (h : path.getLast? = some '/')
    (u : Text) : lenient.accepts u = strict.accepts u := by
  have htail : (policy.ignoring true).tail path = (policy.ignoring false).tail path := by
    simp [Policy.tail, h]
  have hsuffix (t : Text) :
      (policy.ignoring true).IsSuffix path t ↔ (policy.ignoring false).IsSuffix path t := by
    rw [Policy.isSuffix_iff, Policy.isSuffix_iff, htail]
    rfl
  rw [Bool.eq_iff_iff, hlenient.accepts_iff, hstrict.accepts_iff]
  apply exists_congr
  intro way
  apply and_congr_right
  intro _
  apply hasCut_congr
  apply forall_mem_pieces
  · exact fun t => Iff.rfl
  · exact hsuffix
  · intro es _ e _ t
    cases e <;> rfl

/-! ## A slash behind a path -/

/-- A path that covers everything below makes no template with a slash behind it: its last star
would stand beside a bracket. -/
theorem coversSubPaths_of_slash (hraw : policy.rawLiterals = false)
    (h : ofPath policy (path ++ ['/']) = .ok t) : coversSubPaths path = false := by
  by_contra hcovers
  obtain ⟨r, reach, rfl⟩ := coversSubPaths_iff.mp (Bool.not_eq_false _ ▸ hcovers)
  have hslash : '/' ∉ [reach.closing, '*'] := by cases reach <;> decide
  obtain ⟨init, last, happend⟩ := Text.exists_pieces_append '/' r
  have hpieces := happend _ hslash
  have hwhole : Text.pieces '/' (r ++ [reach.closing] ++ ['*'] ++ ['/']) =
      init ++ [last ++ [reach.closing, '*']] ++ [[]] := by
    rw [List.append_assoc r, Text.pieces_append]
    exact congrArg (· ++ [[]]) hpieces
  have hchunk : last ++ [reach.closing, '*'] ∈ chunks (r ++ [reach.closing] ++ ['*'] ++ ['/']) := by
    rw [chunks, coversSubPaths_slash]
    simp only [Bool.false_eq_true, ite_false, hwhole]
    simp
  obtain ⟨_, hread, _⟩ := (exists_ofPath_iff hraw).mp ⟨t, h⟩
  obtain ⟨s, hs⟩ := hread _ hchunk
  have hinfix : [reach.closing, '*'] <:+: last ++ [reach.closing, '*'] :=
    (List.suffix_append last _).isInfix
  exact Segment.not_starBeside_of_ofChunk hs ⟨reach, .inr hinfix⟩

/-! ## Templates that tolerate a slash -/

/-- With plain literals, tolerating a slash at the end adds to what a template accepts the same with
a slash behind it, and nothing if its path ends in a slash. With a slash behind the path itself, a
template accepts what the strict one accepts without it, with a slash behind it; it does so whether
further slashes are tolerated or not. -/
theorem accepts_ignoring_iff (hraw : policy.rawLiterals = false) (h : ofPath policy path = .ok t) :
    ∃ strict lenient, ofPath (policy.ignoring false) path = .ok strict ∧
      ofPath (policy.ignoring true) path = .ok lenient ∧
      (path.getLast? ≠ some '/' → ∀ u, lenient.accepts u = true ↔
        strict.accepts u = true ∨
          ∃ v w, u = v ++ w ∧ strict.accepts v = true ∧ policy.IsSeparator w) ∧
      (path.getLast? = some '/' → ∀ u, lenient.accepts u = strict.accepts u) ∧
      (path.getLast? ≠ some '/' → chunks path ≠ [] → ∀ ignore closed,
        ofPath (policy.ignoring ignore) (path ++ ['/']) = .ok closed → ∀ u,
          closed.accepts u = true ↔
            ∃ v w, u = v ++ w ∧ strict.accepts v = true ∧ policy.IsSeparator w) := by
  have hraw' (ignore : Bool) : (policy.ignoring ignore).rawLiterals = false := hraw
  obtain ⟨strict, hstrict, _⟩ := exists_ofPath_of_ok hraw h _ (hraw' false)
  obtain ⟨lenient, hlenient, _⟩ := exists_ofPath_of_ok hraw h _ (hraw' true)
  obtain ⟨ess, hmadeStrict⟩ := exists_madeOf (hraw' false) hstrict
  have hmadeLenient := madeOf_of_spelled (hraw' true) hlenient hmadeStrict.spelled
  refine ⟨strict, lenient, hstrict, hlenient, ?_, hmadeLenient.accepts_ignoring hmadeStrict, ?_⟩
  · intro hends u
    have htail : (policy.ignoring true).tail path = .optionalSlash := tail_of_getLast? hends
    rw [hmadeLenient.accepts_tail_iff hmadeStrict hends rfl, htail]
    constructor
    · rintro ⟨v, w, rfl, hv, rfl | hw⟩
      · exact .inl (by simpa using hv)
      · exact .inr ⟨v, w, rfl, hv, hw⟩
    · rintro (hu | ⟨v, w, rfl, hv, hw⟩)
      · exact ⟨u, [], by simp, hu, .inl rfl⟩
      · exact ⟨v, w, rfl, hv, .inr hw⟩
  · intro hends hchunks ignore closed hclosed u
    have hplain := coversSubPaths_of_slash (hraw' ignore) hclosed
    have hspelled := hmadeStrict.spelled
    rw [← chunks_slash hplain] at hspelled
    have hmadeClosed := madeOf_of_spelled (hraw' ignore) hclosed hspelled
    have hroot : path ++ ['/'] ≠ ['/'] := by
      intro hroot
      obtain rfl : path = [] := by simpa using hroot
      exact hchunks rfl
    have htail : (policy.ignoring ignore).tail (path ++ ['/']) = .slash := by
      simp [Policy.tail, hroot]
    have hcovers := (coversSubPaths_slash path).trans hplain.symm
    rw [hmadeClosed.accepts_tail_iff hmadeStrict hends hcovers, htail]
    rfl

theorem accepts_ignoring_slash_run :
    ∃ strict lenient closed strictClosed,
      ofPath (Policy.ignoring { mergeSlashes := true } false) "/a-{x}".toList = .ok strict ∧
      ofPath (Policy.ignoring { mergeSlashes := true } true) "/a-{x}".toList = .ok lenient ∧
      ofPath (Policy.ignoring { mergeSlashes := true } true) "/a-{x}/".toList = .ok closed ∧
      ofPath (Policy.ignoring { mergeSlashes := true } false) "/a-{x}/".toList = .ok strictClosed ∧
      strict.accepts "/a-1//".toList = false ∧ lenient.accepts "/a-1//".toList = true ∧
      closed.accepts "/a-1//".toList = true ∧ ∀ u, closed.accepts u = strictClosed.accepts u := by
  have h : (ofPath (Policy.ignoring { mergeSlashes := true } false) "/a-{x}".toList).toOption.any
      (fun t => t.accepts "/a-1".toList && !t.accepts "/a-1//".toList) = true := by decide +kernel
  have h' : (ofPath { mergeSlashes := true } "/a-{x}/".toList).toOption.any
      (fun _ => true) = true := by decide +kernel
  obtain ⟨t, ht, hanswers⟩ := exists_ok_of_any h
  obtain ⟨t', ht', _⟩ := exists_ok_of_any h'
  rw [Bool.and_eq_true, Bool.not_eq_true'] at hanswers
  obtain ⟨strict, lenient, hstrict, hlenient, htolerant, _, hduty⟩ := accepts_ignoring_iff rfl ht
  obtain ⟨strictClosed, closed, hstrictClosed, hclosed, _, hsame, _⟩ := accepts_ignoring_iff rfl ht'
  obtain rfl : t = strict := Except.ok.inj (ht.symm.trans hstrict)
  have hslashes : ∃ v w, "/a-1//".toList = v ++ w ∧ t.accepts v = true ∧
      Policy.IsSeparator (Policy.ignoring { mergeSlashes := true } false) w :=
    ⟨"/a-1".toList, "//".toList, rfl, hanswers.1, by simp, by simp⟩
  refine ⟨t, lenient, closed, strictClosed, ht, hlenient, hclosed, hstrictClosed, hanswers.2, ?_⟩
  refine ⟨(htolerant (by decide) _).mpr (.inr hslashes), ?_, ?_⟩
  · exact (hduty (by decide) (by decide) true closed hclosed _).mpr hslashes
  · exact hsame (by decide)

end Template

end PathRouting

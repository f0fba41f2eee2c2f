import PathRouting.Proofs.Language

/-! # Chunks

The chunks of a path are what is between its slashes. None of them has a slash, and so have none
of the literals that they spell. A star behind the last parameter of a path is no part of the
chunks: it makes the path cover everything below. -/

namespace PathRouting

namespace Text

theorem pieces_cons (sep c : Char) (cs : Text) :
    ∃ first rest, pieces sep cs = first :: rest ∧
      pieces sep (c :: cs) = if c = sep then [] :: first :: rest else (c :: first) :: rest := by
  have hne : pieces sep cs ≠ [] := by
    cases cs with
    | nil => simp [pieces]
    | cons d ds =>
        rw [pieces]
        split
        · simp
        · split <;> simp
  obtain ⟨first, rest, hpieces⟩ := List.exists_cons_of_ne_nil hne
  exact ⟨first, rest, hpieces, by simp only [pieces, hpieces]⟩

theorem pieces_of_notMem {sep : Char} {t : Text} (h : sep ∉ t) : pieces sep t = [t] := by
  induction t with
  | nil => rfl
  | cons c cs ih =>
      rw [List.mem_cons, not_or] at h
      simp [pieces, ih h.2, Ne.symm h.1]

theorem notMem_of_mem_pieces {sep : Char} {t piece : Text} (h : piece ∈ pieces sep t) :
    sep ∉ piece := by
  induction t generalizing piece with
  | nil =>
      obtain rfl := List.mem_singleton.mp h
      exact List.not_mem_nil
  | cons c cs ih =>
      obtain ⟨first, rest, hpieces, hmore⟩ := pieces_cons sep c cs
      rw [hmore] at h
      rw [hpieces] at ih
      split at h
      · rcases List.mem_cons.mp h with rfl | h
        · exact List.not_mem_nil
        · exact ih h
      · rename_i hne
        rcases List.mem_cons.mp h with rfl | h
        · have hfirst := ih (List.mem_cons_self ..)
          simp [hfirst, Ne.symm hne]
        · exact ih (List.mem_cons_of_mem _ h)

theorem pieces_append (sep : Char) (s t : Text) :
    pieces sep (s ++ sep :: t) = pieces sep s ++ pieces sep t := by
  induction s with
  | nil =>
      obtain ⟨first, rest, hpieces, hmore⟩ := pieces_cons sep sep t
      rw [List.nil_append, hmore, hpieces, if_pos rfl]
      rfl
  | cons c cs ih =>
      obtain ⟨first, rest, hpieces, hmore⟩ := pieces_cons sep c cs
      rw [hpieces] at ih
      rw [hmore]
      by_cases hc : c = sep <;> simp [pieces, ih, hc]

/-- A text without `sep` at the end belongs to the last piece. -/
theorem exists_pieces_append (sep : Char) (s : Text) :
    ∃ init last, ∀ t, sep ∉ t → pieces sep (s ++ t) = init ++ [last ++ t] := by
  induction s with
  | nil => exact ⟨[], [], fun t ht => by simp [pieces_of_notMem ht]⟩
  | cons c cs ih =>
      obtain ⟨init, last, happend⟩ := ih
      by_cases hc : c = sep
      · refine ⟨[] :: init, last, ?_⟩
        intro t ht
        rw [List.cons_append, pieces, happend t ht]
        cases init <;> simp [hc]
      · cases init with
        | nil =>
            refine ⟨[], c :: last, ?_⟩
            intro t ht
            simp [pieces, happend t ht, hc]
        | cons first init =>
            refine ⟨(c :: first) :: init, last, ?_⟩
            intro t ht
            simp [pieces, happend t ht, hc]

/-- A character other than the one between the pieces is in one of them. -/
theorem exists_mem_pieces {sep c : Char} (hc : c ≠ sep) {t : Text} (h : c ∈ t) :
    ∃ piece ∈ pieces sep t, c ∈ piece := by
  induction t with
  | nil => simp at h
  | cons d ds ih =>
      obtain ⟨first, rest, hpieces, hmore⟩ := pieces_cons sep d ds
      rw [hpieces] at ih
      rw [hmore]
      rcases List.mem_cons.mp h with rfl | h
      · exact ⟨c :: first, by simp [hc], by simp⟩
      · obtain ⟨piece, hpiece, hmem⟩ := ih h
        split
        · exact ⟨piece, List.mem_cons_of_mem [] hpiece, hmem⟩
        · rcases List.mem_cons.mp hpiece with rfl | hpiece
          · exact ⟨d :: piece, by simp, by simp [hmem]⟩
          · exact ⟨piece, by simp [hpiece], hmem⟩

end Text

namespace Template

variable {path s : Text} {raw : Bool} {ess way : List (List Element)}

/-! ## Paths with a star behind them -/

theorem coversSubPaths_iff :
    coversSubPaths path = true ↔ ∃ r reach, path = r ++ [Reach.closing reach] ++ ['*'] := by
  simp only [coversSubPaths, Bool.or_eq_true, List.isSuffixOf_iff_suffix]
  constructor
  · rintro (⟨r, rfl⟩ | ⟨r, rfl⟩)
    · exact ⟨r, .chunk, by simp [Reach.closing]⟩
    · exact ⟨r, .path, by simp [Reach.closing]⟩
  · rintro ⟨r, reach, rfl⟩
    cases reach
    · exact .inl ⟨r, by simp [Reach.closing]⟩
    · exact .inr ⟨r, by simp [Reach.closing]⟩

theorem coversSubPaths_eq_false_of_getLast? {c : Char} (h : path.getLast? = some c)
    (hc : c ≠ '*') : coversSubPaths path = false := by
  rw [Bool.eq_false_iff, ne_eq, coversSubPaths_iff]
  rintro ⟨r, reach, rfl⟩
  rw [List.getLast?_concat] at h
  exact hc (Option.some.inj h).symm

theorem coversSubPaths_slash_star (s : Text) : coversSubPaths (s ++ ['/', '*']) = false := by
  rw [Bool.eq_false_iff, ne_eq, coversSubPaths_iff]
  rintro ⟨r, reach, h⟩
  rw [List.append_assoc] at h
  obtain ⟨_, hslash⟩ := List.append_inj' h rfl
  cases reach <;> simp [Reach.closing] at hslash

/-- A star behind a parameter is no part of the last chunk. -/
theorem chunks_star (r : Text) (reach : Reach) :
    chunks (r ++ [reach.closing] ++ ['*']) = chunks (r ++ [reach.closing]) := by
  have hcovers : coversSubPaths (r ++ [reach.closing] ++ ['*']) = true :=
    coversSubPaths_iff.mpr ⟨r, reach, rfl⟩
  have hplain : coversSubPaths (r ++ [reach.closing]) = false :=
    coversSubPaths_eq_false_of_getLast? List.getLast?_concat (Element.closing_ne_star reach)
  rw [chunks, chunks, hcovers, hplain]
  simp

/-- What is behind a slash makes chunks of its own. -/
theorem chunks_append {t : Text} (hs : coversSubPaths s = false)
    (h : coversSubPaths (s ++ '/' :: t) = false) :
    chunks (s ++ '/' :: t) = chunks s ++ (Text.pieces '/' t).filter (!·.isEmpty) := by
  rw [chunks, chunks, h, hs]
  simp [Text.pieces_append]

/-- A star behind a slash is a chunk of its own. -/
theorem chunks_slash_star (hs : coversSubPaths s = false) :
    chunks (s ++ ['/', '*']) = chunks s ++ [['*']] :=
  chunks_append hs (coversSubPaths_slash_star s)

theorem coversSubPaths_slash (s : Text) : coversSubPaths (s ++ ['/']) = false :=
  coversSubPaths_eq_false_of_getLast? List.getLast?_concat (by decide)

/-- A slash at the end of a path adds no chunk to it. -/
theorem chunks_slash (hs : coversSubPaths s = false) : chunks (s ++ ['/']) = chunks s := by
  rw [chunks_append hs (coversSubPaths_slash s)]
  exact List.append_nil _

theorem chunks_ne_nil (r : Text) (reach : Reach) : chunks (r ++ [reach.closing]) ≠ [] := by
  have hplain : coversSubPaths (r ++ [reach.closing]) = false :=
    coversSubPaths_eq_false_of_getLast? List.getLast?_concat (Element.closing_ne_star reach)
  have hne : reach.closing ≠ '/' := by cases reach <;> decide
  obtain ⟨piece, hpiece, hmem⟩ := Text.exists_mem_pieces (t := r ++ [reach.closing]) hne (by simp)
  have hchunk : piece ∈ chunks (r ++ [reach.closing]) := by
    rw [chunks, hplain]
    exact List.mem_filter.mpr ⟨hpiece, by simpa using List.ne_nil_of_mem hmem⟩
  exact List.ne_nil_of_mem hchunk

theorem getLast?_ne_slash (hcovers : coversSubPaths path = true) : path.getLast? ≠ some '/' := by
  obtain ⟨r, reach, rfl⟩ := coversSubPaths_iff.mp hcovers
  simp

/-- The chunks of a path that covers everything below have a last element. -/
theorem exists_last (hcovers : coversSubPaths path = true)
    (hspelled : List.Forall₂ (Element.Spelling false) (chunks path) ess) :
    ∃ init es e, ess = init ++ [es ++ [e]] := by
  obtain ⟨r, reach, rfl⟩ := coversSubPaths_iff.mp hcovers
  rcases ess.eq_nil_or_concat' with rfl | ⟨init, last, rfl⟩
  · rw [List.forall₂_nil_right_iff, chunks_star] at hspelled
    exact absurd hspelled (chunks_ne_nil r reach)
  · have hmem : last ∈ init ++ [last] := List.mem_concat_self
    obtain ⟨chunk, hchunk, hlast⟩ := exists_left_of_mem hspelled hmem
    rcases last.eq_nil_or_concat' with rfl | ⟨es, e, rfl⟩
    · obtain ⟨_, hempty, hwhole⟩ := hlast.spelled
      cases hempty
      exact absurd hwhole.symm (ne_nil_of_mem_chunks hchunk)
    · exact ⟨init, es, e, rfl⟩

/-! ## The elements of chunks -/

theorem slash_notMem_chunk {chunk : Text} (h : chunk ∈ chunks path) : '/' ∉ chunk :=
  Text.notMem_of_mem_pieces (List.mem_filter.mp h).1

namespace Piece

/-- The piece is no literal, or one whose text has characters, none of which is a slash. -/
def Solid : Piece → Prop
  | element (.literal text _) => text ≠ [] ∧ '/' ∉ text
  | _ => True

end Piece

/-- The elements that chunks spell have no empty literal and no slash in a literal. -/
theorem solid_of_spelled
    (h : List.Forall₂ (Element.Spelling raw) (chunks path) ess) :
    ∀ es ∈ ess, ∀ e ∈ es, (Piece.element e).Solid := by
  intro es hes e he
  obtain ⟨chunk, hchunk, hspelling⟩ := exists_left_of_mem h hes
  obtain ⟨parts, hparts, rfl⟩ := hspelling.spelled
  obtain ⟨part, hpart, hspells⟩ := exists_left_of_mem hparts.flip he
  cases e with
  | parameter name reach => trivial
  | wildcard => trivial
  | literal text r =>
      obtain ⟨_, rfl, hne, _⟩ := hspells
      refine ⟨hne, ?_⟩
      intro hslash
      exact slash_notMem_chunk hchunk (List.mem_flatten.mpr ⟨part, hpart, hslash⟩)

theorem solid_way (h : List.Forall₂ (Element.Spelling raw) (chunks path) ess)
    (hway : way ∈ waysOf path ess) :
    ∀ p ∈ pieces way, p.Solid :=
  forall_mem_pieces_way trivial trivial trivial (solid_of_spelled h) hway

end Template

end PathRouting

import PathRouting.Proofs.Language

/-! # The outcome of reading a template

Reading a path goes through stages, and the first one that objects decides: a colon behind a
slash, a chunk that cannot be read, a name that comes twice. With plain literals nothing else
can go wrong, for the patterns that are written are always patterns. -/

namespace PathRouting

theorem Text.occurs_iff {pattern t : Text} : occurs pattern t = true ↔ pattern <:+: t := by
  induction t with
  | nil => simp [occurs]
  | cons c cs ih =>
      rw [occurs, Bool.or_eq_true, ih, List.isPrefixOf_iff_prefix, List.infix_cons_iff]

/-- The first member at which a function fails decides the result for a list. -/
theorem mapM_cases {α β ε : Type} (f : α → Except ε β) (xs : List α) :
    (∃ before x after e, xs = before ++ x :: after ∧ (∀ y ∈ before, ∃ b, f y = .ok b) ∧
      f x = .error e ∧ xs.mapM f = .error e) ∨ ∃ ys, xs.mapM f = .ok ys := by
  induction xs with
  | nil => exact .inr ⟨[], rfl⟩
  | cons x xs ih =>
      cases hx : f x with
      | error e =>
          refine .inl ⟨[], x, xs, e, rfl, by simp, hx, ?_⟩
          rw [List.mapM_cons, hx]
          rfl
      | ok b =>
          rcases ih with ⟨before, y, after, e, rfl, hbefore, hy, hrest⟩ | ⟨ys, hrest⟩
          · refine .inl ⟨x :: before, y, after, e, rfl, ?_, hy, ?_⟩
            · intro z hz
              rcases List.mem_cons.mp hz with rfl | hz
              · exact ⟨b, hx⟩
              · exact hbefore z hz
            · rw [List.mapM_cons, hx, hrest]
              rfl
          · refine .inr ⟨b :: ys, ?_⟩
            rw [List.mapM_cons, hx, hrest]
            rfl

theorem Segment.ofChunk_error {path chunk : Text} {raw : Bool} {e : RouteError}
    (h : ofChunk path raw chunk = .error e) :
    e = .misplacedBrackets chunk path ∨ e = .starBesideBracket chunk path := by
  simp only [ofChunk] at h
  split at h
  · exact .inl (Except.error.inj h).symm
  · split at h
    · exact .inr (Except.error.inj h).symm
    · split at h
      · simp at h
      · exact .inl (Except.error.inj h).symm

/-- The path that a chunk belongs to is named in errors only. -/
theorem Segment.exists_ofChunk_ok {path path' chunk : Text} {raw : Bool}
    (h : ∃ s, ofChunk path raw chunk = .ok s) : ∃ s, ofChunk path' raw chunk = .ok s := by
  obtain ⟨s, hs⟩ := h
  unfold ofChunk at hs ⊢
  split at hs
  · simp at hs
  · rename_i hcount
    split at hs
    · simp at hs
    · rename_i hstar
      rw [if_neg hcount, if_neg hstar]
      cases hread : (plain? raw chunk).or (scanned? raw chunk) with
      | none => simp [hread] at hs
      | some s' => exact ⟨s', rfl⟩

namespace Template

def namesOf (ess : List (List Element)) : List Text := ess.flatMap (·.flatMap Element.names)

/-- How the reading of a path with plain literals ends. -/
inductive Outcome (path : Text) : Except RouteError Template → Prop where
  /-- A colon stands behind a slash. -/
  | colonParameter (hcolon : ['/', ':'] <:+: path) :
    Outcome path (.error (.colonParameter path))
  /-- Some chunk cannot be read; it is the leftmost one that says why. -/
  | rejectedChunk (hcolon : ¬['/', ':'] <:+: path) (before after : List Text) (chunk : Text)
      (e : RouteError) (hchunks : chunks path = before ++ chunk :: after)
      (hbefore : ∀ c ∈ before, ∃ s, Segment.ofChunk path false c = .ok s)
      (hchunk : Segment.ofChunk path false chunk = .error e)
      (herror : e = .misplacedBrackets chunk path ∨ e = .starBesideBracket chunk path) :
    Outcome path (.error e)
  /-- All chunks can be read, and a name comes twice. -/
  | repeatedName (hcolon : ¬['/', ':'] <:+: path) (ess : List (List Element))
      (hread : ∀ c ∈ chunks path, ∃ s, Segment.ofChunk path false c = .ok s)
      (hspelled : List.Forall₂ (Element.Spelling false) (chunks path) ess)
      (hnames : ¬(namesOf ess).Nodup) :
    Outcome path (.error (.repeatedName path))
  /-- Nothing is wrong, and the names are those that the chunks spell. -/
  | template (hcolon : ¬['/', ':'] <:+: path) (ess : List (List Element)) (t : Template)
      (hread : ∀ c ∈ chunks path, ∃ s, Segment.ofChunk path false c = .ok s)
      (hspelled : List.Forall₂ (Element.Spelling false) (chunks path) ess)
      (hpath : t.path = path) (hnames : t.names = namesOf ess) (hnodup : t.names.Nodup) :
    Outcome path (.ok t)

theorem names_of_segments (segments : List Segment) :
    segments.flatMap Segment.names = namesOf (segments.map Segment.elements) := by
  rw [namesOf, List.flatMap_map, funext Segment.names_eq]

variable {policy : Policy} {path : Text}

theorem ofPath_of_colon (h : ['/', ':'] <:+: path) :
    ofPath policy path = .error (.colonParameter path) := by
  simp only [ofPath, Text.occurs_iff.mpr h, ite_true]
  rfl

theorem ofPath_of_rejected {e : RouteError} (hcolon : ¬['/', ':'] <:+: path)
    (h : (chunks path).mapM (Segment.ofChunk path policy.rawLiterals) = .error e) :
    ofPath policy path = .error e := by
  simp only [ofPath, Text.occurs_iff, hcolon, ite_false, h]
  rfl

/-- With plain literals a path whose chunks can be read makes a template unless a name comes
twice. -/
theorem ofPath_of_segments (hraw : policy.rawLiterals = false) {segments : List Segment}
    (hcolon : ¬['/', ':'] <:+: path)
    (h : (chunks path).mapM (Segment.ofChunk path false) = .ok segments) :
    ofPath policy path =
      if (segments.flatMap Segment.names).Nodup then
        .ok ⟨path, segments, segments.flatMap Segment.names,
          (waysOf path (segments.map Segment.elements)).map (variantOf policy path)⟩
      else .error (.repeatedName path) := by
  have hcompile := compile_eq policy path (allEscaped_of_spelling (spelled_of_mapM h))
  simp only [ofPath, Text.occurs_iff, hcolon, ite_false, hraw, h, bind, Except.bind, pure,
    Except.pure, hcompile, ite_not]
  split <;> rfl

/-- With plain literals a path makes a template if no colon stands behind a slash, all its chunks
can be read, and no name comes twice. -/
theorem exists_ofPath_iff (hraw : policy.rawLiterals = false) :
    (∃ t, ofPath policy path = .ok t) ↔
      ¬['/', ':'] <:+: path ∧ (∀ c ∈ chunks path, ∃ s, Segment.ofChunk path false c = .ok s) ∧
        ∃ ess, List.Forall₂ (Element.Spelling false) (chunks path) ess ∧ (namesOf ess).Nodup := by
  constructor
  · rintro ⟨t, h⟩
    obtain ⟨hsegments, _, hnames, hnodup, _⟩ := ofPath_eq_ok h
    rw [hraw] at hsegments
    rw [hnames, names_of_segments] at hnodup
    refine ⟨?_, ?_, _, spelled_of_mapM hsegments, hnodup⟩
    · intro hcolon
      simp [ofPath_of_colon hcolon] at h
    · intro c hc
      obtain ⟨s, _, hs⟩ := exists_left_of_mem (forall₂_of_mapM_ok hsegments).flip hc
      exact ⟨s, hs⟩
  · rintro ⟨hcolon, hread, ess, hspelled, hnodup⟩
    rcases mapM_cases (Segment.ofChunk path false) (chunks path) with
      ⟨before, chunk, after, e, hchunks, _, hchunk, _⟩ | ⟨segments, hall⟩
    · obtain ⟨s, hs⟩ := hread chunk (by simp [hchunks])
      simp [hchunk] at hs
    · rw [spelled_unique hspelled (spelled_of_mapM hall), ← names_of_segments] at hnodup
      rw [ofPath_of_segments hraw hcolon hall, if_pos hnodup]
      exact ⟨_, rfl⟩

/-- With plain literals the policy has no say in whether a path makes a template, nor in what its
segments and names are. -/
theorem exists_ofPath_of_ok {t : Template} (hraw : policy.rawLiterals = false)
    (h : ofPath policy path = .ok t) (policy' : Policy) (hraw' : policy'.rawLiterals = false) :
    ∃ t', ofPath policy' path = .ok t' ∧ t'.segments = t.segments ∧ t'.names = t.names := by
  obtain ⟨hsegments, _, hnames, hnodup, _⟩ := ofPath_eq_ok h
  have hcolon : ¬['/', ':'] <:+: path := by
    intro hcolon
    simp [ofPath_of_colon hcolon] at h
  rw [hraw] at hsegments
  rw [hnames] at hnodup
  rw [ofPath_of_segments hraw' hcolon hsegments, if_pos hnodup]
  exact ⟨_, rfl, rfl, hnames.symm⟩

/-- With plain literals the reading of a path ends as its stages say, and never because the
patterns that are written would not be patterns. -/
theorem outcome_ofPath (hraw : policy.rawLiterals = false) :
    Outcome path (ofPath policy path) ∧ ∀ p, ofPath policy path ≠ .error (.invalidPattern p) := by
  by_cases hcolon : ['/', ':'] <:+: path
  · rw [ofPath_of_colon hcolon]
    exact ⟨.colonParameter hcolon, by simp⟩
  · rcases mapM_cases (Segment.ofChunk path false) (chunks path) with
      ⟨before, chunk, after, e, hchunks, hbefore, hchunk, hall⟩ | ⟨segments, hall⟩
    · have herror := Segment.ofChunk_error hchunk
      rw [ofPath_of_rejected hcolon (hraw ▸ hall)]
      refine ⟨.rejectedChunk hcolon before after chunk e hchunks hbefore hchunk herror, ?_⟩
      rcases herror with rfl | rfl <;> simp
    · have hread : ∀ c ∈ chunks path, ∃ s, Segment.ofChunk path false c = .ok s := by
        intro c hc
        obtain ⟨s, _, hs⟩ := exists_left_of_mem (forall₂_of_mapM_ok hall).flip hc
        exact ⟨s, hs⟩
      have hspelled := spelled_of_mapM hall
      rw [ofPath_of_segments hraw hcolon hall, names_of_segments]
      split
      · rename_i hnodup
        exact ⟨.template hcolon _ _ hread hspelled rfl rfl hnodup, by simp⟩
      · rename_i hrepeated
        exact ⟨.repeatedName hcolon _ hread hspelled hrepeated, by simp⟩

theorem outcome_ofPath_unclosed :
    ofPath {} "/<x>/<y/<x>".toList = .error (.misplacedBrackets "<y".toList "/<x>/<y/<x>".toList) ∧
      Outcome "/<x>/<y/<x>".toList (ofPath {} "/<x>/<y/<x>".toList) := by
  refine ⟨by rfl, ?_⟩
  exact (outcome_ofPath rfl).1

end Template

end PathRouting

import PathRouting.Proofs.SubPaths
import PathRouting.Registry

/-! # Paths as requests

The text of a path follows the path: a literal stands for itself, a parameter takes its own name in
brackets, a wildcard its own stars, and so does the star behind the last parameter of a path that
covers everything below. So a route that answers the text of its path outright answers nothing but
what its template accepts, unless an empty chunk or a line break is in the way. -/

namespace PathRouting

theorem Text.flatMap_pieces (sep : Char) (s : Text) :
    (pieces sep s).flatMap (sep :: ·) = sep :: s := by
  induction s with
  | nil => rfl
  | cons c cs ih =>
      obtain ⟨first, rest, hpieces, hmore⟩ := pieces_cons sep c cs
      rw [hpieces, List.flatMap_cons, List.cons_append, List.cons.injEq] at ih
      rw [hmore]
      by_cases hc : c = sep
      · simp [hc, ih.2]
      · simp [hc, ih.2]

/-- A text ends where its last piece does. -/
theorem Text.getLast?_pieces_iff {sep : Char} {s : Text} :
    (pieces sep s).getLast? = some [] ↔ (sep :: s).getLast? = some sep := by
  obtain ⟨init, last, happend⟩ := exists_pieces_append sep s
  have hpieces : pieces sep s = init ++ [last] := by simpa using happend [] List.not_mem_nil
  have hlast : sep ∉ last := notMem_of_mem_pieces (t := s) (by simp [hpieces])
  rw [← flatMap_pieces, hpieces, List.getLast?_concat, List.flatMap_append, List.flatMap_singleton]
  rcases last.eq_nil_or_concat' with rfl | ⟨front, c, rfl⟩
  · simp
  · rw [← List.cons_append, ← List.append_assoc, List.getLast?_concat]
    simp only [Option.some.injEq, List.append_eq_nil_iff, List.cons_ne_self, and_false, false_iff]
    rintro rfl
    simp at hlast

namespace Template

variable {policy : Policy} {path s u : Text} {raw : Bool} {e : Element} {es : List Element}
  {ess : List (List Element)} {ps : List Text}

/-! ## Chunks -/

def StandsFor (policy : Policy) (path t : Text) (es : List Element) : Prop :=
  HasCut policy path (es.map .element) t

/-- An element stands for the text that spells it. -/
theorem takes_of_spells (h : e.Spells raw u) (hslash : '/' ∉ u) (hnewline : '\n' ∉ u) :
    e.Takes policy u := by
  cases e with
  | literal text r =>
      obtain ⟨_, rfl, _⟩ := h
      exact List.forall₂_same.mpr fun c _ => policy.same_refl c
  | wildcard => exact hnewline
  | parameter name reach =>
      have hne : u ≠ [] := by simp [h.1]
      cases reach with
      | chunk => exact ⟨hne, hslash⟩
      | path => exact ⟨hne, hnewline⟩

/-- Elements stand for the text that spells them. -/
theorem standsFor_of_spellAll (h : Element.SpellAll raw es u) (hslash : '/' ∉ u)
    (hnewline : '\n' ∉ u) : StandsFor policy path u es := by
  induction es generalizing u with
  | nil =>
      obtain rfl := Element.spellAll_nil_iff.mp h
      exact hasCut_nil_iff.mpr rfl
  | cons e es ih =>
      obtain ⟨v, w, hv, hw, rfl⟩ := Element.spellAll_cons_iff.mp h
      rw [List.mem_append, not_or] at hslash hnewline
      exact hasCut_cons_iff.mpr ⟨v, w, rfl, takes_of_spells hv hslash.1 hnewline.1,
        ih hw hslash.2 hnewline.2⟩

/-- What ends in a closing bracket spells a parameter, which takes a star behind it, too. -/
theorem takes_star {reach : Reach} (h : e.Spells raw (u ++ [reach.closing])) (hslash : '/' ∉ u)
    (hnewline : '\n' ∉ u) : e.Takes policy (u ++ [reach.closing, '*']) := by
  have hmem : reach.closing ∈ u ++ [reach.closing] := by simp
  have hplain : ∀ c ∈ [reach.closing, '*'], c ≠ '/' ∧ c ≠ '\n' := by
    cases reach <;> simp [Reach.closing]
  cases e with
  | literal text r =>
      have hdelimiter := (h.2.2.2 _ hmem).2
      simp [Element.closing_isDelimiter] at hdelimiter
  | wildcard => exact absurd (h.2 _ hmem) (Element.closing_ne_star reach)
  | parameter name reach' =>
      have hmore (c : Char) (hc : c = '/' ∨ c = '\n') : c ∉ [reach.closing, '*'] := by
        intro hmem
        obtain ⟨hne, hne'⟩ := hplain c hmem
        exact hc.elim hne hne'
      cases reach' with
      | chunk => exact ⟨by simp, by simp [hslash, hmore]⟩
      | path => exact ⟨by simp, by simp [hnewline, hmore]⟩

/-- So the elements of a chunk stand for it with a star behind it, if it ends in a parameter. -/
theorem standsFor_of_spellAll_star {reach : Reach}
    (h : Element.SpellAll raw es (u ++ [reach.closing])) (hslash : '/' ∉ u)
    (hnewline : '\n' ∉ u) :
    StandsFor policy path (u ++ [reach.closing, '*']) es := by
  induction es generalizing u with
  | nil =>
      simp at h
  | cons e es ih =>
      obtain ⟨v, w, hv, hw, hwhole⟩ := Element.spellAll_cons_iff.mp h
      rw [StandsFor, List.map_cons, hasCut_cons_iff]
      rcases w.eq_nil_or_concat' with rfl | ⟨w, c, rfl⟩
      · obtain rfl : v = u ++ [reach.closing] := by simpa using hwhole
        refine ⟨_, [], List.append_nil _, takes_star hv hslash hnewline, ?_⟩
        exact standsFor_of_spellAll hw List.not_mem_nil List.not_mem_nil
      · rw [← List.append_assoc] at hwhole
        obtain ⟨rfl, hc⟩ := List.append_inj' hwhole rfl
        obtain rfl : c = reach.closing := by simpa using hc
        rw [List.mem_append, not_or] at hslash hnewline
        refine ⟨v, _, (List.append_assoc ..).symm, takes_of_spells hv hslash.1 hnewline.1, ?_⟩
        exact ih hw hslash.2 hnewline.2

theorem forall₂_standsFor_of_spelled {texts : List Text}
    (hspelled : List.Forall₂ (Element.Spelling raw) texts ess)
    (htexts : ∀ t ∈ texts, '/' ∉ t ∧ '\n' ∉ t) :
    List.Forall₂ (StandsFor policy path) texts ess := by
  have hboth := (List.forall₂_and_left _ _).mpr ⟨htexts, hspelled⟩
  apply hboth.imp
  intro t es h
  exact standsFor_of_spellAll h.2.spelled h.1.1 h.1.2

theorem newline_notMem_of_mem_pieces {p : Text} (hnewline : '\n' ∉ s)
    (hp : p ∈ Text.pieces '/' s) : '\n' ∉ p := by
  intro hmem
  have hwhole : '\n' ∈ (Text.pieces '/' s).flatMap ('/' :: ·) :=
    List.mem_flatMap.mpr ⟨p, hp, List.mem_cons_of_mem _ hmem⟩
  rw [Text.flatMap_pieces] at hwhole
  simp [hnewline] at hwhole

theorem filter_pieces_slash (s : Text) :
    (Text.pieces '/' ('/' :: s)).filter (!·.isEmpty) =
      (Text.pieces '/' s).filter (!·.isEmpty) := by
  have hsplit : Text.pieces '/' ('/' :: s) = [[]] ++ Text.pieces '/' s :=
    Text.pieces_append '/' [] s
  rw [hsplit]
  rfl

theorem pieces_apart (hnewline : '\n' ∉ s) :
    ∀ p ∈ Text.pieces '/' s, '/' ∉ p ∧ '\n' ∉ p :=
  fun _ hp => ⟨Text.notMem_of_mem_pieces hp, newline_notMem_of_mem_pieces hnewline hp⟩

/-- The last of the texts between slashes stands for its chunk with the star behind it. -/
theorem forall₂_standsFor_star {r : Text} {reach : Reach}
    (hspelled : List.Forall₂ (Element.Spelling raw) (chunks ('/' :: (r ++ [reach.closing]))) ess)
    (hnewline : '\n' ∉ r) :
    List.Forall₂ (StandsFor policy path)
      ((Text.pieces '/' (r ++ [reach.closing, '*'])).filter (!·.isEmpty)) ess := by
  have hplain : coversSubPaths ('/' :: r ++ [reach.closing]) = false :=
    coversSubPaths_eq_false_of_getLast? List.getLast?_concat (Element.closing_ne_star reach)
  have hclosing : '/' ∉ [reach.closing] ∧ '/' ∉ [reach.closing, '*'] ∧ '\n' ∉ [reach.closing] := by
    cases reach <;> decide
  obtain ⟨init, last, happend⟩ := Text.exists_pieces_append '/' r
  have hsolid (t : Text) : [last ++ reach.closing :: t].filter (!·.isEmpty) =
      [last ++ reach.closing :: t] := by simp
  have hpieces := happend _ hclosing.1
  have hapart := pieces_apart (s := r ++ [reach.closing]) (by simp [hnewline, hclosing.2.2])
  rw [hpieces] at hapart
  rw [← List.cons_append, chunks, hplain, if_neg Bool.false_ne_true, List.cons_append,
    filter_pieces_slash, hpieces, List.filter_append] at hspelled
  rw [happend _ hclosing.2.1, List.filter_append]
  obtain ⟨front, back, rfl, hfront, hback⟩ := exists_append_of_forall₂ hspelled
  have hfirst : List.Forall₂ (StandsFor policy path) (init.filter (!·.isEmpty)) front := by
    apply forall₂_standsFor_of_spelled hfront
    intro p hp
    exact hapart p (List.mem_append_left _ (List.mem_filter.mp hp).1)
  apply List.rel_append hfirst
  have hlast := hapart (last ++ [reach.closing]) (by simp)
  simp only [List.mem_append, not_or] at hlast
  rw [hsolid] at hback ⊢
  cases hback with
  | cons hes hnil =>
      cases hnil
      exact .cons (standsFor_of_spellAll_star hes.spelled hlast.1.1 hlast.2.1) .nil

/-- The texts between the slashes of a path stand for its chunks, a star behind the last parameter
included. -/
theorem forall₂_standsFor (hspelled : List.Forall₂ (Element.Spelling raw) (chunks ('/' :: s)) ess)
    (hnewline : '\n' ∉ s) :
    List.Forall₂ (StandsFor policy path) ((Text.pieces '/' s).filter (!·.isEmpty)) ess := by
  cases hcovers : coversSubPaths ('/' :: s) with
  | false =>
      rw [chunks, hcovers, if_neg Bool.false_ne_true, filter_pieces_slash] at hspelled
      apply forall₂_standsFor_of_spelled hspelled
      intro p hp
      exact pieces_apart hnewline p (List.mem_filter.mp hp).1
  | true =>
      obtain ⟨r, reach, hpath⟩ := coversSubPaths_iff.mp hcovers
      cases r with
      | nil => cases reach <;> simp [Reach.closing] at hpath
      | cons c r =>
          obtain ⟨rfl, _⟩ := List.cons.inj hpath
          obtain rfl : s = r ++ [reach.closing] ++ ['*'] := (List.cons.inj hpath).2
          have hchunks : chunks ('/' :: (r ++ [reach.closing] ++ ['*'])) =
              chunks ('/' :: (r ++ [reach.closing])) := chunks_star ('/' :: r) reach
          rw [hchunks] at hspelled
          rw [List.append_assoc, List.singleton_append]
          exact forall₂_standsFor_star hspelled fun hmem => hnewline (by simp [hmem])

/-! ## Paths -/

def legs (ess : List (List Element)) : List Piece :=
  ess.flatMap fun es => .separator :: es.map .element

theorem stem_eq_legs (h : ess ≠ []) : stem ess = legs ess := by
  induction ess with
  | nil => exact absurd rfl h
  | cons es ess ih =>
      rw [legs, List.flatMap_cons, ← legs]
      by_cases hess : ess = []
      · simp [hess, stem_singleton, legs]
      · rw [stem_cons hess, ih hess]

/-- If slashes are merged, one more of them may stand before chunks and their end. -/
theorem hasCut_slash_cons (hmerge : policy.mergeSlashes = true) (hne : u ≠ [])
    (h : HasCut policy path (legs ess ++ [.suffix]) u) :
    HasCut policy path (legs ess ++ [.suffix]) ('/' :: u) := by
  have hlonger {t : Text} (ht : policy.IsSeparator t) : policy.IsSeparator ('/' :: t) := by
    rw [Policy.IsSeparator, if_pos hmerge] at ht ⊢
    exact ⟨by simp, List.forall_mem_cons.mpr ⟨rfl, ht.2⟩⟩
  cases ess with
  | nil =>
      have htakes := (policy.isSuffix_iff path u).mp (hasCut_singleton_iff.mp h)
      apply hasCut_singleton_iff.mpr
      apply (policy.isSuffix_iff path _).mpr
      cases htail : policy.tail path with
      | nothing =>
          rw [htail] at htakes
          exact absurd htakes hne
      | slash =>
          rw [htail] at htakes
          exact hlonger htakes
      | optionalSlash =>
          rw [htail] at htakes
          exact .inr (hlonger (htakes.resolve_left hne))
  | cons es ess =>
      obtain ⟨t, rest, rfl, ht, hrest⟩ := hasCut_cons_iff.mp h
      exact hasCut_cons_iff.mpr ⟨'/' :: t, rest, rfl, hlonger ht, hrest⟩

/-- Chunks and their end are followed by the texts that stand for the chunks, with a slash before
each of them. An empty text may only be the last of them unless slashes are merged. -/
theorem hasCut_legs
    (hempty : policy.mergeSlashes = true ∨ ¬['/', '/'] <:+: ps.flatMap ('/' :: ·))
    (hchunks : List.Forall₂ (StandsFor policy path) (ps.filter (!·.isEmpty)) ess)
    (hend : if ps.getLast? = some [] then policy.tail path = .slash
      else policy.IsSuffix path []) :
    HasCut policy path (legs ess ++ [.suffix]) (ps.flatMap ('/' :: ·)) := by
  induction ps generalizing ess with
  | nil =>
      cases hchunks
      exact hasCut_singleton_iff.mpr hend
  | cons p ps ih =>
      have hrest : policy.mergeSlashes = true ∨ ¬['/', '/'] <:+: ps.flatMap ('/' :: ·) := by
        apply hempty.imp_right
        apply mt
        intro hinfix
        exact hinfix.trans (List.suffix_append _ _).isInfix
      cases p with
      | nil =>
          cases ps with
          | nil =>
              cases hchunks
              apply hasCut_singleton_iff.mpr
              apply (policy.isSuffix_iff path _).mpr
              rw [show policy.tail path = .slash from hend]
              exact policy.isSeparator_slash
          | cons q ps =>
              have hmerge : policy.mergeSlashes = true := by
                apply hempty.resolve_right
                rw [not_not]
                exact ⟨[], q ++ ps.flatMap ('/' :: ·), rfl⟩
              apply hasCut_slash_cons hmerge (by simp)
              exact ih hrest hchunks hend
      | cons c p =>
          cases hchunks with
          | @cons _ es _ ess hchunk hchunks =>
              have hend' : if ps.getLast? = some [] then policy.tail path = .slash
                  else policy.IsSuffix path [] := by
                cases ps with
                | nil => exact hend
                | cons q ps => exact hend
              have hps := ih hrest hchunks hend'
              have hfirst : HasCut policy path (.separator :: es.map .element) ('/' :: c :: p) :=
                hasCut_cons_iff.mpr ⟨['/'], _, rfl, policy.isSeparator_slash, hchunk⟩
              rw [legs, List.flatMap_cons, ← legs, List.append_assoc]
              exact hasCut_append_iff.mpr ⟨_, _, rfl, hfirst, hps⟩

/-- What may be behind the last of the texts between slashes. -/
theorem suffix_of_pieces (hroot : ('/' :: s) ≠ ['/']) :
    if (Text.pieces '/' s).getLast? = some [] then policy.tail ('/' :: s) = .slash
    else policy.IsSuffix ('/' :: s) [] := by
  split
  · rename_i hlast
    rw [Policy.tail, if_neg hroot, if_pos (Text.getLast?_pieces_iff.mp hlast)]
  · rename_i hlast
    exact isSuffix_nil (mt Text.getLast?_pieces_iff.mpr hlast)

/-- A path without chunks is a run of slashes. -/
theorem forall_slash_of_pieces (h : (Text.pieces '/' s).filter (!·.isEmpty) = []) :
    ∀ c ∈ s, c = '/' := by
  intro c hc
  by_contra hne
  obtain ⟨p, hp, hmem⟩ := Text.exists_mem_pieces hne hc
  have hempty := List.filter_eq_nil_iff.mp h p hp
  simp [List.ne_nil_of_mem hmem] at hempty

/-- A run of slashes follows itself, being the separator and the end. -/
theorem hasCut_slashes (hempty : policy.mergeSlashes = true ∨ ¬['/', '/'] <:+: '/' :: s)
    (hslashes : ∀ c ∈ s, c = '/') : HasCut policy ('/' :: s) (pieces []) ('/' :: s) := by
  apply hasCut_cons_iff.mpr
  refine ⟨['/'], s, rfl, policy.isSeparator_slash, hasCut_singleton_iff.mpr ?_⟩
  cases s with
  | nil => rfl
  | cons c s =>
      have hc : c = '/' := hslashes c (by simp)
      subst hc
      have hmerge : policy.mergeSlashes = true := by
        apply hempty.resolve_right
        rw [not_not]
        exact ⟨[], s, rfl⟩
      have hlast : ('/' :: '/' :: s).getLast? = some '/' := by
        have hall : ∀ c ∈ '/' :: '/' :: s, c = '/' := List.forall_mem_cons.mpr ⟨rfl, hslashes⟩
        rw [List.getLast?_eq_some_getLast (List.cons_ne_nil _ _), hall _ (List.getLast_mem _)]
      apply (policy.isSuffix_iff _ _).mpr
      rw [Policy.tail, if_neg (by simp), if_pos hlast, Tail.Takes, Policy.IsSeparator,
        if_pos hmerge]
      exact ⟨by simp, hslashes⟩

/-- A path follows itself. -/
theorem hasCut_self (hspelled : List.Forall₂ (Element.Spelling raw) (chunks ('/' :: s)) ess)
    (hnewline : '\n' ∉ s)
    (hempty : policy.mergeSlashes = true ∨ ¬['/', '/'] <:+: '/' :: s) :
    HasCut policy ('/' :: s) (pieces ess) ('/' :: s) := by
  have hchunks : List.Forall₂ (StandsFor policy ('/' :: s))
      ((Text.pieces '/' s).filter (!·.isEmpty)) ess := forall₂_standsFor hspelled hnewline
  by_cases hess : ess = []
  · subst hess
    exact hasCut_slashes hempty (forall_slash_of_pieces (List.forall₂_nil_right_iff.mp hchunks))
  · have hroot : ('/' :: s) ≠ ['/'] := by
      intro hroot
      obtain rfl : s = [] := (List.cons.inj hroot).2
      exact hess (List.forall₂_nil_left_iff.mp hchunks)
    rw [← Text.flatMap_pieces '/' s] at hempty
    have hcut := hasCut_legs hempty hchunks (suffix_of_pieces hroot)
    rwa [Text.flatMap_pieces, ← stem_eq_legs hess, ← pieces_eq_stem] at hcut

end Template

/-- With plain literals, a path in one line that begins with a slash, and has an empty chunk only if
slashes are merged, is accepted by its own template. So the route answers just what its template
accepts. -/
theorem Route.accepts_eq_template {policy : Policy} {path : Text} {r : Route}
    (hraw : policy.rawLiterals = false) (h : Template.ofPath policy path = .ok r.template)
    (hslash : path.head? = some '/') (hnewline : '\n' ∉ path)
    (hempty : policy.mergeSlashes = true ∨ ¬['/', '/'] <:+: path) :
    r.template.accepts path = true ∧ ∀ u, r.accepts u = r.template.accepts u := by
  obtain ⟨s, rfl⟩ := List.head?_eq_some_iff.mp hslash
  obtain ⟨ess, hmade⟩ := Template.exists_madeOf hraw h
  have hs : '\n' ∉ s := fun hmem => hnewline (List.mem_cons_of_mem _ hmem)
  have hself : r.template.accepts ('/' :: s) = true := by
    rw [hmade.accepts_iff]
    exact ⟨ess, Template.mem_waysOf_iff.mpr (.inl rfl),
      Template.hasCut_self hmade.spelled hs hempty⟩
  refine ⟨hself, ?_⟩
  intro u
  have hpath : r.path = '/' :: s := hmade.path_eq
  rw [Route.accepts, hpath]
  by_cases hu : u = '/' :: s
  · simp [hu, hself]
  · have hne : ('/' :: s == u) = false := by simpa using Ne.symm hu
    simp [hne]

theorem Route.accepts_eq_template_covering :
    ∃ r : Route, Template.ofPath { mergeSlashes := true } "/v*1//<x>-{y}*".toList = .ok r.template ∧
      r.template.accepts "/v*1//<x>-{y}*".toList = true ∧
        r.accepts "/v21/a/b-c//d".toList = true := by
  have h : (Template.ofPath { mergeSlashes := true } "/v*1//<x>-{y}*".toList).toOption.any
      (·.accepts "/v21/a/b-c//d".toList) = true := by decide +kernel
  obtain ⟨t, ht, haccepts⟩ := exists_ok_of_any h
  obtain ⟨hself, hroute⟩ := Route.accepts_eq_template (r := ⟨.get, t, "show", []⟩) rfl ht
    (by decide) (by decide) (.inl rfl)
  exact ⟨⟨.get, t, "show", []⟩, ht, hself, by rw [hroute, haccepts]⟩

end PathRouting

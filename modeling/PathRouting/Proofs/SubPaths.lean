import PathRouting.Proofs.Acceptance
import PathRouting.Proofs.Chunks

/-! # Paths that cover everything below

A path that ends in a parameter and a star stands for what the path without the star stands for,
and for everything below. The two ways to follow it are those of two other paths: the one without
the star, and the one with a slash before the star. -/

namespace PathRouting

def Policy.ignoring (policy : Policy) (ignore : Bool) : Policy :=
  { policy with ignoreTrailingSlashes := ignore }

namespace Template

variable {policy : Policy} {path path' s : Text}

theorem colon_infix_concat_iff {c : Char} (hc : c ≠ ':') :
    ['/', ':'] <:+: s ++ [c] ↔ ['/', ':'] <:+: s := by
  rw [List.infix_concat_iff, or_iff_right]
  rw [List.suffix_concat_iff]
  rintro (h | ⟨t, h, _⟩)
  · simp at h
  · have hlast := congrArg List.getLast? h
    rw [List.getLast?_concat] at hlast
    exact hc (Option.some.inj hlast).symm

/-! ## Patterns that do not depend on the path -/

theorem ne_root (h : path.getLast? ≠ some '/') : path ≠ ['/'] := by
  rintro rfl
  exact h rfl

theorem tail_of_getLast? (h : path.getLast? ≠ some '/') :
    policy.tail path = if policy.ignoreTrailingSlashes then .optionalSlash else .nothing := by
  rw [Policy.tail, if_neg (ne_root h), if_neg h]

theorem tail_ne_slash (h : path.getLast? ≠ some '/') : policy.tail path ≠ .slash := by
  rw [tail_of_getLast? h]
  split <;> decide

/-- The patterns of chunks are the same for all paths that do not end in a slash. -/
theorem variantOf_congr (h : path.getLast? ≠ some '/') (h' : path'.getLast? ≠ some '/')
    (way : List (List Element)) : variantOf policy path way = variantOf policy path' way := by
  have hroot := ne_root h
  have hroot' := ne_root h'
  have hfragment (g : Grouping) : Piece.fragment policy path g = Piece.fragment policy path' g := by
    funext p
    cases p with
    | suffix => simp [Piece.fragment, suffix, hroot, hroot', h, h']
    | separator => rfl
    | element e => rfl
  have hparts (g : Grouping) (n : Nat) (p : Piece) :
      p.parts policy path g n = p.parts policy path' g n := by
    cases p with
    | suffix => simp [Piece.parts, suffixParts, hroot, hroot', h, h']
    | separator => rfl
    | element e => cases e <;> rfl
  have hpartsFrom (g : Grouping) (n : Nat) (ps : List Piece) :
      partsFrom policy path g n ps = partsFrom policy path' g n ps := by
    induction ps generalizing n with
    | nil => rfl
    | cons p ps ih => rw [partsFrom, partsFrom, hparts, ih]
  simp only [variantOf, patternOf, regexOf, hfragment, hpartsFrom]

/-! ## What the second way stands for -/

variable {ess : List (List Element)} {u v : Text}

theorem newline_notMem_of_slashes {t : Text} (h : ∀ c ∈ t, c = '/') : '\n' ∉ t := by
  intro hnewline
  exact absurd (h '\n' hnewline) (by decide)

theorem isSuffix_nil (h : path.getLast? ≠ some '/') : policy.IsSuffix path [] := by
  have htakes := (policy.tail path).takes_least policy
  rw [Tail.least_of_ne_slash (tail_ne_slash h)] at htakes
  exact (policy.isSuffix_iff path []).mpr htakes

theorem newline_notMem_of_isSuffix {t : Text} (h : policy.IsSuffix path t) : '\n' ∉ t :=
  newline_notMem_of_slashes (Tail.forall_of_takes ((policy.isSuffix_iff path t).mp h)).2

/-- What follows the chunks when everything below is covered: a slash and a text in one line. -/
theorem hasCut_below (h : path.getLast? ≠ some '/') :
    HasCut policy path [.separator, .element .wildcard, .suffix] u ↔
      ∃ w, u = '/' :: w ∧ '\n' ∉ w := by
  simp only [hasCut_cons_iff, hasCut_nil_iff]
  constructor
  · rintro ⟨t, _, rfl, ht, w, _, rfl, hw, suffix, _, rfl, hsuffix, rfl⟩
    obtain ⟨hne, hslashes⟩ := Policy.forall_of_isSeparator ht
    obtain ⟨c, more, rfl⟩ := List.exists_cons_of_ne_nil hne
    have hmore : '\n' ∉ more :=
      newline_notMem_of_slashes fun d hd => hslashes d (List.mem_cons_of_mem c hd)
    have hend := newline_notMem_of_isSuffix hsuffix
    refine ⟨more ++ w ++ suffix, ?_, ?_⟩
    · rw [hslashes c (by simp)]
      simp
    · have hmiddle : '\n' ∉ w := hw
      simp [hmore, hmiddle, hend]
  · rintro ⟨w, rfl, hw⟩
    exact ⟨['/'], w, rfl, policy.isSeparator_slash, w, [], by simp, hw, [], [], rfl,
      isSuffix_nil h, rfl⟩

/-- Without a further slash at the end, chunks are followed as far as they go. -/
theorem hasCut_strict_iff (h : path.getLast? ≠ some '/') (path' : Text) :
    HasCut (policy.ignoring false) path (pieces ess) v ↔ HasCut policy path' (stem ess) v := by
  have hstem (front : Text) : HasCut (policy.ignoring false) path (stem ess) front ↔
      HasCut policy path' (stem ess) front := by
    apply hasCut_congr
    apply forall_mem_stem
    · exact fun t => Iff.rfl
    · intro es _ e _ t
      cases e <;> rfl
  have hsuffix (back : Text) : HasCut (policy.ignoring false) path [.suffix] back ↔ back = [] := by
    rw [hasCut_singleton_iff, Piece.Takes, Policy.isSuffix_iff, tail_of_getLast? h]
    rfl
  rw [pieces_eq_stem, hasCut_append_iff]
  simp [hstem, hsuffix]

theorem pieces_covering (hess : ess ≠ []) :
    pieces (ess ++ [[.wildcard]]) = stem ess ++ [.separator, .element .wildcard, .suffix] := by
  rw [pieces_eq_stem, stem_concat hess, List.append_assoc]
  rfl

/-- With a chunk behind them that covers everything, chunks are followed by what follows them
without it, a slash, and a text in one line. -/
theorem hasCut_covering_iff (h : path.getLast? ≠ some '/') (h' : path'.getLast? ≠ some '/')
    (hess : ess ≠ []) :
    HasCut policy path (pieces (ess ++ [[.wildcard]])) u ↔
      ∃ v w, u = v ++ '/' :: w ∧ HasCut (policy.ignoring false) path' (pieces ess) v ∧
        '\n' ∉ w := by
  rw [pieces_covering hess, hasCut_append_iff]
  simp only [hasCut_below h, hasCut_strict_iff h' path]
  constructor
  · rintro ⟨v, _, rfl, hv, w, rfl, hw⟩
    exact ⟨v, w, rfl, hv, hw⟩
  · rintro ⟨v, w, rfl, hv, hw⟩
    exact ⟨v, _, rfl, hv, w, rfl, hw⟩

/-! ## Templates of the paths -/

variable {t below star : Template}

theorem exists_ofPath_star_iff (hraw : policy.rawLiterals = false) (r : Text) (reach : Reach) :
    (∃ below, ofPath policy (r ++ [reach.closing] ++ ['*']) = .ok below) ↔
      ∃ t, ofPath policy (r ++ [reach.closing]) = .ok t := by
  have hread (path path' : Text) (cs : List Text)
      (h : ∀ c ∈ cs, ∃ s, Segment.ofChunk path false c = .ok s) :
      ∀ c ∈ cs, ∃ s, Segment.ofChunk path' false c = .ok s :=
    fun c hc => Segment.exists_ofChunk_ok (h c hc)
  rw [exists_ofPath_iff hraw, exists_ofPath_iff hraw, chunks_star,
    colon_infix_concat_iff (by decide)]
  exact and_congr_right fun _ => and_congr_left fun _ => ⟨hread _ _ _, hread _ _ _⟩

theorem spelled_slash_star (hs : coversSubPaths s = false)
    (hspelled : List.Forall₂ (Element.Spelling false) (chunks s) ess) :
    List.Forall₂ (Element.Spelling false) (chunks (s ++ ['/', '*'])) (ess ++ [[.wildcard]]) := by
  have hstar : Element.Spelling false ['*'] [.wildcard] :=
    .single ⟨by simp, fun c hc => List.mem_singleton.mp hc⟩
  rw [chunks_slash_star hs]
  exact List.rel_append hspelled (.cons hstar .nil)

theorem exists_ofPath_slash_star (hraw : policy.rawLiterals = false)
    (hs : coversSubPaths s = false) (h : ofPath policy s = .ok t) :
    ∃ star, ofPath policy (s ++ ['/', '*']) = .ok star := by
  obtain ⟨hcolon, hread, ess, hspelled, hnodup⟩ := (exists_ofPath_iff hraw).mp ⟨t, h⟩
  refine (exists_ofPath_iff hraw).mpr ⟨?_, ?_, _, spelled_slash_star hs hspelled, ?_⟩
  · have hconcat : s ++ ['/', '*'] = s ++ ['/'] ++ ['*'] := by simp
    rwa [hconcat, colon_infix_concat_iff (by decide), colon_infix_concat_iff (by decide)]
  · rw [chunks_slash_star hs]
    intro c hc
    rcases List.mem_append.mp hc with hc | hc
    · exact Segment.exists_ofChunk_ok (hread c hc)
    · obtain rfl := List.mem_singleton.mp hc
      exact ⟨.element .wildcard, rfl⟩
  · simpa [namesOf, Element.names] using hnodup

/-- A template with two variants accepts what the templates with one of them accept, and takes the
values out by the first that accepts. -/
theorem answers_of_variants {v v' : Variant} (hbelow : below.variants = [v, v'])
    (ht : t.variants = [v]) (hstar : star.variants = [v']) (hnames : below.names = t.names)
    (hnames' : star.names = t.names) (u : Text) :
    below.accepts u = (t.accepts u || star.accepts u) ∧
      below.params u = if t.accepts u then t.params u else star.params u := by
  cases hv : v.matching.regex.isMatch u <;>
    simp [accepts, params, hbelow, ht, hstar, hnames, hnames', hv]

theorem MadeOf.accepts_iff_of_plain (h : MadeOf policy path t ess)
    (hplain : coversSubPaths path = false) (u : Text) :
    t.accepts u = true ↔ HasCut policy path (pieces ess) u := by
  rw [h.accepts_iff]
  simp [waysOf, hplain]

theorem MadeOf.variants_of_plain (h : MadeOf policy path t ess)
    (hplain : coversSubPaths path = false) : t.variants = [variantOf policy path ess] := by
  rw [h.variants_eq, waysOf, hplain]
  rfl

theorem MadeOf.variants_of_covering (h : MadeOf policy path t ess)
    (hcovers : coversSubPaths path = true) :
    t.variants = [variantOf policy path ess, variantOf policy path (ess ++ [[.wildcard]])] := by
  rw [h.variants_eq, waysOf, hcovers]
  rfl

/-- A path that ends in a parameter makes a template with plain literals just if it does so with a
star behind it, and with the same names. The template with the star accepts what the one without
it accepts, and what follows a path that this one accepts exactly, a slash, and a text in one
line. Its values are those of the path without the star where that is accepted, or else those of
the path with a slash before the star. -/
theorem accepts_below_iff (hraw : policy.rawLiterals = false)
    (hs : ∃ reach : Reach, s.getLast? = some reach.closing) :
    ((∃ below, ofPath policy (s ++ ['*']) = .ok below) ↔ ∃ t, ofPath policy s = .ok t) ∧
    ∀ t, ofPath policy s = .ok t → ∃ below strict star,
      ofPath policy (s ++ ['*']) = .ok below ∧
      ofPath (policy.ignoring false) s = .ok strict ∧
      ofPath policy (s ++ ['/', '*']) = .ok star ∧
      below.names = t.names ∧ ∀ u,
        (below.accepts u = true ↔ t.accepts u = true ∨
          ∃ v w, u = v ++ '/' :: w ∧ strict.accepts v = true ∧ '\n' ∉ w) ∧
        below.params u = if t.accepts u then t.params u else star.params u := by
  obtain ⟨reach, hlast⟩ := hs
  obtain ⟨r, rfl⟩ := List.getLast?_eq_some_iff.mp hlast
  refine ⟨exists_ofPath_star_iff hraw r reach, ?_⟩
  intro t ht
  have hplain := coversSubPaths_eq_false_of_getLast? hlast (Element.closing_ne_star reach)
  obtain ⟨below, hbelow⟩ := (exists_ofPath_star_iff hraw r reach).mpr ⟨t, ht⟩
  obtain ⟨strict, hstrict, _⟩ := exists_ofPath_of_ok hraw ht (policy.ignoring false) hraw
  obtain ⟨star, hstar⟩ := exists_ofPath_slash_star hraw hplain ht
  refine ⟨below, strict, star, hbelow, hstrict, hstar, ?_⟩
  obtain ⟨ess, hmade⟩ := exists_madeOf hraw ht
  have hmadeBelow := madeOf_of_spelled hraw hbelow ((chunks_star r reach).symm ▸ hmade.spelled)
  have hraw' : (policy.ignoring false).rawLiterals = false := hraw
  have hmadeStrict := madeOf_of_spelled hraw' hstrict hmade.spelled
  have hmadeStar := madeOf_of_spelled hraw hstar (spelled_slash_star hplain hmade.spelled)
  have hends : (r ++ [reach.closing]).getLast? ≠ some '/' := by
    rw [hlast]
    cases reach <;> decide
  have hendsBelow : (r ++ [reach.closing] ++ ['*']).getLast? ≠ some '/' := by simp
  have hendsStar : (r ++ [reach.closing] ++ ['/', '*']).getLast? ≠ some '/' := by simp
  have hess : ess ≠ [] := by
    rintro rfl
    exact chunks_ne_nil r reach (List.forall₂_nil_right_iff.mp hmade.spelled)
  have hplainStar := coversSubPaths_slash_star (r ++ [reach.closing])
  -- The two ways to follow the path are the only ones to follow the two others.
  have hvariants := hmadeBelow.variants_of_covering (coversSubPaths_iff.mpr ⟨r, reach, rfl⟩)
  rw [variantOf_congr hendsBelow hends, variantOf_congr hendsBelow hendsStar] at hvariants
  have hnamesBelow : below.names = t.names := by rw [hmadeBelow.names_eq, hmade.names_eq]
  have hnamesStar : star.names = t.names := by
    rw [hmadeStar.names_eq, hmade.names_eq]
    simp [Element.names]
  refine ⟨hnamesBelow, ?_⟩
  intro u
  obtain ⟨haccepts, hparams⟩ := answers_of_variants hvariants (hmade.variants_of_plain hplain)
    (hmadeStar.variants_of_plain hplainStar) hnamesBelow hnamesStar u
  refine ⟨?_, hparams⟩
  rw [haccepts, Bool.or_eq_true, hmadeStar.accepts_iff_of_plain hplainStar,
    hasCut_covering_iff hendsStar hends hess]
  simp only [hmadeStrict.accepts_iff_of_plain hplain]

theorem accepts_below_sub_directory :
    ∃ below t, ofPath {} "/files/{f}*".toList = .ok below ∧
      ofPath {} "/files/{f}".toList = .ok t ∧
      t.accepts "/files/sub/dir//readme.txt".toList = false ∧
      below.accepts "/files/sub/dir//readme.txt".toList = true ∧
      ∃ star, ofPath {} "/files/{f}/*".toList = .ok star ∧
        below.params "/files/sub/dir//readme.txt".toList =
          star.params "/files/sub/dir//readme.txt".toList := by
  have h : (ofPath {} "/files/{f}".toList).toOption.any
      (fun t => !t.accepts "/files/sub/dir//readme.txt".toList) = true := by decide +kernel
  have h' : (ofPath (Policy.ignoring {} false) "/files/{f}".toList).toOption.any
      (·.accepts "/files/sub".toList) = true := by decide +kernel
  obtain ⟨t, ht, hrejects⟩ := exists_ok_of_any h
  obtain ⟨strict, hstrict, haccepts⟩ := exists_ok_of_any h'
  have hrejects : t.accepts "/files/sub/dir//readme.txt".toList = false := by simpa using hrejects
  obtain ⟨below, strict', star, hbelow, hstrict', hstar, _, hanswers⟩ :=
    (accepts_below_iff rfl ⟨.chunk, rfl⟩).2 t ht
  obtain rfl : strict = strict' := Except.ok.inj (hstrict.symm.trans hstrict')
  obtain ⟨hiff, hparams⟩ := hanswers "/files/sub/dir//readme.txt".toList
  have hbelowAccepts :=
    hiff.mpr (.inr ⟨"/files/sub".toList, "dir//readme.txt".toList, by decide, haccepts, by decide⟩)
  rw [hrejects, if_neg Bool.false_ne_true] at hparams
  exact ⟨below, t, hbelow, ht, hrejects, hbelowAccepts, star, hstar, hparams⟩

end Template

end PathRouting

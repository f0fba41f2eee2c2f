import Mathlib.Data.List.Sort
import PathRouting.Proofs.Twins
import PathRouting.Proofs.Values

/-! # Values and the groups of parameters

A raw literal is put into a pattern as it is, so it may open groups of its own, and it may
make something else of the parenthesis of a parameter. The values are taken in the order of
the groups. They stay with their parameters exactly if the groups that reading the pattern
opens are those that were written for the parameters. -/

namespace PathRouting.Template

open Regex (Bare Twin openings groupText?)

variable {policy : Policy} {path : Text}

def textFrom (policy : Policy) (path : Text) (g : Grouping) (ps : List Piece) : Text :=
  ps.flatMap (Piece.fragment policy path g) ++ ['$']

/-- For every parameter the place of the group that was written for it: the number of
characters from its parenthesis to the end of the pattern. -/
def placesFrom (policy : Policy) (path : Text) : List Piece → List Nat
  | [] => []
  | p :: ps =>
    p.names.map (fun _ => (textFrom policy path .capturing (p :: ps)).length) ++
      placesFrom policy path ps

/-- The places of the groups that were written for the parameters of segments. -/
def parameterPlaces (policy : Policy) (path : Text) (segments : List Segment) : List Nat :=
  placesFrom policy path (pieces (segments.map Segment.elements))

/-- The places of the groups that reading the capturing pattern of segments opens. -/
def openedPlaces (policy : Policy) (path : Text) (segments : List Segment) : List Nat :=
  (openings policy.caseless (patternText policy path .capturing segments)).map Prod.fst

/-- For every parameter of segments the index of the group that was written for it, if
reading the capturing pattern opens a group there. -/
def ownGroups (policy : Policy) (path : Text) (segments : List Segment) : List (Option Nat) :=
  (parameterPlaces policy path segments).map fun place =>
    (openings policy.caseless (patternText policy path .capturing segments)).lookup place

/-- The values of a template stay with their parameters. -/
structure Aligned (policy : Policy) (path : Text) (t : Template) : Prop where
  /-- Every parameter has the group that was written for it. -/
  owned : ∀ way ∈ ways (coversSubPaths path) t.segments, none ∉ ownGroups policy path way
  /-- There are no other groups. -/
  counted : ∀ v ∈ t.variants, v.capturing.regex.groupCount = t.names.length
  /-- The value of a parameter is the decoded text of its own group in the first way in
  which the request path matches. -/
  values : ∀ uri, t.accepts uri = true → ∃ way v slots,
    ((ways (coversSubPaths path) t.segments).zip t.variants).find?
        (fun followed => followed.2.matching.regex.isMatch uri) = some (way, v) ∧
      v.capturing.regex.search uri = some slots ∧
      t.params uri = t.names.zip ((ownGroups policy path way).map fun group =>
        Percent.decode ((group.bind (groupText? uri slots)).getD []))

/-! ## The places of parameters -/

theorem length_placesFrom (policy : Policy) (path : Text) (ps : List Piece) :
    (placesFrom policy path ps).length = (ps.flatMap Piece.names).length := by
  induction ps with
  | nil => rfl
  | cons p ps ih => simp only [placesFrom, List.flatMap_cons, List.length_append,
      List.length_map, ih]

theorem textFrom_cons (policy : Policy) (path : Text) (g : Grouping) (p : Piece)
    (ps : List Piece) :
    textFrom policy path g (p :: ps) = p.fragment policy path g ++ textFrom policy path g ps := by
  rw [textFrom, textFrom, List.flatMap_cons, List.append_assoc]

theorem le_of_mem_placesFrom {ps : List Piece} :
    ∀ place ∈ placesFrom policy path ps,
      place ≤ (textFrom policy path .capturing ps).length := by
  induction ps with
  | nil => simp [placesFrom]
  | cons p ps ih =>
      intro place hplace
      rcases List.mem_append.mp hplace with hplace | hplace
      · obtain ⟨_, _, rfl⟩ := List.mem_map.mp hplace
        exact Nat.le_refl _
      · have hle := ih place hplace
        rw [textFrom_cons, List.length_append]
        omega

theorem pairwise_placesFrom (ps : List Piece) :
    (placesFrom policy path ps).Pairwise (· > ·) := by
  induction ps with
  | nil => exact .nil
  | cons p ps ih =>
      by_cases hnames : p.names = []
      · simpa [placesFrom, hnames] using ih
      · obtain ⟨name, reach, rfl⟩ : ∃ name reach, p = .element (.parameter name reach) := by
          cases p with
          | separator => exact absurd rfl hnames
          | suffix => exact absurd rfl hnames
          | element e =>
              cases e with
              | literal text raw => exact absurd rfl hnames
              | parameter name reach => exact ⟨name, reach, rfl⟩
              | wildcard => exact absurd rfl hnames
        refine List.pairwise_cons.mpr ⟨?_, ih⟩
        intro place hplace
        have hle := le_of_mem_placesFrom place hplace
        rw [textFrom_cons, List.length_append]
        simp only [Piece.fragment, Element.fragment, List.length_append, List.length_cons]
        omega

/-- The texts of the two patterns of pieces only differ in the groups of parameters. -/
theorem twin_textFrom (ps : List Piece) :
    Twin (placesFrom policy path ps) (textFrom policy path .capturing ps)
      (textFrom policy path .plain ps) := by
  induction ps with
  | nil => exact .cons '$' .nil
  | cons p ps ih =>
      rw [textFrom_cons, textFrom_cons]
      cases p with
      | separator => exact ih.append _
      | suffix => exact ih.append _
      | element e =>
          cases e with
          | literal text raw => exact ih.append _
          | wildcard => exact ih.append _
          | parameter name reach =>
              have hplaces : placesFrom policy path (.element (.parameter name reach) :: ps) =
                  ((reach.body ++ ')' :: textFrom policy path .capturing ps).length + 1) ::
                    placesFrom policy path ps := by
                simp [placesFrom, Piece.names, Element.names, textFrom, Piece.fragment,
                  Element.fragment]
              rw [hplaces]
              simpa [Piece.fragment, Element.fragment] using Twin.value reach ih

/-! ## The patterns of a template that has been read -/

theorem bare_escape {text : Text} (h : Bare text) : Bare (Regex.escape text) := by
  have hmem {k c : Char} (hc : c ∈ Regex.escapeChar k) : c = '\\' ∨ c = k := by
    unfold Regex.escapeChar at hc
    split at hc
    · simpa using hc
    · exact .inr (by simpa using hc)
  refine ⟨?_, ?_⟩
  · intro hbrace
    obtain ⟨k, hk, hc⟩ := List.mem_flatMap.mp hbrace
    rcases hmem hc with hc | rfl
    · exact absurd hc (by decide)
    · exact h.1 hk
  · intro hangle
    obtain ⟨k, hk, hc⟩ := List.mem_flatMap.mp hangle
    rcases hmem hc with hc | rfl
    · exact absurd hc (by decide)
    · exact h.2 hk

theorem bare_literal {raw raw' : Bool} {text part : Text}
    (h : (Element.literal text raw').Spells raw part) : Bare text := by
  obtain ⟨_, rfl, _, hplain⟩ := h
  refine ⟨fun hbrace => ?_, fun hangle => ?_⟩
  · exact absurd (hplain _ hbrace).2 (by decide)
  · exact absurd (hplain _ hangle).2 (by decide)

theorem bare_fragment {raw : Bool} {e : Element} {part : Text} (h : e.Spells raw part) :
    Bare (e.fragment .capturing) := by
  cases e with
  | literal text r =>
      cases r with
      | true => exact bare_literal h
      | false => exact bare_escape (bare_literal h)
  | parameter name reach =>
      have hgroup (reach : Reach) : Bare ('(' :: reach.body ++ [')']) := by
        cases reach <;> exact ⟨by decide, by decide⟩
      exact hgroup reach
  | wildcard => exact ⟨by decide, by decide⟩

variable {t : Template} {way : List Segment} {v : Variant}

/-- Every way to follow a template that has been read has elements that have been spelled. -/
theorem exists_spells_way (h : ofPath policy path = .ok t)
    (hway : way ∈ ways (coversSubPaths path) t.segments) :
    ∀ es ∈ way.map Segment.elements, ∀ e ∈ es, ∃ part, e.Spells policy.rawLiterals part := by
  have hmem := List.mem_map_of_mem (f := (·.map Segment.elements)) hway
  rw [map_elements_ways] at hmem
  refine forall_mem_waysOf ?_ ?_ hmem
  · intro e he
    obtain rfl := List.mem_singleton.mp he
    exact ⟨['*'], by simp, by simp⟩
  · intro es hes e he
    exact exists_spells (spelled_of_ofPath h) hes he

theorem bare_patternText (h : ofPath policy path = .ok t)
    (hway : way ∈ ways (coversSubPaths path) t.segments) :
    Bare (patternText policy path .capturing way) := by
  have hseparator : Bare (separator policy) := by
    unfold separator
    split <;> exact ⟨by decide, by decide⟩
  have hsuffix : Bare (suffix policy path) := by
    unfold suffix
    split
    · exact ⟨by decide, by decide⟩
    · split
      · exact hseparator
      · split
        · split <;> exact ⟨by decide, by decide⟩
        · exact ⟨by decide, by decide⟩
  have hpieces : ∀ p ∈ pieces (way.map Segment.elements),
      Bare (p.fragment policy path .capturing) := by
    refine forall_mem_pieces hseparator hsuffix ?_
    intro es hes e he
    obtain ⟨part, hpart⟩ := exists_spells_way h hway es hes e he
    exact bare_fragment hpart
  rw [patternText_eq]
  refine Bare.append (u := ['^']) ⟨by decide, by decide⟩ (Bare.append ?_ ⟨by decide, by decide⟩)
  generalize pieces (way.map Segment.elements) = ps at hpieces
  induction ps with
  | nil => exact ⟨by simp, by simp⟩
  | cons p ps ih =>
      rw [List.flatMap_cons]
      exact (hpieces p (by simp)).append (ih fun p hp => hpieces p (by simp [hp]))

theorem names_way (h : ofPath policy path = .ok t)
    (hway : way ∈ ways (coversSubPaths path) t.segments) :
    (pieces (way.map Segment.elements)).flatMap Piece.names = t.names := by
  have hmem := List.mem_map_of_mem (f := (·.map Segment.elements)) hway
  rw [map_elements_ways] at hmem
  rw [flatMap_names_pieces hmem, (ofPath_eq_ok h).2.2.1, List.flatMap_map]
  congr 1
  funext s
  exact (Segment.names_eq s).symm

theorem variant_eq_ok (h : variant policy path way = .ok v) :
    Regex.read policy.caseless (patternText policy path .plain way) = .ok v.matching.regex ∧
      Regex.read policy.caseless (patternText policy path .capturing way) =
        .ok v.capturing.regex := by
  unfold variant pattern at h
  cases hplain : Regex.read policy.caseless (patternText policy path .plain way) with
  | error e => simp [hplain] at h
  | ok a =>
      cases hcapturing : Regex.read policy.caseless (patternText policy path .capturing way) with
      | error e => simp [hplain, hcapturing] at h
      | ok b =>
          simp only [hplain, hcapturing, Except.ok.injEq] at h
          subst h
          exact ⟨rfl, rfl⟩

/-! ## Groups of parameters and groups that are opened -/

theorem length_openedPlaces (h : ofPath policy path = .ok t)
    (hway : way ∈ ways (coversSubPaths path) t.segments) (hv : variant policy path way = .ok v) :
    (openedPlaces policy path way).length = v.capturing.regex.groupCount := by
  rw [openedPlaces, List.length_map,
    (Regex.groupCount_of_read (bare_patternText h hway) (variant_eq_ok hv).2).1]

theorem length_parameterPlaces (h : ofPath policy path = .ok t)
    (hway : way ∈ ways (coversSubPaths path) t.segments) :
    (parameterPlaces policy path way).length = t.names.length := by
  rw [parameterPlaces, length_placesFrom, names_way h hway]

/-- If every parameter has its own group and there are no others, then the groups that are
opened are those of the parameters. -/
theorem openedPlaces_eq_of_owned (h : ofPath policy path = .ok t)
    (hway : way ∈ ways (coversSubPaths path) t.segments) (hv : variant policy path way = .ok v)
    (howned : none ∉ ownGroups policy path way)
    (hcounted : v.capturing.regex.groupCount = t.names.length) :
    openedPlaces policy path way = parameterPlaces policy path way := by
  have hopened : (openedPlaces policy path way).Pairwise (· > ·) :=
    Regex.pairwise_openings (bare_patternText h hway) (variant_eq_ok hv).2
  have hplaced : (parameterPlaces policy path way).Pairwise (· > ·) := pairwise_placesFrom _
  have hsubset : parameterPlaces policy path way ⊆ openedPlaces policy path way := by
    intro place hplace
    cases hgroup : (openings policy.caseless
        (patternText policy path .capturing way)).lookup place with
    | none => exact absurd (List.mem_map.mpr ⟨place, hplace, hgroup⟩) howned
    | some group =>
        obtain ⟨before, after, heq, _⟩ := List.lookup_eq_some_iff.mp hgroup
        rw [openedPlaces, heq]
        simp
  have hperm := (List.subperm_of_subset hplaced.nodup hsubset).perm_of_length_le (by
    rw [length_openedPlaces h hway hv, hcounted, length_parameterPlaces h hway])
  exact (hperm.eq_of_pairwise' hplaced hopened).symm

/-- Looking up the keys of a list without repetitions gives its values in order. -/
theorem map_lookup_keys {l : List (Nat × Nat)} (h : (l.map Prod.fst).Nodup) :
    (l.map Prod.fst).map (l.lookup ·) = (l.map Prod.snd).map some := by
  induction l with
  | nil => rfl
  | cons o l ih =>
      obtain ⟨key, value⟩ := o
      obtain ⟨hfresh, hnodup⟩ := List.nodup_cons.mp h
      rw [List.map_cons, List.map_cons, List.map_cons, List.map_cons, ← ih hnodup]
      refine congrArg₂ List.cons List.lookup_cons_self (List.map_congr_left ?_)
      intro place hplace
      have hne : (place == key) = false := by
        rw [beq_eq_false_iff_ne]
        rintro rfl
        exact hfresh hplace
      rw [List.lookup_cons, hne]

/-- If the groups that are opened are those of the parameters, they count the parameters. -/
theorem ownGroups_eq (h : ofPath policy path = .ok t)
    (hway : way ∈ ways (coversSubPaths path) t.segments) (hv : variant policy path way = .ok v)
    (hplaces : openedPlaces policy path way = parameterPlaces policy path way) :
    ownGroups policy path way = (List.range' 1 v.capturing.regex.groupCount).map some := by
  obtain ⟨hcount, hindices⟩ :=
    Regex.groupCount_of_read (bare_patternText h hway) (variant_eq_ok hv).2
  have hplaced : (parameterPlaces policy path way).Pairwise (· > ·) := pairwise_placesFrom _
  have hnodup : (openedPlaces policy path way).Nodup := by
    rw [hplaces]
    exact hplaced.nodup
  rw [ownGroups, ← hplaces, openedPlaces, map_lookup_keys hnodup, hindices, hcount]

/-- If the groups that are opened are those of the parameters, both patterns match the same
request paths. -/
theorem isMatch_capturing (h : ofPath policy path = .ok t)
    (hway : way ∈ ways (coversSubPaths path) t.segments) (hv : variant policy path way = .ok v)
    (hplaces : openedPlaces policy path way = parameterPlaces policy path way) (uri : Text) :
    v.capturing.regex.isMatch uri = v.matching.regex.isMatch uri := by
  have htext (g : Grouping) : patternText policy path g way =
      '^' :: textFrom policy path g (pieces (way.map Segment.elements)) :=
    patternText_eq policy path g way
  have htwin : Twin (openedPlaces policy path way) (patternText policy path .capturing way)
      (patternText policy path .plain way) := by
    rw [hplaces, htext, htext]
    exact .cons '^' (twin_textFrom _)
  obtain ⟨hplain, hcapturing⟩ := variant_eq_ok hv
  rw [← Regex.isMatch_ungrouped, ← Regex.isMatch_ungrouped v.matching.regex,
    Regex.ungrouped_eq_of_twin (bare_patternText h hway) htwin hcapturing hplain]

theorem captures?_capturing (h : ofPath policy path = .ok t)
    (hway : way ∈ ways (coversSubPaths path) t.segments) (hv : variant policy path way = .ok v)
    (hplaces : openedPlaces policy path way = parameterPlaces policy path way) {uri : Text}
    {slots : Slots} (hslots : v.capturing.regex.search uri = some slots) :
    v.capturing.regex.captures? uri =
      some ((ownGroups policy path way).map fun group => group.bind (groupText? uri slots)) := by
  rw [Regex.captures?, hslots, ownGroups_eq h hway hv hplaces, List.range'_eq_map_range]
  simp [Nat.add_comm]

/-! ## Values -/

/-- A request path that is accepted matches in some first way. -/
theorem exists_first_way (h : ofPath policy path = .ok t) {uri : Text}
    (haccepts : t.accepts uri = true) : ∃ way v,
      ((ways (coversSubPaths path) t.segments).zip t.variants).find?
          (fun followed => followed.2.matching.regex.isMatch uri) = some (way, v) ∧
        t.variants.find? (fun v => v.matching.regex.isMatch uri) = some v ∧
        way ∈ ways (coversSubPaths path) t.segments ∧ variant policy path way = .ok v := by
  let zipped := (ways (coversSubPaths path) t.segments).zip t.variants
  have hvariants := forall₂_of_mapM_ok (ofPath_eq_ok h).2.2.2.2
  have hsnd : t.variants = zipped.map Prod.snd :=
    (List.map_snd_zip (by rw [hvariants.length_eq])).symm
  have hfind : t.variants.find? (fun v => v.matching.regex.isMatch uri) =
      (zipped.find? fun followed => followed.2.matching.regex.isMatch uri).map Prod.snd := by
    rw [hsnd, List.find?_map]
    rfl
  obtain ⟨v, hfirst⟩ := Option.isSome_iff_exists.mp
    (List.find?_isSome.mpr (List.any_eq_true.mp haccepts))
  obtain ⟨⟨way, v'⟩, hfound, rfl⟩ := Option.map_eq_some_iff.mp (hfind.symm.trans hfirst)
  have hmem := List.mem_of_find?_eq_some hfound
  exact ⟨way, v', hfound, hfirst, (List.of_mem_zip hmem).1, List.forall₂_zip hvariants hmem⟩

/-- If the groups that are opened in every way are those of the parameters, the values stay
with the parameters. -/
theorem aligned_of_openedPlaces_eq (h : ofPath policy path = .ok t)
    (hplaces : ∀ way ∈ ways (coversSubPaths path) t.segments,
      openedPlaces policy path way = parameterPlaces policy path way) :
    Aligned policy path t := by
  have hvariants := forall₂_of_mapM_ok (ofPath_eq_ok h).2.2.2.2
  refine ⟨?_, ?_, ?_⟩
  · intro way hway
    obtain ⟨v, _, hv⟩ := exists_left_of_mem hvariants.flip hway
    rw [ownGroups_eq h hway hv (hplaces way hway)]
    simp
  · intro v hv
    obtain ⟨way, hway, hread⟩ := exists_left_of_mem hvariants hv
    rw [← length_openedPlaces h hway hread, hplaces way hway, length_parameterPlaces h hway]
  · intro uri haccepts
    obtain ⟨way, v, hfound, hfirst, hway, hread⟩ := exists_first_way h haccepts
    have hfollowed : v.matching.regex.isMatch uri = true := by
      simpa using List.find?_some hfound
    have hmatch : v.capturing.regex.isMatch uri = true := by
      rw [isMatch_capturing h hway hread (hplaces way hway) uri, hfollowed]
    obtain ⟨slots, hslots⟩ := Option.isSome_iff_exists.mp hmatch
    refine ⟨way, v, slots, hfound, hslots, ?_⟩
    rw [params, hfirst]
    simp only [captures?_capturing h hway hread (hplaces way hway) hslots, Option.getD_some,
      List.map_map]
    rfl

/-- The values of a template stay with its parameters, whatever its raw literals are, exactly
if in every way to follow it the groups that reading the capturing pattern opens are those
that were written for the parameters. -/
theorem aligned_iff_openedPlaces {policy : Policy} {path : Text} {t : Template}
    (h : ofPath policy path = .ok t) :
    Aligned policy path t ↔ ∀ way ∈ ways (coversSubPaths path) t.segments,
      openedPlaces policy path way = parameterPlaces policy path way := by
  refine ⟨?_, aligned_of_openedPlaces_eq h⟩
  intro haligned way hway
  have hvariants := forall₂_of_mapM_ok (ofPath_eq_ok h).2.2.2.2
  obtain ⟨v, hv, hread⟩ := exists_left_of_mem hvariants.flip hway
  exact openedPlaces_eq_of_owned h hway hread (haligned.owned way hway) (haligned.counted v hv)

/-- Groups that do not remember leave the values where they are. -/
theorem aligned_alternatives :
    ∃ t, ofPath { rawLiterals := true } "/(?:a|b)/{x}".toList = .ok t ∧
      t.params "/b/q".toList = [("x".toList, "q".toList)] ∧
      Aligned { rawLiterals := true } "/(?:a|b)/{x}".toList t := by
  let policy : Policy := { rawLiterals := true }
  let path := "/(?:a|b)/{x}".toList
  have h : (ofPath policy path).toOption.any (fun t =>
      t.params "/b/q".toList == [("x".toList, "q".toList)] &&
        (ways (coversSubPaths path) t.segments).all fun way =>
          openedPlaces policy path way == parameterPlaces policy path way) = true := by
    decide +kernel
  obtain ⟨t, ht, hvalues⟩ := exists_ok_of_any h
  obtain ⟨hparams, hplaces⟩ := Bool.and_eq_true_iff.mp hvalues
  refine ⟨t, ht, beq_iff_eq.mp hparams, (aligned_iff_openedPlaces ht).mpr ?_⟩
  intro way hway
  exact beq_iff_eq.mp (List.all_eq_true.mp hplaces way hway)

/-- A group that a raw literal opens takes the place of the group of a parameter. -/
theorem not_aligned_group :
    ∃ t, ofPath { rawLiterals := true } "/(a)/{x}".toList = .ok t ∧
      t.accepts "/a/b".toList = true ∧
      t.params "/a/b".toList = [("x".toList, "a".toList)] ∧
      (∀ way ∈ ways (coversSubPaths "/(a)/{x}".toList) t.segments,
        ownGroups { rawLiterals := true } "/(a)/{x}".toList way = [some 2]) ∧
      (∀ v ∈ t.variants, v.capturing.regex.captures? "/a/b".toList =
        some [some "a".toList, some "b".toList]) ∧
      ¬Aligned { rawLiterals := true } "/(a)/{x}".toList t := by
  let policy : Policy := { rawLiterals := true }
  let path := "/(a)/{x}".toList
  have h : (ofPath policy path).toOption.any (fun t =>
      t.accepts "/a/b".toList &&
        t.params "/a/b".toList == [("x".toList, "a".toList)] &&
        ((ways (coversSubPaths path) t.segments).all fun way =>
          ownGroups policy path way == [some 2]) &&
        (t.variants.all fun v => v.capturing.regex.captures? "/a/b".toList ==
          some [some "a".toList, some "b".toList]) &&
        t.variants.any fun v => v.capturing.regex.groupCount != t.names.length) = true := by
    decide +kernel
  obtain ⟨t, ht, hvalues⟩ := exists_ok_of_any h
  simp only [Bool.and_eq_true, List.all_eq_true, List.any_eq_true, beq_iff_eq, bne_iff_ne]
    at hvalues
  obtain ⟨⟨⟨⟨haccepts, hparams⟩, howned⟩, hcaptures⟩, v, hv, hcount⟩ := hvalues
  refine ⟨t, ht, haccepts, hparams, howned, hcaptures, ?_⟩
  intro haligned
  exact hcount (haligned.counted v hv)

end PathRouting.Template

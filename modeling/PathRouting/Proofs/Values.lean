import PathRouting.Proofs.GroupCounts
import PathRouting.Proofs.Language

/-! # The values of the parameters

The groups of a pattern are the texts that the preferred cut gives to its parameters, in
the order of declaration. So the values of a template with plain literals are those of the
preferred cut of the first way to follow it that has a cut. -/

namespace PathRouting

def Element.parameters : Element → List (Text × Reach)
  | parameter name reach => [(name, reach)]
  | _ => []

namespace Template

/-- A parameter with the text that a cut gives to it. -/
structure Given where
  name : Text
  reach : Reach
  text : Text

def given : List Piece → List Text → List Given
  | .element (.parameter name reach) :: ps, t :: ts => ⟨name, reach, t⟩ :: given ps ts
  | _ :: ps, _ :: ts => given ps ts
  | _, _ => []

def Given.value (g : Given) : Text × Text := (g.name, Percent.decode g.text)

def Given.Valid (g : Given) : Prop :=
  g.text ≠ [] ∧ match g.reach with
    | .chunk => '/' ∉ g.text
    | .path => '\n' ∉ g.text

def Piece.names : Piece → List Text
  | element e => e.names
  | _ => []

variable {policy : Policy} {path uri : Text} {ps : List Piece} {cut : List Text}

theorem given_cons_of_groups {p : Piece} (hp : p.groups .capturing = 0) (ps : List Piece)
    (t : Text) (ts : List Text) : given (p :: ps) (t :: ts) = given ps ts := by
  cases p with
  | separator => rfl
  | suffix => rfl
  | element e =>
      cases e with
      | literal text raw => rfl
      | wildcard => rfl
      | parameter name reach => simp [Piece.groups] at hp

theorem exists_parameter_of_groups {p : Piece} (hp : ¬p.groups .capturing = 0) :
    ∃ name reach, p = .element (.parameter name reach) := by
  cases p with
  | separator => exact absurd rfl hp
  | suffix => exact absurd rfl hp
  | element e =>
      cases e with
      | literal text raw => exact absurd rfl hp
      | wildcard => exact absurd rfl hp
      | parameter name reach => exact ⟨name, reach, rfl⟩

theorem map_name_given (h : ps.length = cut.length) :
    (given ps cut).map (·.name) = ps.flatMap Piece.names := by
  induction ps generalizing cut with
  | nil => rfl
  | cons p ps ih =>
      cases cut with
      | nil => simp at h
      | cons t ts =>
          have hlength : ps.length = ts.length := by simpa using h
          have hrest := ih hlength
          cases p with
          | separator => simpa [given, Piece.names] using hrest
          | suffix => simpa [given, Piece.names] using hrest
          | element e =>
              cases e <;> simpa [given, Piece.names, Element.names] using hrest

theorem valid_of_mem_given (h : List.Forall₂ (Piece.Takes policy path) ps cut) :
    ∀ g ∈ given ps cut, g.Valid := by
  induction h with
  | nil => simp [given]
  | @cons p t ps ts ht _ ih =>
      cases p with
      | separator => exact ih
      | suffix => exact ih
      | element e =>
          cases e with
          | literal text raw => exact ih
          | wildcard => exact ih
          | parameter name reach =>
              intro g hg
              rcases List.mem_cons.mp hg with rfl | hg
              · cases reach <;> exact ht
              · exact ih g hg

/-! ## The groups of the pattern of pieces -/

def markGroup : Mark → Nat
  | .opened i => i
  | .closed i => i

theorem lookup_eq_none_of_markGroup {slots : Slots} {m : Mark}
    (h : ∀ s ∈ slots, markGroup s.1 ≠ markGroup m) : slots.lookup m = none := by
  rw [List.lookup_eq_none_iff]
  intro s hs
  have hne : m ≠ s.1 := by
    rintro rfl
    exact h s hs rfl
  simpa using hne

theorem groupText?_append_right {whole : Text} {later earlier : Slots} {i : Nat}
    (h : ∀ s ∈ later, markGroup s.1 ≠ i) :
    Regex.groupText? whole (later ++ earlier) i = Regex.groupText? whole earlier i := by
  simp only [Regex.groupText?, List.lookup_append]
  rw [lookup_eq_none_of_markGroup (m := .opened i) h,
    lookup_eq_none_of_markGroup (m := .closed i) h, Option.none_or, Option.none_or]

theorem groupText?_append_left {whole : Text} {later earlier : Slots} {i : Nat}
    (h : ∀ s ∈ earlier, markGroup s.1 ≠ i) :
    Regex.groupText? whole (later ++ earlier) i = Regex.groupText? whole later i := by
  simp only [Regex.groupText?, List.lookup_append]
  rw [lookup_eq_none_of_markGroup (m := .opened i) h,
    lookup_eq_none_of_markGroup (m := .closed i) h, Option.or_none, Option.or_none]

theorem markGroup_marks {g : Grouping} {n offset length : Nat} {p : Piece} :
    ∀ s ∈ p.marks g n offset length, markGroup s.1 = n ∧ p.groups g = 1 := by
  cases p with
  | separator => simp [Piece.marks, Task.noMarks]
  | suffix => simp [Piece.marks, Task.noMarks]
  | element e =>
      cases e with
      | literal text raw => simp [Piece.marks, Task.noMarks]
      | wildcard => simp [Piece.marks, Task.noMarks]
      | parameter name reach =>
          cases g with
          | plain => simp [Piece.marks, Task.noMarks]
          | capturing => simp [Piece.marks, Task.groupMarks, Piece.groups, markGroup]

theorem le_markGroup_slotsFrom (g : Grouping) (n offset : Nat) (ps : List Piece)
    (cut : List Text) : ∀ s ∈ slotsFrom g n offset ps cut, n ≤ markGroup s.1 := by
  induction ps generalizing n offset cut with
  | nil => simp [slotsFrom]
  | cons p ps ih =>
      cases cut with
      | nil => simp [slotsFrom]
      | cons t ts =>
          intro s hs
          rcases List.mem_append.mp hs with hs | hs
          · have hle := ih (n + p.groups g) (offset + t.length) ts s hs
            omega
          · exact (markGroup_marks s hs).1.ge

theorem marks_eq_nil {g : Grouping} {p : Piece} (hp : p.groups g = 0) (n offset length : Nat) :
    p.marks g n offset length = [] := by
  rw [List.eq_nil_iff_forall_not_mem]
  intro s hs
  have hone := (markGroup_marks s hs).2
  omega

theorem groupText?_groupMarks (front t rest : Text) (n : Nat) :
    Regex.groupText? (front ++ t ++ rest) (Task.groupMarks n front.length t.length) n =
      some t := by
  have hne : (Mark.opened n == Mark.closed n) = false := by simp
  simp [Regex.groupText?, Task.groupMarks, List.lookup_cons, hne]

/-- The groups of a cut are the texts of its parameters. -/
theorem groups_slotsFrom (front : Text) (n : Nat) (h : ps.length = cut.length) :
    ((List.range (groupsAll .capturing ps)).map fun i =>
      Regex.groupText? (front ++ cut.flatten)
        (slotsFrom .capturing n front.length ps cut) (n + i)) =
      (given ps cut).map fun g => some g.text := by
  induction ps generalizing front n cut with
  | nil => rfl
  | cons p ps ih =>
      cases cut with
      | nil => simp at h
      | cons t ts =>
          have hlength : ps.length = ts.length := by simpa using h
          have hoffset : (front ++ t).length = front.length + t.length := by simp
          have hwhole : front ++ (t :: ts).flatten = front ++ t ++ ts.flatten := by simp
          rw [hwhole, slotsFrom, ← hoffset]
          by_cases hp : p.groups .capturing = 0
          · have hcount : groupsAll .capturing (p :: ps) = groupsAll .capturing ps := by
              simp [groupsAll, hp]
            rw [given_cons_of_groups hp, marks_eq_nil hp, List.append_nil, hp, Nat.add_zero,
              hcount]
            exact ih (front ++ t) n hlength
          · obtain ⟨name, reach, rfl⟩ := exists_parameter_of_groups hp
            have hcount : groupsAll .capturing (.element (.parameter name reach) :: ps) =
                groupsAll .capturing ps + 1 := by
              simp [groupsAll, Piece.groups, Nat.add_comm]
            have hlater := le_markGroup_slotsFrom .capturing (n + 1) (front ++ t).length ps ts
            have hrest := ih (front ++ t) (n + 1) hlength
            rw [hcount, List.range_succ_eq_map, List.map_cons, List.map_map, given, List.map_cons,
              ← hrest]
            congr 1
            · rw [Nat.add_zero, groupText?_append_right]
              · exact groupText?_groupMarks front t ts.flatten n
              · intro s hs
                have hle := hlater s hs
                omega
            · apply List.map_congr_left
              intro i _
              have hindex : n + i.succ = n + 1 + i := by omega
              rw [Function.comp_apply, hindex, groupText?_append_left]
              · rfl
              · intro s hs
                have hgroup := (markGroup_marks s hs).1
                omega

/-! ## The groups of the parameters -/

def Piece.parameters : Piece → List (Text × Reach)
  | element e => e.parameters
  | _ => []

theorem Piece.length_parameters (p : Piece) : p.parameters.length = p.groups .capturing := by
  cases p with
  | separator => rfl
  | suffix => rfl
  | element e => cases e <;> rfl

theorem length_flatMap_parameters (ps : List Piece) :
    (ps.flatMap Piece.parameters).length = groupsAll .capturing ps := by
  induction ps with
  | nil => rfl
  | cons p ps ih =>
      rw [List.flatMap_cons, List.length_append, p.length_parameters, ih, groupsAll]

/-- Only a parameter has a group, and only if groups are to be written. -/
theorem groups_parts_eq_nil {g : Grouping} {p : Piece} (hp : p.groups g = 0) (policy : Policy)
    (path : Text) (n : Nat) : ∀ part ∈ p.parts policy path g n, part.regex.groups = [] := by
  have hone (set : CharSet) (depth : Nat) :
      (Regex.Reader.setPart set depth).regex.groups = [] := rfl
  have hrepeated (greedy : Bool) (count : Regex.Count) (set : CharSet) (depth : Nat) :
      (Regex.Reader.repeatedPart greedy count (Regex.Reader.setPart set depth)).regex.groups =
        [] := Regex.groups_repeated_one greedy _ _ set
  have hseparator : ∀ part ∈ separatorParts policy, part.regex.groups = [] := by
    unfold separatorParts
    split <;> simp [hone, hrepeated]
  cases p with
  | separator => exact hseparator
  | suffix =>
      simp only [Piece.parts, suffixParts]
      split
      · simp
      · split
        · exact hseparator
        · split
          · split <;> simp [hrepeated]
          · simp
  | element e =>
      cases e with
      | literal text raw => simp [Piece.parts, hone]
      | wildcard => simp [Piece.parts, hrepeated]
      | parameter name reach =>
          cases g with
          | plain => cases reach <;> simp [Piece.parts, valuePart, hrepeated]
          | capturing => simp [Piece.groups] at hp

theorem groups_valuePart (policy : Policy) (reach : Reach) :
    (valuePart policy reach).regex.groups = [] :=
  groups_parts_eq_nil (g := .plain) (p := .element (.parameter [] reach)) rfl policy [] 0 _
    (by simp [Piece.parts])

/-- The group of a parameter has its value in it, and it is counted on from the groups before. -/
theorem groups_parts (policy : Policy) (path : Text) (n : Nat) (p : Piece) :
    (p.parts policy path .capturing n).flatMap (·.regex.groups) =
      (p.parameters.zipIdx n).map fun q => (q.2, (valuePart policy q.1.2).regex) := by
  by_cases hp : p.groups .capturing = 0
  · have hnone : p.parameters = [] := List.eq_nil_of_length_eq_zero (p.length_parameters.trans hp)
    rw [hnone, List.flatMap_eq_nil_iff.mpr (groups_parts_eq_nil hp policy path n)]
    rfl
  · obtain ⟨name, reach, rfl⟩ := exists_parameter_of_groups hp
    simp [Piece.parts, Piece.parameters, Element.parameters, Regex.Reader.groupPart, Regex.groups,
      groups_valuePart]

theorem groups_partsFrom (policy : Policy) (path : Text) (n : Nat) (ps : List Piece) :
    (partsFrom policy path .capturing n ps).flatMap (·.regex.groups) =
      ((ps.flatMap Piece.parameters).zipIdx n).map fun q =>
        (q.2, (valuePart policy q.1.2).regex) := by
  induction ps generalizing n with
  | nil => rfl
  | cons p ps ih =>
      rw [partsFrom, List.flatMap_append, groups_parts, ih, List.flatMap_cons, List.zipIdx_append,
        List.map_append, p.length_parameters, Nat.add_comm n]

/-- The groups of the capturing pattern of pieces are those of the parameters in their order. -/
theorem groups_regexOf (policy : Policy) (path : Text) (ps : List Piece) :
    (regexOf policy path .capturing ps).groups =
      ((ps.flatMap Piece.parameters).zipIdx 1).map fun q =>
        (q.2, (valuePart policy q.1.2).regex) := by
  have hlook (l : Look) : (Regex.look l).groups = [] := rfl
  rw [regexOf, Regex.groups_catAll, List.cons_append, List.flatMap_cons, List.flatMap_append,
    List.flatMap_map, groups_partsFrom, List.flatMap_singleton, hlook, hlook, List.append_nil,
    List.nil_append]

theorem indices_regexOf (policy : Policy) (path : Text) (ps : List Piece) :
    (regexOf policy path .capturing ps).groups.map Prod.fst =
      List.range' 1 (groupsAll .capturing ps) := by
  rw [groups_regexOf, List.map_map, ← length_flatMap_parameters]
  exact List.zipIdx_map_snd 1 _

theorem groupCount_regexOf (policy : Policy) (path : Text) (ps : List Piece) :
    (regexOf policy path .capturing ps).groupCount = groupsAll .capturing ps := by
  have hindices := indices_regexOf policy path ps
  apply Nat.le_antisymm
  · rw [Regex.groupCount_le_iff, ← List.forall_mem_map (P := (· ≤ _)), hindices]
    intro i hi
    have hrange := List.mem_range'_1.mp hi
    omega
  · by_cases hzero : groupsAll .capturing ps = 0
    · omega
    · have hlast : groupsAll .capturing ps ∈
          (regexOf policy path .capturing ps).groups.map Prod.fst := by
        rw [hindices, List.mem_range'_1]
        omega
      obtain ⟨g, hg, hindex⟩ := List.mem_map.mp hlast
      rw [← hindex]
      exact (Regex.groupCount_le_iff _).mp (Nat.le_refl _) g hg

/-- The groups of the pattern of pieces are the texts that the preferred cut gives to the
parameters. -/
theorem captures?_regexOf (policy : Policy) (path : Text) (ps : List Piece) (uri : Text) :
    (regexOf policy path .capturing ps).captures? uri =
      (cuts policy path ps uri).head?.map fun cut => (given ps cut).map fun g => some g.text := by
  rw [Regex.captures?, search_regexOf, groupCount_regexOf, Option.map_map]
  apply Option.map_congr
  intro cut hcut
  have hfirst := isFirstCut_of_head? hcut
  have hgroups := groups_slotsFrom [] 1 hfirst.isCut.takes.length_eq
  rw [hfirst.isCut.whole] at hgroups
  rw [← hgroups]
  apply List.map_congr_left
  intro i _
  rw [Nat.add_comm i 1]
  rfl

/-- Every group takes part in a match. -/
theorem present_of_captures? {groups : List (Option Text)}
    (h : (regexOf policy path .capturing ps).captures? uri = some groups) :
    groups.length = (ps.flatMap Piece.names).length ∧ none ∉ groups := by
  rw [captures?_regexOf, Option.map_eq_some_iff] at h
  obtain ⟨cut, hhead, rfl⟩ := h
  have hlength := (isFirstCut_of_head? hhead).isCut.takes.length_eq
  rw [← map_name_given hlength]
  simp

/-- Whether the parameters are groups makes no difference to what is matched. -/
theorem isMatch_grouping (policy : Policy) (path : Text) (g g' : Grouping) (ps : List Piece)
    (uri : Text) :
    (regexOf policy path g ps).isMatch uri = (regexOf policy path g' ps).isMatch uri := by
  rw [Bool.eq_iff_iff, isMatch_regexOf, isMatch_regexOf]

/-! ## The values of a template -/

theorem flatMap_pieces {β : Type} (f : Piece → List β) (hseparator : f .separator = [])
    (hsuffix : f .suffix = []) (ess : List (List Element)) :
    (pieces ess).flatMap f = ess.flatMap (·.flatMap fun e => f (.element e)) := by
  have hinner : ([Piece.separator].intercalate (ess.map (·.map .element))).flatMap f =
      ess.flatMap (·.flatMap fun e => f (.element e)) := by
    induction ess with
    | nil => rfl
    | cons es ess ih =>
        cases ess with
        | nil => simp [List.intercalate, List.flatMap_map]
        | cons fs ess =>
            simp only [List.map_cons, List.intercalate_cons_cons, List.flatMap_append] at ih ⊢
            rw [ih]
            simp [hseparator, List.flatMap_map]
  rw [pieces, List.cons_append, List.flatMap_cons, List.flatMap_append, hinner]
  simp [hseparator, hsuffix]

theorem flatMap_names_pieces {ess way : List (List Element)} (h : way ∈ waysOf path ess) :
    (pieces way).flatMap Piece.names = ess.flatMap (·.flatMap Element.names) := by
  have hpieces := flatMap_pieces Piece.names rfl rfl
  unfold waysOf at h
  split at h
  · rcases List.mem_cons.mp h with rfl | h
    · exact hpieces way
    · obtain rfl := List.mem_singleton.mp h
      rw [hpieces, List.flatMap_append]
      exact List.append_nil _
  · obtain rfl := List.mem_singleton.mp h
    exact hpieces way

/-- The values that a request path gives to the parameters: it is followed in the first of
the ways in which it can be, and there in the preferred cut. -/
def Extracts (policy : Policy) (path uri : Text) (ways : List (List (List Element)))
    (values : List Given) : Prop :=
  ∃ before way after cut, ways = before ++ way :: after ∧
    (∀ earlier ∈ before, ∀ other, ¬IsCut policy path (pieces earlier) uri other) ∧
    IsFirstCut policy path (pieces way) uri cut ∧ values = given (pieces way) cut

theorem Extracts.valid {ways : List (List (List Element))} {values : List Given}
    (h : Extracts policy path uri ways values) : ∀ g ∈ values, g.Valid := by
  obtain ⟨_, _, _, _, _, _, hfirst, rfl⟩ := h
  exact valid_of_mem_given hfirst.isCut.takes

variable {t : Template} {ess : List (List Element)}

theorem params_eq_nil (h : t.accepts uri = false) : t.params uri = [] := by
  have hnone : t.variants.find? (fun v => v.matching.regex.isMatch uri) = none := by
    rw [List.find?_eq_none]
    intro v hv
    exact List.any_eq_false.mp h v hv
  rw [params, hnone]

/-- What the capturing pattern of a way says of a request path that has cuts. -/
theorem MadeOf.exists_values (hmade : MadeOf policy path t ess) {way : List (List Element)}
    (hway : way ∈ waysOf path ess) (hcut : ∃ cut, IsCut policy path (pieces way) uri cut) :
    ∃ cut, IsFirstCut policy path (pieces way) uri cut ∧
      (patternOf policy path .capturing way).regex.captures? uri =
        some ((given (pieces way) cut).map fun g => some g.text) ∧
      (given (pieces way) cut).map (·.name) = t.names := by
  obtain ⟨cut, hhead⟩ := exists_cut_iff_head?.mp hcut
  have hfirst := isFirstCut_of_head? hhead
  refine ⟨cut, hfirst, ?_, ?_⟩
  · rw [patternOf, captures?_regexOf, hhead]
    rfl
  · rw [map_name_given hfirst.isCut.takes.length_eq, flatMap_names_pieces hway, hmade.names_eq]

theorem MadeOf.exists_extracts (hmade : MadeOf policy path t ess) (h : t.accepts uri = true) :
    ∃ values, Extracts policy path uri (waysOf path ess) values ∧
      t.params uri = values.map Given.value ∧ values.map (·.name) = t.names := by
  let followed (way : List (List Element)) : Bool :=
    (patternOf policy path .plain way).regex.isMatch uri
  have hfind : t.variants.find? (fun v => v.matching.regex.isMatch uri) =
      ((waysOf path ess).find? followed).map (variantOf policy path) := by
    rw [hmade.variants_eq, List.find?_map]
    rfl
  obtain ⟨way, hfound⟩ : ∃ way, (waysOf path ess).find? followed = some way := by
    rw [← Option.isSome_iff_exists, List.find?_isSome]
    obtain ⟨way, hway, hcut⟩ := (hmade.accepts_iff uri).mp h
    exact ⟨way, hway, (isMatch_regexOf policy path .plain (pieces way) uri).mpr hcut⟩
  obtain ⟨hfollowed, before, after, hways, hbefore⟩ := List.find?_eq_some_iff_append.mp hfound
  obtain ⟨cut, hfirst, hcaptures, hnames⟩ := hmade.exists_values (List.mem_of_find?_eq_some hfound)
    ((isMatch_regexOf policy path .plain (pieces way) uri).mp hfollowed)
  refine ⟨given (pieces way) cut, ⟨before, way, after, cut, hways, ?_, hfirst, rfl⟩, ?_, hnames⟩
  · intro earlier hearlier other hother
    have hmatch : followed earlier = true :=
      (isMatch_regexOf policy path .plain (pieces earlier) uri).mpr ⟨other, hother⟩
    simpa [hmatch] using hbefore earlier hearlier
  · have hvalues : t.params uri =
        t.names.zip ((given (pieces way) cut).map fun g => Percent.decode g.text) := by
      rw [params, hfind, hfound]
      simp [variantOf, hcaptures, Function.comp_def]
    rw [hvalues, ← hnames, List.zip_map']
    rfl

theorem MadeOf.capturing_agrees (hmade : MadeOf policy path t ess) (uri : Text) :
    ∀ v ∈ t.variants, v.capturing.regex.isMatch uri = v.matching.regex.isMatch uri ∧
      ∀ groups, v.capturing.regex.captures? uri = some groups →
        groups.length = t.names.length ∧ none ∉ groups := by
  rw [hmade.variants_eq]
  intro v hv
  obtain ⟨way, hway, rfl⟩ := List.mem_map.mp hv
  refine ⟨isMatch_grouping policy path .capturing .plain (pieces way) uri, ?_⟩
  intro groups hgroups
  rw [hmade.names_eq, ← flatMap_names_pieces hway]
  exact present_of_captures? hgroups

/-- The values of a template with plain literals are the decoded texts that the preferred
cut gives to its parameters, every parameter having one. -/
theorem params_first_cut {policy : Policy} {path : Text} {t : Template}
    (hraw : policy.rawLiterals = false) (h : ofPath policy path = .ok t) (uri : Text) :
    (t.accepts uri = false → t.params uri = []) ∧
    (t.accepts uri = true → ∃ ess values,
      List.Forall₂ (Element.Spelling false) (chunks path) ess ∧
      Extracts policy path uri (waysOf path ess) values ∧ (∀ g ∈ values, g.Valid) ∧
      t.params uri = values.map Given.value ∧
      values.map (·.name) = t.names ∧ t.names.Nodup) ∧
    ∀ v ∈ t.variants, v.capturing.regex.isMatch uri = v.matching.regex.isMatch uri ∧
      ∀ groups, v.capturing.regex.captures? uri = some groups →
        groups.length = t.names.length ∧ none ∉ groups := by
  obtain ⟨ess, hmade⟩ := exists_madeOf hraw h
  refine ⟨params_eq_nil, ?_, hmade.capturing_agrees uri⟩
  intro haccepts
  obtain ⟨values, hextracts, hparams, hnames⟩ := hmade.exists_extracts haccepts
  exact ⟨ess, values, hmade.spelled, hextracts, hextracts.valid, hparams, hnames, hmade.nodup⟩

theorem params_first_cut_ambiguous :
    ∃ t, ofPath {} "/{a}-{b}".toList = .ok t ∧
      t.params "/x-y%20z-w".toList =
        [("a".toList, "x".toList), ("b".toList, "y z-w".toList)] ∧
      ∃ ess values, List.Forall₂ (Element.Spelling false) (chunks "/{a}-{b}".toList) ess ∧
        Extracts {} "/{a}-{b}".toList "/x-y%20z-w".toList (waysOf "/{a}-{b}".toList ess) values ∧
        t.params "/x-y%20z-w".toList = values.map Given.value := by
  have h : (ofPath {} "/{a}-{b}".toList).toOption.any (fun t =>
      t.accepts "/x-y%20z-w".toList && t.params "/x-y%20z-w".toList ==
        [("a".toList, "x".toList), ("b".toList, "y z-w".toList)]) = true := by decide +kernel
  obtain ⟨t, ht, hvalues⟩ := exists_ok_of_any h
  obtain ⟨haccepts, hparams⟩ := Bool.and_eq_true_iff.mp hvalues
  obtain ⟨ess, values, hspelled, hextracts, _, heq, _⟩ :=
    (params_first_cut rfl ht "/x-y%20z-w".toList).2.1 haccepts
  exact ⟨t, ht, beq_iff_eq.mp hparams, ess, values, hspelled, hextracts, heq⟩

end Template

end PathRouting

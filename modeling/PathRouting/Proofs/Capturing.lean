import PathRouting.Proofs.Alike
import PathRouting.Proofs.Values

/-! # The two forms of a variant

The capturing form of a pattern is its plain form with a group around the value of every
parameter, the groups being counted from left to right. A literal has no part in this, since its
text is escaped, nor has it any weight how the elements of a segment are nested. -/

namespace PathRouting

/-! ## Patterns without groups -/

theorem Regex.groups_ungrouped (r : Regex) : r.ungrouped.groups = [] := by
  induction r with
  | empty => rfl
  | one set => rfl
  | look l => rfl
  | cat a b iha ihb => rw [ungrouped, groups, iha, ihb, List.append_nil]
  | alt a b iha ihb => rw [ungrouped, groups, iha, ihb, List.append_nil]
  | rep greedy least extra r ih => exact ih
  | group i r ih => exact ih

theorem Regex.ungrouped_of_groups_eq_nil {r : Regex} (h : r.groups = []) : r.ungrouped = r := by
  induction r with
  | empty => rfl
  | one set => rfl
  | look l => rfl
  | cat a b iha ihb =>
      obtain ⟨ha, hb⟩ := List.append_eq_nil_iff.mp h
      rw [ungrouped, iha ha, ihb hb]
  | alt a b iha ihb =>
      obtain ⟨ha, hb⟩ := List.append_eq_nil_iff.mp h
      rw [ungrouped, iha ha, ihb hb]
  | rep greedy least extra r ih => rw [ungrouped, ih h]
  | group i r => simp [groups] at h

/-! ## Segments and their elements -/

theorem Element.map_fst_parameters (e : Element) : e.parameters.map Prod.fst = e.names := by
  cases e <;> rfl

namespace Segment

def parameters (s : Segment) : List (Text × Reach) := s.elements.flatMap Element.parameters

theorem map_fst_parameters (s : Segment) : s.parameters.map Prod.fst = s.names := by
  rw [parameters, List.map_flatMap, funext Element.map_fst_parameters, names_eq]

/-- The segment with its elements side by side, so that no part of it is composite. -/
def flat : Segment → Segment
  | element e => element e
  | composite parts => composite ((elementsAll parts).map element)

theorem elements_flat (s : Segment) : s.flat.elements = s.elements := by
  cases s with
  | element e => rfl
  | composite parts => exact elementsAll_map_element (elementsAll parts)

end Segment

/-- The forms of a variant differ only by groups, one for each of the parameters. -/
structure Variant.Grouped (policy : Policy) (params : List (Text × Reach)) (v : Variant) :
    Prop where
  /-- The plain form has no groups. -/
  plain : v.matching.regex.groups = []
  /-- Without its groups the capturing form is the plain one. -/
  ungrouped : v.capturing.regex.ungrouped = v.matching.regex
  /-- The groups are counted from one in the order of the parameters. -/
  indices : v.capturing.regex.groups.map Prod.fst = List.range' 1 params.length
  /-- The pattern in the group of a parameter is that of its values. -/
  bodies : List.Forall₂ (fun param group => Regex.read policy.caseless param.2.body = .ok group.2)
    params v.capturing.regex.groups
  /-- Both forms match the same texts. -/
  agrees : ∀ uri, v.capturing.regex.isMatch uri = v.matching.regex.isMatch uri
  /-- Every group takes part in every match. -/
  present : ∀ uri values, v.capturing.regex.captures? uri = some values →
    values.length = params.length ∧ none ∉ values

namespace Template

/-! ## The groups of a pattern of pieces -/

/-- Without its group a parameter has the part of its value, and the parts of other pieces have no
groups. -/
theorem ungrouped_parts (policy : Policy) (path : Text) (n m : Nat) (p : Piece) :
    (p.parts policy path .capturing n).map (·.regex.ungrouped) =
      (p.parts policy path .plain m).map (·.regex) := by
  by_cases hp : p.groups .capturing = 0
  · have hsame : p.parts policy path .capturing n = p.parts policy path .plain m := by
      cases p with
      | separator => rfl
      | suffix => rfl
      | element e =>
          cases e with
          | literal text raw => rfl
          | wildcard => rfl
          | parameter name reach => simp [Piece.groups] at hp
    rw [← hsame]
    exact List.map_congr_left fun part hpart =>
      Regex.ungrouped_of_groups_eq_nil (groups_parts_eq_nil hp policy path n part hpart)
  · obtain ⟨name, reach, rfl⟩ := exists_parameter_of_groups hp
    have hvalue := Regex.ungrouped_of_groups_eq_nil (groups_valuePart policy reach)
    simp [Piece.parts, Regex.Reader.groupPart, Regex.ungrouped, hvalue]

/-- A capturing pattern is the plain one once its groups are removed. -/
theorem ungrouped_regexOf (policy : Policy) (path : Text) (ps : List Piece) :
    (regexOf policy path .capturing ps).ungrouped = regexOf policy path .plain ps := by
  have hparts (n m : Nat) :
      (partsFrom policy path .capturing n ps).map (·.regex.ungrouped) =
        (partsFrom policy path .plain m ps).map (·.regex) := by
    induction ps generalizing n m with
    | nil => rfl
    | cons p ps ih =>
        rw [partsFrom, partsFrom, List.map_append, List.map_append,
          ungrouped_parts policy path n m p, ih]
  rw [regexOf, Regex.ungrouped_catAll, regexOf, ← hparts 1 1]
  simp [Regex.ungrouped, Function.comp_def]

theorem groups_plain (policy : Policy) (path : Text) (ps : List Piece) :
    (regexOf policy path .plain ps).groups = [] := by
  rw [← ungrouped_regexOf, Regex.groups_ungrouped]

/-- The pattern of the values of a parameter, read by itself. -/
theorem read_body (policy : Policy) (reach : Reach) :
    Regex.read policy.caseless reach.body = .ok (valuePart policy reach).regex := by
  have hreads := reads_value (r := { flags := flags policy }) rfl reach []
  rw [List.append_nil] at hreads
  rw [read_of_loop (hreads.loop_eq rfl (Nat.le_refl _))]
  cases reach <;> rfl

/-! ## The variants of segments -/

theorem Piece.map_fst_parameters (p : Piece) : p.parameters.map Prod.fst = p.names := by
  cases p with
  | separator => rfl
  | suffix => rfl
  | element e => exact e.map_fst_parameters

theorem grouped_variantOf (policy : Policy) (path : Text) (chunks : List (List Element)) :
    (variantOf policy path chunks).Grouped policy
      (chunks.flatMap (·.flatMap Element.parameters)) := by
  have hparams : (pieces chunks).flatMap Piece.parameters =
      chunks.flatMap (·.flatMap Element.parameters) :=
    flatMap_pieces Piece.parameters rfl rfl chunks
  rw [← hparams]
  refine ⟨groups_plain policy path _, ungrouped_regexOf policy path _, ?_, ?_, ?_, ?_⟩
  · rw [length_flatMap_parameters]
    exact indices_regexOf policy path _
  · have hbodies : List.Forall₂
        (fun param group => Regex.read policy.caseless param.2.body = .ok group.2)
        ((((pieces chunks).flatMap Piece.parameters).zipIdx 1).map Prod.fst)
        ((((pieces chunks).flatMap Piece.parameters).zipIdx 1).map fun q =>
          (q.2, (valuePart policy q.1.2).regex)) := by
      rw [List.forall₂_map_left_iff, List.forall₂_map_right_iff, List.forall₂_same]
      exact fun q _ => read_body policy q.1.2
    rw [← groups_regexOf policy path, List.zipIdx_map_fst] at hbodies
    exact hbodies
  · exact isMatch_grouping policy path .capturing .plain (pieces chunks)
  · intro uri values hvalues
    have hpresent := present_of_captures? hvalues
    rwa [← funext Piece.map_fst_parameters, ← List.map_flatMap, List.length_map] at hpresent

/-- The wildcard for what lies below has no parameters. -/
theorem parameters_way {segments way : List Segment} {subPaths : Bool}
    (h : way ∈ ways subPaths segments) :
    way.flatMap Segment.parameters = segments.flatMap Segment.parameters := by
  unfold ways at h
  split at h
  · rcases List.mem_cons.mp h with rfl | h
    · rfl
    · obtain rfl := List.mem_singleton.mp h
      rw [List.flatMap_append]
      exact List.append_nil _
  · obtain rfl := List.mem_singleton.mp h
    rfl

/-- Only the elements of segments count for their variants. -/
theorem compile_congr (policy : Policy) (path : Text) (subPaths : Bool)
    {segments segments' : List Segment}
    (h : segments'.map Segment.elements = segments.map Segment.elements) :
    compile policy path subPaths segments' = compile policy path subPaths segments := by
  have hvariant {ss ss' : List Segment}
      (hss : ss'.map Segment.elements = ss.map Segment.elements) :
      variant policy path ss' = variant policy path ss := by
    simp only [variant, pattern, patternText_eq, hss]
  cases subPaths with
  | false =>
      simp only [compile, ways, Bool.false_eq_true, ite_false, List.mapM_cons, hvariant h]
  | true =>
      have hbelow : (segments' ++ [Segment.element .wildcard]).map Segment.elements =
          (segments ++ [Segment.element .wildcard]).map Segment.elements := by
        rw [List.map_append, h, List.map_append]
      simp only [compile, ways, ite_true, List.mapM_cons, hvariant h, hvariant hbelow]

/-- Segments without patterns of their own have one variant, or two if what lies below is to be
followed as well. The forms of each differ only by groups, which are those of the parameters, and
neither the variants nor the names change when segments are made flat. -/
theorem compile_grouped (policy : Policy) (path : Text) (subPaths : Bool)
    {segments : List Segment} (h : AllEscaped (segments.map Segment.elements)) :
    ∃ vs, compile policy path subPaths segments = .ok vs ∧
      vs.length = (if subPaths then 2 else 1) ∧
      (∀ v ∈ vs, v.Grouped policy (segments.flatMap Segment.parameters)) ∧
      (segments.flatMap Segment.parameters).map Prod.fst = segments.flatMap Segment.names ∧
      ∀ segments', List.Forall₂ (fun s s' => s' = s ∨ s' = s.flat) segments segments' →
        compile policy path subPaths segments' = .ok vs ∧
          segments'.flatMap Segment.names = segments.flatMap Segment.names := by
  have hcompile := compile_ways policy path subPaths h
  refine ⟨_, hcompile, ?_, ?_, ?_, ?_⟩
  · unfold ways
    split <;> simp
  · intro v hv
    obtain ⟨way, hway, rfl⟩ := List.mem_map.mp hv
    have hgrouped := grouped_variantOf policy path (way.map Segment.elements)
    rw [List.flatMap_map] at hgrouped
    rw [← parameters_way hway]
    exact hgrouped
  · rw [List.map_flatMap, funext Segment.map_fst_parameters]
  · intro segments' hflat
    have helements : segments'.map Segment.elements = segments.map Segment.elements := by
      rw [← List.forall₂_eq_eq_eq, List.forall₂_map_left_iff, List.forall₂_map_right_iff]
      refine hflat.flip.imp ?_
      rintro s s' (rfl | rfl)
      · rfl
      · exact s'.elements_flat
    refine ⟨(compile_congr policy path subPaths helements).trans hcompile, ?_⟩
    have hnames (ss : List Segment) : ss.flatMap Segment.names =
        (ss.map Segment.elements).flatMap (·.flatMap Element.names) := by
      rw [List.flatMap_map, funext Segment.names_eq]
    rw [hnames, helements, ← hnames]

theorem compile_grouped_nested :
    AllEscaped ([Segment.composite [.element (.literal ['(', '\\'] false), .composite [],
      .composite [.element (.parameter ['a'] .chunk), .element .wildcard]]].map
        Segment.elements) ∧
    ∃ vs, vs.length = 2 ∧ (∀ v ∈ vs, v.Grouped {} [(['a'], .chunk)]) ∧
      compile {} ['/'] true [.composite [.element (.literal ['(', '\\'] false), .composite [],
        .composite [.element (.parameter ['a'] .chunk), .element .wildcard]]] = .ok vs ∧
      compile {} ['/'] true [.composite [.element (.literal ['(', '\\'] false),
        .element (.parameter ['a'] .chunk), .element .wildcard]] = .ok vs := by
  have hescaped : AllEscaped ([Segment.composite [.element (.literal ['(', '\\'] false),
      .composite [], .composite [.element (.parameter ['a'] .chunk), .element .wildcard]]].map
        Segment.elements) := by
    simp [AllEscaped, Segment.elements, Segment.elementsAll, Piece.Escaped]
  obtain ⟨vs, hcompile, hlength, hgrouped, _, hflat⟩ := compile_grouped {} ['/'] true hescaped
  exact ⟨hescaped, vs, hlength, hgrouped, hcompile, (hflat _ (.cons (.inr rfl) .nil)).1⟩

end Template

end PathRouting

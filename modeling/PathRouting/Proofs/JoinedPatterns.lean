import PathRouting.Proofs.Capturing
import PathRouting.Proofs.Joining
import PathRouting.Proofs.ThinnedReaders

/-! # The patterns of joined elements

Where no literal is a pattern of its own, joining two neighbours leaves the text of a pattern as it
is or drops a wildcard that is written twice. So patterns of joined elements find what those of the
elements find, wherever the elements stand in a template. The other segments may have raw literals,
with groups, classes or flags that reach beyond them. -/

namespace PathRouting

namespace Regex

/-- Two patterns that are found in the same texts, with the same texts in their groups. -/
structure Agree (r r' : Regex) : Prop where
  isMatch : ∀ text, r.isMatch text = r'.isMatch text
  captures : ∀ text, r.captures? text = r'.captures? text

theorem Agree.refl (r : Regex) : r.Agree r := ⟨fun _ => rfl, fun _ => rfl⟩

theorem Agree.trans {r r' r'' : Regex} (h : r.Agree r') (h' : r'.Agree r'') : r.Agree r'' :=
  ⟨fun text => (h.isMatch text).trans (h'.isMatch text),
    fun text => (h.captures text).trans (h'.captures text)⟩

theorem Thins.agree {r r' : Regex} (h : r.Thins r') : r.Agree r' :=
  ⟨h.isMatch_eq, h.captures?_eq⟩

/-! ## Texts of patterns -/

variable {c : Char} {s t v : Text}

theorem fresh_cons (hsign : isSign c = false) (hblank : Text.isBlank c = false)
    (hsharp : c ≠ '#') (v : Text) : Fresh (c :: v) :=
  fun f => ⟨c, v, f.skip_cons hblank hsharp v, hsign⟩

theorem fresh_slash (v : Text) : Fresh ('/' :: v) :=
  fresh_cons (by decide) (by decide) (by decide) v

theorem isSign_of_isMeta (hc : isMeta c = false) : isSign c = false := by
  simp_all [isMeta, isSign]

/-- A character without a meaning of its own is no sign, and if it is skipped, what follows is
none. -/
theorem Fresh.cons (h : Fresh v) (hc : isMeta c = false) : Fresh (c :: v) := by
  have hsign := isSign_of_isMeta hc
  have hsharp : c ≠ '#' := by
    rintro rfl
    exact absurd hc (by decide)
  cases hblank : Text.isBlank c with
  | false => exact fresh_cons hsign hblank hsharp v
  | true =>
      intro f
      cases hverbose : f.verbose with
      | false => exact ⟨c, v, by simp [Flags.skip, hverbose], hsign⟩
      | true =>
          have hskip : f.skip (c :: v) = f.skip v := by
            simp [Flags.skip, hverbose, skipComments, hblank]
          rw [hskip]
          exact h f

theorem Fresh.escape (h : Fresh v) (text : Text) : Fresh (escape text ++ v) := by
  induction text with
  | nil => exact h
  | cons c text ih =>
      rw [Regex.escape, List.flatMap_cons, List.append_assoc, escapeChar]
      split
      · exact fresh_cons (by decide) (by decide) (by decide) _
      · rename_i hmeta
        exact ih.cons (by simpa using hmeta)

namespace Doubled

theorem append_left {u : Text} (hu : '\\' ∉ u) (h : Doubled s t) : Doubled (u ++ s) (u ++ t) := by
  induction u with
  | nil => exact h
  | cons c u ih =>
      obtain ⟨hc, hu⟩ : '\\' ≠ c ∧ '\\' ∉ u := by simpa using hu
      exact .cons hc.symm (ih hu)

theorem escape (h : Doubled s t) (text : Text) :
    Doubled (escape text ++ s) (Regex.escape text ++ t) := by
  induction text with
  | nil => exact h
  | cons c text ih =>
      simp only [Regex.escape, List.flatMap_cons, List.append_assoc, escapeChar]
      split
      · exact .pair c ih
      · rename_i hmeta
        refine .cons ?_ ih
        rintro rfl
        exact hmeta rfl

/-- Any text may stand in front of a slash. If it ends in a backslash, that one takes the slash. -/
theorem slash (h : Doubled s t) : ∀ a : Text, Doubled (a ++ '/' :: s) (a ++ '/' :: t)
  | [] => .cons (by decide) h
  | [c] => by
      by_cases hc : c = '\\'
      · subst hc
        exact .pair '/' h
      · exact .cons hc (.cons (by decide) h)
  | c :: d :: a => by
      by_cases hc : c = '\\'
      · subst hc
        exact .pair d (h.slash a)
      · exact .cons hc (h.slash (d :: a))

theorem separator (h : Doubled s t) (policy : Policy) (a : Text) :
    Doubled (a ++ (Template.separator policy ++ s)) (a ++ (Template.separator policy ++ t)) := by
  unfold Template.separator
  split
  · exact (Doubled.cons (by decide) h).slash a
  · exact h.slash a

end Doubled

end Regex

open Regex (Fresh Doubled)

namespace Element

open Template (Piece)

variable {e : Element} {es es' : List Element} {s t v : Text}

def NoneRaw (es : List Element) : Prop := ∀ e ∈ es, (Piece.element e).Escaped

theorem NoneRaw.tail (h : NoneRaw (e :: es)) : NoneRaw es := fun x hx => h x (.tail e hx)

theorem fresh_fragment (he : (Piece.element e).Escaped) (g : Grouping) (hv : Fresh v) :
    Fresh (e.fragment g ++ v) := by
  have hcons {c : Char} {u : Text} (hc : c = '.' ∨ c = '[' ∨ c = '(') : Fresh (c :: u) := by
    obtain rfl | rfl | rfl := hc <;> exact Regex.fresh_cons (by decide) (by decide) (by decide) u
  cases e with
  | literal text raw =>
      obtain rfl : raw = false := he
      exact hv.escape text
  | parameter name reach => cases g <;> cases reach <;> exact hcons (by simp)
  | wildcard => exact hcons (by simp)

theorem doubled_fragment (he : (Piece.element e).Escaped) (g : Grouping) (h : Doubled s t) :
    Doubled (e.fragment g ++ s) (e.fragment g ++ t) := by
  cases e with
  | literal text raw =>
      obtain rfl : raw = false := he
      exact h.escape text
  | parameter name reach =>
      have hbody : '\\' ∉ reach.body := by cases reach <;> decide
      refine h.append_left ?_
      cases g <;> simp [fragment, hbody]
  | wildcard => exact h.append_left (u := wildcardBody) (by decide)

theorem fresh_fragments (hes : NoneRaw es) (g : Grouping) (hv : Fresh v) :
    Fresh (es.flatMap (fragment g) ++ v) := by
  induction es with
  | nil => exact hv
  | cons e es ih =>
      rw [List.flatMap_cons, List.append_assoc]
      exact fresh_fragment (hes e (.head es)) g (ih hes.tail)

theorem Joins.noneRaw (h : Joins es es') (hes : NoneRaw es) : NoneRaw es' := by
  induction h with
  | wildcards es => exact hes.tail
  | literals text text' raw es =>
      exact List.forall_mem_cons.mpr ⟨hes (literal text raw) (.head _), hes.tail.tail⟩
  | cons e _ ih => exact List.forall_mem_cons.mpr ⟨hes e (.head _), ih hes.tail⟩

/-- Joining two neighbours keeps the text of a pattern up to a wildcard that is written twice. -/
theorem Joins.doubled (h : Joins es es') (hes : NoneRaw es) (g : Grouping) (hv : Fresh v) :
    Doubled (es.flatMap (fragment g) ++ v) (es'.flatMap (fragment g) ++ v) := by
  induction h with
  | wildcards es => exact .wildcard (fresh_fragments hes.tail.tail g hv)
  | literals text text' raw es =>
      have htext : fragment g (literal (text ++ text') raw) =
          fragment g (literal text raw) ++ fragment g (literal text' raw) := by
        cases raw with
        | true => rfl
        | false => exact List.flatMap_append
      rw [List.flatMap_cons, List.flatMap_cons, List.flatMap_cons, htext, ← List.append_assoc]
      exact .same _
  | cons e _ ih =>
      rw [List.flatMap_cons, List.flatMap_cons, List.append_assoc, List.append_assoc]
      exact doubled_fragment (hes e (.head _)) g (ih hes.tail)

end Element

open Element (Joins NoneRaw)

/-! ## Elements somewhere in a template -/

namespace Segment

theorem elementsAll_eq (ss : List Segment) : elementsAll ss = ss.flatMap elements := by
  induction ss with
  | nil => rfl
  | cons s ss ih => rw [elementsAll, ih, List.flatMap_cons]

/-- The segment inside of composite ones: in each of them, from the inner to the outer, there are
segments in front of it and behind it. -/
def within (s : Segment) : List (List Segment × List Segment) → Segment
  | [] => s
  | (front, back) :: outer => (composite (front ++ s :: back)).within outer

/-- What stands beside a segment is the same for all segments. -/
theorem exists_elements_within {beside : List (List Segment × List Segment)}
    (h : ∀ frame ∈ beside, ∀ s ∈ frame.1 ++ frame.2, NoneRaw s.elements) :
    ∃ front back, NoneRaw front ∧ NoneRaw back ∧
      ∀ s : Segment, (s.within beside).elements = front ++ s.elements ++ back := by
  induction beside with
  | nil => exact ⟨[], [], by simp [NoneRaw], by simp [NoneRaw], fun s => by simp [within]⟩
  | cons frame outer ih =>
      obtain ⟨front, back, hfront, hback, helements⟩ := ih fun f hf => h f (.tail _ hf)
      have hinner {ss : List Segment} (hss : ∀ s ∈ ss, s ∈ frame.1 ++ frame.2) :
          NoneRaw (elementsAll ss) := by
        intro e he
        rw [elementsAll_eq, List.mem_flatMap] at he
        obtain ⟨s, hs, he⟩ := he
        exact h frame (.head _) s (hss s hs) e he
      refine ⟨front ++ elementsAll frame.1, elementsAll frame.2 ++ back, ?_, ?_, ?_⟩
      · exact List.forall_mem_append.mpr ⟨hfront, hinner fun s hs => by simp [hs]⟩
      · exact List.forall_mem_append.mpr ⟨hinner fun s hs => by simp [hs], hback⟩
      · intro s
        rw [within, helements, elements]
        simp [elementsAll_eq]

end Segment

namespace Template

/-- A place in a template for a composite segment. It may be inside of other composite segments. -/
structure Site where
  /-- The segments in front of it. -/
  before : List Segment
  /-- The segments behind it. -/
  after : List Segment
  /-- What stands beside it in the composite segments that it is inside of. -/
  beside : List (List Segment × List Segment)
  /-- In the same chunk no literal is a pattern of its own: with a backslash at the end of one, what
  follows would be no wildcard. -/
  noneRaw : ∀ frame ∈ beside, ∀ s ∈ frame.1 ++ frame.2, NoneRaw s.elements

def Site.fill (site : Site) (es : List Element) : List Segment :=
  site.before ++ (Segment.composite (es.map .element)).within site.beside :: site.after

/-! ### The texts of the patterns -/

variable {policy : Policy} {path : Text} {g : Grouping} {es es' : List Element}

/-- Behind a chunk there is a separator, if there is anything. -/
theorem exists_stem_append (before after : List (List Element)) :
    ∃ ps qs, (qs = [] ∨ ∃ qs', qs = Piece.separator :: qs') ∧
      ∀ es, stem (before ++ es :: after) = ps ++ .separator :: es.map .element ++ qs := by
  induction before with
  | nil =>
      by_cases hafter : after = []
      · refine ⟨[], [], .inl rfl, fun es => ?_⟩
        rw [hafter, List.nil_append, stem_singleton]
        simp
      · refine ⟨[], stem after, .inr ⟨_, rfl⟩, fun es => ?_⟩
        rw [List.nil_append, stem_cons hafter]
        rfl
  | cons fs before ih =>
      obtain ⟨ps, qs, hqs, hstem⟩ := ih
      refine ⟨.separator :: fs.map .element ++ ps, qs, hqs, fun es => ?_⟩
      rw [List.cons_append, stem_cons (by simp), hstem]
      simp

theorem fresh_suffix (policy : Policy) (path : Text) : Fresh (suffix policy path ++ ['$']) := by
  have hend : Fresh ['$'] := Regex.fresh_cons (by decide) (by decide) (by decide) []
  unfold suffix separator
  split_ifs
  all_goals first | exact Regex.fresh_slash _ | exact hend

/-- The elements at a place stand behind a separator, with more elements beside them, none of which
is raw. What follows begins with no sign of repetition. -/
theorem Site.exists_patternText (site : Site) (policy : Policy) (path : Text) (g : Grouping) :
    ∃ a front back v, NoneRaw front ∧ NoneRaw back ∧ Fresh v ∧
      ∀ es, patternText policy path g (site.fill es) =
        a ++ (separator policy ++ ((front ++ es ++ back).flatMap (Element.fragment g) ++ v)) := by
  obtain ⟨front, back, hfront, hback, helements⟩ := Segment.exists_elements_within site.noneRaw
  obtain ⟨ps, qs, hqs, hstem⟩ := exists_stem_append (site.before.map Segment.elements)
    (site.after.map Segment.elements)
  refine ⟨'^' :: ps.flatMap (Piece.fragment policy path g), front, back,
    qs.flatMap (Piece.fragment policy path g) ++ (suffix policy path ++ ['$']), hfront, hback,
    ?_, fun es => ?_⟩
  · obtain rfl | ⟨qs, rfl⟩ := hqs
    · exact fresh_suffix policy path
    · rw [List.flatMap_cons, Piece.fragment, separator]
      split <;> exact Regex.fresh_slash _
  · rw [patternText_eq, pieces_eq_stem, Site.fill, List.map_append, List.map_cons, helements,
      Segment.elements, Segment.elementsAll_map_element, hstem]
    simp [Piece.fragment, List.flatMap_map]

theorem pattern_eq_ok_iff {segments : List Segment} {p : Pattern} :
    pattern policy path g segments = .ok p ↔ p.text = patternText policy path g segments ∧
      Regex.read policy.caseless (patternText policy path g segments) = .ok p.regex := by
  obtain ⟨text, regex⟩ := p
  simp only [pattern]
  cases Regex.read policy.caseless (patternText policy path g segments) with
  | error e => simp
  | ok r => simp [eq_comm]

/-- Joining two neighbours somewhere in a template keeps what its pattern finds. -/
theorem Site.exists_pattern_joins (site : Site) (h : Joins es es') (hes : NoneRaw es) {p : Pattern}
    (hp : pattern policy path g (site.fill es) = .ok p) :
    ∃ p', pattern policy path g (site.fill es') = .ok p' ∧ p.regex.Agree p'.regex := by
  obtain ⟨a, front, back, v, hfront, hback, hv, htext⟩ :=
    site.exists_patternText policy path g
  have hjoins : Joins (front ++ es ++ back) (front ++ es' ++ back) :=
    (h.append_left front).append_right back
  have hnone : NoneRaw (front ++ es ++ back) :=
    List.forall_mem_append.mpr ⟨List.forall_mem_append.mpr ⟨hfront, hes⟩, hback⟩
  have hdoubled : Doubled (patternText policy path g (site.fill es))
      (patternText policy path g (site.fill es')) := by
    rw [htext, htext]
    exact (hjoins.doubled hnone g hv).separator policy a
  obtain ⟨r', hread', hthins⟩ :=
    Regex.exists_read_thins hdoubled (pattern_eq_ok_iff.mp hp).2
  exact ⟨⟨_, r'⟩, pattern_eq_ok_iff.mpr ⟨rfl, hread'⟩, hthins.agree⟩

theorem Site.exists_pattern_merge (site : Site) (hes : NoneRaw es) {p : Pattern}
    (hp : pattern policy path g (site.fill es) = .ok p) :
    ∃ p', pattern policy path g (site.fill (Element.merge es)) = .ok p' ∧
      p.regex.Agree p'.regex := by
  have hjoins := Element.joins_merge es
  generalize Element.merge es = fs at hjoins
  induction hjoins using Relation.ReflTransGen.head_induction_on generalizing p with
  | refl => exact ⟨p, hp, .refl _⟩
  | head h _ ih =>
      obtain ⟨q, hq, hagree⟩ := site.exists_pattern_joins h hes hp
      obtain ⟨p', hp', hmore⟩ := ih (h.noneRaw hes) hq
      exact ⟨p', hp', hagree.trans hmore⟩

/-! ### Variants and templates -/

/-- Two variants both forms of which find the same. -/
structure VariantAgree (v v' : Variant) : Prop where
  matching : v.matching.regex.Agree v'.matching.regex
  capturing : v.capturing.regex.Agree v'.capturing.regex

theorem Site.exists_variant_merge (site : Site) (hes : NoneRaw es) {v : Variant}
    (hv : variant policy path (site.fill es) = .ok v) :
    ∃ v', variant policy path (site.fill (Element.merge es)) = .ok v' ∧ VariantAgree v v' := by
  unfold variant at hv
  cases hplain : pattern policy path .plain (site.fill es) with
  | error e => simp [hplain] at hv
  | ok p =>
      cases hcapturing : pattern policy path .capturing (site.fill es) with
      | error e => simp [hplain, hcapturing] at hv
      | ok q =>
          obtain rfl : ⟨p, q⟩ = v := by simpa [hplain, hcapturing] using hv
          obtain ⟨p', hp', hmatching⟩ := site.exists_pattern_merge hes hplain
          obtain ⟨q', hq', hagree⟩ := site.exists_pattern_merge hes hcapturing
          exact ⟨⟨p', q'⟩, by simp [variant, hp', hq'], hmatching, hagree⟩

theorem exists_forall₂_ok {α β ε : Type} {f : α → Except ε β} {R : β → β → Prop}
    {xs xs' : List α} {ys : List β} (hys : List.Forall₂ (fun x y => f x = .ok y) xs ys)
    (h : List.Forall₂ (fun x x' => ∀ y, f x = .ok y → ∃ y', f x' = .ok y' ∧ R y y') xs xs') :
    ∃ ys', List.Forall₂ (fun x y => f x = .ok y) xs' ys' ∧ List.Forall₂ R ys ys' := by
  induction hys generalizing xs' with
  | nil =>
      cases h
      exact ⟨[], .nil, .nil⟩
  | cons hy _ ih =>
      cases h with
      | cons hx hxs =>
          obtain ⟨y', hy', hR⟩ := hx _ hy
          obtain ⟨ys', hys', hmore⟩ := ih hxs
          exact ⟨y' :: ys', .cons hy' hys', .cons hR hmore⟩

/-- The ways to follow the segments at a place go on behind that place. -/
theorem Site.ways_fill (site : Site) (subPaths : Bool) : ∃ sites : List Site,
    ∀ es, ways subPaths (site.fill es) = sites.map (·.fill es) := by
  cases subPaths with
  | false => exact ⟨[site], fun es => rfl⟩
  | true =>
      refine ⟨[site, { site with after := site.after ++ [.element .wildcard] }], fun es => ?_⟩
      simp [ways, fill]

theorem Site.exists_compile_merge (site : Site) (hes : NoneRaw es) {subPaths : Bool}
    {vs : List Variant} (hvs : compile policy path subPaths (site.fill es) = .ok vs) :
    ∃ vs', compile policy path subPaths (site.fill (Element.merge es)) = .ok vs' ∧
      List.Forall₂ VariantAgree vs vs' := by
  obtain ⟨sites, hways⟩ := site.ways_fill subPaths
  have hsites : List.Forall₂ (fun way way' => ∀ v, variant policy path way = .ok v →
      ∃ v', variant policy path way' = .ok v' ∧ VariantAgree v v')
      (sites.map (·.fill es)) (sites.map (·.fill (Element.merge es))) := by
    rw [List.forall₂_map_left_iff, List.forall₂_map_right_iff, List.forall₂_same]
    exact fun site _ v hv => site.exists_variant_merge hes hv
  rw [compile, hways] at hvs
  obtain ⟨vs', hvs', hagree⟩ := exists_forall₂_ok (forall₂_of_mapM_ok hvs) hsites
  refine ⟨vs', ?_, hagree⟩
  rw [compile, hways]
  exact mapM_of_forall₂_ok hvs'

theorem accepts_of_agree {t t' : Template} (h : List.Forall₂ VariantAgree t.variants t'.variants)
    (uri : Text) : t.accepts uri = t'.accepts uri := by
  rw [accepts, accepts]
  generalize t.variants = vs at h
  generalize t'.variants = vs' at h
  induction h with
  | nil => rfl
  | cons hv _ ih => rw [List.any_cons, List.any_cons, hv.matching.isMatch, ih]

theorem params_of_agree {t t' : Template} (h : List.Forall₂ VariantAgree t.variants t'.variants)
    (hnames : t.names = t'.names) (uri : Text) : t.params uri = t'.params uri := by
  rw [params, params, hnames]
  generalize t.variants = vs at h
  generalize t'.variants = vs' at h
  induction h with
  | nil => rfl
  | @cons v v' vs vs' hv _ ih =>
      rw [List.find?_cons, List.find?_cons, hv.matching.isMatch]
      cases v'.matching.regex.isMatch uri with
      | true => simp only [hv.capturing.captures]
      | false => exact ih

def assembled (path : Text) (segments : List Segment) (variants : List Variant) : Template :=
  { path, segments, names := segments.flatMap Segment.names, variants }

theorem Site.names_fill (site : Site)
    (h : es.flatMap Element.parameters = es'.flatMap Element.parameters) :
    (site.fill es).flatMap Segment.names = (site.fill es').flatMap Segment.names := by
  obtain ⟨front, back, _, _, helements⟩ := Segment.exists_elements_within site.noneRaw
  have hnames (fs : List Element) :
      fs.flatMap Element.names = (fs.flatMap Element.parameters).map Prod.fst := by
    rw [List.map_flatMap, funext Element.map_fst_parameters]
  simp only [fill, List.flatMap_append, List.flatMap_cons, Segment.names_eq, helements,
    Segment.elements, Segment.elementsAll_map_element]
  rw [hnames es, h, ← hnames]

/-- Where nothing around the place is raw, the segments have patterns. -/
theorem Site.exists_compile (site : Site)
    (hsite : AllEscaped ((site.before ++ site.after).map Segment.elements)) (hes : NoneRaw es)
    (policy : Policy) (path : Text) (subPaths : Bool) :
    ∃ vs, compile policy path subPaths (site.fill es) = .ok vs := by
  obtain ⟨front, back, hfront, hback, helements⟩ := Segment.exists_elements_within site.noneRaw
  refine ⟨_, compile_ways policy path subPaths ?_⟩
  have hplace : NoneRaw (front ++ es ++ back) :=
    List.forall_mem_append.mpr ⟨List.forall_mem_append.mpr ⟨hfront, hes⟩, hback⟩
  simp only [fill, List.map_append, List.map_cons, helements, Segment.elements,
    Segment.elementsAll_map_element] at hsite ⊢
  intro fs hfs
  rcases List.mem_append.mp hfs with hfs | hfs
  · exact hsite fs (by simp [hfs])
  · rcases List.mem_cons.mp hfs with rfl | hfs
    · exact hplace
    · exact hsite fs (by simp [hfs])

/-- Merging the elements of a composite segment, which comes to adding them one after another,
keeps the parameters and the text between neighbouring parameters or wildcards, and leaves nothing
to be joined. Where no literal among them is raw, the merged segment has the same meaning wherever
it is put in a template: if the template has patterns with the elements as they are, it has patterns
with the merged ones, which match the same requests and give the same values. A template that has
other raw literals may have patterns only once the elements are merged, since the size of a pattern
is limited; one without any has patterns in both cases. -/
theorem compile_merge (es : List Element) :
    es.foldl Element.absorb [] = Element.merge es ∧ Element.Joined es (Element.merge es) ∧
    (NoneRaw es → ∀ (policy : Policy) (path : Text) (subPaths : Bool) (site : Site),
      (AllEscaped ((site.before ++ site.after).map Segment.elements) →
        ∃ vs, compile policy path subPaths (site.fill es) = .ok vs) ∧
      ∀ vs, compile policy path subPaths (site.fill es) = .ok vs →
        ∃ vs', compile policy path subPaths (site.fill (Element.merge es)) = .ok vs' ∧
          List.Forall₂ VariantAgree vs vs' ∧
          ∀ uri,
            (assembled path (site.fill es) vs).accepts uri =
              (assembled path (site.fill (Element.merge es)) vs').accepts uri ∧
            (assembled path (site.fill es) vs).params uri =
              (assembled path (site.fill (Element.merge es)) vs').params uri) := by
  refine ⟨Element.foldl_absorb es, Element.joined_merge es,
    fun hes policy path subPaths site => ⟨?_, ?_⟩⟩
  · exact fun hsite => site.exists_compile hsite hes policy path subPaths
  · intro vs hvs
    obtain ⟨vs', hvs', hagree⟩ := site.exists_compile_merge hes hvs
    have hnames := site.names_fill (Element.parameters_merge es).symm
    exact ⟨vs', hvs', hagree, fun uri =>
      ⟨accepts_of_agree hagree uri, params_of_agree hagree hnames uri⟩⟩

/-- Stars and texts before a parameter are joined, behind a text of the same chunk, and below an
alternative that is given as a pattern. -/
theorem compile_merge_runs :
    let es : List Element := [.wildcard, .wildcard, .literal ['a'] false, .literal ['('] false,
      .parameter ['x'] .chunk]
    let fs : List Element := [.wildcard, .literal ['a', '('] false, .parameter ['x'] .chunk]
    let plain : Site := ⟨[], [], [([.element (.literal ['-'] false)], [.element .wildcard])],
      by simp [NoneRaw, Segment.elements, Piece.Escaped]⟩
    let raw : Site := ⟨[.element (.literal "(b|c)".toList true)], [.element .wildcard], [], by simp⟩
    NoneRaw es ∧ Element.Joined es fs ∧
      ∀ site ∈ [plain, raw], ∃ vs vs', compile {} ['/'] true (site.fill es) = .ok vs ∧
        compile {} ['/'] true (site.fill fs) = .ok vs' ∧ List.Forall₂ VariantAgree vs vs' := by
  intro es fs plain raw
  have hes : NoneRaw es := by simp [es, NoneRaw, Piece.Escaped]
  have hplain : AllEscaped ((plain.before ++ plain.after).map Segment.elements) := by
    simp [plain, AllEscaped]
  have hraw : (compile {} ['/'] true (raw.fill es)).toOption.any (fun _ => true) = true := by
    decide +kernel
  obtain ⟨_, hjoined, hcompile⟩ := compile_merge es
  refine ⟨hes, hjoined, List.forall_mem_cons.mpr ⟨?_, List.forall_mem_singleton.mpr ?_⟩⟩
  · obtain ⟨hexists, hmerge⟩ := hcompile hes {} ['/'] true plain
    obtain ⟨vs, hvs⟩ := hexists hplain
    obtain ⟨vs', hvs', hagree, _⟩ := hmerge vs hvs
    exact ⟨vs, vs', hvs, hvs', hagree⟩
  · obtain ⟨vs, hvs, _⟩ := exists_ok_of_any hraw
    obtain ⟨vs', hvs', hagree, _⟩ := (hcompile hes {} ['/'] true raw).2 vs hvs
    exact ⟨vs, vs', hvs, hvs', hagree⟩

end Template

end PathRouting

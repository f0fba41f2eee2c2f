import PathRouting.Proofs.CaseVariants
import PathRouting.Proofs.Values

/-! # Requests that differ in case only

A policy that ignores case tells two requests that are the same up to case apart nowhere: literals
take both, and the classes of the parameters and wildcards leave out characters without case only.
So both requests are cut at the same places, cut by cut in the order of preference. -/

namespace PathRouting

/-! ## Splitting texts that count as the same -/

def CharSet.Alike (policy : Policy) (a b : CharSet) : Prop :=
  ∀ c d, policy.Same c d → a.contains c = b.contains d

def Policy.SameSplit (policy : Policy) (p q : Text × Text) : Prop :=
  policy.SameText p.1 q.1 ∧ policy.SameText p.2 q.2

namespace Splits

/-- Texts that count as the same are split at the same places in the same order. -/
def Alike (policy : Policy) (f g : Splits) : Prop :=
  ∀ t u, policy.SameText t u → List.Forall₂ policy.SameSplit (f t) (g u)

variable {policy : Policy} {a b : CharSet}

theorem alike_nothing : nothing.Alike policy nothing := fun _ _ h => .cons ⟨.nil, h⟩ .nil

theorem alike_one (h : a.Alike policy b) : (one a).Alike policy (one b) := by
  intro t u htu
  cases htu with
  | nil => exact .nil
  | @cons c d t u hsame hrest =>
      rw [one, one, h c d hsame]
      split
      · exact .cons ⟨.cons hsame .nil, hrest⟩ .nil
      · exact .nil

/-- A character may be taken in front of what is taken of the rest. -/
theorem sameSplit_more (h : a.Alike policy b) {c d : Char} (hsame : policy.Same c d)
    {ps qs : List (Text × Text)} (hrest : List.Forall₂ policy.SameSplit ps qs) :
    List.Forall₂ policy.SameSplit
      (if a.contains c then ps.map fun p => (c :: p.1, p.2) else [])
      (if b.contains d then qs.map fun q => (d :: q.1, q.2) else []) := by
  rw [h c d hsame]
  split
  · exact List.rel_map (fun _ _ hpq => ⟨.cons hsame hpq.1, hpq.2⟩) hrest
  · exact .nil

theorem alike_many (greedy : Bool) (h : a.Alike policy b) :
    (many greedy a).Alike policy (many greedy b) := by
  intro t u htu
  induction htu with
  | nil => exact .cons ⟨.nil, .nil⟩ .nil
  | @cons c d t u hsame hrest ih =>
      have hmore := sameSplit_more h hsame ih
      have hnone : policy.SameSplit ([], c :: t) ([], d :: u) := ⟨.nil, .cons hsame hrest⟩
      cases greedy with
      | true => exact List.rel_append hmore (.cons hnone .nil)
      | false => exact .cons hnone hmore

theorem alike_oneOrMore (greedy : Bool) (h : a.Alike policy b) :
    (oneOrMore greedy a).Alike policy (oneOrMore greedy b) := by
  intro t u htu
  cases htu with
  | nil => exact .nil
  | cons hsame hrest => exact sameSplit_more h hsame (alike_many greedy h _ _ hrest)

theorem alike_atMostOne (h : a.Alike policy b) : (atMostOne a).Alike policy (atMostOne b) := by
  intro t u htu
  exact List.rel_append (alike_one h t u htu) (.cons ⟨.nil, htu⟩ .nil)

theorem Alike.andThen {f f' g g' : Splits} (hf : f.Alike policy f') (hg : g.Alike policy g') :
    (f.andThen g).Alike policy (f'.andThen g') := by
  intro t u htu
  refine List.rel_flatMap (hf t u htu) ?_
  intro p q hpq
  exact List.rel_map (fun _ _ hxy => ⟨List.rel_append hpq.1 hxy.1, hxy.2⟩) (hg p.2 q.2 hpq.2)

end Splits

/-! ## The sets of templates -/

namespace Template

variable {policy : Policy} {path path' u u' : Text}

theorem alike_literalSet {c d : Char} (h : policy.Same c d) :
    ((flags policy).literalSet c).Alike policy ((flags policy).literalSet d) := by
  intro x y hxy
  have hset (c x : Char) : ((flags policy).literalSet c).contains x = true ↔ policy.Same c x :=
    Regex.Flags.contains_literalSet rfl c x
  rw [Bool.eq_iff_iff, hset, hset]
  constructor
  · intro hx
    exact h.symm.trans (hx.trans hxy)
  · intro hy
    exact h.trans (hy.trans hxy.symm)

theorem alike_slash (policy : Policy) : (slash policy).Alike policy (slash policy) :=
  alike_literalSet (policy.same_refl '/')

theorem alike_notSlash (policy : Policy) :
    (flags policy).notSlash.Alike policy (flags policy).notSlash := by
  intro c d hsame
  rw [Bool.eq_iff_iff, Regex.Flags.contains_notSlash, Regex.Flags.contains_notSlash, ne_eq, ne_eq,
    hsame.eq_iff Unicode.isUncased_slash]

theorem alike_notNewline (policy : Policy) :
    Regex.Flags.notNewline.Alike policy Regex.Flags.notNewline := by
  intro c d hsame
  rw [Bool.eq_iff_iff, Regex.Flags.contains_notNewline, Regex.Flags.contains_notNewline, ne_eq,
    ne_eq, hsame.eq_iff (Unicode.isUncased_of_mem_marks (by decide))]

/-! ## Cutting requests that count as the same -/

theorem alike_splitSeparator (policy : Policy) :
    (splitSeparator policy).Alike policy (splitSeparator policy) := by
  unfold splitSeparator
  split
  · exact Splits.alike_oneOrMore true (alike_slash policy)
  · exact Splits.alike_one (alike_slash policy)

theorem alike_splitSuffix (h : policy.SameText path path') :
    (splitSuffix policy path).Alike policy (splitSuffix policy path') := by
  unfold splitSuffix
  simp only [h.eq_singleton_iff Unicode.isUncased_slash,
    h.getLast?_eq_iff Unicode.isUncased_slash]
  split
  · exact Splits.alike_nothing
  · split
    · exact alike_splitSeparator policy
    · split
      · split
        · exact Splits.alike_many true (alike_slash policy)
        · exact Splits.alike_atMostOne (alike_slash policy)
      · exact Splits.alike_nothing

theorem alike_splitLiteral {text text' : Text} (h : policy.SameText text text') :
    (splitLiteral policy text).Alike policy (splitLiteral policy text') := by
  induction h with
  | nil => exact Splits.alike_nothing
  | cons hsame _ ih => exact (Splits.alike_one (alike_literalSet hsame)).andThen ih

theorem Piece.Same.alike {p p' : Piece} (hp : p.Same policy p')
    (hpath : policy.SameText path path') :
    (p.splits policy path).Alike policy (p'.splits policy path') := by
  cases hp with
  | separator => exact alike_splitSeparator policy
  | suffix => exact alike_splitSuffix hpath
  | element he =>
      cases he with
      | literal htext => exact alike_splitLiteral htext
      | wildcard => exact Splits.alike_many false (alike_notNewline policy)
      | @parameter _ _ reach _ =>
          cases reach with
          | chunk => exact Splits.alike_oneOrMore false (alike_notSlash policy)
          | path => exact Splits.alike_oneOrMore false (alike_notNewline policy)

variable {ps ps' : List Piece}

/-- Requests that count as the same have the same cuts, in the same order. -/
theorem cuts_same (hpath : policy.SameText path path')
    (hps : List.Forall₂ (Piece.Same policy) ps ps') (hu : policy.SameText u u') :
    List.Forall₂ (List.Forall₂ policy.SameText) (cuts policy path ps u)
      (cuts policy path' ps' u') := by
  induction hps generalizing u u' with
  | nil =>
      cases hu with
      | nil => exact .cons .nil .nil
      | cons _ _ => exact .nil
  | cons hp _ ih =>
      refine List.rel_flatMap (hp.alike hpath u u' hu) ?_
      intro split split' hsplit
      exact List.rel_map (fun _ _ hcut => .cons hsplit.1 hcut) (ih hsplit.2)

theorem Piece.Same.groups_eq {p p' : Piece} (hp : p.Same policy p') (g : Grouping) :
    p.groups g = p'.groups g := by
  cases hp with
  | separator => rfl
  | suffix => rfl
  | element he => cases he <;> cases g <;> rfl

theorem Piece.Same.marks_eq {p p' : Piece} (hp : p.Same policy p') (g : Grouping) (n : Nat) :
    p.marks g n = p'.marks g n := by
  cases hp with
  | separator => rfl
  | suffix => rfl
  | element he => cases he <;> cases g <;> rfl

theorem groupsAll_same (hps : List.Forall₂ (Piece.Same policy) ps ps') (g : Grouping) :
    groupsAll g ps = groupsAll g ps' := by
  induction hps with
  | nil => rfl
  | cons hp _ ih => rw [groupsAll, groupsAll, hp.groups_eq, ih]

theorem slotsFrom_same (hps : List.Forall₂ (Piece.Same policy) ps ps') {cut cut' : List Text}
    (hcut : List.Forall₂ policy.SameText cut cut') (g : Grouping) (n offset : Nat) :
    slotsFrom g n offset ps cut = slotsFrom g n offset ps' cut' := by
  induction hps generalizing cut cut' n offset with
  | nil => rfl
  | cons hp _ ih =>
      cases hcut with
      | nil => rfl
      | cons ht hcut =>
          rw [slotsFrom, slotsFrom, hp.groups_eq, hp.marks_eq, List.Forall₂.length_eq ht, ih hcut]

/-- The patterns of paths that count as the same find the same groups at the same places. -/
theorem search_same (hpath : policy.SameText path path')
    (hps : List.Forall₂ (Piece.Same policy) ps ps') (hu : policy.SameText u u') (g : Grouping) :
    (regexOf policy path g ps).search u = (regexOf policy path' g ps').search u' := by
  have hcuts := cuts_same hpath hps hu
  rw [search_regexOf, search_regexOf]
  generalize cuts policy path ps u = xs at hcuts
  generalize cuts policy path' ps' u' = ys at hcuts
  cases hcuts with
  | nil => rfl
  | cons hcut _ =>
      -- The marks of a cut depend on the lengths of its texts only.
      exact congrArg some (slotsFrom_same hps hcut g 1 0)

end Template

/-! ## Texts that are the same up to case -/

/-- Whether two texts have the same length and the same characters up to case. -/
abbrev Text.SameFold : Text → Text → Prop :=
  List.Forall₂ fun c d => Unicode.sameFold c d = true

theorem Text.SameFold.sameText {policy : Policy} (hcase : policy.caseless = true) {t u : Text}
    (h : SameFold t u) : policy.SameText t u := by
  refine List.Forall₂.imp ?_ h
  intro c d hcd
  rwa [Policy.Same, if_pos hcase]

/-! ## Where the parameters are -/

def Text.between (t : Text) (span : Nat × Nat) : Text := (t.drop span.1).take (span.2 - span.1)

namespace Regex

/-- The offsets between which a group was taken last, if it took part in the match. -/
def groupSpan? (slots : Slots) (i : Nat) : Option (Nat × Nat) :=
  match slots.lookup (.opened i), slots.lookup (.closed i) with
  | some low, some high => some (low, high)
  | _, _ => none

def spans? (r : Regex) (text : Text) : Option (List (Option (Nat × Nat))) :=
  (r.search text).map fun slots =>
    (List.range r.groupCount).map fun i => groupSpan? slots (i + 1)

theorem groupText?_eq (text : Text) (slots : Slots) (i : Nat) :
    groupText? text slots i = (groupSpan? slots i).map text.between := by
  rw [groupText?, groupSpan?]
  cases slots.lookup (.opened i) <;> cases slots.lookup (.closed i) <;> rfl

theorem captures?_eq (r : Regex) (text : Text) :
    r.captures? text = (r.spans? text).map fun spans => spans.map (·.map text.between) := by
  rw [captures?, spans?, Option.map_map]
  congr 1
  funext slots
  simp [groupText?_eq]

end Regex

namespace Template

/-- The offsets of the values of the parameters in a request path, in the order of declaration; none
if the request path does not match. -/
def spans (t : Template) (uri : Text) : List (Option (Nat × Nat)) :=
  match t.variants.find? fun v => v.matching.regex.isMatch uri with
  | none => []
  | some v => (v.capturing.regex.spans? uri).getD []

/-- The values are what stands between the offsets, decoded. -/
theorem params_eq_spans (t : Template) (uri : Text) :
    t.params uri = t.names.zip ((t.spans uri).map fun span =>
      Percent.decode ((span.map uri.between).getD [])) := by
  rw [params, spans]
  cases t.variants.find? fun v => v.matching.regex.isMatch uri with
  | none => simp
  | some v =>
      simp only [Regex.captures?_eq]
      cases v.capturing.regex.spans? uri <;> simp [Function.comp_def]

/-! ## Templates that count as the same -/

/-- Two variants that find the same in requests that count as the same. -/
structure VariantSame (policy : Policy) (v v' : Variant) : Prop where
  matching : ∀ {u u'}, policy.SameText u u' →
    v.matching.regex.isMatch u = v'.matching.regex.isMatch u'
  capturing : ∀ {u u'}, policy.SameText u u' →
    v.capturing.regex.spans? u = v'.capturing.regex.spans? u'

variable {policy : Policy} {path path' u u' : Text} {t t' : Template}
  {ess ess' : List (List Element)}

theorem variantOf_same (hpath : policy.SameText path path') {way way' : List (List Element)}
    (hway : List.Forall₂ (List.Forall₂ (Element.Same policy)) way way') :
    VariantSame policy (variantOf policy path way) (variantOf policy path' way') := by
  have hpieces := pieces_same hway
  constructor
  · intro u u' hu
    exact congrArg Option.isSome (search_same hpath hpieces hu .plain)
  · intro u u' hu
    have hcount : (regexOf policy path .capturing (pieces way)).groupCount =
        (regexOf policy path' .capturing (pieces way')).groupCount := by
      rw [groupCount_regexOf, groupCount_regexOf, groupsAll_same hpieces]
    simp only [variantOf, patternOf, Regex.spans?, search_same hpath hpieces hu, hcount]

theorem MadeOf.variants_same (h : MadeOf policy path t ess) (h' : MadeOf policy path' t' ess')
    (hpath : policy.SameText path path')
    (hess : List.Forall₂ (List.Forall₂ (Element.Same policy)) ess ess') :
    List.Forall₂ (VariantSame policy) t.variants t'.variants := by
  rw [h.variants_eq, h'.variants_eq]
  exact List.rel_map (fun _ _ hway => variantOf_same hpath hway) (waysOf_same hpath hess)

theorem accepts_same (h : List.Forall₂ (VariantSame policy) t.variants t'.variants)
    (hu : policy.SameText u u') : t.accepts u = t'.accepts u' := by
  rw [accepts, accepts]
  generalize t.variants = vs at h
  generalize t'.variants = vs' at h
  induction h with
  | nil => rfl
  | cons hv _ ih => rw [List.any_cons, List.any_cons, hv.matching hu, ih]

theorem spans_same (h : List.Forall₂ (VariantSame policy) t.variants t'.variants)
    (hu : policy.SameText u u') : t.spans u = t'.spans u' := by
  rw [spans, spans]
  generalize t.variants = vs at h
  generalize t'.variants = vs' at h
  induction h with
  | nil => rfl
  | @cons v v' vs vs' hv _ ih =>
      rw [List.find?_cons, List.find?_cons, hv.matching hu]
      cases v'.matching.regex.isMatch u' with
      | true => exact congrArg (Option.getD · []) (hv.capturing hu)
      | false => exact ih

/-- In a request that is accepted all parameters have a place. -/
theorem MadeOf.spans_of_accepts (hmade : MadeOf policy path t ess) (h : t.accepts u = true) :
    (t.spans u).length = t.names.length ∧ none ∉ t.spans u := by
  cases hfind : t.variants.find? fun v => v.matching.regex.isMatch u with
  | none =>
      obtain ⟨v, hv, hmatch⟩ := List.any_eq_true.mp h
      exact absurd hmatch (List.find?_eq_none.mp hfind v hv)
  | some v =>
      obtain ⟨hagrees, hgroups⟩ := hmade.capturing_agrees u v (List.mem_of_find?_eq_some hfind)
      have hmatch : v.capturing.regex.isMatch u = true := by
        rw [hagrees]
        simpa using List.find?_some hfind
      obtain ⟨slots, hslots⟩ := Option.isSome_iff_exists.mp hmatch
      have hspans : v.capturing.regex.spans? u = some (t.spans u) := by
        simp [spans, hfind, Regex.spans?, hslots]
      have hcaptures := hgroups _ (by rw [Regex.captures?_eq, hspans]; rfl)
      simpa using hcaptures

/-- With plain literals and case ignored, two requests that are the same up to case are accepted
alike, and the parameters have their values at the same places in both; and two paths that are the
same up to case, their parameters having the same names, make templates with the same answers. -/
theorem answers_of_sameFold (hraw : policy.rawLiterals = false) (hcase : policy.caseless = true)
    (h : ofPath policy path = .ok t) :
    (∀ u u', Text.SameFold u u' → t.accepts u = t.accepts u' ∧ t.spans u = t.spans u') ∧
    (∀ u, t.params u = t.names.zip ((t.spans u).map fun span =>
        Percent.decode ((span.map u.between).getD [])) ∧
      (t.accepts u = true → (t.spans u).length = t.names.length ∧ none ∉ t.spans u)) ∧
    ∀ path' t', Text.SameFold path path' → ofPath policy path' = .ok t' → t'.names = t.names →
      ∀ u, t'.accepts u = t.accepts u ∧ t'.params u = t.params u := by
  obtain ⟨ess, hmade⟩ := exists_madeOf hraw h
  refine ⟨?_, ?_, ?_⟩
  · intro u u' hu
    have hsame := hmade.variants_same hmade (policy.sameText_refl path)
      (List.forall₂_same.mpr fun es _ => List.forall₂_same.mpr fun e _ => e.same_refl policy)
    exact ⟨accepts_same hsame (hu.sameText hcase), spans_same hsame (hu.sameText hcase)⟩
  · intro u
    exact ⟨t.params_eq_spans u, hmade.spans_of_accepts⟩
  · intro path' t' hpath h' hnames u
    have hpaths := Text.SameFold.sameText hcase hpath
    obtain ⟨ess', hess, hspelled⟩ := exists_spelled_same hmade.spelled (chunks_same hpaths)
    have hmade' := madeOf_of_spelled hraw h' hspelled
    have hsame := hmade.variants_same hmade' hpaths hess
    have hu := policy.sameText_refl u
    rw [params_eq_spans, params_eq_spans, hnames, spans_same hsame hu]
    exact ⟨(accepts_same hsame hu).symm, rfl⟩

theorem answers_of_sameFold_kelvin :
    ∃ t t', ofPath { caseless := true } "/{a}K{b}*".toList = .ok t ∧
      ofPath { caseless := true } "/{a}\u212A{b}*".toList = .ok t' ∧
      t.accepts "/xkK/y".toList = true ∧ t.accepts "/X\u212Ak/Y".toList = true ∧
      t.spans "/xkK/y".toList = [some (1, 2), some (3, 4)] ∧
      t.spans "/X\u212Ak/Y".toList = [some (1, 2), some (3, 4)] ∧
      t'.accepts "/xkK/y".toList = true ∧
      t'.params "/xkK/y".toList = t.params "/xkK/y".toList := by
  have h : (ofPath { caseless := true } "/{a}K{b}*".toList).toOption.any (fun t =>
      t.accepts "/xkK/y".toList && t.spans "/xkK/y".toList == [some (1, 2), some (3, 4)] &&
        t.names == ["a".toList, "b".toList]) = true := by decide +kernel
  have h' : (ofPath { caseless := true } "/{a}\u212A{b}*".toList).toOption.any (fun t =>
      t.names == ["a".toList, "b".toList]) = true := by decide +kernel
  obtain ⟨t, ht, hanswers⟩ := exists_ok_of_any h
  obtain ⟨t', ht', hnames'⟩ := exists_ok_of_any h'
  simp only [Bool.and_eq_true, beq_iff_eq] at hanswers hnames'
  obtain ⟨⟨haccepts, hspans⟩, hnames⟩ := hanswers
  obtain ⟨hrequests, _, hpaths⟩ := answers_of_sameFold rfl rfl ht
  have hrequest : Text.SameFold "/xkK/y".toList "/X\u212Ak/Y".toList := by decide +kernel
  have hpath : Text.SameFold "/{a}K{b}*".toList "/{a}\u212A{b}*".toList := by decide +kernel
  obtain ⟨haccepts', hspans'⟩ := hrequests _ _ hrequest
  obtain ⟨haccepts'', hparams⟩ := hpaths _ t' hpath ht' (hnames'.trans hnames.symm) "/xkK/y".toList
  exact ⟨t, t', ht, ht', haccepts, haccepts' ▸ haccepts, hspans, hspans' ▸ hspans,
    haccepts''.trans haccepts, hparams⟩

end Template

end PathRouting

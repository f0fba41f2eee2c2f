import Mathlib.Data.List.Forall2
import PathRouting.Proofs.CharSets
import PathRouting.Proofs.Spans
import PathRouting.Template.Pattern

/-! # Cuts of a request path

A way to follow a template is a list of pieces: separators, the elements between them, and
the suffix. A cut of a request path gives a text to every piece. Of two cuts the one is
preferred that does better at the first piece where they differ: the longer text there for
a separator or the suffix, the shorter one for a parameter or a wildcard. -/

namespace PathRouting

def Policy.IsSeparator (policy : Policy) (t : Text) : Prop :=
  if policy.mergeSlashes then t ≠ [] ∧ ∀ c ∈ t, c = '/' else t = ['/']

def Policy.IsSuffix (policy : Policy) (path t : Text) : Prop :=
  if path = ['/'] then t = []
  else if path.getLast? = some '/' then policy.IsSeparator t
  else if policy.ignoreTrailingSlashes then
    if policy.mergeSlashes then ∀ c ∈ t, c = '/' else t = [] ∨ t = ['/']
  else t = []

/-- What a path asks for behind its last chunk. -/
inductive Tail where
  | nothing
  | slash
  | optionalSlash
  deriving DecidableEq

def Policy.tail (policy : Policy) (path : Text) : Tail :=
  if path = ['/'] then .nothing
  else if path.getLast? = some '/' then .slash
  else if policy.ignoreTrailingSlashes then .optionalSlash
  else .nothing

def Tail.Takes (policy : Policy) : Tail → Text → Prop
  | nothing, t => t = []
  | slash, t => policy.IsSeparator t
  | optionalSlash, t => t = [] ∨ policy.IsSeparator t

theorem Policy.isSeparator_slash (policy : Policy) : policy.IsSeparator ['/'] := by
  unfold IsSeparator
  split <;> simp

theorem Policy.forall_of_isSeparator {policy : Policy} {t : Text} (h : policy.IsSeparator t) :
    t ≠ [] ∧ ∀ c ∈ t, c = '/' := by
  unfold IsSeparator at h
  split at h
  · exact h
  · simp [h]

/-- The least text that is behind the last chunk. -/
def Tail.least : Tail → Text
  | slash => ['/']
  | _ => []

theorem Tail.least_of_ne_slash {tail : Tail} (h : tail ≠ .slash) : tail.least = [] := by
  cases tail with
  | nothing => rfl
  | slash => exact absurd rfl h
  | optionalSlash => rfl

theorem Tail.takes_least (policy : Policy) (tail : Tail) : tail.Takes policy tail.least := by
  cases tail with
  | nothing => exact rfl
  | slash => exact policy.isSeparator_slash
  | optionalSlash => exact .inl rfl

theorem Tail.forall_of_takes {policy : Policy} {tail : Tail} {t : Text} (h : tail.Takes policy t) :
    tail.least.length ≤ t.length ∧ ∀ c ∈ t, c = '/' := by
  cases tail with
  | nothing =>
      obtain rfl : t = [] := h
      simp [least]
  | slash =>
      obtain ⟨hne, hall⟩ := Policy.forall_of_isSeparator h
      exact ⟨List.length_pos_iff.mpr hne, hall⟩
  | optionalSlash =>
      refine ⟨Nat.zero_le t.length, ?_⟩
      rcases h with rfl | h
      · simp
      · exact (Policy.forall_of_isSeparator h).2

/-- A suffix is a text that stands for a slash, or no text, as the path and the policy ask. -/
theorem Policy.isSuffix_iff (policy : Policy) (path t : Text) :
    policy.IsSuffix path t ↔ (policy.tail path).Takes policy t := by
  have hoptional : (t = [] ∨ policy.IsSeparator t) ↔
      if policy.mergeSlashes then ∀ c ∈ t, c = '/' else t = [] ∨ t = ['/'] := by
    unfold Policy.IsSeparator
    split
    · by_cases ht : t = [] <;> simp [ht]
    · rfl
  unfold Policy.IsSuffix Policy.tail
  split
  · rfl
  · split
    · rfl
    · split
      · exact hoptional.symm
      · rfl

def Policy.Same (policy : Policy) (c d : Char) : Prop :=
  if policy.caseless then Unicode.sameFold c d = true else d = c

theorem Policy.same_refl (policy : Policy) (c : Char) : policy.Same c c := by
  unfold Policy.Same
  split
  · exact beq_iff_eq.mpr rfl
  · rfl

theorem Policy.Same.symm {policy : Policy} {c d : Char} (h : policy.Same c d) :
    policy.Same d c := by
  cases hcase : policy.caseless with
  | true =>
      simp only [Policy.Same, hcase, ite_true, Unicode.sameFold, beq_iff_eq] at h ⊢
      exact h.symm
  | false =>
      simp only [Policy.Same, hcase, Bool.false_eq_true, ite_false] at h ⊢
      exact h.symm

theorem Policy.Same.trans {policy : Policy} {c d e : Char} (h : policy.Same c d)
    (h' : policy.Same d e) : policy.Same c e := by
  cases hcase : policy.caseless with
  | true =>
      simp only [Policy.Same, hcase, ite_true, Unicode.sameFold, beq_iff_eq] at h h' ⊢
      exact h.trans h'
  | false =>
      simp only [Policy.Same, hcase, Bool.false_eq_true, ite_false] at h h' ⊢
      exact h'.trans h

/-- A character without case is the same as no other one. -/
theorem Policy.Same.eq_iff {policy : Policy} {c d x : Char} (h : policy.Same c d)
    (hx : Unicode.isUncased x.toNat = true) : c = x ↔ d = x := by
  have hfirst {c d : Char} (h : policy.Same c d) : c = x → d = x := by
    rintro rfl
    unfold Policy.Same at h
    split at h
    · exact (Unicode.sameFold_iff_eq hx d).mp h
    · exact h
  exact ⟨hfirst h, hfirst h.symm⟩

/-- Whether an element of a template that is not a pattern of its own can stand for a
text. -/
def Element.Takes (policy : Policy) : Element → Text → Prop
  | literal text _, t => List.Forall₂ policy.Same text t
  | parameter _ .chunk, t => t ≠ [] ∧ '/' ∉ t
  | parameter _ .path, t => t ≠ [] ∧ '\n' ∉ t
  | wildcard, t => '\n' ∉ t

namespace Template

/-- A part of a way to follow a template. -/
inductive Piece where
  | separator
  | element (e : Element)
  | suffix

def pieces (chunks : List (List Element)) : List Piece :=
  .separator :: [Piece.separator].intercalate (chunks.map (·.map .element)) ++ [.suffix]

namespace Piece

def Takes (policy : Policy) (path : Text) : Piece → Text → Prop
  | separator, t => policy.IsSeparator t
  | element e, t => e.Takes policy t
  | suffix, t => policy.IsSuffix path t

def prefersLong : Piece → Bool
  | separator => true
  | element _ => false
  | suffix => true

/-- Whether a piece rather takes the first text than the second. -/
def Prefers (p : Piece) (t u : Text) : Prop :=
  if p.prefersLong then u.length < t.length else t.length < u.length

end Piece

/-- A cut of a request path into the texts of pieces. -/
structure IsCut (policy : Policy) (path : Text) (ps : List Piece) (uri : Text)
    (cut : List Text) : Prop where
  takes : List.Forall₂ (Piece.Takes policy path) ps cut
  whole : cut.flatten = uri

abbrev HasCut (policy : Policy) (path : Text) (ps : List Piece) (uri : Text) : Prop :=
  ∃ cut, IsCut policy path ps uri cut

/-- Whether a cut does better than another at the first piece where they differ. -/
def Precedes : List Piece → List Text → List Text → Prop
  | p :: ps, t :: ts, u :: us => p.Prefers t u ∨ t = u ∧ Precedes ps ts us
  | _, _, _ => False

/-- The cut that is preferred to all others. -/
structure IsFirstCut (policy : Policy) (path : Text) (ps : List Piece) (uri : Text)
    (cut : List Text) : Prop where
  isCut : IsCut policy path ps uri cut
  first : ∀ other, IsCut policy path ps uri other → other = cut ∨ Precedes ps cut other

/-! ## Texts that can be cut -/

section HasCut

variable {policy : Policy} {path uri : Text} {p : Piece} {ps qs : List Piece}

theorem hasCut_nil_iff : HasCut policy path [] uri ↔ uri = [] := by
  constructor
  · rintro ⟨_, htakes, rfl⟩
    cases htakes
    rfl
  · rintro rfl
    exact ⟨[], .nil, rfl⟩

theorem hasCut_cons_iff :
    HasCut policy path (p :: ps) uri ↔
      ∃ t rest, t ++ rest = uri ∧ p.Takes policy path t ∧ HasCut policy path ps rest := by
  constructor
  · rintro ⟨_, htakes, rfl⟩
    cases htakes with
    | cons ht hrest => exact ⟨_, _, rfl, ht, _, hrest, rfl⟩
  · rintro ⟨t, _, rfl, ht, cut, htakes, rfl⟩
    exact ⟨t :: cut, .cons ht htakes, rfl⟩

theorem hasCut_append_iff :
    HasCut policy path (ps ++ qs) uri ↔
      ∃ front back, front ++ back = uri ∧ HasCut policy path ps front ∧
        HasCut policy path qs back := by
  induction ps generalizing uri with
  | nil => simp [hasCut_nil_iff]
  | cons p ps ih =>
      simp only [List.cons_append, hasCut_cons_iff, ih]
      constructor
      · rintro ⟨t, _, rfl, ht, front, back, rfl, hfront, hback⟩
        exact ⟨t ++ front, back, by simp, ⟨t, front, rfl, ht, hfront⟩, hback⟩
      · rintro ⟨_, back, rfl, ⟨t, front, rfl, ht, hfront⟩, hback⟩
        exact ⟨t, front ++ back, by simp, ht, front, back, rfl, hfront, hback⟩

theorem hasCut_singleton_iff : HasCut policy path [p] uri ↔ p.Takes policy path uri := by
  simp [hasCut_cons_iff, hasCut_nil_iff]

/-- Whether a text can be cut depends on the policy and the path only by what the pieces take. -/
theorem hasCut_congr {policy' : Policy} {path' : Text}
    (h : ∀ p ∈ ps, ∀ t, p.Takes policy path t ↔ p.Takes policy' path' t) :
    HasCut policy path ps uri ↔ HasCut policy' path' ps uri := by
  induction ps generalizing uri with
  | nil => rw [hasCut_nil_iff, hasCut_nil_iff]
  | cons p ps ih =>
      have hrest (rest : Text) := @ih rest fun q hq => h q (by simp [hq])
      simp only [hasCut_cons_iff, hrest, h p (by simp)]

end HasCut

/-! ## The cuts in their order -/

def flags (policy : Policy) : Regex.Flags := { caseless := policy.caseless }

def slash (policy : Policy) : CharSet := (flags policy).literalSet '/'

def splitSeparator (policy : Policy) : Splits :=
  if policy.mergeSlashes then .oneOrMore true (slash policy) else .one (slash policy)

def splitSuffix (policy : Policy) (path : Text) : Splits :=
  if path = ['/'] then .nothing
  else if path.getLast? = some '/' then splitSeparator policy
  else if policy.ignoreTrailingSlashes then
    if policy.mergeSlashes then .many true (slash policy) else .atMostOne (slash policy)
  else .nothing

def splitLiteral (policy : Policy) : Text → Splits
  | [] => .nothing
  | c :: cs => (Splits.one ((flags policy).literalSet c)).andThen (splitLiteral policy cs)

namespace Piece

/-- The ways to split off the text of a piece, in the order of preference. -/
def splits (policy : Policy) (path : Text) : Piece → Splits
  | separator => splitSeparator policy
  | element (.literal text _) => splitLiteral policy text
  | element (.parameter _ .chunk) => .oneOrMore false (flags policy).notSlash
  | element (.parameter _ .path) => .oneOrMore false Regex.Flags.notNewline
  | element .wildcard => .many false Regex.Flags.notNewline
  | suffix => splitSuffix policy path

end Piece

theorem contains_slash (policy : Policy) (c : Char) :
    (slash policy).contains c = true ↔ c = '/' :=
  Regex.Flags.contains_slashSet rfl c

theorem takes_splitSeparator (policy : Policy) :
    (splitSeparator policy).Takes policy.IsSeparator := by
  unfold splitSeparator Policy.IsSeparator
  cases policy.mergeSlashes with
  | true =>
      apply (Splits.takes_oneOrMore true (slash policy)).congr
      simp [contains_slash]
  | false =>
      apply (Splits.takes_one (slash policy)).congr
      simp [contains_slash]

theorem takes_splitSuffix (policy : Policy) (path : Text) :
    (splitSuffix policy path).Takes (policy.IsSuffix path) := by
  unfold splitSuffix Policy.IsSuffix
  split
  · exact Splits.takes_nothing
  · split
    · exact takes_splitSeparator policy
    · split
      · split
        · apply (Splits.takes_many true (slash policy)).congr
          simp [contains_slash]
        · apply (Splits.takes_atMostOne (slash policy)).congr
          intro t
          match t with
          | [] => simp
          | [c] => simp [contains_slash]
          | _ :: _ :: _ => simp
      · exact Splits.takes_nothing

theorem takes_splitLiteral (policy : Policy) (text : Text) :
    (splitLiteral policy text).Takes fun t => List.Forall₂ policy.Same text t := by
  induction text with
  | nil =>
      apply Splits.takes_nothing.congr
      simp
  | cons c cs ih =>
      apply ((Splits.takes_one _).andThen ih).congr
      intro t
      simp only [List.forall₂_cons_left_iff]
      constructor
      · rintro ⟨a, b, rfl, ⟨d, rfl, hd⟩, hb⟩
        exact ⟨d, b, (Regex.Flags.contains_literalSet rfl c d).mp hd, hb, rfl⟩
      · rintro ⟨d, b, hd, hb, rfl⟩
        exact ⟨[d], b, rfl, ⟨d, rfl, (Regex.Flags.contains_literalSet rfl c d).mpr hd⟩, hb⟩

theorem atMostOneWay_splitLiteral (policy : Policy) (text : Text) :
    (splitLiteral policy text).AtMostOneWay := by
  induction text with
  | nil => exact Splits.atMostOneWay_nothing
  | cons c cs ih => exact (Splits.atMostOneWay_one _).andThen ih

theorem prefers_splitSeparator (policy : Policy) : (splitSeparator policy).Prefers true := by
  unfold splitSeparator
  split
  · exact Splits.prefers_oneOrMore true _
  · exact (Splits.atMostOneWay_one _).prefers true

theorem prefers_splitSuffix (policy : Policy) (path : Text) :
    (splitSuffix policy path).Prefers true := by
  unfold splitSuffix
  split
  · exact Splits.atMostOneWay_nothing.prefers true
  · split
    · exact prefers_splitSeparator policy
    · split
      · split
        · exact Splits.prefers_many true _
        · exact Splits.prefers_atMostOne _
      · exact Splits.atMostOneWay_nothing.prefers true

theorem forall_ne_iff_notMem {c : Char} {t : Text} : (∀ d ∈ t, d ≠ c) ↔ c ∉ t :=
  ⟨fun h hc => h c hc rfl, fun h _ hd hdc => h (hdc ▸ hd)⟩

namespace Piece

theorem takes_splits (policy : Policy) (path : Text) (p : Piece) :
    (p.splits policy path).Takes (p.Takes policy path) := by
  cases p with
  | separator => exact takes_splitSeparator policy
  | element e =>
      cases e with
      | literal text raw => exact takes_splitLiteral policy text
      | parameter name reach =>
          cases reach with
          | chunk =>
              apply (Splits.takes_oneOrMore false (flags policy).notSlash).congr
              intro t
              simp only [Regex.Flags.contains_notSlash, forall_ne_iff_notMem, Takes,
                Element.Takes]
          | path =>
              apply (Splits.takes_oneOrMore false Regex.Flags.notNewline).congr
              intro t
              simp only [Regex.Flags.contains_notNewline, forall_ne_iff_notMem, Takes,
                Element.Takes]
      | wildcard =>
          apply (Splits.takes_many false Regex.Flags.notNewline).congr
          intro t
          simp only [Regex.Flags.contains_notNewline, forall_ne_iff_notMem, Takes,
            Element.Takes]
  | suffix => exact takes_splitSuffix policy path

theorem prefers_splits (policy : Policy) (path : Text) (p : Piece) :
    (p.splits policy path).Prefers p.prefersLong := by
  cases p with
  | separator => exact prefers_splitSeparator policy
  | element e =>
      cases e with
      | literal text raw => exact (atMostOneWay_splitLiteral policy text).prefers false
      | parameter name reach =>
          cases reach <;> exact Splits.prefers_oneOrMore false _
      | wildcard => exact Splits.prefers_many false _
  | suffix => exact prefers_splitSuffix policy path

end Piece

/-- All cuts of a request path, the preferred ones first. -/
def cuts (policy : Policy) (path : Text) : List Piece → Text → List (List Text)
  | [], uri => if uri.isEmpty then [[]] else []
  | p :: ps, uri =>
    (p.splits policy path uri).flatMap fun split =>
      (cuts policy path ps split.2).map (split.1 :: ·)

variable {policy : Policy} {path uri : Text} {ps : List Piece} {cut : List Text}

theorem mem_cuts : cut ∈ cuts policy path ps uri ↔ IsCut policy path ps uri cut := by
  induction ps generalizing uri cut with
  | nil =>
      constructor
      · intro h
        cases uri with
        | nil =>
            obtain rfl : cut = [] := by simpa [cuts] using h
            exact ⟨.nil, rfl⟩
        | cons c cs => simp [cuts] at h
      · rintro ⟨htakes, rfl⟩
        cases htakes
        simp [cuts]
  | cons p ps ih =>
      simp only [cuts, List.mem_flatMap, List.mem_map]
      constructor
      · rintro ⟨split, hsplit, rest, hrest, rfl⟩
        obtain ⟨htakes, rfl⟩ := (p.takes_splits policy path uri split).mp hsplit
        obtain ⟨hrest, hwhole⟩ := ih.mp hrest
        exact ⟨.cons htakes hrest, by simp [hwhole]⟩
      · rintro ⟨htakes, rfl⟩
        cases htakes with
        | cons ht hrest =>
            refine ⟨(_, _), (p.takes_splits policy path _ (_, _)).mpr ⟨ht, rfl⟩, _,
              ih.mpr ⟨hrest, rfl⟩, rfl⟩

/-- The cuts are listed in the order of preference. -/
theorem pairwise_cuts (policy : Policy) (path uri : Text) (ps : List Piece) :
    (cuts policy path ps uri).Pairwise (Precedes ps) := by
  induction ps generalizing uri with
  | nil => cases uri <;> simp [cuts]
  | cons p ps ih =>
      rw [cuts, List.pairwise_flatMap]
      refine ⟨?_, (p.prefers_splits policy path uri).imp ?_⟩
      · intro split _
        rw [List.pairwise_map]
        exact (ih split.2).imp fun h => .inr ⟨rfl, h⟩
      · intro split split' hprefers cut hcut cut' hcut'
        obtain ⟨rest, _, rfl⟩ := List.mem_map.mp hcut
        obtain ⟨rest', _, rfl⟩ := List.mem_map.mp hcut'
        exact .inl hprefers

/-- The head of the list of cuts is the preferred one. -/
theorem isFirstCut_of_head? (h : (cuts policy path ps uri).head? = some cut) :
    IsFirstCut policy path ps uri cut := by
  obtain ⟨rest, hrest⟩ := List.head?_eq_some_iff.mp h
  refine ⟨mem_cuts.mp (by simp [hrest]), ?_⟩
  intro other hother
  have hmem := mem_cuts.mpr hother
  rw [hrest] at hmem
  rcases List.mem_cons.mp hmem with hmem | hmem
  · exact .inl hmem
  · have hpairwise := pairwise_cuts policy path uri ps
    rw [hrest, List.pairwise_cons] at hpairwise
    exact .inr (hpairwise.1 other hmem)

theorem exists_cut_iff_head? :
    (∃ cut, IsCut policy path ps uri cut) ↔ ∃ cut, (cuts policy path ps uri).head? = some cut := by
  constructor
  · rintro ⟨cut, hcut⟩
    have hmem := mem_cuts.mpr hcut
    cases hcuts : cuts policy path ps uri with
    | nil => simp [hcuts] at hmem
    | cons first rest => exact ⟨first, rfl⟩
  · rintro ⟨cut, hcut⟩
    exact ⟨cut, (isFirstCut_of_head? hcut).isCut⟩

end Template

end PathRouting

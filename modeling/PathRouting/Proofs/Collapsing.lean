import PathRouting.Proofs.SlashRuns
import PathRouting.Proofs.SubPaths

/-! # Single slashes for runs of slashes

When slashes are merged, a request path with a run of slashes need not count as the one with a
single slash there: two pieces next to each other can share out the run between them where a single
slash is too little for both. This comes from two pieces that a slash is enough for and that have to
take a text. A template without such neighbours does not tell runs of slashes from single ones. -/

namespace PathRouting

namespace Text

/-- The text with a single slash in the place of every run of slashes. -/
def collapse : Text → Text
  | [] => []
  | c :: cs => if c = '/' ∧ cs.head? = some '/' then collapse cs else c :: collapse cs

variable {u v : Text}

theorem head?_collapse (u : Text) : (collapse u).head? = u.head? := by
  induction u with
  | nil => rfl
  | cons c cs ih =>
      rw [collapse]
      split
      · rename_i hrun
        rw [ih, hrun.2, hrun.1, List.head?_cons]
      · rfl

/-- A run of slashes that has been shortened can be one slash longer. -/
theorem Shortened.lengthen (h : Shortened u v) (hv : v.head? = some '/') :
    Shortened ('/' :: u) v := by
  cases h with
  | nil => simp at hv
  | keep hc _ => exact absurd (Option.some.inj hv) hc
  | @run n _ _ _ hm hn hu h => exact .run (n := n + 1) hm (Nat.le_succ_of_le hn) hu h

theorem shortened_collapse (u : Text) : Shortened u (collapse u) := by
  induction u with
  | nil => exact .nil
  | cons c cs ih =>
      rw [collapse]
      split
      · rename_i hrun
        obtain ⟨rfl, hhead⟩ := hrun
        exact ih.lengthen ((head?_collapse cs).trans hhead)
      · exact ih.cons c

theorem length_collapse_le (u : Text) : (collapse u).length ≤ u.length := by
  induction u with
  | nil => exact Nat.le_refl 0
  | cons c cs ih =>
      rw [collapse]
      split
      · exact Nat.le_succ_of_le ih
      · exact Nat.succ_le_succ ih

theorem length_collapse_lt (h : ['/', '/'] <:+: u) : (collapse u).length < u.length := by
  induction u with
  | nil => simp at h
  | cons c cs ih =>
      rw [collapse]
      split
      · exact Nat.lt_succ_of_le (length_collapse_le cs)
      · rename_i hsingle
        rcases List.infix_cons_iff.mp h with hhead | htail
        · obtain ⟨rest, hrest⟩ := hhead
          obtain ⟨rfl, rfl⟩ := List.cons.inj hrest
          exact absurd ⟨rfl, rfl⟩ hsingle
        · exact Nat.succ_lt_succ (ih htail)

/-- What is kept when one of two slashes next to each other goes is kept by collapsing what
follows a front. -/
theorem of_collapse {P : Text → Prop}
    (hstep : ∀ a b, P (a ++ '/' :: '/' :: b) → P (a ++ '/' :: b)) (front : Text)
    (h : P (front ++ u)) : P (front ++ collapse u) := by
  induction u generalizing front with
  | nil => exact h
  | cons c cs ih =>
      rw [collapse]
      split
      · rename_i hrun
        obtain ⟨rfl, hhead⟩ := hrun
        obtain ⟨rest, rfl⟩ := List.head?_eq_some_iff.mp hhead
        exact ih front (hstep front rest h)
      · simpa using ih (front ++ [c]) (by simpa using h)

end Text

theorem Policy.merging_of_eq {policy : Policy} {merge : Bool} (h : policy.mergeSlashes = merge) :
    policy.merging merge = policy := by
  subst h
  rfl

namespace Template

open Text (collapse shortened_collapse)

variable {policy : Policy} {path u v t : Text} {tail : Tail} {p : Piece} {ps : List Piece}

/-! ## What pieces need -/

/-- What a piece needs at the least. -/
inductive Need where
  /-- Not even a text. -/
  | nothing
  /-- A text, and a slash is enough. -/
  | slash
  /-- A text without a slash. -/
  | other
  deriving DecidableEq

theorem Need.eq_slash {n : Need} (h : n ≠ .nothing) (h' : n ≠ .other) : n = .slash := by
  cases n with
  | nothing => exact absurd rfl h
  | slash => rfl
  | other => exact absurd rfl h'

/-- What a piece needs, by what is asked for behind the last chunk. -/
def Piece.need (tail : Tail) : Piece → Need
  | separator => .slash
  | suffix => if tail = .slash then .slash else .nothing
  | element (.literal _ _) => .other
  | element (.parameter _ .chunk) => .other
  | element (.parameter _ .path) => .slash
  | element .wildcard => .nothing

/-- The first of the pieces that needs a text at all, if there is one, needs another than a
slash. -/
def slashSpared (tail : Tail) : List Piece → Bool
  | [] => true
  | p :: ps =>
    match p.need tail with
    | .nothing => slashSpared tail ps
    | .slash => false
    | .other => true

/-- No two pieces that a slash is enough for are next to each other, nor with only such pieces
between them as need nothing. -/
def slashesApart (tail : Tail) : List Piece → Bool
  | [] => true
  | p :: ps => (p.need tail != .slash || slashSpared tail ps) && slashesApart tail ps

theorem takes_nil_iff (hp : p.Solid) :
    p.Takes policy path [] ↔ p.need (policy.tail path) = .nothing := by
  have hseparator : ¬policy.IsSeparator [] := fun h => (Policy.forall_of_isSeparator h).1 rfl
  cases p with
  | separator => simpa [Piece.Takes, Piece.need] using hseparator
  | suffix =>
      rw [Piece.Takes, Policy.isSuffix_iff, Piece.need]
      cases policy.tail path <;> simp [Tail.Takes, hseparator]
  | element e =>
      cases e with
      | literal text raw => simpa [Piece.Takes, Element.Takes, Piece.need] using hp.1
      | wildcard => simp [Piece.Takes, Element.Takes, Piece.need]
      | parameter name reach => cases reach <;> simp [Piece.Takes, Element.Takes, Piece.need]

theorem need_ne_other (hp : p.Solid) (h : p.Takes policy path t) (hslash : '/' ∈ t) :
    p.need tail ≠ .other := by
  cases p with
  | separator => simp [Piece.need]
  | suffix =>
      rw [Piece.need]
      split <;> simp
  | element e =>
      cases e with
      | literal text raw => exact absurd hslash (slash_notMem_of_same h hp.2)
      | wildcard => simp [Piece.need]
      | parameter name reach =>
          cases reach with
          | chunk => exact absurd hslash h.2
          | path => simp [Piece.need]

/-! ## Slashes that are far enough apart -/

/-- Pieces that spare the slash in front of a text can do without it. -/
theorem hasCut_of_slashSpared (hmerge : policy.mergeSlashes = true) (hps : ∀ p ∈ ps, p.Solid)
    (hspared : slashSpared (policy.tail path) ps = true)
    (h : HasCut policy path ps ('/' :: u)) : HasCut policy path ps u := by
  induction ps with
  | nil => simp [hasCut_nil_iff] at h
  | cons p ps ih =>
      have hp : p.Solid := hps p (by simp)
      obtain ⟨t, rest, hwhole, ht, hrest⟩ := hasCut_cons_iff.mp h
      rw [hasCut_cons_iff]
      rw [slashSpared] at hspared
      rcases List.append_eq_cons_iff.mp hwhole with ⟨rfl, rfl⟩ | ⟨t', rfl, rfl⟩
      · rw [(takes_nil_iff hp).mp ht] at hspared
        exact ⟨[], u, rfl, ht, ih (fun q hq => hps q (by simp [hq])) hspared hrest⟩
      · have hother : p.need (policy.tail path) ≠ .other := need_ne_other hp ht (by simp)
        have hneed : p.need (policy.tail path) = .nothing := by
          cases hneed : p.need (policy.tail path) with
          | nothing => rfl
          | slash => simp [hneed] at hspared
          | other => exact absurd hneed hother
        have ht' := takes_of_subset hmerge hp ht (v := t') (by simp) (by simp) fun _ =>
          (takes_nil_iff hp).mpr hneed
        exact ⟨t', rest, rfl, ht', hrest⟩

/-- Pieces with their slashes apart can do with one of two slashes. -/
theorem hasCut_single (hmerge : policy.mergeSlashes = true) (hps : ∀ p ∈ ps, p.Solid)
    (hapart : slashesApart (policy.tail path) ps = true) (a b : Text)
    (h : HasCut policy path ps (a ++ '/' :: '/' :: b)) :
    HasCut policy path ps (a ++ '/' :: b) := by
  induction ps generalizing a with
  | nil => simp [hasCut_nil_iff] at h
  | cons p ps ih =>
      have hp : p.Solid := hps p (by simp)
      have hps : ∀ q ∈ ps, q.Solid := fun q hq => hps q (by simp [hq])
      rw [slashesApart, Bool.and_eq_true] at hapart
      obtain ⟨t, rest, hwhole, ht, hrest⟩ := hasCut_cons_iff.mp h
      rw [hasCut_cons_iff]
      rcases List.append_eq_append_iff.mp hwhole with ⟨r, rfl, rfl⟩ | ⟨r, rfl, hr⟩
      · exact ⟨t, r ++ '/' :: b, by simp, ht, ih hps hapart.2 r hrest⟩
      · rcases List.cons_eq_append_iff.mp hr with ⟨rfl, rfl⟩ | ⟨r, rfl, hmore⟩
        · exact ⟨a, '/' :: b, rfl, by simpa using ht, ih hps hapart.2 [] hrest⟩
        · rcases List.cons_eq_append_iff.mp hmore with ⟨rfl, rfl⟩ | ⟨r, rfl, rfl⟩
          · -- One slash is the last of this piece, the other the first of those behind it.
            by_cases hkeep : a = [] ∧ p.need (policy.tail path) ≠ .nothing
            · obtain ⟨rfl, hneed⟩ := hkeep
              have hother : p.need (policy.tail path) ≠ .other := need_ne_other hp ht (by simp)
              have hspared : slashSpared (policy.tail path) ps = true := by
                simpa [Need.eq_slash hneed hother] using hapart.1
              exact ⟨['/'], b, rfl, ht, hasCut_of_slashSpared hmerge hps hspared hrest⟩
            · have ha : p.Takes policy path a :=
                takes_of_subset hmerge hp ht (by simp) (by simp) fun ha =>
                  (takes_nil_iff hp).mpr (not_and_not_right.mp hkeep ha)
              exact ⟨a, '/' :: b, rfl, ha, hrest⟩
          · exact ⟨a ++ '/' :: r, rest, by simp,
              takes_of_subset hmerge hp ht (by simp) (by simp) (by simp), hrest⟩

theorem hasCut_collapse (hmerge : policy.mergeSlashes = true) (hps : ∀ p ∈ ps, p.Solid)
    (hapart : slashesApart (policy.tail path) ps = true) (h : HasCut policy path ps u) :
    HasCut policy path ps (collapse u) :=
  Text.of_collapse (hasCut_single hmerge hps hapart) [] h

/-! ## Slashes that are too close -/

def Piece.least (tail : Tail) : Piece → Text
  | separator => ['/']
  | suffix => tail.least
  | element (.literal text _) => text
  | element (.parameter _ .chunk) => ['a']
  | element (.parameter _ .path) => ['/']
  | element .wildcard => []

def leastOf (tail : Tail) (ps : List Piece) : Text := ps.flatMap (Piece.least tail)

theorem least_of_nothing (h : p.need tail = .nothing) : p.least tail = [] := by
  unfold Piece.need at h
  unfold Piece.least
  split at h <;> simp_all [Tail.least_of_ne_slash]

theorem least_of_slash (h : p.need tail = .slash) : p.least tail = ['/'] := by
  unfold Piece.need at h
  unfold Piece.least
  split at h <;> simp_all [Tail.least]

theorem takes_least (policy : Policy) (path : Text) (p : Piece) :
    p.Takes policy path (p.least (policy.tail path)) := by
  cases p with
  | separator => exact policy.isSeparator_slash
  | suffix => exact (policy.isSuffix_iff path _).mpr ((policy.tail path).takes_least policy)
  | element e =>
      cases e with
      | literal text raw => exact List.forall₂_same.mpr fun c _ => policy.same_refl c
      | wildcard => exact List.not_mem_nil
      | parameter name reach => cases reach <;> simp [Piece.Takes, Element.Takes, Piece.least]

theorem length_least_le (h : p.Takes policy path t) :
    (p.least (policy.tail path)).length ≤ t.length := by
  cases p with
  | separator => exact List.length_pos_iff.mpr (Policy.forall_of_isSeparator h).1
  | suffix => exact (Tail.forall_of_takes ((policy.isSuffix_iff path t).mp h)).1
  | element e =>
      cases e with
      | literal text raw => exact h.length_eq.le
      | wildcard => exact Nat.zero_le t.length
      | parameter name reach => cases reach <;> exact List.length_pos_iff.mpr h.1

theorem hasCut_leastOf (policy : Policy) (path : Text) (ps : List Piece) :
    HasCut policy path ps (leastOf (policy.tail path) ps) := by
  refine ⟨ps.map (Piece.least (policy.tail path)), ?_, List.flatMap_def.symm⟩
  rw [List.forall₂_map_right_iff, List.forall₂_same]
  exact fun p _ => takes_least policy path p

theorem length_leastOf_le (h : HasCut policy path ps u) :
    (leastOf (policy.tail path) ps).length ≤ u.length := by
  induction ps generalizing u with
  | nil => exact Nat.zero_le u.length
  | cons p ps ih =>
      obtain ⟨t, rest, rfl, ht, hrest⟩ := hasCut_cons_iff.mp h
      rw [leastOf, List.flatMap_cons, List.length_append, List.length_append]
      exact Nat.add_le_add (length_least_le ht) (ih hrest)

theorem leastOf_of_not_slashSpared (h : slashSpared tail ps = false) :
    ['/'] <+: leastOf tail ps := by
  induction ps with
  | nil => simp [slashSpared] at h
  | cons p ps ih =>
      rw [slashSpared] at h
      rw [leastOf, List.flatMap_cons]
      cases hneed : p.need tail with
      | nothing =>
          rw [hneed] at h
          rw [least_of_nothing hneed]
          exact ih h
      | slash =>
          rw [least_of_slash hneed]
          exact List.prefix_append ['/'] _
      | other => simp [hneed] at h

/-- Where slashes are too close, two of them are next to each other in the least text. -/
theorem infix_leastOf (h : slashesApart tail ps = false) : ['/', '/'] <:+: leastOf tail ps := by
  induction ps with
  | nil => simp [slashesApart] at h
  | cons p ps ih =>
      rw [slashesApart, Bool.and_eq_false_iff, Bool.or_eq_false_iff, bne_eq_false_iff_eq] at h
      rw [leastOf, List.flatMap_cons]
      rcases h with ⟨hneed, hspared⟩ | hlater
      · rw [least_of_slash hneed]
        exact ((List.prefix_cons_inj '/').mpr (leastOf_of_not_slashSpared hspared)).isInfix
      · exact (ih hlater).trans (List.suffix_append _ _).isInfix

/-! ## The ways to follow a path -/

variable {ess way : List (List Element)}

/-- A piece that needs more than a slash keeps those in front of it and behind it apart. -/
theorem slashesApart_append (hp : p.need tail = .other) (front back : List Piece) :
    slashesApart tail (front ++ p :: back) =
      (slashesApart tail (front ++ [p]) && slashesApart tail back) := by
  have hspared (front : List Piece) :
      slashSpared tail (front ++ p :: back) = slashSpared tail (front ++ [p]) := by
    induction front with
    | nil => simp [slashSpared, hp]
    | cons q front ih => simp [slashSpared, ih]
  induction front with
  | nil => simp [slashesApart, slashSpared, hp]
  | cons q front ih => simp [slashesApart, hspared, ih, Bool.and_assoc]

/-- Chunks end in the last element of the last one. -/
theorem exists_stem_concat (init : List (List Element)) (es : List Element) (e : Element) :
    ∃ front, stem (init ++ [es ++ [e]]) = front ++ [.element e] := by
  by_cases hinit : init = []
  · subst hinit
    exact ⟨.separator :: es.map .element, by simp [stem_singleton]⟩
  · refine ⟨stem init ++ .separator :: es.map .element, ?_⟩
    rw [stem_concat hinit]
    simp

/-- What an element takes in which a slash can be goes on as far as the line does. -/
theorem takes_line {e : Element} {w : Text} (he : (Piece.element e).need tail ≠ .other)
    (h : e.Takes policy t) (hw : '\n' ∉ w) : e.Takes policy (t ++ '/' :: w) := by
  cases e with
  | literal text raw => exact absurd rfl he
  | wildcard =>
      have ht : '\n' ∉ t := h
      simp [Element.Takes, ht, hw]
  | parameter name reach =>
      cases reach with
      | chunk => exact absurd rfl he
      | path => simp [Element.Takes, h.2, hw]

/-- What is below chunks with such an element at their end is followed by the chunks alone. -/
theorem hasCut_of_covering {front : List Piece} {e : Element} (hends : path.getLast? ≠ some '/')
    (hess : ess ≠ []) (hstem : stem ess = front ++ [.element e])
    (he : (Piece.element e).need tail ≠ .other)
    (h : HasCut policy path (pieces (ess ++ [[.wildcard]])) u) :
    HasCut policy path (pieces ess) u := by
  rw [pieces_covering hess, hstem, hasCut_append_iff] at h
  obtain ⟨_, _, rfl, hfront, hback⟩ := h
  obtain ⟨w, rfl, hw⟩ := (hasCut_below hends).mp hback
  obtain ⟨v, t, rfl, hv, ht⟩ := hasCut_append_iff.mp hfront
  have hline : HasCut policy path [.element e] (t ++ '/' :: w) :=
    hasCut_singleton_iff.mpr (takes_line he (hasCut_singleton_iff.mp ht) hw)
  have hnothing : HasCut policy path [.suffix] [] := hasCut_singleton_iff.mpr (isSuffix_nil hends)
  rw [pieces_eq_stem, hstem]
  refine hasCut_append_iff.mpr ⟨_, [], ?_, hasCut_append_iff.mpr ⟨v, _, rfl, hv, hline⟩, hnothing⟩
  simp

/-- A path of which the chunks keep slashes apart is followed with single slashes, too. -/
theorem exists_way_collapse (hmerge : policy.mergeSlashes = true)
    (hspelled : List.Forall₂ (Element.Spelling false) (chunks path) ess)
    (hapart : slashesApart (policy.tail path) (pieces ess) = true) (hway : way ∈ waysOf path ess)
    (hcut : HasCut policy path (pieces way) u) :
    ∃ way ∈ waysOf path ess, HasCut policy path (pieces way) (collapse u) := by
  have hchunks : ess ∈ waysOf path ess := mem_waysOf_iff.mpr (.inl rfl)
  have hplain (hcut : HasCut policy path (pieces ess) u) :
      ∃ way ∈ waysOf path ess, HasCut policy path (pieces way) (collapse u) :=
    ⟨ess, hchunks, hasCut_collapse hmerge (solid_way hspelled hchunks) hapart hcut⟩
  rcases mem_waysOf_iff.mp hway with rfl | ⟨hcovers, rfl⟩
  · exact hplain hcut
  · have hends := getLast?_ne_slash hcovers
    obtain ⟨init, es, e, rfl⟩ := exists_last hcovers hspelled
    obtain ⟨front, hstem⟩ := exists_stem_concat init es e
    have hess : init ++ [es ++ [e]] ≠ [] := by simp
    by_cases he : (Piece.element e).need (policy.tail path) = .other
    · have hbelow : slashesApart (policy.tail path)
          (pieces (init ++ [es ++ [e]] ++ [[.wildcard]])) = true := by
        rw [pieces_eq_stem, hstem, List.append_assoc, List.singleton_append,
          slashesApart_append he, Bool.and_eq_true] at hapart
        rw [pieces_covering hess, hstem, List.append_assoc, List.singleton_append,
          slashesApart_append he, hapart.1]
        simp [slashesApart, slashSpared, Piece.need, tail_ne_slash hends]
      exact ⟨_, hway, hasCut_collapse hmerge (solid_way hspelled hway) hbelow hcut⟩
    · exact hplain (hasCut_of_covering hends hess hstem he hcut)

/-- No way to follow a path takes less than the least text of its chunks. -/
theorem length_leastOf_chunks_le
    (hspelled : List.Forall₂ (Element.Spelling false) (chunks path) ess)
    (hway : way ∈ waysOf path ess) (h : HasCut policy path (pieces way) u) :
    (leastOf (policy.tail path) (pieces ess)).length ≤ u.length := by
  rcases mem_waysOf_iff.mp hway with rfl | ⟨hcovers, rfl⟩
  · exact length_leastOf_le h
  · have hends := getLast?_ne_slash hcovers
    obtain ⟨init, es, e, rfl⟩ := exists_last hcovers hspelled
    rw [pieces_covering (by simp), hasCut_append_iff] at h
    obtain ⟨front, back, rfl, hfront, _⟩ := h
    have hsuffix : Piece.suffix.least (policy.tail path) = [] :=
      Tail.least_of_ne_slash (tail_ne_slash hends)
    calc (leastOf (policy.tail path) (pieces (init ++ [es ++ [e]]))).length
        = (leastOf (policy.tail path) (stem (init ++ [es ++ [e]]))).length := by
          simp [leastOf, pieces_eq_stem, hsuffix]
      _ ≤ front.length := length_leastOf_le hfront
      _ ≤ (front ++ back).length := by simp

/-- When slashes are merged, a template with plain literals accepts a request path if it accepts it
with single slashes in the place of its runs of slashes. The two agree on all request paths just
if separators, parameters that accept slashes, and a slash at the end of the path are nowhere next
to each other or with wildcards only between them. -/
theorem accepts_collapse_iff {t : Template} (hraw : policy.rawLiterals = false)
    (hmerge : policy.mergeSlashes = true) (h : ofPath policy path = .ok t) :
    (∀ u, t.accepts (collapse u) = true → t.accepts u = true) ∧
      ((∀ u, t.accepts u = t.accepts (collapse u)) ↔
        slashesApart (policy.tail path) (pieces (t.segments.map Segment.elements)) = true) := by
  have hmade := madeOf_of_spelled hraw h (hraw ▸ spelled_of_ofPath h)
  generalize t.segments.map Segment.elements = ess at hmade ⊢
  have hspelled := hmade.spelled
  have hlonger (u : Text) (haccepts : t.accepts (collapse u) = true) : t.accepts u = true := by
    rw [hmade.accepts_iff] at haccepts ⊢
    obtain ⟨way, hway, hcut⟩ := haccepts
    refine ⟨way, hway, ?_⟩
    rw [← Policy.merging_of_eq hmerge] at hcut ⊢
    exact hasCut_of_shortened (solid_way hspelled hway) (shortened_collapse u) hcut
  refine ⟨hlonger, ?_, ?_⟩
  · intro hsame
    by_contra hclose
    -- The least text of the chunks has two slashes next to each other and cannot be made shorter.
    have hinfix := infix_leastOf (Bool.not_eq_true _ ▸ hclose)
    have hleast : t.accepts (leastOf (policy.tail path) (pieces ess)) = true :=
      (hmade.accepts_iff _).mpr ⟨ess, mem_waysOf_iff.mpr (.inl rfl), hasCut_leastOf policy path _⟩
    rw [hsame, hmade.accepts_iff] at hleast
    obtain ⟨way, hway, hcut⟩ := hleast
    have hshorter := Text.length_collapse_lt hinfix
    have hlength := length_leastOf_chunks_le hspelled hway hcut
    omega
  · intro hapart u
    rw [Bool.eq_iff_iff]
    refine ⟨?_, hlonger u⟩
    intro haccepts
    obtain ⟨way, hway, hcut⟩ := (hmade.accepts_iff u).mp haccepts
    exact (hmade.accepts_iff _).mpr (exists_way_collapse hmerge hspelled hapart hway hcut)

theorem accepts_collapse_behind_literal :
    ∃ t, ofPath { mergeSlashes := true } "/files/{f}-<p>".toList = .ok t ∧
      t.accepts "//files///a-//b".toList = true ∧
      t.accepts (collapse "//files///a-//b".toList) = true ∧
        ∀ u, t.accepts u = t.accepts (collapse u) := by
  have h : (ofPath { mergeSlashes := true } "/files/{f}-<p>".toList).toOption.any
      (fun t => t.accepts "//files///a-//b".toList &&
        slashesApart (Policy.tail { mergeSlashes := true } "/files/{f}-<p>".toList)
          (pieces (t.segments.map Segment.elements))) = true := by decide +kernel
  obtain ⟨t, ht, hall⟩ := exists_ok_of_any h
  obtain ⟨haccepts, hapart⟩ := Bool.and_eq_true_iff.mp hall
  have hsame := (accepts_collapse_iff rfl rfl ht).2.mpr hapart
  exact ⟨t, ht, haccepts, hsame _ ▸ haccepts, hsame⟩

/-- A parameter that accepts slashes takes the second slash of a run; of a single slash the
separator leaves it nothing. -/
theorem not_accepts_collapse :
    ∃ t, ofPath { mergeSlashes := true } "/files/<p>".toList = .ok t ∧
      t.accepts "/files//".toList = true ∧ collapse "/files//".toList = "/files/".toList ∧
        t.accepts (collapse "/files//".toList) = false := by
  have h : (ofPath { mergeSlashes := true } "/files/<p>".toList).toOption.any
      (fun t => t.accepts "/files//".toList && !t.accepts (collapse "/files//".toList)) = true := by
    decide +kernel
  obtain ⟨t, ht, hall⟩ := exists_ok_of_any h
  rw [Bool.and_eq_true, Bool.not_eq_true'] at hall
  exact ⟨t, ht, hall.1, by decide, hall.2⟩

end Template

end PathRouting

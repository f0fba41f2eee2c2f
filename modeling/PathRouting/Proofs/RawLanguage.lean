import PathRouting.Proofs.Alignment
import PathRouting.Proofs.Fragments

/-! # The language of a template with raw literals

The raw literals of a template are put into its patterns as they are. If each of them is a
pattern of its own that stays in its place, then the template accepts exactly the request paths
that can be cut into its pieces, the text of a raw literal being what its pattern takes. -/

namespace PathRouting

/-! ## Tasks that split texts -/

namespace Task

def spelled (u : Text) : List Task :=
  u.map (fun c => .run (.one (.single c))) ++ [.run (.look .textEnd)]

theorem takesAll_spelled {u front t back : Text} :
    TakesAll (spelled u) front t back ↔ t = u ∧ back = [] := by
  induction u generalizing front t with
  | nil => simp [spelled, takesAll_run, Regex.Takes, Look.holds]
  | cons c cs ih =>
      have hcons : spelled (c :: cs) = .run (.one (.single c)) :: spelled cs := rfl
      simp only [hcons, TakesAll, Takes, Regex.Takes, CharSet.contains_single, ih]
      constructor
      · rintro ⟨_, _, rfl, ⟨d, rfl, rfl⟩, rfl, rfl⟩
        exact ⟨rfl, rfl⟩
      · rintro ⟨rfl, rfl⟩
        exact ⟨[c], cs, rfl, ⟨c, rfl, rfl⟩, rfl, rfl⟩

/-- Tasks that split texts take what they split off. -/
theorem SplitAs.takesAll_iff {ks : List Task} {marks : Nat → Nat → Slots} {f : Splits}
    {P : Text → Prop} (h : SplitAs ks marks f) (hf : f.Takes P) (front t back : Text) :
    TakesAll ks front t back ↔ P t := by
  have hruns := runs_ne_nil_iff (ks ++ spelled back) front 0 (t ++ back)
  have hsplit : (∃ u v, t ++ back = u ++ v ∧ TakesAll (ks ++ spelled back) front u v) ↔
      TakesAll ks front t back := by
    simp only [takesAll_append, takesAll_spelled]
    constructor
    · rintro ⟨_, v, heq, u, _, rfl, hks, rfl, rfl⟩
      obtain rfl : t = u := by simpa using heq
      simpa using hks
    · intro hks
      exact ⟨t ++ back, [], by simp, t, back, rfl, by simpa using hks, rfl, rfl⟩
  rw [← hsplit, ← hruns, h, ne_eq, List.flatMap_eq_nil_iff, Classical.not_forall]
  constructor
  · rintro ⟨⟨u, v⟩, hmore⟩
    obtain ⟨hmem, hne⟩ := Classical.not_imp.mp hmore
    obtain ⟨hu, heq⟩ := (hf _ _).mp hmem
    have hback : runs (front ++ u).getLast? (0 + u.length) (spelled back) v ≠ [] := by
      rw [List.getLast?_append]
      simpa using hne
    obtain ⟨w, rest, rfl, hw⟩ := (runs_ne_nil_iff _ _ _ _).mp hback
    obtain ⟨rfl, rfl⟩ := takesAll_spelled.mp hw
    obtain rfl : u = t := by simpa using heq
    exact hu
  · intro ht
    refine ⟨(t, back), Classical.not_imp.mpr ⟨(hf _ _).mpr ⟨ht, rfl⟩, ?_⟩⟩
    have hback : runs (front ++ t).getLast? (0 + t.length) (spelled back) back ≠ [] :=
      (runs_ne_nil_iff _ _ _ _).mpr ⟨back, [], by simp, takesAll_spelled.mpr ⟨rfl, rfl⟩⟩
    rw [List.getLast?_append] at hback
    simpa using hback

end Task

/-! ## Raw literals that stay in their places -/

def Element.selfContained (policy : Policy) : Element → Bool
  | literal text true => Regex.selfContained policy.caseless text
  | _ => true

def Element.conditionFree (policy : Policy) : Element → Bool
  | literal text true => (Regex.read policy.caseless text).toOption.all Regex.conditionFree
  | _ => true

namespace Template

open Regex (Bare Part isSeam selfContained)
open Regex.Reader (Reads Adds)

variable {policy : Policy} {path : Text}

/-! ## Cuts into the texts of pieces -/

namespace Piece

/-- Whether a piece can stand for a text. A raw literal does so if `own` holds of the pattern
that the literal writes by itself. -/
def TakesBy (policy : Policy) (path : Text) (own : Regex → Prop) : Piece → Text → Prop
  | element (.literal text true), _ => ∃ r, Regex.read policy.caseless text = .ok r ∧ own r
  | p, t => p.Takes policy path t

/-- Whether a piece can stand for a text where `front` stands before it and `back` behind it.
The pattern of a raw literal has to take the text there, and its conditions are asked in this
place. -/
def TakesAt (policy : Policy) (path : Text) (p : Piece) (front t back : Text) : Prop :=
  p.TakesBy policy path (·.Takes front t back) t

/-- Whether a piece can stand for a text that is looked at alone. The pattern of a raw literal
has to match the text as a whole. -/
def TakesAlone (policy : Policy) (path : Text) (p : Piece) (t : Text) : Prop :=
  p.TakesBy policy path (·.whole.isMatch t = true) t

end Piece

/-- Pieces that stand for texts one after another, from `front` on and up to `back`. -/
inductive TakeInTurn (policy : Policy) (path : Text) :
    List Piece → Text → List Text → Text → Prop
  | nil (front back : Text) : TakeInTurn policy path [] front [] back
  | cons {p : Piece} {ps : List Piece} {front t : Text} {ts : List Text} {back : Text} :
      p.TakesAt policy path front t (ts.flatten ++ back) →
      TakeInTurn policy path ps (front ++ t) ts back →
      TakeInTurn policy path (p :: ps) front (t :: ts) back

/-- A cut of a request path into the texts of pieces, each of them in its place. -/
structure IsCutInPlace (policy : Policy) (path : Text) (ps : List Piece) (uri : Text)
    (cut : List Text) : Prop where
  takes : TakeInTurn policy path ps [] cut []
  whole : cut.flatten = uri

/-- A cut of a request path into the texts of pieces, each of them alone. -/
structure IsCutAlone (policy : Policy) (path : Text) (ps : List Piece) (uri : Text)
    (cut : List Text) : Prop where
  takes : List.Forall₂ (Piece.TakesAlone policy path) ps cut
  whole : cut.flatten = uri

/-! ## Reading pieces in their places -/

namespace Piece

def isLiteral : Piece → Bool
  | element (.literal _ _) => true
  | _ => false

/-- Two pieces that may stand side by side: no literal stands behind a literal and nothing
behind the suffix. -/
def Parted (p q : Piece) : Prop := p ≠ suffix ∧ (p.isLiteral = true → q.isLiteral = false)

def InPlace (policy : Policy) : Piece → Prop
  | element (.literal text true) => Bare text ∧ selfContained policy.caseless text = true
  | _ => True

def ConditionFree (policy : Policy) : Piece → Prop
  | element e => e.conditionFree policy = true
  | _ => True

theorem takesAll_parts (g : Grouping) (n : Nat) (p : Piece) (front t back : Text) :
    Task.TakesAll (tasks (p.parts policy path g n)) front t back ↔ p.Takes policy path t :=
  (p.splitAs_parts policy path g n).takesAll_iff (p.takes_splits policy path) front t back

theorem escaped_or_raw (p : Piece) : p.Escaped ∨ ∃ text, p = element (.literal text true) := by
  cases p with
  | separator => exact .inl trivial
  | suffix => exact .inl trivial
  | element e =>
      cases e with
      | literal text raw =>
          cases raw with
          | false => exact .inl rfl
          | true => exact .inr ⟨text, rfl⟩
      | parameter name reach => exact .inl trivial
      | wildcard => exact .inl trivial

theorem takesBy_of_escaped {p : Piece} (hp : p.Escaped) (own : Regex → Prop) (t : Text) :
    p.TakesBy policy path own t ↔ p.Takes policy path t := by
  cases p with
  | separator => rfl
  | suffix => rfl
  | element e =>
      cases e with
      | literal text raw =>
          obtain rfl : raw = false := hp
          rfl
      | parameter name reach => rfl
      | wildcard => rfl

/-- No piece that stays in its place begins with a question mark. -/
theorem InPlace.head?_fragment {p : Piece} (hp : p.InPlace policy) {rest : Text}
    (hrest : rest.head? ≠ some '?') :
    (p.fragment policy path .plain ++ rest).head? ≠ some '?' := by
  rcases p.escaped_or_raw with hescaped | ⟨text, rfl⟩
  · exact Piece.head?_fragment policy path .plain hescaped hrest
  · cases text with
    | nil => exact hrest
    | cons c cs =>
        have hhead := Regex.head?_of_selfContained hp.2
        simpa [fragment, Element.fragment] using hhead

end Piece

theorem head?_ne_of_seam {X : Text} (hX : X.head?.any isSeam = true) : X.head? ≠ some '?' := by
  intro hhead
  rw [hhead] at hX
  exact absurd hX (by decide)

theorem head?_fragments_ne (path : Text) {ps : List Piece}
    (hps : ∀ p ∈ ps, p.InPlace policy) {rest : Text} (hrest : rest.head? ≠ some '?') :
    (ps.flatMap (Piece.fragment policy path .plain) ++ rest).head? ≠ some '?' := by
  induction ps with
  | nil => exact hrest
  | cons p ps ih =>
      rw [List.flatMap_cons, List.append_assoc]
      exact (hps p (by simp)).head?_fragment (ih fun q hq => hps q (by simp [hq]))

/-- Behind a literal stands a character that ends it. -/
theorem head?_fragments_seam (policy : Policy) (path : Text) {ps : List Piece} {X : Text}
    (hX : X.head?.any isSeam = true) (hchain : ps.IsChain Piece.Parted)
    (hfirst : ∀ p ∈ ps.head?, p.isLiteral = false) :
    (ps.flatMap (Piece.fragment policy path .plain) ++ X).head?.any isSeam = true := by
  cases ps with
  | nil => exact hX
  | cons p ps =>
      have hp := hfirst p rfl
      rw [List.flatMap_cons, List.append_assoc]
      cases p with
      | separator =>
          simp only [Piece.fragment, separator]
          split <;> rfl
      | suffix =>
          have hlast : ps = [] := by
            cases ps with
            | nil => rfl
            | cons q ps => exact absurd rfl ((List.isChain_cons.mp hchain).1 q rfl).1
          subst hlast
          simp only [Piece.fragment, suffix, separator]
          split
          · exact hX
          · split
            · split <;> rfl
            · split
              · split <;> rfl
              · exact hX
      | element e =>
          cases e with
          | literal text raw => simp [Piece.isLiteral] at hp
          | parameter name reach => cases reach <;> rfl
          | wildcard => rfl

variable {r : Regex.Reader}

/-- A piece that stays in its place is read there as parts that take what the piece takes. -/
theorem Piece.InPlace.exists_reads {p : Piece} (hp : p.InPlace policy) (path : Text) {X : Text}
    (hX : X.head? ≠ some '?') (hseam : p.isLiteral = true → X.head?.any isSeam = true)
    (hflags : r.flags = flags policy) (houter : r.outer = []) (hbranches : r.level.branches = []) :
    ∃ parts r', Reads r (p.fragment policy path .plain ++ X) r' X ∧ r.Adds parts r' ∧
      ∀ front t back, Task.TakesAll (tasks parts) front t back ↔
        p.TakesAt policy path front t back := by
  rcases p.escaped_or_raw with hescaped | ⟨text, rfl⟩
  · refine ⟨_, _, p.reads_fragment hflags path .plain hescaped hX, r.adds_extended _ _, ?_⟩
    intro front t back
    rw [takesAll_parts, TakesAt, takesBy_of_escaped hescaped]
  · obtain ⟨a, parts, r', hread, hreads, hadds, htakes⟩ :=
      Regex.Reader.reads_selfContained hp.1 hp.2 (hseam rfl) hflags houter hbranches
    refine ⟨parts, r', hreads, hadds, ?_⟩
    intro front t back
    refine (htakes front t back).trans ?_
    constructor
    · intro h
      exact ⟨a, hread, h⟩
    · rintro ⟨b, hb, h⟩
      rwa [Except.ok.inj (hread.symm.trans hb)]

/-- Pieces that stay in their places are read as parts that take the pieces one after
another. -/
theorem exists_reads_pieces (path : Text) {ps : List Piece} (hps : ∀ p ∈ ps, p.InPlace policy)
    (hchain : ps.IsChain Piece.Parted) {X : Text} (hX : X.head?.any isSeam = true)
    (hflags : r.flags = flags policy) (houter : r.outer = []) (hbranches : r.level.branches = []) :
    ∃ parts r', Reads r (ps.flatMap (Piece.fragment policy path .plain) ++ X) r' X ∧
      r.Adds parts r' ∧ ∀ front t back, Task.TakesAll (tasks parts) front t back ↔
        ∃ cut, TakeInTurn policy path ps front cut back ∧ cut.flatten = t := by
  induction ps generalizing r with
  | nil =>
      refine ⟨[], r, .refl r X, ⟨rfl, rfl, rfl⟩, ?_⟩
      intro front t back
      constructor
      · rintro rfl
        exact ⟨[], .nil front back, rfl⟩
      · rintro ⟨_, ⟨⟩, rfl⟩
        rfl
  | cons p ps ih =>
      have hps' : ∀ q ∈ ps, q.InPlace policy := fun q hq => hps q (by simp [hq])
      obtain ⟨hparted, hchain'⟩ := List.isChain_cons.mp hchain
      have hhead := head?_fragments_ne path hps' (head?_ne_of_seam hX)
      have hseam (hp : p.isLiteral = true) :=
        head?_fragments_seam policy path hX hchain'
          fun q hq => (hparted q hq).2 hp
      obtain ⟨parts, r₁, hreads, hadds, htakes⟩ :=
        (hps p (by simp)).exists_reads path hhead hseam hflags houter hbranches
      obtain ⟨parts', r₂, hreads', hadds', htakes'⟩ :=
        ih hps' hchain' (hadds.flags.trans hflags) (hadds.outer.trans houter)
          (by rw [hadds.level, hbranches])
      rw [List.flatMap_cons, List.append_assoc]
      refine ⟨parts ++ parts', r₂, hreads.trans hreads', hadds.trans hadds', ?_⟩
      intro front t back
      have htasks : tasks (parts ++ parts') = tasks parts ++ tasks parts' := by simp [tasks]
      rw [htasks, Task.takesAll_append]
      constructor
      · rintro ⟨u, v, rfl, hu, hv⟩
        obtain ⟨cut, hcut, rfl⟩ := (htakes' _ _ _).mp hv
        exact ⟨u :: cut, .cons ((htakes _ _ _).mp hu) hcut, rfl⟩
      · rintro ⟨_, hcut, rfl⟩
        cases hcut with
        | cons hfirst hrest =>
            exact ⟨_, _, rfl, (htakes _ _ _).mpr hfirst, (htakes' _ _ _).mpr ⟨_, hrest, rfl⟩⟩

/-- The pattern of pieces that stay in their places matches what can be cut into them. -/
theorem isMatch_iff_cut {ps : List Piece} (hps : ∀ p ∈ ps, p.InPlace policy)
    (hchain : ps.IsChain Piece.Parted) {a : Regex}
    (ha : Regex.read policy.caseless
      ('^' :: ps.flatMap (Piece.fragment policy path .plain) ++ ['$']) = .ok a) (uri : Text) :
    a.isMatch uri = true ↔ ∃ cut, IsCutInPlace policy path ps uri cut := by
  obtain ⟨parts, r, hreads, hadds, htakes⟩ :=
    exists_reads_pieces path (r := started policy) hps hchain (X := ['$']) rfl rfl rfl rfl
  obtain ⟨q, hloop, _, hlevel⟩ := loop_anchored hreads hadds
  have hregex : a = .catAll (.look .textStart :: parts.map (·.regex) ++ [.look .textEnd]) := by
    rw [read_of_loop hloop] at ha
    rw [Regex.Reader.regex_of_finish ha, hlevel, Regex.Level.close_regex]
    have hsequence := Regex.Level.sequence_regex (endPart :: (parts.reverse ++ [startPart]))
    simpa [Regex.altAll, startPart, endPart] using hsequence
  rw [hregex, Regex.isMatch_anchored, List.map_map]
  refine (htakes [] uri []).trans ?_
  constructor
  · rintro ⟨cut, hcut, hwhole⟩
    exact ⟨cut, hcut, hwhole⟩
  · rintro ⟨cut, hcut, hwhole⟩
    exact ⟨cut, hcut, hwhole⟩

/-! ## The pieces of chunks -/

theorem Piece.parted_of_spelling {raw : Bool} {chunk : Text} {es : List Element}
    (h : Element.Spelling raw chunk es) : (es.map Piece.element).IsChain Piece.Parted := by
  have hraw {text : Text} {raw' : Bool} (he : .literal text raw' ∈ es) : raw' = raw := by
    obtain ⟨parts, hparts, _⟩ := h.spelled
    obtain ⟨_, _, hspells⟩ := exists_left_of_mem hparts.flip he
    exact hspells.1
  rw [List.isChain_map]
  refine h.apart.imp_of_mem_imp ?_
  intro e e' he he' hapart
  refine ⟨by simp, ?_⟩
  cases e with
  | literal text raw₁ =>
      cases e' with
      | literal text' raw₂ => exact absurd ((hraw he).trans (hraw he').symm) hapart
      | parameter name reach => exact fun _ => rfl
      | wildcard => exact fun _ => rfl
  | parameter name reach => simp [Piece.isLiteral]
  | wildcard => simp [Piece.isLiteral]

/-- In the pieces of chunks no literal stands behind a literal, and the suffix stands last. -/
theorem isChain_pieces {chunks : List (List Element)}
    (h : ∀ es ∈ chunks, (es.map Piece.element).IsChain Piece.Parted) :
    (pieces chunks).IsChain Piece.Parted := by
  have hbehind {es : List Element} {q : Piece} {ps : List Piece}
      (hes : (es.map Piece.element).IsChain Piece.Parted) (hq : q.isLiteral = false)
      (hps : (q :: ps).IsChain Piece.Parted) :
      (Piece.separator :: (es.map Piece.element ++ q :: ps)).IsChain Piece.Parted := by
    refine .cons (hes.append hps ?_) fun p _ => ⟨by simp, by simp [Piece.isLiteral]⟩
    intro p hp p' hp'
    obtain ⟨e, _, rfl⟩ := List.mem_map.mp (List.mem_of_getLast? hp)
    obtain rfl : q = p' := by simpa using hp'
    exact ⟨by simp, fun _ => hq⟩
  rw [pieces, List.cons_append]
  induction chunks with
  | nil => exact .cons (.singleton Piece.suffix) fun p _ => ⟨by simp, by simp [Piece.isLiteral]⟩
  | cons es ess ih =>
      have hes := h es (by simp)
      have hess := ih fun fs hfs => h fs (by simp [hfs])
      cases ess with
      | nil => simpa [List.intercalate] using hbehind hes rfl (.singleton Piece.suffix)
      | cons fs ess =>
          simpa [List.intercalate_cons_cons] using hbehind hes rfl hess

/-! ## Templates with raw literals -/

/-- A request path follows a path under a policy, each element in its place: some way to follow
the elements that the chunks of the path spell can be cut out of it. -/
def FollowsInPlace (policy : Policy) (path uri : Text) : Prop :=
  ∃ ess, List.Forall₂ (Element.Spelling policy.rawLiterals) (chunks path) ess ∧
    ∃ way ∈ waysOf path ess, ∃ cut, IsCutInPlace policy path (pieces way) uri cut

def FollowsAlone (policy : Policy) (path uri : Text) : Prop :=
  ∃ ess, List.Forall₂ (Element.Spelling policy.rawLiterals) (chunks path) ess ∧
    ∃ way ∈ waysOf path ess, ∃ cut, IsCutAlone policy path (pieces way) uri cut

variable {t : Template} {way : List (List Element)} {uri : Text}

theorem inPlace_pieces (h : ofPath policy path = .ok t)
    (hself : ∀ s ∈ t.segments, ∀ e ∈ s.elements, e.selfContained policy = true)
    (hway : way ∈ waysOf path (t.segments.map Segment.elements)) :
    ∀ p ∈ pieces way, p.InPlace policy := by
  refine forall_mem_pieces_way trivial trivial trivial ?_ hway
  intro es hes e he
  obtain ⟨part, hpart⟩ := exists_spells (spelled_of_ofPath h) hes he
  obtain ⟨s, hs, rfl⟩ := List.mem_map.mp hes
  cases e with
  | literal text raw =>
      cases raw with
      | false => trivial
      | true => exact ⟨bare_literal hpart, hself s hs _ he⟩
  | parameter name reach => trivial
  | wildcard => trivial

theorem isChain_way (h : ofPath policy path = .ok t)
    (hway : way ∈ waysOf path (t.segments.map Segment.elements)) :
    (pieces way).IsChain Piece.Parted := by
  refine isChain_pieces (forall_mem_waysOf (.singleton _) ?_ hway)
  intro es hes
  obtain ⟨_, _, hspelling⟩ := exists_left_of_mem (spelled_of_ofPath h) hes
  exact Piece.parted_of_spelling hspelling

/-- A template whose raw literals stay in their places accepts what can be cut in some way to
follow it. -/
theorem accepts_iff_cut (h : ofPath policy path = .ok t)
    (hself : ∀ s ∈ t.segments, ∀ e ∈ s.elements, e.selfContained policy = true) :
    t.accepts uri = true ↔ ∃ way ∈ waysOf path (t.segments.map Segment.elements),
      ∃ cut, IsCutInPlace policy path (pieces way) uri cut := by
  have hvariants := forall₂_of_mapM_ok (ofPath_eq_ok h).2.2.2.2
  have hmatch {segments : List Segment} {v : Variant}
      (hsegments : segments ∈ ways (coversSubPaths path) t.segments)
      (hv : variant policy path segments = .ok v) : v.matching.regex.isMatch uri = true ↔
        ∃ cut, IsCutInPlace policy path (pieces (segments.map Segment.elements)) uri cut := by
    have hway := List.mem_map_of_mem (f := (·.map Segment.elements)) hsegments
    rw [map_elements_ways] at hway
    have hread := (variant_eq_ok hv).1
    rw [patternText_eq] at hread
    exact isMatch_iff_cut (inPlace_pieces h hself hway) (isChain_way h hway) hread uri
  rw [accepts, List.any_eq_true, ← map_elements_ways]
  constructor
  · rintro ⟨v, hv, hmatches⟩
    obtain ⟨segments, hsegments, hread⟩ := exists_left_of_mem hvariants hv
    exact ⟨_, List.mem_map_of_mem hsegments, (hmatch hsegments hread).mp hmatches⟩
  · rintro ⟨_, hway, hcut⟩
    obtain ⟨segments, hsegments, rfl⟩ := List.mem_map.mp hway
    obtain ⟨v, hv, hread⟩ := exists_left_of_mem hvariants.flip hsegments
    exact ⟨v, hv, (hmatch hsegments hread).mpr hcut⟩

/-! ## Each element alone -/

theorem Piece.takesAt_iff_alone {p : Piece} (hp : p.ConditionFree policy) (front t back : Text) :
    p.TakesAt policy path front t back ↔ p.TakesAlone policy path t := by
  rw [TakesAt, TakesAlone]
  rcases p.escaped_or_raw with hescaped | ⟨text, rfl⟩
  · rw [takesBy_of_escaped hescaped, takesBy_of_escaped hescaped]
  · have hown {r : Regex} (hr : Regex.read policy.caseless text = .ok r) :
        r.Takes front t back ↔ r.whole.isMatch t = true := by
      have hfree : r.conditionFree = true := by
        simpa [ConditionFree, Element.conditionFree, hr, Except.toOption] using hp
      exact Regex.takes_iff_isMatch_whole hfree front t back
    exact exists_congr fun r => and_congr_right hown

theorem takeInTurn_iff_alone (path : Text) {ps : List Piece}
    (hps : ∀ p ∈ ps, p.ConditionFree policy) (front : Text) (cut : List Text) (back : Text) :
    TakeInTurn policy path ps front cut back ↔
      List.Forall₂ (Piece.TakesAlone policy path) ps cut := by
  constructor
  · intro h
    induction h with
    | nil => exact .nil
    | cons htakes _ ih =>
        exact .cons ((Piece.takesAt_iff_alone (hps _ (by simp)) _ _ _).mp htakes)
          (ih fun q hq => hps q (by simp [hq]))
  · intro h
    induction h generalizing front with
    | nil => exact .nil front back
    | cons htakes _ ih =>
        exact .cons ((Piece.takesAt_iff_alone (hps _ (by simp)) _ _ _).mpr htakes)
          (ih (fun q hq => hps q (by simp [hq])) _)

theorem followsInPlace_iff_alone (h : ofPath policy path = .ok t)
    (hfree : ∀ s ∈ t.segments, ∀ e ∈ s.elements, e.conditionFree policy = true) :
    FollowsInPlace policy path uri ↔ FollowsAlone policy path uri := by
  have hcut {ess way : List (List Element)}
      (hess : List.Forall₂ (Element.Spelling policy.rawLiterals) (chunks path) ess)
      (hway : way ∈ waysOf path ess) (cut : List Text) :
      IsCutInPlace policy path (pieces way) uri cut ↔
        IsCutAlone policy path (pieces way) uri cut := by
    obtain rfl := spelled_unique (spelled_of_ofPath h) hess
    have hpieces : ∀ p ∈ pieces way, p.ConditionFree policy := by
      refine forall_mem_pieces_way trivial trivial rfl ?_ hway
      intro es hes e he
      obtain ⟨s, hs, rfl⟩ := List.mem_map.mp hes
      exact hfree s hs e he
    have htakes := takeInTurn_iff_alone path hpieces [] cut []
    exact ⟨fun hc => ⟨htakes.mp hc.takes, hc.whole⟩, fun hc => ⟨htakes.mpr hc.takes, hc.whole⟩⟩
  constructor
  · rintro ⟨ess, hess, way, hway, cut, hc⟩
    exact ⟨ess, hess, way, hway, cut, (hcut hess hway cut).mp hc⟩
  · rintro ⟨ess, hess, way, hway, cut, hc⟩
    exact ⟨ess, hess, way, hway, cut, (hcut hess hway cut).mpr hc⟩

/-! ## What is accepted -/

theorem head?_of_isSeparator {s rest : Text} (h : policy.IsSeparator s) :
    (s ++ rest).head? = some '/' := by
  unfold Policy.IsSeparator at h
  split at h
  · obtain ⟨hne, hall⟩ := h
    cases s with
    | nil => exact absurd rfl hne
    | cons c cs => simp [hall c (by simp)]
  · simp [h]

theorem FollowsInPlace.head? (h : FollowsInPlace policy path uri) : uri.head? = some '/' := by
  obtain ⟨_, _, way, _, cut, ⟨htakes, rfl⟩⟩ := h
  rw [pieces, List.cons_append] at htakes
  cases htakes with
  | cons hfirst _ => exact head?_of_isSeparator hfirst

theorem FollowsAlone.head? (h : FollowsAlone policy path uri) : uri.head? = some '/' := by
  obtain ⟨_, _, way, _, cut, ⟨htakes, rfl⟩⟩ := h
  rw [pieces, List.cons_append] at htakes
  cases htakes with
  | cons hfirst _ => exact head?_of_isSeparator hfirst

/-- A template whose raw literals are patterns of their own and stay in their places accepts
exactly the request paths that follow its path from the first character to the last, the text
of each element being what the element takes where it stands. If its raw literals ask for no
conditions either, each element is matched alone against the whole of its text. -/
theorem accepts_iff_follows_raw (h : ofPath policy path = .ok t)
    (hself : ∀ s ∈ t.segments, ∀ e ∈ s.elements, e.selfContained policy = true) (uri : Text) :
    (t.accepts uri = true ↔ FollowsInPlace policy path uri) ∧
      ((∀ s ∈ t.segments, ∀ e ∈ s.elements, e.conditionFree policy = true) →
        (t.accepts uri = true ↔ FollowsAlone policy path uri)) ∧
      (t.accepts uri = true → uri.head? = some '/') := by
  have hfollows : t.accepts uri = true ↔ FollowsInPlace policy path uri := by
    rw [accepts_iff_cut h hself]
    constructor
    · intro hcut
      exact ⟨_, spelled_of_ofPath h, hcut⟩
    · rintro ⟨ess, hspelled, hcut⟩
      rwa [spelled_unique (spelled_of_ofPath h) hspelled]
  refine ⟨hfollows, ?_, ?_⟩
  · intro hfree
    rw [hfollows, followsInPlace_iff_alone h hfree]
  · intro haccepts
    exact (hfollows.mp haccepts).head?

theorem accepts_iff_follows_raw_class :
    ∃ t, ofPath { rawLiterals := true } "/v[0-9]+/{id}".toList = .ok t ∧
      t.accepts "/v12/x".toList = true ∧
        FollowsInPlace { rawLiterals := true } "/v[0-9]+/{id}".toList "/v12/x".toList ∧
          FollowsAlone { rawLiterals := true } "/v[0-9]+/{id}".toList "/v12/x".toList := by
  let policy : Policy := { rawLiterals := true }
  have h : (ofPath policy "/v[0-9]+/{id}".toList).toOption.any (fun t =>
      t.accepts "/v12/x".toList && (t.segments.all fun s => s.elements.all fun e =>
        e.selfContained policy && e.conditionFree policy)) = true := by
    decide +kernel
  obtain ⟨t, ht, hall⟩ := exists_ok_of_any h
  simp only [Bool.and_eq_true, List.all_eq_true] at hall
  obtain ⟨haccepts, hraw⟩ := hall
  obtain ⟨hinPlace, halone, _⟩ :=
    accepts_iff_follows_raw ht (fun s hs e he => (hraw s hs e he).1) "/v12/x".toList
  exact ⟨t, ht, haccepts, hinPlace.mp haccepts,
    (halone fun s hs e he => (hraw s hs e he).2).mp haccepts⟩

/-- An alternative in a raw literal takes in the ends of the text, so that a request path that
does not even begin with a slash is accepted. -/
theorem accepts_across_alternative :
    ∃ t, ofPath { rawLiterals := true } "/a|b".toList = .ok t ∧
      t.segments.map Segment.elements = [[.literal "a|b".toList true]] ∧
      (Regex.read false "a|b".toList).isOk = true ∧
      t.accepts "xb".toList = true ∧ "xb".toList.head? ≠ some '/' ∧
      ¬FollowsAlone { rawLiterals := true } "/a|b".toList "xb".toList := by
  have h : (ofPath { rawLiterals := true } "/a|b".toList).toOption.any (fun t =>
      t.segments.map Segment.elements == [[.literal "a|b".toList true]] &&
        t.accepts "xb".toList) = true := by
    decide +kernel
  obtain ⟨t, ht, hvalues⟩ := exists_ok_of_any h
  obtain ⟨helements, haccepts⟩ := Bool.and_eq_true_iff.mp hvalues
  refine ⟨t, ht, beq_iff_eq.mp helements, by decide +kernel, haccepts, by decide, ?_⟩
  intro hfollows
  exact absurd hfollows.head? (by decide)

end Template

end PathRouting

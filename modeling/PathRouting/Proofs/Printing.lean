import PathRouting.Proofs.Scanning

/-! # Printing segments

A segment is printed in the notation of chunks. What is printed is read as the same segment, so a
chunk loses nothing by being read except for the lengths of its runs of stars, and reading yields
just the segments in which every element is there for a reason: those that are canonical. -/

namespace PathRouting

/-- Whether a parameter is open behind a character, given whether one is open before it. -/
def opensName (inside : Bool) (c : Char) : Bool :=
  if c = '\x7B' ∨ c = '<' then true else if c = '\x7D' ∨ c = '>' then false else inside

/-- A chunk of which every run of stars outside of its parameters is a single star: a star goes if
another one follows it. `inside` says whether a parameter is open. -/
def singleStars (inside : Bool) : Text → Text
  | [] => []
  | c :: cs =>
    if inside = false ∧ c = '*' ∧ cs.head? = some '*' then singleStars inside cs
    else c :: singleStars (opensName inside c) cs

namespace Element

def print : Element → Text
  | literal text _ => text
  | parameter name .chunk => '\x7B' :: name ++ ['\x7D']
  | parameter name .path => '<' :: name ++ ['>']
  | wildcard => ['*']

/-- An element as it can be written: a literal has some text and only what is plain in a chunk, and
it is a pattern of its own just if it is asked for; no name has a bracket. -/
def Canonical (raw : Bool) : Element → Prop
  | literal text r => r = raw ∧ text ≠ [] ∧ ∀ c ∈ text, c ≠ '*' ∧ isDelimiter c = false
  | parameter name _ => ∀ c ∈ name, isDelimiter c = false
  | wildcard => True

/-- Two elements that are told apart where they meet: not two literals, nor two wildcards, nor a
wildcard and a parameter. -/
def ToldApart : Element → Element → Prop
  | literal _ _, literal _ _ => False
  | wildcard, wildcard => False
  | wildcard, parameter _ _ => False
  | parameter _ _, wildcard => False
  | _, _ => True

end Element

namespace Segment

/-- A segment in the notation of chunks: what its elements are written as, one after another. -/
def print (s : Segment) : Text := s.elements.flatMap Element.print

/-- A segment without anything that could be left out: an element by itself, or at least two
elements side by side that are told apart where they meet. -/
inductive Canonical (raw : Bool) : Segment → Prop
  | element {e : Element} (he : e.Canonical raw) : Canonical raw (element e)
  | composite {es : List Element} (hseveral : 2 ≤ es.length) (hes : ∀ e ∈ es, e.Canonical raw)
      (htold : es.IsChain Element.ToldApart) : Canonical raw (composite (es.map element))

end Segment

variable {raw inside : Bool} {t u v : Text} {c : Char} {es : List Element}

/-! ## Runs of stars -/

theorem opensName_of_plain (h : isDelimiter c = false) (inside : Bool) :
    opensName inside c = inside := by
  simp only [isDelimiter, List.contains_cons, List.contains_nil, Bool.or_false,
    Bool.or_eq_false_iff, beq_eq_false_iff_ne] at h
  simp [opensName, h]

theorem opensName_opening (inside : Bool) (reach : Reach) :
    opensName inside reach.opening = true := by
  cases reach <;> rfl

theorem opensName_closing (inside : Bool) (reach : Reach) :
    opensName inside reach.closing = false := by
  cases reach <;> rfl

theorem singleStars_cons_of_ne (h : c ≠ '*') (inside : Bool) :
    singleStars inside (c :: v) = c :: singleStars (opensName inside c) v := by
  simp [singleStars, h]

/-- Plain characters stay, and inside of a parameter the stars among them do. -/
theorem singleStars_append (h : ∀ c ∈ u, isDelimiter c = false)
    (hstar : inside = false → '*' ∉ u) :
    singleStars inside (u ++ v) = u ++ singleStars inside v := by
  induction u with
  | nil => rfl
  | cons c u ih =>
      have hkept : ¬(inside = false ∧ c = '*' ∧ (u ++ v).head? = some '*') := by
        rintro ⟨hinside, rfl, _⟩
        exact hstar hinside (List.mem_cons_self ..)
      have hrest := ih (fun c hc => h c (List.mem_cons_of_mem _ hc))
        fun hinside hmem => hstar hinside (List.mem_cons_of_mem _ hmem)
      rw [List.cons_append, singleStars, if_neg hkept, opensName_of_plain (h c (by simp)), hrest,
        List.cons_append]

/-- A run of stars outside of a parameter leaves one of them. -/
theorem singleStars_run (hne : u ≠ []) (hu : ∀ c ∈ u, c = '*') (hv : ∀ c ∈ v.head?, c ≠ '*') :
    singleStars false (u ++ v) = '*' :: singleStars false v := by
  induction u with
  | nil => exact absurd rfl hne
  | cons c u ih =>
      obtain rfl : c = '*' := hu c (by simp)
      cases u with
      | nil =>
          have hlast : v.head? ≠ some '*' := fun hhead => hv '*' hhead rfl
          simp [singleStars, hlast, opensName]
      | cons d u =>
          obtain rfl : d = '*' := hu d (by simp)
          have hrest := ih (by simp) fun c hc => hu c (List.mem_cons_of_mem _ hc)
          rw [← hrest]
          simp [singleStars]

namespace Element

variable {e e' : Element}

/-! ## What is printed is spelled -/

theorem print_parameter (name : Text) (reach : Reach) :
    (parameter name reach).print = reach.opening :: name ++ [reach.closing] := by
  cases reach <;> rfl

theorem Canonical.spells_print (h : e.Canonical raw) : e.Spells raw e.print := by
  cases e with
  | literal text r => exact ⟨h.1, rfl, h.2⟩
  | parameter name reach => exact ⟨print_parameter name reach, h⟩
  | wildcard => simp [Spells, print]

theorem Canonical.of_spells (h : e.Spells raw t) : e.Canonical raw := by
  cases e with
  | literal text r =>
      obtain ⟨rfl, rfl, hplain⟩ := h
      exact ⟨rfl, hplain⟩
  | parameter name reach => exact h.2
  | wildcard => trivial

theorem spellAll_print (h : ∀ e ∈ es, e.Canonical raw) :
    SpellAll raw es (es.flatMap print) := by
  induction es with
  | nil => exact spellAll_nil raw
  | cons e es ih =>
      have hrest := ih fun e he => h e (List.mem_cons_of_mem _ he)
      exact hrest.cons (h e (by simp)).spells_print

theorem forall_canonical_of_spellAll (h : SpellAll raw es t) : ∀ e ∈ es, e.Canonical raw := by
  induction es generalizing t with
  | nil => simp
  | cons e es ih =>
      obtain ⟨u, v, hu, hv, _⟩ := spellAll_cons_iff.mp h
      exact List.forall_mem_cons.mpr ⟨.of_spells hu, ih hv⟩

/-- Canonical elements are told apart just if they cannot be one and may stand side by side. -/
theorem toldApart_iff (h : e.Canonical raw) (h' : e'.Canonical raw) :
    ToldApart e e' ↔ Apart e e' ∧ MayBorder e e' := by
  cases e with
  | literal text r =>
      cases e' with
      | literal text' r' =>
          have hraw : r = r' := h.1.trans h'.1.symm
          simp [ToldApart, Apart, hraw]
      | parameter name reach => simp [ToldApart, Apart, MayBorder]
      | wildcard => simp [ToldApart, Apart, MayBorder]
  | parameter name reach => cases e' <;> simp [ToldApart, Apart, MayBorder]
  | wildcard => cases e' <;> simp [ToldApart, Apart, MayBorder]

theorem isChain_toldApart_iff (h : ∀ e ∈ es, e.Canonical raw) :
    es.IsChain ToldApart ↔ es.IsChain Apart ∧ es.IsChain MayBorder := by
  induction es with
  | nil => simp
  | cons e es ih =>
      cases es with
      | nil => simp
      | cons e' es =>
          have htold := toldApart_iff (h e (by simp)) (h e' (by simp))
          rw [List.isChain_cons_cons, List.isChain_cons_cons, List.isChain_cons_cons,
            ih fun e he => h e (List.mem_cons_of_mem _ he), htold, and_and_and_comm]

/-! ## A chunk up to its runs of stars -/

/-- An element is printed as it is spelled, except that a run of stars is but one. -/
theorem singleStars_of_spells (h : e.Spells raw u) (hes : SpellAll raw es v)
    (happart : (e :: es).IsChain Apart) :
    singleStars false (u ++ v) = e.print ++ singleStars false v := by
  have hnext := head?_of_apart h hes happart
  cases e with
  | literal text r =>
      obtain ⟨_, rfl, _, hplain⟩ := h
      exact singleStars_append (fun c hc => (hplain c hc).2) fun _ hstar => (hplain _ hstar).1 rfl
  | parameter name reach =>
      obtain ⟨rfl, hname⟩ := h
      have hinner : singleStars true (name ++ reach.closing :: v) =
          name ++ reach.closing :: singleStars false v := by
        rw [singleStars_append hname (by simp), singleStars_cons_of_ne (closing_ne_star reach),
          opensName_closing]
      rw [print_parameter, List.cons_append, List.cons_append, List.append_assoc,
        List.singleton_append, singleStars_cons_of_ne (opening_ne_star reach), opensName_opening,
        hinner]
      simp
  | wildcard => exact singleStars_run h.1 h.2 hnext

theorem Spelling.print_eq {chunk : Text} (h : Spelling raw chunk es) :
    es.flatMap print = singleStars false chunk := by
  obtain ⟨hspelled, happart⟩ := h
  induction es generalizing chunk with
  | nil =>
      obtain rfl := spellAll_nil_iff.mp hspelled
      rfl
  | cons e es ih =>
      obtain ⟨u, v, hu, hv, rfl⟩ := spellAll_cons_iff.mp hspelled
      rw [singleStars_of_spells hu hv happart, List.flatMap_cons, ih hv happart.tail]

end Element

namespace Segment

open Element (Spelling MayBorder)

variable {path chunk : Text} {s : Segment}

/-! ## Canonical segments -/

/-- Canonical segments are those of canonical elements that are told apart. -/
theorem canonical_iff :
    s.Canonical raw ↔ s = ofElements s.elements ∧ s.elements ≠ [] ∧
      (∀ e ∈ s.elements, e.Canonical raw) ∧ s.elements.IsChain Element.ToldApart := by
  constructor
  · intro h
    cases h with
    | @element e he =>
        refine ⟨rfl, List.cons_ne_nil e [], ?_, .singleton e⟩
        simpa [elements] using he
    | @composite es hseveral hes htold =>
        have helements : (Segment.composite (es.map .element)).elements = es := by
          rw [elements, elementsAll_map_element]
        rw [helements]
        match es with
        | [] => simp at hseveral
        | [e] => simp at hseveral
        | e :: e' :: es => exact ⟨rfl, by simp, hes, htold⟩
  · rintro ⟨hs, hne, hes, htold⟩
    rw [hs]
    generalize s.elements = es at hne hes htold
    match es with
    | [] => exact absurd rfl hne
    | [e] => exact .element (hes e (by simp))
    | e :: e' :: es => exact .composite (by simp) hes htold

theorem canonical_of_ofChunk (hne : chunk ≠ []) (h : ofChunk path raw chunk = .ok s) :
    s.Canonical raw := by
  obtain ⟨hspelled, happart⟩ := spelling_of_ofChunk hne h
  have hborder : s.elements.IsChain MayBorder :=
    hspelled.isChain_iff.mp (Element.isChain_mayMeet_iff.mpr (not_starBeside_of_ofChunk h))
  have hcanonical := Element.forall_canonical_of_spellAll hspelled
  have helements : s.elements ≠ [] := by
    intro hnil
    rw [hnil, Element.spellAll_nil_iff] at hspelled
    exact hne hspelled
  exact canonical_iff.mpr ⟨eq_ofElements_of_ofChunk h, helements, hcanonical,
    (Element.isChain_toldApart_iff hcanonical).mpr ⟨happart, hborder⟩⟩

/-- What a canonical segment is printed as is read as this segment. -/
theorem Canonical.ofChunk_print (h : s.Canonical raw) (path : Text) :
    ofChunk path raw s.print = .ok s := by
  obtain ⟨hs, hne, hcanonical, htold⟩ := canonical_iff.mp h
  obtain ⟨happart, hborder⟩ := (Element.isChain_toldApart_iff hcanonical).mp htold
  have hspelled : Element.SpellAll raw s.elements s.print := Element.spellAll_print hcanonical
  have hprint : s.print ≠ [] := by
    intro hnil
    obtain ⟨e, es, helements⟩ := List.exists_cons_of_ne_nil hne
    rw [hnil, helements, Element.spellAll_cons_iff] at hspelled
    obtain ⟨u, v, hu, _, happend⟩ := hspelled
    obtain ⟨c, cs, rfl, _⟩ := hu.beginsWith
    simp at happend
  rw [ofChunk_of_spelling hprint ⟨hspelled, happart⟩ hborder path, ← hs]

/-- A segment that is read from a chunk is printed as the chunk with single stars, it is read again
from what is printed, and it is canonical; and every canonical segment is read from what it is
printed as. -/
theorem print_ofChunk (path : Text) (raw : Bool) :
    (∀ chunk s, chunk ≠ [] → ofChunk path raw chunk = .ok s →
      s.print = singleStars false chunk ∧ ofChunk path raw s.print = .ok s ∧ s.Canonical raw) ∧
    ∀ s, s.Canonical raw → ofChunk path raw s.print = .ok s := by
  refine ⟨?_, fun s h => h.ofChunk_print path⟩
  intro chunk s hne h
  have hcanonical := canonical_of_ofChunk hne h
  exact ⟨(spelling_of_ofChunk hne h).print_eq, hcanonical.ofChunk_print path, hcanonical⟩

/-- The stars of a name are kept, those of a wildcard are not. -/
theorem print_ofChunk_starred_name :
    ∃ s, ofChunk [] false "\x7Bx**\x7D-**b".toList = .ok s ∧
      s.print = "\x7Bx**\x7D-*b".toList ∧ ofChunk [] false s.print = .ok s ∧
        s.Canonical false := by
  have hread : ofChunk [] false "\x7Bx**\x7D-**b".toList =
      .ok (ofElements [.parameter "x**".toList .chunk, .literal "-".toList false, .wildcard,
        .literal "b".toList false]) := rfl
  obtain ⟨hprint, hagain, hcanonical⟩ := (print_ofChunk [] false).1 _ _ (by decide) hread
  exact ⟨_, hread, hprint.trans (by decide), hagain, hcanonical⟩

end Segment

end PathRouting

import Mathlib.Algebra.Group.Nat.Even
import PathRouting.Proofs.Acceptance

/-! # The grammar of chunks

A chunk can be read just if it is well written: literals, runs of stars and parameters one after
another, and no star beside a bracket outside of a parameter. What is wrong with any other chunk is
told by its brackets and stars alone, before the chunk is taken apart. -/

namespace PathRouting

/-- A star stands before an opening bracket or behind a closing one. -/
def StarBeside (chunk : Text) : Prop :=
  ∃ reach : Reach, ['*', reach.opening] <:+: chunk ∨ [reach.closing, '*'] <:+: chunk

def MayMeet (c d : Char) : Prop :=
  ∀ reach : Reach, ¬(c = '*' ∧ d = reach.opening) ∧ ¬(c = reach.closing ∧ d = '*')

namespace Element

/-- Two elements that may stand side by side: a wildcard and a parameter may not. -/
def MayBorder : Element → Element → Prop
  | wildcard, parameter _ _ => False
  | parameter _ _, wildcard => False
  | _, _ => True

/-- A chunk is well written if it spells elements one after another and no wildcard stands beside a
parameter. Whether the literals are patterns of their own is left open. -/
def WellWritten (chunk : Text) : Prop :=
  ∃ raw es, SpellAll raw es chunk ∧ es.IsChain MayBorder

variable {raw : Bool} {e e' : Element} {es : List Element} {t u v buffer : Text} {c d : Char}

/-! ## Brackets -/

theorem even_of_spells (h : Spells raw e t) : Even (t.countP isDelimiter) := by
  cases e with
  | literal text r =>
      have hnone : t.countP isDelimiter = 0 :=
        List.countP_eq_zero.mpr fun c hc => by simp [(h.2.2.2 c hc).2]
      simp [hnone]
  | wildcard =>
      have hnone : t.countP isDelimiter = 0 :=
        List.countP_eq_zero.mpr fun c hc => by rw [h.2 c hc]; decide
      simp [hnone]
  | parameter name reach =>
      obtain ⟨rfl, hname⟩ := h
      have hnone : name.countP isDelimiter = 0 :=
        List.countP_eq_zero.mpr fun c hc => by simp [hname c hc]
      simp only [List.cons_append, List.countP_cons, List.countP_append, List.countP_nil, hnone,
        opening_isDelimiter, closing_isDelimiter, ite_true]
      exact ⟨1, rfl⟩

theorem even_of_spellAll (h : SpellAll raw es t) : Even (t.countP isDelimiter) := by
  induction es generalizing t with
  | nil =>
      obtain rfl := spellAll_nil_iff.mp h
      exact Even.zero
  | cons e es ih =>
      obtain ⟨u, v, hu, hv, rfl⟩ := spellAll_cons_iff.mp h
      rw [List.countP_append]
      exact (even_of_spells hu).add (ih hv)

/-! ## Stars -/

theorem isChain_mayMeet_iff : t.IsChain MayMeet ↔ ¬StarBeside t := by
  rw [List.isChain_iff_forall_rel_of_append_cons_cons]
  constructor
  · rintro h ⟨reach, ⟨front, back, rfl⟩ | ⟨front, back, rfl⟩⟩
    · exact (h (List.append_assoc ..) reach).1 ⟨rfl, rfl⟩
    · exact (h (List.append_assoc ..) reach).2 ⟨rfl, rfl⟩
  · rintro h c d front back rfl reach
    constructor
    · rintro ⟨rfl, rfl⟩
      exact h ⟨reach, .inl ⟨front, back, by simp⟩⟩
    · rintro ⟨rfl, rfl⟩
      exact h ⟨reach, .inr ⟨front, back, by simp⟩⟩

/-- Nothing is wrong between what closes no parameter and what opens none. -/
theorem mayMeet_of_ne (hc : ∀ reach : Reach, c ≠ reach.closing)
    (hd : ∀ reach : Reach, d ≠ reach.opening) : MayMeet c d :=
  fun reach => ⟨fun h => hd reach h.2, fun h => hc reach h.1⟩

theorem ne_opening_of_plain (h : isDelimiter c = false) (reach : Reach) : c ≠ reach.opening := by
  rintro rfl
  simp [opening_isDelimiter] at h

theorem ne_closing_of_plain (h : isDelimiter c = false) (reach : Reach) : c ≠ reach.closing := by
  rintro rfl
  simp [closing_isDelimiter] at h

theorem star_ne_opening (reach : Reach) : '*' ≠ reach.opening := (opening_ne_star reach).symm

theorem star_ne_closing (reach : Reach) : '*' ≠ reach.closing := (closing_ne_star reach).symm

theorem opening_ne_closing (reach reach' : Reach) : reach.opening ≠ reach'.closing := by
  cases reach <;> cases reach' <;> decide

/-- Inside an element no star stands beside a bracket as it does outside: the opening bracket comes
first and the closing one last. -/
theorem isChain_of_spells (h : Spells raw e t) : t.IsChain MayMeet := by
  apply List.Pairwise.isChain
  cases e with
  | literal text r =>
      exact List.pairwise_of_forall_mem_list fun c hc d hd => mayMeet_of_ne
        (ne_closing_of_plain (h.2.2.2 c hc).2) (ne_opening_of_plain (h.2.2.2 d hd).2)
  | wildcard =>
      refine List.pairwise_of_forall_mem_list fun c hc d hd => ?_
      rw [h.2 c hc, h.2 d hd]
      exact mayMeet_of_ne star_ne_closing star_ne_opening
  | parameter name reach =>
      obtain ⟨rfl, hname⟩ := h
      have hlater : ∀ d ∈ name ++ [reach.closing], ∀ reach' : Reach, d ≠ reach'.opening := by
        intro d hd reach'
        rcases List.mem_append.mp hd with hd | hd
        · exact ne_opening_of_plain (hname d hd) reach'
        · obtain rfl := List.mem_singleton.mp hd
          exact (opening_ne_closing reach' reach).symm
      rw [List.cons_append, List.pairwise_cons, List.pairwise_append]
      refine ⟨fun d hd => mayMeet_of_ne (opening_ne_closing reach) (hlater d hd), ?_,
        List.pairwise_singleton .., ?_⟩
      · exact List.pairwise_of_forall_mem_list fun c hc d hd => mayMeet_of_ne
          (ne_closing_of_plain (hname c hc)) (ne_opening_of_plain (hname d hd))
      · exact fun c hc d hd => mayMeet_of_ne (ne_closing_of_plain (hname c hc))
          (hlater d (List.mem_append_right name hd))

def EndsWith : Element → Char → Prop
  | literal _ _, c => c ≠ '*' ∧ isDelimiter c = false
  | parameter _ reach, c => c = reach.closing
  | wildcard, c => c = '*'

theorem Spells.endsWith (h : Spells raw e t) : ∃ c, t.getLast? = some c ∧ EndsWith e c := by
  cases e with
  | literal text r =>
      have hlast := List.getLast?_eq_some_getLast h.2.2.1
      exact ⟨_, hlast, h.2.2.2 _ (List.mem_of_getLast? hlast)⟩
  | parameter name reach => exact ⟨reach.closing, by rw [h.1, List.getLast?_concat], rfl⟩
  | wildcard =>
      have hlast := List.getLast?_eq_some_getLast h.1
      exact ⟨_, hlast, h.2 _ (List.mem_of_getLast? hlast)⟩

/-- Where two elements meet, stars and brackets are as they should be just if no wildcard meets a
parameter. -/
theorem mayMeet_iff (hc : EndsWith e c) (hd : BeginsWith e' d) :
    MayMeet c d ↔ MayBorder e e' := by
  cases e with
  | literal text r =>
      exact iff_of_true (fun reach => ⟨fun h => hc.1 h.1,
        fun h => ne_closing_of_plain hc.2 reach h.1⟩) trivial
  | parameter name reach =>
      cases e' with
      | literal text r =>
          exact iff_of_true (fun reach' => ⟨fun h => ne_opening_of_plain hd.2 reach' h.2,
            fun h => hd.1 h.2⟩) trivial
      | wildcard => exact iff_of_false (fun h => (h reach).2 ⟨hc, hd⟩) id
      | parameter name' reach' =>
          obtain rfl : c = reach.closing := hc
          obtain rfl : d = reach'.opening := hd
          exact iff_of_true (fun _ => ⟨fun h => closing_ne_star reach h.1,
            fun h => opening_ne_star reach' h.2⟩) trivial
  | wildcard =>
      obtain rfl : c = '*' := hc
      cases e' with
      | literal text r =>
          exact iff_of_true (fun reach => ⟨fun h => ne_opening_of_plain hd.2 reach h.2,
            fun h => hd.1 h.2⟩) trivial
      | parameter name reach => exact iff_of_false (fun h => (h reach).1 ⟨rfl, hd⟩) id
      | wildcard =>
          obtain rfl : d = '*' := hd
          exact iff_of_true (mayMeet_of_ne star_ne_closing star_ne_opening) trivial

/-- In the spelling of elements no star stands beside a bracket just if no wildcard stands beside a
parameter: elements are of one kind within, so only where they meet can it go wrong. -/
theorem SpellAll.isChain_iff (h : SpellAll raw es t) :
    t.IsChain MayMeet ↔ es.IsChain MayBorder := by
  induction es generalizing t with
  | nil =>
      obtain rfl := spellAll_nil_iff.mp h
      exact iff_of_true .nil .nil
  | cons e es ih =>
      obtain ⟨u, v, hu, hv, rfl⟩ := spellAll_cons_iff.mp h
      obtain ⟨c, hlast, hc⟩ := hu.endsWith
      have hmeet : (∀ d ∈ v.head?, MayMeet c d) ↔ ∀ e' ∈ es.head?, MayBorder e e' := by
        cases es with
        | nil =>
            obtain rfl := spellAll_nil_iff.mp hv
            simp
        | cons e' es =>
            obtain ⟨w, x, hw, _, rfl⟩ := spellAll_cons_iff.mp hv
            obtain ⟨d, ds, rfl, hd⟩ := hw.beginsWith
            simpa using mayMeet_iff hc hd
      have hjoint : (∀ b ∈ u.getLast?, ∀ d ∈ v.head?, MayMeet b d) ↔
          ∀ e' ∈ es.head?, MayBorder e e' := by simpa [hlast] using hmeet
      rw [List.isChain_append, List.isChain_cons, ih hv, hjoint, and_comm (b := es.IsChain _)]
      exact and_iff_right (isChain_of_spells hu)

/-! ## Scanning -/

theorem scan?_cons_of_plain (hc : c ≠ '*' ∧ isDelimiter c = false) :
    scan? raw none buffer (c :: v) = scan? raw none (c :: buffer) v := by
  simp [scan?, hc, ne_opening_of_plain hc.2]

theorem scan?_cons_star :
    scan? raw none buffer ('*' :: v) =
      (scan? raw none [] v).map fun es => literals raw buffer.reverse ++ wildcard :: es := by
  simp [scan?]

theorem scan?_cons_opening (reach : Reach) :
    scan? raw none buffer (reach.opening :: v) =
      (scan? raw (some reach) [] v).map fun es => literals raw buffer.reverse ++ es := by
  cases reach <;> simp [scan?, Reach.opening]

/-- Inside of a parameter everything is its name until the closing bracket. -/
theorem scan?_name {reach : Reach} {name : Text} (h : ∀ c ∈ name, isDelimiter c = false)
    (buffer : Text) :
    scan? raw (some reach) buffer (name ++ reach.closing :: v) =
      (scan? raw none [] v).map fun es => parameter (buffer.reverse ++ name) reach :: es := by
  induction name generalizing buffer with
  | nil => simp [scan?]
  | cons c name ih =>
      have hc : isDelimiter c = false := h c (by simp)
      have hrest := ih (fun c hc => h c (by simp [hc])) (c :: buffer)
      simpa [scan?, hc, ne_closing_of_plain hc] using hrest

/-- Stars and plain characters can be scanned anywhere outside of a parameter. -/
theorem isSome_scan?_append (hu : ∀ c ∈ u, isDelimiter c = false)
    (hv : ∀ buffer, (scan? raw none buffer v).isSome) (buffer : Text) :
    (scan? raw none buffer (u ++ v)).isSome := by
  induction u generalizing buffer with
  | nil => exact hv buffer
  | cons c u ih =>
      have hrest := ih fun c hc => hu c (by simp [hc])
      by_cases hc : c = '*'
      · rw [hc, List.cons_append, scan?_cons_star, Option.isSome_map]
        exact hrest []
      · rw [List.cons_append, scan?_cons_of_plain ⟨hc, hu c (by simp)⟩]
        exact hrest (c :: buffer)

/-- An element can be scanned wherever it stands if what follows it can be. -/
theorem isSome_scan?_of_spells {raw' : Bool} (h : Spells raw' e u)
    (hv : ∀ buffer, (scan? raw none buffer v).isSome) (buffer : Text) :
    (scan? raw none buffer (u ++ v)).isSome := by
  cases e with
  | literal text r => exact isSome_scan?_append (fun c hc => (h.2.2.2 c hc).2) hv buffer
  | wildcard => exact isSome_scan?_append (fun c hc => by rw [h.2 c hc]; decide) hv buffer
  | parameter name reach =>
      obtain ⟨rfl, hname⟩ := h
      rw [List.append_assoc, List.cons_append, scan?_cons_opening, List.singleton_append,
        scan?_name hname, Option.isSome_map, Option.isSome_map]
      exact hv []

/-- Whatever spells elements can be scanned. -/
theorem isSome_scan? {raw' : Bool} (h : SpellAll raw' es t) (raw : Bool) (buffer : Text) :
    (scan? raw none buffer t).isSome := by
  induction es generalizing t buffer with
  | nil =>
      obtain rfl := spellAll_nil_iff.mp h
      simp [scan?]
  | cons e es ih =>
      obtain ⟨u, v, hu, hv, rfl⟩ := spellAll_cons_iff.mp h
      exact isSome_scan?_of_spells hu (fun buffer => ih hv buffer) buffer

end Element

namespace Segment

open Element

variable {path chunk : Text} {raw : Bool}

theorem starBesideBracket_iff : starBesideBracket chunk = true ↔ StarBeside chunk := by
  simp only [starBesideBracket, List.any_cons, List.any_nil, Bool.or_false, Bool.or_eq_true,
    Text.occurs_iff]
  constructor
  · rintro (h | h | h | h)
    · exact ⟨.chunk, .inl h⟩
    · exact ⟨.path, .inl h⟩
    · exact ⟨.chunk, .inr h⟩
    · exact ⟨.path, .inr h⟩
  · rintro ⟨_ | _, h | h⟩
    · exact .inl h
    · exact .inr (.inr (.inl h))
    · exact .inr (.inl h)
    · exact .inr (.inr (.inr h))

/-- A star beside a bracket is told before the chunk is read, but not before the brackets have been
counted. -/
theorem ofChunk_eq_starBesideBracket_iff (path : Text) (raw : Bool) (chunk : Text) :
    ofChunk path raw chunk = .error (.starBesideBracket chunk path) ↔
      Even (chunk.countP isDelimiter) ∧ StarBeside chunk := by
  rw [Nat.even_iff, ← starBesideBracket_iff, ofChunk]
  split
  · rename_i hodd
    simp [hodd]
  · rename_i heven
    split
    · rename_i hstar
      simp [not_not.mp heven, hstar]
    · rename_i hstar
      split <;> simp [hstar]

theorem not_starBeside_of_ofChunk {s : Segment} (h : ofChunk path raw chunk = .ok s) :
    ¬StarBeside chunk := by
  rw [← starBesideBracket_iff]
  intro hstar
  rw [ofChunk, hstar] at h
  split at h <;> simp at h

theorem wellWritten_of_ofChunk {s : Segment} (h : ofChunk path raw chunk = .ok s) :
    WellWritten chunk := by
  by_cases hne : chunk = []
  · exact ⟨raw, [], hne ▸ spellAll_nil raw, .nil⟩
  · obtain ⟨hspelled, _⟩ := spelling_of_ofChunk hne h
    have hchain := isChain_mayMeet_iff.mpr (not_starBeside_of_ofChunk h)
    exact ⟨raw, s.elements, hspelled, hspelled.isChain_iff.mp hchain⟩

theorem exists_ofChunk_of_wellWritten (h : WellWritten chunk) :
    ∃ s, ofChunk path raw chunk = .ok s := by
  obtain ⟨_, es, hspelled, hborder⟩ := h
  have heven := Nat.even_iff.mp (even_of_spellAll hspelled)
  have hstar : ¬StarBeside chunk := isChain_mayMeet_iff.mp (hspelled.isChain_iff.mpr hborder)
  obtain ⟨es', hscan⟩ := Option.isSome_iff_exists.mp (isSome_scan? hspelled raw [])
  have hscanned : (scanned? raw chunk).isSome := by simp [scanned?, hscan]
  obtain ⟨s, hs⟩ : ∃ s, (plain? raw chunk).or (scanned? raw chunk) = some s :=
    Option.isSome_iff_exists.mp (by rw [Option.isSome_or, hscanned, Bool.or_true])
  refine ⟨s, ?_⟩
  rw [ofChunk, if_neg (by simp [heven]), if_neg (starBesideBracket_iff.not.mpr hstar), hs]

/-- A chunk can be read just if it is well written. Of any other it is said that a star stands
beside a bracket if one does while the brackets are even in number, and else that the brackets are
misplaced. -/
theorem ofChunk_grammar (path : Text) (raw : Bool) (chunk : Text) :
    ((∃ s, ofChunk path raw chunk = .ok s) ↔ WellWritten chunk) ∧
      (ofChunk path raw chunk = .error (.starBesideBracket chunk path) ↔
        Even (chunk.countP isDelimiter) ∧ StarBeside chunk) ∧
      (ofChunk path raw chunk = .error (.misplacedBrackets chunk path) ↔
        ¬WellWritten chunk ∧ ¬(Even (chunk.countP isDelimiter) ∧ StarBeside chunk)) := by
  have hread : (∃ s, ofChunk path raw chunk = .ok s) ↔ WellWritten chunk :=
    ⟨fun ⟨_, h⟩ => wellWritten_of_ofChunk h, exists_ofChunk_of_wellWritten⟩
  have hstar := ofChunk_eq_starBesideBracket_iff path raw chunk
  refine ⟨hread, hstar, ?_⟩
  rw [← hread, ← hstar]
  cases hresult : ofChunk path raw chunk with
  | ok s => simp
  | error e => rcases ofChunk_error hresult with rfl | rfl <;> simp

end Segment

end PathRouting

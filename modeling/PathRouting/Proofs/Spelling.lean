import Mathlib.Data.List.Chain
import Mathlib.Data.List.Forall2
import PathRouting.Template.Chunk

/-! # The spelling of chunks

A chunk spells its elements one after another: a literal as its own text, a wildcard as a
run of stars, a parameter as its name in brackets. Literals and runs of stars are as long
as they can be, so a chunk spells one list of elements only, and it is the list that
reading the chunk gives. -/

namespace PathRouting

namespace Element

/-- A text that spells one element. -/
def Spells (raw : Bool) : Element → Text → Prop
  | literal text r, t => r = raw ∧ t = text ∧ t ≠ [] ∧ ∀ c ∈ t, c ≠ '*' ∧ isDelimiter c = false
  | parameter name reach, t =>
    t = reach.opening :: name ++ [reach.closing] ∧ ∀ c ∈ name, isDelimiter c = false
  | wildcard, t => t ≠ [] ∧ ∀ c ∈ t, c = '*'

def SpellAll (raw : Bool) (es : List Element) (t : Text) : Prop :=
  ∃ texts, List.Forall₂ (Spells raw) es texts ∧ texts.flatten = t

/-- Two neighbouring elements that cannot be one. -/
def Apart : Element → Element → Prop
  | literal _ r, literal _ r' => r ≠ r'
  | wildcard, wildcard => False
  | _, _ => True

/-- The elements that a chunk spells, each one as long as possible. -/
structure Spelling (raw : Bool) (chunk : Text) (es : List Element) : Prop where
  spelled : SpellAll raw es chunk
  apart : es.IsChain Apart

/-! ## Reading gives the spelled elements -/

theorem spellAll_nil (raw : Bool) : SpellAll raw [] [] := ⟨[], .nil, rfl⟩

@[simp] theorem spellAll_nil_iff {raw : Bool} {t : Text} : SpellAll raw [] t ↔ t = [] := by
  constructor
  · rintro ⟨texts, htexts, rfl⟩
    cases htexts
    rfl
  · rintro rfl
    exact spellAll_nil raw

theorem SpellAll.cons {raw : Bool} {e : Element} {es : List Element} {t u : Text}
    (h : Spells raw e t) (hs : SpellAll raw es u) : SpellAll raw (e :: es) (t ++ u) := by
  obtain ⟨texts, htexts, rfl⟩ := hs
  exact ⟨t :: texts, .cons h htexts, rfl⟩

theorem spellAll_cons_iff {raw : Bool} {e : Element} {es : List Element} {t : Text} :
    SpellAll raw (e :: es) t ↔ ∃ u v, Spells raw e u ∧ SpellAll raw es v ∧ u ++ v = t := by
  constructor
  · rintro ⟨texts, htexts, rfl⟩
    cases htexts with
    | cons h hs => exact ⟨_, _, h, ⟨_, hs, rfl⟩, rfl⟩
  · rintro ⟨u, v, h, hs, rfl⟩
    exact hs.cons h

theorem SpellAll.literals {raw : Bool} {es : List Element} {t u : Text}
    (ht : ∀ c ∈ t, c ≠ '*' ∧ isDelimiter c = false) (hs : SpellAll raw es u) :
    SpellAll raw (literals raw t ++ es) (t ++ u) := by
  cases t with
  | nil => simpa [Element.literals] using hs
  | cons c cs => exact hs.cons ⟨rfl, rfl, by simp, ht⟩

/-- The elements found from a place on are spelled by what is pending there and the rest of
the chunk; a parameter that is being read has its opening bracket before that. -/
theorem spellAll_scan? {raw : Bool} {inside : Option Reach} {buffer chunk : Text}
    {es : List Element} (h : scan? raw inside buffer chunk = some es) :
    match inside with
    | none => (∀ c ∈ buffer, c ≠ '*' ∧ isDelimiter c = false) →
        SpellAll raw es (buffer.reverse ++ chunk)
    | some reach => (∀ c ∈ buffer, isDelimiter c = false) →
        SpellAll raw es (reach.opening :: buffer.reverse ++ chunk) := by
  induction chunk generalizing inside buffer es with
  | nil =>
      cases inside with
      | none =>
          intro hbuffer
          obtain rfl : literals raw buffer.reverse = es := by simpa [scan?] using h
          have hplain : ∀ c ∈ buffer.reverse, c ≠ '*' ∧ isDelimiter c = false := by
            simpa using hbuffer
          simpa using (spellAll_nil raw).literals hplain
      | some reach => simp [scan?] at h
  | cons c cs ih =>
      cases inside with
      | none =>
          intro hbuffer
          have hplain : ∀ c ∈ buffer.reverse, c ≠ '*' ∧ isDelimiter c = false := by
            simpa using hbuffer
          simp only [scan?] at h
          split at h
          · rename_i hstar
            obtain ⟨rest, hrest, rfl⟩ := Option.map_eq_some_iff.mp h
            have hcs : SpellAll raw rest cs := by simpa using ih hrest
            apply SpellAll.literals hplain
            exact hcs.cons (t := [c]) ⟨by simp, by simp [hstar]⟩
          · split at h
            · rename_i hopen
              obtain ⟨rest, hrest, rfl⟩ := Option.map_eq_some_iff.mp h
              have hcs : SpellAll raw rest (Reach.chunk.opening :: cs) := by simpa using ih hrest
              rw [hopen]
              exact hcs.literals hplain
            · split at h
              · rename_i hopen
                obtain ⟨rest, hrest, rfl⟩ := Option.map_eq_some_iff.mp h
                have hcs : SpellAll raw rest (Reach.path.opening :: cs) := by simpa using ih hrest
                rw [hopen]
                exact hcs.literals hplain
              · split at h
                · simp at h
                · have hcs := ih h
                  simp_all
      | some reach =>
          intro hbuffer
          simp only [scan?] at h
          split at h
          · rename_i hclose
            obtain ⟨rest, hrest, rfl⟩ := Option.map_eq_some_iff.mp h
            have hcs : SpellAll raw rest cs := by simpa using ih hrest
            have hname : Spells raw (parameter buffer.reverse reach)
                (reach.opening :: buffer.reverse ++ [c]) := by
              simpa [Spells, hclose] using hbuffer
            simpa using hcs.cons hname
          · split at h
            · simp at h
            · have hcs := ih h
              simp_all

/-- Merging puts an element in front of the merged rest unless the two can be one. -/
theorem merge_cons_cases (e : Element) (es : List Element) :
    (∃ rest, e = wildcard ∧ merge es = wildcard :: rest ∧ merge (e :: es) = wildcard :: rest) ∨
    (∃ text text' raw rest, e = literal text raw ∧ merge es = literal text' raw :: rest ∧
      merge (e :: es) = literal (text ++ text') raw :: rest) ∨
    (merge (e :: es) = e :: merge es ∧ ∀ x ∈ (merge es).head?, Apart e x) := by
  cases hrest : merge es with
  | nil => exact .inr (.inr ⟨by cases e <;> simp [merge, hrest], by simp⟩)
  | cons x rest =>
      cases e with
      | parameter name reach => exact .inr (.inr ⟨by simp [merge, hrest], by simp [Apart]⟩)
      | wildcard =>
          cases x with
          | wildcard => exact .inl ⟨rest, rfl, rfl, by simp [merge, hrest]⟩
          | literal text raw => exact .inr (.inr ⟨by simp [merge, hrest], by simp [Apart]⟩)
          | parameter name reach => exact .inr (.inr ⟨by simp [merge, hrest], by simp [Apart]⟩)
      | literal text raw =>
          cases x with
          | wildcard => exact .inr (.inr ⟨by simp [merge, hrest], by simp [Apart]⟩)
          | parameter name reach => exact .inr (.inr ⟨by simp [merge, hrest], by simp [Apart]⟩)
          | literal text' raw' =>
              by_cases hraw : raw = raw'
              · subst hraw
                exact .inr (.inl ⟨text, text', raw, rest, rfl, rfl, by simp [merge, hrest]⟩)
              · exact .inr (.inr ⟨by simp [merge, hrest, hraw], by simpa [Apart] using hraw⟩)

theorem SpellAll.merge {raw : Bool} {es : List Element} {t : Text} (h : SpellAll raw es t) :
    SpellAll raw (Element.merge es) t := by
  induction es generalizing t with
  | nil => exact h
  | cons e es ih =>
      obtain ⟨u, v, hu, hv, rfl⟩ := spellAll_cons_iff.mp h
      have hrest := ih hv
      rcases merge_cons_cases e es with ⟨rest, rfl, hes, hmerge⟩ |
        ⟨text, text', r, rest, rfl, hes, hmerge⟩ | ⟨hmerge, _⟩
      · rw [hes] at hrest
        obtain ⟨w, x, hw, hx, rfl⟩ := spellAll_cons_iff.mp hrest
        rw [hmerge, ← List.append_assoc]
        refine hx.cons ⟨by simp [hu.1], ?_⟩
        intro c hc
        rcases List.mem_append.mp hc with hc | hc
        · exact hu.2 c hc
        · exact hw.2 c hc
      · rw [hes] at hrest
        obtain ⟨w, x, hw, hx, rfl⟩ := spellAll_cons_iff.mp hrest
        obtain ⟨rfl, rfl, hne, hplain⟩ := hu
        obtain ⟨_, rfl, _, hplain'⟩ := hw
        rw [hmerge, ← List.append_assoc]
        refine hx.cons ⟨rfl, rfl, by simp [hne], ?_⟩
        intro c hc
        rcases List.mem_append.mp hc with hc | hc
        · exact hplain c hc
        · exact hplain' c hc
      · rw [hmerge]
        exact hrest.cons hu

theorem apart_merge (es : List Element) : (merge es).IsChain Apart := by
  induction es with
  | nil => exact .nil
  | cons e es ih =>
      rcases merge_cons_cases e es with ⟨rest, rfl, hes, hmerge⟩ |
        ⟨text, text', r, rest, rfl, hes, hmerge⟩ | ⟨hmerge, happart⟩
      · rwa [hmerge, ← hes]
      · rw [hmerge]
        rw [hes] at ih
        cases rest with
        | nil => exact .singleton _
        | cons x rest =>
            rw [List.isChain_cons_cons] at ih ⊢
            refine ⟨?_, ih.2⟩
            cases x <;> exact ih.1
      · rw [hmerge]
        exact List.isChain_cons.mpr ⟨happart, ih⟩

/-- The elements of a chunk read element by element. -/
theorem spelling_of_scan? {raw : Bool} {chunk : Text} {es : List Element}
    (h : scan? raw none [] chunk = some es) : Spelling raw chunk (merge es) := by
  have hspell : SpellAll raw es chunk := by simpa using spellAll_scan? h
  exact ⟨hspell.merge, apart_merge es⟩

theorem Spelling.single {raw : Bool} {e : Element} {chunk : Text} (h : Spells raw e chunk) :
    Spelling raw chunk [e] :=
  ⟨by simpa using (spellAll_nil raw).cons h, .singleton e⟩

/-! ## A chunk spells one list of elements -/

theorem append_inj_of_class {α : Type} {p : α → Prop} {u v u' v' : List α}
    (hu : ∀ a ∈ u, p a) (hv : ∀ a ∈ v.head?, ¬p a) (hu' : ∀ a ∈ u', p a)
    (hv' : ∀ a ∈ v'.head?, ¬p a) (h : u ++ v = u' ++ v') : u = u' ∧ v = v' := by
  induction u generalizing u' with
  | nil =>
      cases u' with
      | nil => exact ⟨rfl, h⟩
      | cons b u' => exact absurd (hu' b (by simp)) (hv b (by simp [show v = _ from h]))
  | cons a u ih =>
      cases u' with
      | nil => exact absurd (hu a (by simp)) (hv' a (by simp [← show _ = v' from h]))
      | cons b u' =>
          simp only [List.cons_append, List.cons.injEq] at h
          obtain ⟨rfl, h⟩ := h
          obtain ⟨rfl, rfl⟩ := ih (fun a ha => hu a (by simp [ha]))
            (fun a ha => hu' a (by simp [ha])) h
          exact ⟨rfl, rfl⟩

theorem opening_isDelimiter (reach : Reach) : isDelimiter reach.opening = true := by
  cases reach <;> rfl

theorem closing_isDelimiter (reach : Reach) : isDelimiter reach.closing = true := by
  cases reach <;> rfl

theorem opening_ne_star (reach : Reach) : reach.opening ≠ '*' := by
  cases reach <;> decide

theorem closing_ne_star (reach : Reach) : reach.closing ≠ '*' := by
  cases reach <;> decide

def BeginsWith : Element → Char → Prop
  | literal _ _, c => c ≠ '*' ∧ isDelimiter c = false
  | parameter _ reach, c => c = reach.opening
  | wildcard, c => c = '*'

theorem Spells.beginsWith {raw : Bool} {e : Element} {t : Text} (h : Spells raw e t) :
    ∃ c cs, t = c :: cs ∧ BeginsWith e c := by
  cases e with
  | literal text r =>
      obtain ⟨_, _, hne, hplain⟩ := h
      obtain ⟨c, cs, rfl⟩ := List.exists_cons_of_ne_nil hne
      exact ⟨c, cs, rfl, hplain c (by simp)⟩
  | parameter name reach => exact ⟨reach.opening, _, h.1, rfl⟩
  | wildcard =>
      obtain ⟨c, cs, rfl⟩ := List.exists_cons_of_ne_nil h.1
      exact ⟨c, cs, rfl, h.2 c (by simp)⟩

/-- What follows a literal or a wildcard does not go on like it. -/
theorem head?_of_apart {raw : Bool} {e : Element} {es : List Element} {u v : Text}
    (he : Spells raw e u) (hs : SpellAll raw es v) (happart : (e :: es).IsChain Apart) :
    ∀ c ∈ v.head?, match e with
      | literal _ _ => ¬(c ≠ '*' ∧ isDelimiter c = false)
      | wildcard => ¬c = '*'
      | parameter _ _ => True := by
  cases es with
  | nil =>
      obtain rfl := spellAll_nil_iff.mp hs
      simp
  | cons x es =>
      obtain ⟨w, v, hx, _, rfl⟩ := spellAll_cons_iff.mp hs
      obtain ⟨c, cs, rfl, hbegins⟩ := hx.beginsWith
      have hex := (List.isChain_cons_cons.mp happart).1
      intro d hd
      obtain rfl : c = d := by simpa using hd
      cases e with
      | parameter name reach => trivial
      | wildcard =>
          rintro rfl
          cases x with
          | literal text r => exact hbegins.1 rfl
          | parameter name reach => cases reach <;> simp [BeginsWith, Reach.opening] at hbegins
          | wildcard => exact hex
      | literal text r =>
          rintro ⟨hstar, hplain⟩
          cases x with
          | literal text' r' => exact hex (he.1.trans hx.1.symm)
          | parameter name reach =>
              rw [show c = reach.opening from hbegins, opening_isDelimiter] at hplain
              simp at hplain
          | wildcard => exact hstar hbegins

/-- Two elements that begin alike are spelled alike. -/
theorem Spells.inj {raw : Bool} {e e' : Element} {es es' : List Element} {u v u' v' : Text}
    (he : Spells raw e u) (hs : SpellAll raw es v) (happart : (e :: es).IsChain Apart)
    (he' : Spells raw e' u') (hs' : SpellAll raw es' v') (happart' : (e' :: es').IsChain Apart)
    (h : u ++ v = u' ++ v') : e = e' ∧ v = v' := by
  have hv := head?_of_apart he hs happart
  have hv' := head?_of_apart he' hs' happart'
  obtain ⟨c, cs, hu, hc⟩ := he.beginsWith
  obtain ⟨d, ds, hu', hd⟩ := he'.beginsWith
  obtain rfl : c = d := by simpa [hu, hu'] using congrArg List.head? h
  have hopening (reach : Reach) (hc : c = reach.opening) : c ≠ '*' ∧ isDelimiter c = true := by
    subst hc
    exact ⟨opening_ne_star reach, opening_isDelimiter reach⟩
  cases e with
  | literal text r =>
      cases e' with
      | literal text' r' =>
          obtain ⟨rfl, rfl, _, hplain⟩ := he
          obtain ⟨rfl, rfl, _, hplain'⟩ := he'
          obtain ⟨rfl, rfl⟩ := append_inj_of_class hplain hv hplain' hv' h
          exact ⟨rfl, rfl⟩
      | parameter name reach => simp [BeginsWith, (hopening reach hd).2] at hc
      | wildcard => exact absurd hd hc.1
  | parameter name reach =>
      cases e' with
      | literal text' r' => simp [BeginsWith, (hopening reach hc).2] at hd
      | parameter name' reach' =>
          obtain ⟨rfl, hname⟩ := he
          obtain ⟨rfl, hname'⟩ := he'
          obtain rfl : reach = reach' := by
            cases reach <;> cases reach' <;> simp_all [BeginsWith, Reach.opening]
          have hrest : name ++ (reach.closing :: v) = name' ++ (reach.closing :: v') := by
            simpa using h
          obtain ⟨rfl, hv⟩ := append_inj_of_class (p := fun c => isDelimiter c = false) hname
            (by simp [closing_isDelimiter]) hname' (by simp [closing_isDelimiter]) hrest
          exact ⟨rfl, (List.cons.inj hv).2⟩
      | wildcard => exact absurd hd (hopening reach hc).1
  | wildcard =>
      cases e' with
      | literal text' r' => exact absurd hc hd.1
      | parameter name reach => exact absurd hc (hopening reach hd).1
      | wildcard =>
          obtain ⟨rfl, rfl⟩ := append_inj_of_class he.2 hv he'.2 hv' h
          exact ⟨rfl, rfl⟩

/-- A chunk spells one list of elements only. -/
theorem Spelling.unique {raw : Bool} {chunk : Text} {es es' : List Element}
    (h : Spelling raw chunk es) (h' : Spelling raw chunk es') : es = es' := by
  obtain ⟨hs, happart⟩ := h
  obtain ⟨hs', happart'⟩ := h'
  induction es generalizing chunk es' with
  | nil =>
      obtain rfl := spellAll_nil_iff.mp hs
      cases es' with
      | nil => rfl
      | cons e' es' =>
          obtain ⟨u, v, hu, _, hnil⟩ := spellAll_cons_iff.mp hs'
          obtain ⟨c, cs, rfl, _⟩ := hu.beginsWith
          simp at hnil
  | cons e es ih =>
      obtain ⟨u, v, hu, hv, rfl⟩ := spellAll_cons_iff.mp hs
      cases es' with
      | nil =>
          obtain ⟨c, cs, rfl, _⟩ := hu.beginsWith
          simp at hs'
      | cons e' es' =>
          obtain ⟨u', v', hu', hv', h⟩ := spellAll_cons_iff.mp hs'
          obtain ⟨rfl, rfl⟩ := hu.inj hv happart hu' hv' happart' h.symm
          rw [ih hv happart.tail hv' happart'.tail]

end Element

namespace Segment

theorem elementsAll_map_element (es : List Element) : elementsAll (es.map element) = es := by
  induction es with
  | nil => rfl
  | cons e es ih => simp [elementsAll, elements, ih]

theorem elements_ofElements (es : List Element) : (ofElements es).elements = es := by
  match es with
  | [] => rfl
  | [e] => rfl
  | e :: e' :: es => simp [ofElements, elements, elementsAll, elementsAll_map_element]

theorem spells_of_enclosed? {raw : Bool} {reach : Reach} {chunk name : Text}
    (hcount : chunk.countP isDelimiter = 2) (h : enclosed? reach chunk = some name) :
    (Element.parameter name reach).Spells raw chunk := by
  cases chunk with
  | nil => simp [enclosed?] at h
  | cons c cs =>
      simp only [enclosed?] at h
      split at h
      · rename_i hends
        obtain ⟨rfl, hlast⟩ := hends
        obtain rfl := Option.some.inj h
        have hsplit : cs.dropLast ++ [reach.closing] = cs := by
          rw [List.dropLast_append_getLast? _ hlast]
        refine ⟨by simp [hsplit], ?_⟩
        rw [← hsplit, List.countP_cons, List.countP_append, List.countP_singleton,
          Element.opening_isDelimiter, Element.closing_isDelimiter] at hcount
        have hname : cs.dropLast.countP isDelimiter = 0 := by
          simp only [ite_true] at hcount
          omega
        simpa using hname
      · simp at h

theorem spelling_of_plain? {raw : Bool} {chunk : Text} {s : Segment} (hne : chunk ≠ [])
    (h : plain? raw chunk = some s) : Element.Spelling raw chunk s.elements := by
  simp only [plain?] at h
  split at h
  · rename_i hstar
    obtain rfl := Option.some.inj h
    exact .single ⟨hne, by simp [hstar]⟩
  · split at h
    · rename_i hliteral
      obtain rfl := Option.some.inj h
      refine .single ⟨rfl, rfl, hne, ?_⟩
      intro c hc
      have hdelimiter : isDelimiter c = false := by
        simpa using List.countP_eq_zero.mp hliteral.1 c hc
      refine ⟨?_, hdelimiter⟩
      rintro rfl
      simp [hc] at hliteral
    · split at h
      · rename_i hcount
        rcases Option.or_eq_some_iff.mp h with h | ⟨_, h⟩
        · obtain ⟨name, hname, rfl⟩ := Option.map_eq_some_iff.mp h
          exact .single (spells_of_enclosed? hcount hname)
        · obtain ⟨name, hname, rfl⟩ := Option.map_eq_some_iff.mp h
          exact .single (spells_of_enclosed? hcount hname)
      · simp at h

/-- The segment that is read from a chunk has the elements that the chunk spells. -/
theorem spelling_of_ofChunk {path : Text} {raw : Bool} {chunk : Text} {s : Segment}
    (hne : chunk ≠ []) (h : ofChunk path raw chunk = .ok s) :
    Element.Spelling raw chunk s.elements := by
  simp only [ofChunk] at h
  split at h
  · simp at h
  · split at h
    · simp at h
    · split at h
      · rename_i s' hs
        obtain rfl := Except.ok.inj h
        rcases Option.or_eq_some_iff.mp hs with hs | ⟨_, hs⟩
        · exact spelling_of_plain? hne hs
        · obtain ⟨es, hes, rfl⟩ := Option.map_eq_some_iff.mp hs
          rw [elements_ofElements]
          exact Element.spelling_of_scan? hes
      · simp at h

end Segment

end PathRouting

import Mathlib.Data.List.Destutter
import Mathlib.Logic.Relation
import PathRouting.Proofs.Spelling
import PathRouting.Proofs.Values

/-! # Joining neighbouring elements

Elements may stand in any order, also in one that no chunk spells. Joining neighbours leaves the
parameters as they are and one wildcard of every run of them, with the same text between them, and
what it leaves has no neighbours that can be joined. It can be done in steps of two neighbours
each, and by going through the elements from the left. -/

namespace PathRouting.Element

/-- Whether an element stands between texts: a parameter or a wildcard. -/
def isStop : Element → Bool
  | literal _ _ => false
  | _ => true

def chars : Element → List (Char × Bool)
  | literal text raw => text.map (·, raw)
  | _ => []

def stops (es : List Element) : List Element := es.filter isStop

/-- The texts before, between and behind the parameters and wildcards among elements. -/
def gaps (es : List Element) : List (List (Char × Bool)) :=
  (es.splitOnP isStop).map (·.flatMap chars)

def Separate (e e' : Element) : Prop := ¬(e = wildcard ∧ e' = wildcard)

instance : DecidableRel Separate := fun e e' =>
  inferInstanceAs (Decidable ¬(e = wildcard ∧ e' = wildcard))

/-- The second elements are the first ones with neighbours joined. A run of wildcards counts as its
first one, so there is no text inside of it. -/
structure Joined (es fs : List Element) : Prop where
  /-- The parameters are the same, in the same order. -/
  parameters : fs.flatMap Element.parameters = es.flatMap Element.parameters
  /-- The wildcards stand where a run of them stood. -/
  stops : stops fs = Element.stops (es.destutter Separate)
  /-- Between neighbouring parameters or wildcards there is the same text. -/
  gaps : gaps fs = Element.gaps (es.destutter Separate)
  /-- No two neighbours are both wildcards, or literals that are both raw or both not. -/
  apart : fs.IsChain Apart
  /-- There is nothing left to be joined. -/
  fixed : merge fs = fs

/-! ## What joining keeps -/

variable {e : Element} {es es' : List Element}

theorem gaps_cons (e : Element) (es : List Element) :
    gaps (e :: es) = if e.isStop then [] :: gaps es else (gaps es).modifyHead (e.chars ++ ·) := by
  unfold gaps
  rw [List.splitOnP_cons_eq_if_modifyHead]
  split
  · rfl
  · cases es.splitOnP isStop <;> simp [List.modifyHead]

theorem destutter_cons (h : ∀ x ∈ es.head?, Separate e x) :
    (e :: es).destutter Separate = e :: es.destutter Separate := by
  cases es with
  | nil => rfl
  | cons x es => rw [List.destutter_cons_cons, if_pos (h x rfl), List.destutter_cons']

theorem destutter_wildcard (h : es.head? = some wildcard) :
    (wildcard :: es).destutter Separate = es.destutter Separate := by
  obtain ⟨es, rfl⟩ := List.head?_eq_some_iff.mp h
  rw [List.destutter_cons_cons, if_neg fun hseparate => hseparate ⟨rfl, rfl⟩,
    List.destutter_cons']

theorem destutter_literal (text : Text) (raw : Bool) (es : List Element) :
    (literal text raw :: es).destutter Separate = literal text raw :: es.destutter Separate :=
  destutter_cons fun _ _ h => absurd h.1 (by simp)

theorem head?_merge (es : List Element) :
    (merge es).head? = some wildcard ↔ es.head? = some wildcard := by
  cases es with
  | nil => simp [merge]
  | cons e es =>
      rcases merge_cons_cases e es with ⟨rest, rfl, _, hmerge⟩ |
        ⟨text, text', raw, rest, rfl, _, hmerge⟩ | ⟨hmerge, _⟩
      · simp [hmerge]
      · simp [hmerge]
      · simp [hmerge]

/-- Where merging leaves an element by itself, so does dropping all but one of the wildcards of a
run. -/
theorem destutter_of_apart (h : ∀ x ∈ (merge es).head?, Apart e x) :
    (e :: es).destutter Separate = e :: es.destutter Separate := by
  refine destutter_cons ?_
  rintro x hx ⟨rfl, rfl⟩
  exact h wildcard ((head?_merge es).mpr hx)

theorem parameters_merge (es : List Element) :
    (merge es).flatMap Element.parameters = es.flatMap Element.parameters := by
  induction es with
  | nil => rfl
  | cons e es ih =>
      rcases merge_cons_cases e es with ⟨rest, rfl, hes, hmerge⟩ |
        ⟨text, text', raw, rest, rfl, hes, hmerge⟩ | ⟨hmerge, _⟩
      · rw [hmerge, ← hes, ih]
        rfl
      · rw [hes] at ih
        rw [hmerge]
        exact ih
      · rw [hmerge, List.flatMap_cons, ih, List.flatMap_cons]

theorem stops_merge (es : List Element) : stops (merge es) = stops (es.destutter Separate) := by
  induction es with
  | nil => rfl
  | cons e es ih =>
      rcases merge_cons_cases e es with ⟨rest, rfl, hes, hmerge⟩ |
        ⟨text, text', raw, rest, rfl, hes, hmerge⟩ | ⟨hmerge, happart⟩
      · have hhead : es.head? = some wildcard := (head?_merge es).mp (by simp [hes])
        rw [hmerge, ← hes, destutter_wildcard hhead, ih]
      · rw [hes] at ih
        rw [hmerge, destutter_literal]
        exact ih
      · rw [hmerge, destutter_of_apart happart]
        simp only [stops, List.filter_cons] at ih ⊢
        rw [ih]

theorem gaps_merge (es : List Element) : gaps (merge es) = gaps (es.destutter Separate) := by
  induction es with
  | nil => rfl
  | cons e es ih =>
      rcases merge_cons_cases e es with ⟨rest, rfl, hes, hmerge⟩ |
        ⟨text, text', raw, rest, rfl, hes, hmerge⟩ | ⟨hmerge, happart⟩
      · have hhead : es.head? = some wildcard := (head?_merge es).mp (by simp [hes])
        rw [hmerge, ← hes, destutter_wildcard hhead, ih]
      · -- the texts of the two literals stand in one gap, before and after
        rw [hmerge, destutter_literal, gaps_cons, gaps_cons, ← ih, hes, gaps_cons]
        cases gaps rest <;> simp [isStop, chars, List.modifyHead]
      · rw [hmerge, destutter_of_apart happart, gaps_cons, gaps_cons, ih]

theorem merge_eq_self (h : es.IsChain Apart) : merge es = es := by
  induction es with
  | nil => rfl
  | cons e es ih =>
      obtain ⟨happart, hes⟩ := List.isChain_cons.mp h
      rcases merge_cons_cases e es with ⟨rest, rfl, hwild, _⟩ |
        ⟨text, text', raw, rest, rfl, hliteral, _⟩ | ⟨hcons, _⟩
      · obtain rfl := (ih hes).symm.trans hwild
        exact (happart wildcard rfl).elim
      · obtain rfl := (ih hes).symm.trans hliteral
        exact absurd rfl (happart (literal text' raw) rfl)
      · rw [hcons, ih hes]

theorem joined_merge (es : List Element) : Joined es (merge es) :=
  ⟨parameters_merge es, stops_merge es, gaps_merge es, apart_merge es,
    merge_eq_self (apart_merge es)⟩

/-! ## Joining step by step -/

/-- Two neighbours that can be one are joined. -/
inductive Joins : List Element → List Element → Prop
  | wildcards (es : List Element) : Joins (wildcard :: wildcard :: es) (wildcard :: es)
  | literals (text text' : Text) (raw : Bool) (es : List Element) :
      Joins (literal text raw :: literal text' raw :: es) (literal (text ++ text') raw :: es)
  | cons (e : Element) {es es' : List Element} : Joins es es' → Joins (e :: es) (e :: es')

theorem Joins.append_right (h : Joins es es') (fs : List Element) :
    Joins (es ++ fs) (es' ++ fs) := by
  induction h with
  | wildcards es => exact .wildcards (es ++ fs)
  | literals text text' raw es => exact .literals text text' raw (es ++ fs)
  | cons e _ ih => exact .cons e ih

theorem Joins.append_left (h : Joins es es') (fs : List Element) :
    Joins (fs ++ es) (fs ++ es') := by
  induction fs with
  | nil => exact h
  | cons f fs ih => exact .cons f ih

/-- Merging is joining as long as there are two neighbours that can be one. -/
theorem joins_merge (es : List Element) : Relation.ReflTransGen Joins es (merge es) := by
  induction es with
  | nil => exact .refl
  | cons e es ih =>
      have hcons : Relation.ReflTransGen Joins (e :: es) (e :: merge es) :=
        ih.lift (e :: ·) fun _ _ h => .cons e h
      rcases merge_cons_cases e es with ⟨rest, rfl, hes, hmerge⟩ |
        ⟨text, text', raw, rest, rfl, hes, hmerge⟩ | ⟨hmerge, _⟩
      · rw [hes] at hcons
        rw [hmerge]
        exact hcons.tail (.wildcards rest)
      · rw [hes] at hcons
        rw [hmerge]
        exact hcons.tail (.literals text text' raw rest)
      · rw [hmerge]
        exact hcons

/-! ## Joining from the left -/

/-- Puts an element behind others, or makes it one with the last of them. -/
def absorb : List Element → Element → List Element
  | [], e => [e]
  | [wildcard], wildcard => [wildcard]
  | [literal text raw], literal text' raw' =>
    if raw = raw' then [literal (text ++ text') raw] else [literal text raw, literal text' raw']
  | x :: es, e => x :: absorb es e

theorem absorb_cons_cons (x y : Element) (es : List Element) (e : Element) :
    absorb (x :: y :: es) e = x :: absorb (y :: es) e := by
  cases x <;> rfl

theorem merge_concat (es : List Element) (e : Element) :
    merge (es ++ [e]) = absorb (merge es) e := by
  induction es with
  | nil => cases e <;> rfl
  | cons x es ih =>
      rw [List.cons_append]
      unfold merge
      simp only [ih]
      generalize merge es = fs
      match fs with
      | [] => cases x <;> cases e <;> grind [absorb]
      | [y] => cases x <;> cases y <;> cases e <;> grind [absorb]
      | y :: z :: fs =>
          rw [absorb_cons_cons]
          cases x <;> cases y <;> grind [absorb]

/-- Going through the elements from the left, with the last one growing, is merging them. -/
theorem foldl_absorb (es : List Element) : es.foldl absorb [] = merge es := by
  induction es using List.reverseRecOn with
  | nil => rfl
  | append_singleton es e ih => rw [List.foldl_concat, ih, merge_concat]

end PathRouting.Element

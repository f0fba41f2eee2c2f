import PathRouting.Proofs.Runs

/-! # The ways to split a text at a pattern

The patterns that templates write take a single character, a run of characters of one set,
or an optional character. Each of them splits a text into what it takes and what is left,
in an order of preference. -/

namespace PathRouting

/-- The ways to split a text, in the order of preference, as what is taken and what is
left. -/
abbrev Splits := Text → List (Text × Text)

namespace Splits

def one (set : CharSet) : Splits
  | [] => []
  | c :: cs => if set.contains c then [([c], cs)] else []

/-- Takes any number of characters of a set, as many as possible or as few as possible
first. -/
def many (greedy : Bool) (set : CharSet) : Splits
  | [] => [([], [])]
  | c :: cs =>
    let more := if set.contains c then (many greedy set cs).map fun p => (c :: p.1, p.2) else []
    if greedy then more ++ [([], c :: cs)] else ([], c :: cs) :: more

def oneOrMore (greedy : Bool) (set : CharSet) : Splits
  | [] => []
  | c :: cs =>
    if set.contains c then (many greedy set cs).map fun p => (c :: p.1, p.2) else []

def atMostOne (set : CharSet) : Splits := fun s => one set s ++ [([], s)]

def nothing : Splits := fun s => [([], s)]

def andThen (f g : Splits) : Splits := fun s =>
  (f s).flatMap fun p => (g p.2).map fun q => (p.1 ++ q.1, q.2)

/-- The splits take exactly the texts with a property, wherever a text begins with one. -/
def Takes (f : Splits) (P : Text → Prop) : Prop :=
  ∀ s p, p ∈ f s ↔ P p.1 ∧ p.1 ++ p.2 = s

def Prefers (long : Bool) (f : Splits) : Prop :=
  ∀ s, (f s).Pairwise fun p q =>
    if long then q.1.length < p.1.length else p.1.length < q.1.length

def AtMostOneWay (f : Splits) : Prop := ∀ s, (f s).length ≤ 1

theorem takes_nothing : nothing.Takes fun t => t = [] := by
  intro s p
  simp only [nothing, List.mem_singleton]
  constructor
  · rintro rfl
    simp
  · rintro ⟨h, rfl⟩
    exact Prod.ext h (by simp [h])

theorem takes_one (set : CharSet) :
    (one set).Takes fun t => ∃ c, t = [c] ∧ set.contains c = true := by
  intro s p
  cases s with
  | nil =>
      simp only [one, List.not_mem_nil, false_iff]
      rintro ⟨⟨c, hc, _⟩, h⟩
      simp [hc] at h
  | cons c cs =>
      simp only [one]
      constructor
      · split
        · intro h
          obtain rfl := List.mem_singleton.mp h
          exact ⟨⟨c, rfl, by assumption⟩, rfl⟩
        · simp
      · rintro ⟨⟨d, hd, hset⟩, h⟩
        simp only [hd, List.singleton_append, List.cons.injEq] at h
        obtain ⟨rfl, rfl⟩ := h
        simp [hset, ← hd]

theorem takes_many (greedy : Bool) (set : CharSet) :
    (many greedy set).Takes fun t => ∀ c ∈ t, set.contains c = true := by
  intro s
  induction s with
  | nil =>
      intro p
      simp only [many, List.mem_singleton]
      constructor
      · rintro rfl
        simp
      · rintro ⟨_, h⟩
        obtain ⟨h1, h2⟩ := List.append_eq_nil_iff.mp h
        exact Prod.ext h1 h2
  | cons c cs ih =>
      intro p
      have hmem : p ∈ many greedy set (c :: cs) ↔
          p = ([], c :: cs) ∨
            set.contains c = true ∧ ∃ q ∈ many greedy set cs, (c :: q.1, q.2) = p := by
        cases greedy <;> by_cases hc : set.contains c <;> simp [many, hc, or_comm]
      rw [hmem]
      constructor
      · rintro (rfl | ⟨hc, q, hq, rfl⟩)
        · simp
        · obtain ⟨hall, rfl⟩ := (ih q).mp hq
          exact ⟨by simpa [hc] using hall, rfl⟩
      · rintro ⟨hall, h⟩
        obtain ⟨taken, left⟩ := p
        cases taken with
        | nil => exact .inl (Prod.ext rfl h)
        | cons d ds =>
            simp only [List.cons_append, List.cons.injEq] at h
            obtain ⟨rfl, h⟩ := h
            refine .inr ⟨hall d (by simp), (ds, left), (ih (ds, left)).mpr ⟨?_, h⟩, rfl⟩
            intro e he
            exact hall e (by simp [he])

theorem takes_oneOrMore (greedy : Bool) (set : CharSet) :
    (oneOrMore greedy set).Takes fun t => t ≠ [] ∧ ∀ c ∈ t, set.contains c = true := by
  intro s p
  cases s with
  | nil =>
      simp only [oneOrMore, List.not_mem_nil, false_iff]
      rintro ⟨⟨hne, _⟩, h⟩
      exact hne (List.append_eq_nil_iff.mp h).1
  | cons c cs =>
      have hmem : p ∈ oneOrMore greedy set (c :: cs) ↔
          set.contains c = true ∧ ∃ q ∈ many greedy set cs, (c :: q.1, q.2) = p := by
        by_cases hc : set.contains c <;> simp [oneOrMore, hc]
      rw [hmem]
      constructor
      · rintro ⟨hc, q, hq, rfl⟩
        obtain ⟨hall, rfl⟩ := (takes_many greedy set cs q).mp hq
        exact ⟨⟨by simp, by simpa [hc] using hall⟩, rfl⟩
      · rintro ⟨⟨hne, hall⟩, h⟩
        obtain ⟨taken, left⟩ := p
        cases taken with
        | nil => exact absurd rfl hne
        | cons d ds =>
            simp only [List.cons_append, List.cons.injEq] at h
            obtain ⟨rfl, h⟩ := h
            refine ⟨hall d (by simp), (ds, left), (takes_many greedy set cs _).mpr ⟨?_, h⟩, rfl⟩
            intro e he
            exact hall e (by simp [he])

theorem takes_atMostOne (set : CharSet) :
    (atMostOne set).Takes fun t => t.length ≤ 1 ∧ ∀ c ∈ t, set.contains c = true := by
  intro s p
  rw [atMostOne, List.mem_append, List.mem_singleton, takes_one set s p]
  constructor
  · rintro (⟨⟨c, hc, hset⟩, h⟩ | rfl)
    · simp [hc, hset, ← h]
    · simp
  · rintro ⟨⟨hlength, hall⟩, h⟩
    obtain ⟨taken, left⟩ := p
    match taken with
    | [] => exact .inr (Prod.ext rfl h)
    | [c] => exact .inl ⟨⟨c, rfl, hall c (by simp)⟩, h⟩
    | _ :: _ :: _ => simp at hlength

theorem Takes.andThen {f g : Splits} {P Q : Text → Prop} (hf : f.Takes P) (hg : g.Takes Q) :
    (f.andThen g).Takes fun t => ∃ a b, t = a ++ b ∧ P a ∧ Q b := by
  intro s p
  simp only [Splits.andThen, List.mem_flatMap, List.mem_map]
  constructor
  · rintro ⟨a, ha, b, hb, rfl⟩
    obtain ⟨hP, rfl⟩ := (hf s a).mp ha
    obtain ⟨hQ, hb⟩ := (hg a.2 b).mp hb
    exact ⟨⟨a.1, b.1, rfl, hP, hQ⟩, by simp [hb]⟩
  · rintro ⟨⟨a, b, hp, hP, hQ⟩, h⟩
    refine ⟨(a, b ++ p.2), (hf s _).mpr ⟨hP, ?_⟩, (b, p.2), (hg _ _).mpr ⟨hQ, rfl⟩, ?_⟩
    · rw [← h, hp, List.append_assoc]
    · exact Prod.ext hp.symm rfl

theorem Takes.congr {f : Splits} {P Q : Text → Prop} (h : f.Takes P) (hPQ : ∀ t, P t ↔ Q t) :
    f.Takes Q := by
  intro s p
  rw [h s p, hPQ]

theorem AtMostOneWay.prefers {f : Splits} (h : f.AtMostOneWay) (long : Bool) :
    f.Prefers long := by
  intro s
  have hs := h s
  match hf : f s with
  | [] => exact .nil
  | [p] => exact List.pairwise_singleton _ p
  | _ :: _ :: _ => simp [hf] at hs

theorem atMostOneWay_nothing : nothing.AtMostOneWay := by
  intro s
  simp [nothing]

theorem atMostOneWay_one (set : CharSet) : (one set).AtMostOneWay := by
  intro s
  cases s with
  | nil => simp [one]
  | cons c cs => by_cases hc : set.contains c <;> simp [one, hc]

theorem AtMostOneWay.andThen {f g : Splits} (hf : f.AtMostOneWay) (hg : g.AtMostOneWay) :
    (f.andThen g).AtMostOneWay := by
  intro s
  have hs := hf s
  match hfs : f s with
  | [] => simp [Splits.andThen, hfs]
  | [p] => simpa [Splits.andThen, hfs] using hg p.2
  | _ :: _ :: _ => simp [hfs] at hs

theorem prefers_many (greedy : Bool) (set : CharSet) : (many greedy set).Prefers greedy := by
  intro s
  induction s with
  | nil => exact List.pairwise_singleton _ _
  | cons c cs ih =>
      by_cases hc : set.contains c
      · cases greedy with
        | true =>
            simp only [many, hc, ite_true, List.pairwise_append, List.pairwise_map] at ih ⊢
            refine ⟨ih.imp (by simp), List.pairwise_singleton _ _, ?_⟩
            rintro p hp q hq
            obtain ⟨_, _, rfl⟩ := List.mem_map.mp hp
            simp [List.mem_singleton.mp hq]
        | false =>
            simp only [many, hc, ite_true, Bool.false_eq_true, ite_false, List.pairwise_cons,
              List.pairwise_map] at ih ⊢
            refine ⟨?_, ih.imp (by simp)⟩
            intro p hp
            obtain ⟨_, _, rfl⟩ := List.mem_map.mp hp
            simp
      · cases greedy <;> simp [many, hc]

theorem prefers_oneOrMore (greedy : Bool) (set : CharSet) :
    (oneOrMore greedy set).Prefers greedy := by
  intro s
  cases s with
  | nil => exact .nil
  | cons c cs =>
      by_cases hc : set.contains c
      · simp only [oneOrMore, hc, ite_true, List.pairwise_map]
        exact (prefers_many greedy set cs).imp (by cases greedy <;> simp)
      · simp [oneOrMore, hc]

theorem prefers_atMostOne (set : CharSet) : (atMostOne set).Prefers true := by
  intro s
  cases s with
  | nil => simp [atMostOne, one]
  | cons c cs => by_cases hc : set.contains c <;> simp [atMostOne, one, hc]

end Splits

namespace Task

/-- The tasks split every text as `f` does and leave the marks `marks offset length` where
they take `length` characters at `offset`. -/
def SplitAs (tasks : List Task) (marks : Nat → Nat → Slots) (f : Splits) : Prop :=
  ∀ before offset ts s, runs before offset (tasks ++ ts) s =
    (f s).flatMap fun p =>
      (runs (p.1.getLast?.or before) (offset + p.1.length) ts p.2).map
        (· ++ marks offset p.1.length)

def noMarks (_ _ : Nat) : Slots := []

def groupMarks (group offset length : Nat) : Slots :=
  [(.closed group, offset + length), (.opened group, offset)]

theorem splitAs_nil : SplitAs [] noMarks .nothing := by
  intro before offset ts s
  simp [Splits.nothing, noMarks]

theorem SplitAs.append {a b : List Task} {f g : Splits} (ha : SplitAs a noMarks f)
    (hb : SplitAs b noMarks g) : SplitAs (a ++ b) noMarks (f.andThen g) := by
  intro before offset ts s
  rw [List.append_assoc, ha, Splits.andThen, List.flatMap_assoc]
  congr 1
  funext p
  have hrest := hb (p.1.getLast?.or before) (offset + p.1.length) ts p.2
  simp only [noMarks, List.append_nil, List.map_id'] at hrest
  simp [hrest, noMarks, List.flatMap_map, Option.or_assoc, Nat.add_assoc]

theorem splitAs_one (set : CharSet) : SplitAs [.run (.one set)] noMarks (.one set) := by
  intro before offset ts s
  rw [List.singleton_append, runs_cons]
  cases s with
  | nil => simp [heads, Regex.heads, headRuns, Splits.one]
  | cons c cs =>
      by_cases hc : set.contains c <;>
        simp [heads, Regex.heads, headRuns, Splits.one, noMarks, hc]

theorem heads_again_one (greedy : Bool) (set : CharSet) (p : Place) :
    heads p (.again greedy (.one set)) =
      if greedy then [.read set [.again greedy (.one set)] [], .done []]
      else [.done [], .read set [.again greedy (.one set)] []] := by
  cases greedy <;> rfl

theorem getLast?_cons_or (c : Char) (t : Text) (before : Option Char) :
    (c :: t).getLast?.or before = some (t.getLast?.getD c) := by
  rw [List.getLast?_cons]
  rfl

theorem splitAs_again (greedy : Bool) (set : CharSet) :
    SplitAs [.again greedy (.one set)] noMarks (.many greedy set) := by
  intro before offset ts s
  induction s generalizing before offset with
  | nil =>
      rw [List.singleton_append, runs_cons, heads_again_one]
      cases greedy <;> simp [headRuns, Splits.many, noMarks]
  | cons c cs ih =>
      rw [List.singleton_append, runs_cons, heads_again_one]
      have hlength (t : Text) : offset + (t.length + 1) = offset + 1 + t.length := by omega
      simp only [List.singleton_append, noMarks, List.append_nil, List.map_id'] at ih
      by_cases hc : set.contains c <;> cases greedy <;>
        simp [headRuns, Splits.many, noMarks, hc, ih, getLast?_cons_or, hlength,
          List.flatMap_map]

/-- A repetition reads its first turn and goes on like the task that takes further ones. -/
theorem splitAs_oneOrMore (greedy : Bool) (set : CharSet) :
    SplitAs [.run (.rep greedy 1 none (.one set))] noMarks (.oneOrMore greedy set) := by
  intro before offset ts s
  have hagain := splitAs_again greedy set
  rw [List.singleton_append, runs_cons]
  cases s with
  | nil => simp [heads, Regex.heads, Regex.turns, Head.followedBy, headRuns, Splits.oneOrMore]
  | cons c cs =>
      have hlength (t : Text) : offset + (t.length + 1) = offset + 1 + t.length := by omega
      have hrest := hagain (some c) (offset + 1) ts cs
      simp only [List.singleton_append, noMarks, List.append_nil, List.map_id'] at hrest
      by_cases hc : set.contains c <;>
        simp [heads, Regex.heads, Regex.turns, Head.followedBy, headRuns, Splits.oneOrMore,
          noMarks, hc, hrest, getLast?_cons_or, hlength, List.flatMap_map]

theorem splitAs_many (greedy : Bool) (set : CharSet) :
    SplitAs [.run (.rep greedy 0 none (.one set))] noMarks (.many greedy set) := by
  intro before offset ts s
  have hheads (p : Place) : heads p (.run (.rep greedy 0 none (.one set))) =
      heads p (.again greedy (.one set)) := by
    cases greedy <;> rfl
  rw [← splitAs_again greedy set before offset ts s, List.singleton_append,
    List.singleton_append, runs_cons, runs_cons, hheads]

theorem splitAs_atMostOne (set : CharSet) :
    SplitAs [.run (.rep true 0 (some 1) (.one set))] noMarks (.atMostOne set) := by
  intro before offset ts s
  have hheads (p : Place) : heads p (.run (.rep true 0 (some 1) (.one set))) =
      [.read set [.run (.rep true 0 (some 0) (.one set))] [], .done []] := rfl
  have hleave (before : Option Char) (offset : Nat) (s : Text) :
      runs before offset (.run (.rep true 0 (some 0) (.one set)) :: ts) s =
        runs before offset ts s := by
    simp [runs_cons, heads, Regex.heads, Regex.turns, Regex.optionalTurns, headRuns]
  rw [List.singleton_append, runs_cons, hheads]
  cases s with
  | nil => simp [headRuns, Splits.atMostOne, Splits.one, noMarks]
  | cons c cs =>
      by_cases hc : set.contains c <;>
        simp [headRuns, Splits.atMostOne, Splits.one, noMarks, hc, hleave]

/-- A group takes what its pattern takes and leaves its two marks. -/
theorem SplitAs.group {r : Regex} {f : Splits} (h : SplitAs [.run r] noMarks f)
    (group : Nat) : SplitAs [.run (.group group r)] (groupMarks group) f := by
  intro before offset ts s
  have hbody := h before offset (.close group :: ts) s
  simp only [List.singleton_append, noMarks, List.append_nil, List.map_id'] at hbody
  rw [List.singleton_append, runs_group, hbody, List.map_flatMap]
  congr 1
  funext p
  simp [runs_close, groupMarks]

end Task

end PathRouting

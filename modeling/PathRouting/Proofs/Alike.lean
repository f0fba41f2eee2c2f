import Mathlib.Data.List.Forall2
import PathRouting.Proofs.LocalSteps
import PathRouting.Proofs.Ungrouped

/-! # Readers that are alike up to groups

Two readers are alike if what they have read is the same once its groups are removed. The same
move takes readers that are alike to readers that are alike. -/

namespace PathRouting.Regex

theorem ungrouped_catAll (rs : List Regex) :
    (catAll rs).ungrouped = catAll (rs.map ungrouped) := by
  induction rs with
  | nil => rfl
  | cons r rs ih =>
      cases rs with
      | nil => rfl
      | cons s rs =>
          simp only [catAll, ungrouped, List.map_cons] at ih ⊢
          rw [ih]

theorem ungrouped_altAll (rs : List Regex) :
    (altAll rs).ungrouped = altAll (rs.map ungrouped) := by
  induction rs with
  | nil => rfl
  | cons r rs ih =>
      cases rs with
      | nil => rfl
      | cons s rs =>
          simp only [altAll, ungrouped, List.map_cons] at ih ⊢
          rw [ih]

theorem onlyEmpty_ungrouped (r : Regex) : r.ungrouped.onlyEmpty = r.onlyEmpty := by
  induction r with
  | empty => rfl
  | one set => rfl
  | look l => rfl
  | cat a b iha ihb => simp only [ungrouped, onlyEmpty, iha, ihb]
  | alt a b iha ihb => simp only [ungrouped, onlyEmpty, iha, ihb]
  | rep greedy least extra r ih => simp only [ungrouped, onlyEmpty, ih]
  | group i r ih => simp only [ungrouped, onlyEmpty, ih]

theorem ungrouped_repeated (greedy : Bool) (least : Nat) (extra : Option Nat) (r : Regex) :
    (repeated greedy least extra r).ungrouped = repeated greedy least extra r.ungrouped := by
  simp only [repeated, onlyEmpty_ungrouped]
  split
  · rfl
  · split
    · split <;> rfl
    · split <;> rfl

/-! ## What has been read -/

/-- The parts are the same without groups. -/
structure Part.Alike (p p' : Part) : Prop where
  regex : p.regex.ungrouped = p'.regex.ungrouped
  directive : p.directive = p'.directive

theorem Part.Alike.refl (p : Part) : p.Alike p := ⟨rfl, rfl⟩

theorem map_ungrouped_of_alike {ps ps' : List Part} (h : List.Forall₂ Part.Alike ps ps') :
    ps.map (fun p => p.regex.ungrouped) = ps'.map (fun p => p.regex.ungrouped) := by
  induction h with
  | nil => rfl
  | cons hp _ ih => rw [List.map_cons, List.map_cons, hp.regex, ih]

namespace Level

/-- The levels are the same without groups. -/
structure Alike (l l' : Level) : Prop where
  branches : List.Forall₂ Part.Alike l.branches l'.branches
  parts : List.Forall₂ Part.Alike l.parts l'.parts

theorem sequence_regex (ps : List Part) :
    (sequence ps).regex = catAll (ps.reverse.map (·.regex)) := by
  match ps with
  | [] => rfl
  | [p] => rfl
  | p :: q :: ps => rfl

theorem sequence_directive (ps : List Part) : (sequence ps).directive = false := by
  match ps with
  | [] => rfl
  | [p] => rfl
  | p :: q :: ps => rfl

theorem close_regex (l : Level) :
    l.close.regex = altAll ((sequence l.parts :: l.branches).reverse.map (·.regex)) := by
  obtain ⟨branches, parts⟩ := l
  cases branches with
  | nil => rfl
  | cons b bs => rfl

theorem alike_sequence {ps ps' : List Part} (h : List.Forall₂ Part.Alike ps ps') :
    (sequence ps).Alike (sequence ps') := by
  refine ⟨?_, by rw [sequence_directive, sequence_directive]⟩
  rw [sequence_regex, sequence_regex, ungrouped_catAll, ungrouped_catAll, List.map_map,
    List.map_map, List.map_reverse, List.map_reverse]
  exact congrArg (fun rs => catAll rs.reverse) (map_ungrouped_of_alike h)

namespace Alike

variable {l l' : Level}

theorem push {p p' : Part} (h : l.Alike l') (hp : p.Alike p') : (l.push p).Alike (l'.push p') :=
  ⟨h.branches, .cons hp h.parts⟩

theorem bar (h : l.Alike l') : l.bar.Alike l'.bar :=
  ⟨.cons (alike_sequence h.parts) h.branches, .nil⟩

theorem close (h : l.Alike l') : l.close.regex.ungrouped = l'.close.regex.ungrouped := by
  rw [close_regex, close_regex, ungrouped_altAll, ungrouped_altAll, List.map_map, List.map_map,
    List.map_reverse, List.map_reverse]
  exact congrArg (fun rs => altAll rs.reverse)
    (map_ungrouped_of_alike (.cons (alike_sequence h.parts) h.branches))

end Alike

/-- A relation between levels that is kept by what a move does at a level. -/
structure Kept (R : Level → Level → Prop) : Prop where
  push : ∀ {l l' : Level} {p p' : Part}, R l l' → p.Alike p' → R (l.push p) (l'.push p')
  bar : ∀ {l l' : Level}, R l l' → R l.bar l'.bar
  last : ∀ {l l' : Level} {p : Part} {ps : List Part}, R l l' → l.parts = p :: ps →
    ∃ p' ps', l'.parts = p' :: ps' ∧ p.Alike p' ∧ ∀ {q q' : Part}, q.Alike q' →
      R { l with parts := q :: ps } { l' with parts := q' :: ps' }

theorem kept_alike : Kept Level.Alike where
  push := Alike.push
  bar := Alike.bar
  last := by
    intro l l' p ps h hl
    have hparts := h.parts
    rw [hl] at hparts
    generalize hl' : l'.parts = ps' at hparts
    cases hparts with
    | cons hp hps => exact ⟨_, _, rfl, hp, fun hq => ⟨h.branches, .cons hq hps⟩⟩

end Level

/-- The groups that are open stand in levels that are the same without groups. -/
structure OpenGroup.Alike (g g' : OpenGroup) : Prop where
  level : g.level.Alike g'.level
  flags : g.flags = g'.flags

namespace Reader

/-- Levels with the groups around them, the outermost levels being related by `R` and all
others alike. -/
inductive Stacked (R : Level → Level → Prop) :
    Level → List OpenGroup → Level → List OpenGroup → Prop
  | bottom {l l' : Level} : R l l' → Stacked R l [] l' []
  | within {l l' : Level} {g g' : OpenGroup} {gs gs' : List OpenGroup} : l.Alike l' →
      g.flags = g'.flags → Stacked R g.level gs g'.level gs' →
      Stacked R l (g :: gs) l' (g' :: gs')

namespace Stacked

variable {R : Level → Level → Prop} {l l' : Level} {gs gs' : List OpenGroup}

theorem push (hR : Level.Kept R) (h : Stacked R l gs l' gs') {p p' : Part} (hp : p.Alike p') :
    Stacked R (l.push p) gs (l'.push p') gs' := by
  cases h with
  | bottom h => exact .bottom (hR.push h hp)
  | within h hflags hbelow => exact .within (h.push hp) hflags hbelow

theorem bar (hR : Level.Kept R) (h : Stacked R l gs l' gs') :
    Stacked R l.bar gs l'.bar gs' := by
  cases h with
  | bottom h => exact .bottom (hR.bar h)
  | within h hflags hbelow => exact .within h.bar hflags hbelow

theorem last (hR : Level.Kept R) (h : Stacked R l gs l' gs') {p : Part} {ps : List Part}
    (hl : l.parts = p :: ps) :
    ∃ p' ps', l'.parts = p' :: ps' ∧ p.Alike p' ∧ ∀ {q q' : Part}, q.Alike q' →
      Stacked R { l with parts := q :: ps } gs { l' with parts := q' :: ps' } gs' := by
  cases h with
  | bottom h =>
      obtain ⟨p', ps', hl', hp, hlast⟩ := hR.last h hl
      exact ⟨p', ps', hl', hp, fun hq => .bottom (hlast hq)⟩
  | within h hflags hbelow =>
      obtain ⟨p', ps', hl', hp, hlast⟩ := Level.kept_alike.last h hl
      exact ⟨p', ps', hl', hp, fun hq => .within (hlast hq) hflags hbelow⟩

theorem of_alike (hl : l.Alike l') (hgs : List.Forall₂ OpenGroup.Alike gs gs') :
    Stacked Level.Alike l gs l' gs' := by
  induction hgs generalizing l l' with
  | nil => exact .bottom hl
  | cons hg _ ih => exact .within hl hg.flags (ih hg.level)

theorem alike (h : Stacked Level.Alike l gs l' gs') :
    l.Alike l' ∧ List.Forall₂ OpenGroup.Alike gs gs' := by
  induction h with
  | bottom hl => exact ⟨hl, .nil⟩
  | within hl hflags _ ih => exact ⟨hl, .cons ⟨ih.1, hflags⟩ ih.2⟩

end Stacked

/-- The readers have read the same without groups but for their outermost levels, which are
related by `R`. -/
structure Over (R : Level → Level → Prop) (r r' : Reader) : Prop where
  flags : r.flags = r'.flags
  stacked : Stacked R r.level r.outer r'.level r'.outer

variable {R : Level → Level → Prop} {r r' q : Reader}

theorem Over.closeGroup (hR : Level.Kept R) (h : Over R r r') (hq : r.closeGroup = .ok q) :
    ∃ q', r'.closeGroup = .ok q' ∧ Over R q q' := by
  have hstacked := h.stacked
  simp only [Reader.closeGroup] at hq ⊢
  generalize r.outer = gs at hq hstacked
  generalize r'.outer = gs' at hstacked
  cases hstacked with
  | bottom _ => simp at hq
  | @within _ _ g g' gs gs' halike hflags hbelow =>
      have hinner := halike.close
      obtain rfl := Except.ok.inj hq
      refine ⟨_, rfl, hflags, hbelow.push hR ⟨?_, rfl⟩⟩
      cases g.index <;> cases g'.index <;> simpa only [ungrouped] using hinner

theorem Over.repeatLast (hR : Level.Kept R) (h : Over R r r') {greedy : Bool} {count : Count}
    (hcount : count.least + count.extra.getD 0 ≤ 1) (hq : r.repeatLast greedy count = .ok q) :
    ∃ q', r'.repeatLast greedy count = .ok q' ∧ Over R q q' := by
  have hlight : ¬1 < count.least + count.extra.getD 0 := by omega
  simp only [Reader.repeatLast, hlight, false_and, ite_false] at hq ⊢
  cases hparts : r.level.parts with
  | nil => simp [hparts] at hq
  | cons p ps =>
      obtain ⟨p', ps', hparts', hp, hlast⟩ := h.stacked.last hR hparts
      simp only [hparts, hp.directive] at hq
      split at hq
      · simp at hq
      · rename_i hdirective
        obtain rfl := Except.ok.inj hq
        simp only [hparts', if_neg hdirective]
        refine ⟨_, rfl, h.flags, hlast ⟨?_, rfl⟩⟩
        simp only [ungrouped_repeated, hp.regex]

/-- The same move keeps what is common to two readers. -/
theorem Over.follow (hR : Level.Kept R) {m : Move} (hm : m.Plain) (h : Over R r r')
    (hq : r.follow m = .ok q) : ∃ q', r'.follow m = .ok q' ∧ Over R q q' := by
  have hinside : Level.Alike {} {} := ⟨.nil, .nil⟩
  cases m with
  | enter o =>
      cases o with
      | capture name =>
          obtain rfl : name = none := hm
          obtain rfl := Except.ok.inj hq
          exact ⟨_, rfl, h.flags, .within hinside h.flags h.stacked⟩
      | plain f =>
          obtain rfl := Except.ok.inj hq
          exact ⟨_, rfl, rfl, .within hinside h.flags h.stacked⟩
      | directive f =>
          obtain rfl := Except.ok.inj hq
          exact ⟨_, rfl, rfl, h.stacked.push hR (.refl _)⟩
  | leave => exact h.closeGroup hR hq
  | bar =>
      obtain rfl := Except.ok.inj hq
      exact ⟨_, rfl, h.flags, h.stacked.bar hR⟩
  | push p =>
      obtain rfl := Except.ok.inj hq
      exact ⟨_, rfl, h.flags, h.stacked.push hR (.refl p)⟩
  | again greedy count =>
      obtain ⟨c, hc⟩ := hm
      exact h.repeatLast hR hc.le_one hq

/-- The readers have read the same without groups. -/
structure Alike (r r' : Reader) : Prop where
  flags : r.flags = r'.flags
  level : r.level.Alike r'.level
  outer : List.Forall₂ OpenGroup.Alike r.outer r'.outer

/-- The same move keeps readers alike. -/
theorem Alike.follow {m : Move} (hm : m.Plain) (h : r.Alike r') (hq : r.follow m = .ok q) :
    ∃ q', r'.follow m = .ok q' ∧ q.Alike q' := by
  have hover : Over Level.Alike r r' := ⟨h.flags, .of_alike h.level h.outer⟩
  obtain ⟨q', hq', hflags, hstacked⟩ := hover.follow Level.kept_alike hm hq
  obtain ⟨hlevel, houter⟩ := hstacked.alike
  exact ⟨q', hq', hflags, hlevel, houter⟩

end Reader

end PathRouting.Regex

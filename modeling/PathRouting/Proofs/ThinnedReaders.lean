import PathRouting.Proofs.Alike
import PathRouting.Proofs.Moves
import PathRouting.Proofs.TrimmedBrackets

/-! # Reading patterns with wildcards that are written twice

Two readers of patterns that differ by a wildcard that is written twice go through the same moves.
What they have read differs by that wildcard only, so if the first text is a pattern the second
one is, with the same matches. -/

namespace PathRouting.Regex

/-- The second part is the first one with some wildcards dropped. -/
structure Part.Thins (p p' : Part) : Prop where
  regex : p.regex.Thins p'.regex
  depth : p'.depth ≤ p.depth
  directive : p.directive = p'.directive

theorem Part.Thins.refl (p : Part) : p.Thins p := ⟨.refl _, Nat.le_refl _, rfl⟩

def wildPart (f : Flags) (set : CharSet) : Part :=
  { regex := many (true == f.swapGreed) set, depth := 1 }

/-- The second parts are the first ones, last first, with some wildcards dropped that stand right
behind the same wildcard. -/
inductive PartsThin : List Part → List Part → Prop
  | nil : PartsThin [] []
  | cons {p p' : Part} {ps ps' : List Part} : p.Thins p' → PartsThin ps ps' →
      PartsThin (p :: ps) (p' :: ps')
  | twice (f : Flags) (set : CharSet) {ps ps' : List Part} : PartsThin ps ps' →
      PartsThin (wildPart f set :: wildPart f set :: ps) (wildPart f set :: ps')

/-- Parts the last of which is not a wildcard that has been dropped, so that it may be repeated. -/
inductive Settled : List Part → List Part → Prop
  | nil : Settled [] []
  | cons {p p' : Part} {ps ps' : List Part} : p.Thins p' → PartsThin ps ps' →
      Settled (p :: ps) (p' :: ps')

/-! ## Sequences and alternatives -/

/-- Patterns one after another, with some wildcards dropped. -/
inductive RowThins : List Regex → List Regex → Prop
  | nil : RowThins [] []
  | cons {r r' : Regex} {rs rs' : List Regex} : r.Thins r' → RowThins rs rs' →
      RowThins (r :: rs) (r' :: rs')
  | twice (greedy : Bool) (set : CharSet) {rs rs' : List Regex} : RowThins rs rs' →
      RowThins (many greedy set :: many greedy set :: rs) (many greedy set :: rs')

namespace RowThins

variable {rs rs' ss ss' : List Regex}

theorem append (h : RowThins rs rs') (h' : RowThins ss ss') :
    RowThins (rs ++ ss) (rs' ++ ss') := by
  induction h with
  | nil => exact h'
  | cons hr _ ih => exact .cons hr ih
  | twice greedy set _ ih => exact .twice greedy set ih

theorem nil_iff (h : RowThins rs rs') : rs = [] ↔ rs' = [] := by
  cases h <;> simp

theorem catAll (h : RowThins rs rs') : (catAll rs).Thins (Regex.catAll rs') := by
  induction h with
  | nil => exact .empty
  | @cons r r' rs rs' hr hrs ih =>
      have hnil := hrs.nil_iff
      cases rs with
      | nil =>
          obtain rfl : rs' = [] := hnil.mp rfl
          exact hr
      | cons s rs =>
          cases rs' with
          | nil => exact absurd (hnil.mpr rfl) (by simp)
          | cons s' rs' => exact .cat hr ih
  | @twice greedy set rs rs' hrs ih =>
      have hnil := hrs.nil_iff
      cases rs with
      | nil =>
          obtain rfl : rs' = [] := hnil.mp rfl
          exact .last greedy set
      | cons s rs =>
          cases rs' with
          | nil => exact absurd (hnil.mpr rfl) (by simp)
          | cons s' rs' => exact .twice greedy set ih

end RowThins

theorem thins_altAll {rs rs' : List Regex} (h : List.Forall₂ Regex.Thins rs rs') :
    (altAll rs).Thins (altAll rs') := by
  induction h with
  | nil => exact .empty
  | @cons r r' rs rs' hr hrs ih =>
      cases hrs with
      | nil => exact hr
      | cons hs hrest => exact .alt hr ih

namespace PartsThin

variable {ps ps' : List Part}

theorem row (h : PartsThin ps ps') :
    RowThins (ps.reverse.map (·.regex)) (ps'.reverse.map (·.regex)) := by
  induction h with
  | nil => exact .nil
  | cons hp _ ih =>
      simp only [List.reverse_cons, List.map_append, List.map_cons, List.map_nil]
      exact ih.append (.cons hp.regex .nil)
  | twice f set _ ih =>
      simp only [List.reverse_cons, List.map_append, List.map_cons, List.map_nil,
        List.append_assoc, List.singleton_append]
      exact ih.append (.twice _ set .nil)

theorem length_le (h : PartsThin ps ps') : ps'.length ≤ ps.length := by
  induction h with
  | nil => exact Nat.le_refl _
  | cons _ _ ih => exact Nat.succ_le_succ ih
  | twice f set _ ih => simp only [List.length_cons]; omega

theorem depth_le (h : PartsThin ps ps') :
    (ps'.map (·.depth)).foldl max 0 ≤ (ps.map (·.depth)).foldl max 0 := by
  induction h with
  | nil => exact Nat.le_refl _
  | @cons p p' ps ps' hp _ ih =>
      have hdepth := hp.depth
      simp only [List.map_cons, List.foldl_cons]
      rw [foldl_max _ (max 0 p'.depth), foldl_max _ (max 0 p.depth)]
      omega
  | @twice f set ps ps' _ ih =>
      simp only [List.map_cons, List.foldl_cons]
      rw [foldl_max, foldl_max _ (max (max 0 _) _)]
      omega

theorem sequence_depth (ps : List Part) : (Level.sequence ps).depth =
    if ps.length ≤ 1 then (ps.map (·.depth)).foldl max 0
    else 1 + (ps.map (·.depth)).foldl max 0 := by
  match ps with
  | [] => rfl
  | [p] => simp [Level.sequence]
  | p :: q :: ps => simp [Level.sequence]

theorem sequence (h : PartsThin ps ps') : (Level.sequence ps).Thins (Level.sequence ps') := by
  have hlength := h.length_le
  have hdepth := h.depth_le
  refine ⟨?_, ?_, by rw [Level.sequence_directive, Level.sequence_directive]⟩
  · rw [Level.sequence_regex, Level.sequence_regex]
    exact h.row.catAll
  · rw [sequence_depth, sequence_depth]
    split <;> split <;> omega

end PartsThin

namespace Level

/-- The second level is the first one with some wildcards dropped. -/
structure Thins (l l' : Level) : Prop where
  branches : List.Forall₂ Part.Thins l.branches l'.branches
  parts : PartsThin l.parts l'.parts

theorem depth_le_of_forall₂ {ps ps' : List Part} (h : List.Forall₂ Part.Thins ps ps') :
    (ps'.map (·.depth)).foldl max 0 ≤ (ps.map (·.depth)).foldl max 0 := by
  refine PartsThin.depth_le ?_
  induction h with
  | nil => exact .nil
  | cons hp _ ih => exact .cons hp ih

theorem close_depth (l : Level) : l.close.depth =
    if l.branches = [] then (sequence l.parts).depth
    else 1 + ((sequence l.parts :: l.branches).map (·.depth)).foldl max 0 := by
  obtain ⟨branches, parts⟩ := l
  cases branches with
  | nil => rfl
  | cons b bs => rfl

theorem Thins.close {l l' : Level} (h : l.Thins l') :
    l.close.regex.Thins l'.close.regex ∧ l'.close.depth ≤ l.close.depth := by
  have hsequence := h.parts.sequence
  have hall : List.Forall₂ Part.Thins (sequence l.parts :: l.branches)
      (sequence l'.parts :: l'.branches) := .cons hsequence h.branches
  constructor
  · rw [close_regex, close_regex]
    apply thins_altAll
    rw [List.forall₂_map_left_iff, List.forall₂_map_right_iff]
    exact (List.rel_reverse hall).imp fun _ _ hp => hp.regex
  · have hdepth := depth_le_of_forall₂ hall
    have hbranches : l.branches = [] ↔ l'.branches = [] := by
      have hlength := h.branches.length_eq
      rw [← List.length_eq_zero_iff, ← List.length_eq_zero_iff, hlength]
    rw [close_depth, close_depth]
    by_cases hnil : l.branches = []
    · rw [if_pos hnil, if_pos (hbranches.mp hnil)]
      exact hsequence.depth
    · rw [if_neg hnil, if_neg (mt hbranches.mpr hnil)]
      omega

end Level

/-! ## Following moves -/

/-- The groups that are open stand in levels that differ by dropped wildcards. -/
structure OpenGroup.Thins (g g' : OpenGroup) : Prop where
  index : g.index = g'.index
  level : g.level.Thins g'.level
  flags : g.flags = g'.flags

/-- The second move is the first one, with a set that takes no more room. -/
inductive Move.Thins : Move → Move → Prop
  | same (m : Move) : Thins m m
  | push {p p' : Part} : p.Thins p' → Thins (.push p) (.push p')

namespace Reader

/-- The second reader has read what the first one has, with some wildcards dropped. -/
structure Thins (r r' : Reader) : Prop where
  flags : r.flags = r'.flags
  level : r.level.Thins r'.level
  outer : List.Forall₂ OpenGroup.Thins r.outer r'.outer
  groups : r.groups = r'.groups
  names : r.names = r'.names

/-- The readers differ by dropped wildcards, and the last part of neither is one. -/
def Ready (r r' : Reader) : Prop := r.Thins r' ∧ Settled r.level.parts r'.level.parts

variable {r r' q : Reader} {p p' : Part}

theorem Thins.push (h : r.Thins r') (hp : p.Thins p') : Ready (r.push p) (r'.push p') :=
  ⟨⟨h.flags, ⟨h.level.branches, .cons hp h.level.parts⟩, h.outer, h.groups, h.names⟩,
    .cons hp h.level.parts⟩

theorem Thins.openGroup (h : r.Thins r') (o : Opening) (hq : r.openGroup o = .ok q) :
    ∃ q', r'.openGroup o = .ok q' ∧ Ready q q' := by
  have hinside : Level.Thins {} {} := ⟨.nil, .nil⟩
  have hgroup (index : Option Nat) :
      List.Forall₂ OpenGroup.Thins (⟨index, r.level, r.flags⟩ :: r.outer)
        (⟨index, r'.level, r'.flags⟩ :: r'.outer) := .cons ⟨rfl, h.level, h.flags⟩ h.outer
  cases o with
  | capture name =>
      simp only [Reader.openGroup] at hq ⊢
      rw [h.names] at hq
      split at hq
      · simp at hq
      · rename_i hnew
        obtain rfl := Except.ok.inj hq
        rw [if_neg hnew]
        refine ⟨_, rfl, ⟨h.flags, hinside, ?_, ?_, rfl⟩, .nil⟩
        · rw [h.groups]
          exact hgroup _
        · simp only [h.groups]
  | plain f =>
      obtain rfl := Except.ok.inj hq
      exact ⟨_, rfl, ⟨rfl, hinside, hgroup none, h.groups, h.names⟩, .nil⟩
  | directive f =>
      obtain rfl := Except.ok.inj hq
      obtain ⟨hpush, hsettled⟩ := h.push (.refl { regex := .empty, directive := true })
      exact ⟨_, rfl, ⟨rfl, hpush.level, hpush.outer, hpush.groups, hpush.names⟩, hsettled⟩

theorem Thins.closeGroup (h : r.Thins r') (hq : r.closeGroup = .ok q) :
    ∃ q', r'.closeGroup = .ok q' ∧ Ready q q' := by
  obtain ⟨hregex, hdepth⟩ := h.level.close
  have houter := h.outer
  simp only [Reader.closeGroup] at hq ⊢
  generalize r.outer = gs at hq houter
  generalize r'.outer = gs' at houter
  cases houter with
  | nil => simp at hq
  | @cons g g' gs gs' hg hgs =>
      obtain ⟨index, level, flags⟩ := g
      obtain ⟨index', level', flags'⟩ := g'
      obtain ⟨rfl, hlevel, rfl⟩ := hg
      have hclosed {a a' : Regex} (ha : a.Thins a') : Part.Thins
          { regex := a, depth := r.level.close.depth + 1 }
          { regex := a', depth := r'.level.close.depth + 1 } :=
        ⟨ha, Nat.succ_le_succ hdepth, rfl⟩
      have hready {p p' : Part} (hp : p.Thins p') : Ready
          { r with flags := flags, level := level.push p, outer := gs }
          { r' with flags := flags, level := level'.push p', outer := gs' } :=
        ⟨⟨rfl, ⟨hlevel.branches, .cons hp hlevel.parts⟩, hgs, h.groups, h.names⟩,
          .cons hp hlevel.parts⟩
      obtain rfl := Except.ok.inj hq
      cases index with
      | none => exact ⟨_, rfl, hready (hclosed hregex)⟩
      | some i => exact ⟨_, rfl, hready (hclosed (.group i hregex))⟩

/-- Where the last parts are settled, the same sign repeats them. -/
theorem Ready.repeatLast (h : Ready r r') {greedy : Bool} {count : Count}
    (hq : r.repeatLast greedy count = .ok q) :
    ∃ q', r'.repeatLast greedy count = .ok q' ∧ Ready q q' := by
  obtain ⟨h, hsettled⟩ := h
  simp only [Reader.repeatLast] at hq ⊢
  generalize hparts : r.level.parts = parts at hq hsettled
  generalize hparts' : r'.level.parts = parts' at hsettled
  cases hsettled with
  | nil => simp at hq
  | @cons p p' ps ps' hp hps =>
      simp only [hp.directive] at hq
      split at hq
      · simp at hq
      · rename_i hdirective
        have hregex := hp.regex.repeated greedy count.least count.extra
        have hweight := hregex.weight_le
        split at hq
        · simp at hq
        · rename_i hlight
          obtain rfl := Except.ok.inj hq
          simp only [if_neg hdirective]
          rw [if_neg (by omega)]
          have hpart : Part.Thins
              { regex := repeated greedy count.least count.extra p.regex, depth := p.depth + 1 }
              { regex := repeated greedy count.least count.extra p'.regex
                depth := p'.depth + 1 } := ⟨hregex, Nat.succ_le_succ hp.depth, rfl⟩
          exact ⟨_, rfl, ⟨h.flags, ⟨h.level.branches, .cons hpart hps⟩, h.outer, h.groups,
            h.names⟩, .cons hpart hps⟩

/-- The same move keeps readers that differ by dropped wildcards, and settles their last parts. A
sign of repetition must not follow a wildcard that has been dropped. -/
theorem Thins.follow (h : r.Thins r') {m m' : Move} (hm : m.Thins m')
    (hready : ∀ greedy count, m = .again greedy count → Ready r r')
    (hq : r.follow m = .ok q) : ∃ q', r'.follow m' = .ok q' ∧ Ready q q' := by
  cases hm with
  | push hp =>
      obtain rfl := Except.ok.inj hq
      exact ⟨_, rfl, h.push hp⟩
  | same m =>
      cases m with
      | enter o => exact h.openGroup o hq
      | leave => exact h.closeGroup hq
      | bar =>
          obtain rfl := Except.ok.inj hq
          exact ⟨_, rfl, ⟨h.flags, ⟨.cons h.level.parts.sequence h.level.branches, .nil⟩, h.outer,
            h.groups, h.names⟩, .nil⟩
      | push p =>
          obtain rfl := Except.ok.inj hq
          exact ⟨_, rfl, h.push (.refl p)⟩
      | again greedy count => exact (hready greedy count rfl).repeatLast hq

theorem Thins.finish (h : r.Thins r') {a : Regex} (ha : r.finish = .ok a) :
    ∃ b, r'.finish = .ok b ∧ a.Thins b := by
  obtain ⟨hregex, hdepth⟩ := h.level.close
  have houter := h.outer
  unfold Reader.finish at ha ⊢
  generalize r.outer = gs at ha houter
  generalize r'.outer = gs' at houter
  cases houter with
  | cons _ _ => simp at ha
  | nil =>
      simp only at ha ⊢
      split at ha
      · simp at ha
      · obtain rfl := Except.ok.inj ha
        rw [if_neg (by omega)]
        exact ⟨_, rfl, hregex⟩

end Reader

/-! ## Reading moves -/

namespace Doubled

variable {f : Flags} {c : Char} {s t rest : Text} {m : Move}

theorem simpleRepeat (h : Doubled s t) (count : Count) :
    TakesAlike (readRepeat.simple f count s) (readRepeat.simple f count t) := by
  obtain ⟨hlazy, hrest⟩ := h.readLazy
  unfold readRepeat.simple
  simp only [hlazy]
  exact .ok hrest _

/-- A sign of repetition stands at the front of both texts or of none. -/
theorem readRepeat (h : Doubled s t) (c : Char) :
    (readRepeat f (c :: s) = none ∧ Regex.readRepeat f (c :: t) = none) ∨
      ∃ x y, Regex.readRepeat f (c :: s) = some x ∧ Regex.readRepeat f (c :: t) = some y ∧
        TakesAlike x y := by
  by_cases hsign : ∃ count, RepeatSign c count
  · obtain ⟨count, hc⟩ := hsign
    refine .inr ⟨readRepeat.simple f count s, readRepeat.simple f count t, ?_, ?_,
      h.simpleRepeat count⟩
    · cases hc <;> rfl
    · cases hc <;> rfl
  · by_cases hbrace : c = '\x7B'
    · subst hbrace
      refine .inr ⟨_, _, rfl, rfl, ?_⟩
      obtain ⟨e, hcount⟩ | ⟨count, u, u', hcount, hcount', hrest⟩ := (h.readCount (f := f)).cases
      · simp only [hcount]
        exact .error _ _
      · simp only [hcount, hcount']
        exact (hrest.skip f).simpleRepeat count
    · have hnone (u : Text) : Regex.readRepeat f (c :: u) = none := by
        have hquestion : c ≠ '?' := by
          rintro rfl
          exact hsign ⟨_, .optional⟩
        have hstar : c ≠ '*' := by
          rintro rfl
          exact hsign ⟨_, .star⟩
        have hplus : c ≠ '+' := by
          rintro rfl
          exact hsign ⟨_, .plus⟩
        simp [Regex.readRepeat, hbrace, hquestion, hstar, hplus]
      exact .inl ⟨hnone s, hnone t⟩

theorem escapeMove (h : Doubled s t) (c : Char) :
    TakesAlike (escapeMove f (c :: s)) (Regex.escapeMove f (c :: t)) := by
  unfold Regex.escapeMove
  obtain ⟨e, hescape⟩ | ⟨e, u, u', hescape, hescape', hrest⟩ := (h.readEscape (f := f) c).cases
  · simp only [hescape]
    exact .error _ _
  · simp only [hescape, hescape']
    cases e with
    | char d byte =>
        simp only
        split
        · exact .error _ _
        · exact .ok hrest _
    | set set => exact .ok hrest _
    | look l => exact .ok hrest _

theorem bracketMove (h : Doubled s t) (hread : readMove f '[' s = .ok (m, rest)) :
    ∃ m' rest', readMove f '[' t = .ok (m', rest') ∧ m.Thins m' ∧ Doubled rest rest' := by
  simp only [readMove] at hread ⊢
  cases hbracket : Regex.readBracket f s with
  | error e => simp [hbracket, Except.map] at hread
  | ok r =>
      obtain ⟨b, u⟩ := r
      obtain ⟨b', u', hbracket', hb, hrest⟩ := h.readBracket hbracket
      simp only [hbracket, Except.map, Except.ok.injEq, Prod.mk.injEq] at hread
      obtain ⟨rfl, rfl⟩ := hread
      exact ⟨.push { regex := .one b'.set, depth := b'.depth }, u',
        by simp only [hbracket', Except.map], .push ⟨.one hb.set, hb.depth, rfl⟩, hrest⟩

/-- Behind a character that is neither a dot nor a backslash the same move is read, or a set that
takes no more room. -/
theorem plainMove (hc : c ≠ '.' ∧ c ≠ '\\') (h : Doubled s t)
    (hread : readMove f c s = .ok (m, rest)) :
    ∃ m' rest', readMove f c t = .ok (m', rest') ∧ m.Thins m' ∧ Doubled rest rest' := by
  have hsame (htakes : TakesAlike (readMove f c s) (readMove f c t)) :
      ∃ m' rest', readMove f c t = .ok (m', rest') ∧ m.Thins m' ∧ Doubled rest rest' := by
    obtain ⟨rest', hread', hrest⟩ := htakes m rest hread
    exact ⟨m, rest', hread', .same m, hrest⟩
  by_cases hopener : isOpener c = true
  · obtain rfl | rfl | rfl | rfl | rfl | rfl :
        c = '(' ∨ c = ')' ∨ c = '|' ∨ c = '[' ∨ c = '^' ∨ c = '$' := by
      simp [isOpener, hc] at hopener
      tauto
    · exact hsame ((h.readOpening (f := f)).map Move.enter)
    · exact hsame (.ok h _)
    · exact hsame (.ok h _)
    · exact h.bracketMove hread
    · exact hsame (.ok h _)
    · exact hsame (.ok h _)
  · apply hsame
    rw [readMove_of_not_opener (by simpa using hopener),
      readMove_of_not_opener (by simpa using hopener)]
    rcases h.readRepeat (f := f) c with ⟨hs, ht⟩ | ⟨x, y, hs, ht, hxy⟩
    · simp only [hs, ht]
      exact .ok h _
    · simp only [hs, ht]
      exact hxy.map fun x => Move.again x.1 x.2

/-- A move is read alike, unless it is the first dot of the wildcards. -/
theorem readMove (h : Doubled (c :: s) t) (hread : readMove f c s = .ok (m, rest)) :
    (∃ u m' rest', t = c :: u ∧ Regex.readMove f c u = .ok (m', rest') ∧ m.Thins m' ∧
        Doubled rest rest') ∨
      ∃ v, Fresh v ∧ c :: s = '.' :: '*' :: '?' :: '.' :: '*' :: '?' :: v ∧
        t = '.' :: '*' :: '?' :: v := by
  by_cases hbackslash : c = '\\'
  · subst hbackslash
    rcases h.of_backslash with ⟨rfl, rfl⟩ | ⟨c, u, u', rfl, rfl, hrest⟩
    · simp [Regex.readMove, Regex.escapeMove, Regex.readEscape] at hread
    · obtain ⟨rest', hread', hends⟩ := hrest.escapeMove c m rest hread
      exact .inl ⟨_, m, rest', rfl, hread', .same m, hends⟩
  · by_cases hdot : c = '.'
    · subst hdot
      rcases h.of_dot with ⟨u, rfl, hrest⟩ | ⟨v, hv, rfl, rfl⟩
      · refine .inl ?_
        simp only [Regex.readMove] at hread ⊢
        cases hset : f.dotSet with
        | error e => simp [hset, Except.map] at hread
        | ok set =>
            simp only [hset, Except.map, Except.ok.injEq, Prod.mk.injEq] at hread
            obtain ⟨rfl, rfl⟩ := hread
            exact ⟨u, _, u, rfl, by simp only [Except.map], .same _, hrest⟩
      · exact .inr ⟨v, hv, rfl, rfl⟩
    · obtain ⟨u, rfl, hrest⟩ := h.of_cons (Unicode.isPlain_iff.mpr ⟨hdot, hbackslash⟩)
      obtain ⟨m', rest', hread', hm, hends⟩ := hrest.plainMove ⟨hdot, hbackslash⟩ hread
      exact .inl ⟨u, m', rest', rfl, hread', hm, hends⟩

end Doubled

/-! ## Whole patterns -/

namespace Reader

variable {r r' q : Reader} {s t v : Text} {n : Nat}

theorem step_dot {set : CharSet} (hset : r.flags.dotSet = .ok set) (s : Text) :
    r.step '.' s = .ok (r.pushSet set, s) := by
  simp only [step, hset]

theorem step_star (r : Reader) (set : CharSet) (v : Text) :
    (r.pushSet set).step '*' ('?' :: v) = .ok (r.push (wildPart r.flags set), v) := by
  have hlazy : readLazy ('?' :: v) = (true, v) := rfl
  rw [step_repeat .star, hlazy]
  rfl

/-- Reading a wildcard adds its part. -/
theorem loop_wildcard {set : CharSet} (hset : r.flags.dotSet = .ok set) (n : Nat) (v : Text) :
    loop (n + 2) r ('.' :: '*' :: '?' :: v) = loop n (r.push (wildPart r.flags set)) v := by
  rw [loop_step (skip_wild _ (by decide) _) (step_dot hset _),
    loop_step (skip_wild _ (by decide) _) (step_star r set v)]

theorem exists_of_loop_wildcard (h : loop n r ('.' :: '*' :: '?' :: v) = .ok q) :
    ∃ set k, r.flags.dotSet = .ok set ∧ n = k + 2 ∧
      loop k (r.push (wildPart r.flags set)) v = .ok q := by
  have hdot := skip_wild r.flags (c := '.') (by decide) ('*' :: '?' :: v)
  rcases loop_turn h with ⟨hend, _⟩ | ⟨c, cs, k, r₁, rest, hcs, rfl, hstep, hmore, _⟩
  · simp [hdot] at hend
  · obtain ⟨rfl, rfl⟩ := List.cons.inj (hdot.symm.trans hcs)
    cases hset : r.flags.dotSet with
    | error e => simp [step, hset] at hstep
    | ok set =>
        rw [step_dot hset] at hstep
        obtain ⟨rfl, rfl⟩ := Prod.mk.inj (Except.ok.inj hstep)
        have hstar := skip_wild (r.pushSet set).flags (c := '*') (by decide) ('?' :: v)
        rcases loop_turn hmore with ⟨hend, _⟩ | ⟨d, ds, l, r₂, rest, hds, rfl, hstep', hmore', _⟩
        · simp [hstar] at hend
        · obtain ⟨rfl, rfl⟩ := List.cons.inj (hstar.symm.trans hds)
          rw [step_star] at hstep'
          obtain ⟨rfl, rfl⟩ := Prod.mk.inj (Except.ok.inj hstep')
          exact ⟨set, l, rfl, rfl, hmore'⟩

/-- Only the signs of repetition repeat what has been read. -/
theorem isSign_of_again {f : Flags} {c : Char} {cs rest : Text} {greedy : Bool} {count : Count}
    (h : readMove f c cs = .ok (.again greedy count, rest)) : isSign c = true := by
  by_cases hopener : isOpener c = true
  · unfold readMove at h
    split at h
    · cases hread : readOpening f cs <;> simp [hread, Except.map] at h
    · simp at h
    · simp at h
    · cases hread : readBracket f cs <;> simp [hread, Except.map] at h
    · unfold escapeMove at h
      split at h
      · simp at h
      · split at h <;> simp at h
      · simp at h
      · simp at h
    · cases hread : f.dotSet <;> simp [hread, Except.map] at h
    · simp at h
    · simp at h
    · simp_all [isOpener]
  · rw [readMove_of_not_opener (by simpa using hopener)] at h
    by_contra hsign
    have hnone : readRepeat f (c :: cs) = none := by
      simp only [isSign, List.contains_eq_mem, List.mem_cons, List.not_mem_nil, or_false,
        decide_eq_true_eq, not_or] at hsign
      simp [readRepeat, hsign]
    simp [hnone] at h

/-- The readers go on alike: either no wildcard that has been dropped is right before them, or
nothing will be dropped any more and the text does not go on with a sign of repetition. -/
def GoOn (r r' : Reader) (s t : Text) : Prop :=
  Ready r r' ∧ Doubled s t ∨ r.Thins r' ∧ s = t ∧ Fresh s

namespace GoOn

theorem thins (h : GoOn r r' s t) : r.Thins r' := by
  rcases h with ⟨⟨h, _⟩, _⟩ | ⟨h, _⟩
  · exact h
  · exact h

theorem doubled (h : GoOn r r' s t) : Doubled s t := by
  rcases h with ⟨_, h⟩ | ⟨_, rfl, _⟩
  · exact h
  · exact .same s

/-- Before a sign of repetition the readers are ready for it. -/
theorem ready (h : GoOn r r' s t) {c : Char} {cs rest : Text} (hcs : r.flags.skip s = c :: cs)
    {greedy : Bool} {count : Count}
    (hmove : readMove r.flags c cs = .ok (.again greedy count, rest)) : Ready r r' := by
  rcases h with ⟨h, _⟩ | ⟨_, rfl, hfresh⟩
  · exact h
  · obtain ⟨d, ds, hds, hsign⟩ := hfresh r.flags
    obtain ⟨rfl, rfl⟩ := List.cons.inj (hcs.symm.trans hds)
    rw [isSign_of_again hmove] at hsign
    exact absurd hsign (by simp)

end GoOn

/-- Where the first reader has read the wildcard twice, the second one goes on from where it has
read it once. -/
theorem Thins.exists_twice (h : r.Thins r')
    (hread : loop n r ('.' :: '*' :: '?' :: '.' :: '*' :: '?' :: v) = .ok q) :
    ∃ k r₁ r₁', k < n ∧ r₁.Thins r₁' ∧ loop k r₁ v = .ok q ∧
      ∀ l, loop (l + 2) r' ('.' :: '*' :: '?' :: v) = loop l r₁' v := by
  obtain ⟨set, k₁, hset, _, hmore₁⟩ := exists_of_loop_wildcard hread
  obtain ⟨set', k₂, hset', _, hmore₂⟩ := exists_of_loop_wildcard hmore₁
  obtain rfl : set = set' := Except.ok.inj (hset.symm.trans hset')
  have htwice : ((r.push (wildPart r.flags set)).push (wildPart r.flags set)).Thins
      (r'.push (wildPart r.flags set)) :=
    ⟨h.flags, ⟨h.level.branches, .twice r.flags set h.level.parts⟩, h.outer, h.groups, h.names⟩
  refine ⟨k₂, _, _, by omega, htwice, hmore₂, fun l => ?_⟩
  rw [h.flags] at hset ⊢
  exact loop_wildcard hset l v

/-- If the first text is read to its end, the second one is. -/
theorem exists_loop (h : GoOn r r' s t) (hread : loop n r s = .ok q) :
    ∃ k q', loop k r' t = .ok q' ∧ q.Thins q' := by
  induction n using Nat.strongRecOn generalizing r r' s t with
  | ind n ih =>
      have hskip := h.doubled.skip r.flags
      have hflags := h.thins.flags
      rcases loop_turn hread with ⟨hend, rfl, _⟩ | ⟨c, cs, k, r₁, rest, hcs, rfl, hstep, hmore, _⟩
      · refine ⟨0, r', ?_, h.thins⟩
        rw [hend] at hskip
        have hend' : r'.flags.skip t = [] := by
          rw [← hflags]
          simpa using hskip.head?_eq.symm
        rw [loop.eq_def]
        simp only [hend']
      · obtain ⟨m, hmove, hfollow⟩ := step_eq_ok_iff.mp hstep
        rw [hcs] at hskip
        rcases hskip.readMove hmove with ⟨u, m', rest', ht, hmove', hm, hrest⟩ | ⟨v, hv, hs, ht⟩
        · have hready : ∀ greedy count, m = .again greedy count → Ready r r' := by
            rintro greedy count rfl
            exact h.ready hcs hmove
          obtain ⟨r₁', hfollow', hr₁⟩ := h.thins.follow hm hready hfollow
          obtain ⟨k', q', hmore', hq'⟩ := ih k (by omega) (.inl ⟨hr₁, hrest⟩) hmore
          refine ⟨k' + 1, q', ?_, hq'⟩
          rw [hflags] at ht hmove'
          rw [loop_step ht (step_eq_ok_iff.mpr ⟨m', hmove', hfollow'⟩)]
          exact hmore'
        · rw [(loop_congr_skip (r.flags.skip_skip s).symm _).1, hcs, hs] at hread
          obtain ⟨k₁, r₂, r₂', hk₁, hr₂, hmore₁, hloop⟩ := h.thins.exists_twice hread
          obtain ⟨k', q', hmore', hq'⟩ := ih k₁ hk₁ (.inr ⟨hr₂, rfl, hv⟩) hmore₁
          refine ⟨k' + 2, q', ?_, hq'⟩
          rw [hflags] at ht
          rw [(loop_congr_skip (r'.flags.skip_skip t).symm _).1, ht, hloop]
          exact hmore'

end Reader

/-- A pattern with a wildcard that is written twice stays one when it is written once, with the
same matches. -/
theorem exists_read_thins {caseless : Bool} {s t : Text} (h : Doubled s t) {a : Regex}
    (ha : read caseless s = .ok a) : ∃ b, read caseless t = .ok b ∧ a.Thins b := by
  unfold read at ha ⊢
  cases hloop : Reader.loop s.length { flags := { caseless := caseless } } s with
  | error e => simp [hloop] at ha
  | ok q =>
      simp only [hloop] at ha
      have hstart : Reader.Ready { flags := { caseless := caseless } }
          { flags := { caseless := caseless } } :=
        ⟨⟨rfl, ⟨.nil, .nil⟩, .nil, rfl, rfl⟩, .nil⟩
      obtain ⟨k, q', hloop', hq⟩ := Reader.exists_loop (.inl ⟨hstart, h⟩) hloop
      obtain ⟨b, hb, hthins⟩ := hq.finish ha
      refine ⟨b, ?_, hthins⟩
      simp only [Reader.loop_enough hloop' (Nat.le_refl _)]
      exact hb

end PathRouting.Regex

import PathRouting.Proofs.GroupCounts
import PathRouting.Proofs.Spans

/-! # Wildcards behind wildcards

A wildcard takes nothing that the same wildcard right before it could not have taken as well. A
pattern and what is left of it when such wildcards are dropped have the same preferred outcome
from every place on, whatever stands around them, so they find the same match and remember the
same in it. -/

namespace PathRouting

/-- The second set has the same members and takes no more room. -/
structure CharSet.Trims (s s' : CharSet) : Prop where
  contains : s.contains = s'.contains
  weight : Regex.setWeight s' ≤ Regex.setWeight s

theorem CharSet.Trims.refl (s : CharSet) : s.Trims s := ⟨rfl, Nat.le_refl _⟩

namespace Regex

abbrev many (greedy : Bool) (set : CharSet) : Regex := rep greedy 0 none (one set)

/-- The second pattern is the first one without some of the wildcards that stand right behind the
same wildcard, its sets being exchanged for sets that have the same members. -/
inductive Thins : Regex → Regex → Prop
  | empty : Thins empty empty
  | one {set set' : CharSet} : set.Trims set' → Thins (one set) (one set')
  | look (l : Look) : Thins (look l) (look l)
  | cat {a a' b b' : Regex} : Thins a a' → Thins b b' → Thins (cat a b) (cat a' b')
  | alt {a a' b b' : Regex} : Thins a a' → Thins b b' → Thins (alt a b) (alt a' b')
  | rep (greedy : Bool) (least : Nat) (extra : Option Nat) {r r' : Regex} : Thins r r' →
      Thins (rep greedy least extra r) (rep greedy least extra r')
  | group (index : Nat) {r r' : Regex} : Thins r r' → Thins (group index r) (group index r')
  | last (greedy : Bool) (set : CharSet) :
      Thins (cat (many greedy set) (many greedy set)) (many greedy set)
  | twice (greedy : Bool) (set : CharSet) {r r' : Regex} : Thins r r' →
      Thins (cat (many greedy set) (cat (many greedy set) r)) (cat (many greedy set) r')

namespace Thins

variable {r r' : Regex}

theorem refl (r : Regex) : Thins r r := by
  induction r with
  | empty => exact .empty
  | one set => exact .one (.refl set)
  | look l => exact .look l
  | cat a b iha ihb => exact .cat iha ihb
  | alt a b iha ihb => exact .alt iha ihb
  | rep greedy least extra r ih => exact .rep greedy least extra ih
  | group i r ih => exact .group i ih

theorem groupCount_eq (h : Thins r r') : r.groupCount = r'.groupCount := by
  induction h with
  | empty => rfl
  | one _ => rfl
  | look l => rfl
  | cat _ _ iha ihb => rw [groupCount, groupCount, iha, ihb]
  | alt _ _ iha ihb => rw [groupCount, groupCount, iha, ihb]
  | rep _ _ _ _ ih => exact ih
  | group i _ ih => rw [groupCount, groupCount, ih]
  | last greedy set => rfl
  | twice greedy set _ ih => simp [groupCount, ih]

theorem onlyEmpty_eq (h : Thins r r') : r.onlyEmpty = r'.onlyEmpty := by
  induction h with
  | empty => rfl
  | one _ => rfl
  | look l => rfl
  | cat _ _ iha ihb => rw [onlyEmpty, onlyEmpty, iha, ihb]
  | alt _ _ iha ihb => rw [onlyEmpty, onlyEmpty, iha, ihb]
  | rep _ _ _ _ ih => exact ih
  | group i _ ih => exact ih
  | last greedy set => rfl
  | twice greedy set _ ih => simp [onlyEmpty]

/-- What is dropped makes room. -/
theorem weight_le (h : Thins r r') : r'.weight ≤ r.weight := by
  induction h with
  | empty => exact Nat.le_refl _
  | one hset => exact hset.weight
  | look l => exact Nat.le_refl _
  | cat _ _ iha ihb => exact Nat.add_le_add iha ihb
  | alt _ _ iha ihb => exact Nat.add_le_add_right (Nat.add_le_add iha ihb) 1
  | rep greedy least extra _ ih =>
      have hturns := Nat.mul_le_mul_left (least + extra.getD 0) ih
      simp only [weight]
      omega
  | group i _ ih => exact Nat.add_le_add_right ih 2
  | last greedy set => simp [weight]
  | twice greedy set _ ih =>
      simp only [weight]
      omega

theorem repeated (h : Thins r r') (greedy : Bool) (least : Nat) (extra : Option Nat) :
    Thins (repeated greedy least extra r) (repeated greedy least extra r') := by
  simp only [Regex.repeated, ← h.onlyEmpty_eq]
  split
  · exact .empty
  · split
    · split
      · exact .rep greedy 0 (some 1) h
      · exact h
    · split
      · exact h
      · exact .rep greedy least extra h

end Thins

end Regex

namespace Task

/-- Tasks that come to nothing at the same places, whatever is left to do behind them. -/
def FailAlike (ts us : List Task) : Prop :=
  ∀ ks before offset s, runs before offset (ts ++ ks) s = [] ↔
    runs before offset (us ++ ks) s = []

namespace FailAlike

variable {ts us : List Task}

theorem symm (h : FailAlike ts us) : FailAlike us ts :=
  fun ks before offset s => (h ks before offset s).symm

theorem append (h : FailAlike ts us) (ks : List Task) : FailAlike (ts ++ ks) (us ++ ks) := by
  intro more before offset s
  rw [List.append_assoc, List.append_assoc]
  exact h (ks ++ more) before offset s

/-- Tasks that split a text in the same ways, in whatever order, fail alike. -/
theorem of_splitAs {f g : Splits} {P : Text → Prop} (hts : SplitAs ts noMarks f)
    (hus : SplitAs us noMarks g) (hf : f.Takes P) (hg : g.Takes P) : FailAlike ts us := by
  intro ks before offset s
  rw [hts, hus, List.flatMap_eq_nil_iff, List.flatMap_eq_nil_iff]
  exact forall_congr' fun p => imp_congr_left ((hf s p).trans (hg s p).symm)

/-- Behind a wildcard the same wildcard fails no sooner and no later than what follows it. -/
theorem again (greedy : Bool) (set : CharSet) (ks : List Task) :
    FailAlike (.again greedy (.one set) :: ks)
      (.again greedy (.one set) :: .run (.many greedy set) :: ks) := by
  have hmany := Splits.takes_many greedy set
  have htwice := (hmany.andThen hmany).congr (Q := fun t => ∀ c ∈ t, set.contains c = true)
    fun t => ⟨by
      rintro ⟨u, v, rfl, hu, hv⟩
      exact List.forall_mem_append.mpr ⟨hu, hv⟩, fun ht => ⟨[], t, rfl, by simp, ht⟩⟩
  have hagain := splitAs_again greedy set
  exact (of_splitAs hagain (hagain.append (splitAs_many greedy set)) hmany htwice).append ks

theorem again_cat (greedy : Bool) (set : CharSet) (r : Regex) (ks : List Task) :
    FailAlike (.again greedy (.one set) :: .run r :: ks)
      (.again greedy (.one set) :: .run (.cat (.many greedy set) r) :: ks) := by
  intro more before offset s
  have hcat := runs_append_congr
    (fun before offset s => runs_cat before offset (.many greedy set) r (ks ++ more) s)
    [.again greedy (.one set)] before offset s
  have hagain := again greedy set (.run r :: ks) more before offset s
  simp only [List.cons_append, List.nil_append] at hcat hagain ⊢
  rw [hcat, hagain]

end FailAlike

/-- The second tasks are the first ones in the course of which some wildcards have been dropped. -/
inductive Thins : List Task → List Task → Prop
  | nil : Thins [] []
  | run {r r' : Regex} {ts us : List Task} : r.Thins r' → Thins ts us →
      Thins (.run r :: ts) (.run r' :: us)
  | again (greedy : Bool) {r r' : Regex} {ts us : List Task} : r.Thins r' → Thins ts us →
      Thins (.again greedy r :: ts) (.again greedy r' :: us)
  | close (group : Nat) {ts us : List Task} : Thins ts us →
      Thins (.close group :: ts) (.close group :: us)
  | last (greedy : Bool) (set : CharSet) {ts us : List Task} : Thins ts us →
      Thins (.again greedy (.one set) :: .run (.many greedy set) :: ts)
        (.again greedy (.one set) :: us)
  | twice (greedy : Bool) (set : CharSet) {r r' : Regex} {ts us : List Task} : r.Thins r' →
      Thins ts us → Thins (.again greedy (.one set) :: .run (.cat (.many greedy set) r) :: ts)
        (.again greedy (.one set) :: .run r' :: us)

theorem Thins.append {ts us ts' us' : List Task} (h : Thins ts us) (h' : Thins ts' us') :
    Thins (ts ++ ts') (us ++ us') := by
  induction h with
  | nil => exact h'
  | run hr _ ih => exact .run hr ih
  | again greedy hr _ ih => exact .again greedy hr ih
  | close i _ ih => exact .close i ih
  | last greedy set _ ih => exact .last greedy set ih
  | twice greedy set hr _ ih => exact .twice greedy set hr ih

end Task

/-! ## The ways to go on -/

namespace Head

/-- The second ways are the first ones in the course of which some wildcards have been dropped. A
way that is left out stands right behind one that fails no sooner. -/
inductive Thins : List Head → List Head → Prop
  | nil : Thins [] []
  | done (marks : List Mark) {hs hs' : List Head} : Thins hs hs' →
      Thins (done marks :: hs) (done marks :: hs')
  | read (marks : List Mark) {set set' : CharSet} {ts us : List Task} {hs hs' : List Head} :
      set.contains = set'.contains → Task.Thins ts us → Thins hs hs' →
      Thins (read set ts marks :: hs) (read set' us marks :: hs')
  | twice (marks : List Mark) (set : CharSet) {ts ts' us : List Task} {hs hs' : List Head} :
      Task.Thins ts us → Task.FailAlike ts ts' → Thins hs hs' →
      Thins (read set ts marks :: read set ts' marks :: hs) (read set us marks :: hs')

/-- The ways of a wildcard that is followed by the tasks `ts`, given the ways of these. -/
def wild (greedy : Bool) (set : CharSet) (next : List Head) (ts : List Task) : List Head :=
  if greedy then read set (.again greedy (.one set) :: ts) [] :: next
  else next ++ [read set (.again greedy (.one set) :: ts) []]

theorem map_after_nil (hs : List Head) : hs.map (after []) = hs := by
  have hafter : after [] = id := by
    funext h
    cases h <;> simp [after]
  rw [hafter, List.map_id]

/-- What follows a wildcard goes on behind its ways. -/
theorem flatMap_wild (greedy : Bool) (set : CharSet) (hs next : List Head) (ts ks : List Task) :
    ((wild greedy set hs ts).flatMap fun
      | done marks => next.map (after marks)
      | read set rest marks => [read set (rest ++ ks) marks]) =
    wild greedy set (hs.flatMap fun
      | done marks => next.map (after marks)
      | read set rest marks => [read set (rest ++ ks) marks]) (ts ++ ks) := by
  cases greedy <;> simp [wild]

namespace Thins

variable {hs hs' next next' : List Head} {ts us : List Task}

theorem append (h : Thins hs hs') (hnext : Thins next next') :
    Thins (hs ++ next) (hs' ++ next') := by
  induction h with
  | nil => exact hnext
  | done marks _ ih => exact .done marks ih
  | read marks hset hts _ ih => exact .read marks hset hts ih
  | twice marks set hts hfail _ ih => exact .twice marks set hts hfail ih

theorem map_after (h : Thins hs hs') (marks : List Mark) :
    Thins (hs.map (after marks)) (hs'.map (after marks)) := by
  induction h with
  | nil => exact .nil
  | done _ _ ih => exact .done _ ih
  | read _ hset hts _ ih => exact .read _ hset hts ih
  | twice _ set hts hfail _ ih => exact .twice _ set hts hfail ih

theorem map_followedBy (h : Thins hs hs') (hts : Task.Thins ts us) :
    Thins (hs.map (followedBy ts)) (hs'.map (followedBy us)) := by
  induction h with
  | nil => exact .nil
  | done marks _ ih => exact .done marks ih
  | read marks hset hrest _ ih => exact .read marks hset (hrest.append hts) ih
  | twice marks set hrest hfail _ ih =>
      exact .twice marks set (hrest.append hts) (hfail.append ts) ih

theorem filter_reads (h : Thins hs hs') : Thins (hs.filter reads) (hs'.filter reads) := by
  induction h with
  | nil => exact .nil
  | done marks _ ih => exact ih
  | read marks hset hts _ ih => exact .read marks hset hts ih
  | twice marks set hts hfail _ ih => exact .twice marks set hts hfail ih

theorem firstDone (h : Thins hs hs') : Thins (firstDone hs) (Head.firstDone hs') := by
  induction h with
  | nil => exact .nil
  | done marks h _ => exact .done marks h.filter_reads
  | read marks hset hts _ ih => exact .read marks hset hts ih
  | twice marks set hts hfail _ ih => exact .twice marks set hts hfail ih

theorem optional (h : Thins hs hs') (greedy : Bool) :
    Thins (optional greedy hs) (Head.optional greedy hs') := by
  have hdone : Thins [Head.done []] [Head.done []] := .done [] .nil
  unfold Head.optional
  cases greedy with
  | true => exact (h.append hdone).firstDone
  | false => exact (hdone.append h).firstDone

/-- Ways that go on with ways of their own once they are done, and with tasks once they read. -/
theorem seq (h : Thins hs hs') (hnext : Thins next next') (hts : Task.Thins ts us) :
    Thins
      (hs.flatMap fun
        | .done marks => next.map (after marks)
        | .read set rest marks => [.read set (rest ++ ts) marks])
      (hs'.flatMap fun
        | .done marks => next'.map (after marks)
        | .read set rest marks => [.read set (rest ++ us) marks]) := by
  induction h with
  | nil => exact .nil
  | done marks _ ih => exact (hnext.map_after marks).append ih
  | read marks hset hrest _ ih => exact .read marks hset (hrest.append hts) ih
  | twice marks set hrest hfail _ ih =>
      exact .twice marks set (hrest.append hts) (hfail.append ts) ih

theorem group (h : Thins hs hs') (index : Nat) :
    Thins
      (hs.map fun
        | .done marks => .done (.closed index :: marks ++ [.opened index])
        | .read set rest marks => .read set (rest ++ [.close index]) (marks ++ [.opened index]))
      (hs'.map fun
        | .done marks => .done (.closed index :: marks ++ [.opened index])
        | .read set rest marks =>
          .read set (rest ++ [.close index]) (marks ++ [.opened index])) := by
  have hclose : Task.Thins [.close index] [.close index] := .close index .nil
  induction h with
  | nil => exact .nil
  | done marks _ ih => exact .done _ ih
  | read marks hset hts _ ih => exact .read _ hset (hts.append hclose) ih
  | twice marks set hts hfail _ ih =>
      exact .twice _ set (hts.append hclose) (hfail.append [.close index]) ih

/-- Of two wildcards one behind the other the second one is dropped. -/
theorem wild (greedy : Bool) (set : CharSet) {ts' : List Task} (hnext : Thins next next')
    (hts : Task.Thins (.again greedy (.one set) :: ts) (.again greedy (.one set) :: us))
    (hts' : Task.Thins (.again greedy (.one set) :: ts') (.again greedy (.one set) :: us))
    (hfail : Task.FailAlike (.again greedy (.one set) :: ts) (.again greedy (.one set) :: ts')) :
    Thins (wild greedy set (wild greedy set next ts) ts') (Head.wild greedy set next' us) := by
  cases greedy with
  | true => exact .twice [] set hts' hfail.symm hnext
  | false =>
      have hlast := Thins.twice [] set hts hfail .nil
      simpa [Head.wild] using hnext.append hlast

/-- Where ways that read come to the same head, so do all ways one after another. -/
theorem head?_flatMap {f : Head → List Slots} (h : Thins hs hs')
    (hread : ∀ set set' ts us marks, CharSet.contains set = CharSet.contains set' →
      Task.Thins ts us → (f (.read set ts marks)).head? = (f (.read set' us marks)).head?)
    (hfails : ∀ set ts ts' marks, Task.FailAlike ts ts' → f (.read set ts marks) = [] →
      f (.read set ts' marks) = []) :
    (hs.flatMap f).head? = (hs'.flatMap f).head? := by
  induction h with
  | nil => rfl
  | done marks _ ih =>
      rw [List.flatMap_cons, List.flatMap_cons, List.head?_append, List.head?_append, ih]
  | read marks hset hts _ ih =>
      rw [List.flatMap_cons, List.flatMap_cons, List.head?_append, List.head?_append, ih,
        hread _ _ _ _ marks hset hts]
  | @twice marks set ts ts' us hs hs' hts hfail _ ih =>
      have hfirst := hread set set ts us marks rfl hts
      rw [List.flatMap_cons, List.flatMap_cons, List.flatMap_cons, List.head?_append,
        List.head?_append, List.head?_append, ih, ← hfirst]
      cases hnone : f (.read set ts marks) with
      | nil => rw [hfails set ts ts' marks hfail hnone]; rfl
      | cons slots rest => rfl

end Thins

end Head

namespace Regex

variable {r r' : Regex} {turn turn' : List Head}

theorem thins_optionalTurns (greedy : Bool) (hr : r.Thins r') (hturn : Head.Thins turn turn')
    (n : Nat) :
    Head.Thins (optionalTurns greedy r turn n) (optionalTurns greedy r' turn' n) := by
  induction n with
  | zero => exact .done [] .nil
  | succ n ih =>
      exact (hturn.seq ih (.run (.rep greedy 0 (some n) hr) .nil)).optional greedy

theorem thins_turns (greedy : Bool) (hr : r.Thins r') (hturn : Head.Thins turn turn') (n : Nat)
    (extra : Option Nat) :
    Head.Thins (turns greedy r turn n extra) (turns greedy r' turn' n extra) := by
  have hagain := hturn.map_followedBy (.again greedy hr .nil)
  induction n with
  | zero =>
      cases extra with
      | some n => exact thins_optionalTurns greedy hr hturn n
      | none => exact hagain.optional greedy
  | succ n ih =>
      by_cases hlast : n = 0 ∧ extra = none
      · obtain ⟨rfl, rfl⟩ := hlast
        exact hagain
      · have hmore : extra = none → n = 0 → False := fun hextra hn => hlast ⟨hn, hextra⟩
        rw [turns.eq_4 _ _ _ _ _ hmore, turns.eq_4 _ _ _ _ _ hmore]
        exact hturn.seq ih (.run (.rep greedy n extra hr) .nil)

theorem heads_many (p : Place) (greedy : Bool) (set : CharSet) :
    (many greedy set).heads p = Head.wild greedy set [.done []] [] := by
  cases greedy <;> rfl

theorem heads_cat_many (p : Place) (greedy : Bool) (set : CharSet) (r : Regex) :
    (cat (many greedy set) r).heads p = Head.wild greedy set (r.heads p) [.run r] := by
  rw [heads, heads_many]
  refine (Head.flatMap_wild greedy set [.done []] (r.heads p) [] [.run r]).trans ?_
  simp [Head.map_after_nil]

/-- Dropping wildcards behind the same wildcards leaves out ways that are covered by others. -/
theorem Thins.heads (h : r.Thins r') (p : Place) : Head.Thins (r.heads p) (r'.heads p) := by
  induction h with
  | empty => exact .done [] .nil
  | one hset => exact .read [] hset.contains .nil .nil
  | look l =>
      simp only [Regex.heads]
      split
      · exact .done [] .nil
      · exact .nil
  | cat _ hb iha ihb => exact iha.seq ihb (.run hb .nil)
  | alt _ _ iha ihb => exact (iha.append ihb).firstDone
  | rep greedy least extra hr ih => exact thins_turns greedy hr ih least extra
  | group i _ ih => exact ih.group i
  | last greedy set =>
      rw [heads_cat_many, heads_many]
      exact .wild greedy set (.done [] .nil) (.again greedy (.refl _) .nil)
        (.last greedy set .nil) (.again greedy set [])
  | twice greedy set hr ih =>
      rw [heads_cat_many, heads_cat_many, heads_cat_many]
      exact .wild greedy set ih (.again greedy (.refl _) (.run hr .nil))
        (.twice greedy set hr .nil) (.again_cat greedy set _ [])

end Regex

namespace Task

variable {ts us : List Task}

theorem headsAll_again (p : Place) (greedy : Bool) (set : CharSet) (ts : List Task) :
    headsAll p (.again greedy (.one set) :: ts) = Head.wild greedy set (headsAll p ts) ts := by
  rw [headsAll, heads_again_one]
  cases greedy <;> simp [Head.wild, Head.map_after_nil]

theorem headsAll_many (p : Place) (greedy : Bool) (set : CharSet) (ts : List Task) :
    headsAll p (.run (.many greedy set) :: ts) = Head.wild greedy set (headsAll p ts) ts := by
  rw [headsAll, heads, Regex.heads_many]
  cases greedy <;> simp [Head.wild, Head.map_after_nil]

theorem headsAll_cat_many (p : Place) (greedy : Bool) (set : CharSet) (r : Regex)
    (ts : List Task) :
    headsAll p (.run (.cat (.many greedy set) r) :: ts) =
      Head.wild greedy set (headsAll p (.run r :: ts)) (.run r :: ts) := by
  rw [headsAll, heads, Regex.heads_cat_many]
  exact Head.flatMap_wild greedy set (r.heads p) (headsAll p ts) [.run r] ts

theorem thins_again (p : Place) (greedy : Bool) {r r' : Regex} (hr : r.Thins r') :
    Head.Thins (heads p (.again greedy r)) (heads p (.again greedy r')) := by
  have hmore := ((hr.heads p).filter_reads).map_followedBy (.again greedy hr .nil)
  have hdone : Head.Thins [.done []] [.done []] := .done [] .nil
  simp only [heads]
  cases greedy with
  | true => exact hmore.append hdone
  | false => exact hdone.append hmore

theorem Thins.headsAll (h : Thins ts us) (p : Place) :
    Head.Thins (headsAll p ts) (headsAll p us) := by
  induction h with
  | nil => exact .done [] .nil
  | run hr hts ih => exact (hr.heads p).seq ih hts
  | again greedy hr hts ih => exact (thins_again p greedy hr).seq ih hts
  | close i hts ih => exact (Head.Thins.done [.closed i] .nil).seq ih hts
  | @last greedy set ts us hts ih =>
      rw [headsAll_again, headsAll_many, headsAll_again]
      exact .wild greedy set ih (.again greedy (.refl _) hts) (.last greedy set hts)
        (.again greedy set ts)
  | @twice greedy set r r' ts us hr hts ih =>
      rw [headsAll_again, headsAll_cat_many, headsAll_again]
      exact .wild greedy set ((hr.heads p).seq ih hts) (.again greedy (.refl _) (.run hr hts))
        (.twice greedy set hr hts) (.again_cat greedy set r ts)

/-- Dropping wildcards behind the same wildcards keeps the preferred outcome. -/
theorem Thins.head?_runs (h : Thins ts us) (before : Option Char) (offset : Nat) (s : Text) :
    (runs before offset ts s).head? = (runs before offset us s).head? := by
  induction s generalizing before offset ts us with
  | nil =>
      simp only [runs]
      exact (h.headsAll _).head?_flatMap (fun _ _ _ _ _ _ _ => rfl) fun _ _ _ _ _ _ => rfl
  | cons c cs ih =>
      simp only [runs]
      refine (h.headsAll _).head?_flatMap ?_ ?_
      · intro set set' ts us marks hset hts
        simp only [hset]
        split
        · rw [List.head?_map, List.head?_map, ih hts]
        · rfl
      · intro set ts ts' marks hfail hnone
        have hfail := hfail [] (some c) (offset + 1) cs
        simp only [List.append_nil] at hfail
        by_cases hc : set.contains c
        · simp only [hc, ite_true, List.map_eq_nil_iff] at hnone ⊢
          exact hfail.mp hnone
        · simp only [hc, Bool.false_eq_true, ite_false]

end Task

namespace Regex.Thins

variable {r r' : Regex}

theorem matchHere_eq (h : r.Thins r') (before : Option Char) (offset : Nat) (s : Text) :
    r.matchHere before offset s = r'.matchHere before offset s := by
  rw [matchHere_eq_head?_runs, matchHere_eq_head?_runs]
  exact Task.Thins.head?_runs (.run h .nil) before offset s

/-- Dropping wildcards behind the same wildcards keeps the match that is found. -/
theorem search_eq (h : r.Thins r') (text : Text) : r.search text = r'.search text := by
  have hfrom (before : Option Char) (offset : Nat) (s : Text) :
      r.searchFrom before offset s = r'.searchFrom before offset s := by
    induction s generalizing before offset with
    | nil => exact h.matchHere_eq before offset []
    | cons c cs ih => rw [searchFrom, searchFrom, h.matchHere_eq, ih]
  exact hfrom none 0 text

theorem isMatch_eq (h : r.Thins r') (text : Text) : r.isMatch text = r'.isMatch text := by
  rw [isMatch, isMatch, h.search_eq]

theorem captures?_eq (h : r.Thins r') (text : Text) : r.captures? text = r'.captures? text := by
  rw [captures?, captures?, h.search_eq, h.groupCount_eq]

end Regex.Thins

end PathRouting

import Mathlib.Algebra.GroupWithZero.Nat
import PathRouting.Proofs.CharSets
import PathRouting.Proofs.Doubles
import PathRouting.Proofs.Thinning

/-! # Wildcards between brackets

Between brackets a wildcard is three members, and writing it twice adds members that are there
already. So the set that two texts write that differ by a doubled wildcard has the same members,
and takes less room where the wildcard is written once. -/

namespace PathRouting

namespace CharSet.Trims

variable {a a' b b' : CharSet}

theorem union (ha : a.Trims a') (hb : b.Trims b') : (union a b).Trims (union a' b') := by
  refine ⟨?_, Nat.add_le_add ha.weight hb.weight⟩
  funext c
  simp only [CharSet.contains, ha.contains, hb.contains]

theorem inter (ha : a.Trims a') (hb : b.Trims b') : (inter a b).Trims (inter a' b') := by
  refine ⟨?_, Nat.add_le_add ha.weight hb.weight⟩
  funext c
  simp only [CharSet.contains, ha.contains, hb.contains]

theorem compl (ha : a.Trims a') : (compl a).Trims (compl a') := by
  refine ⟨?_, ha.weight⟩
  funext c
  simp only [CharSet.contains, ha.contains]

theorem folded (ha : a.Trims a') : (folded a).Trims (folded a') := by
  refine ⟨?_, ha.weight⟩
  funext c
  simp only [CharSet.contains, ha.contains]

theorem complIf (negated : Bool) (ha : a.Trims a') :
    (complIf negated a).Trims (complIf negated a') := by
  cases negated with
  | true => exact ha.compl
  | false => exact ha

theorem foldedIf (caseless : Bool) (ha : a.Trims a') :
    (foldedIf caseless a).Trims (foldedIf caseless a') := by
  cases caseless with
  | true => exact ha.folded
  | false => exact ha

end CharSet.Trims

theorem CharSet.Trims.finishSet {f : Regex.Flags} {s s' set : CharSet} (h : s.Trims s')
    {negated : Bool} (hset : f.finishSet negated s = .ok set) :
    ∃ set', f.finishSet negated s' = .ok set' ∧ set.Trims set' := by
  unfold Regex.Flags.finishSet at hset ⊢
  split
  · rename_i hunicode
    rw [if_pos hunicode] at hset
    obtain rfl := Except.ok.inj hset
    exact ⟨_, rfl, (h.foldedIf f.caseless).complIf negated⟩
  · rename_i hunicode
    rw [if_neg hunicode] at hset
    split
    · rename_i hnegated
      simp [hnegated] at hset
    · rename_i hnegated
      rw [if_neg hnegated] at hset
      obtain rfl := Except.ok.inj hset
      refine ⟨_, rfl, ?_⟩
      split
      · exact h.folded.inter (.refl _)
      · exact h

namespace Regex

/-! ## Weights and depths of unions -/

theorem one_le_setWeight (s : CharSet) : 1 ≤ setWeight s := by
  induction s with
  | range low high => exact Nat.le_refl 1
  | caseless c => exact Nat.le_refl 1
  | property p => simp [setWeight]
  | union a b iha _ => simp only [setWeight]; omega
  | inter a b iha _ => simp only [setWeight]; omega
  | compl a ih => exact ih
  | folded a ih => exact ih
  | none => exact Nat.le_refl 1

theorem setWeight_unions (ss : List CharSet) :
    setWeight (.unions ss) = max 1 (ss.map setWeight).sum := by
  induction ss with
  | nil => rfl
  | cons s ss ih =>
      have hs := one_le_setWeight s
      cases ss with
      | nil => simp [CharSet.unions]; omega
      | cons t ts =>
          have ht := one_le_setWeight t
          simp only [CharSet.unions, setWeight, List.map_cons, List.sum_cons] at ih ⊢
          omega

theorem contains_unions (ss : List CharSet) (c : Char) :
    (CharSet.unions ss).contains c = ss.any (·.contains c) := by
  induction ss with
  | nil => rfl
  | cons s ss ih =>
      cases ss with
      | nil => simp [CharSet.unions]
      | cons t ts => simp only [CharSet.unions, CharSet.contains, List.any_cons, ih]

theorem foldl_max (ns : List Nat) (m : Nat) : ns.foldl max m = max m (ns.foldl max 0) := by
  induction ns generalizing m with
  | nil => simp
  | cons n ns ih =>
      rw [List.foldl_cons, List.foldl_cons, ih, ih (max 0 n)]
      omega

/-- The second set has the same members, takes no more room and is nested no deeper. -/
structure Nested.Trims (m m' : Nested) : Prop where
  set : m.set.Trims m'.set
  depth : m'.depth ≤ m.depth

theorem Nested.Trims.refl (m : Nested) : m.Trims m := ⟨.refl _, Nat.le_refl _⟩

namespace Bracket

def has (b : Bracket) (c : Char) : Bool := b.members.any fun m => m.set.contains c

def weight (b : Bracket) : Nat := (b.members.map fun m => setWeight m.set).sum

def depth (b : Bracket) : Nat := (b.members.map (·.depth)).foldl max 0

/-- The second brackets hold the same characters so far, in no more members. -/
structure Trims (b b' : Bracket) : Prop where
  negated : b.negated = b'.negated
  left : Option.Rel (fun l l' => l.1.Trims l'.1 ∧ l.2 = l'.2) b.left b'.left
  empty : b.members = [] ↔ b'.members = []
  has : ∀ c, b.has c = b'.has c
  length : b'.members.length ≤ b.members.length
  weight : b'.weight ≤ b.weight
  depth : b'.depth ≤ b.depth

theorem union_set (b : Bracket) :
    b.union.set.contains = b.has ∧ setWeight b.union.set = max 1 b.weight ∧
      b.union.depth = if b.members.length ≤ 1 then b.depth else 1 + b.depth := by
  obtain ⟨negated, left, members⟩ := b
  match members with
  | [] => exact ⟨rfl, rfl, rfl⟩
  | [m] =>
      have hm := one_le_setWeight m.set
      refine ⟨?_, ?_, ?_⟩
      · funext c
        simp [union, has]
      · simp only [union, weight, List.map_cons, List.map_nil, List.sum_cons, List.sum_nil]
        omega
      · simp [union, depth]
  | m :: m' :: ms =>
      refine ⟨?_, ?_, ?_⟩
      · funext c
        simp only [union, contains_unions, has, List.map_reverse, List.any_reverse, List.any_map]
        rfl
      · simp only [union, setWeight_unions, weight, List.map_reverse, List.sum_reverse,
          List.map_map]
        rfl
      · simp [union, depth]

namespace Trims

variable {f : Flags} {b b' : Bracket} {m m' : Nested}

theorem refl (b : Bracket) : b.Trims b := by
  refine ⟨rfl, ?_, Iff.rfl, fun _ => rfl, Nat.le_refl _, Nat.le_refl _, Nat.le_refl _⟩
  cases b.left with
  | none => exact .none
  | some l => exact .some ⟨.refl l.1, rfl⟩

theorem union (h : b.Trims b') : b.union.Trims b'.union := by
  obtain ⟨hcontains, hweight, hdepth⟩ := b.union_set
  obtain ⟨hcontains', hweight', hdepth'⟩ := b'.union_set
  have hlength := h.length
  have hless := h.weight
  have hdeep := h.depth
  refine ⟨⟨?_, ?_⟩, ?_⟩
  · rw [hcontains, hcontains']
    exact funext h.has
  · omega
  · rw [hdepth, hdepth']
    split <;> split <;> omega

theorem operand {s s' : CharSet} (f : Flags) (h : s.Trims s') :
    (operand f s).Trims (Bracket.operand f s') := by
  unfold Bracket.operand
  split
  · split
    · exact h.folded
    · exact h.folded.inter (.refl _)
  · exact h

theorem apply {a a' c c' : CharSet} (op : SetOp) (ha : a.Trims a') (hc : c.Trims c') :
    (op.apply a c).Trims (op.apply a' c') := by
  cases op with
  | inter => exact ha.inter hc
  | diff => exact ha.inter hc.compl
  | symmDiff => exact (ha.inter hc.compl).union (hc.inter ha.compl)

theorem total (h : b.Trims b') (f : Flags) : (b.total f).Trims (b'.total f) := by
  have hleft := h.left
  unfold Bracket.total
  generalize b.left = l at hleft ⊢
  generalize b'.left = l' at hleft ⊢
  cases hleft with
  | none => exact h.union
  | @some l l' hl =>
      obtain ⟨⟨hset, hdepth⟩, hop⟩ := hl
      have hunion := h.union
      have hdeep := hunion.depth
      obtain ⟨l, op⟩ := l
      obtain ⟨l', op'⟩ := l'
      obtain rfl : op = op' := hop
      refine ⟨apply op (operand f hset) (operand f hunion.set), ?_⟩
      simp only at hdepth ⊢
      omega

theorem withOp (h : b.Trims b') (f : Flags) (op : SetOp) :
    (b.withOp f op).Trims (b'.withOp f op) :=
  ⟨h.negated, .some ⟨h.total f, rfl⟩, Iff.rfl, fun _ => rfl, Nat.le_refl _, Nat.le_refl _,
    Nat.le_refl _⟩

theorem depth_add (b : Bracket) (m : Nested) : (b.add m).depth = max m.depth b.depth := by
  simp only [Bracket.depth, Bracket.add, List.map_cons, List.foldl_cons]
  rw [foldl_max]
  omega

theorem add (h : b.Trims b') (hm : m.Trims m') : (b.add m).Trims (b'.add m') := by
  have hweight := hm.set.weight
  have hless := h.weight
  have hdeep := hm.depth
  have hdeeper := h.depth
  refine ⟨h.negated, h.left, by simp [Bracket.add], ?_, Nat.succ_le_succ h.length, ?_, ?_⟩
  · intro c
    have hhas := h.has c
    simp only [Bracket.has, Bracket.add, List.any_cons, hm.set.contains] at hhas ⊢
    rw [hhas]
  · simp only [Bracket.weight, Bracket.add, List.map_cons, List.sum_cons] at hless ⊢
    omega
  · rw [depth_add, depth_add]
    omega

/-- A member that is there already may be left out. -/
theorem add_left (h : b.Trims b') (hne : b'.members ≠ [])
    (hm : ∀ c, m.set.contains c = true → b'.has c = true) : (b.add m).Trims b' := by
  have hlength := h.length
  have hless := h.weight
  have hdeeper := h.depth
  refine ⟨h.negated, h.left, by simp [Bracket.add, hne], ?_, ?_, ?_, ?_⟩
  · intro c
    have hhas := h.has c
    simp only [Bracket.has, Bracket.add, List.any_cons] at hhas hm ⊢
    rw [hhas, Bool.or_eq_right_iff_imp]
    exact hm c
  · simp only [Bracket.add, List.length_cons]
    omega
  · simp only [Bracket.weight, Bracket.add, List.map_cons, List.sum_cons] at hless ⊢
    omega
  · rw [depth_add]
    omega

end Trims

end Bracket

/-! ## Members that write a wildcard -/

theorem Flags.skip_skip (f : Flags) (s : Text) : f.skip (f.skip s) = f.skip s := by
  have hcomments (inComment : Bool) :
      skipComments false (skipComments inComment s) = skipComments inComment s := by
    induction s generalizing inComment with
    | nil => rfl
    | cons c cs ih =>
        cases inComment with
        | true => exact ih (c != '\n')
        | false =>
            simp only [skipComments, Bool.false_eq_true, ite_false]
            split
            · exact ih false
            · split
              · exact ih true
              · rename_i hblank hsharp
                simp [skipComments, hblank, hsharp]
  cases hverbose : f.verbose with
  | true => simpa [skip, hverbose] using hcomments false
  | false => simp [skip, hverbose]

def isWild (c : Char) : Bool := ['.', '*', '?'].contains c

section

variable {f : Flags} {b : Bracket} {outer : List Bracket} {c : Char} {s v : Text}

theorem eq_of_isWild (hc : isWild c = true) : c = '.' ∨ c = '*' ∨ c = '?' := by
  simpa [isWild] using hc

theorem skip_wild (f : Flags) (hc : isWild c = true) (s : Text) : f.skip (c :: s) = c :: s := by
  rcases eq_of_isWild hc with rfl | rfl | rfl
  · exact f.skip_cons (by decide) (by decide) s
  · exact f.skip_cons (by decide) (by decide) s
  · exact f.skip_cons (by decide) (by decide) s

def Bracket.addChar (b : Bracket) (c : Char) : Bracket := b.add ⟨.single c, 0⟩

theorem bracketTurn_wild (hc : isWild c = true) {d : Char} {ds : Text} (hs : f.skip s = d :: ds)
    (hd : d ≠ '-') :
    bracketTurn f b outer (c :: s) = .ok (.more (b.addChar c) outer, d :: ds) := by
  have hmember : bracketMember f (c :: s) = .ok (⟨.single c, 0⟩, d :: ds) := by
    refine bracketMember_eq_ok_iff.mpr ⟨.char c false, s, ?_, .inl ⟨hs, by simp, ?_, ?_⟩⟩
    · rcases eq_of_isWild hc with rfl | rfl | rfl <;> rfl
    · intro cs heq
      exact absurd (List.cons.inj heq).1 hd
    · have hascii : c.toNat < 0x80 := by rcases eq_of_isWild hc with rfl | rfl | rfl <;> decide
      simp [bracketMember.alone, bound, hascii]
  rcases eq_of_isWild hc with rfl | rfl | rfl <;>
    simp [bracketTurn, memberTurn, setOp?, hmember, Except.map, Bracket.addChar]

theorem bracketLoop_skip (n : Nat) (b : Bracket) (outer : List Bracket) (s : Text) :
    bracketLoop f n b outer (f.skip s) = bracketLoop f n b outer s := by
  cases n with
  | zero => rfl
  | succ n => rw [bracketLoop_succ, bracketLoop_succ, f.skip_skip]

/-- The characters of wildcards are read as members one after another. -/
theorem bracketLoop_wilds {u : Text} (hu : u.all isWild = true) (hv : Fresh v) {n : Nat}
    {x : Nested × Text} : bracketLoop f n b outer (u ++ v) = .ok x ↔
      ∃ k, n = k + u.length ∧ bracketLoop f k (u.foldl Bracket.addChar b) outer v = .ok x := by
  induction u generalizing n b with
  | nil => simp
  | cons c u ih =>
      obtain ⟨hc, hu⟩ : isWild c = true ∧ u.all isWild = true := by simpa using hu
      obtain ⟨d, ds, hskip, hd⟩ : ∃ d ds, f.skip (u ++ v) = d :: ds ∧ d ≠ '-' := by
        cases u with
        | nil =>
            obtain ⟨d, ds, hskip, hd⟩ := hv f
            refine ⟨d, ds, hskip, ?_⟩
            rintro rfl
            exact absurd hd (by decide)
        | cons d u =>
            have hd : isWild d = true := by simp at hu; exact hu.1
            refine ⟨d, u ++ v, skip_wild f hd _, ?_⟩
            rintro rfl
            exact absurd hd (by decide)
      cases n with
      | zero => simp [bracketLoop]
      | succ n =>
          have hturn : bracketLoop f (n + 1) b outer (c :: u ++ v) =
              bracketLoop f n (b.addChar c) outer (u ++ v) := by
            rw [← bracketLoop_skip n, hskip, List.cons_append, bracketLoop_succ, skip_wild f hc,
              bracketTurn_wild hc hskip hd]
            rfl
          rw [hturn, ih hu, List.foldl_cons, List.length_cons]
          simp only [← Nat.add_assoc, Nat.add_right_cancel_iff]

theorem Bracket.has_addChar (b : Bracket) (c d : Char) :
    (b.addChar c).has d = (decide (d = c) || b.has d) := by
  have hsingle : (CharSet.single c).contains d = decide (d = c) := by
    rw [Bool.eq_iff_iff, CharSet.contains_single, decide_eq_true_iff]
  simp [Bracket.has, Bracket.addChar, Bracket.add, hsingle]

/-- Where a wildcard is there already, writing it once more changes nothing. -/
theorem Bracket.Trims.wild {b b' : Bracket} (h : b.Trims b') (hdot : b'.has '.' = true)
    (hstar : b'.has '*' = true) (hquestion : b'.has '?' = true) :
    (['.', '*', '?'].foldl addChar b).Trims b' := by
  have hne : b'.members ≠ [] := by
    intro hnil
    simp [Bracket.has, hnil] at hdot
  have hchar {c : Char} (hc : b'.has c = true) :
      ∀ d, (CharSet.single c).contains d = true → b'.has d = true := by
    intro d hd
    rwa [(CharSet.contains_single c d).mp hd]
  exact ((h.add_left hne (hchar hdot)).add_left hne (hchar hstar)).add_left hne (hchar hquestion)

theorem Bracket.Trims.addChar {b b' : Bracket} (h : b.Trims b') (c : Char) :
    (b.addChar c).Trims (b'.addChar c) := h.add (.refl _)

end

/-! ## What the readers of brackets take -/

namespace Doubled

variable {f : Flags} {b b' : Bracket} {outer outer' : List Bracket} {s t rest : Text}

/-- A front without wildcards and backslashes is the same in both texts. -/
theorem of_plain_append {u : Text} (hu : u.all Unicode.isPlain = true) (h : Doubled (u ++ s) t) :
    ∃ t', t = u ++ t' ∧ Doubled s t' := by
  induction u generalizing t with
  | nil => exact ⟨t, rfl, h⟩
  | cons c u ih =>
      obtain ⟨hc, hu⟩ : Unicode.isPlain c = true ∧ u.all Unicode.isPlain = true := by
        simpa using hu
      obtain ⟨t₁, rfl, hrest⟩ := of_cons hc h
      obtain ⟨t', rfl, hmore⟩ := ih hu hrest
      exact ⟨t', rfl, hmore⟩

theorem of_plain_append_right {u : Text} (hu : u.all Unicode.isPlain = true)
    (h : Doubled s (u ++ t)) : ∃ s', s = u ++ s' ∧ Doubled s' t := by
  induction u generalizing s with
  | nil => exact ⟨s, rfl, h⟩
  | cons c u ih =>
      obtain ⟨hc, hu⟩ : Unicode.isPlain c = true ∧ u.all Unicode.isPlain = true := by
        simpa using hu
      obtain ⟨s₁, rfl, hrest⟩ := of_cons_right hc h
      obtain ⟨s', rfl, hmore⟩ := ih hu hrest
      exact ⟨s', rfl, hmore⟩

theorem leadingHyphens (h : Doubled s t) {n m : Nat} (hn : s.length < n) (hm : t.length < m) :
    TakesAlike (leadingHyphens f b n s) (Regex.leadingHyphens f b m t) := by
  induction n generalizing b s t m with
  | zero => omega
  | succ n ih =>
      obtain ⟨m, rfl⟩ := Nat.exists_eq_add_one_of_ne_zero (Nat.ne_zero_of_lt hm)
      cases s with
      | nil => exact .error _ _
      | cons c cs =>
          by_cases hc : c = '-'
          · subst hc
            obtain ⟨ds, rfl, hrest⟩ := h.of_cons (by decide)
            have hleft := f.length_skip_le cs
            have hright := f.length_skip_le ds
            rw [List.length_cons] at hn hm
            exact ih (hrest.skip f) (by omega) (by omega)
          · obtain ⟨ds, rfl⟩ := h.exists_cons
            have hstop (u : Text) (k : Nat) :
                Regex.leadingHyphens f b (k + 1) (c :: u) = .ok (b, c :: u) := by
              simp [Regex.leadingHyphens, hc]
            rw [hstop, hstop]
            exact .ok h b

theorem negation (h : Doubled s t) : (negation f s).1 = (Regex.negation f t).1 ∧
    Doubled (Regex.negation f s).2 (Regex.negation f t).2 := by
  have hskip := h.skip f
  unfold Regex.negation
  by_cases hsign : (f.skip s).head? = some '^'
  · obtain ⟨cs, hs⟩ := List.head?_eq_some_iff.mp hsign
    rw [hs] at hskip
    obtain ⟨ds, ht, hrest⟩ := hskip.of_cons (by decide)
    rw [hs, ht]
    exact ⟨rfl, hrest.skip f⟩
  · have hsign' : (f.skip t).head? ≠ some '^' := by rwa [← hskip.head?_eq]
    split
    · simp_all
    · split
      · simp_all
      · exact ⟨rfl, hskip⟩

theorem openBracket (h : Doubled s t) :
    TakesAlike (openBracket f s) (Regex.openBracket f t) := by
  intro b rest hread
  obtain ⟨b', s', hlead, hends⟩ := openBracket_eq_ok_iff.mp hread
  obtain ⟨hsign, hmore⟩ := h.negation (f := f)
  obtain ⟨t', hlead', hnext⟩ :=
    hmore.leadingHyphens (Nat.lt_succ_self _) (Nat.lt_succ_self _) b' s' hlead
  rw [hsign] at hlead'
  rcases hends with ⟨cs, rfl, hmembers, rfl, hne, rfl⟩ | ⟨hstop, rfl, rfl⟩
  · obtain ⟨ds, rfl, hlast⟩ := hnext.of_cons (by decide)
    exact ⟨f.skip ds, openBracket_eq_ok_iff.mpr ⟨b', _, hlead',
      .inl ⟨ds, rfl, hmembers, rfl, (hlast.skip f).ne_nil hne, rfl⟩⟩, hlast.skip f⟩
  · rw [hnext.head?_eq] at hstop
    exact ⟨t', openBracket_eq_ok_iff.mpr ⟨b, t', hlead', .inr ⟨hstop, rfl, rfl⟩⟩, hnext⟩

theorem plain_asciiClass {name : Text} {set : CharSet}
    (h : CharSet.asciiClass? name = some set) (negated : Bool) :
    (':' :: ((if negated then ['^'] else []) ++ (name ++ [':', '\x5D']))).all
      Unicode.isPlain = true := by
  have hname : name.all Unicode.isPlain = true := by
    refine List.all_eq_true.mpr fun c hc => Unicode.isPlain_iff.mpr ?_
    obtain ⟨hseam, _, _, hbackslash⟩ := asciiClass?_letters h c hc
    refine ⟨?_, hbackslash⟩
    rintro rfl
    exact absurd hseam (by decide)
  cases negated <;> simp [hname] <;> decide

/-- A named class stands at the front of both texts or of none. -/
theorem asciiClassAt? (h : Doubled s t) :
    (asciiClassAt? s = none ∧ Regex.asciiClassAt? t = none) ∨
      ∃ negated set rest rest', Regex.asciiClassAt? s = some (negated, set, rest) ∧
        Regex.asciiClassAt? t = some (negated, set, rest') ∧ Doubled rest rest' := by
  have happend (negated : Bool) (name u : Text) :
      ':' :: ((if negated then ['^'] else []) ++ (name ++ ':' :: '\x5D' :: u)) =
        (':' :: ((if negated then ['^'] else []) ++ (name ++ [':', '\x5D']))) ++ u := by simp
  cases hs : Regex.asciiClassAt? s with
  | some r =>
      obtain ⟨negated, set, rest⟩ := r
      obtain ⟨name, hname, heq⟩ := asciiClassAt?_eq_some_iff.mp hs
      rw [heq, happend] at h
      obtain ⟨rest', ht, hrest⟩ := h.of_plain_append (plain_asciiClass hname negated)
      rw [← happend] at ht
      exact .inr ⟨negated, set, rest, rest', rfl,
        asciiClassAt?_eq_some_iff.mpr ⟨name, hname, ht⟩, hrest⟩
  | none =>
      refine .inl ⟨rfl, ?_⟩
      cases ht : Regex.asciiClassAt? t with
      | none => rfl
      | some r =>
          obtain ⟨negated, set, rest⟩ := r
          obtain ⟨name, hname, heq⟩ := asciiClassAt?_eq_some_iff.mp ht
          rw [heq, happend] at h
          obtain ⟨rest', hs', _⟩ := h.of_plain_append_right (plain_asciiClass hname negated)
          rw [← happend] at hs'
          have hsome := asciiClassAt?_eq_some_iff.mpr ⟨name, hname, hs'⟩
          simp [hs] at hsome

/-- An operation stands at the front of both texts or of none. -/
theorem setOp? (h : Doubled s t) :
    (setOp? s = none ∧ Regex.setOp? t = none) ∨
      ∃ op rest rest', Regex.setOp? s = some (op, rest) ∧ Regex.setOp? t = some (op, rest') ∧
        Doubled rest rest' := by
  have hplain {op : SetOp} {u rest : Text} (hop : Regex.setOp? u = some (op, rest)) :
      ∃ c, [c, c].all Unicode.isPlain = true ∧ u = [c, c] ++ rest ∧
        ∀ v, Regex.setOp? ([c, c] ++ v) = some (op, v) := by
    obtain ⟨c, rfl, hread⟩ := setOp?_local hop
    have hc : Unicode.isPlain c = true := by
      rw [Unicode.isPlain_iff]
      constructor
      · rintro rfl
        simp [Regex.setOp?] at hop
      · rintro rfl
        simp [Regex.setOp?] at hop
    exact ⟨c, by simp [hc], rfl, hread⟩
  cases hs : Regex.setOp? s with
  | some r =>
      obtain ⟨op, rest⟩ := r
      obtain ⟨c, hc, rfl, hread⟩ := hplain hs
      obtain ⟨rest', rfl, hrest⟩ := h.of_plain_append hc
      exact .inr ⟨op, rest, rest', rfl, hread rest', hrest⟩
  | none =>
      refine .inl ⟨rfl, ?_⟩
      cases ht : Regex.setOp? t with
      | none => rfl
      | some r =>
          obtain ⟨op, rest⟩ := r
          obtain ⟨c, hc, rfl, hread⟩ := hplain ht
          obtain ⟨s', rfl, _⟩ := h.of_plain_append_right hc
          rw [hread s'] at hs
          simp at hs

/-- An end of a range is read alike, unless it is the dot of the wildcard that is dropped. -/
theorem bracketItem (h : Doubled s t) :
    TakesAlike (bracketItem f s) (Regex.bracketItem f t) ∨
      ∃ v, Fresh v ∧ s = '.' :: '*' :: '?' :: '.' :: '*' :: '?' :: v ∧
        t = '.' :: '*' :: '?' :: v := by
  cases h with
  | same => exact .inl fun e rest h => ⟨rest, h, .same rest⟩
  | wildcard hv => exact .inr ⟨_, hv, rfl, rfl⟩
  | @cons c s t hc h =>
      have hread (u : Text) : Regex.bracketItem f (c :: u) = .ok (.char c false, u) := by
        simp [Regex.bracketItem]
      rw [hread, hread]
      exact .inl (.ok h _)
  | pair c h => exact .inl (h.readEscape c)

/-- A member is read alike, unless it is the first dot of the wildcards or a range up to it. -/
theorem bracketMember (h : Doubled s t) {m : Nested} (hread : bracketMember f s = .ok (m, rest)) :
    (∃ rest', Regex.bracketMember f t = .ok (m, rest') ∧ Doubled rest rest') ∨
      (∃ v, Fresh v ∧ s = '.' :: '*' :: '?' :: '.' :: '*' :: '?' :: v ∧
        t = '.' :: '*' :: '?' :: v) ∨
      ∃ v, Fresh v ∧ m.set.contains '.' = true ∧ rest = '*' :: '?' :: '.' :: '*' :: '?' :: v ∧
        Regex.bracketMember f t = .ok (m, '*' :: '?' :: v) := by
  obtain ⟨low, s₁, hlow, hends⟩ := bracketMember_eq_ok_iff.mp hread
  rcases h.bracketItem (f := f) with hitem | hwild
  · obtain ⟨t₁, hlow', hmore⟩ := hitem low s₁ hlow
    have hskip := hmore.skip f
    rcases hends with ⟨rfl, hne, hpeek, halone⟩ |
      ⟨cs, high, a, c, hcs, hp, hq, hhigh, ha, hc, hle, rfl⟩
    · refine .inl ⟨f.skip t₁, bracketMember_eq_ok_iff.mpr ⟨low, t₁, hlow',
        .inl ⟨rfl, hskip.ne_nil hne, ?_, halone⟩⟩, hskip⟩
      intro ds ht
      rw [ht] at hskip
      obtain ⟨cs, hs, hrest⟩ := hskip.of_cons_right (by decide)
      rw [← hrest.peek_eq]
      exact hpeek cs hs
    · rw [hcs] at hskip
      obtain ⟨ds, ht, hrest⟩ := hskip.of_cons (by decide)
      rw [hrest.peek_eq] at hp hq
      have hrange {u : Text} (hhigh' : Regex.bracketItem f (f.skip ds) = .ok (high, u)) :
          Regex.bracketMember f t = .ok (⟨.range a c, 0⟩, u) :=
        bracketMember_eq_ok_iff.mpr ⟨low, t₁, hlow',
          .inr ⟨ds, high, a, c, ht, hp, hq, hhigh', ha, hc, hle, rfl⟩⟩
      rcases (hrest.skip f).bracketItem (f := f) with hitem' | ⟨v, hv, hs, ht'⟩
      · obtain ⟨rest', hhigh', hlast⟩ := hitem' high rest hhigh
        exact .inl ⟨rest', hrange hhigh', hlast⟩
      · -- The range ends at the dot of the first wildcard, so the dot is in it.
        have hdot (u : Text) : Regex.bracketItem f ('.' :: u) = .ok (.char '.' false, u) := by
          simp [Regex.bracketItem]
        rw [hs, hdot] at hhigh
        obtain ⟨rfl, rfl⟩ := Prod.mk.inj (Except.ok.inj hhigh)
        refine .inr (.inr ⟨v, hv, ?_, rfl, hrange (by rw [ht', hdot])⟩)
        have hbound : c = '.' := by
          simp only [bound] at hc
          split at hc
          · exact (Except.ok.inj hc).symm
          · simp at hc
        subst hbound
        simpa [CharSet.contains] using hle
  · exact .inr (.inl hwild)

/-! ## Whole brackets -/

/-- The second turn comes to brackets that hold the same characters. -/
inductive TurnTrims : BracketTurn → BracketTurn → Prop
  | done {m m' : Nested} : m.Trims m' → TurnTrims (.done m) (.done m')
  | more {b b' : Bracket} {outer outer' : List Bracket} : b.Trims b' →
      List.Forall₂ Bracket.Trims outer outer' → TurnTrims (.more b outer) (.more b' outer')

variable {x : BracketTurn}

theorem openTurn (h : Doubled s t) (hb : b.Trims b')
    (houter : List.Forall₂ Bracket.Trims outer outer')
    (hread : openTurn f b outer s = .ok (x, rest)) :
    ∃ x' rest', Regex.openTurn f b' outer' t = .ok (x', rest') ∧ TurnTrims x x' ∧
      Doubled rest rest' := by
  unfold Regex.openTurn at hread ⊢
  rcases h.asciiClassAt? with ⟨hs, ht⟩ | ⟨negated, set, u, u', hs, ht, hrest⟩
  · rw [hs] at hread
    rw [ht]
    obtain ⟨e, hopen⟩ | ⟨inner, u, u', hopen, hopen', hrest⟩ := (h.openBracket (f := f)).cases
    · simp [hopen, Except.map] at hread
    · simp only [hopen, Except.map, Except.ok.injEq, Prod.mk.injEq] at hread
      obtain ⟨rfl, rfl⟩ := hread
      exact ⟨_, u', by simp only [hopen', Except.map], .more (.refl inner) (.cons hb houter), hrest⟩
  · rw [hs] at hread
    rw [ht]
    cases hset : f.finishSet negated set with
    | error e => simp [hset, Except.map] at hread
    | ok set' =>
        simp only [hset, Except.map, Except.ok.injEq, Prod.mk.injEq] at hread
        obtain ⟨rfl, rfl⟩ := hread
        exact ⟨_, u', by simp only [hset, Except.map], .more (hb.add (.refl _)) houter, hrest⟩

theorem closeTurn (h : Doubled s t) (hb : b.Trims b')
    (houter : List.Forall₂ Bracket.Trims outer outer')
    (hread : closeTurn f b outer s = .ok (x, rest)) :
    ∃ x' rest', Regex.closeTurn f b' outer' t = .ok (x', rest') ∧ TurnTrims x x' ∧
      Doubled rest rest' := by
  have htotal := hb.total f
  unfold Regex.closeTurn at hread ⊢
  cases hset : f.finishSet b.negated (b.total f).set with
  | error e => simp [hset, Except.map] at hread
  | ok set =>
      obtain ⟨set', hset', htrims⟩ := htotal.set.finishSet hset
      rw [hb.negated] at hset'
      have hdone : Nested.Trims ⟨set, (b.total f).depth + 1⟩ ⟨set', (b'.total f).depth + 1⟩ :=
        ⟨htrims, Nat.succ_le_succ htotal.depth⟩
      rw [hset']
      cases houter with
      | nil =>
          simp only [hset, Except.map, Except.ok.injEq, Prod.mk.injEq] at hread
          obtain ⟨rfl, rfl⟩ := hread
          exact ⟨_, t, rfl, .done hdone, h⟩
      | cons ho hos =>
          simp only [hset, Except.map, Except.ok.injEq, Prod.mk.injEq] at hread
          obtain ⟨rfl, rfl⟩ := hread
          exact ⟨_, t, rfl, .more (ho.add hdone) hos, h⟩

/-- A turn over a member is made alike, unless the member is the first dot of the wildcards or a
range up to it. -/
theorem memberTurn (h : Doubled s t) (hb : b.Trims b')
    (houter : List.Forall₂ Bracket.Trims outer outer')
    (hread : memberTurn f b outer s = .ok (x, rest)) :
    (∃ x' rest', Regex.memberTurn f b' outer' t = .ok (x', rest') ∧ TurnTrims x x' ∧
        Doubled rest rest') ∨
      (∃ v, Fresh v ∧ s = '.' :: '*' :: '?' :: '.' :: '*' :: '?' :: v ∧
        t = '.' :: '*' :: '?' :: v) ∨
      ∃ v m, Fresh v ∧ m.set.contains '.' = true ∧ x = .more (b.add m) outer ∧
        rest = '*' :: '?' :: '.' :: '*' :: '?' :: v ∧
        Regex.memberTurn f b' outer' t = .ok (.more (b'.add m) outer', '*' :: '?' :: v) := by
  unfold Regex.memberTurn at hread ⊢
  rcases h.setOp? with ⟨hs, ht⟩ | ⟨op, u, u', hs, ht, hrest⟩
  · cases hmember : Regex.bracketMember f s with
    | error e => simp [hs, hmember, Except.map] at hread
    | ok r =>
        obtain ⟨m, u⟩ := r
        simp only [hs, hmember, Except.map, Except.ok.injEq, Prod.mk.injEq] at hread
        obtain ⟨rfl, rfl⟩ := hread
        rcases h.bracketMember hmember with
          ⟨u', hmember', hrest⟩ | hwild | ⟨v, hv, hdot, rfl, hmember'⟩
        · exact .inl ⟨_, u', by simp only [ht, hmember', Except.map],
            .more (hb.add (.refl m)) houter, hrest⟩
        · exact .inr (.inl hwild)
        · exact .inr (.inr ⟨v, m, hv, hdot, rfl, rfl, by simp only [ht, hmember', Except.map]⟩)
  · simp only [hs, Except.ok.injEq, Prod.mk.injEq] at hread
    obtain ⟨rfl, rfl⟩ := hread
    exact .inl ⟨_, u', by simp only [ht], .more (hb.withOp f op) houter, hrest⟩

theorem bracketTurn (h : Doubled s t) (hb : b.Trims b')
    (houter : List.Forall₂ Bracket.Trims outer outer')
    (hread : bracketTurn f b outer s = .ok (x, rest)) :
    (∃ x' rest', Regex.bracketTurn f b' outer' t = .ok (x', rest') ∧ TurnTrims x x' ∧
        Doubled rest rest') ∨
      (∃ v, Fresh v ∧ s = '.' :: '*' :: '?' :: '.' :: '*' :: '?' :: v ∧
        t = '.' :: '*' :: '?' :: v) ∨
      ∃ v m, Fresh v ∧ m.set.contains '.' = true ∧ x = .more (b.add m) outer ∧
        rest = '*' :: '?' :: '.' :: '*' :: '?' :: v ∧
        Regex.bracketTurn f b' outer' t = .ok (.more (b'.add m) outer', '*' :: '?' :: v) := by
  cases s with
  | nil => simp [Regex.bracketTurn] at hread
  | cons c cs =>
      by_cases hopening : c = '['
      · subst hopening
        obtain ⟨ds, rfl, hrest⟩ := h.of_cons (by decide)
        exact .inl (hrest.openTurn hb houter hread)
      · by_cases hclosing : c = '\x5D'
        · subst hclosing
          obtain ⟨ds, rfl, hrest⟩ := h.of_cons (by decide)
          exact .inl (hrest.closeTurn hb houter hread)
        · obtain ⟨ds, rfl⟩ := h.exists_cons
          have hturn (b : Bracket) (outer : List Bracket) (u : Text) :
              Regex.bracketTurn f b outer (c :: u) = Regex.memberTurn f b outer (c :: u) := by
            unfold Regex.bracketTurn
            split <;> simp_all
          rw [hturn] at hread ⊢
          exact h.memberTurn hb houter hread

/-- Written twice, a wildcard adds no character that it does not add when it is written once. -/
theorem trims_wildcard (hb : b.Trims b') :
    (['.', '*', '?', '.', '*', '?'].foldl Bracket.addChar b).Trims
      (['.', '*', '?'].foldl Bracket.addChar b') := by
  have honce : (['.', '*', '?'].foldl Bracket.addChar b).Trims
      (['.', '*', '?'].foldl Bracket.addChar b') :=
    ((hb.addChar '.').addChar '*').addChar '?'
  exact honce.wild (by simp [Bracket.has_addChar]) (by simp [Bracket.has_addChar])
    (by simp [Bracket.has_addChar])

theorem trims_wildcard_of_dot (hb : b.Trims b') (hdot : b'.has '.' = true) :
    (['*', '?', '.', '*', '?'].foldl Bracket.addChar b).Trims
      (['*', '?'].foldl Bracket.addChar b') := by
  have honce : (['*', '?'].foldl Bracket.addChar b).Trims (['*', '?'].foldl Bracket.addChar b') :=
    (hb.addChar '*').addChar '?'
  exact honce.wild (by simp [Bracket.has_addChar, hdot]) (by simp [Bracket.has_addChar])
    (by simp [Bracket.has_addChar])

/-- A bracketed set is read alike, and the wildcard that is dropped adds nothing to it. -/
theorem exists_bracketLoop (h : Doubled s t) (hb : b.Trims b')
    (houter : List.Forall₂ Bracket.Trims outer outer') {n : Nat} {m : Nested}
    (hread : bracketLoop f n b outer s = .ok (m, rest)) :
    ∃ k m' rest', Regex.bracketLoop f k b' outer' t = .ok (m', rest') ∧ m.Trims m' ∧
      Doubled rest rest' := by
  induction n using Nat.strongRecOn generalizing s t b b' outer outer' with
  | ind n ih =>
      cases n with
      | zero => simp [Regex.bracketLoop] at hread
      | succ n =>
          have hloop := hread
          rw [bracketLoop_succ] at hread
          cases hturn : Regex.bracketTurn f b outer (f.skip s) with
          | error e => simp [hturn, Except.bind] at hread
          | ok r =>
              obtain ⟨x, s'⟩ := r
              rw [hturn] at hread
              rcases (h.skip f).bracketTurn hb houter hturn with
                ⟨x', t', hturn', htrims, hrest⟩ | ⟨v, hv, hs, ht⟩ |
                ⟨v, m', hv, hdot, rfl, rfl, hturn'⟩
              · cases htrims with
                | @done m m' hm =>
                    obtain ⟨rfl, rfl⟩ := Prod.mk.inj (Except.ok.inj hread)
                    refine ⟨1, m', t', ?_, hm, hrest⟩
                    rw [bracketLoop_succ, hturn']
                    rfl
                | more hb houter =>
                    obtain ⟨k, m', rest', hmore, htrims, hends⟩ :=
                      ih n (Nat.lt_succ_self n) hrest hb houter hread
                    refine ⟨k + 1, m', rest', ?_, htrims, hends⟩
                    rw [bracketLoop_succ, hturn']
                    exact hmore
              · rw [← bracketLoop_skip, hs] at hloop
                obtain ⟨k, hk, hloop⟩ :=
                  (bracketLoop_wilds (u := ['.', '*', '?', '.', '*', '?']) (by decide) hv).mp hloop
                obtain ⟨k', m', rest', hmore, htrims, hends⟩ :=
                  ih k (by simp at hk; omega) (.same v) (trims_wildcard hb) houter hloop
                refine ⟨k' + 3, m', rest', ?_, htrims, hends⟩
                rw [← bracketLoop_skip, ht]
                exact (bracketLoop_wilds (u := ['.', '*', '?']) (by decide) hv).mpr ⟨k', rfl, hmore⟩
              · -- The range ends in the first wildcard, so only the rest of it is left to read.
                obtain ⟨k, hk, hloop⟩ :=
                  (bracketLoop_wilds (u := ['*', '?', '.', '*', '?']) (by decide) hv).mp hread
                have hhas : (b'.add m').has '.' = true := by
                  simp [Bracket.has, Bracket.add, hdot]
                obtain ⟨k', m', rest', hmore, htrims, hends⟩ :=
                  ih k (by simp at hk; omega) (.same v)
                    (trims_wildcard_of_dot (hb.add (.refl m')) hhas) houter hloop
                refine ⟨k' + 2 + 1, m', rest', ?_, htrims, hends⟩
                rw [bracketLoop_succ, hturn']
                exact (bracketLoop_wilds (u := ['*', '?']) (by decide) hv).mpr ⟨k', rfl, hmore⟩

theorem readBracket (h : Doubled s t) {m : Nested} (hread : readBracket f s = .ok (m, rest)) :
    ∃ m' rest', Regex.readBracket f t = .ok (m', rest') ∧ m.Trims m' ∧ Doubled rest rest' := by
  unfold Regex.readBracket at hread ⊢
  obtain ⟨e, hopen⟩ | ⟨b, u, u', hopen, hopen', hrest⟩ := (h.openBracket (f := f)).cases
  · simp [hopen] at hread
  · simp only [hopen] at hread
    simp only [hopen']
    have hlength := (openBracket_local hopen').suffix.length_le
    obtain ⟨k, m', rest', hmore, htrims, hends⟩ := hrest.exists_bracketLoop (.refl b) .nil hread
    exact ⟨m', rest', (bracketLoop_enough hmore (by omega)).1, htrims, hends⟩

end Doubled

end Regex

end PathRouting

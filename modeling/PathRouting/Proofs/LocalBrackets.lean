import PathRouting.Proofs.Locality

/-! # Bracketed sets do not depend on what follows

A bracketed set is read part by part up to the bracket that closes it. Each part is a front
of the text that stays one whatever follows, so the whole set is. -/

namespace PathRouting.Regex

variable {f : Flags} {s t rest : Text}

/-! ## The opening of brackets -/

theorem leadingHyphens_local {b b' : Bracket} {n : Nat} (hn : s.length < n)
    (h : leadingHyphens f b n s = .ok (b', rest)) :
    ∃ used, s = used ++ rest ∧ ∀ t m, f.Swaps rest t → (used ++ t).length < m →
      leadingHyphens f b m (used ++ t) = .ok (b', t) := by
  induction n generalizing b s with
  | zero => omega
  | succ n ih =>
      cases s with
      | nil => simp [leadingHyphens] at h
      | cons c cs =>
          by_cases hc : c = '-'
          · subst hc
            have hlength := f.length_skip_le cs
            simp only [List.length_cons] at hn
            obtain ⟨u, hu, hskip⟩ := f.skip_local cs
            obtain ⟨v, hv, hmore⟩ := ih (by omega) h
            refine ⟨'-' :: (u ++ v), ?_, ?_⟩
            · rw [List.cons_append, List.append_assoc, ← hv, ← hu]
            · intro t m ht hm
              have hswap : f.Swaps (f.skip cs) (v ++ t) := by
                rw [hv]
                exact ht.append v
              cases m with
              | zero => omega
              | succ m =>
                  simp only [List.cons_append, List.append_assoc, List.length_cons,
                    List.length_append] at hm ⊢
                  simp only [leadingHyphens, hskip _ hswap]
                  apply hmore t m ht
                  rw [List.length_append]
                  omega
          · obtain ⟨rfl, rfl⟩ : b = b' ∧ c :: cs = rest := by
              simpa [leadingHyphens, hc] using h
            refine ⟨[], rfl, ?_⟩
            intro t m ht hm
            obtain ⟨d, t', rfl, hd⟩ := ht.swap.cons_left
            have hd : d ≠ '-' := by
              rintro rfl
              rcases hd with ⟨rfl, _⟩ | ⟨_, hd⟩
              · exact hc rfl
              · exact absurd hd (by decide)
            cases m with
            | zero => omega
            | succ m => simp [leadingHyphens, hd]

def negation (f : Flags) (s : Text) : Bool × Text :=
  match f.skip s with
  | '^' :: cs => (true, f.skip cs)
  | cs => (false, cs)

theorem negation_local (f : Flags) (s : Text) :
    ∃ used, s = used ++ (negation f s).2 ∧ ∀ t, f.Swaps (negation f s).2 t →
      negation f (used ++ t) = ((negation f s).1, t) := by
  obtain ⟨u, hu, hskip⟩ := f.skip_local s
  by_cases hhead : (f.skip s).head? = some '^'
  · obtain ⟨cs, hcs⟩ := List.head?_eq_some_iff.mp hhead
    obtain ⟨v, hv, hmore⟩ := f.skip_local cs
    have hnegation : negation f s = (true, f.skip cs) := by simp [negation, hcs]
    rw [hnegation]
    refine ⟨u ++ '^' :: v, ?_, ?_⟩
    · rw [List.append_assoc, List.cons_append, ← hv, ← hcs, ← hu]
    · intro t ht
      have hswap : f.Swaps (f.skip s) ('^' :: (v ++ t)) := by
        rw [hcs, hv]
        exact (ht.append v).cons '^'
      rw [List.append_assoc, List.cons_append, negation, hskip _ hswap]
      simp [hmore t ht]
  · have hnegation {s : Text} (hs : (f.skip s).head? ≠ some '^') :
        negation f s = (false, f.skip s) := by
      unfold negation
      split
      · rename_i hcs
        simp [hcs] at hs
      · rfl
    rw [hnegation hhead]
    refine ⟨u, hu, ?_⟩
    intro t ht
    have hseam : isSeam '^' = false := by decide
    rw [hnegation, hskip t ht]
    rwa [hskip t ht, ne_eq, ← ht.swap.head?_eq_iff hseam]

theorem openBracket_eq_ok_iff {b : Bracket} :
    openBracket f s = .ok (b, rest) ↔
      ∃ b' s', leadingHyphens f { negated := (negation f s).1 }
          ((negation f s).2.length + 1) (negation f s).2 = .ok (b', s') ∧
        ((∃ cs, s' = '\x5D' :: cs ∧ b'.members = [] ∧ f.skip cs = rest ∧ rest ≠ [] ∧
            b = b'.add ⟨.single '\x5D', 0⟩) ∨
          (s'.head? ≠ some '\x5D' ∨ b'.members ≠ []) ∧ b = b' ∧ rest = s') := by
  unfold openBracket
  split
  rename_i negated s₁ hread
  have hnegation : negation f s = (negated, s₁) := hread
  rw [hnegation]
  cases leadingHyphens f { negated := negated } (s₁.length + 1) s₁ with
  | error e => simp
  | ok r =>
      obtain ⟨b', s'⟩ := r
      by_cases hclosing : s'.head? = some '\x5D'
      · obtain ⟨cs, rfl⟩ := List.head?_eq_some_iff.mp hclosing
        by_cases hmembers : b'.members = []
        · cases hskip : f.skip cs with
          | nil => grind
          | cons d ds => grind
        · grind
      · cases s' with
        | nil => grind
        | cons c cs => grind

theorem openBracket_local {b : Bracket} (h : openBracket f s = .ok (b, rest)) :
    Local f (openBracket f) s b rest := by
  obtain ⟨b', s', hlead, hend⟩ := openBracket_eq_ok_iff.mp h
  obtain ⟨u, hu, hnegation⟩ := negation_local f s
  obtain ⟨v, hv, hhyphens⟩ := leadingHyphens_local (Nat.lt_succ_self _) hlead
  have hfront {t : Text} (ht : f.Swaps s' t) :
      leadingHyphens f { negated := (negation f (u ++ (v ++ t))).1 }
        ((negation f (u ++ (v ++ t))).2.length + 1) (negation f (u ++ (v ++ t))).2 =
          .ok (b', t) := by
    have hswap : f.Swaps (negation f s).2 (v ++ t) := by
      rw [hv]
      exact ht.append v
    rw [hnegation _ hswap]
    exact hhyphens t _ ht (Nat.lt_succ_self _)
  rcases hend with ⟨cs, rfl, hmembers, rfl, hne, rfl⟩ | ⟨hstop, rfl, rfl⟩
  · obtain ⟨w, hw, hskip⟩ := f.skip_local cs
    refine ⟨u ++ (v ++ '\x5D' :: w), ?_, ?_⟩
    · simp only [List.append_assoc, List.cons_append]
      rw [← hw, ← hv, ← hu]
    · intro t ht
      have hswap : f.Swaps ('\x5D' :: cs) ('\x5D' :: (w ++ t)) := by
        rw [hw]
        exact (ht.append w).cons _
      have hnonempty : t ≠ [] := ht.swap.ne_nil hne
      simp only [List.append_assoc, List.cons_append]
      exact openBracket_eq_ok_iff.mpr ⟨b', _, hfront hswap,
        .inl ⟨w ++ t, rfl, hmembers, hskip t ht, hnonempty, rfl⟩⟩
  · refine ⟨u ++ v, by rw [List.append_assoc, ← hv, ← hu], ?_⟩
    intro t ht
    have hseam : isSeam '\x5D' = false := by decide
    rw [ne_eq, ht.swap.head?_eq_iff hseam] at hstop
    rw [List.append_assoc]
    exact openBracket_eq_ok_iff.mpr ⟨b, t, hfront ht, .inr ⟨hstop, rfl, rfl⟩⟩

/-! ## Named classes -/

theorem asciiClass?_letters {name : Text} {set : CharSet}
    (h : CharSet.asciiClass? name = some set) :
    ∀ c ∈ name, isSeam c = false ∧ c ≠ ':' ∧ c ≠ '^' ∧ c ≠ '\\' := by
  have hnames : (["alnum", "alpha", "ascii", "blank", "cntrl", "digit", "graph", "lower",
      "print", "punct", "space", "upper", "word", "xdigit"].all fun n =>
        n.toList.all fun c => !isSeam c && c != ':' && c != '^' && c != '\\') = true := by decide
  obtain ⟨before, after, htable, _⟩ := List.lookup_eq_some_iff.mp h
  have hmem : String.ofList name ∈ ["alnum", "alpha", "ascii", "blank", "cntrl", "digit",
      "graph", "lower", "print", "punct", "space", "upper", "word", "xdigit"] := by
    have hkeys := congrArg (List.map Prod.fst) htable
    rw [List.map_append, List.map_cons] at hkeys
    simp only [List.map_cons, List.map_nil] at hkeys
    rw [hkeys]
    simp
  have hletters := List.all_eq_true.mp hnames _ hmem
  rw [String.toList_ofList, List.all_eq_true] at hletters
  intro c hc
  simpa [and_assoc] using hletters c hc

theorem takeWhile_colon {name : Text} (hname : ∀ c ∈ name, c ≠ ':') (t : Text) :
    (name ++ ':' :: t).takeWhile (· != ':') = name ∧
      (name ++ ':' :: t).dropWhile (· != ':') = ':' :: t := by
  induction name with
  | nil => simp
  | cons c cs ih =>
      have hc : c ≠ ':' := hname c (by simp)
      obtain ⟨htake, hdrop⟩ := ih fun d hd => hname d (by simp [hd])
      simp [hc, htake, hdrop]

/-- A named class is written as its name between colons, up to a closing bracket. -/
theorem asciiClassAt?_eq_some_iff {negated : Bool} {set : CharSet} :
    asciiClassAt? s = some (negated, set, rest) ↔
      ∃ name, CharSet.asciiClass? name = some set ∧
        s = ':' :: ((if negated then ['^'] else []) ++ (name ++ ':' :: '\x5D' :: rest)) := by
  constructor
  · intro h
    unfold asciiClassAt? at h
    split at h
    · rename_i cs
      split at h
      rename_i negated' ds hsign
      split at h
      · rename_i rest' hdrop
        obtain ⟨set', hset, heq⟩ := Option.map_eq_some_iff.mp h
        obtain ⟨rfl, rfl, rfl⟩ : negated' = negated ∧ set' = set ∧ rest' = rest := by
          simpa using heq
        have hname : ds = ds.takeWhile (· != ':') ++ ':' :: '\x5D' :: rest' := by
          rw [← hdrop, List.takeWhile_append_dropWhile]
        refine ⟨ds.takeWhile (· != ':'), hset, ?_⟩
        rw [← hname]
        split at hsign
        · obtain ⟨rfl, rfl⟩ := Prod.mk.inj hsign
          simp
        · obtain ⟨rfl, rfl⟩ := Prod.mk.inj hsign
          simp
      · simp at h
    · simp at h
  · rintro ⟨name, hname, rfl⟩
    have hletters := asciiClass?_letters hname
    obtain ⟨htake, hdrop⟩ :=
      takeWhile_colon (fun c hc => (hletters c hc).2.1) ('\x5D' :: rest)
    cases negated with
    | true => simp [asciiClassAt?, htake, hdrop, hname]
    | false =>
        cases name with
        | nil => simp [asciiClassAt?, hname]
        | cons c cs =>
            have hc := (hletters c (by simp)).2.2.1
            simp only [List.cons_append] at htake hdrop
            simp [asciiClassAt?, hc, htake, hdrop, hname]

theorem asciiClassAt?_local {negated : Bool} {set : CharSet}
    (h : asciiClassAt? s = some (negated, set, rest)) :
    ∃ used, s = used ++ rest ∧ (∀ c ∈ used, isSeam c = false) ∧
      ∀ t, asciiClassAt? (used ++ t) = some (negated, set, t) := by
  obtain ⟨name, hname, rfl⟩ := asciiClassAt?_eq_some_iff.mp h
  refine ⟨':' :: ((if negated then ['^'] else []) ++ (name ++ [':', '\x5D'])), by simp, ?_, ?_⟩
  · have hletters := asciiClass?_letters hname
    intro c hc
    simp only [List.mem_cons, List.mem_append, List.not_mem_nil, or_false] at hc
    rcases hc with rfl | hc | hc | rfl | rfl
    · decide
    · cases negated with
      | true =>
          obtain rfl := List.mem_singleton.mp hc
          decide
      | false => simp at hc
    · exact (hletters c hc).1
    · decide
    · decide
  · intro t
    exact asciiClassAt?_eq_some_iff.mpr ⟨name, hname, by simp⟩

theorem asciiClassAt?_eq_none (h : asciiClassAt? s = none) (hswap : Swap s t) :
    asciiClassAt? t = none := by
  cases hclass : asciiClassAt? t with
  | none => rfl
  | some r =>
      obtain ⟨negated, set, rest⟩ := r
      obtain ⟨used, rfl, hused, hread⟩ := asciiClassAt?_local hclass
      obtain ⟨s', rfl, _⟩ := hswap.of_append_right hused
      rw [hread] at h
      simp at h

/-! ## Members -/

theorem bracketItem_local {e : Escape} (hs : Bare s) (h : bracketItem f s = .ok (e, rest)) :
    Local f (bracketItem f) s e rest ∧ rest.length < s.length := by
  cases s with
  | nil => simp [bracketItem] at h
  | cons c cs =>
      by_cases hc : c = '\\'
      · subst hc
        have hescape := readEscape_local hs.tail h
        have hlength := hescape.length_le
        refine ⟨.cons (fun t => rfl) hescape, ?_⟩
        simp only [List.length_cons]
        omega
      · have hread (t : Text) : bracketItem f (c :: t) = .ok (.char c false, t) := by
          simp [bracketItem]
        rw [hread] at h
        obtain ⟨rfl, rfl⟩ : Escape.char c false = e ∧ cs = rest := by simpa using h
        exact ⟨.cons hread (.here (fun t => rfl) cs), by simp⟩

theorem alone_eq_ok_iff {e : Escape} {m : Nested} :
    bracketMember.alone f e s = .ok (m, rest) ↔
      s = rest ∧ bracketMember.alone f e [] = .ok (m, []) := by
  cases e with
  | set set => simp [bracketMember.alone, and_comm]
  | look l => simp [bracketMember.alone]
  | char c byte =>
      cases hbound : bound f (.char c byte) with
      | error e => simp [bracketMember.alone, hbound]
      | ok d => simp [bracketMember.alone, hbound, and_comm]

theorem bracketMember_eq_ok_iff {m : Nested} :
    bracketMember f s = .ok (m, rest) ↔
      ∃ low s₁, bracketItem f s = .ok (low, s₁) ∧
        ((f.skip s₁ = rest ∧ rest ≠ [] ∧
            (∀ cs, rest = '-' :: cs → f.peek cs = some '\x5D' ∨ f.peek cs = some '-') ∧
            bracketMember.alone f low [] = .ok (m, [])) ∨
          ∃ cs high a b, f.skip s₁ = '-' :: cs ∧ f.peek cs ≠ some '\x5D' ∧
            f.peek cs ≠ some '-' ∧ bracketItem f (f.skip cs) = .ok (high, rest) ∧
            bound f low = .ok a ∧ bound f high = .ok b ∧ a.toNat ≤ b.toNat ∧
            m = ⟨.range a b, 0⟩) := by
  unfold bracketMember
  grind [alone_eq_ok_iff]

theorem bracketMember_local_single {low : Escape} {s₁ : Text} {m : Nested}
    (hitem : Local f (bracketItem f) s low s₁) (hne : f.skip s₁ ≠ [])
    (hpeek : ∀ cs, f.skip s₁ = '-' :: cs → f.peek cs = some '\x5D' ∨ f.peek cs = some '-')
    (halone : bracketMember.alone f low [] = .ok (m, [])) :
    Local f (bracketMember f) s m (f.skip s₁) := by
  have hhyphen : isSeam '-' = false := by decide
  obtain ⟨u, hu, hitem⟩ := hitem
  obtain ⟨v, hv, hskip⟩ := f.skip_local s₁
  refine ⟨u ++ v, by rw [List.append_assoc, ← hv, ← hu], ?_⟩
  intro t ht
  have hswap : f.Swaps s₁ (v ++ t) := by
    rw [hv]
    exact ht.append v
  rw [List.append_assoc]
  refine bracketMember_eq_ok_iff.mpr ⟨low, v ++ t, hitem _ hswap, .inl ⟨hskip t ht,
    ht.swap.ne_nil hne, ?_, halone⟩⟩
  rintro ds rfl
  obtain ⟨cs, hcs, hrest⟩ := ht.swap.cons_right_of_not_seam hhyphen
  rw [← f.peek_eq_iff hrest (.inl rfl), ← f.peek_eq_iff hrest (.inr rfl)]
  exact hpeek cs hcs

theorem bracketMember_local_range {low high : Escape} {a b : Char} {s₁ cs : Text}
    (hitem : Local f (bracketItem f) s low s₁) (hcs : f.skip s₁ = '-' :: cs)
    (hp : f.peek cs ≠ some '\x5D') (hq : f.peek cs ≠ some '-')
    (hhigh : Local f (bracketItem f) (f.skip cs) high rest)
    (hbounds : bound f low = .ok a ∧ bound f high = .ok b ∧ a.toNat ≤ b.toNat) :
    Local f (bracketMember f) s ⟨.range a b, 0⟩ rest := by
  obtain ⟨u, hu, hitem⟩ := hitem
  obtain ⟨v, hv, hskip⟩ := f.skip_local s₁
  obtain ⟨w, hw, hblank⟩ := f.skip_local cs
  obtain ⟨x, hx, hhigh⟩ := hhigh
  refine ⟨u ++ (v ++ '-' :: (w ++ x)), ?_, ?_⟩
  · simp only [List.append_assoc, List.cons_append]
    rw [← hx, ← hw, ← hcs, ← hv, ← hu]
  · intro t ht
    have hblanks : f.Swaps (f.skip cs) (x ++ t) := by
      rw [hx]
      exact ht.append x
    have hcs' : f.Swaps cs (w ++ (x ++ t)) := by
      rw [hw]
      exact hblanks.append w
    have hsign : f.Swaps (f.skip s₁) ('-' :: (w ++ (x ++ t))) := by
      rw [hcs]
      exact hcs'.cons '-'
    have hswap : f.Swaps s₁ (v ++ '-' :: (w ++ (x ++ t))) := by
      rw [hv]
      exact hsign.append v
    simp only [List.append_assoc, List.cons_append]
    rw [ne_eq, f.peek_eq_iff hcs'.swap (.inl rfl)] at hp
    rw [ne_eq, f.peek_eq_iff hcs'.swap (.inr rfl)] at hq
    obtain ⟨ha, hb, hle⟩ := hbounds
    refine bracketMember_eq_ok_iff.mpr ⟨low, _, hitem _ hswap, .inr ⟨w ++ (x ++ t), high, a, b,
      hskip _ hsign, hp, hq, ?_, ha, hb, hle, rfl⟩⟩
    rw [hblank _ hblanks]
    exact hhigh t ht

theorem bracketMember_local {m : Nested} (hs : Bare s)
    (h : bracketMember f s = .ok (m, rest)) :
    Local f (bracketMember f) s m rest ∧ rest.length < s.length := by
  obtain ⟨low, s₁, hlow, hend⟩ := bracketMember_eq_ok_iff.mp h
  obtain ⟨hitem, hlength⟩ := bracketItem_local hs hlow
  have hskipped := f.length_skip_le s₁
  rcases hend with ⟨rfl, hne, hpeek, halone⟩ |
    ⟨cs, high, a, b, hcs, hp, hq, hhigh, ha, hb, hle, rfl⟩
  · exact ⟨bracketMember_local_single hitem hne hpeek halone, by omega⟩
  · have hbare : Bare (f.skip cs) := by
      have hs₁ := hitem.bare hs
      obtain ⟨v, hv, _⟩ := f.skip_local s₁
      obtain ⟨w, hw, _⟩ := f.skip_local cs
      rw [hv, hcs, hw] at hs₁
      exact hs₁.of_append.tail.of_append
    obtain ⟨hnext, hshorter⟩ := bracketItem_local hbare hhigh
    have hblank := f.length_skip_le cs
    rw [hcs, List.length_cons] at hskipped
    exact ⟨bracketMember_local_range hitem hcs hp hq hnext ⟨ha, hb, hle⟩, by omega⟩

theorem setOp?_local {op : SetOp} (h : setOp? s = some (op, rest)) :
    ∃ c, s = c :: c :: rest ∧ ∀ t, setOp? (c :: c :: t) = some (op, t) := by
  unfold setOp? at h
  split at h
  · obtain ⟨rfl, rfl⟩ := Prod.mk.inj (Option.some.inj h)
    exact ⟨'&', rfl, fun t => rfl⟩
  · obtain ⟨rfl, rfl⟩ := Prod.mk.inj (Option.some.inj h)
    exact ⟨'-', rfl, fun t => rfl⟩
  · obtain ⟨rfl, rfl⟩ := Prod.mk.inj (Option.some.inj h)
    exact ⟨'~', rfl, fun t => rfl⟩
  · simp at h

theorem setOp?_eq_none (h : setOp? s = none) (hswap : Swap s t) : setOp? t = none := by
  cases hop : setOp? t with
  | none => rfl
  | some r =>
      obtain ⟨op, rest⟩ := r
      obtain ⟨c, rfl, hread⟩ := setOp?_local hop
      have hc : isSeam c = false := by
        cases hseam : isSeam c with
        | false => rfl
        | true =>
            have hmem : c ∈ ['(', '[', '.', '/', '$'] := by simpa [isSeam] using hseam
            simp only [List.mem_cons, List.not_mem_nil, or_false] at hmem
            rcases hmem with rfl | rfl | rfl | rfl | rfl <;> simp [setOp?] at hop
      obtain ⟨s₁, rfl, hrest⟩ := hswap.cons_right_of_not_seam hc
      obtain ⟨s₂, rfl, _⟩ := hrest.cons_right_of_not_seam hc
      rw [hread] at h
      simp at h

/-! ## Whole brackets -/

/-- What one turn of reading a bracketed set comes to: the whole set, or the sets with which
reading goes on. -/
inductive BracketTurn where
  | done (m : Nested)
  | more (b : Bracket) (outer : List Bracket)

def openTurn (f : Flags) (b : Bracket) (outer : List Bracket) (s : Text) :
    Reading BracketTurn :=
  match asciiClassAt? s with
  | some (negated, set, rest) =>
    (f.finishSet negated set).map fun set => (.more (b.add ⟨set, 0⟩) outer, rest)
  | none => (openBracket f s).map fun (inner, rest) => (.more inner (b :: outer), rest)

def closeTurn (f : Flags) (b : Bracket) (outer : List Bracket) (s : Text) :
    Reading BracketTurn :=
  (f.finishSet b.negated (b.total f).set).map fun set =>
    match outer with
    | [] => (.done ⟨set, (b.total f).depth + 1⟩, s)
    | o :: os => (.more (o.add ⟨set, (b.total f).depth + 1⟩) os, s)

def memberTurn (f : Flags) (b : Bracket) (outer : List Bracket) (s : Text) :
    Reading BracketTurn :=
  match setOp? s with
  | some (op, rest) => .ok (.more (b.withOp f op) outer, rest)
  | none => (bracketMember f s).map fun (m, rest) => (.more (b.add m) outer, rest)

/-- One turn of reading a bracketed set, blank space having been dropped. -/
def bracketTurn (f : Flags) (b : Bracket) (outer : List Bracket) : Text → Reading BracketTurn
  | [] => .error .unfinished
  | '[' :: cs => openTurn f b outer cs
  | '\x5D' :: cs => closeTurn f b outer cs
  | cs => memberTurn f b outer cs

def BracketTurn.follow (f : Flags) (n : Nat) : BracketTurn × Text → Reading Nested
  | (done m, rest) => .ok (m, rest)
  | (more b outer, rest) => bracketLoop f n b outer rest

theorem bracketLoop_succ (n : Nat) (b : Bracket) (outer : List Bracket) (s : Text) :
    bracketLoop f (n + 1) b outer s =
      (bracketTurn f b outer (f.skip s)).bind (BracketTurn.follow f n) := by
  rw [bracketLoop.eq_def]
  simp only
  generalize f.skip s = t
  unfold bracketTurn
  split
  · rfl
  · rename_i cs
    simp only [openTurn]
    cases asciiClassAt? cs with
    | some r =>
        obtain ⟨negated, set, rest⟩ := r
        simp only
        cases f.finishSet negated set <;> rfl
    | none =>
        simp only
        cases openBracket f cs <;> rfl
  · rename_i cs
    simp only [closeTurn]
    cases f.finishSet b.negated (b.total f).set with
    | error e => rfl
    | ok set => cases outer <;> rfl
  · rename_i hnil hopening hclosing
    simp only [memberTurn]
    cases setOp? t with
    | some r => rfl
    | none =>
        simp only
        cases bracketMember f t <;> rfl

variable {b : Bracket} {outer : List Bracket} {x : BracketTurn}

theorem openTurn_local (h : openTurn f b outer s = .ok (x, rest)) :
    Local f (openTurn f b outer) s x rest := by
  unfold openTurn at h
  cases hclass : asciiClassAt? s with
  | some r =>
      obtain ⟨negated, set, s'⟩ := r
      cases hset : f.finishSet negated set with
      | error e => simp [hclass, hset, Except.map] at h
      | ok set' =>
          simp only [hclass, hset, Except.map, Except.ok.injEq, Prod.mk.injEq] at h
          obtain ⟨rfl, rfl⟩ := h
          obtain ⟨used, hused, _, hread⟩ := asciiClassAt?_local hclass
          refine ⟨used, hused, ?_⟩
          intro t _
          simp only [openTurn, hread, hset, Except.map]
  | none =>
      cases hopen : openBracket f s with
      | error e => simp [hclass, hopen, Except.map] at h
      | ok r =>
          obtain ⟨inner, s'⟩ := r
          simp only [hclass, hopen, Except.map, Except.ok.injEq, Prod.mk.injEq] at h
          obtain ⟨rfl, rfl⟩ := h
          obtain ⟨used, rfl, hread⟩ := openBracket_local hopen
          refine ⟨used, rfl, ?_⟩
          intro t ht
          have hnone := asciiClassAt?_eq_none hclass (ht.swap.append used)
          simp only [openTurn, hnone, hread t ht, Except.map]

theorem closeTurn_local (h : closeTurn f b outer s = .ok (x, rest)) :
    Local f (closeTurn f b outer) s x rest := by
  unfold closeTurn at h
  cases hset : f.finishSet b.negated (b.total f).set with
  | error e => simp [hset, Except.map] at h
  | ok set =>
      cases outer with
      | nil =>
          simp only [hset, Except.map, Except.ok.injEq, Prod.mk.injEq] at h
          obtain ⟨rfl, rfl⟩ := h
          exact .here (fun t => by simp only [closeTurn, hset, Except.map]) s
      | cons o os =>
          simp only [hset, Except.map, Except.ok.injEq, Prod.mk.injEq] at h
          obtain ⟨rfl, rfl⟩ := h
          exact .here (fun t => by simp only [closeTurn, hset, Except.map]) s

theorem memberTurn_local (hs : Bare s) (h : memberTurn f b outer s = .ok (x, rest)) :
    Local f (memberTurn f b outer) s x rest ∧ rest.length < s.length := by
  unfold memberTurn at h
  cases hop : setOp? s with
  | some r =>
      obtain ⟨op, s'⟩ := r
      simp only [hop, Except.ok.injEq, Prod.mk.injEq] at h
      obtain ⟨rfl, rfl⟩ := h
      obtain ⟨c, rfl, hread⟩ := setOp?_local hop
      refine ⟨⟨[c, c], rfl, ?_⟩, by simp only [List.length_cons]; omega⟩
      intro t _
      simp only [List.cons_append, List.nil_append, memberTurn, hread]
  | none =>
      cases hmember : bracketMember f s with
      | error e => simp [hop, hmember, Except.map] at h
      | ok r =>
          obtain ⟨m, s'⟩ := r
          simp only [hop, hmember, Except.map, Except.ok.injEq, Prod.mk.injEq] at h
          obtain ⟨rfl, rfl⟩ := h
          obtain ⟨⟨used, rfl, hread⟩, hlength⟩ := bracketMember_local hs hmember
          refine ⟨⟨used, rfl, ?_⟩, hlength⟩
          intro t ht
          have hnone := setOp?_eq_none hop (ht.swap.append used)
          simp only [memberTurn, hnone, hread t ht, Except.map]

theorem bracketTurn_local (hs : Bare s) (h : bracketTurn f b outer s = .ok (x, rest)) :
    Local f (bracketTurn f b outer) s x rest ∧ rest.length < s.length := by
  cases s with
  | nil => simp [bracketTurn] at h
  | cons c cs =>
      by_cases hopening : c = '['
      · subst hopening
        have hlocal := openTurn_local h
        have hlength := hlocal.length_le
        refine ⟨.cons (fun t => rfl) hlocal, ?_⟩
        rw [List.length_cons]
        omega
      · by_cases hclosing : c = '\x5D'
        · subst hclosing
          have hlocal := closeTurn_local h
          have hlength := hlocal.length_le
          refine ⟨.cons (fun t => rfl) hlocal, ?_⟩
          rw [List.length_cons]
          omega
        · have hturn (t : Text) :
              bracketTurn f b outer (c :: t) = memberTurn f b outer (c :: t) := by
            unfold bracketTurn
            split <;> simp_all
          rw [hturn] at h
          obtain ⟨⟨used, hused, hread⟩, hlength⟩ := memberTurn_local hs h
          refine ⟨⟨used, hused, ?_⟩, hlength⟩
          cases used with
          | nil =>
              rw [hused] at hlength
              exact absurd hlength (Nat.lt_irrefl _)
          | cons d used =>
              obtain ⟨rfl, _⟩ := List.cons.inj hused
              intro t ht
              rw [List.cons_append, hturn]
              exact hread t ht

/-- A bracketed set is read turn by turn the same whatever follows it. -/
theorem bracketLoop_local {n : Nat} {m : Nested} (hs : Bare s)
    (h : bracketLoop f n b outer s = .ok (m, rest)) :
    ∃ used, s = used ++ rest ∧ ∀ t k, f.Swaps rest t → (used ++ t).length < k →
      bracketLoop f k b outer (used ++ t) = .ok (m, t) := by
  induction n generalizing b outer s with
  | zero => simp [bracketLoop] at h
  | succ n ih =>
      rw [bracketLoop_succ] at h
      obtain ⟨u, hu, hskip⟩ := f.skip_local s
      cases hturn : bracketTurn f b outer (f.skip s) with
      | error e => simp [hturn, Except.bind] at h
      | ok r =>
          obtain ⟨x, s'⟩ := r
          rw [hturn] at h
          have hskipped : Bare (f.skip s) := by
            rw [hu] at hs
            exact hs.of_append
          obtain ⟨⟨v, hv, hread⟩, hlength⟩ := bracketTurn_local hskipped hturn
          have hs' : s = (u ++ v) ++ s' := by rw [List.append_assoc, ← hv, ← hu]
          have hnext (t : Text) (k : Nat) (ht : f.Swaps s' t) :
              bracketLoop f (k + 1) b outer (u ++ (v ++ t)) = BracketTurn.follow f k (x, t) := by
            have hswap : f.Swaps (f.skip s) (v ++ t) := by
              rw [hv]
              exact ht.append v
            rw [bracketLoop_succ, hskip _ hswap, hread t ht]
            rfl
          have hfront : 0 < v.length := by
            rw [hv, List.length_append] at hlength
            omega
          cases x with
          | done m' =>
              obtain ⟨rfl, rfl⟩ := Prod.mk.inj (Except.ok.inj h)
              refine ⟨u ++ v, hs', ?_⟩
              intro t k ht hk
              cases k with
              | zero => omega
              | succ k =>
                  rw [List.append_assoc]
                  exact hnext t k ht
          | more b' outer' =>
              rw [hs'] at hs
              obtain ⟨w, rfl, hmore⟩ := ih hs.of_append h
              refine ⟨u ++ v ++ w, by rw [hs', List.append_assoc (u ++ v)], ?_⟩
              intro t k ht hk
              simp only [List.length_append] at hk
              cases k with
              | zero => omega
              | succ k =>
                  rw [List.append_assoc, List.append_assoc, hnext _ k (ht.append w)]
                  apply hmore t k ht
                  rw [List.length_append]
                  omega

/-- A bracketed set is read the same whatever follows it. -/
theorem readBracket_local {m : Nested} (hs : Bare s) (h : readBracket f s = .ok (m, rest)) :
    Local f (readBracket f) s m rest := by
  unfold readBracket at h
  cases hopen : openBracket f s with
  | error e => simp [hopen] at h
  | ok r =>
      obtain ⟨b, s'⟩ := r
      simp only [hopen] at h
      have hfront := openBracket_local hopen
      obtain ⟨v, rfl, hloop⟩ := bracketLoop_local (hfront.bare hs) h
      obtain ⟨u, rfl, hread⟩ := hfront
      refine ⟨u ++ v, by rw [List.append_assoc], ?_⟩
      intro t ht
      rw [List.append_assoc, readBracket]
      simp only [hread _ (ht.append v)]
      apply hloop t _ ht
      simp only [List.length_append]
      omega

end PathRouting.Regex

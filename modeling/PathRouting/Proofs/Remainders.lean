import Mathlib.Data.List.TakeWhile
import PathRouting.Proofs.LocalSteps

/-! # What is left of a text

Whatever a reader of the pattern language leaves of a text is an end of it, and every turn of a
loop takes at least one character. So a loop whose number of turns is the length of the text never
stops for want of turns, and more turns change nothing. -/

namespace PathRouting.Regex

variable {f : Flags} {s rest : Text} {e : Escape}

theorem Local.suffix {α : Type} {g : Text → Reading α} {x : α} (h : Local f g s x rest) :
    rest <:+ s := by
  obtain ⟨used, hused, _⟩ := h
  exact ⟨used, hused.symm⟩

theorem Flags.skip_suffix (f : Flags) (s : Text) : f.skip s <:+ s := by
  obtain ⟨used, hused, _⟩ := f.skip_local s
  exact ⟨used, hused.symm⟩

/-! ## Escapes -/

theorem bracedDigits_suffix {n : Nat} {digits : Text}
    (h : bracedDigits f n s = .ok (digits, rest)) : rest <:+ s := by
  induction n generalizing s digits with
  | zero => simp [bracedDigits] at h
  | succ n ih =>
      unfold bracedDigits at h
      split at h
      · simp at h
      · rename_i cs
        obtain ⟨_, rfl⟩ := Prod.mk.inj (Except.ok.inj h)
        exact (f.skip_suffix cs).trans (List.suffix_cons _ cs)
      · rename_i c cs _
        split at h
        · simp at h
        · split at h
          · rename_i hmore
            obtain ⟨_, rfl⟩ := Prod.mk.inj (Except.ok.inj h)
            exact ((ih hmore).trans (f.skip_suffix cs)).trans (List.suffix_cons c cs)
          · simp at h

theorem hexEscape_suffix {count : Nat} (h : hexEscape f count s = .ok (e, rest)) :
    rest <:+ s := by
  refine List.IsSuffix.trans ?_ (f.skip_suffix s)
  unfold hexEscape at h
  split at h
  · simp at h
  · rename_i cs hs
    simp only at h
    split at h
    · simp at h
    · simp at h
    · rename_i hdigits
      split at h
      · simp at h
      · obtain ⟨_, rfl⟩ := Prod.mk.inj (Except.ok.inj h)
        rw [hs]
        exact ((bracedDigits_suffix hdigits).trans (f.skip_suffix cs)).trans
          (List.suffix_cons _ cs)
  · split at h
    · simp at h
    · rename_i hdigits
      split at h
      · simp at h
      · obtain ⟨_, rfl⟩ := Prod.mk.inj (Except.ok.inj h)
        exact (hexDigits_local hdigits).suffix

theorem bracedText_suffix {n : Nat} {t : Text} (h : bracedText f n s = .ok (t, rest)) :
    rest <:+ s := by
  induction n generalizing s t with
  | zero => simp [bracedText] at h
  | succ n ih =>
      unfold bracedText at h
      split at h
      · simp at h
      · obtain ⟨_, rfl⟩ := Prod.mk.inj (Except.ok.inj h)
        exact List.suffix_cons _ _
      · rename_i c cs _
        split at h
        · rename_i hmore
          obtain ⟨_, rfl⟩ := Prod.mk.inj (Except.ok.inj h)
          exact ((ih hmore).trans (f.skip_suffix cs)).trans (List.suffix_cons c cs)
        · simp at h

theorem propertyEscape_suffix {negated : Bool} (h : propertyEscape f negated s = .ok (e, rest)) :
    rest <:+ s := by
  unfold propertyEscape at h
  simp only at h
  split at h
  · simp at h
  · rename_i t rest' hname
    have hends : rest' <:+ f.skip s := by
      split at hname
      · simp at hname
      · rename_i cs hs
        rw [hs]
        exact ((bracedText_suffix hname).trans (f.skip_suffix cs)).trans (List.suffix_cons _ cs)
      · simp at hname
      · rename_i c cs _ _ hs
        obtain ⟨_, rfl⟩ := Prod.mk.inj (Except.ok.inj hname)
        rw [hs]
        exact (f.skip_suffix cs).trans (List.suffix_cons c cs)
    split at h
    · simp at h
    · split at h
      · simp at h
      · split at h
        · simp at h
        · obtain ⟨_, rfl⟩ := Prod.mk.inj (Except.ok.inj h)
          exact hends.trans (f.skip_suffix s)

theorem edgeName_suffix (n : Nat) (s : Text) : (edgeName f n s).2 <:+ s := by
  induction n generalizing s with
  | zero => exact List.suffix_refl s
  | succ n ih =>
      cases s with
      | nil => exact List.suffix_refl []
      | cons c cs =>
          by_cases hc : isEdgeNameChar c = true
          · simp only [edgeName, hc, ite_true]
            exact ((ih _).trans (f.skip_suffix cs)).trans (List.suffix_cons c cs)
          · simp only [edgeName, if_neg hc]
            exact List.suffix_refl _

theorem boundaryEscape_suffix (h : boundaryEscape f s = .ok (e, rest)) : rest <:+ s := by
  unfold boundaryEscape at h
  simp only at h
  split at h
  · rename_i cs
    split at h
    · simp at h
    · rename_i c ds hs
      split at h
      · split at h
        · rename_i name rest' hname
          have hends := edgeName_suffix (f := f) (ds.length + 1) (c :: ds)
          rw [hname, ← hs] at hends
          split at h
          · obtain ⟨_, rfl⟩ := Prod.mk.inj (Except.ok.inj h)
            exact (((List.suffix_cons _ _).trans hends).trans (f.skip_suffix cs)).trans
              (List.suffix_cons _ cs)
          · simp at h
        · simp at h
      · obtain ⟨_, rfl⟩ := Prod.mk.inj (Except.ok.inj h)
        exact List.suffix_refl _
  · obtain ⟨_, rfl⟩ := Prod.mk.inj (Except.ok.inj h)
    exact List.suffix_refl _

theorem readEscape_suffix (h : readEscape f s = .ok (e, rest)) : rest <:+ s := by
  cases s with
  | nil => simp [readEscape] at h
  | cons c cs =>
      refine List.IsSuffix.trans ?_ (List.suffix_cons c cs)
      have hletter {c : Char} {negated : Bool} {wide ascii : CharSet}
          (hc : (c, negated, wide, ascii) ∈ letterSets)
          (h : readEscape f (c :: cs) = .ok (e, rest)) : rest <:+ cs := by
        rw [readEscape_letter hc] at h
        cases hset : letterSet f negated wide ascii with
        | error e => simp [hset, Except.map] at h
        | ok set =>
            obtain ⟨_, rfl⟩ : Escape.set set = e ∧ cs = rest := by
              simpa [hset, Except.map] using h
            exact List.suffix_refl _
      have hplain {e' : Escape} (h : (.ok (e', cs) : Reading Escape) = .ok (e, rest)) :
          rest <:+ cs := by
        obtain ⟨_, rfl⟩ := Prod.mk.inj (Except.ok.inj h)
        exact List.suffix_refl _
      have hcases := h
      unfold readEscape at hcases
      simp only at hcases
      split at hcases
      · simp at hcases
      · split at hcases
        · exact hplain hcases
        · split at hcases
          · exact hplain hcases
          · split at hcases
            · exact hexEscape_suffix hcases
            · exact hexEscape_suffix hcases
            · exact hexEscape_suffix hcases
            · exact propertyEscape_suffix hcases
            · exact propertyEscape_suffix hcases
            · exact hletter (.head _) h
            · exact hletter (.tail _ (.head _)) h
            · exact hletter (.tail _ (.tail _ (.head _))) h
            · exact hletter (.tail _ (.tail _ (.tail _ (.head _)))) h
            · exact hletter (.tail _ (.tail _ (.tail _ (.tail _ (.head _))))) h
            · exact hletter (.tail _ (.tail _ (.tail _ (.tail _ (.tail _ (.head _)))))) h
            · exact hplain hcases
            · exact hplain hcases
            · exact boundaryEscape_suffix hcases
            · exact hplain hcases
            · exact hplain hcases
            · exact hplain hcases
            · simp at hcases

/-! ## Brackets -/

theorem bracketItem_suffix (h : bracketItem f s = .ok (e, rest)) :
    rest <:+ s ∧ rest.length < s.length := by
  unfold bracketItem at h
  split at h
  · simp at h
  · rename_i cs
    have hescape := readEscape_suffix h
    exact ⟨hescape.trans (List.suffix_cons _ cs), Nat.lt_succ_of_le hescape.length_le⟩
  · rename_i c cs _
    obtain ⟨_, rfl⟩ := Prod.mk.inj (Except.ok.inj h)
    exact ⟨List.suffix_cons c cs, Nat.lt_succ_self _⟩

theorem bracketMember_suffix {m : Nested} (h : bracketMember f s = .ok (m, rest)) :
    rest <:+ s ∧ rest.length < s.length := by
  obtain ⟨low, s₁, hlow, hends⟩ := bracketMember_eq_ok_iff.mp h
  obtain ⟨hitem, hshorter⟩ := bracketItem_suffix hlow
  have hskip := f.skip_suffix s₁
  suffices hrest : rest <:+ s₁ from
    ⟨hrest.trans hitem, Nat.lt_of_le_of_lt hrest.length_le hshorter⟩
  rcases hends with ⟨rfl, _, _, _⟩ | ⟨cs, high, a, b, hcs, _, _, hhigh, _⟩
  · exact hskip
  · have hmore := (bracketItem_suffix hhigh).1
    rw [hcs] at hskip
    exact ((hmore.trans (f.skip_suffix cs)).trans (List.suffix_cons _ cs)).trans hskip

theorem bracketTurn_suffix {b : Bracket} {outer : List Bracket} {x : BracketTurn}
    (h : bracketTurn f b outer s = .ok (x, rest)) : rest <:+ s ∧ rest.length < s.length := by
  have hcons {c : Char} {cs : Text} (hends : rest <:+ cs) :
      rest <:+ c :: cs ∧ rest.length < (c :: cs).length :=
    ⟨hends.trans (List.suffix_cons c cs), Nat.lt_succ_of_le hends.length_le⟩
  unfold bracketTurn at h
  split at h
  · simp at h
  · exact hcons (openTurn_local h).suffix
  · exact hcons (closeTurn_local h).suffix
  · unfold memberTurn at h
    split at h
    · rename_i hop
      obtain ⟨c, rfl, _⟩ := setOp?_local hop
      obtain ⟨_, rfl⟩ := Prod.mk.inj (Except.ok.inj h)
      exact hcons (List.suffix_cons c _)
    · cases hmember : bracketMember f s with
      | error e => simp [hmember, Except.map] at h
      | ok r =>
          simp only [hmember, Except.map, Except.ok.injEq, Prod.mk.injEq] at h
          obtain ⟨_, rfl⟩ := h
          exact bracketMember_suffix hmember

/-- As many turns as the text is long are enough for a bracketed set. -/
theorem bracketLoop_enough {b : Bracket} {outer : List Bracket} {n k : Nat} {m : Nested}
    (h : bracketLoop f n b outer s = .ok (m, rest)) (hk : s.length < k) :
    bracketLoop f k b outer s = .ok (m, rest) ∧ rest <:+ s := by
  induction n generalizing b outer s k with
  | zero => simp [bracketLoop] at h
  | succ n ih =>
      obtain ⟨k, rfl⟩ := Nat.exists_eq_add_one_of_ne_zero (Nat.ne_zero_of_lt hk)
      rw [bracketLoop_succ] at h ⊢
      cases hturn : bracketTurn f b outer (f.skip s) with
      | error e => simp [hturn, Except.bind] at h
      | ok r =>
          obtain ⟨x, s'⟩ := r
          rw [hturn] at h
          have hskip := f.skip_suffix s
          obtain ⟨hends, hshorter⟩ := bracketTurn_suffix hturn
          cases x with
          | done m' =>
              obtain ⟨rfl, rfl⟩ := Prod.mk.inj (Except.ok.inj h)
              exact ⟨rfl, hends.trans hskip⟩
          | more b' outer' =>
              have hlength := hskip.length_le
              obtain ⟨hmore, hrest⟩ := ih (k := k) h (by omega)
              exact ⟨hmore, hrest.trans (hends.trans hskip)⟩

theorem readBracket_suffix {m : Nested} (h : readBracket f s = .ok (m, rest)) : rest <:+ s := by
  unfold readBracket at h
  split at h
  · simp at h
  · rename_i hopen
    exact (bracketLoop_enough h (Nat.lt_succ_self _)).2.trans (openBracket_local hopen).suffix

/-! ## Opening parentheses -/

theorem readName_eq_ok_iff {s name rest : Text} : readName s = .ok (name, rest) ↔
    s = name ++ '>' :: rest ∧ name ≠ [] ∧ '>' ∉ name ∧
      (name.take 1).all (isNameChar true) = true ∧
        (name.drop 1).all (isNameChar false) = true := by
  constructor
  · intro h
    unfold readName at h
    simp only at h
    split at h
    · simp at h
    · rename_i hname
      split at h
      · simp at h
      · rename_i c cs hdrop
        have hc : c = '>' := by
          have hstop := List.head_dropWhile_not (· != '>') (l := s) (by simp [hdrop])
          simpa [hdrop] using hstop
        subst hc
        split at h
        · simp at h
        · rename_i hne
          obtain ⟨rfl, rfl⟩ := Prod.mk.inj (Except.ok.inj h)
          refine ⟨by rw [← hdrop, List.takeWhile_append_dropWhile], by simpa using hne, ?_, ?_⟩
          · intro hmem
            simpa using List.mem_takeWhile_imp hmem
          · simpa using hname
  · rintro ⟨rfl, hne, hclose, hfirst, hmore⟩
    have hkeep : ∀ c ∈ name, (c != '>') = true := by
      intro c hc
      simp only [bne_iff_ne, ne_eq]
      rintro rfl
      exact hclose hc
    have htake : (name ++ '>' :: rest).takeWhile (· != '>') = name := by
      rw [List.takeWhile_append_of_pos hkeep]
      simp
    have hdrop : (name ++ '>' :: rest).dropWhile (· != '>') = '>' :: rest := by
      rw [List.dropWhile_append_of_pos hkeep]
      simp
    simp only [readName, htake, hdrop, hfirst, hmore]
    simp [hne]

theorem named_eq_ok_iff {u rest : Text} {o : Opening} :
    readOpening.named u = .ok (o, rest) ↔
      ∃ name, readName u = .ok (name, rest) ∧ o = .capture (some name) := by
  unfold readOpening.named
  cases readName u with
  | error e => simp
  | ok r =>
      constructor
      · intro h
        obtain ⟨rfl, rfl⟩ := Prod.mk.inj (Except.ok.inj h)
        exact ⟨r.1, rfl, rfl⟩
      · rintro ⟨name, hname, rfl⟩
        obtain rfl := Except.ok.inj hname
        rfl

/-- What stands behind the question mark of a group with a name. -/
def OpensName (cs u : Text) : Prop :=
  cs = '<' :: u ∧ u.head? ≠ some '=' ∧ u.head? ≠ some '!' ∨ cs = 'P' :: '<' :: u

theorem readOpening_named {f : Flags} {s cs u : Text} (hs : f.skip s = '?' :: cs)
    (hname : OpensName cs u) : readOpening f s = readOpening.named u := by
  unfold readOpening
  rw [hs]
  rcases hname with ⟨rfl, hlook⟩ | rfl
  · split <;> grind
  · rfl

theorem readOpening_flags_eq_ok_iff {f g : Flags} {s cs seen ds rest : Text} {c : Char}
    {o : Opening} (hs : f.skip s = '?' :: cs)
    (hread : readFlags f [] cs = .ok ((g, seen), c :: ds)) :
    readOpening f s = .ok (o, rest) ↔ ds = rest ∧
      (c = ')' ∧ seen ≠ [] ∧ o = .directive g ∨ c ≠ ')' ∧ o = .plain g) := by
  rw [readOpening_flags hs hread]
  by_cases hc : c = ')'
  · by_cases hseen : seen = []
    · simp [hc, hseen]
    · simp [hc, hseen, and_comm, eq_comm]
  · simp [hc, and_comm, eq_comm]

/-- Behind a question mark there are flags, unless a name follows. -/
theorem readOpening_of_flags_error {f : Flags} {s cs rest : Text} {o : Opening} {e : Fault}
    (hs : f.skip s = '?' :: cs) (hname : ∀ u, ¬OpensName cs u)
    (hread : readFlags f [] cs = .error e) : readOpening f s ≠ .ok (o, rest) := by
  intro h
  unfold readOpening at h
  rw [hs] at h
  split at h
  · simp at h
  · simp at h
  · simp at h
  · simp at h
  · rename_i u hcs
    exact hname u (.inr (List.cons.inj hcs).2)
  · rename_i u hequal hnot hcs
    refine hname u (.inl ⟨(List.cons.inj hcs).2, ?_, ?_⟩)
    · cases u <;> simp_all
    · cases u <;> simp_all
  · rename_i hcs
    obtain rfl := (List.cons.inj hcs).2
    simp [hread] at h
  · simp_all

theorem readOpening_eq_ok_iff {f : Flags} {s cs rest : Text} {o : Opening}
    (hs : f.skip s = '?' :: cs) : readOpening f s = .ok (o, rest) ↔
      (∃ name u, OpensName cs u ∧ readName u = .ok (name, rest) ∧ o = .capture (some name)) ∨
      ∃ g seen c, readFlags f [] cs = .ok ((g, seen), c :: rest) ∧
        (c = ')' ∧ seen ≠ [] ∧ o = .directive g ∨ c ≠ ')' ∧ o = .plain g) := by
  constructor
  · intro h
    by_cases hopens : ∃ u, OpensName cs u
    · obtain ⟨u, hu⟩ := hopens
      rw [readOpening_named hs hu] at h
      obtain ⟨name, hname, ho⟩ := named_eq_ok_iff.mp h
      exact .inl ⟨name, u, hu, hname, ho⟩
    · cases hread : readFlags f [] cs with
      | error e =>
          exact absurd h (readOpening_of_flags_error hs (not_exists.mp hopens) hread)
      | ok r =>
          obtain ⟨⟨g, seen⟩, ds⟩ := r
          obtain ⟨_, c, ds, _, rfl, _⟩ := readFlags_local hread
          obtain ⟨rfl, ho⟩ := (readOpening_flags_eq_ok_iff hs hread).mp h
          exact .inr ⟨g, seen, c, rfl, ho⟩
  · rintro (⟨name, u, hu, hname, rfl⟩ | ⟨g, seen, c, hread, ho⟩)
    · rw [readOpening_named hs hu]
      exact named_eq_ok_iff.mpr ⟨name, hname, rfl⟩
    · exact (readOpening_flags_eq_ok_iff hs hread).mpr ⟨rfl, ho⟩

theorem readOpening_suffix {o : Opening} (h : readOpening f s = .ok (o, rest)) : rest <:+ s := by
  by_cases hsign : (f.skip s).head? = some '?'
  · obtain ⟨cs, hs⟩ := List.head?_eq_some_iff.mp hsign
    refine List.IsSuffix.trans ?_ (f.skip_suffix s)
    rw [hs]
    refine List.IsSuffix.trans ?_ (List.suffix_cons _ cs)
    rcases (readOpening_eq_ok_iff hs).mp h with
      ⟨name, u, hu, hname, _⟩ | ⟨g, seen, c, hflags, _⟩
    · obtain ⟨rfl, _⟩ := readName_eq_ok_iff.mp hname
      have hends : rest <:+ name ++ '>' :: rest :=
        (List.suffix_cons _ rest).trans (List.suffix_append name _)
      rcases hu with ⟨rfl, _⟩ | rfl
      · exact hends.trans (List.suffix_cons _ _)
      · exact (hends.trans (List.suffix_cons _ _)).trans (List.suffix_cons _ _)
    · obtain ⟨used, d, ds, rfl, hds, _⟩ := readFlags_local hflags
      obtain ⟨_, rfl⟩ := List.cons.inj hds
      exact (List.suffix_cons _ _).trans (List.suffix_append used _)
  · rw [readOpening_capture hsign] at h
    obtain ⟨_, rfl⟩ := Prod.mk.inj (Except.ok.inj h)
    exact f.skip_suffix s

/-! ## Counts -/

theorem decimalDigits_suffix (n : Nat) (s : Text) :
    (readDecimal.decimalDigits f n s).2 <:+ s := by
  induction n generalizing s with
  | zero => exact List.suffix_refl s
  | succ n ih =>
      cases s with
      | nil => exact List.suffix_refl []
      | cons c cs =>
          by_cases hc : c.isDigit = true
          · simp only [readDecimal.decimalDigits, hc, ite_true]
            exact ((ih _).trans (f.skip_suffix cs)).trans (List.suffix_cons c cs)
          · simp only [readDecimal.decimalDigits, if_neg hc]
            exact List.suffix_refl _

theorem skipBlanks_suffix (n : Nat) (s : Text) : readDecimal.skipBlanks f n s <:+ s := by
  induction n generalizing s with
  | zero => exact List.suffix_refl s
  | succ n ih =>
      cases s with
      | nil => exact List.suffix_refl []
      | cons c cs =>
          by_cases hc : Text.isBlank c = true
          · simp only [readDecimal.skipBlanks, hc, ite_true]
            exact ((ih _).trans (f.skip_suffix cs)).trans (List.suffix_cons c cs)
          · simp only [readDecimal.skipBlanks, if_neg hc]
            exact List.suffix_refl _

theorem readDecimal_suffix (s : Text) : (readDecimal f s).2 <:+ s := by
  simp only [readDecimal]
  generalize (s.dropWhile Text.isBlank).length + 1 = n
  have hdigits := decimalDigits_suffix (f := f) n (s.dropWhile Text.isBlank)
  generalize (readDecimal.decimalDigits f n (s.dropWhile Text.isBlank)).2 = u at hdigits ⊢
  have hends := (skipBlanks_suffix (f := f) (u.length + 1) u).trans
    (hdigits.trans (List.dropWhile_suffix Text.isBlank))
  split
  · exact hends
  · exact hends

theorem readCount_eq_ok_iff {f : Flags} {s rest : Text} {count : Count} :
    readCount f s = .ok (count, rest) ↔ f.skip s ≠ [] ∧
      ∃ n u, readDecimal f (f.skip s) = (some (.ok n), u) ∧
        (u = '\x7D' :: rest ∧ count = ⟨n, some 0⟩ ∨
          ∃ v, u = ',' :: v ∧ (f.skip v = '\x7D' :: rest ∧ count = ⟨n, none⟩ ∨
            (f.skip v).head? ≠ some '\x7D' ∧ f.skip v ≠ [] ∧
              ∃ m, readDecimal f (f.skip v) = (some (.ok m), '\x7D' :: rest) ∧ n ≤ m ∧
                count = ⟨n, some (m - n)⟩)) := by
  unfold readCount
  cases hs : f.skip s with
  | nil => simp
  | cons c cs =>
      simp only [ne_eq, reduceCtorEq, not_false_eq_true, true_and]
      generalize readDecimal f (c :: cs) = first
      obtain ⟨least, u⟩ := first
      by_cases hcomma : u.head? = some ','
      · obtain ⟨v, rfl⟩ := List.head?_eq_some_iff.mp hcomma
        cases hv : f.skip v with
        | nil => simp [hv]
        | cons d ds =>
            simp only [hv]
            rcases least with _ | e | n <;> grind
      · by_cases hclose : u.head? = some '\x7D'
        · obtain ⟨v, rfl⟩ := List.head?_eq_some_iff.mp hclose
          rcases least with _ | e | n <;> grind
        · grind

theorem readCount_suffix {count : Count} (h : readCount f s = .ok (count, rest)) :
    rest <:+ s := by
  obtain ⟨_, n, u, hleast, hends⟩ := readCount_eq_ok_iff.mp h
  have hu := readDecimal_suffix (f := f) (f.skip s)
  rw [hleast] at hu
  refine List.IsSuffix.trans ?_ (hu.trans (f.skip_suffix s))
  rcases hends with ⟨rfl, _⟩ | ⟨v, rfl, hends⟩
  · exact List.suffix_cons _ rest
  · refine List.IsSuffix.trans ?_ ((f.skip_suffix v).trans (List.suffix_cons _ v))
    rcases hends with ⟨hclose, _⟩ | ⟨_, _, m, hmost, _⟩
    · rw [hclose]
      exact List.suffix_cons _ rest
    · have hv := readDecimal_suffix (f := f) (f.skip v)
      rw [hmost] at hv
      exact (List.suffix_cons _ rest).trans hv

end PathRouting.Regex

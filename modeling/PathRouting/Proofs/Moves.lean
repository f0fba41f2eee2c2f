import PathRouting.Proofs.Twins
import PathRouting.Proofs.Remainders

/-! # Reading a move, then following it

A step of the reader of patterns reads a move off the text, which depends on the flags only, and
then follows it. -/

namespace PathRouting.Regex

def escapeMove (f : Flags) (s : Text) : Reading Move :=
  match readEscape f s with
  | .error e => .error e
  | .ok (.char c byte, rest) =>
    if !f.unicode && byte && 0x80 ≤ c.toNat then .error .needsUnicode
    else .ok (.push { regex := .one (f.literalSet c) }, rest)
  | .ok (.set set, rest) => .ok (.push { regex := .one set }, rest)
  | .ok (.look l, rest) => .ok (.push { regex := .look l }, rest)

/-- The move of the part that begins with the character `c`, the text after it being `cs`. -/
def readMove (f : Flags) (c : Char) (cs : Text) : Reading Move :=
  match c with
  | '(' => (readOpening f cs).map fun (o, rest) => (.enter o, rest)
  | ')' => .ok (.leave, cs)
  | '|' => .ok (.bar, cs)
  | '[' =>
    (readBracket f cs).map fun (b, rest) =>
      (.push { regex := .one b.set, depth := b.depth }, rest)
  | '\\' => escapeMove f cs
  | '.' => f.dotSet.map fun set => (.push { regex := .one set }, cs)
  | '^' => .ok (.push { regex := .look f.startLook }, cs)
  | '$' => .ok (.push { regex := .look f.endLook }, cs)
  | c =>
    match readRepeat f (c :: cs) with
    | some r => r.map fun ((greedy, count), rest) => (.again greedy count, rest)
    | none => .ok (.push { regex := .one (f.literalSet c) }, cs)

def isOpener (c : Char) : Bool := ['(', ')', '|', '[', '\\', '.', '^', '$'].contains c

theorem readMove_of_not_opener {c : Char} (hc : isOpener c = false) (f : Flags) (cs : Text) :
    readMove f c cs =
      match readRepeat f (c :: cs) with
      | some r => r.map fun ((greedy, count), rest) => (.again greedy count, rest)
      | none => .ok (.push { regex := .one (f.literalSet c) }, cs) := by
  unfold readMove
  split <;> first | exact absurd hc (by decide) | rfl

namespace Reader

variable {r r' q : Reader} {c : Char} {cs rest : Text}

theorem escape_eq_escapeMove (r : Reader) (cs : Text) :
    r.escape cs = (escapeMove r.flags cs).bind fun m => (r.follow m.1).map (·, m.2) := by
  unfold Reader.escape escapeMove
  cases readEscape r.flags cs with
  | error e => rfl
  | ok x =>
      obtain ⟨e, rest⟩ := x
      cases e with
      | char c byte =>
          simp only
          split <;> rfl
      | set s => rfl
      | look l => rfl

/-- A step reads a move and follows it. -/
theorem step_eq_readMove (r : Reader) (c : Char) (cs : Text) :
    r.step c cs = (readMove r.flags c cs).bind fun m => (r.follow m.1).map (·, m.2) := by
  unfold step
  split
  · simp only [readMove]
    cases hopening : readOpening r.flags cs with
    | error e => rfl
    | ok x =>
        obtain ⟨o, rest⟩ := x
        simp only [Except.map, Except.bind, follow]
        cases r.openGroup o <;> rfl
  · simp only [readMove, Except.bind, follow]
    cases r.closeGroup <;> rfl
  · rfl
  · simp only [readMove]
    cases readBracket r.flags cs <;> rfl
  · exact r.escape_eq_escapeMove cs
  · simp only [readMove]
    cases r.flags.dotSet <;> rfl
  · rfl
  · rfl
  · rw [readMove_of_not_opener (by simp_all [isOpener])]
    cases readRepeat r.flags (c :: cs) with
    | none => rfl
    | some x =>
        cases x with
        | error e => rfl
        | ok x =>
            obtain ⟨⟨greedy, count⟩, rest⟩ := x
            simp only [Except.map, Except.bind, follow]
            cases r.repeatLast greedy count <;> rfl

theorem step_eq_ok_iff : r.step c cs = .ok (q, rest) ↔
    ∃ m, readMove r.flags c cs = .ok (m, rest) ∧ r.follow m = .ok q := by
  rw [step_eq_readMove]
  cases hmove : readMove r.flags c cs with
  | error e => simp [Except.bind]
  | ok x =>
      obtain ⟨m, rest'⟩ := x
      constructor
      · intro h
        cases hfollow : r.follow m with
        | error e => simp [Except.bind, Except.map, hfollow] at h
        | ok q' =>
            obtain ⟨rfl, rfl⟩ : q' = q ∧ rest' = rest := by
              simpa [Except.bind, Except.map, hfollow] using h
            exact ⟨m, rfl, hfollow⟩
      · rintro ⟨m', heq, hfollow⟩
        obtain ⟨rfl, rfl⟩ := Prod.mk.inj (Except.ok.inj heq)
        simp [Except.bind, Except.map, hfollow]

end Reader

/-! ## What a move leaves -/

variable {f : Flags} {c : Char} {cs s rest : Text} {m : Move}

theorem readLazy_suffix (s : Text) : (readLazy s).2 <:+ s := (readLazy_local {} s).suffix

theorem readRepeat_suffix {x : Bool × Count} (h : readRepeat f (c :: cs) = some (.ok (x, rest))) :
    rest <:+ cs := by
  have hsimple {count : Count} {u : Text}
      (h : readRepeat.simple f count u = .ok (x, rest)) : rest <:+ u := by
    obtain ⟨_, rfl⟩ := Prod.mk.inj (Except.ok.inj h)
    exact readLazy_suffix u
  unfold readRepeat at h
  split at h
  · rename_i heq
    obtain ⟨rfl, rfl⟩ := List.cons.inj heq
    exact hsimple (Option.some.inj h)
  · rename_i heq
    obtain ⟨rfl, rfl⟩ := List.cons.inj heq
    exact hsimple (Option.some.inj h)
  · rename_i heq
    obtain ⟨rfl, rfl⟩ := List.cons.inj heq
    exact hsimple (Option.some.inj h)
  · rename_i heq
    obtain ⟨rfl, rfl⟩ := List.cons.inj heq
    have h := Option.some.inj h
    split at h
    · simp at h
    · rename_i hcount
      exact ((hsimple h).trans (f.skip_suffix _)).trans (readCount_suffix hcount)
  · simp at h

theorem escapeMove_suffix (h : escapeMove f s = .ok (m, rest)) : rest <:+ s := by
  unfold escapeMove at h
  split at h
  · simp at h
  · rename_i hescape
    split at h
    · simp at h
    · obtain ⟨_, rfl⟩ := Prod.mk.inj (Except.ok.inj h)
      exact readEscape_suffix hescape
  · rename_i hescape
    obtain ⟨_, rfl⟩ := Prod.mk.inj (Except.ok.inj h)
    exact readEscape_suffix hescape
  · rename_i hescape
    obtain ⟨_, rfl⟩ := Prod.mk.inj (Except.ok.inj h)
    exact readEscape_suffix hescape

theorem readMove_suffix (h : readMove f c cs = .ok (m, rest)) : rest <:+ cs := by
  have hmap {α : Type} {x : Reading α} {k : α × Text → Move × Text}
      (hk : ∀ a u, (k (a, u)).2 = u) (hx : ∀ a u, x = .ok (a, u) → u <:+ cs)
      (h : x.map k = .ok (m, rest)) : rest <:+ cs := by
    cases x with
    | error e => simp [Except.map] at h
    | ok r =>
        have hrest : (k r).2 = rest := congrArg Prod.snd (Except.ok.inj h)
        rw [← hrest, hk]
        exact hx r.1 r.2 rfl
  unfold readMove at h
  split at h
  · exact hmap (fun _ _ => rfl) (fun _ _ => readOpening_suffix) h
  · obtain ⟨_, rfl⟩ := Prod.mk.inj (Except.ok.inj h)
    exact List.suffix_refl _
  · obtain ⟨_, rfl⟩ := Prod.mk.inj (Except.ok.inj h)
    exact List.suffix_refl _
  · exact hmap (fun _ _ => rfl) (fun _ _ => readBracket_suffix) h
  · exact escapeMove_suffix h
  · cases hdot : f.dotSet with
    | error e => simp [hdot, Except.map] at h
    | ok set =>
        simp only [hdot, Except.map, Except.ok.injEq, Prod.mk.injEq] at h
        obtain ⟨_, rfl⟩ := h
        exact List.suffix_refl _
  · obtain ⟨_, rfl⟩ := Prod.mk.inj (Except.ok.inj h)
    exact List.suffix_refl _
  · obtain ⟨_, rfl⟩ := Prod.mk.inj (Except.ok.inj h)
    exact List.suffix_refl _
  · split at h
    · rename_i x hrepeat
      refine hmap (fun _ _ => rfl) (fun a u hx => ?_) h
      rw [hx] at hrepeat
      exact readRepeat_suffix hrepeat
    · obtain ⟨_, rfl⟩ := Prod.mk.inj (Except.ok.inj h)
      exact List.suffix_refl _

/-- As many steps as the text is long are enough for a pattern. -/
theorem Reader.loop_enough {r q : Reader} {n k : Nat} (h : loop n r s = .ok q)
    (hk : s.length ≤ k) : loop k r s = .ok q := by
  induction n generalizing r s k with
  | zero =>
      rcases loop_turn h with ⟨hend, rfl, _⟩ | ⟨_, _, _, _, _, _, hn, _⟩
      · rw [loop.eq_def]
        simp only [hend]
      · omega
  | succ n ih =>
      rcases loop_turn h with ⟨hend, rfl, _⟩ | ⟨c, cs, n', r', rest, hcs, hn, hstep, hmore, _⟩
      · rw [loop.eq_def]
        simp only [hend]
      · obtain rfl : n = n' := by omega
        obtain ⟨m, hmove, _⟩ := step_eq_ok_iff.mp hstep
        have hskip := (r.flags.skip_suffix s).length_le
        have hends := (readMove_suffix hmove).length_le
        rw [hcs, List.length_cons] at hskip
        obtain ⟨k, rfl⟩ := Nat.exists_eq_add_one_of_ne_zero (show k ≠ 0 by omega)
        rw [loop_step hcs hstep]
        exact ih hmore (by omega)

end PathRouting.Regex

import PathRouting.Proofs.Cuts
import PathRouting.Proofs.LocalSteps

/-! # Reading the patterns of templates

The text that a template writes is read piece by piece. Literal characters are escaped, so
none of them is taken for a sign of the pattern language, and the sign of a repetition is
never followed by a question mark that belongs to the next piece. -/

namespace PathRouting

namespace Regex.Reader

def Reads (r : Reader) (s : Text) (r' : Reader) (s' : Text) : Prop :=
  ∃ k, k + s'.length ≤ s.length ∧ ∀ n, loop (k + n) r s = loop n r' s'

/-- The reader after `parts` have been added at the current level and `groups` groups have
been opened and closed. -/
def extended (r : Reader) (parts : List Part) (groups : Nat) : Reader :=
  { r with
    level := { r.level with parts := parts.reverse ++ r.level.parts }
    groups := r.groups + groups }

theorem extended_extended (r : Reader) (ps qs : List Part) (k l : Nat) :
    (r.extended ps k).extended qs l = r.extended (ps ++ qs) (k + l) := by
  simp [extended, Nat.add_assoc]

/-- The reader `r'` is the reader `r` with parts added at the current level. -/
structure Adds (r : Reader) (ps : List Part) (r' : Reader) : Prop where
  flags : r'.flags = r.flags
  outer : r'.outer = r.outer
  level : r'.level = ⟨r.level.branches, ps.reverse ++ r.level.parts⟩

theorem adds_extended (r : Reader) (ps : List Part) (k : Nat) : r.Adds ps (r.extended ps k) :=
  ⟨rfl, rfl, rfl⟩

theorem Adds.trans {r r' r'' : Reader} {ps qs : List Part} (h : r.Adds ps r')
    (h' : r'.Adds qs r'') : r.Adds (ps ++ qs) r'' := by
  refine ⟨h'.flags.trans h.flags, h'.outer.trans h.outer, ?_⟩
  rw [h'.level, h.level, List.reverse_append, List.append_assoc]

theorem Reads.refl (r : Reader) (s : Text) : Reads r s r s :=
  ⟨0, by omega, fun n => by rw [Nat.zero_add]⟩

theorem Reads.trans {r r' r'' : Reader} {s s' s'' : Text} (h : Reads r s r' s')
    (h' : Reads r' s' r'' s'') : Reads r s r'' s'' := by
  obtain ⟨k, hk, hloop⟩ := h
  obtain ⟨l, hl, hloop'⟩ := h'
  exact ⟨k + l, by omega, fun n => by rw [Nat.add_assoc, hloop, hloop']⟩

theorem Reads.step {r r' : Reader} {c : Char} {cs rest : Text}
    (hverbose : r.flags.verbose = false) (h : r.step c cs = .ok (r', rest))
    (hlength : rest.length ≤ cs.length) : Reads r (c :: cs) r' rest := by
  refine ⟨1, by simp; omega, fun n => ?_⟩
  rw [Nat.add_comm, loop]
  simp [Flags.skip, hverbose, h]

theorem Reads.loop_eq {r r' : Reader} {s : Text} {n : Nat} (h : Reads r s r' [])
    (hverbose : r'.flags.verbose = false) (hn : s.length ≤ n) : loop n r s = .ok r' := by
  obtain ⟨k, hk, hloop⟩ := h
  simp only [List.length_nil, Nat.add_zero] at hk
  obtain ⟨m, rfl⟩ : ∃ m, n = k + m := ⟨n - k, by omega⟩
  rw [hloop, loop.eq_def]
  simp [Flags.skip, hverbose]

/-! ## Single parts -/

theorem step_plain (r : Reader) {c : Char} (hc : isMeta c = false) (cs : Text) :
    r.step c cs = .ok (r.pushSet (r.flags.literalSet c), cs) := by
  unfold step
  split <;> first | (exact absurd hc (by decide)) | skip
  simp only [readRepeat]
  split
  · rename_i h
    split at h <;> simp_all [isMeta]
  · rename_i h
    split at h <;> simp_all [isMeta]
  · rfl

theorem step_escaped {r : Reader} (hunicode : r.flags.unicode = true) {c : Char}
    (hc : isMeta c = true) (cs : Text) :
    r.step '\\' (c :: cs) = .ok (r.pushSet (r.flags.literalSet c), cs) := by
  have hdigit : c.isDigit = false := by
    have hmeta : (['\\', '.', '+', '*', '?', '(', ')', '|', '[', ']', '\x7B', '\x7D', '^', '$',
        '#', '&', '-', '~'].all fun c => !c.isDigit) = true := by
      decide
    simpa using List.all_eq_true.mp hmeta c (by simpa [isMeta] using hc)
  simp [step, escape, readEscape, hdigit, isEscapable, hc, hunicode]

def setPart (set : CharSet) (depth : Nat) : Part := { regex := .one set, depth := depth }

def repeatedPart (greedy : Bool) (count : Count) (p : Part) : Part :=
  { regex := repeated greedy count.least count.extra p.regex, depth := p.depth + 1 }

theorem repeatLast_extended (r : Reader) {p : Part} (hp : p.directive = false) (greedy : Bool)
    {count : Count} (hcount : count.least + count.extra.getD 0 ≤ 1) :
    (r.extended [p] 0).repeatLast greedy count =
      .ok (r.extended [repeatedPart greedy count p] 0) := by
  have hlight : ¬1 < count.least + count.extra.getD 0 := by omega
  simp [repeatLast, extended, hp, hlight, repeatedPart]

theorem step_repeat_extended (r : Reader) {p : Part} (hp : p.directive = false) {c : Char}
    {count : Count} (hc : RepeatSign c count) (s : Text) :
    (r.extended [p] 0).step c s =
      .ok (r.extended [repeatedPart ((readLazy s).1 == r.flags.swapGreed) count p] 0,
        (readLazy s).2) := by
  rw [step_repeat hc, follow, repeatLast_extended r hp _ hc.le_one]
  rfl

/-- A sign of repetition is read with the question mark behind it, if there is one. -/
theorem reads_repeat {r : Reader} (hf : ∃ policy, r.flags = Template.flags policy) {c : Char}
    {count : Count} (hc : RepeatSign c count) {p : Part} (hp : p.directive = false)
    (rest : Text) :
    (rest.head? ≠ some '?' → Reads (r.extended [p] 0) (c :: rest)
      (r.extended [repeatedPart true count p] 0) rest) ∧
    Reads (r.extended [p] 0) (c :: '?' :: rest) (r.extended [repeatedPart false count p] 0)
      rest := by
  obtain ⟨policy, hf⟩ := hf
  have hswap : r.flags.swapGreed = false := by rw [hf]; rfl
  have hverbose : r.flags.verbose = false := by rw [hf]; rfl
  have hstep := step_repeat_extended r hp hc
  rw [hswap] at hstep
  constructor
  · intro hrest
    have hlazy : readLazy rest = (false, rest) := by
      unfold readLazy
      split
      · simp at hrest
      · rfl
    have h := hstep rest
    rw [hlazy] at h
    exact .step hverbose h (Nat.le_refl _)
  · exact .step hverbose (hstep ('?' :: rest)) (by simp)

end Regex.Reader

/-! ## Values of parameters

The pattern of a value is read alike under all flags: a set, if the flags allow it, and the
sign of a repetition with its question mark. -/

namespace Regex

theorem readBracket_notSlash (f : Flags) (rest : Text) :
    readBracket f ('^' :: '/' :: '\x5D' :: rest) =
      (f.finishSet true (.single '/')).map fun set => (⟨set, 1⟩, rest) := by
  have hcaret (cs : Text) : f.skip ('^' :: cs) = '^' :: cs :=
    f.skip_cons (by decide) (by decide) cs
  have hslash (cs : Text) : f.skip ('/' :: cs) = '/' :: cs :=
    f.skip_cons (by decide) (by decide) cs
  have hclosing (cs : Text) : f.skip ('\x5D' :: cs) = '\x5D' :: cs :=
    f.skip_cons (by decide) (by decide) cs
  have hopen : openBracket f ('^' :: '/' :: '\x5D' :: rest) =
      .ok ({ negated := true }, '/' :: '\x5D' :: rest) := by
    simp [openBracket, hcaret, hslash, leadingHyphens]
  have hmember : bracketMember f ('/' :: '\x5D' :: rest) =
      .ok (⟨.single '/', 0⟩, '\x5D' :: rest) := by
    simp [bracketMember, bracketItem, hclosing, bracketMember.alone, bound]
  have hinside (n : Nat) : bracketLoop f (n + 1) { negated := true } [] ('/' :: '\x5D' :: rest) =
      bracketLoop f n { negated := true, members := [⟨.single '/', 0⟩] } [] ('\x5D' :: rest) := by
    simp [bracketLoop, hslash, setOp?, hmember, Bracket.add]
  have hend (n : Nat) :
      bracketLoop f (n + 1) { negated := true, members := [⟨.single '/', 0⟩] } []
          ('\x5D' :: rest) =
        (f.finishSet true (.single '/')).map fun set => (⟨set, 1⟩, rest) := by
    simp only [bracketLoop, hclosing, Bracket.total, Bracket.union]
    cases f.finishSet true (.single '/') <;> rfl
  simp only [readBracket, hopen, List.length_cons, hinside, hend]

namespace Reader

def valueSet (f : Flags) : Reach → Except Fault Part
  | .chunk => (f.finishSet true (.single '/')).map (setPart · 1)
  | .path => f.dotSet.map (setPart · 0)

theorem directive_valueSet {f : Flags} {reach : Reach} {p : Part}
    (h : valueSet f reach = .ok p) : p.directive = false := by
  cases reach with
  | chunk =>
      cases hset : f.finishSet true (.single '/') with
      | error e => simp [valueSet, hset, Except.map] at h
      | ok set =>
          simp only [valueSet, hset, Except.map, Except.ok.injEq] at h
          rw [← h]
          rfl
  | path =>
      cases hset : f.dotSet with
      | error e => simp [valueSet, hset, Except.map] at h
      | ok set =>
          simp only [valueSet, hset, Except.map, Except.ok.injEq] at h
          rw [← h]
          rfl

/-- The pattern of a value begins with its set. -/
theorem exists_step_value (reach : Reach) (rest : Text) :
    ∃ c cs, reach.body ++ rest = c :: cs ∧ isSeam c = true ∧ 2 + rest.length ≤ cs.length ∧
      ∀ r : Reader, r.step c cs =
        (valueSet r.flags reach).map fun p => (r.extended [p] 0, '+' :: '?' :: rest) := by
  cases reach with
  | chunk =>
      refine ⟨'[', '^' :: '/' :: '\x5D' :: '+' :: '?' :: rest, rfl, rfl, by simp; omega, ?_⟩
      intro r
      simp only [step, readBracket_notSlash, valueSet]
      cases r.flags.finishSet true (.single '/') <;> rfl
  | path =>
      refine ⟨'.', '+' :: '?' :: rest, rfl, rfl, by simp; omega, ?_⟩
      intro r
      simp only [step, valueSet]
      cases r.flags.dotSet <;> rfl

theorem step_plus (r : Reader) {p : Part} (hp : p.directive = false) (rest : Text) :
    (r.extended [p] 0).step '+' ('?' :: rest) =
      .ok (r.extended [repeatedPart r.flags.swapGreed ⟨1, none⟩ p] 0, rest) := by
  rw [step_repeat_extended r hp .plus, readLazy, Bool.true_beq]

def entered (r : Reader) : Reader :=
  { r with
    level := {}
    outer := ⟨some (r.groups + 1), r.level, r.flags⟩ :: r.outer
    groups := r.groups + 1 }

def groupPart (n : Nat) (p : Part) : Part := { regex := .group n p.regex, depth := p.depth + 1 }

theorem step_open (r : Reader) (reach : Reach) (rest : Text) :
    r.step '(' (reach.body ++ rest) = .ok (r.entered, reach.body ++ rest) := by
  obtain ⟨c, cs, hbody, hseam, _⟩ := exists_step_value reach rest
  have hsign : c ≠ '?' := by
    rintro rfl
    exact absurd hseam (by decide)
  have hopening : readOpening r.flags (c :: cs) = .ok (.capture none, c :: cs) := by
    unfold readOpening
    rw [r.flags.skip_seam hseam]
    split <;> simp_all
  simp only [step, hbody, hopening]
  rfl

theorem step_close (r : Reader) (p : Part) (rest : Text) :
    (r.entered.extended [p] 0).step ')' rest =
      .ok (r.extended [groupPart (r.groups + 1) p] 1, rest) := rfl

end Reader

end Regex

/-! ## The pieces of a template -/

namespace Template

open Regex (Part)
open Regex.Reader (Reads setPart repeatedPart groupPart extended)

def separatorParts (policy : Policy) : List Part :=
  if policy.mergeSlashes then [repeatedPart true ⟨1, none⟩ (setPart (slash policy) 0)]
  else [setPart (slash policy) 0]

def suffixParts (policy : Policy) (path : Text) : List Part :=
  if path = ['/'] then []
  else if path.getLast? = some '/' then separatorParts policy
  else if policy.ignoreTrailingSlashes then
    if policy.mergeSlashes then [repeatedPart true ⟨0, none⟩ (setPart (slash policy) 0)]
    else [repeatedPart true ⟨0, some 1⟩ (setPart (slash policy) 0)]
  else []

def valuePart (policy : Policy) : Reach → Part
  | .chunk => repeatedPart false ⟨1, none⟩ (setPart (flags policy).notSlash 1)
  | .path => repeatedPart false ⟨1, none⟩ (setPart Regex.Flags.notNewline 0)

namespace Piece

def fragment (policy : Policy) (path : Text) (g : Grouping) : Piece → Text
  | separator => Template.separator policy
  | element e => e.fragment g
  | suffix => Template.suffix policy path

/-- The parts of the pattern of a piece, `n` being the index of the next group. -/
def parts (policy : Policy) (path : Text) (g : Grouping) (n : Nat) : Piece → List Part
  | separator => separatorParts policy
  | element (.literal text _) => text.map fun c => setPart ((flags policy).literalSet c) 0
  | element (.parameter _ reach) =>
    match g with
    | .plain => [valuePart policy reach]
    | .capturing => [groupPart n (valuePart policy reach)]
  | element .wildcard => [repeatedPart false ⟨0, none⟩ (setPart Regex.Flags.notNewline 0)]
  | suffix => suffixParts policy path

def groups (g : Grouping) : Piece → Nat
  | element (.parameter _ _) =>
    match g with
    | .plain => 0
    | .capturing => 1
  | _ => 0

/-- The piece is no literal that is a pattern of its own. -/
def Escaped : Piece → Prop
  | element (.literal _ raw) => raw = false
  | _ => True

end Piece

def partsFrom (policy : Policy) (path : Text) (g : Grouping) : Nat → List Piece → List Part
  | _, [] => []
  | n, p :: ps => p.parts policy path g n ++ partsFrom policy path g (n + p.groups g) ps

def groupsAll (g : Grouping) : List Piece → Nat
  | [] => 0
  | p :: ps => p.groups g + groupsAll g ps

variable {policy : Policy} {r : Regex.Reader}

theorem reads_slash (hf : r.flags = flags policy) (rest : Text) :
    Reads r ('/' :: rest) (r.extended [setPart (slash policy) 0] 0) rest := by
  have h := Regex.Reader.step_plain r (c := '/') (by decide) rest
  rw [hf] at h
  exact .step (by rw [hf]; rfl) h (Nat.le_refl _)

theorem reads_separator (hf : r.flags = flags policy) {rest : Text}
    (hrest : rest.head? ≠ some '?') :
    Reads r (separator policy ++ rest) (r.extended (separatorParts policy) 0) rest := by
  unfold separator separatorParts
  split
  · exact (reads_slash hf ('+' :: rest)).trans
      ((Regex.Reader.reads_repeat ⟨policy, hf⟩ .plus rfl rest).1 hrest)
  · exact reads_slash hf rest

theorem reads_suffix (hf : r.flags = flags policy) (path : Text) {rest : Text}
    (hrest : rest.head? ≠ some '?') :
    Reads r (suffix policy path ++ rest) (r.extended (suffixParts policy path) 0) rest := by
  unfold suffix suffixParts
  split
  · exact .refl r rest
  · split
    · exact reads_separator hf hrest
    · split
      · split
        · exact (reads_slash hf ('*' :: rest)).trans
            ((Regex.Reader.reads_repeat ⟨policy, hf⟩ .star rfl rest).1 hrest)
        · exact (reads_slash hf ('?' :: rest)).trans
            ((Regex.Reader.reads_repeat ⟨policy, hf⟩ .optional rfl rest).1 hrest)
      · exact .refl r rest

theorem reads_escape (hf : r.flags = flags policy) (text rest : Text) :
    Reads r (Regex.escape text ++ rest)
      (r.extended (text.map fun c => setPart ((flags policy).literalSet c) 0) 0) rest := by
  induction text generalizing r with
  | nil => exact .refl r rest
  | cons c cs ih =>
      have hverbose : r.flags.verbose = false := by rw [hf]; rfl
      have hunicode : r.flags.unicode = true := by rw [hf]; rfl
      have hrest := ih (r := r.extended [setPart ((flags policy).literalSet c) 0] 0) hf
      rw [Regex.Reader.extended_extended] at hrest
      refine Reads.trans ?_ hrest
      have hcons : Regex.escape (c :: cs) ++ rest =
          Regex.escapeChar c ++ (Regex.escape cs ++ rest) := by
        simp [Regex.escape]
      rw [hcons, ← hf]
      unfold Regex.escapeChar
      cases hc : Regex.isMeta c with
      | true => exact .step hverbose (Regex.Reader.step_escaped hunicode hc _) (by simp)
      | false => exact .step hverbose (Regex.Reader.step_plain r hc _) (by simp)

theorem reads_dot (hf : r.flags = flags policy) (rest : Text) :
    Reads r ('.' :: rest) (r.extended [setPart Regex.Flags.notNewline 0] 0) rest := by
  have h : r.step '.' rest = .ok (r.extended [setPart Regex.Flags.notNewline 0] 0, rest) := by
    simp only [Regex.Reader.step, hf]
    rfl
  exact .step (by rw [hf]; rfl) h (Nat.le_refl _)

theorem reads_value (hf : r.flags = flags policy) (reach : Reach) (rest : Text) :
    Reads r (reach.body ++ rest) (r.extended [valuePart policy reach] 0) rest := by
  obtain ⟨c, cs, hbody, _, hlength, hstep⟩ := Regex.Reader.exists_step_value reach rest
  obtain ⟨p, hp, hvalue⟩ : ∃ p, Regex.Reader.valueSet (flags policy) reach = .ok p ∧
      valuePart policy reach = repeatedPart false ⟨1, none⟩ p := by
    cases reach <;> exact ⟨_, rfl, rfl⟩
  have hset : r.step c cs = .ok (r.extended [p] 0, '+' :: '?' :: rest) := by
    rw [hstep, hf, hp]
    rfl
  rw [hbody, hvalue]
  exact (Reads.step (by rw [hf]; rfl) hset (by simp; omega)).trans
    (Regex.Reader.reads_repeat ⟨policy, hf⟩ .plus
      (Regex.Reader.directive_valueSet hp) rest).2

theorem reads_group (hf : r.flags = flags policy) (reach : Reach) (rest : Text) :
    Reads r ('(' :: reach.body ++ ')' :: rest)
      (r.extended [groupPart (r.groups + 1) (valuePart policy reach)] 1) rest := by
  have hverbose : r.flags.verbose = false := by rw [hf]; rfl
  have hopen := Regex.Reader.step_open r reach (')' :: rest)
  have hvalue := reads_value (r := r.entered) hf reach (')' :: rest)
  have hclose := Regex.Reader.step_close r (valuePart policy reach) rest
  exact (Reads.step hverbose hopen (Nat.le_refl _)).trans
    (hvalue.trans (.step hverbose hclose (Nat.le_refl _)))

namespace Piece

/-- The pattern of a piece is read as its parts, whatever follows it, unless that begins
with a question mark. -/
theorem reads_fragment (hf : r.flags = flags policy) (path : Text) (g : Grouping) {p : Piece}
    (hp : p.Escaped) {rest : Text} (hrest : rest.head? ≠ some '?') :
    Reads r (p.fragment policy path g ++ rest)
      (r.extended (p.parts policy path g (r.groups + 1)) (p.groups g)) rest := by
  cases p with
  | separator => exact reads_separator hf hrest
  | suffix => exact reads_suffix hf path hrest
  | element e =>
      cases e with
      | literal text raw =>
          obtain rfl : raw = false := hp
          exact reads_escape hf text rest
      | parameter name reach =>
          cases g with
          | plain => exact reads_value hf reach rest
          | capturing =>
              have hsplit : fragment policy path .capturing (element (.parameter name reach)) ++
                  rest = '(' :: reach.body ++ ')' :: rest := by
                simp [fragment, Element.fragment]
              rw [hsplit]
              exact reads_group hf reach rest
      | wildcard =>
          exact (reads_dot hf ('*' :: '?' :: rest)).trans
            (Regex.Reader.reads_repeat ⟨policy, hf⟩ .star rfl rest).2

/-- No pattern of a piece begins with a question mark. -/
theorem head?_fragment (policy : Policy) (path : Text) (g : Grouping) {p : Piece}
    (hp : p.Escaped) {rest : Text} (hrest : rest.head? ≠ some '?') :
    (p.fragment policy path g ++ rest).head? ≠ some '?' := by
  cases p with
  | separator =>
      simp only [fragment, Template.separator]
      split <;> simp
  | suffix =>
      simp only [fragment, Template.suffix, Template.separator]
      split
      · exact hrest
      · split
        · split <;> simp
        · split
          · split <;> simp
          · exact hrest
  | element e =>
      cases e with
      | literal text raw =>
          obtain rfl : raw = false := hp
          cases text with
          | nil => exact hrest
          | cons c cs =>
              cases hc : Regex.isMeta c with
              | true =>
                  simp [fragment, Element.fragment, Regex.escape, Regex.escapeChar, hc]
              | false =>
                  have hne : c ≠ '?' := by
                    rintro rfl
                    exact absurd hc (by decide)
                  simpa [fragment, Element.fragment, Regex.escape, Regex.escapeChar, hc] using hne
      | parameter name reach =>
          cases g <;> cases reach <;> simp [fragment, Element.fragment, Reach.body]
      | wildcard => simp [fragment, Element.fragment, Element.wildcardBody]

end Piece

theorem head?_fragments (policy : Policy) (path : Text) (g : Grouping) {ps : List Piece}
    (hps : ∀ p ∈ ps, p.Escaped) {rest : Text} (hrest : rest.head? ≠ some '?') :
    (ps.flatMap (Piece.fragment policy path g) ++ rest).head? ≠ some '?' := by
  induction ps with
  | nil => exact hrest
  | cons p ps ih =>
      rw [List.flatMap_cons, List.append_assoc]
      exact Piece.head?_fragment policy path g (hps p (by simp))
        (ih fun q hq => hps q (by simp [hq]))

/-- The patterns of pieces are read as their parts. -/
theorem reads_fragments (hf : r.flags = flags policy) (path : Text) (g : Grouping)
    {ps : List Piece} (hps : ∀ p ∈ ps, p.Escaped) {rest : Text}
    (hrest : rest.head? ≠ some '?') :
    Reads r (ps.flatMap (Piece.fragment policy path g) ++ rest)
      (r.extended (partsFrom policy path g (r.groups + 1) ps) (groupsAll g ps)) rest := by
  induction ps generalizing r with
  | nil => exact .refl r rest
  | cons p ps ih =>
      have hps' : ∀ q ∈ ps, q.Escaped := fun q hq => hps q (by simp [hq])
      have hhead := head?_fragments policy path g hps' hrest
      have hp := Piece.reads_fragment hf path g (hps p (by simp)) hhead
      have hrest' :=
        ih (r := r.extended (p.parts policy path g (r.groups + 1)) (p.groups g)) hf hps'
      rw [Regex.Reader.extended_extended] at hrest'
      have hgroups : r.groups + p.groups g + 1 = r.groups + 1 + p.groups g := by omega
      have hnext : partsFrom policy path g (r.groups + 1) (p :: ps) =
          p.parts policy path g (r.groups + 1) ++
            partsFrom policy path g (r.groups + p.groups g + 1) ps := by
        rw [partsFrom, hgroups]
      rw [List.flatMap_cons, List.append_assoc, hnext, groupsAll]
      exact hp.trans hrest'

/-! ## Whole patterns -/

def regexOf (policy : Policy) (path : Text) (g : Grouping) (ps : List Piece) : Regex :=
  .catAll (.look .textStart :: (partsFrom policy path g 1 ps).map (·.regex) ++ [.look .textEnd])

theorem depth_parts_le (policy : Policy) (path : Text) (g : Grouping) (n : Nat) (p : Piece) :
    ∀ part ∈ p.parts policy path g n, part.depth ≤ 3 := by
  have hseparator : ∀ part ∈ separatorParts policy, part.depth ≤ 3 := by
    unfold separatorParts
    split <;> simp [setPart, repeatedPart]
  have hvalue (reach : Reach) : (valuePart policy reach).depth ≤ 2 := by
    cases reach <;> simp [valuePart, setPart, repeatedPart]
  cases p with
  | separator => exact hseparator
  | suffix =>
      simp only [Piece.parts, suffixParts]
      split
      · simp
      · split
        · exact hseparator
        · split
          · split <;> simp [setPart, repeatedPart]
          · simp
  | element e =>
      cases e with
      | literal text raw => simp [Piece.parts, setPart]
      | parameter name reach =>
          have h := hvalue reach
          cases g <;> simp [Piece.parts, groupPart] <;> omega
      | wildcard => simp [Piece.parts, setPart, repeatedPart]

theorem depth_partsFrom_le (policy : Policy) (path : Text) (g : Grouping) (n : Nat)
    (ps : List Piece) : ∀ part ∈ partsFrom policy path g n ps, part.depth ≤ 3 := by
  induction ps generalizing n with
  | nil => simp [partsFrom]
  | cons p ps ih =>
      intro part hpart
      rcases List.mem_append.mp hpart with hpart | hpart
      · exact depth_parts_le policy path g n p part hpart
      · exact ih _ part hpart

theorem foldl_max_le {ns : List Nat} {m b : Nat} (hm : m ≤ b) (h : ∀ n ∈ ns, n ≤ b) :
    ns.foldl max m ≤ b := by
  induction ns generalizing m with
  | nil => exact hm
  | cons n ns ih =>
      refine ih ?_ fun x hx => h x (by simp [hx])
      have hn := h n (by simp)
      omega

theorem sequence_eq {ps : List Part} (h : 2 ≤ ps.length) :
    Regex.Level.sequence ps =
      { regex := .catAll (ps.reverse.map (·.regex))
        depth := 1 + (ps.map (·.depth)).foldl max 0 } := by
  match ps with
  | [] => simp at h
  | [p] => simp at h
  | p :: q :: ps => rfl

def startPart : Part := { regex := .look .textStart }

@[inherit_doc startPart]
def endPart : Part := { regex := .look .textEnd }

def started (policy : Policy) : Regex.Reader :=
  Regex.Reader.extended { flags := flags policy } [startPart] 0

/-- A text between the signs for the ends of the text is read as its parts between theirs. -/
theorem loop_anchored {body : Text} {parts : List Part}
    (hreads : Reads (started policy) (body ++ ['$']) r ['$'])
    (hadds : (started policy).Adds parts r) :
    ∃ q, Regex.Reader.loop ('^' :: body ++ ['$']).length { flags := flags policy }
        ('^' :: body ++ ['$']) = .ok q ∧
      q.outer = [] ∧ q.level = ⟨[], endPart :: (parts.reverse ++ [startPart])⟩ := by
  have hflags : r.flags = flags policy := hadds.flags
  have hbegin : Reads { flags := flags policy } ('^' :: (body ++ ['$'])) (started policy)
      (body ++ ['$']) := .step rfl rfl (Nat.le_refl _)
  have hend : Reads r ['$'] (r.extended [endPart] 0) [] := by
    refine .step (by rw [hflags]; rfl) ?_ (Nat.le_refl _)
    simp only [Regex.Reader.step, hflags]
    rfl
  have hadded := hadds.trans (r.adds_extended [endPart] 0)
  have hloop := (hbegin.trans (hreads.trans hend)).loop_eq (by rw [hadded.flags]; rfl)
    (Nat.le_refl _)
  refine ⟨_, hloop, hadded.outer, ?_⟩
  rw [hadded.level, List.reverse_append]
  rfl

/-- Reading a text as a pattern is finishing what has been read at its end. -/
theorem read_of_loop {s : Text}
    (h : Regex.Reader.loop s.length { flags := flags policy } s = .ok r) :
    Regex.read policy.caseless s = r.finish := by
  have hflags : ({ flags := { caseless := policy.caseless } } : Regex.Reader) =
      { flags := flags policy } := rfl
  rw [Regex.read, hflags, h]

/-- The pattern of pieces is a pattern, and it is the one that its parts make. -/
theorem read_fragments (policy : Policy) (path : Text) (g : Grouping) {ps : List Piece}
    (hps : ∀ p ∈ ps, p.Escaped) :
    Regex.read policy.caseless
      ('^' :: ps.flatMap (Piece.fragment policy path g) ++ ['$']) =
        .ok (regexOf policy path g ps) := by
  let inner := partsFrom policy path g 1 ps
  have hreads : Reads (started policy) (ps.flatMap (Piece.fragment policy path g) ++ ['$'])
      ((started policy).extended inner (groupsAll g ps)) ['$'] := by
    have hhead : ['$'].head? ≠ some '?' := by simp
    exact reads_fragments rfl path g hps hhead
  obtain ⟨q, hloop, houter, hlevel⟩ :=
    loop_anchored hreads ((started policy).adds_extended inner (groupsAll g ps))
  have hclose : q.level.close =
      { regex := regexOf policy path g ps
        depth := 1 + ((endPart :: (inner.reverse ++ [startPart])).map (·.depth)).foldl max 0 } := by
    have hsequence : q.level.close =
        Regex.Level.sequence (endPart :: (inner.reverse ++ [startPart])) := by
      rw [hlevel]
      rfl
    rw [hsequence, sequence_eq (by simp)]
    simp [regexOf, startPart, endPart, inner]
  have hdepth : ((endPart :: (inner.reverse ++ [startPart])).map (·.depth)).foldl max 0 ≤ 3 := by
    apply foldl_max_le (by omega)
    intro n hn
    obtain ⟨part, hpart, rfl⟩ := List.mem_map.mp hn
    simp only [List.mem_cons, List.mem_append, List.mem_reverse, List.not_mem_nil, or_false]
      at hpart
    rcases hpart with rfl | hpart | rfl
    · simp [endPart]
    · exact depth_partsFrom_le policy path g 1 ps part hpart
    · simp [startPart]
  have hshallow : ¬Regex.Reader.maxDepth <
      1 + ((endPart :: (inner.reverse ++ [startPart])).map (·.depth)).foldl max 0 := by
    unfold Regex.Reader.maxDepth
    omega
  rw [read_of_loop hloop]
  simp only [Regex.Reader.finish, houter, hclose, hshallow, ite_false]

end Template

end PathRouting

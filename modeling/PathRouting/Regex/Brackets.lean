import PathRouting.Regex.Escapes

/-! Bracketed sets of characters: members, ranges, named ASCII classes, nested brackets
and the operations between sets, which bind alike and to the left. -/

namespace PathRouting.Regex

/-- A set with the depth to which brackets, unions and operations are nested in it. -/
structure Nested where
  set : CharSet
  depth : Nat

/-- An operation between two sets. -/
inductive SetOp where
  | inter
  | diff
  | symmDiff

def SetOp.apply : SetOp → CharSet → CharSet → CharSet
  | inter, a, b => .inter a b
  | diff, a, b => .diff a b
  | symmDiff, a, b => .symmDiff a b

def setOp? : Text → Option (SetOp × Text)
  | '&' :: '&' :: rest => some (.inter, rest)
  | '-' :: '-' :: rest => some (.diff, rest)
  | '~' :: '~' :: rest => some (.symmDiff, rest)
  | _ => none

/-- What has been read between two brackets: whether they are negated, the left side of
an operation that waits for its right side, and the members since then, last first. -/
structure Bracket where
  negated : Bool
  left : Option (Nested × SetOp) := none
  members : List Nested := []

namespace Bracket

def union (b : Bracket) : Nested :=
  match b.members with
  | [] => ⟨.none, 0⟩
  | [m] => m
  | ms => ⟨.unions (ms.reverse.map (·.set)), 1 + (ms.map (·.depth)).foldl max 0⟩

/-- An operand of an operation, closed under case if the flags ask for it. -/
def operand (f : Flags) (s : CharSet) : CharSet :=
  if f.caseless then (if f.unicode then .folded s else .inter (.folded s) (.range '\x00' '\x7F'))
  else s

def total (f : Flags) (b : Bracket) : Nested :=
  match b.left with
  | none => b.union
  | some (l, op) =>
    let r := b.union
    ⟨op.apply (operand f l.set) (operand f r.set), 1 + max l.depth r.depth⟩

def withOp (f : Flags) (b : Bracket) (op : SetOp) : Bracket :=
  { b with left := some (b.total f, op), members := [] }

def add (b : Bracket) (m : Nested) : Bracket := { b with members := m :: b.members }

end Bracket

/-- Reads the hyphens that stand for themselves at the front of brackets. -/
def leadingHyphens (f : Flags) (b : Bracket) : Nat → Text → Reading Bracket
  | 0, s => .ok (b, s)
  | n + 1, s =>
    match s with
    | [] => .error .unfinished
    | '-' :: cs => leadingHyphens f (b.add ⟨.single '-', 0⟩) n (f.skip cs)
    | cs => .ok (b, cs)

/-- Reads what follows an opening bracket: the sign of negation, hyphens, or else a
closing bracket that stands for itself. -/
def openBracket (f : Flags) (s : Text) : Reading Bracket :=
  let (negated, s) : Bool × Text :=
    match f.skip s with
    | '^' :: cs => (true, f.skip cs)
    | cs => (false, cs)
  match leadingHyphens f { negated := negated } (s.length + 1) s with
  | .error e => .error e
  | .ok (b, '\x5D' :: cs) =>
    if b.members.isEmpty then
      match f.skip cs with
      | [] => .error .unfinished
      | rest => .ok (b.add ⟨.single '\x5D', 0⟩, rest)
    else .ok (b, '\x5D' :: cs)
  | .ok (b, rest) => .ok (b, rest)

/-- Reads a named ASCII class after an opening bracket, if there is one. -/
def asciiClassAt? (s : Text) : Option (Bool × CharSet × Text) :=
  match s with
  | ':' :: cs =>
    let (negated, cs) : Bool × Text :=
      match cs with
      | '^' :: ds => (true, ds)
      | ds => (false, ds)
    match cs.dropWhile (· != ':') with
    | ':' :: '\x5D' :: rest =>
      (CharSet.asciiClass? (cs.takeWhile (· != ':'))).map fun s => (negated, s, rest)
    | _ => none
  | _ => none

/-- Reads one end of a range or a member on its own. -/
def bracketItem (f : Flags) : Text → Reading Escape
  | [] => .error .unfinished
  | '\\' :: cs => readEscape f cs
  | c :: cs => .ok (.char c false, cs)

/-- A character as a bound of a range; without Unicode mode it has to be ASCII. -/
def bound (f : Flags) (e : Escape) : Except Fault Char :=
  match e with
  | .char c _ => if f.unicode || c.toNat < 0x80 then .ok c else .error .needsUnicode
  | _ => .error .badMember

/-- Reads a member: one character, a range or a set that an escape writes. -/
def bracketMember (f : Flags) (s : Text) : Reading Nested :=
  match bracketItem f s with
  | .error e => .error e
  | .ok (low, rest) =>
    match f.skip rest with
    | [] => .error .unfinished
    | '-' :: cs =>
      if f.peek cs == some '\x5D' || f.peek cs == some '-' then alone low ('-' :: cs)
      else
        match bracketItem f (f.skip cs) with
        | .error e => .error e
        | .ok (high, rest) =>
          match bound f low, bound f high with
          | .ok a, .ok b =>
            if a.toNat ≤ b.toNat then .ok (⟨.range a b, 0⟩, rest) else .error .emptyRange
          | .error e, _ => .error e
          | _, .error e => .error e
    | cs => alone low cs
where
  /-- A member that is not the start of a range. -/
  alone (e : Escape) (rest : Text) : Reading Nested :=
    match e with
    | .set s => .ok (⟨s, 0⟩, rest)
    | .look _ => .error .badMember
    | .char .. =>
      match bound f e with
      | .error e => .error e
      | .ok c => .ok (⟨.single c, 0⟩, rest)

/-- Reads the rest of a bracketed set up to the bracket that closes it; `outer` are the
sets in which it is nested, the innermost first. -/
def bracketLoop (f : Flags) : Nat → Bracket → List Bracket → Text → Reading Nested
  | 0, _, _, _ => .error .unfinished
  | n + 1, b, outer, s =>
    match f.skip s with
    | [] => .error .unfinished
    | '[' :: cs =>
      match asciiClassAt? cs with
      | some (negated, set, rest) =>
        match f.finishSet negated set with
        | .error e => .error e
        | .ok set => bracketLoop f n (b.add ⟨set, 0⟩) outer rest
      | none =>
        match openBracket f cs with
        | .error e => .error e
        | .ok (inner, rest) => bracketLoop f n inner (b :: outer) rest
    | '\x5D' :: cs =>
      let whole := b.total f
      match f.finishSet b.negated whole.set with
      | .error e => .error e
      | .ok set =>
        let done : Nested := ⟨set, whole.depth + 1⟩
        match outer with
        | [] => .ok (done, cs)
        | o :: os => bracketLoop f n (o.add done) os cs
    | cs =>
      match setOp? cs with
      | some (op, rest) => bracketLoop f n (b.withOp f op) outer rest
      | none =>
        match bracketMember f cs with
        | .error e => .error e
        | .ok (m, rest) => bracketLoop f n (b.add m) outer rest

def readBracket (f : Flags) (s : Text) : Reading Nested :=
  match openBracket f s with
  | .error e => .error e
  | .ok (b, rest) => bracketLoop f (s.length + 1) b [] rest

end PathRouting.Regex

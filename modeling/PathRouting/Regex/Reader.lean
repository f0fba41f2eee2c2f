import PathRouting.Regex.Brackets
import PathRouting.Regex.Groups
import PathRouting.Regex.Counts

/-! Reading a pattern. The reader takes one part off the front of the text at a time and
keeps the groups that are still open on a stack, so that reading two texts one after the
other is reading them written together wherever no part runs across the seam. -/

namespace PathRouting.Regex

/-- A part of a pattern. `directive` marks a part that only sets flags, which cannot be
repeated; `depth` is the depth to which groups, repetitions, alternatives and sequences
are nested in it. -/
structure Part where
  regex : Regex
  depth : Nat := 0
  directive : Bool := false

/-- The parts since the last opening parenthesis: the finished alternatives and the parts
of the current one, both last first. -/
structure Level where
  branches : List Part := []
  parts : List Part := []

namespace Level

def push (l : Level) (p : Part) : Level := { l with parts := p :: l.parts }

def sequence (parts : List Part) : Part :=
  match parts with
  | [] => { regex := .empty }
  | [p] => { p with directive := false }
  | ps =>
    { regex := .catAll (ps.reverse.map (·.regex))
      depth := 1 + (ps.map (·.depth)).foldl max 0 }

def bar (l : Level) : Level := ⟨sequence l.parts :: l.branches, []⟩

/-- The whole level as one part. -/
def close (l : Level) : Part :=
  match l.branches with
  | [] => sequence l.parts
  | bs =>
    let all := sequence l.parts :: bs
    { regex := .altAll (all.reverse.map (·.regex))
      depth := 1 + (all.map (·.depth)).foldl max 0 }

end Level

/-- A group that is still open: its index if it remembers, and the level and the flags
around it. -/
structure OpenGroup where
  index : Option Nat
  level : Level
  flags : Flags

/-- What has been read of a pattern. -/
structure Reader where
  flags : Flags
  level : Level := {}
  outer : List OpenGroup := []
  groups : Nat := 0
  names : List Text := []

namespace Reader

def push (r : Reader) (p : Part) : Reader := { r with level := r.level.push p }

def pushSet (r : Reader) (s : CharSet) : Reader := r.push { regex := .one s }

def pushLook (r : Reader) (l : Look) : Reader := r.push { regex := .look l }

/-- Begins a group or follows a directive. -/
def openGroup (r : Reader) : Opening → Except Fault Reader
  | .directive f => .ok { r.push { regex := .empty, directive := true } with flags := f }
  | .plain f =>
    .ok { r with flags := f, level := {}, outer := ⟨none, r.level, r.flags⟩ :: r.outer }
  | .capture name =>
    if name.any r.names.contains then .error .duplicateGroupName
    else
      .ok { r with
        level := {}
        outer := ⟨some (r.groups + 1), r.level, r.flags⟩ :: r.outer
        groups := r.groups + 1
        names := name.toList ++ r.names }

def closeGroup (r : Reader) : Except Fault Reader :=
  match r.outer with
  | [] => .error .unopenedGroup
  | g :: gs =>
    let inner := r.level.close
    let regex :=
      match g.index with
      | some i => .group i inner.regex
      | none => inner.regex
    .ok { r with
      flags := g.flags
      level := g.level.push { regex := regex, depth := inner.depth + 1 }
      outer := gs }

/-- The room that a repetition may take when it is written out. -/
def maxWeight : Nat := 327680

/-- Repeats the last part. -/
def repeatLast (r : Reader) (greedy : Bool) (count : Count) : Except Fault Reader :=
  match r.level.parts with
  | [] => .error .nothingToRepeat
  | p :: ps =>
    if p.directive then .error .nothingToRepeat
    else
      let regex := Regex.repeated greedy count.least count.extra p.regex
      if 1 < count.least + count.extra.getD 0 ∧ maxWeight < regex.weight then .error .tooLarge
      else
        let part : Part := { regex := regex, depth := p.depth + 1 }
        .ok { r with level := { r.level with parts := part :: ps } }

def escape (r : Reader) (s : Text) : Reading Reader :=
  match readEscape r.flags s with
  | .error e => .error e
  | .ok (.char c byte, rest) =>
    if !r.flags.unicode && byte && 0x80 ≤ c.toNat then .error .needsUnicode
    else .ok (r.pushSet (r.flags.literalSet c), rest)
  | .ok (.set set, rest) => .ok (r.pushSet set, rest)
  | .ok (.look l, rest) => .ok (r.pushLook l, rest)

/-- Reads the part that begins with the character `c`, the text after it being `cs`. -/
def step (r : Reader) (c : Char) (cs : Text) : Reading Reader :=
  match c with
  | '(' =>
    match readOpening r.flags cs with
    | .error e => .error e
    | .ok (opening, rest) =>
      match r.openGroup opening with
      | .error e => .error e
      | .ok r => .ok (r, rest)
  | ')' =>
    match r.closeGroup with
    | .error e => .error e
    | .ok r => .ok (r, cs)
  | '|' => .ok ({ r with level := r.level.bar }, cs)
  | '[' =>
    match readBracket r.flags cs with
    | .error e => .error e
    | .ok (b, rest) => .ok (r.push { regex := .one b.set, depth := b.depth }, rest)
  | '\\' => r.escape cs
  | '.' =>
    match r.flags.dotSet with
    | .error e => .error e
    | .ok s => .ok (r.pushSet s, cs)
  | '^' => .ok (r.pushLook r.flags.startLook, cs)
  | '$' => .ok (r.pushLook r.flags.endLook, cs)
  | c =>
    match readRepeat r.flags (c :: cs) with
    | some (.error e) => .error e
    | some (.ok ((greedy, count), rest)) =>
      match r.repeatLast greedy count with
      | .error e => .error e
      | .ok r => .ok (r, rest)
    | none => .ok (r.pushSet (r.flags.literalSet c), cs)

/-- Reads parts up to the end of the text. The number bounds the parts that are read;
the length of the text is enough. -/
def loop : Nat → Reader → Text → Except Fault Reader
  | n, r, s =>
    match r.flags.skip s with
    | [] => .ok r
    | c :: cs =>
      match n with
      | 0 => .error .unfinished
      | n + 1 =>
        match r.step c cs with
        | .error e => .error e
        | .ok (r, rest) => loop n r rest

def maxDepth : Nat := 250

/-- The pattern that has been read, once the text has ended. -/
def finish (r : Reader) : Except Fault Regex :=
  match r.outer with
  | _ :: _ => .error .unfinished
  | [] =>
    let whole := r.level.close
    if maxDepth < whole.depth then .error .tooNested else .ok whole.regex

end Reader

/-- The pattern that a text writes. With `caseless` it is read as if case did not count
anywhere. -/
def read (caseless : Bool) (s : Text) : Except Fault Regex :=
  match Reader.loop s.length { flags := { caseless := caseless } } s with
  | .error e => .error e
  | .ok r => r.finish

end PathRouting.Regex

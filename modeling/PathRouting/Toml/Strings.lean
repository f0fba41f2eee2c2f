import PathRouting.Toml.Lexical

/-! TOML strings. Strings in three quotes run over several lines; a run of quotes ends
such a string when it is at least three long, and up to two quotes of it still belong to
the string. -/

namespace PathRouting.Toml

/-- What a run of `count` quotes means in a string in three quotes: the quotes that belong
to the string, and whether the string ends. -/
def quoteRun? (count : Nat) : Option (Nat × Bool) :=
  if count < 3 then some (count, false)
  else if count < 6 then some (count - 3, true)
  else none

def skipWhite : Nat → Text → Text
  | 0, s => s
  | n + 1, s =>
    match newline? (skipBlanks s) with
    | some rest => skipWhite n rest
    | none => skipBlanks s

/-- The text after a backslash that ends a line, with the white space that it joins. -/
def lineJoin? (s : Text) : Option Text :=
  (newline? (skipBlanks s)).map fun rest => skipWhite (rest.length + 1) rest

/-- Reads the rest of a string in three quotes of the kind `quote`, with escapes if they
are double quotes. The number bounds its parts. -/
def longRest? (quote : Char) : Nat → Scan Text
  | 0, _ => none
  | n + 1, s =>
    match s with
    | [] => none
    | c :: cs =>
      if c = quote then
        let more := (cs.takeWhile (· == quote)).length
        match quoteRun? (more + 1) with
        | none => none
        | some (kept, ends) =>
          let quotes := List.replicate kept quote
          if ends then some (quotes, cs.drop more)
          else (longRest? quote n (cs.drop more)).map fun (t, rest) => (quotes ++ t, rest)
      else if c = '\\' ∧ quote = '"' then
        match lineJoin? cs with
        | some rest => longRest? quote n rest
        | none =>
          match escape? cs with
          | none => none
          | some (c, cs) => (longRest? quote n cs).map fun (t, rest) => (c :: t, rest)
      else
        match newline? (c :: cs) with
        | some cs => (longRest? quote n cs).map fun (t, rest) => ('\n' :: t, rest)
        | none =>
          if isPrintable c then (longRest? quote n cs).map fun (t, rest) => (c :: t, rest)
          else none

/-- Reads a string in three quotes after the opening ones; a line end that follows them
does not count. -/
def long? (quote : Char) (s : Text) : Option (Text × Text) :=
  let s := (newline? s).getD s
  longRest? quote (s.length + 1) s

def string? : Scan Text
  | '"' :: '"' :: '"' :: cs => long? '"' cs
  | '\'' :: '\'' :: '\'' :: cs => long? '\'' cs
  | '"' :: cs => basicRest? (cs.length + 1) cs
  | '\'' :: cs => literalRest? cs
  | _ => none

end PathRouting.Toml

import Mathlib.Data.List.TakeWhile
import PathRouting.Json.Basic
import PathRouting.Text.Percent

/-! # Reading printed values

A reader of JSON texts that knows nothing of their layout: white space may stand between any two
tokens, and a string may write a character in any of its spellings. It reads every printed value
back, so what is printed tells the value. -/

namespace PathRouting.Json

/-! ## Reading -/

def isSpace (c : Char) : Bool := [' ', '\n', '\r', '\t'].contains c

/-- The character that a backslash and a letter stand for. -/
def unescape? : Char → Option Char
  | '"' => some '"'
  | '\\' => some '\\'
  | '/' => some '/'
  | 'b' => some '\x08'
  | 'f' => some '\x0C'
  | 'n' => some '\n'
  | 'r' => some '\r'
  | 't' => some '\t'
  | _ => none

/-- The character with a code point in four hexadecimal digits. -/
def codePoint? (digits : Text) : Option Char :=
  (digits.mapM Percent.digitValue?).bind fun values =>
    let n := values.foldl (fun n d => n * 16 + d) 0
    if n.isValidChar then some (Char.ofNat n) else none

/-- Reads a string behind its first quote, to the end of the other one. -/
def readString? : Text → Option (Text × Text)
  | [] => none
  | '"' :: cs => some ([], cs)
  | '\\' :: 'u' :: a :: b :: c :: d :: cs =>
    (codePoint? [a, b, c, d]).bind fun c => (readString? cs).map fun (t, rest) => (c :: t, rest)
  | '\\' :: c :: cs =>
    (unescape? c).bind fun c => (readString? cs).map fun (t, rest) => (c :: t, rest)
  | c :: cs =>
    if c.toNat < 0x20 then none else (readString? cs).map fun (t, rest) => (c :: t, rest)

def readName? (s : Text) : Option (String × Text) :=
  match s.dropWhile isSpace with
  | '"' :: cs =>
    (readString? cs).bind fun (t, rest) =>
      match rest.dropWhile isSpace with
      | ':' :: rest => some (String.ofList t, rest)
      | _ => none
  | _ => none

mutual

/-- Reads a value. No value is nested deeper than the given number. -/
def readValue? : Nat → Text → Option (Json × Text)
  | 0, _ => none
  | n + 1, s =>
    match s.dropWhile isSpace with
    | 'n' :: 'u' :: 'l' :: 'l' :: rest => some (null, rest)
    | 't' :: 'r' :: 'u' :: 'e' :: rest => some (bool true, rest)
    | 'f' :: 'a' :: 'l' :: 's' :: 'e' :: rest => some (bool false, rest)
    | '"' :: cs => (readString? cs).map fun (t, rest) => (string (String.ofList t), rest)
    | '[' :: cs =>
      match cs.dropWhile isSpace with
      | ']' :: rest => some (array [], rest)
      | cs =>
        (readValue? n cs).bind fun (v, rest) =>
          (readItems? n rest).map fun (vs, rest) => (array (v :: vs), rest)
    | '\x7B' :: cs =>
      match cs.dropWhile isSpace with
      | '\x7D' :: rest => some (object [], rest)
      | cs =>
        (readName? cs).bind fun (k, rest) =>
          (readValue? n rest).bind fun (v, rest) =>
            (readFields? n rest).map fun (fs, rest) => (object ((k, v) :: fs), rest)
    | cs =>
      let digits := cs.takeWhile Char.isDigit
      if digits = [] then none
      else some (number (String.ofList digits), cs.dropWhile Char.isDigit)

def readItems? : Nat → Text → Option (List Json × Text)
  | 0, _ => none
  | n + 1, s =>
    match s.dropWhile isSpace with
    | ']' :: rest => some ([], rest)
    | ',' :: cs =>
      (readValue? n cs).bind fun (v, rest) =>
        (readItems? n rest).map fun (vs, rest) => (v :: vs, rest)
    | _ => none

def readFields? : Nat → Text → Option (List (String × Json) × Text)
  | 0, _ => none
  | n + 1, s =>
    match s.dropWhile isSpace with
    | '\x7D' :: rest => some ([], rest)
    | ',' :: cs =>
      (readName? cs).bind fun (k, rest) =>
        (readValue? n rest).bind fun (v, rest) =>
          (readFields? n rest).map fun (fs, rest) => ((k, v) :: fs, rest)
    | _ => none

end

/-- The value that a whole text writes. -/
def read? (s : Text) : Option Json :=
  (readValue? s.length s).bind fun (v, rest) =>
    if rest.all isSpace then some v else none

/-! ## Strings -/

variable {c c' : Char} {s rest : Text} {n d depth : Nat} {v : Json}

theorem readString?_cons (hquote : c ≠ '"') (hslash : c ≠ '\\') (hc : ¬c.toNat < 0x20) :
    readString? (c :: s) = (readString? s).map fun (t, rest) => (c :: t, rest) := by
  rw [readString?]
  · rw [if_neg hc]
  · exact hquote
  · intro _ _ _ _ _ h
    exact absurd h hslash
  · intro _ _ h
    exact absurd h hslash

theorem readString?_escape (hletter : c ≠ 'u') (hc : unescape? c = some c') :
    readString? ('\\' :: c :: s) = (readString? s).map fun (t, rest) => (c' :: t, rest) := by
  rw [readString?]
  · rw [hc, Option.bind_some]
  · intro _ _ _ _ _ h
    exact absurd h hletter

theorem codePoint?_hexDigit (h : n < 0x20) :
    codePoint? ['0', '0', hexDigit (n / 16), hexDigit (n % 16)] = some (Char.ofNat n) := by
  revert n
  decide

/-- Each character is read back from its spelling inside quotes. -/
theorem readString?_escapeChar (c : Char) (s : Text) :
    readString? (escapeChar c ++ s) = (readString? s).map fun (t, rest) => (c :: t, rest) := by
  unfold escapeChar
  split_ifs with h1 h2 h3 h4 h5 h6 h7 h8
  -- The characters that have a letter of their own come first.
  iterate 7
    · subst_vars
      exact readString?_escape (by decide) rfl
  · simp only [List.cons_append, List.nil_append, readString?]
    rw [codePoint?_hexDigit h8, Char.ofNat_toNat, Option.bind_some]
  · exact readString?_cons h1 h2 h8

theorem readString?_flatMap (t rest : Text) :
    readString? (t.flatMap escapeChar ++ '"' :: rest) = some (t, rest) := by
  induction t with
  | nil => rfl
  | cons c t ih =>
      rw [List.flatMap_cons, List.append_assoc, readString?_escapeChar, ih, Option.map_some]

theorem quote_append (k : String) (s : Text) :
    quote k ++ s = '"' :: (k.toList.flatMap escapeChar ++ '"' :: s) := by
  simp [quote]

/-! ## White space -/

theorem dropWhile_isSpace_cons (h : isSpace c = false) : (c :: s).dropWhile isSpace = c :: s := by
  simp [h]

/-- The start of a line is passed over. -/
theorem dropWhile_isSpace_newline (depth : Nat) (s : Text) :
    (newline depth ++ s).dropWhile isSpace = s.dropWhile isSpace := by
  apply List.dropWhile_append_of_pos
  intro c hc
  rcases List.mem_cons.mp hc with rfl | hc
  · rfl
  · rw [(List.mem_replicate.mp hc).2]
    rfl

theorem readValue?_congr {s' : Text} (h : s.dropWhile isSpace = s'.dropWhile isSpace) :
    readValue? n s = readValue? n s' := by
  cases n with
  | zero => rw [readValue?, readValue?]
  | succ n => rw [readValue?, readValue?, h]

theorem readValue?_newline (n depth : Nat) (s : Text) :
    readValue? n (newline depth ++ s) = readValue? n s :=
  readValue?_congr (dropWhile_isSpace_newline depth s)

theorem readValue?_space (n : Nat) (s : Text) : readValue? n (' ' :: s) = readValue? n s :=
  readValue?_congr (List.dropWhile_cons_of_pos rfl)

theorem readItems?_newline (n depth : Nat) (s : Text) :
    readItems? n (newline depth ++ s) = readItems? n s := by
  cases n with
  | zero => rw [readItems?, readItems?]
  | succ n => rw [readItems?, readItems?, dropWhile_isSpace_newline]

theorem readFields?_newline (n depth : Nat) (s : Text) :
    readFields? n (newline depth ++ s) = readFields? n s := by
  cases n with
  | zero => rw [readFields?, readFields?]
  | succ n => rw [readFields?, readFields?, dropWhile_isSpace_newline]

theorem readName?_newline (depth : Nat) (s : Text) :
    readName? (newline depth ++ s) = readName? s := by
  rw [readName?, readName?, dropWhile_isSpace_newline]

theorem readName?_quote (k : String) (s : Text) :
    readName? (quote k ++ ':' :: s) = some (k, s) := by
  rw [quote_append, readName?, dropWhile_isSpace_cons rfl]
  simp [readString?_flatMap, isSpace]

/-! ## Values -/

/-- The numbers in a value are natural numbers in decimal digits. -/
inductive Natural : Json → Prop where
  | null : Natural null
  | bool (b : Bool) : Natural (bool b)
  | number (digits : String) (hne : digits.toList ≠ [])
      (hdigits : ∀ c ∈ digits.toList, c.isDigit = true) : Natural (number digits)
  | string (s : String) : Natural (string s)
  | array (items : List Json) (hitems : ∀ v ∈ items, Natural v) : Natural (array items)
  | object (fields : List (String × Json)) (hfields : ∀ f ∈ fields, Natural f.2) :
    Natural (object fields)

/-- The text does not go on with a digit, so that a number before it ends where it seems to. -/
def NoDigit (s : Text) : Prop := ∀ c ∈ s.head?, c.isDigit = false

/-- The value is read back from its printed form, whatever stands behind it. -/
def ReadsBack (v : Json) : Prop :=
  ∀ depth n rest, (v.render depth).length ≤ n → NoDigit rest →
    readValue? n (v.render depth ++ rest) = some (v, rest)

theorem noDigit_cons (h : c.isDigit = false) : NoDigit (c :: s) := by
  simpa [NoDigit] using h

theorem noDigit_renderItems (depth d : Nat) (vs : List Json) (s : Text) :
    NoDigit (renderItems depth vs ++ (newline d ++ s)) := by
  cases vs <;> exact noDigit_cons rfl

theorem noDigit_renderFields (depth d : Nat) (fs : List (String × Json)) (s : Text) :
    NoDigit (renderFields depth fs ++ (newline d ++ s)) := by
  cases fs <;> exact noDigit_cons rfl

theorem span_digits (hdigits : ∀ c ∈ s, c.isDigit = true) (hrest : NoDigit rest) :
    (s ++ rest).takeWhile Char.isDigit = s ∧ (s ++ rest).dropWhile Char.isDigit = rest := by
  rw [List.takeWhile_append_of_pos hdigits, List.dropWhile_append_of_pos hdigits]
  cases rest with
  | nil => simp
  | cons c rest =>
      have hc : c.isDigit = false := hrest c rfl
      simp [hc]

theorem isDigit_of_isSpace (h : isSpace c = true) : c.isDigit = false := by
  have hmem : c ∈ [' ', '\n', '\r', '\t'] := List.contains_iff_mem.mp h
  simp only [List.mem_cons, List.not_mem_nil, or_false] at hmem
  rcases hmem with rfl | rfl | rfl | rfl <;> rfl

theorem isSpace_of_isDigit (h : c.isDigit = true) : isSpace c = false := by
  cases hspace : isSpace c with
  | false => rfl
  | true =>
      rw [isDigit_of_isSpace hspace] at h
      cases h

theorem readValue?_digits (hs : s ≠ []) (hdigits : ∀ c ∈ s, c.isDigit = true)
    (hrest : NoDigit rest) :
    readValue? (n + 1) (s ++ rest) = some (number (String.ofList s), rest) := by
  obtain ⟨htake, hdrop⟩ := span_digits hdigits hrest
  obtain ⟨c, cs, rfl⟩ := List.exists_cons_of_ne_nil hs
  have hc : c.isDigit = true := hdigits c List.mem_cons_self
  rw [List.cons_append] at htake hdrop ⊢
  rw [readValue?, dropWhile_isSpace_cons (isSpace_of_isDigit hc)]
  split
  case h_7 => simp only [htake, hdrop, if_neg hs]
  all_goals
    rename_i h
    obtain ⟨rfl, -⟩ := List.cons.inj h
    exact absurd hc (by decide)

/-- A printed value begins with a character that is no white space and closes nothing. -/
theorem exists_render_eq_cons (h : Natural v) (depth : Nat) :
    ∃ c s, v.render depth = c :: s ∧ isSpace c = false ∧ c ≠ ']' := by
  cases h with
  | null => exact ⟨'n', _, rfl, rfl, by decide⟩
  | bool b => cases b <;> exact ⟨_, _, rfl, rfl, by decide⟩
  | number digits hne hdigits =>
      obtain ⟨c, s, hs⟩ := List.exists_cons_of_ne_nil hne
      have hc : c.isDigit = true := hdigits c (hs ▸ List.mem_cons_self)
      refine ⟨c, s, hs, isSpace_of_isDigit hc, ?_⟩
      rintro rfl
      exact absurd hc (by decide)
  | string s => exact ⟨'"', _, rfl, rfl, by decide⟩
  | array items hitems => cases items <;> exact ⟨'[', _, rfl, rfl, by decide⟩
  | object fields hfields => cases fields <;> exact ⟨'\x7B', _, rfl, rfl, by decide⟩

theorem readValue?_bracket (h : Natural v) (s : Text) :
    readValue? (n + 1) ('[' :: (newline d ++ (v.render depth ++ s))) =
      (readValue? n (v.render depth ++ s)).bind fun (v, rest) =>
        (readItems? n rest).map fun (vs, rest) => (array (v :: vs), rest) := by
  -- What stands behind the bracket is not taken for the end of an empty array.
  obtain ⟨c, t, hc, hspace, hclose⟩ := exists_render_eq_cons h depth
  rw [hc, List.cons_append, readValue?, dropWhile_isSpace_cons rfl]
  simp only [dropWhile_isSpace_newline, dropWhile_isSpace_cons hspace]
  split
  · rename_i h
    exact absurd (List.cons.inj h).1 hclose
  · rfl

theorem readValue?_brace (k : String) (s : Text) :
    readValue? (n + 1) ('\x7B' :: (newline depth ++ (quote k ++ ':' :: s))) =
      (readValue? n s).bind fun (v, rest) =>
        (readFields? n rest).map fun (fs, rest) => (object ((k, v) :: fs), rest) := by
  have hspace (s : Text) : ('"' :: s).dropWhile isSpace = '"' :: s := dropWhile_isSpace_cons rfl
  have hname := readName?_quote k s
  rw [quote_append] at hname
  rw [quote_append, readValue?, dropWhile_isSpace_cons rfl]
  simp only [dropWhile_isSpace_newline, hspace]
  split
  · rename_i h
    exact absurd (List.cons.inj h).1 (by decide)
  · simp only [hname, Option.bind_some]

theorem readItems?_comma (s : Text) :
    readItems? (n + 1) (',' :: s) =
      (readValue? n s).bind fun (v, rest) =>
        (readItems? n rest).map fun (vs, rest) => (v :: vs, rest) := by
  rw [readItems?, dropWhile_isSpace_cons rfl]
  rfl

theorem readFields?_comma (s : Text) :
    readFields? (n + 1) (',' :: s) =
      (readName? s).bind fun (k, rest) =>
        (readValue? n rest).bind fun (v, rest) =>
          (readFields? n rest).map fun (fs, rest) => ((k, v) :: fs, rest) := by
  rw [readFields?, dropWhile_isSpace_cons rfl]
  rfl

theorem readItems?_renderItems {vs : List Json} (hvs : ∀ v ∈ vs, ReadsBack v)
    (hn : (renderItems depth vs).length ≤ n) :
    readItems? (n + 1) (renderItems depth vs ++ (newline d ++ ']' :: rest)) = some (vs, rest) := by
  induction vs generalizing n with
  | nil =>
      rw [renderItems, List.nil_append, readItems?_newline, readItems?, dropWhile_isSpace_cons rfl]
      rfl
  | cons v vs ih =>
      obtain ⟨hv, hvs⟩ := List.forall_mem_cons.mp hvs
      simp only [renderItems, List.cons_append, List.append_assoc, List.length_cons,
        List.length_append] at hn ⊢
      obtain ⟨n, rfl⟩ : ∃ m, n = m + 1 := Nat.exists_eq_succ_of_ne_zero (Nat.ne_zero_of_lt hn)
      have hitem := hv depth (n + 1) _ (by omega) (noDigit_renderItems depth d vs (']' :: rest))
      have hitems := ih hvs (n := n) (by omega)
      simp only [readItems?_comma, readValue?_newline, hitem, hitems, Option.bind_some,
        Option.map_some]

theorem readFields?_renderFields {fs : List (String × Json)} (hfs : ∀ f ∈ fs, ReadsBack f.2)
    (hn : (renderFields depth fs).length ≤ n) :
    readFields? (n + 1) (renderFields depth fs ++ (newline d ++ '\x7D' :: rest)) =
      some (fs, rest) := by
  induction fs generalizing n with
  | nil =>
      rw [renderFields, List.nil_append, readFields?_newline, readFields?,
        dropWhile_isSpace_cons rfl]
      rfl
  | cons f fs ih =>
      obtain ⟨k, v⟩ := f
      obtain ⟨hv, hfs⟩ : ReadsBack v ∧ ∀ f ∈ fs, ReadsBack f.2 := List.forall_mem_cons.mp hfs
      simp only [renderFields, List.cons_append, List.append_assoc, List.nil_append,
        List.length_cons, List.length_append] at hn ⊢
      obtain ⟨n, rfl⟩ : ∃ m, n = m + 1 := Nat.exists_eq_succ_of_ne_zero (Nat.ne_zero_of_lt hn)
      have hfield := hv depth (n + 1) _ (by omega)
        (noDigit_renderFields depth d fs ('\x7D' :: rest))
      have hfields := ih hfs (n := n) (by omega)
      simp only [readFields?_comma, readName?_newline, readName?_quote, readValue?_space, hfield,
        hfields, Option.bind_some, Option.map_some]

/-- Some character is printed of a value, so that a reader with no steps left is out of the
question. -/
theorem Natural.readsBack_of_succ (hv : Natural v)
    (h : ∀ depth n rest, (v.render depth).length ≤ n + 1 → NoDigit rest →
      readValue? (n + 1) (v.render depth ++ rest) = some (v, rest)) : ReadsBack v := by
  intro depth n rest hn hrest
  cases n with
  | zero =>
      obtain ⟨c, s, hs, _, _⟩ := exists_render_eq_cons hv depth
      rw [hs] at hn
      exact absurd hn (Nat.not_succ_le_zero _)
  | succ n => exact h depth n rest hn hrest

theorem readsBack_array {vs : List Json} (hvs : ∀ w ∈ v :: vs, Natural w)
    (h : ∀ w ∈ v :: vs, ReadsBack w) : ReadsBack (array (v :: vs)) := by
  apply (Natural.array _ hvs).readsBack_of_succ
  intro depth n rest hn _
  obtain ⟨hv, hvs'⟩ := List.forall_mem_cons.mp h
  simp only [render, List.cons_append, List.append_assoc, List.nil_append, List.length_cons,
    List.length_append] at hn ⊢
  obtain ⟨n, rfl⟩ : ∃ m, n = m + 1 := Nat.exists_eq_succ_of_ne_zero (by omega)
  have hitem := hv (depth + 1) (n + 1) _ (by omega)
    (noDigit_renderItems (depth + 1) depth vs (']' :: rest))
  have hitems : readItems? (n + 1)
      (renderItems (depth + 1) vs ++ (newline depth ++ ']' :: rest)) = some (vs, rest) :=
    readItems?_renderItems hvs' (by omega)
  simp only [readValue?_bracket (hvs v List.mem_cons_self), hitem, hitems, Option.bind_some,
    Option.map_some]

theorem readsBack_object {k : String} {fs : List (String × Json)}
    (hfs : ∀ f ∈ (k, v) :: fs, Natural f.2) (h : ∀ f ∈ (k, v) :: fs, ReadsBack f.2) :
    ReadsBack (object ((k, v) :: fs)) := by
  apply (Natural.object _ hfs).readsBack_of_succ
  intro depth n rest hn _
  obtain ⟨hv, hfs'⟩ : ReadsBack v ∧ ∀ f ∈ fs, ReadsBack f.2 := List.forall_mem_cons.mp h
  simp only [render, List.cons_append, List.append_assoc, List.nil_append, List.length_cons,
    List.length_append] at hn ⊢
  obtain ⟨n, rfl⟩ : ∃ m, n = m + 1 := Nat.exists_eq_succ_of_ne_zero (by omega)
  have hfield := hv (depth + 1) (n + 1) _ (by omega)
    (noDigit_renderFields (depth + 1) depth fs ('\x7D' :: rest))
  have hfields : readFields? (n + 1)
      (renderFields (depth + 1) fs ++ (newline depth ++ '\x7D' :: rest)) = some (fs, rest) :=
    readFields?_renderFields hfs' (by omega)
  simp only [readValue?_brace, readValue?_space, hfield, hfields, Option.bind_some,
    Option.map_some]

theorem Natural.readsBack (h : Natural v) : ReadsBack v := by
  induction h with
  | null =>
      apply Natural.null.readsBack_of_succ
      intro depth n rest _ _
      rw [render, readValue?]
      rfl
  | bool b =>
      apply (Natural.bool b).readsBack_of_succ
      intro depth n rest _ _
      cases b <;>
      · rw [render, readValue?]
        rfl
  | number digits hne hdigits =>
      apply (Natural.number digits hne hdigits).readsBack_of_succ
      intro depth n rest _ hrest
      rw [render, readValue?_digits hne hdigits hrest, String.ofList_toList]
  | string s =>
      apply (Natural.string s).readsBack_of_succ
      intro depth n rest _ _
      rw [render, quote_append, readValue?, dropWhile_isSpace_cons rfl]
      simp only [readString?_flatMap, Option.map_some, String.ofList_toList]
  | array items hitems ih =>
      cases items with
      | nil =>
          apply (Natural.array [] hitems).readsBack_of_succ
          intro depth n rest _ _
          rw [render, readValue?]
          rfl
      | cons v vs => exact readsBack_array hitems ih
  | object fields hfields ih =>
      cases fields with
      | nil =>
          apply (Natural.object [] hfields).readsBack_of_succ
          intro depth n rest _ _
          rw [render, readValue?]
          rfl
      | cons f fs => exact readsBack_object hfields ih

/-- What is printed tells the value, also with white space behind it. -/
theorem read?_pretty (h : Natural v) {blank : Text} (hblank : blank.all isSpace = true) :
    read? (v.pretty ++ blank) = some v := by
  have hrest : NoDigit blank := by
    intro c hc
    exact isDigit_of_isSpace (List.all_eq_true.mp hblank c (List.mem_of_mem_head? hc))
  have hvalue := h.readsBack 0 (v.pretty ++ blank).length blank (by simp [pretty]) hrest
  rw [read?, pretty] at *
  rw [hvalue, Option.bind_some]
  exact if_pos hblank

example : read? " [ 1,null ,\"\\u0041\" ]".toList =
    some (array [number "1", null, string "A"]) := by rfl

end PathRouting.Json

import PathRouting.Proofs.Reading
import PathRouting.Proofs.Spelling
import PathRouting.Template.Basic

/-! # The language of a template

A template whose literals are plain text accepts exactly the request paths that can be cut
into its pieces. Searching its patterns goes through these cuts in the order of
preference. -/

namespace PathRouting

theorem exists_ok_of_any {ε α : Type} {e : Except ε α} {p : α → Bool}
    (h : e.toOption.any p = true) : ∃ a, e = .ok a ∧ p a = true := by
  cases e with
  | error e => simp [Except.toOption] at h
  | ok a => exact ⟨a, rfl, by simpa [Except.toOption] using h⟩

theorem forall₂_of_mapM_ok {α β ε : Type} {f : α → Except ε β} {xs : List α} {ys : List β}
    (h : xs.mapM f = .ok ys) : List.Forall₂ (fun x y => f x = .ok y) xs ys := by
  induction xs generalizing ys with
  | nil =>
      obtain rfl : [] = ys := by simpa [pure, Except.pure] using h
      exact .nil
  | cons x xs ih =>
      rw [List.mapM_cons] at h
      cases hx : f x with
      | error e => simp [hx, bind, Except.bind] at h
      | ok y =>
          cases hxs : xs.mapM f with
          | error e => simp [hx, hxs, bind, Except.bind] at h
          | ok ys' =>
              obtain rfl : y :: ys' = ys := by
                simpa [hx, hxs, bind, Except.bind, pure, Except.pure] using h
              exact .cons hx (ih hxs)

theorem mapM_of_forall₂_ok {α β ε : Type} {f : α → Except ε β} {xs : List α} {ys : List β}
    (h : List.Forall₂ (fun x y => f x = .ok y) xs ys) : xs.mapM f = .ok ys := by
  induction h with
  | nil => rfl
  | cons hxy _ ih =>
      rw [List.mapM_cons, hxy, ih]
      rfl

theorem mapM_eq_map {α β ε : Type} {f : α → Except ε β} {g : α → β} {xs : List α}
    (h : ∀ x ∈ xs, f x = .ok (g x)) : xs.mapM f = .ok (xs.map g) := by
  induction xs with
  | nil => rfl
  | cons x xs ih =>
      rw [List.mapM_cons, h x (by simp), ih fun y hy => h y (by simp [hy])]
      rfl

/-! ## Searching the pattern of pieces -/

namespace Template

open Regex (Part)
open PathRouting.Task (runs SplitAs noMarks groupMarks)

/-- The marks that the pattern of a piece leaves, `n` being the index of the next group. -/
def Piece.marks (g : Grouping) (n : Nat) : Piece → Nat → Nat → Slots
  | element (.parameter _ _) =>
    match g with
    | .plain => noMarks
    | .capturing => groupMarks n
  | _ => noMarks

/-- The marks that the patterns of pieces leave in a cut that begins at `offset`. -/
def slotsFrom (g : Grouping) : Nat → Nat → List Piece → List Text → Slots
  | n, offset, p :: ps, t :: ts =>
    slotsFrom g (n + p.groups g) (offset + t.length) ps ts ++ p.marks g n offset t.length
  | _, _, _, _ => []

def tasks (parts : List Part) : List Task := parts.map fun p => .run p.regex

theorem splitAs_separatorParts (policy : Policy) :
    SplitAs (tasks (separatorParts policy)) noMarks (splitSeparator policy) := by
  unfold separatorParts splitSeparator
  cases policy.mergeSlashes with
  | true => exact Task.splitAs_oneOrMore true (slash policy)
  | false => exact Task.splitAs_one (slash policy)

theorem splitAs_suffixParts (policy : Policy) (path : Text) :
    SplitAs (tasks (suffixParts policy path)) noMarks (splitSuffix policy path) := by
  unfold suffixParts splitSuffix
  split
  · exact Task.splitAs_nil
  · split
    · exact splitAs_separatorParts policy
    · split
      · split
        · exact Task.splitAs_many true (slash policy)
        · exact Task.splitAs_atMostOne (slash policy)
      · exact Task.splitAs_nil

theorem splitAs_literal (policy : Policy) (text : Text) :
    SplitAs (tasks (text.map fun c =>
      Regex.Reader.setPart ((flags policy).literalSet c) 0)) noMarks
        (splitLiteral policy text) := by
  induction text with
  | nil => exact Task.splitAs_nil
  | cons c cs ih => exact (Task.splitAs_one _).append ih

/-- Running the pattern of a piece splits a text as the piece does. -/
theorem Piece.splitAs_parts (policy : Policy) (path : Text) (g : Grouping) (n : Nat)
    (p : Piece) :
    SplitAs (tasks (p.parts policy path g n)) (p.marks g n) (p.splits policy path) := by
  cases p with
  | separator => exact splitAs_separatorParts policy
  | suffix => exact splitAs_suffixParts policy path
  | element e =>
      cases e with
      | literal text raw => exact splitAs_literal policy text
      | wildcard => exact Task.splitAs_many false Regex.Flags.notNewline
      | parameter name reach =>
          have hvalue : SplitAs [.run (valuePart policy reach).regex] noMarks
              (splits policy path (element (.parameter name reach))) := by
            cases reach <;> exact Task.splitAs_oneOrMore false _
          cases g with
          | plain => exact hvalue
          | capturing => exact hvalue.group n

/-- Running the patterns of pieces up to the end of the text goes through the cuts. -/
theorem runs_partsFrom (policy : Policy) (path : Text) (g : Grouping) (before : Option Char)
    (offset n : Nat) (ps : List Piece) (s : Text) :
    runs before offset (tasks (partsFrom policy path g n ps) ++ [.run (.look .textEnd)]) s =
      (cuts policy path ps s).map (slotsFrom g n offset ps) := by
  induction ps generalizing before offset n s with
  | nil =>
      rw [partsFrom, tasks, List.map_nil, List.nil_append, Task.runs_look]
      cases s <;> simp [cuts, Look.holds, slotsFrom]
  | cons p ps ih =>
      have hsplit := p.splitAs_parts policy path g n before offset
        (tasks (partsFrom policy path g (n + p.groups g) ps) ++ [.run (.look .textEnd)]) s
      have htasks : tasks (partsFrom policy path g n (p :: ps)) =
          tasks (p.parts policy path g n) ++
            tasks (partsFrom policy path g (n + p.groups g) ps) := by
        simp [partsFrom, tasks]
      rw [htasks, List.append_assoc, hsplit, cuts, List.map_flatMap]
      congr 1
      funext split
      simp [ih, slotsFrom]

/-- The pattern of pieces is found where a text begins or not at all. -/
theorem search_regexOf (policy : Policy) (path : Text) (g : Grouping) (ps : List Piece)
    (uri : Text) :
    (regexOf policy path g ps).search uri =
      (cuts policy path ps uri).head?.map (slotsFrom g 1 0 ps) := by
  have hruns (before : Option Char) (offset : Nat) (s : Text) :
      runs before offset [.run (regexOf policy path g ps)] s =
        if before.isNone then (cuts policy path ps s).map (slotsFrom g 1 offset ps) else [] := by
    have hparts := runs_partsFrom policy path g before offset 1 ps s
    rw [regexOf, Task.runs_catAll, List.append_nil, List.map_append, List.map_cons,
      List.cons_append, Task.runs_look]
    simp only [tasks] at hparts
    simp [Look.holds, Function.comp_def, hparts]
  have hlater (c : Char) (offset : Nat) (s : Text) :
      (regexOf policy path g ps).searchFrom (some c) offset s = none := by
    induction s generalizing c offset with
    | nil => simp [Regex.searchFrom, Regex.matchHere_eq_head?_runs, hruns]
    | cons d ds ih => simp [Regex.searchFrom, Regex.matchHere_eq_head?_runs, hruns, ih]
  cases uri with
  | nil => simp [Regex.search, Regex.searchFrom, Regex.matchHere_eq_head?_runs, hruns]
  | cons c cs =>
      simp only [Regex.search, Regex.searchFrom, Regex.matchHere_eq_head?_runs, hruns, hlater,
        Option.isNone_none, ite_true, List.head?_map]
      cases (cuts policy path ps (c :: cs)).head? <;> rfl

theorem isMatch_regexOf (policy : Policy) (path : Text) (g : Grouping) (ps : List Piece)
    (uri : Text) :
    (regexOf policy path g ps).isMatch uri = true ↔
      ∃ cut, IsCut policy path ps uri cut := by
  rw [Regex.isMatch, search_regexOf, Option.isSome_map, exists_cut_iff_head?,
    Option.isSome_iff_exists]

end Template

/-! ## The patterns of segments are those of their elements -/

namespace Segment

mutual

theorem fragment_eq (g : Grouping) :
    ∀ s : Segment, s.fragment g = s.elements.flatMap (Element.fragment g)
  | element e => by simp [fragment, elements]
  | composite parts => by rw [fragment, elements, fragmentAll_eq g parts]

theorem fragmentAll_eq (g : Grouping) :
    ∀ ss : List Segment, fragmentAll g ss = (elementsAll ss).flatMap (Element.fragment g)
  | [] => rfl
  | s :: ss => by
      rw [fragmentAll, elementsAll, List.flatMap_append, fragment_eq g s, fragmentAll_eq g ss]

end

mutual

theorem names_eq : ∀ s : Segment, s.names = s.elements.flatMap Element.names
  | element e => by simp [names, elements]
  | composite parts => by rw [names, elements, namesAll_eq parts]

theorem namesAll_eq : ∀ ss : List Segment, namesAll ss = (elementsAll ss).flatMap Element.names
  | [] => rfl
  | s :: ss => by
      rw [namesAll, elementsAll, List.flatMap_append, names_eq s, namesAll_eq ss]

end

end Segment

namespace Template

/-- The ways to follow chunks: as they are, and, for a path that covers everything below,
with a wildcard behind them. -/
def waysOf (path : Text) (chunks : List (List Element)) : List (List (List Element)) :=
  if coversSubPaths path then [chunks, chunks ++ [[.wildcard]]] else [chunks]

theorem mem_waysOf_iff {path : Text} {ess way : List (List Element)} :
    way ∈ waysOf path ess ↔
      way = ess ∨ coversSubPaths path = true ∧ way = ess ++ [[.wildcard]] := by
  cases hcovers : coversSubPaths path <;> simp [waysOf, hcovers]

/-- What holds of all chunks, and of a wildcard by itself, holds of those of all ways to follow
them. -/
theorem forall_mem_waysOf {Q : List Element → Prop} {path : Text} {ess way : List (List Element)}
    (hbelow : Q [.wildcard]) (h : ∀ es ∈ ess, Q es) (hway : way ∈ waysOf path ess) :
    ∀ es ∈ way, Q es := by
  rcases mem_waysOf_iff.mp hway with rfl | ⟨_, rfl⟩
  · exact h
  · simpa [or_imp, forall_and, hbelow] using h

/-- What is written for the pieces of chunks is written for the chunks with that of the
separator between them. -/
theorem flatMap_intercalate (f : Piece → Text) (ess : List (List Element)) :
    ([Piece.separator].intercalate (ess.map (·.map .element))).flatMap f =
      Text.join (f .separator) (ess.map (·.flatMap fun e => f (.element e))) := by
  induction ess with
  | nil => rfl
  | cons es ess ih =>
      cases ess with
      | nil => simp [Text.join, List.intercalate, List.flatMap_map]
      | cons fs ess =>
          simp only [List.map_cons, Text.join, List.intercalate_cons_cons, List.flatMap_append]
            at ih ⊢
          rw [ih]
          simp [List.flatMap_map]

theorem fragments_intercalate (policy : Policy) (path : Text) (g : Grouping)
    (segments : List Segment) :
    ([Piece.separator].intercalate ((segments.map Segment.elements).map (·.map .element))).flatMap
        (Piece.fragment policy path g) =
      Text.join (separator policy) (segments.map (Segment.fragment g)) := by
  rw [flatMap_intercalate, List.map_map, funext (Segment.fragment_eq g)]
  rfl

/-- The text of the pattern of segments, as the fragments of pieces. -/
theorem patternText_eq (policy : Policy) (path : Text) (g : Grouping)
    (segments : List Segment) :
    patternText policy path g segments =
      '^' :: (pieces (segments.map Segment.elements)).flatMap (Piece.fragment policy path g) ++
        ['$'] := by
  have hpieces : (pieces (segments.map Segment.elements)).flatMap
      (Piece.fragment policy path g) =
        separator policy ++
          Text.join (separator policy) (segments.map (Segment.fragment g)) ++
          suffix policy path := by
    rw [← fragments_intercalate policy path g, pieces]
    simp [Piece.fragment]
  rw [hpieces]
  simp [patternText]

def patternOf (policy : Policy) (path : Text) (g : Grouping) (chunks : List (List Element)) :
    Pattern :=
  ⟨'^' :: (pieces chunks).flatMap (Piece.fragment policy path g) ++ ['$'],
    regexOf policy path g (pieces chunks)⟩

def variantOf (policy : Policy) (path : Text) (chunks : List (List Element)) : Variant :=
  ⟨patternOf policy path .plain chunks, patternOf policy path .capturing chunks⟩

def AllEscaped (chunks : List (List Element)) : Prop :=
  ∀ es ∈ chunks, ∀ e ∈ es, (Piece.element e).Escaped

def stem (chunks : List (List Element)) : List Piece :=
  .separator :: [Piece.separator].intercalate (chunks.map (·.map .element))

theorem pieces_eq_stem (chunks : List (List Element)) : pieces chunks = stem chunks ++ [.suffix] :=
  rfl

theorem stem_singleton (es : List Element) : stem [es] = .separator :: es.map .element := by
  simp [stem, List.intercalate]

theorem stem_cons {ess : List (List Element)} (h : ess ≠ []) (es : List Element) :
    stem (es :: ess) = .separator :: es.map .element ++ stem ess := by
  obtain ⟨fs, ess, rfl⟩ := List.exists_cons_of_ne_nil h
  simp [stem, List.intercalate_cons_cons]

theorem stem_concat {ess : List (List Element)} (h : ess ≠ []) (es : List Element) :
    stem (ess ++ [es]) = stem ess ++ .separator :: es.map .element := by
  induction ess with
  | nil => exact absurd rfl h
  | cons fs ess ih =>
      cases ess with
      | nil => simp [stem_cons, stem_singleton]
      | cons gs ess =>
          have hmore : gs :: ess ++ [es] ≠ [] := by simp
          rw [List.cons_append, stem_cons hmore, ih (by simp), stem_cons (List.cons_ne_nil gs ess),
            List.append_assoc]

theorem forall_mem_stem {P : Piece → Prop} {chunks : List (List Element)}
    (hseparator : P .separator) (h : ∀ es ∈ chunks, ∀ e ∈ es, P (.element e)) :
    ∀ p ∈ stem chunks, P p := by
  have hchunk (es : List Element) (hes : es ∈ chunks) :
      ∀ p ∈ Piece.separator :: es.map .element, P p := by
    intro p hp
    rcases List.mem_cons.mp hp with rfl | hp
    · exact hseparator
    · obtain ⟨e, he, rfl⟩ := List.mem_map.mp hp
      exact h es hes e he
  induction chunks with
  | nil =>
      intro p hp
      obtain rfl := List.mem_singleton.mp hp
      exact hseparator
  | cons es ess ih =>
      have hes := hchunk es (by simp)
      by_cases hess : ess = []
      · rw [hess, stem_singleton]
        exact hes
      · rw [stem_cons hess]
        intro p hp
        rcases List.mem_append.mp hp with hp | hp
        · exact hes p hp
        · refine ih ?_ ?_ p hp
          · exact fun fs hfs => h fs (by simp [hfs])
          · exact fun fs hfs => hchunk fs (by simp [hfs])

theorem forall_mem_pieces {P : Piece → Prop} {chunks : List (List Element)}
    (hseparator : P .separator) (hsuffix : P .suffix)
    (h : ∀ es ∈ chunks, ∀ e ∈ es, P (.element e)) : ∀ p ∈ pieces chunks, P p := by
  intro p hp
  rw [pieces_eq_stem, List.mem_append] at hp
  rcases hp with hp | hp
  · exact forall_mem_stem hseparator h p hp
  · obtain rfl := List.mem_singleton.mp hp
    exact hsuffix

/-- What holds of the pieces of chunks, and of a wildcard, holds of those of all ways to follow
them. -/
theorem forall_mem_pieces_way {P : Piece → Prop} {path : Text} {ess way : List (List Element)}
    (hseparator : P .separator) (hsuffix : P .suffix) (hbelow : P (.element .wildcard))
    (h : ∀ es ∈ ess, ∀ e ∈ es, P (.element e)) (hway : way ∈ waysOf path ess) :
    ∀ p ∈ pieces way, P p := by
  refine forall_mem_pieces hseparator hsuffix (forall_mem_waysOf ?_ h hway)
  intro e he
  obtain rfl := List.mem_singleton.mp he
  exact hbelow

theorem escaped_pieces {chunks : List (List Element)} (h : AllEscaped chunks) :
    ∀ p ∈ pieces chunks, p.Escaped :=
  forall_mem_pieces trivial trivial h

theorem variant_eq (policy : Policy) (path : Text) (segments : List Segment)
    (h : AllEscaped (segments.map Segment.elements)) :
    variant policy path segments =
      .ok (variantOf policy path (segments.map Segment.elements)) := by
  have hpattern (g : Grouping) : pattern policy path g segments =
      .ok (patternOf policy path g (segments.map Segment.elements)) := by
    simp only [pattern, patternText_eq, read_fragments policy path g (escaped_pieces h)]
    rfl
  rw [variant, hpattern, hpattern]
  rfl

/-! ## What a template is made of -/

theorem ne_nil_of_mem_chunks {path chunk : Text} (h : chunk ∈ chunks path) : chunk ≠ [] := by
  have hfilter := (List.mem_filter.mp h).2
  simpa using hfilter

/-- A template whose literals are plain text is made of the elements that its chunks
spell. -/
structure MadeOf (policy : Policy) (path : Text) (t : Template) (ess : List (List Element)) :
    Prop where
  spelled : List.Forall₂ (Element.Spelling false) (chunks path) ess
  path_eq : t.path = path
  names_eq : t.names = ess.flatMap (·.flatMap Element.names)
  nodup : t.names.Nodup
  variants_eq : t.variants = (waysOf path ess).map (variantOf policy path)

/-- What reading a template has gone through when it succeeds. -/
theorem ofPath_eq_ok {policy : Policy} {path : Text} {t : Template}
    (h : ofPath policy path = .ok t) :
    (chunks path).mapM (Segment.ofChunk path policy.rawLiterals) = .ok t.segments ∧
      t.path = path ∧ t.names = t.segments.flatMap Segment.names ∧ t.names.Nodup ∧
      compile policy path (coversSubPaths path) t.segments = .ok t.variants := by
  simp only [ofPath, bind, Except.bind, pure, Except.pure, throw, throwThe,
    MonadExceptOf.throw] at h
  split at h
  · simp at h
  · cases hsegments : (chunks path).mapM (Segment.ofChunk path policy.rawLiterals) with
    | error e => simp [hsegments] at h
    | ok segments =>
        by_cases hnodup : (segments.flatMap Segment.names).Nodup
        · cases hvariants : compile policy path (coversSubPaths path) segments with
          | error e => simp [hsegments, hnodup, hvariants] at h
          | ok variants =>
              simp only [hsegments, hnodup, hvariants, not_true_eq_false, ite_false,
                Except.ok.injEq] at h
              subst h
              exact ⟨rfl, rfl, rfl, hnodup, hvariants⟩
        · simp [hsegments, hnodup] at h

theorem exists_left_of_mem {α β : Type} {R : α → β → Prop} {xs : List α} {ys : List β}
    (h : List.Forall₂ R xs ys) {y : β} (hy : y ∈ ys) : ∃ x ∈ xs, R x y := by
  induction h with
  | nil => simp at hy
  | cons hR _ ih =>
      rcases List.mem_cons.mp hy with rfl | hy
      · exact ⟨_, by simp, hR⟩
      · obtain ⟨x, hx, hxy⟩ := ih hy
        exact ⟨x, by simp [hx], hxy⟩

theorem exists_append_of_forall₂ {α β : Type} {R : α → β → Prop} {xs ys : List α} {zs : List β}
    (h : List.Forall₂ R (xs ++ ys) zs) :
    ∃ us vs, zs = us ++ vs ∧ List.Forall₂ R xs us ∧ List.Forall₂ R ys vs := by
  induction xs generalizing zs with
  | nil => exact ⟨[], zs, rfl, .nil, h⟩
  | cons x xs ih =>
      cases h with
      | cons hx hrest =>
          obtain ⟨us, vs, rfl, hus, hvs⟩ := ih hrest
          exact ⟨_ :: us, vs, rfl, .cons hx hus, hvs⟩

/-- Every element of chunks has been spelled. -/
theorem exists_spells {raw : Bool} {texts : List Text} {ess : List (List Element)}
    (h : List.Forall₂ (Element.Spelling raw) texts ess) {es : List Element} (hes : es ∈ ess)
    {e : Element} (he : e ∈ es) : ∃ part, e.Spells raw part := by
  obtain ⟨_, _, hspelling⟩ := exists_left_of_mem h hes
  obtain ⟨parts, hparts, _⟩ := hspelling.spelled
  obtain ⟨part, _, hpart⟩ := exists_left_of_mem hparts.flip he
  exact ⟨part, hpart⟩

theorem allEscaped_of_spelling {texts : List Text} {ess : List (List Element)}
    (h : List.Forall₂ (Element.Spelling false) texts ess) : AllEscaped ess := by
  intro es hes e he
  obtain ⟨part, hpart⟩ := exists_spells h hes he
  cases e with
  | literal text raw => exact hpart.1
  | parameter name reach => trivial
  | wildcard => trivial

theorem allEscaped_way {segments way : List Segment} {subPaths : Bool}
    (h : AllEscaped (segments.map Segment.elements)) (hway : way ∈ ways subPaths segments) :
    AllEscaped (way.map Segment.elements) := by
  have hbelow : AllEscaped ((segments ++ [Segment.element .wildcard]).map Segment.elements) := by
    intro es hes e he
    rw [List.map_append, List.mem_append] at hes
    rcases hes with hes | hes
    · exact h es hes e he
    · obtain rfl : es = [.wildcard] := by simpa [Segment.elements] using hes
      obtain rfl := List.mem_singleton.mp he
      trivial
  unfold ways at hway
  split at hway
  · rcases List.mem_cons.mp hway with rfl | hway
    · exact h
    · obtain rfl := List.mem_singleton.mp hway
      exact hbelow
  · obtain rfl := List.mem_singleton.mp hway
    exact h

/-- Segments without patterns of their own have a variant for each way to follow them. -/
theorem compile_ways (policy : Policy) (path : Text) (subPaths : Bool) {segments : List Segment}
    (h : AllEscaped (segments.map Segment.elements)) :
    compile policy path subPaths segments =
      .ok ((ways subPaths segments).map fun way =>
        variantOf policy path (way.map Segment.elements)) :=
  mapM_eq_map fun way hway => variant_eq policy path way (allEscaped_way h hway)

theorem map_elements_ways (path : Text) (segments : List Segment) :
    (ways (coversSubPaths path) segments).map (·.map Segment.elements) =
      waysOf path (segments.map Segment.elements) := by
  unfold ways waysOf
  split
  · simp [Segment.elements]
  · rfl

/-- The variants of segments are those of the ways to follow their elements. -/
theorem compile_eq (policy : Policy) (path : Text) {segments : List Segment}
    (h : AllEscaped (segments.map Segment.elements)) :
    compile policy path (coversSubPaths path) segments =
      .ok ((waysOf path (segments.map Segment.elements)).map (variantOf policy path)) := by
  rw [compile_ways policy path _ h, ← map_elements_ways, List.map_map]
  rfl

/-- The segments that are read from the chunks of a path have the elements that the chunks
spell. -/
theorem spelled_of_mapM {path : Text} {raw : Bool} {segments : List Segment}
    (h : (chunks path).mapM (Segment.ofChunk path raw) = .ok segments) :
    List.Forall₂ (Element.Spelling raw) (chunks path) (segments.map Segment.elements) := by
  rw [List.forall₂_map_right_iff]
  have hread := (List.forall₂_and_left _ _).mpr
    ⟨fun chunk (hchunk : chunk ∈ chunks path) => ne_nil_of_mem_chunks hchunk,
      forall₂_of_mapM_ok h⟩
  exact hread.imp fun chunk s hs => Segment.spelling_of_ofChunk hs.1 hs.2

/-- The segments of a template have the elements that the chunks of its path spell. -/
theorem spelled_of_ofPath {policy : Policy} {path : Text} {t : Template}
    (h : ofPath policy path = .ok t) :
    List.Forall₂ (Element.Spelling policy.rawLiterals) (chunks path)
      (t.segments.map Segment.elements) :=
  spelled_of_mapM (ofPath_eq_ok h).1

/-- Every template that has been read with plain literals is made of the elements that its
chunks spell. -/
theorem exists_madeOf {policy : Policy} {path : Text} {t : Template}
    (hraw : policy.rawLiterals = false) (h : ofPath policy path = .ok t) :
    ∃ ess, MadeOf policy path t ess := by
  obtain ⟨_, hpath, hnames, hnodup, hvariants⟩ := ofPath_eq_ok h
  have hspelled := spelled_of_ofPath h
  rw [hraw] at hspelled
  have hcompile := compile_eq policy path (allEscaped_of_spelling hspelled)
  refine ⟨t.segments.map Segment.elements, hspelled, hpath, ?_, hnodup, ?_⟩
  · rw [hnames, List.flatMap_map]
    congr 1
    funext s
    exact Segment.names_eq s
  · exact Except.ok.inj (hvariants.symm.trans hcompile)

/-- A request path follows a path under a policy: some way to follow the elements that the
chunks of the path spell can be cut out of it. -/
def Follows (policy : Policy) (path uri : Text) : Prop :=
  ∃ ess, List.Forall₂ (Element.Spelling false) (chunks path) ess ∧
    ∃ way ∈ waysOf path ess, ∃ cut, IsCut policy path (pieces way) uri cut

theorem spelled_unique {raw : Bool} {texts : List Text} {ess ess' : List (List Element)}
    (h : List.Forall₂ (Element.Spelling raw) texts ess)
    (h' : List.Forall₂ (Element.Spelling raw) texts ess') : ess = ess' := by
  induction h generalizing ess' with
  | nil => cases h'; rfl
  | cons hx _ ih =>
      cases h' with
      | cons hx' hxs' => rw [hx.unique hx', ih hxs']

theorem madeOf_of_spelled {policy : Policy} {path : Text} {t : Template} {ess : List (List Element)}
    (hraw : policy.rawLiterals = false) (h : ofPath policy path = .ok t)
    (hspelled : List.Forall₂ (Element.Spelling false) (chunks path) ess) :
    MadeOf policy path t ess := by
  obtain ⟨ess', hmade⟩ := exists_madeOf hraw h
  rwa [spelled_unique hspelled hmade.spelled]

theorem MadeOf.accepts_iff {policy : Policy} {path : Text} {t : Template}
    {ess : List (List Element)} (h : MadeOf policy path t ess) (uri : Text) :
    t.accepts uri = true ↔
      ∃ way ∈ waysOf path ess, ∃ cut, IsCut policy path (pieces way) uri cut := by
  simp only [accepts, h.variants_eq, List.any_map, List.any_eq_true, Function.comp_apply,
    variantOf, patternOf, isMatch_regexOf]

theorem MadeOf.follows_iff {policy : Policy} {path : Text} {t : Template}
    {ess : List (List Element)} (h : MadeOf policy path t ess) (uri : Text) :
    Follows policy path uri ↔
      ∃ way ∈ waysOf path ess, ∃ cut, IsCut policy path (pieces way) uri cut := by
  constructor
  · rintro ⟨ess', hspelled, hcut⟩
    rwa [spelled_unique h.spelled hspelled]
  · intro hcut
    exact ⟨ess, h.spelled, hcut⟩

/-- A template with plain literals accepts exactly the request paths that follow its
path. -/
theorem accepts_iff_follows {policy : Policy} {path : Text} {t : Template}
    (hraw : policy.rawLiterals = false) (h : ofPath policy path = .ok t) (uri : Text) :
    t.accepts uri = true ↔ Follows policy path uri := by
  obtain ⟨ess, hmade⟩ := exists_madeOf hraw h
  rw [hmade.accepts_iff, hmade.follows_iff]

theorem follows_composite_below :
    ∃ t, ofPath { mergeSlashes := true } "/a-{x}/<y>*".toList = .ok t ∧
      t.accepts "/a-1//b/c".toList = true ∧
        Follows { mergeSlashes := true } "/a-{x}/<y>*".toList "/a-1//b/c".toList := by
  have h : (ofPath { mergeSlashes := true } "/a-{x}/<y>*".toList).toOption.any
      (·.accepts "/a-1//b/c".toList) = true := by decide +kernel
  obtain ⟨t, ht, haccepts⟩ := exists_ok_of_any h
  exact ⟨t, ht, haccepts, (accepts_iff_follows rfl ht _).mp haccepts⟩

end Template

end PathRouting

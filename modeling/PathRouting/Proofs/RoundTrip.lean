import Mathlib.Algebra.GroupWithZero.Nat
import PathRouting.Proofs.Chunks
import PathRouting.Proofs.Percent
import PathRouting.Proofs.Values

/-! # Links

A link is a request path that is built from a template and values for its parameters, every
value being written with percent escapes. A template with plain literals and at most one
parameter to a chunk accepts its links and takes the values out of them again: a link can be
cut in one way only, because its slashes are just those of the template. -/

namespace PathRouting

namespace Element

def written (σ : Text → Text) : Element → Text
  | literal text _ => text
  | parameter name _ => Percent.encode (σ name)
  | wildcard => []

/-- The elements of a chunk are literals and at most one parameter. -/
def Linear (es : List Element) : Prop :=
  wildcard ∉ es ∧ (es.flatMap names).length ≤ 1

end Element

namespace Template

def ending (path : Text) : Text := if path.getLast? = some '/' then ['/'] else []

/-- The link of a path, its chunks having the elements `ess`: a slash, the chunks with a slash
between them, each parameter as the escapes of its value, and a slash behind them if the path
ends in one. -/
def link (σ : Text → Text) (path : Text) (ess : List (List Element)) : Text :=
  '/' :: Text.join ['/'] (ess.map (·.flatMap (Element.written σ))) ++ ending path

def Piece.written (σ : Text → Text) (path : Text) : Piece → Text
  | separator => ['/']
  | element e => e.written σ
  | suffix => ending path

variable {policy : Policy} {path : Text} {σ : Text → Text} {ess : List (List Element)}
  {cut : List Text}

theorem flatten_map_written (σ : Text → Text) (path : Text) (ess : List (List Element)) :
    ((pieces ess).map (Piece.written σ path)).flatten = link σ path ess := by
  have hinner := flatMap_intercalate (Piece.written σ path) ess
  simp only [List.flatMap_def] at hinner
  simp [pieces, link, hinner, Piece.written, List.flatMap_def]

/-! ## Links have a cut -/

theorem takes_written {e : Element} (h : ∀ n ∈ e.names, σ n ≠ []) :
    e.Takes policy (e.written σ) := by
  cases e with
  | literal text raw => exact List.forall₂_same.mpr fun c _ => policy.same_refl c
  | wildcard => exact List.not_mem_nil
  | parameter name reach =>
      have hvalue : σ name ≠ [] := h name (by simp [Element.names])
      cases reach with
      | chunk => exact ⟨Percent.encode_ne_nil hvalue, Percent.slash_notMem_encode (σ name)⟩
      | path => exact ⟨Percent.encode_ne_nil hvalue, Percent.newline_notMem_encode (σ name)⟩

theorem ending_eq (policy : Policy) (hpath : path ≠ ['/']) :
    ending path = (policy.tail path).least := by
  unfold ending Policy.tail
  rw [if_neg hpath]
  split
  · rfl
  · split <;> rfl

theorem isSuffix_ending (policy : Policy) (hpath : path ≠ ['/']) :
    policy.IsSuffix path (ending path) := by
  rw [Policy.isSuffix_iff, ending_eq policy hpath]
  exact (policy.tail path).takes_least policy

/-- The texts of the pieces of a link are a cut of it. -/
theorem isCut_written (policy : Policy) (hpath : path ≠ ['/'])
    (hvalues : ∀ es ∈ ess, ∀ e ∈ es, ∀ n ∈ e.names, σ n ≠ []) :
    IsCut policy path (pieces ess) (link σ path ess)
      ((pieces ess).map (Piece.written σ path)) := by
  refine ⟨?_, flatten_map_written σ path ess⟩
  rw [List.forall₂_map_right_iff, List.forall₂_same]
  apply forall_mem_pieces
  · exact policy.isSeparator_slash
  · exact isSuffix_ending policy hpath
  · intro es hes e he
    exact takes_written (hvalues es hes e he)

/-! ## The slashes of a link -/

def Piece.slashes (path : Text) : Piece → Nat
  | separator => 1
  | element _ => 0
  | suffix => (ending path).length

theorem eq_replicate_slash {t : Text} (h : ∀ c ∈ t, c = '/') :
    t = List.replicate (t.count '/') '/' := by
  have hcount : t.count '/' = t.length := List.count_eq_length.mpr fun c hc => (h c hc).symm
  rw [hcount]
  exact List.eq_replicate_of_mem h

theorem forall_of_isSuffix {t : Text} (hpath : path ≠ ['/']) (h : policy.IsSuffix path t) :
    (ending path).length ≤ t.count '/' ∧ ∀ c ∈ t, c = '/' := by
  obtain ⟨hlength, hall⟩ := Tail.forall_of_takes ((policy.isSuffix_iff path t).mp h)
  have hcount : t.count '/' = t.length := List.count_eq_length.mpr fun c hc => (hall c hc).symm
  rw [ending_eq policy hpath, hcount]
  exact ⟨hlength, hall⟩

theorem slashes_le {p : Piece} {t : Text} (hpath : path ≠ ['/'])
    (h : p.Takes policy path t) : p.slashes path ≤ t.count '/' := by
  cases p with
  | separator =>
      obtain ⟨hne, hall⟩ := Policy.forall_of_isSeparator h
      obtain ⟨c, cs, rfl⟩ := List.exists_cons_of_ne_nil hne
      simp [Piece.slashes, hall c (by simp)]
  | element e => exact Nat.zero_le _
  | suffix => exact (forall_of_isSuffix hpath h).1

/-- A text that a piece can stand for and that has no more slashes than the piece has in a
link. -/
def Piece.Fits (policy : Policy) (path : Text) : Piece → Text → Prop
  | separator, t => t = ['/']
  | element e, t => e.Takes policy t ∧ '/' ∉ t
  | suffix, t => t = ending path

theorem fits_of_takes {p : Piece} {t : Text} (hpath : path ≠ ['/'])
    (h : p.Takes policy path t) (hcount : p.slashes path = t.count '/') :
    p.Fits policy path t := by
  cases p with
  | separator =>
      have ht := eq_replicate_slash (Policy.forall_of_isSeparator h).2
      rwa [← hcount] at ht
  | element e => exact ⟨h, List.count_eq_zero.mp hcount.symm⟩
  | suffix =>
      have ht := eq_replicate_slash (forall_of_isSuffix hpath h).2
      have hending : ∀ c ∈ ending path, c = '/' := by
        unfold ending
        split <;> simp
      rw [ht, ← hcount]
      exact (List.eq_replicate_of_mem hending).symm

theorem sum_le_of_forall₂ {α β : Type} {R : α → β → Prop} {f : α → Nat} {g : β → Nat}
    {xs : List α} {ys : List β} (h : List.Forall₂ R xs ys) (hle : ∀ x y, R x y → f x ≤ g y) :
    (xs.map f).sum ≤ (ys.map g).sum := by
  induction h with
  | nil => exact Nat.le_refl _
  | cons hxy _ ih =>
      have hfirst := hle _ _ hxy
      simp only [List.map_cons, List.sum_cons]
      omega

/-- Numbers that are bounded by others one by one, but not in their sum, are equal to them. -/
theorem forall₂_eq_of_sum_le {α β : Type} {R : α → β → Prop} {f : α → Nat} {g : β → Nat}
    {xs : List α} {ys : List β} (h : List.Forall₂ R xs ys) (hle : ∀ x y, R x y → f x ≤ g y)
    (hsum : (ys.map g).sum ≤ (xs.map f).sum) :
    List.Forall₂ (fun x y => R x y ∧ f x = g y) xs ys := by
  induction h with
  | nil => exact .nil
  | @cons x y xs ys hxy hrest ih =>
      have hfirst := hle x y hxy
      have hbound := sum_le_of_forall₂ hrest hle
      simp only [List.map_cons, List.sum_cons] at hsum
      exact .cons ⟨hxy, by omega⟩ (ih (by omega))

/-- A cut of a text with no more slashes than a link gives every piece as many of them as it
has in the link. -/
theorem fits_of_isCut {uri : Text} {ps : List Piece} (hpath : path ≠ ['/'])
    (h : IsCut policy path ps uri cut)
    (hcount : uri.count '/' ≤ (ps.map (Piece.slashes path)).sum) :
    List.Forall₂ (Piece.Fits policy path) ps cut := by
  have hsum : (cut.map (List.count '/')).sum ≤ (ps.map (Piece.slashes path)).sum := by
    rwa [← List.count_flatten, h.whole]
  have hequal := forall₂_eq_of_sum_le h.takes (fun p t => slashes_le hpath) hsum
  exact hequal.imp fun p t hp => fits_of_takes hpath hp.1 hp.2

/-! ## A link has one cut only -/

theorem length_of_takes_literal {e : Element} {t : Text} (h : e.Takes policy t)
    (hnames : e.names = []) (hwildcard : e ≠ .wildcard) :
    t.length = (e.written σ).length := by
  cases e with
  | literal text raw => exact h.length_eq.symm
  | parameter name reach => simp [Element.names] at hnames
  | wildcard => exact absurd rfl hwildcard

/-- Literals take texts of the length that they have in a link. -/
theorem length_flatten_of_literals {es : List Element} {ts : List Text}
    (h : List.Forall₂ (Element.Takes policy) es ts) (hnames : es.flatMap Element.names = [])
    (hwildcard : .wildcard ∉ es) :
    ts.flatten.length = (es.flatMap (Element.written σ)).length := by
  induction h with
  | nil => rfl
  | @cons e t es ts ht _ ih =>
      simp only [List.flatMap_cons, List.append_eq_nil_iff, List.mem_cons, not_or]
        at hnames hwildcard
      have hfirst := length_of_takes_literal (σ := σ) ht hnames.1 (Ne.symm hwildcard.1)
      have hrest := ih hnames.2 hwildcard.2
      simp [hfirst, hrest]

/-- The text of a chunk in a link can be cut into the elements of the chunk in one way only:
the literals have their length, and so the parameter has the rest. -/
theorem eq_map_written {es : List Element} {ts : List Text} (hlinear : Element.Linear es)
    (h : List.Forall₂ (Element.Takes policy) es ts)
    (hwhole : ts.flatten = es.flatMap (Element.written σ)) :
    ts = es.map (Element.written σ) := by
  induction h with
  | nil => rfl
  | @cons e t es ts ht hrest ih =>
      obtain ⟨hwildcard, hnames⟩ := hlinear
      simp only [List.mem_cons, not_or, List.flatMap_cons, List.length_append] at hwildcard hnames
      have hlength : t.length = (e.written σ).length := by
        have hsum := congrArg List.length hwhole
        simp only [List.flatten_cons, List.flatMap_cons, List.length_append] at hsum
        cases hname : e.names with
        | nil => exact length_of_takes_literal ht hname (Ne.symm hwildcard.1)
        | cons n ns =>
            rw [hname, List.length_cons] at hnames
            have hliterals : es.flatMap Element.names = [] :=
              List.eq_nil_of_length_eq_zero (by omega)
            have htotal := length_flatten_of_literals (σ := σ) hrest hliterals hwildcard.2
            omega
      obtain ⟨rfl, hrest⟩ := List.append_inj (by simpa using hwhole) hlength
      rw [List.map_cons, ih ⟨hwildcard.2, by omega⟩ hrest]

theorem exists_chunk_of_fits {es : List Element} {ps : List Piece}
    (h : List.Forall₂ (Piece.Fits policy path) (es.map .element ++ ps) cut) :
    ∃ ts rest, cut = ts ++ rest ∧ List.Forall₂ (Element.Takes policy) es ts ∧
      '/' ∉ ts.flatten ∧ List.Forall₂ (Piece.Fits policy path) ps rest := by
  obtain ⟨ts, rest, rfl, hts, hrest⟩ := exists_append_of_forall₂ h
  rw [List.forall₂_map_left_iff] at hts
  refine ⟨ts, rest, rfl, hts.imp fun e t ht => ht.1, ?_, hrest⟩
  rw [List.mem_flatten]
  rintro ⟨t, ht, hslash⟩
  obtain ⟨e, _, hfits⟩ := exists_left_of_mem hts ht
  exact hfits.2 hslash

/-- The texts of chunks between single slashes are those that the chunks have in a link. -/
theorem eq_map_written_of_fits (hlinear : ∀ es ∈ ess, Element.Linear es)
    (hslash : ∀ es ∈ ess, '/' ∉ es.flatMap (Element.written σ))
    (h : List.Forall₂ (Piece.Fits policy path)
      ([Piece.separator].intercalate (ess.map fun es => es.map Piece.element) ++ [Piece.suffix])
      cut)
    (hwhole : cut.flatten = Text.join ['/'] (ess.map (·.flatMap (Element.written σ))) ++
      ending path) :
    cut = ([Piece.separator].intercalate (ess.map fun es => es.map Piece.element) ++
      [Piece.suffix]).map (Piece.written σ path) := by
  induction ess generalizing cut with
  | nil =>
      cases h with
      | cons hsuffix hrest =>
          cases hrest
          rw [show _ = ending path from hsuffix]
          rfl
  | cons es ess ih =>
      have hes := hlinear es (by simp)
      cases ess with
      | nil =>
          obtain ⟨ts, rest, rfl, hts, _, hrest⟩ := exists_chunk_of_fits (by simpa using h)
          cases hrest with
          | cons hsuffix hrest =>
              cases hrest
              obtain rfl : _ = ending path := hsuffix
              have hchunk : ts.flatten = es.flatMap (Element.written σ) := by
                simpa [Text.join] using hwhole
              simp [eq_map_written hes hts hchunk, Piece.written, Function.comp_def]
      | cons fs ess =>
          simp only [List.map_cons, List.intercalate_cons_cons, List.append_assoc] at h hwhole ih ⊢
          obtain ⟨ts, rest, rfl, hts, hplain, hrest⟩ := exists_chunk_of_fits h
          cases hrest with
          | @cons _ t _ rest hseparator hrest =>
              obtain rfl : t = ['/'] := hseparator
              have hjoin : ts.flatten ++ '/' :: rest.flatten =
                  es.flatMap (Element.written σ) ++ '/' ::
                    (Text.join ['/'] ((fs :: ess).map (·.flatMap (Element.written σ))) ++
                      ending path) := by
                simpa [Text.join] using hwhole
              obtain ⟨hchunk, hlater⟩ := Element.append_inj_of_class (p := (· ≠ '/'))
                (forall_ne_iff_notMem.mpr hplain) (by simp)
                (forall_ne_iff_notMem.mpr (hslash es (by simp))) (by simp) hjoin
              have htail := ih (fun es hes => hlinear es (by simp [hes]))
                (fun es hes => hslash es (by simp [hes])) hrest (List.cons.inj hlater).2
              rw [eq_map_written hes hts hchunk, htail]
              simp [Piece.written, Function.comp_def]

/-- A link can be cut in one way only. -/
theorem cut_eq_written (hpath : path ≠ ['/']) (hlinear : ∀ es ∈ ess, Element.Linear es)
    (hslash : ∀ es ∈ ess, '/' ∉ es.flatMap (Element.written σ))
    (h : IsCut policy path (pieces ess) (link σ path ess) cut) :
    cut = (pieces ess).map (Piece.written σ path) := by
  have hcount : (link σ path ess).count '/' = ((pieces ess).map (Piece.slashes path)).sum := by
    rw [← flatten_map_written, List.count_flatten, List.map_map]
    apply congrArg List.sum
    apply List.map_congr_left
    apply forall_mem_pieces
    · rfl
    · simp only [Function.comp_apply, Piece.written, Piece.slashes, ending]
      split <;> rfl
    · intro es hes e he
      apply List.count_eq_zero.mpr
      intro hmem
      exact hslash es hes (List.mem_flatMap.mpr ⟨e, he, hmem⟩)
  have hfits := fits_of_isCut hpath h hcount.le
  have hwhole := h.whole
  rw [pieces, List.cons_append] at hfits ⊢
  cases hfits with
  | @cons _ t _ rest hseparator hrest =>
      obtain rfl : t = ['/'] := hseparator
      rw [eq_map_written_of_fits hlinear hslash hrest (by simpa [link] using hwhole)]
      rfl

/-! ## Values of links -/

theorem given_map_written (ps : List Piece) :
    (given ps (ps.map (Piece.written σ path))).map Given.value =
      (ps.flatMap Piece.names).map fun name => (name, σ name) := by
  induction ps with
  | nil => rfl
  | cons p ps ih =>
      cases p with
      | separator => simpa [given, Piece.names] using ih
      | suffix => simpa [given, Piece.names] using ih
      | element e =>
          cases e with
          | literal text raw => simpa [given, Piece.names, Element.names] using ih
          | wildcard => simpa [given, Piece.names, Element.names] using ih
          | parameter name reach =>
              simp [given, Piece.names, Element.names, ih, Piece.written, Element.written,
                Given.value, Percent.decode_encode]

/-- Only the separators of a link and its ending hold slashes. -/
theorem slash_notMem_written (σ : Text → Text)
    (h : List.Forall₂ (Element.Spelling false) (chunks path) ess) :
    ∀ es ∈ ess, '/' ∉ es.flatMap (Element.written σ) := by
  intro es hes hslash
  obtain ⟨e, he, hslash⟩ := List.mem_flatMap.mp hslash
  have hsolid := solid_of_spelled h es hes e he
  cases e with
  | literal text raw => exact hsolid.2 hslash
  | parameter name reach => exact Percent.slash_notMem_encode (σ name) hslash
  | wildcard => exact List.not_mem_nil hslash

/-- Values are taken from the first way to follow a template; if it has one cut only, they are
those of this cut. -/
theorem Extracts.eq_given {uri : Text} {ways later : List (List (List Element))}
    {way : List (List Element)} {values : List Given} (h : Extracts policy path uri ways values)
    (hways : ways = way :: later) (hcut : IsCut policy path (pieces way) uri cut)
    (hunique : ∀ other, IsCut policy path (pieces way) uri other → other = cut) :
    values = given (pieces way) cut := by
  obtain ⟨before, way', after, cut', hsplit, hbefore, hfirst, rfl⟩ := h
  cases before with
  | nil =>
      obtain rfl := (List.cons.inj (hsplit.symm.trans hways)).1
      rw [hunique cut' hfirst.isCut]
  | cons earlier before =>
      obtain rfl := (List.cons.inj (hsplit.symm.trans hways)).1
      exact absurd hcut (hbefore earlier (by simp) cut)

theorem exists_waysOf_eq_cons (path : Text) (ess : List (List Element)) :
    ∃ later, waysOf path ess = ess :: later := by
  unfold waysOf
  split <;> exact ⟨_, rfl⟩

/-- A template with plain literals and at most one parameter to a chunk accepts every link of
its path, and the values that it takes out of the link are those of which the link has been
built. -/
theorem params_link (hraw : policy.rawLiterals = false) {t : Template}
    (h : ofPath policy path = .ok t) (hchunks : chunks path ≠ [])
    (hspelled : List.Forall₂ (Element.Spelling false) (chunks path) ess)
    (hlinear : ∀ es ∈ ess, Element.Linear es) (hvalues : ∀ name ∈ t.names, σ name ≠ []) :
    t.accepts (link σ path ess) = true ∧
      t.params (link σ path ess) = t.names.map (fun name => (name, σ name)) ∧
        t.names.Nodup := by
  obtain ⟨ess', hmade⟩ := exists_madeOf hraw h
  obtain rfl := spelled_unique hspelled hmade.spelled
  have hpath : path ≠ ['/'] := by
    rintro rfl
    exact hchunks (by decide)
  have hnonempty : ∀ es ∈ ess, ∀ e ∈ es, ∀ n ∈ e.names, σ n ≠ [] := by
    intro es hes e he n hn
    apply hvalues
    rw [hmade.names_eq]
    exact List.mem_flatMap.mpr ⟨es, hes, List.mem_flatMap.mpr ⟨e, he, hn⟩⟩
  have hcut := isCut_written policy hpath hnonempty
  obtain ⟨later, hways⟩ := exists_waysOf_eq_cons path ess
  have hway : ess ∈ waysOf path ess := by simp [hways]
  have haccepts : t.accepts (link σ path ess) = true :=
    (hmade.accepts_iff _).mpr ⟨ess, hway, _, hcut⟩
  obtain ⟨values, hextracts, hparams, _⟩ := hmade.exists_extracts haccepts
  have hvalues : values = given (pieces ess) ((pieces ess).map (Piece.written σ path)) :=
    hextracts.eq_given hways hcut fun other hother =>
      cut_eq_written hpath hlinear (slash_notMem_written σ hspelled) hother
  refine ⟨haccepts, ?_, hmade.nodup⟩
  rw [hparams, hvalues, given_map_written, flatMap_names_pieces hway, hmade.names_eq]

theorem params_link_slashes :
    ∃ t, ofPath { caseless := true, mergeSlashes := true } "/V<x>!//{y}*".toList = .ok t ∧
      t.accepts "/Va%2Fb%25%0A!/c%2B%20%C3%A9".toList = true ∧
        t.params "/Va%2Fb%25%0A!/c%2B%20%C3%A9".toList =
          [("x".toList, "a/b%\n".toList), ("y".toList, "c+ é".toList)] := by
  let σ (name : Text) : Text := if name = "x".toList then "a/b%\n".toList else "c+ é".toList
  let ess : List (List Element) :=
    [[.literal "V".toList false, .parameter "x".toList .path, .literal "!".toList false],
      [.parameter "y".toList .chunk]]
  have h : (ofPath { caseless := true, mergeSlashes := true } "/V<x>!//{y}*".toList).toOption.any
      (fun t => t.names == ["x".toList, "y".toList] &&
        t.segments.map Segment.elements == ess) = true := by decide +kernel
  obtain ⟨t, ht, hvalues⟩ := exists_ok_of_any h
  obtain ⟨hnames, helements⟩ := Bool.and_eq_true_iff.mp hvalues
  rw [beq_iff_eq] at hnames helements
  have hspelled := spelled_of_ofPath ht
  rw [helements] at hspelled
  have hlink : link σ "/V<x>!//{y}*".toList ess = "/Va%2Fb%25%0A!/c%2B%20%C3%A9".toList := by
    decide +kernel
  obtain ⟨haccepts, hparams, _⟩ := params_link (σ := σ) rfl ht (by decide) hspelled
    (by simp [ess, Element.Linear, Element.names]) (by rw [hnames]; decide)
  rw [hlink] at haccepts hparams
  rw [hnames] at hparams
  exact ⟨t, ht, haccepts, hparams⟩

end Template

end PathRouting

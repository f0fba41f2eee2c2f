import Mathlib.Data.List.Basic
import PathRouting.Regex.Groups

/-! # The tables of characters and of names

A run-length table lists its runs in increasing order, so the search by halves finds the run of a
code point, and the first lines of a table tell the tags of the first code points whatever the
further lines are. The names of properties and groups are made of a few kinds of characters. -/

namespace PathRouting.Unicode

/-! ## Run-length tables -/

namespace RunsReader

/-- The second reader has gone on from where the first one stopped: its further runs are in
increasing order and lie between the two places. -/
structure GoesOn (s s' : RunsReader) (more : List (Nat × String)) : Prop where
  runs : s'.runs.toList = s.runs.toList ++ more
  sorted : (more.map (·.1)).Pairwise (· ≤ ·)
  start : s.start ≤ s'.start
  between : ∀ r ∈ more, s.start ≤ r.1 ∧ r.1 ≤ s'.start

namespace GoesOn

variable {s s' s'' : RunsReader} {more more' : List (Nat × String)}

theorem stay (hruns : s'.runs = s.runs) (hstart : s'.start = s.start) : GoesOn s s' [] :=
  ⟨by simp [hruns], .nil, Nat.le_of_eq hstart.symm, by simp⟩

theorem trans (h : GoesOn s s' more) (h' : GoesOn s' s'' more') :
    GoesOn s s'' (more ++ more') := by
  refine ⟨by rw [h'.runs, h.runs, List.append_assoc], ?_, Nat.le_trans h.start h'.start, ?_⟩
  · rw [List.map_append, List.pairwise_append]
    refine ⟨h.sorted, h'.sorted, ?_⟩
    simp only [List.mem_map]
    rintro _ ⟨r, hr, rfl⟩ _ ⟨r', hr', rfl⟩
    exact Nat.le_trans (h.between r hr).2 (h'.between r' hr').1
  · intro r hr
    rcases List.mem_append.mp hr with hr | hr
    · exact ⟨(h.between r hr).1, Nat.le_trans (h.between r hr).2 h'.start⟩
    · exact ⟨Nat.le_trans h.start (h'.between r hr).1, (h'.between r hr).2⟩

theorem close (s : RunsReader) : ∃ more, GoesOn s s.close more := by
  unfold RunsReader.close
  split
  · exact ⟨[], stay rfl rfl⟩
  · refine ⟨[(s.start, String.ofList s.tag.reverse)], ?_, ?_, Nat.le_add_right _ _, ?_⟩
    · simp
    · simp
    · simp

theorem step (s : RunsReader) (c : Char) : ∃ more, GoesOn s (s.step c) more := by
  unfold RunsReader.step
  split
  · obtain ⟨more, hclose⟩ := close s
    exact ⟨more, hclose.runs, hclose.sorted, hclose.start, hclose.between⟩
  · split
    · exact ⟨[], stay rfl rfl⟩
    · exact ⟨[], stay rfl rfl⟩

theorem foldl (s : RunsReader) (cs : List Char) :
    ∃ more, GoesOn s (cs.foldl RunsReader.step s) more := by
  induction cs generalizing s with
  | nil => exact ⟨[], stay rfl rfl⟩
  | cons c cs ih =>
      obtain ⟨more, hstep⟩ := step s c
      obtain ⟨more', hrest⟩ := ih (s.step c)
      exact ⟨more ++ more', hstep.trans hrest⟩

theorem lines (s : RunsReader) (ls : List String) :
    ∃ more, GoesOn s
      (ls.foldl (fun s (line : String) => line.toList.foldl RunsReader.step s) s) more := by
  induction ls generalizing s with
  | nil => exact ⟨[], stay rfl rfl⟩
  | cons l ls ih =>
      obtain ⟨more, hline⟩ := foldl s l.toList
      obtain ⟨more', hrest⟩ := ih (l.toList.foldl RunsReader.step s)
      exact ⟨more ++ more', hline.trans hrest⟩

end GoesOn

end RunsReader

namespace Runs

/-- The runs of a table begin with those of its first line, and all are in increasing order. -/
theorem exists_read_cons (line : String) (ls : List String) :
    ∃ more, (read (line :: ls)).toList =
        (line.toList.foldl RunsReader.step {}).runs.toList ++ more ∧
      ((read (line :: ls)).toList.map (·.1)).Pairwise (· ≤ ·) := by
  obtain ⟨first, hfirst⟩ := RunsReader.GoesOn.foldl {} line.toList
  obtain ⟨more, hmore⟩ :=
    RunsReader.GoesOn.lines (line.toList.foldl RunsReader.step {}) ls
  obtain ⟨last, hlast⟩ := RunsReader.GoesOn.close
    (ls.foldl (fun s (line : String) => line.toList.foldl RunsReader.step s)
      (line.toList.foldl RunsReader.step {}))
  have hall := hfirst.trans (hmore.trans hlast)
  have hruns : (read (line :: ls)).toList = first ++ (more ++ last) := by
    simpa [read] using hall.runs
  refine ⟨more ++ last, (hmore.trans hlast).runs, ?_⟩
  rw [hruns]
  exact hall.sorted

def startOf (runs : Runs) (i : Nat) : Nat := ((runs[i]?).getD (0, "")).1

/-- The search by halves finds the run that starts at or before a code point and whose follower
does not. -/
theorem search_eq {runs : Runs} {n i : Nat}
    (hsorted : ∀ j k, j ≤ k → k < runs.size → runs.startOf j ≤ runs.startOf k)
    (hfrom : runs.startOf i ≤ n) (hto : i + 1 < runs.size → n < runs.startOf (i + 1))
    {fuel low high : Nat} (hlow : low ≤ i) (hhigh : i < high) (hsize : high ≤ runs.size)
    (hfuel : high ≤ low + fuel + 1) :
    runs.search n fuel low high = ((runs[i]?).getD (0, "")).2 := by
  induction fuel generalizing low high with
  | zero =>
      obtain rfl : low = i := by omega
      rfl
  | succ fuel ih =>
      simp only [search]
      split
      · obtain rfl : low = i := by omega
        rfl
      · have hmiddle : low < (low + high) / 2 ∧ (low + high) / 2 < high := by omega
        generalize (low + high) / 2 = middle at hmiddle ⊢
        change (if runs.startOf middle ≤ n then _ else _) = _
        by_cases hstart : runs.startOf middle ≤ n
        · have hi : middle ≤ i := by
            by_contra hlt
            have hnext := hsorted (i + 1) middle (by omega) (by omega)
            have hbelow := hto (by omega)
            omega
          rw [if_pos hstart]
          exact ih hi hhigh hsize (by omega)
        · have hi : i < middle := by
            by_contra hle
            have hnext := hsorted middle i (by omega) (by omega)
            omega
          rw [if_neg hstart]
          exact ih hlow hi (by omega) (by omega)

/-- A code point in a run that the first line of a table ends has the tag of this run. -/
theorem tagOf_read_cons {line : String} {ls : List String} {n i a b : Nat} {tag : String}
    (hrun : (line.toList.foldl RunsReader.step {}).runs.toList[i]? = some (a, tag))
    (hnext : (line.toList.foldl RunsReader.step {}).runs.toList[i + 1]?.map (·.1) = some b)
    (hfrom : a ≤ n) (hto : n < b) : (read (line :: ls)).tagOf n = tag := by
  obtain ⟨more, hruns, hsorted⟩ := exists_read_cons line ls
  have hget {j : Nat} {r : Nat × String}
      (h : (line.toList.foldl RunsReader.step {}).runs.toList[j]? = some r) :
      (read (line :: ls))[j]? = some r := by
    rw [← Array.getElem?_toList, hruns, List.getElem?_append_left
      (List.getElem?_eq_some_iff.mp h).1, h]
  obtain ⟨next, hfollower, rfl⟩ := Option.map_eq_some_iff.mp hnext
  have hhere := hget hrun
  have hthere := hget hfollower
  have hsize : i + 1 < (read (line :: ls)).size := (Array.getElem?_eq_some_iff.mp hthere).1
  rw [tagOf, search_eq (i := i) ?_ ?_ ?_ (Nat.zero_le i) (by omega) (Nat.le_refl _) (by omega),
    hhere]
  · rfl
  · intro j k hjk hk
    rcases Nat.eq_or_lt_of_le hjk with rfl | hlt
    · exact Nat.le_refl _
    · have hpair := List.pairwise_iff_getElem.mp hsorted j k (by simp; omega) (by simpa) hlt
      simpa [startOf, Array.getElem?_eq_getElem, hk, Nat.lt_trans hlt hk] using hpair
  · simpa [startOf, hhere] using hfrom
  · intro _
    simpa [startOf, hthere] using hto

end Runs

theorem category_star : category '*' = "Po" :=
  Runs.tagOf_read_cons (i := 7) (a := 42) (b := 43) (by decide +kernel) (by decide +kernel)
    (by decide) (by decide)

theorem category_backslash : category '\\' = "Po" :=
  Runs.tagOf_read_cons (i := 18) (a := 92) (b := 93) (by decide +kernel) (by decide +kernel)
    (by decide) (by decide)

/-- Punctuation is not alphabetic unless it has been added by name. -/
theorem hasBinary_alphabetic {c : Char} (hc : c = '*' ∨ c = '\\') :
    hasBinary "alphabetic" c = false := by
  obtain ⟨p, hp, hstar, hbackslash, hpunctuation⟩ :
      ∃ p, Binary.named? "alphabetic" = some p ∧ p.added.contain '*'.toNat = false ∧
        p.added.contain '\\'.toNat = false ∧ p.categories.contains "Po" = false :=
    ⟨_, rfl, by decide +kernel, by decide +kernel, by decide +kernel⟩
  rcases hc with rfl | rfl
  · simp only [hasBinary, hp, Binary.holds, hstar, category_star, hpunctuation, Bool.false_and,
      Bool.or_false]
  · simp only [hasBinary, hp, Binary.holds, hbackslash, category_backslash, hpunctuation,
      Bool.false_and, Bool.or_false]

/-! ## Names -/

/-- Stars and backslashes do not stand in the names of groups. -/
theorem isNameChar_eq_false {c : Char} (hc : c = '*' ∨ c = '\\') (first : Bool) :
    Regex.isNameChar first c = false := by
  have hbinary := hasBinary_alphabetic hc
  have hcategory : category c = "Po" := by
    rcases hc with rfl | rfl
    · exact category_star
    · exact category_backslash
  simp only [Regex.isNameChar, hbinary, hcategory]
  rcases hc with rfl | rfl <;> cases first <;> decide

def isPlain (c : Char) : Bool := c != '.' && c != '\\'

theorem isPlain_iff {c : Char} : isPlain c = true ↔ c ≠ '.' ∧ c ≠ '\\' := by
  simp [isPlain]

theorem binaryTable_plain :
    (binaryTable.all fun row => row.1.all fun name => name.toList.all isPlain) = true := by
  decide +kernel

theorem categoryNames_plain :
    (categoryNames.all fun row => row.1.all fun name => name.toList.all isPlain) = true := by
  decide +kernel

theorem scriptNames_plain :
    (scriptNames.all fun row => row.2.all fun name => name.toList.all isPlain) = true := by
  decide +kernel

theorem plain_of_binary {name : String} {p : Binary} (h : Binary.named? name = some p) :
    name.toList.all isPlain = true := by
  have hmem := List.mem_of_find?_eq_some h
  have hname := List.find?_some h
  simp only [binaries, List.mem_map] at hmem
  obtain ⟨row, hrow, rfl⟩ := hmem
  have hplain := List.all_eq_true.mp binaryTable_plain row hrow
  exact List.all_eq_true.mp hplain name (by simpa using hname)

namespace Property

theorem plain_of_category {name : String} {p : Property} (h : categoryNamed? name = some p) :
    name.toList.all isPlain = true := by
  unfold categoryNamed? at h
  split at h
  · simp_all; decide
  · split at h
    · simp_all; decide
    · split at h
      · simp_all; decide
      · obtain ⟨row, hrow, _⟩ := Option.map_eq_some_iff.mp h
        have hname := List.find?_some hrow
        have hplain := List.all_eq_true.mp categoryNames_plain row (List.mem_of_find?_eq_some hrow)
        exact List.all_eq_true.mp hplain name (by simpa using hname)

theorem plain_of_script {name code : String} (h : scriptCode? name = some code) :
    name.toList.all isPlain = true := by
  obtain ⟨row, hrow, _⟩ := Option.map_eq_some_iff.mp h
  have hname := List.find?_some hrow
  have hplain := List.all_eq_true.mp scriptNames_plain row (List.mem_of_find?_eq_some hrow)
  exact List.all_eq_true.mp hplain name (by simpa using hname)

/-- The form in which names are compared keeps what does not stand in names. -/
theorem mem_plainName {c : Char} (hc : isPlain c = false) {name : Text} (h : c ∈ name) :
    c ∈ (plainName name).toList := by
  have hsign : c = '.' ∨ c = '\\' := by
    by_contra hplain
    rw [not_or, ← isPlain_iff, hc] at hplain
    exact absurd hplain (by simp)
  have hlower : c ∈ Text.lowerAscii name := by
    refine List.mem_map.mpr ⟨c, h, ?_⟩
    rcases hsign with rfl | rfl <;> decide
  have hletters : c ≠ 'i' ∧ c ≠ 's' ∧ c ≠ 'c' ∧
      (c != ' ' && c != '_' && c != '-' && decide (c.toNat < 0x80)) = true := by
    rcases hsign with rfl | rfl <;> decide
  have hcounted : c ∈ (if ['i', 's'].isPrefixOf (Text.lowerAscii name) then
      (Text.lowerAscii name).drop 2 else Text.lowerAscii name) := by
    split
    · rename_i hform
      obtain ⟨rest, hrest⟩ := List.isPrefixOf_iff_prefix.mp hform
      rw [← hrest] at hlower ⊢
      simpa [hletters] using hlower
    · exact hlower
  have hkept := List.mem_filter (p := fun c => c != ' ' && c != '_' && c != '-' &&
    decide (c.toNat < 0x80)).mpr ⟨hcounted, hletters.2.2.2⟩
  simp only [plainName]
  generalize List.filter _ _ = counted at hkept ⊢
  split
  · rename_i hform
    simp only [Bool.and_eq_true, beq_iff_eq] at hform
    rw [hform.2] at hkept
    exact absurd (List.mem_singleton.mp hkept) hletters.2.2.1
  · rw [String.toList_ofList]
    exact hkept

theorem plain_of_plainName {name : Text} (h : (plainName name).toList.all isPlain = true) :
    name.all isPlain = true := by
  rw [List.all_eq_true] at h ⊢
  intro c hc
  by_contra hplain
  have hplain := Bool.eq_false_iff.mpr hplain
  exact absurd (h c (mem_plainName hplain hc)) (by simp [hplain])

theorem plain_of_named {name : Text} {p : Property} (h : named? name = some p) :
    name.all isPlain = true := by
  apply plain_of_plainName
  unfold named? at h
  generalize plainName name = plain at h ⊢
  simp only [Option.orElse_eq_orElse, Option.orElse_eq_or, Option.or_eq_some_iff,
    Option.map_eq_some_iff] at h
  rcases h with hbinary | ⟨-, hcategory | ⟨-, code, hcode, -⟩⟩
  · split at hbinary
    · simp at hbinary
    · obtain ⟨q, hq, -⟩ := Option.map_eq_some_iff.mp hbinary
      exact plain_of_binary hq
  · exact plain_of_category hcategory
  · exact plain_of_script hcode

theorem plain_of_valued {name value : Text} {p : Property} (h : valued? name value = some p) :
    name.all isPlain = true ∧ value.all isPlain = true := by
  have hkinds : (["gc", "generalcategory", "sc", "script", "scx", "scriptextensions"].all
      fun kind => kind.toList.all isPlain) = true := by decide
  suffices hparts : plainName name ∈ ["gc", "generalcategory", "sc", "script", "scx",
      "scriptextensions"] ∧ (plainName value).toList.all isPlain = true from
    ⟨plain_of_plainName (List.all_eq_true.mp hkinds _ hparts.1), plain_of_plainName hparts.2⟩
  simp only [valued?] at h
  generalize plainName name = kind at h ⊢
  split at h
  · rename_i hkind
    exact ⟨by simp at hkind ⊢; tauto, plain_of_category h⟩
  · split at h
    · rename_i hkind
      obtain ⟨code, hcode, -⟩ := Option.map_eq_some_iff.mp h
      exact ⟨by simp at hkind ⊢; tauto, plain_of_script hcode⟩
    · split at h
      · rename_i hkind
        obtain ⟨code, hcode, -⟩ := Option.map_eq_some_iff.mp h
        exact ⟨by simp at hkind ⊢; tauto, plain_of_script hcode⟩
      · simp at h

end Property

end PathRouting.Unicode

namespace PathRouting.Regex

open Unicode

theorem eq_append_of_splitAround {sep t name value : Text}
    (h : splitAround sep t = some (name, value)) : t = name ++ (sep ++ value) := by
  induction t generalizing name with
  | nil => simp [splitAround] at h
  | cons c cs ih =>
      unfold splitAround at h
      split at h
      · rename_i hprefix
        obtain ⟨rfl, rfl⟩ := Prod.mk.inj (Option.some.inj h)
        obtain ⟨rest, hrest⟩ := List.isPrefixOf_iff_prefix.mp hprefix
        rw [← hrest, List.nil_append, List.drop_left]
      · obtain ⟨⟨a, b⟩, hsplit, heq⟩ := Option.map_eq_some_iff.mp h
        obtain ⟨rfl, rfl⟩ := Prod.mk.inj heq
        rw [ih hsplit, List.cons_append]

/-- A text with a dot or a backslash is not the name of a property. -/
theorem plain_of_propertyOf {t : Text} {p : Property} (h : propertyOf? t = some p) :
    t.all isPlain = true := by
  have hvalued {sep name value : Text} (hsep : sep.all isPlain = true)
      (hsplit : splitAround sep t = some (name, value))
      (hp : Property.valued? name value = some p) : t.all isPlain = true := by
    obtain ⟨hname, hvalue⟩ := Property.plain_of_valued hp
    rw [eq_append_of_splitAround hsplit, List.all_append, List.all_append, hname, hsep, hvalue]
    rfl
  unfold propertyOf? at h
  split at h
  · rename_i hsplit
    exact hvalued (by decide) hsplit h
  · split at h
    · rename_i hsplit
      exact hvalued (by decide) hsplit h
    · split at h
      · rename_i hsplit
        exact hvalued (by decide) hsplit h
      · exact Property.plain_of_named h

end PathRouting.Regex

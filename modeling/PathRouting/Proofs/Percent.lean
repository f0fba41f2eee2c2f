import PathRouting.Text.Percent

/-! # Percent escapes are read back

Writing a text with percent escapes and reading the escapes gives the text again. The escapes
are those of the bytes of the text, and the bytes of a character are one character again,
whatever follows them. -/

namespace PathRouting

/-! ## The bytes of a character -/

namespace Utf8

theorem units_cons (pending : Option Unfinished) {n : Nat} (h : n < 256) (rest : List UInt8) :
    units pending (UInt8.ofNat n :: rest) =
      (step pending n).1 ++ units (step pending n).2 rest := by
  have hbyte : (UInt8.ofNat n).toNat = n := by simp [Nat.mod_eq_of_lt h]
  rw [units, hbyte]

theorem units_ascii {n : Nat} (h : n < 0x80) (rest : List UInt8) :
    units none (UInt8.ofNat n :: rest) = some (Char.ofNat n) :: units none rest := by
  rw [units_cons none (by omega)]
  simp [step, start, opening, h]

theorem units_first {n : Nat} {u : Unfinished} (hn : n < 256) (h : opening n = .more u)
    (rest : List UInt8) : units none (UInt8.ofNat n :: rest) = units (some u) rest := by
  rw [units_cons none hn]
  simp [step, start, h]

theorem units_inner {value missing low high n : Nat} (hmissing : 1 < missing) (hlow : low ≤ n)
    (hhigh : n ≤ high) (hn : n < 256) (rest : List UInt8) :
    units (some ⟨value, missing, low, high⟩) (UInt8.ofNat n :: rest) =
      units (some ⟨value * 64 + (n - 0x80), missing - 1, 0x80, 0xBF⟩) rest := by
  have hmore : ¬missing ≤ 1 := by omega
  rw [units_cons _ hn]
  simp [step, hmore, hlow, hhigh]

theorem units_last {value low high n : Nat} (hlow : low ≤ n) (hhigh : n ≤ high) (hn : n < 256)
    (rest : List UInt8) :
    units (some ⟨value, 1, low, high⟩) (UInt8.ofNat n :: rest) =
      some (Char.ofNat (value * 64 + (n - 0x80))) :: units none rest := by
  rw [units_cons _ hn]
  simp [step, hlow, hhigh]

theorem opening_two {x : Nat} (hlow : 2 ≤ x) (hhigh : x < 0x20) :
    opening (x + 0xC0) = .more ⟨x, 1, 0x80, 0xBF⟩ := by
  have h80 : ¬x + 0xC0 < 0x80 := by omega
  have hC2 : ¬x + 0xC0 < 0xC2 := by omega
  have hE0 : x + 0xC0 < 0xE0 := by omega
  simp [opening, h80, hC2, hE0]

/-- The second byte of a character of three bytes is in the range that the first one sets,
since such a character is neither a shorter one nor a surrogate. -/
theorem opening_three {x y : Nat} (hx : x < 0x10) (hy : y < 0x40)
    (hlow : 0x20 ≤ x * 0x40 + y) (hsurrogate : x * 0x40 + y < 0x360 ∨ 0x37F < x * 0x40 + y) :
    ∃ low high, opening (x + 0xE0) = .more ⟨x, 2, low, high⟩ ∧
      low ≤ y + 0x80 ∧ y + 0x80 ≤ high := by
  have h80 : ¬x + 0xE0 < 0x80 := by omega
  have hC2 : ¬x + 0xE0 < 0xC2 := by omega
  have hE0 : ¬x + 0xE0 < 0xE0 := by omega
  have hF0 : x + 0xE0 < 0xF0 := by omega
  by_cases hfirst : x = 0
  · subst hfirst
    exact ⟨0xA0, 0xBF, rfl, by omega, by omega⟩
  · by_cases hD : x = 0xD
    · subst hD
      exact ⟨0x80, 0x9F, rfl, by omega, by omega⟩
    · have hneD : ¬x + 0xE0 = 0xED := by omega
      refine ⟨0x80, 0xBF, ?_, by omega, by omega⟩
      simp [opening, h80, hC2, hE0, hF0, hfirst, hneD]

/-- The second byte of a character of four bytes is in the range that the first one sets. -/
theorem opening_four {x y : Nat} (hy : y < 0x40) (hlow : 0x10 ≤ x * 0x40 + y)
    (hhigh : x * 0x40 + y < 0x110) :
    ∃ low high, opening (x + 0xF0) = .more ⟨x, 3, low, high⟩ ∧
      low ≤ y + 0x80 ∧ y + 0x80 ≤ high := by
  have h80 : ¬x + 0xF0 < 0x80 := by omega
  have hC2 : ¬x + 0xF0 < 0xC2 := by omega
  have hE0 : ¬x + 0xF0 < 0xE0 := by omega
  have hE0' : ¬x + 0xF0 = 0xE0 := by omega
  have hED : ¬x + 0xF0 = 0xED := by omega
  by_cases hfirst : x = 0
  · subst hfirst
    exact ⟨0x90, 0xBF, rfl, by omega, by omega⟩
  · by_cases hfour : x = 4
    · subst hfour
      exact ⟨0x80, 0x8F, rfl, by omega, by omega⟩
    · have hF4 : x + 0xF0 < 0xF4 := by omega
      refine ⟨0x80, 0xBF, ?_, by omega, by omega⟩
      simp [opening, h80, hC2, hE0, hE0', hED, hF4, hfirst]

/-- The bytes of a character are one character, whatever follows them. -/
theorem units_utf8EncodeChar (c : Char) (rest : List UInt8) :
    units none (String.utf8EncodeChar c ++ rest) = some c :: units none rest := by
  have hchar : Char.ofNat c.val.toNat = c := Char.ofNat_toNat c
  have hvalid : c.val.toNat < 0xD800 ∨ 0xDFFF < c.val.toNat ∧ c.val.toNat < 0x110000 := c.valid
  unfold String.utf8EncodeChar
  generalize c.val.toNat = n at hchar hvalid
  simp only
  split
  · rw [List.singleton_append, units_ascii (by omega), hchar]
  · split
    · have hfirst := opening_two (x := n / 64 % 32) (by omega) (by omega)
      have hvalue : n / 64 % 32 * 64 + (n % 64 + 0x80 - 0x80) = n := by omega
      simp only [List.cons_append, List.nil_append]
      rw [units_first (by omega) hfirst, units_last (by omega) (by omega) (by omega), hvalue, hchar]
    · split
      · obtain ⟨low, high, hfirst, hlow, hhigh⟩ := opening_three (x := n / 4096 % 16)
          (y := n / 64 % 64) (by omega) (by omega) (by omega) (by omega)
        have hvalue : (n / 4096 % 16 * 64 + (n / 64 % 64 + 0x80 - 0x80)) * 64 +
            (n % 64 + 0x80 - 0x80) = n := by
          omega
        simp only [List.cons_append, List.nil_append]
        rw [units_first (by omega) hfirst, units_inner (by omega) hlow hhigh (by omega),
          units_last (by omega) (by omega) (by omega), hvalue, hchar]
      · obtain ⟨low, high, hfirst, hlow, hhigh⟩ := opening_four (x := n / 262144 % 8)
          (y := n / 4096 % 64) (by omega) (by omega) (by omega)
        have hvalue : ((n / 262144 % 8 * 64 + (n / 4096 % 64 + 0x80 - 0x80)) * 64 +
            (n / 64 % 64 + 0x80 - 0x80)) * 64 + (n % 64 + 0x80 - 0x80) = n := by
          omega
        simp only [List.cons_append, List.nil_append]
        rw [units_first (by omega) hfirst, units_inner (by omega) hlow hhigh (by omega),
          units_inner (by omega) (by omega) (by omega) (by omega),
          units_last (by omega) (by omega) (by omega), hvalue, hchar]

/-- The bytes of a text are the text again. -/
theorem decodeLossy_encode (t : Text) : decodeLossy (encode t) = t := by
  have hunits : units none (encode t) = t.map some := by
    induction t with
    | nil => rfl
    | cons c cs ih =>
        have hcons : encode (c :: cs) = String.utf8EncodeChar c ++ encode cs := rfl
        rw [hcons, units_utf8EncodeChar, ih, List.map_cons]
  rw [decodeLossy, hunits]
  simp [Function.comp_def]

end Utf8

/-! ## The escapes of bytes -/

namespace Percent

theorem digitValue?_digit {n : Nat} (h : n < 16) : digitValue? (digit n) = some n := by
  have hall : ∀ m < 16, digitValue? (digit m) = some m := by decide
  exact hall n h

theorem bytes_escape (b : UInt8) (rest : Text) : bytes (escape b ++ rest) = b :: bytes rest := by
  have hlt : b.toNat < 256 := b.toNat_lt
  have hbyte : UInt8.ofNat (b.toNat / 16 * 16 + b.toNat % 16) = b := by
    rw [Nat.div_add_mod']
    simp
  simp [escape, bytes, digitValue?_digit (show b.toNat / 16 < 16 by omega),
    digitValue?_digit (show b.toNat % 16 < 16 by omega), hbyte]

theorem bytes_escapes (bs : List UInt8) (rest : Text) :
    bytes (bs.flatMap escape ++ rest) = bs ++ bytes rest := by
  induction bs with
  | nil => rfl
  | cons b bs ih => rw [List.flatMap_cons, List.append_assoc, bytes_escape, ih, List.cons_append]

theorem bytes_cons {c : Char} (hc : c ≠ '%') (rest : Text) :
    bytes (c :: rest) = String.utf8EncodeChar c ++ bytes rest := by
  rw [bytes.eq_2]
  rintro _ _ _ rfl
  exact absurd rfl hc

/-- The escapes of a text stand for the bytes of the text. -/
theorem bytes_encode (t : Text) : bytes (encode t) = Utf8.encode t := by
  induction t with
  | nil => rfl
  | cons c cs ih =>
      have hcons : encode (c :: cs) =
          (if isUnreserved c then [c] else (String.utf8EncodeChar c).flatMap escape) ++
            encode cs := rfl
      have hbytes : Utf8.encode (c :: cs) = String.utf8EncodeChar c ++ Utf8.encode cs := rfl
      rw [hcons, hbytes, ← ih]
      split
      · rename_i hplain
        refine bytes_cons ?_ _
        rintro rfl
        exact absurd hplain (by decide)
      · exact bytes_escapes _ _

/-- Reading what has been written with escapes gives the text again. -/
theorem decode_encode (t : Text) : decode (encode t) = t := by
  rw [decode, bytes_encode, Utf8.decodeLossy_encode]

/-! ## The characters of escapes -/

theorem notMem_encode {c : Char} (hplain : isUnreserved c = false) (hsign : c ≠ '%')
    (hdigit : ∀ n < 16, c ≠ digit n) (t : Text) : c ∉ encode t := by
  intro hc
  obtain ⟨d, _, hc⟩ := List.mem_flatMap.mp hc
  split at hc
  · rename_i hd
    obtain rfl := List.mem_singleton.mp hc
    rw [hplain] at hd
    exact Bool.false_ne_true hd
  · obtain ⟨b, _, hc⟩ := List.mem_flatMap.mp hc
    have hlt : b.toNat < 256 := b.toNat_lt
    simp only [escape, List.mem_cons, List.not_mem_nil, or_false] at hc
    rcases hc with hc | hc | hc
    · exact hsign hc
    · exact hdigit _ (by omega) hc
    · exact hdigit _ (by omega) hc

theorem slash_notMem_encode (t : Text) : '/' ∉ encode t :=
  notMem_encode (by decide) (by decide) (by decide) t

theorem newline_notMem_encode (t : Text) : '\n' ∉ encode t :=
  notMem_encode (by decide) (by decide) (by decide) t

theorem encode_ne_nil {t : Text} (h : t ≠ []) : encode t ≠ [] := by
  intro hnil
  apply h
  rw [← decode_encode t, hnil]
  rfl

end Percent

end PathRouting

/-
# The bytes of a text decode to the text

Each character is written as one to four bytes, by its number, and the reader takes just
these bytes and gives the character back. So a whole text is read back from its bytes, and
whatever bytes are read, there are no more glyphs than bytes.

Key definitions: `Utf8.tail`.
Key theorems: `Utf8.next_encodeChar`, `Utf8.length_glyphs_le`, `Utf8.glyphs_encode`,
`Utf8.decode_encode`.
-/
import DeviceRelay.Text.Utf8

namespace DeviceRelay
namespace Utf8

/-! ### Bytes by number -/

theorem toNat_byte {n : Nat} (h : n < 256) : (UInt8.ofNat n).toNat = n := UInt8.toNat_ofNat_of_lt' h

theorem byte_eq_iff {n : Nat} (h : n < 256) (b : UInt8) : UInt8.ofNat n = b ↔ n = b.toNat := by
  rw [← UInt8.toNat_inj, toNat_byte h]

theorem byte_lt_iff {n : Nat} (h : n < 256) (b : UInt8) : UInt8.ofNat n < b ↔ n < b.toNat := by
  rw [UInt8.lt_iff_toNat_lt, toNat_byte h]

theorem byte_within_iff {n : Nat} (h : n < 256) (low high : UInt8) :
    (low ≤ UInt8.ofNat n && UInt8.ofNat n ≤ high) = true ↔ low.toNat ≤ n ∧ n ≤ high.toNat := by
  rw [Bool.and_eq_true, decide_eq_true_eq, decide_eq_true_eq, UInt8.le_iff_toNat_le,
    UInt8.le_iff_toNat_le, toNat_byte h]

/-- The byte that continues a character with the low six bits of a number. -/
def tail (n : Nat) : UInt8 := UInt8.ofNat (n % 64 + 0x80)

theorem tail_within_iff (n : Nat) (low high : UInt8) :
    (low ≤ tail n && tail n ≤ high) = true ↔ low.toNat ≤ n % 64 + 0x80 ∧ n % 64 + 0x80 ≤ high.toNat :=
  byte_within_iff (by omega) low high

theorem isTail_tail (n : Nat) : isTail (tail n) = true :=
  (tail_within_iff n 0x80 0xBF).mpr ⟨Nat.le_add_left .., by show n % 64 + 0x80 ≤ 0xBF; omega⟩

theorem tailBits_tail (n : Nat) : tailBits (tail n) = n % 64 := by
  unfold tailBits tail
  rw [toNat_byte (by omega)]
  omega

/-! ### One character -/

variable {v : Nat} (rest : List UInt8)

theorem next_one (h : v ≤ 0x7f) : next (UInt8.ofNat v) rest = .ok (Char.ofNat v, rest) := by
  have hsmall : v < 256 := by omega
  have hplain : UInt8.ofNat v < 0x80 := (byte_lt_iff hsmall _).mpr (Nat.lt_succ_of_le h)
  unfold next
  rw [if_pos hplain, toNat_byte hsmall]

theorem next_two (hlow : 0x7f < v) (hhigh : v ≤ 0x7ff) :
    next (UInt8.ofNat (v / 64 % 0x20 + 0xc0)) (tail v :: rest) = .ok (Char.ofNat v, rest) := by
  generalize hfirst : v / 64 % 0x20 + 0xc0 = first
  have hsmall : first < 256 := by omega
  have hplain : ¬ UInt8.ofNat first < 0x80 := by
    rw [byte_lt_iff hsmall]
    show ¬ first < 0x80
    omega
  have hclass : (0xC2 ≤ UInt8.ofNat first && UInt8.ofNat first ≤ 0xDF) = true := by
    rw [byte_within_iff hsmall]
    show 0xC2 ≤ first ∧ first ≤ 0xDF
    omega
  have hsum : first % 32 * 64 + v % 64 = v := by omega
  simp only [next, hplain, hclass, if_false, if_true, nextTwo, isTail_tail, tailBits_tail,
    toNat_byte hsmall, hsum]

theorem next_three (hlow : 0x7ff < v) (hhigh : v ≤ 0xffff) (hvalid : v < 0xd800 ∨ 0xdfff < v) :
    next (UInt8.ofNat (v / 4096 % 0x10 + 0xe0)) (tail (v / 64) :: tail v :: rest) =
      .ok (Char.ofNat v, rest) := by
  generalize hfirst : v / 4096 % 0x10 + 0xe0 = first
  have hsmall : first < 256 := by omega
  have hplain : ¬ UInt8.ofNat first < 0x80 := by
    rw [byte_lt_iff hsmall]
    show ¬ first < 0x80
    omega
  have hshort : ¬ (0xC2 ≤ UInt8.ofNat first && UInt8.ofNat first ≤ 0xDF) = true := by
    rw [byte_within_iff hsmall]
    show ¬ (0xC2 ≤ first ∧ first ≤ 0xDF)
    omega
  have hclass : (0xE0 ≤ UInt8.ofNat first && UInt8.ofNat first ≤ 0xEF) = true := by
    rw [byte_within_iff hsmall]
    show 0xE0 ≤ first ∧ first ≤ 0xEF
    omega
  -- the least first byte excludes what is shorter, and one other excludes the surrogates
  have hsecond : secondOfThree (UInt8.ofNat first) (tail (v / 64)) = true := by
    unfold secondOfThree
    split
    · rename_i heq
      have hfirst' : first = 0xE0 := (byte_eq_iff hsmall _).mp heq
      rw [tail_within_iff]
      show 0xA0 ≤ v / 64 % 64 + 0x80 ∧ v / 64 % 64 + 0x80 ≤ 0xBF
      omega
    · split
      · rename_i heq
        have hfirst' : first = 0xED := (byte_eq_iff hsmall _).mp heq
        rw [tail_within_iff]
        show 0x80 ≤ v / 64 % 64 + 0x80 ∧ v / 64 % 64 + 0x80 ≤ 0x9F
        omega
      · exact isTail_tail _
  have hsum : (first % 16 * 64 + v / 64 % 64) * 64 + v % 64 = v := by omega
  simp only [next, hplain, hshort, hclass, if_false, if_true, nextThree, hsecond, isTail_tail,
    tailBits_tail, toNat_byte hsmall, hsum, Bool.not_true, Bool.false_eq_true]

theorem next_four (hlow : 0xffff < v) (hhigh : v < 0x110000) :
    next (UInt8.ofNat (v / 262144 % 0x08 + 0xf0))
      (tail (v / 4096) :: tail (v / 64) :: tail v :: rest) = .ok (Char.ofNat v, rest) := by
  generalize hfirst : v / 262144 % 0x08 + 0xf0 = first
  have hsmall : first < 256 := by omega
  have hplain : ¬ UInt8.ofNat first < 0x80 := by
    rw [byte_lt_iff hsmall]
    show ¬ first < 0x80
    omega
  have hshort : ¬ (0xC2 ≤ UInt8.ofNat first && UInt8.ofNat first ≤ 0xDF) = true := by
    rw [byte_within_iff hsmall]
    show ¬ (0xC2 ≤ first ∧ first ≤ 0xDF)
    omega
  have hmiddle : ¬ (0xE0 ≤ UInt8.ofNat first && UInt8.ofNat first ≤ 0xEF) = true := by
    rw [byte_within_iff hsmall]
    show ¬ (0xE0 ≤ first ∧ first ≤ 0xEF)
    omega
  have hclass : (0xF0 ≤ UInt8.ofNat first && UInt8.ofNat first ≤ 0xF4) = true := by
    rw [byte_within_iff hsmall]
    show 0xF0 ≤ first ∧ first ≤ 0xF4
    omega
  -- the least first byte excludes what is shorter, and the greatest what is no character
  have hsecond : secondOfFour (UInt8.ofNat first) (tail (v / 4096)) = true := by
    unfold secondOfFour
    split
    · rename_i heq
      have hfirst' : first = 0xF0 := (byte_eq_iff hsmall _).mp heq
      rw [tail_within_iff]
      show 0x90 ≤ v / 4096 % 64 + 0x80 ∧ v / 4096 % 64 + 0x80 ≤ 0xBF
      omega
    · split
      · rename_i heq
        have hfirst' : first = 0xF4 := (byte_eq_iff hsmall _).mp heq
        rw [tail_within_iff]
        show 0x80 ≤ v / 4096 % 64 + 0x80 ∧ v / 4096 % 64 + 0x80 ≤ 0x8F
        omega
      · exact isTail_tail _
  have hsum : ((first % 8 * 64 + v / 4096 % 64) * 64 + v / 64 % 64) * 64 + v % 64 = v := by omega
  simp only [next, hplain, hshort, hmiddle, hclass, if_false, if_true, nextFour, hsecond,
    isTail_tail, tailBits_tail, toNat_byte hsmall, hsum, Bool.not_true, Bool.false_eq_true]

/-- **The bytes of a character are read as this character**, whatever follows. -/
theorem next_encodeChar (c : Char) : ∃ a more, String.utf8EncodeChar c = a :: more ∧
    next a (more ++ rest) = .ok (c, rest) := by
  have hvalid : c.val.toNat < 0xd800 ∨ 0xdfff < c.val.toNat ∧ c.val.toNat < 0x110000 := c.valid
  have hchar : Char.ofNat c.val.toNat = c := Char.ofNat_toNat c
  unfold String.utf8EncodeChar
  dsimp only
  split
  · rename_i h
    exact ⟨_, [], rfl, (next_one rest h).trans (by rw [hchar])⟩
  · rename_i h1
    split
    · rename_i h2
      exact ⟨_, _, rfl, (next_two rest (Nat.lt_of_not_le h1) h2).trans (by rw [hchar])⟩
    · rename_i h2
      split
      · rename_i h3
        refine ⟨_, _, rfl, (next_three rest (Nat.lt_of_not_le h2) h3 ?_).trans (by rw [hchar])⟩
        exact hvalid.imp_right And.left
      · rename_i h3
        refine ⟨_, _, rfl, (next_four rest (Nat.lt_of_not_le h3) ?_).trans (by rw [hchar])⟩
        omega

/-! ### Lengths -/

theorem length_encode_le (text : List Char) : (encode text).length ≤ 4 * text.length := by
  induction text with
  | nil => exact Nat.le_refl _
  | cons c text ih =>
    have hchar : (String.utf8EncodeChar c).length ≤ 4 := by
      rw [String.length_utf8EncodeChar]
      exact Char.utf8Size_le_four c
    calc (encode (c :: text)).length = (String.utf8EncodeChar c).length + (encode text).length := by
          rw [encode, List.flatMap_cons, List.length_append, encode]
      _ ≤ 4 + 4 * text.length := Nat.add_le_add hchar ih
      _ = 4 * (c :: text).length := by rw [List.length_cons]; omega

theorem length_glyphsUpTo_le (fuel : Nat) (bytes : List UInt8) :
    (glyphsUpTo fuel bytes).length ≤ fuel := by
  induction fuel generalizing bytes with
  | zero => exact Nat.le_refl _
  | succ fuel ih =>
    cases bytes with
    | nil => exact Nat.zero_le _
    | cons a rest =>
      rw [glyphsUpTo]
      split <;> exact Nat.succ_le_succ (ih _)

theorem length_glyphs_le (bytes : List UInt8) : (glyphs bytes).length ≤ bytes.length :=
  length_glyphsUpTo_le _ bytes

/-! ### Texts -/

/-- The bytes of a text start with those of its first character, and so does what is read of them. -/
theorem encode_cons (c : Char) (text : List Char) : ∃ a more,
    encode (c :: text) = a :: (more ++ encode text) ∧
      next a (more ++ encode text) = .ok (c, encode text) := by
  obtain ⟨a, more, hbytes, hnext⟩ := next_encodeChar (encode text) c
  refine ⟨a, more, ?_, hnext⟩
  calc encode (c :: text) = String.utf8EncodeChar c ++ encode text := List.flatMap_cons
    _ = a :: (more ++ encode text) := by rw [hbytes, List.cons_append]

theorem decodeUpTo_encode (text : List Char) {fuel : Nat} (h : (encode text).length ≤ fuel)
    (index : Nat) : decodeUpTo fuel index (encode text) = .ok text := by
  induction text generalizing fuel index with
  | nil => cases fuel <;> rfl
  | cons c text ih =>
    obtain ⟨a, more, hencode, hnext⟩ := encode_cons c text
    rw [hencode] at h ⊢
    cases fuel with
    | zero => exact absurd h (Nat.not_succ_le_zero _)
    | succ fuel =>
      have hrest : (encode text).length ≤ fuel := by
        rw [List.length_cons, List.length_append] at h
        omega
      rw [decodeUpTo, hnext]
      simp only [ih hrest]

/-- A text has one glyph for each of its characters. -/
theorem glyphs_encode (text : List Char) : glyphs (encode text) = Glyph.ofText text := by
  have hupTo (fuel : Nat) (h : (encode text).length ≤ fuel) :
      glyphsUpTo fuel (encode text) = Glyph.ofText text := by
    induction text generalizing fuel with
    | nil => cases fuel <;> rfl
    | cons c text ih =>
      obtain ⟨a, more, hencode, hnext⟩ := encode_cons c text
      rw [hencode] at h ⊢
      cases fuel with
      | zero => exact absurd h (Nat.not_succ_le_zero _)
      | succ fuel =>
        have hrest : (encode text).length ≤ fuel := by
          rw [List.length_cons, List.length_append] at h
          omega
        rw [glyphsUpTo, hnext]
        exact congrArg (Glyph.char c :: ·) (ih fuel hrest)
  exact hupTo _ (Nat.le_refl _)

/-- **A text is read back from its bytes.** -/
theorem decode_encode (text : List Char) : decode (encode text) = .ok text :=
  decodeUpTo_encode text (Nat.le_refl _) 0

end Utf8
end DeviceRelay

/-
# What a text spells is read

A word, a text in quotes and a whole number have their spellings: a character stands for itself
or is escaped, a number has its decimal digits. A reader that meets a spelling reads what is
spelled and stops behind it, where what follows a number must not go on with it. White space
around a value does not matter, so what is left is told up to the white space before it.

Key definitions: `Json.Blank`, `Json.Ends`, `Json.Reads`, `Json.Escape`, `Json.Spells`.
Key theorems: `Json.readString_spells`, `Json.reads_printInt`.
-/
import DeviceRelay.Json.Decoder
import DeviceRelay.Proofs.Json.Values

namespace DeviceRelay
namespace Json

variable {α β : Type} {rest left w : Input}

/-! ### White space and ends -/

/-- Nothing but white space. -/
def Blank (w : Input) : Prop := ∀ g ∈ w, isSpace g = true

theorem skipBlank_append (h : Blank w) (rest : Input) : skipBlank (w ++ rest) = skipBlank rest :=
  List.dropWhile_append_of_pos h

theorem skipBlank_of_mark {g : Glyph} (h : isSpace g = false) (rest : Input) :
    skipBlank (g :: rest) = g :: rest := List.dropWhile_cons_of_neg (by simp [h])

theorem skipBlank_idem (input : Input) : skipBlank (skipBlank input) = skipBlank input := by
  induction input with
  | nil => rfl
  | cons g rest ih =>
    by_cases h : isSpace g = true
    · have hskip : skipBlank (g :: rest) = skipBlank rest := List.dropWhile_cons_of_pos h
      rw [hskip, ih]
    · have hg : isSpace g = false := by simpa using h
      rw [skipBlank_of_mark hg, skipBlank_of_mark hg]

/-- What follows a number does not go on with it. -/
def Ends (rest : Input) : Prop :=
  ∀ g more, rest = g :: more → digit? g = none ∧ g ≠ .char '.' ∧ isExponentMark g = false

theorem ends_nil : Ends [] := nofun

theorem ends_of_mark {g : Glyph} (hdigit : digit? g = none) (hpoint : g ≠ .char '.')
    (hexponent : isExponentMark g = false) (more : Input) : Ends (g :: more) := by
  rintro _ _ ⟨⟩
  exact ⟨hdigit, hpoint, hexponent⟩

theorem ends_comma (more : Input) : Ends (.char ',' :: more) :=
  ends_of_mark (by decide) (by decide) (by decide) more

theorem ends_bracket (more : Input) : Ends (.char ']' :: more) :=
  ends_of_mark (by decide) (by decide) (by decide) more

theorem ends_brace (more : Input) : Ends (.char '\x7d' :: more) :=
  ends_of_mark (by decide) (by decide) (by decide) more

theorem ends_blank (h : Blank w) (hrest : Ends rest) : Ends (w ++ rest) := by
  cases w with
  | nil => exact hrest
  | cons g more =>
    have hg : isSpace g = true := h g List.mem_cons_self
    unfold isSpace at hg
    split at hg
    · exact ends_of_mark (by decide) (by decide) (by decide) _
    · exact ends_of_mark (by decide) (by decide) (by decide) _
    · exact ends_of_mark (by decide) (by decide) (by decide) _
    · exact ends_of_mark (by decide) (by decide) (by decide) _
    · cases hg

/-- A reader reads a text as something, whatever follows that ends it. -/
def Reads (read : Input → Read α) (a : α) (t : Input) : Prop :=
  ∀ rest, Ends rest →
    ∃ left, read (t ++ rest) = .ok (a, left) ∧ skipBlank left = skipBlank rest

theorem Reads.map {read : Input → Read α} {a : α} {t : Input} (h : Reads read a t) (f : α → β) :
    Reads (fun input => (read input).map fun (a, rest) => (f a, rest)) (f a) t := by
  intro rest hrest
  obtain ⟨left, hread, hleft⟩ := h rest hrest
  exact ⟨left, congrArg (Except.map _) hread, hleft⟩

/-! ### Words -/

theorem readWord_ofText (word : List Char) (rest : Input) :
    readWord word (Glyph.ofText word ++ rest) = .ok rest := by
  induction word with
  | nil => rfl
  | cons c word ih => simpa [Glyph.ofText, readWord] using ih

/-! ### Texts in quotes -/

/-- A number in four hexadecimal digits. -/
inductive HexDigits : List Char → Nat → Prop where
  | four {a b c d : Char} {p q r s : Nat} (ha : Hex.value? a = some p) (hb : Hex.value? b = some q)
    (hc : Hex.value? c = some r) (hd : Hex.value? d = some s) :
    HexDigits [a, b, c, d] (((p * 16 + q) * 16 + r) * 16 + s)

/-- What may follow a backslash, and the character for which it stands. -/
inductive Escape : List Char → Char → Prop where
  | quote : Escape ['"'] '"'
  | backslash : Escape ['\\'] '\\'
  | slash : Escape ['/'] '/'
  | backspace : Escape ['b'] '\x08'
  | formFeed : Escape ['f'] '\x0c'
  | newline : Escape ['n'] '\n'
  | carriageReturn : Escape ['r'] '\r'
  | tab : Escape ['t'] '\t'
  /-- The number of a character in the basic plane. -/
  | number {e : List Char} {n : Nat} (digits : HexDigits e n) (whole : n < 0xD800 ∨ 0xE000 ≤ n) :
    Escape ('u' :: e) (Char.ofNat n)
  /-- The two halves of a character beyond the basic plane. -/
  | halves {e e' : List Char} {high low : Nat} (first : HexDigits e high)
    (hhigh : 0xD800 ≤ high ∧ high ≤ 0xDBFF) (second : HexDigits e' low)
    (hlow : 0xDC00 ≤ low ∧ low ≤ 0xDFFF) :
    Escape ('u' :: (e ++ '\\' :: 'u' :: e'))
      (Char.ofNat ((high - 0xD800) * 1024 + (low - 0xDC00) + 0x10000))

/-- What stands between the quotes for a text. -/
inductive Spells : List Char → List Char → Prop where
  | nil : Spells [] []
  | plain {c : Char} {cs w : List Char} (visible : 0x20 ≤ c.toNat) (noQuote : c ≠ '"')
    (noBackslash : c ≠ '\\') (more : Spells cs w) : Spells (c :: cs) (c :: w)
  | escaped {c : Char} {cs e w : List Char} (stands : Escape e c) (more : Spells cs w) :
    Spells (c :: cs) ('\\' :: (e ++ w))

theorem readHex_digits {e : List Char} {n : Nat} (h : HexDigits e n) (rest : Input) :
    readHex (Glyph.ofText e ++ rest) = .ok (n, rest) := by
  cases h with
  | four ha hb hc hd => simp [Glyph.ofText, readHex, ha, hb, hc, hd]

theorem readEscape_of_escape {e : List Char} {c : Char} (h : Escape e c) (rest : Input) :
    readEscape (Glyph.ofText e ++ rest) = .ok (c, rest) := by
  cases h with
  | quote | backslash | slash | backspace | formFeed | newline | carriageReturn | tab => rfl
  | @number e n digits whole =>
    have hhex := readHex_digits digits rest
    simp only [Glyph.ofText, List.map_cons, List.cons_append] at hhex ⊢
    rw [readEscape, hhex]
    simp only
    rw [if_neg (by omega), if_neg (by omega)]
  | @halves e e' high low first hhigh second hlow =>
    have hhex := readHex_digits first (.char '\\' :: .char 'u' :: (Glyph.ofText e' ++ rest))
    have hhex' := readHex_digits second rest
    simp only [Glyph.ofText, List.map_cons, List.map_append, List.cons_append,
      List.append_assoc] at hhex hhex' ⊢
    rw [readEscape, hhex]
    simp only
    rw [if_neg (by omega), if_pos hhigh, readLowSurrogate, hhex']
    simp only
    rw [if_pos hlow]

/-- Each character takes one glyph at least, so the fuel of a whole text suffices. -/
theorem readGlyphs_spells {cs w : List Char} (h : Spells cs w) (rest : Input) {fuel : Nat}
    (hfuel : w.length < fuel) :
    readGlyphs fuel (Glyph.ofText w ++ .char '"' :: rest) = .ok (cs.map .char, rest) := by
  induction h generalizing fuel with
  | nil =>
    cases fuel with
    | zero => cases hfuel
    | succ fuel => rfl
  | @plain c cs w visible noQuote noBackslash _ ih =>
    cases fuel with
    | zero => cases hfuel
    | succ fuel =>
      have hmore := ih (Nat.lt_of_succ_lt_succ hfuel)
      simp only [Glyph.ofText, List.map_cons, List.cons_append] at hmore ⊢
      rw [readGlyphs]
      · rw [if_neg (Nat.not_lt.mpr visible), hmore]
      · simpa using noQuote
      · simpa using noBackslash
  | @escaped c cs e w stands _ ih =>
    cases fuel with
    | zero => cases hfuel
    | succ fuel =>
      have hless : w.length < fuel := by
        simp at hfuel
        omega
      have hmore := ih hless
      have hescape := readEscape_of_escape stands (Glyph.ofText w ++ .char '"' :: rest)
      simp only [Glyph.ofText, List.map_cons, List.map_append, List.cons_append,
        List.append_assoc] at hmore hescape ⊢
      rw [readGlyphs, hescape]
      simp only
      rw [hmore]

theorem mapM_char? (cs : List Char) : (cs.map Glyph.char).mapM Glyph.char? = some cs := by
  rw [List.mapM_map]
  induction cs with
  | nil => rfl
  | cons c cs ih => simp [Glyph.char?, ih]

/-- **A text is read from its spelling in quotes.** -/
theorem readString_spells {s : String} {w : List Char} (h : Spells s.toList w) (rest : Input) :
    readString (Glyph.ofText w ++ .char '"' :: rest) = .ok (s, rest) := by
  have hlength : w.length < (Glyph.ofText w ++ .char '"' :: rest).length + 1 := by
    rw [List.length_append, Glyph.ofText, List.length_map]
    omega
  unfold readString
  rw [readGlyphs_spells h rest hlength]
  simp only [mapM_char?]
  rw [String.ofList_toList]

/-! ### Whole numbers -/

def digitsOf (cs : List Char) : List Nat := cs.map fun c => c.toNat - '0'.toNat

theorem range_of_isDigit {c : Char} (h : c.isDigit = true) : '0' ≤ c ∧ c ≤ '9' := by
  simpa [Char.isDigit, Char.le_def] using h

theorem digit?_of_isDigit {c : Char} (h : c.isDigit = true) :
    digit? (.char c) = some (c.toNat - '0'.toNat)  :=
  if_pos (range_of_isDigit h)

def Broken (rest : Input) : Prop := ∀ g more, rest = g :: more → digit? g = none

theorem Ends.broken (h : Ends rest) : Broken rest := fun g more heq => (h g more heq).1

theorem readDigits_of_broken (h : Broken rest) : readDigits rest = ([], rest) := by
  cases rest with
  | nil => rfl
  | cons g more =>
    rw [readDigits, h g more rfl]

theorem readDigits_append {cs : List Char} (h : ∀ c ∈ cs, c.isDigit = true) (hrest : Broken rest) :
    readDigits (Glyph.ofText cs ++ rest) = (digitsOf cs, rest) := by
  induction cs with
  | nil => exact readDigits_of_broken hrest
  | cons c cs ih =>
    obtain ⟨hc, hcs⟩ := List.forall_mem_cons.mp h
    have hmore := ih hcs
    simp only [Glyph.ofText, List.map_cons, List.cons_append] at hmore ⊢
    rw [readDigits, digit?_of_isDigit hc]
    simp only [hmore]
    rfl

/-- Digits are appended as long as the number has 64 bits. -/
theorem absorb_of_lt {n : Nat} {digits : List Nat}
    (h : digits.foldl (fun n d => n * 10 + d) n < twoTo 64) :
    absorb n digits = (digits.foldl (fun n d => n * 10 + d) n, 0) := by
  have hle (digits : List Nat) (n : Nat) : n ≤ digits.foldl (fun n d => n * 10 + d) n := by
    induction digits generalizing n with
    | nil => exact Nat.le_refl n
    | cons d digits ih => exact Nat.le_trans (by omega) (ih (n * 10 + d))
  induction digits generalizing n with
  | nil => rfl
  | cons d digits ih =>
    rw [List.foldl_cons] at h
    rw [absorb, if_pos (Nat.lt_of_le_of_lt (hle digits _) h), ih h, List.foldl_cons]

theorem foldl_digitsOf (cs : List Char) (n : Nat) :
    (digitsOf cs).foldl (fun n d => n * 10 + d) n = Nat.ofDigitChars 10 cs n := by
  unfold digitsOf Nat.ofDigitChars
  rw [List.foldl_map]
  simp only [Nat.mul_comm]

theorem isDigit_toDigits (n : Nat) : ∀ c ∈ Nat.toDigits 10 n, c.isDigit = true :=
  fun _ hc => Nat.isDigit_of_mem_toDigits (by decide) (by decide) hc

theorem exists_toDigits (n : Nat) :
    ∃ c cs, Nat.toDigits 10 n = c :: cs ∧ c.isDigit = true := by
  have hdigits := isDigit_toDigits n
  cases heq : Nat.toDigits 10 n with
  | nil => exact absurd heq Nat.toDigits_ne_nil
  | cons c cs => exact ⟨c, cs, rfl, hdigits c (heq ▸ List.mem_cons_self)⟩

/-- A number but zero does not start with the digit zero. -/
theorem head_toDigits_ne {n : Nat} (h : 0 < n) {c : Char} {cs : List Char}
    (hdigits : Nat.toDigits 10 n = c :: cs) : c ≠ '0' := by
  have hsmall : ∀ k < 10, 0 < k → k.digitChar ≠ '0' := by decide
  induction n using Nat.strongRecOn generalizing c cs with
  | ind n ih =>
    by_cases hlt : n < 10
    · rw [Nat.toDigits_of_lt_base hlt] at hdigits
      exact (List.cons.inj hdigits).1 ▸ hsmall n hlt h
    · rw [Nat.toDigits_of_base_le (by decide) (Nat.not_lt.mp hlt)] at hdigits
      have hfirst := @ih (n / 10) (by omega)
      cases hmore : Nat.toDigits 10 (n / 10) with
      | nil => exact absurd hmore Nat.toDigits_ne_nil
      | cons d ds =>
        rw [hmore, List.cons_append] at hdigits
        obtain ⟨rfl, -⟩ := List.cons.inj hdigits
        exact hfirst (by omega) hmore

theorem eq_zero_of_isDigit {c : Char} (h : c.isDigit = true) (hzero : c.toNat - '0'.toNat = 0) :
    c = '0' := by
  have hlow : '0'.toNat ≤ c.toNat := (range_of_isDigit h).1
  have hhigh : c.toNat ≤ '0'.toNat := Nat.le_of_sub_eq_zero hzero
  exact Char.toNat_inj.mp (Nat.le_antisymm hhigh hlow)

/-- Only zero has a digit zero in front, and nothing behind it. -/
theorem digitsOf_toDigits_ne {n : Nat} {d : Nat} {ds : List Nat} :
    digitsOf (Nat.toDigits 10 n) ≠ 0 :: d :: ds := by
  intro heq
  obtain ⟨c, cs, hdigits, hdigit⟩ := exists_toDigits n
  rw [hdigits] at heq
  obtain ⟨hfirst, hmore⟩ := List.cons.inj heq
  have hzero : c = '0' := eq_zero_of_isDigit hdigit hfirst
  rcases Nat.eq_zero_or_pos n with rfl | hpos
  · rw [Nat.toDigits_of_lt_base (by decide)] at hdigits
    obtain ⟨-, rfl⟩ := List.cons.inj hdigits
    cases hmore
  · exact head_toDigits_ne hpos hdigits hzero

/-- **A number is read from its digits.** -/
theorem readNumber_toDigits (negative : Bool) {n : Nat} (hn : n < twoTo 64) (hrest : Ends rest) :
    readNumber negative (Glyph.ofText (Nat.toDigits 10 n) ++ rest) =
      .ok (wholeNumber negative n, rest) := by
  have hdigits := readDigits_append (isDigit_toDigits n) hrest.broken
  have hvalue := foldl_digitsOf (Nat.toDigits 10 n) 0
  rw [Nat.ofDigitChars_ten_toDigits] at hvalue
  have habsorb : absorb 0 (digitsOf (Nat.toDigits 10 n)) = (n, 0) :=
    (absorb_of_lt (Nat.lt_of_le_of_lt (Nat.le_of_eq hvalue) hn)).trans (by rw [hvalue])
  unfold readNumber
  rw [hdigits]
  dsimp only
  split
  · rename_i hnone
    exact absurd (List.map_eq_nil_iff.mp hnone) Nat.toDigits_ne_nil
  · rename_i hzero
    exact absurd hzero digitsOf_toDigits_ne
  · rw [habsorb]
    cases rest with
    | nil => rfl
    | cons g more =>
      obtain ⟨-, hpoint, hexponent⟩ := hrest g more rfl
      split
      · rename_i heq
        exact absurd (List.cons.inj heq).1 hpoint
      · rename_i heq
        rw [(List.cons.inj heq).1] at hexponent
        cases hexponent
      · rename_i heq
        rw [(List.cons.inj heq).1] at hexponent
        cases hexponent
      · rfl

/-- **A whole number of 64 bits is read as it is written.** -/
theorem reads_printInt {n : Int} (fits : (Number.int n).Fits) :
    Reads readSigned (.int n) (Glyph.ofText (printInt n)) := by
  intro rest hrest
  refine ⟨rest, ?_, rfl⟩
  obtain ⟨hlow, hhigh⟩ := fits
  have hword : twoTo 63 < twoTo 64 := by decide
  unfold printInt
  split
  · rename_i hneg
    have hread := readNumber_toDigits true (n := n.natAbs) (by omega) hrest
    have hwhole : wholeNumber true n.natAbs = .int n := by
      unfold wholeNumber
      rw [if_neg (by simp), if_pos (by omega)]
      congr 1
      omega
    rw [← hwhole, ← hread]
    rfl
  · rename_i hpos
    have hread := readNumber_toDigits false (n := n.natAbs) (by omega) hrest
    have hwhole : wholeNumber false n.natAbs = .int n := by
      unfold wholeNumber
      rw [if_pos (by rfl)]
      congr 1
      omega
    obtain ⟨c, cs, hdigits, hdigit⟩ := exists_toDigits n.natAbs
    have hsign : Glyph.char c ≠ .char '-' := by
      rintro ⟨⟩
      cases hdigit
    rw [← hwhole, ← hread, hdigits]
    unfold readSigned
    split
    · rename_i heq
      exact absurd (List.cons.inj heq).1 hsign
    · rfl

end Json
end DeviceRelay

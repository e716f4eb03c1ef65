/-
# The texts that are JSON, whatever they write

A value is a word, a number, a text in quotes, a list or an object, with white space around it.
Not every such text writes a value: the halves of a character may stand alone between quotes, a
number may be out of range, and brackets may nest without bound. To pass over a number or a text
in quotes stops behind it. To read it may fail, and stops nowhere else.

Key definitions: `Json.Quoted`, `Json.Numeral`, `Json.Scalar`, `Json.Member`, `Json.Formed`,
`Json.Plain`.
Key theorems: `Json.skipString_quoted`, `Json.skipNumber_unsigned`, `Json.rest_of_readString`,
`Json.rest_of_readSigned`.
-/
import DeviceRelay.Proofs.Json.Extent
import DeviceRelay.Proofs.Json.Printing

namespace DeviceRelay
namespace Json

/-! ### The grammar -/

/-- The characters that are escaped by a letter or by themselves. -/
def shortEscapes : List Char := ['"', '\\', '/', 'b', 'f', 'n', 'r', 't']

/-- What may stand between quotes, where halves of characters need not belong together. -/
inductive Quoted : List Char → Prop where
  | nil : Quoted []
  | plain {c : Char} {w : List Char} (visible : 0x20 ≤ c.toNat) (noQuote : c ≠ '"')
    (noBackslash : c ≠ '\\') (more : Quoted w) : Quoted (c :: w)
  | escaped {c : Char} {w : List Char} (short : c ∈ shortEscapes) (more : Quoted w) :
    Quoted ('\\' :: c :: w)
  | number {e w : List Char} {n : Nat} (digits : HexDigits e n) (more : Quoted w) :
    Quoted ('\\' :: 'u' :: (e ++ w))

/-- One digit or more. -/
structure Digits (cs : List Char) : Prop where
  some : cs ≠ []
  digits : ∀ c ∈ cs, c.isDigit = true

/-- A fraction of a number, or none. -/
inductive Fraction : List Char → Prop where
  | none : Fraction []
  | some {cs : List Char} (digits : Digits cs) : Fraction ('.' :: cs)

/-- An exponent of a number, or none. -/
inductive Exponent : List Char → Prop where
  | none : Exponent []
  | some {mark : Char} {sign cs : List Char} (marked : mark = 'e' ∨ mark = 'E')
    (signed : sign = [] ∨ sign = ['+'] ∨ sign = ['-']) (digits : Digits cs) :
    Exponent (mark :: (sign ++ cs))

/-- A number without a sign, which has no zeros in front. -/
inductive Unsigned : List Char → Prop where
  | parts {whole fraction exponent : List Char} (digits : Digits whole)
    (noZeros : ∀ cs, whole = '0' :: cs → cs = []) (hfraction : Fraction fraction)
    (hexponent : Exponent exponent) : Unsigned (whole ++ (fraction ++ exponent))

/-- A number. -/
inductive Numeral : List Char → Prop where
  | positive {cs : List Char} (unsigned : Unsigned cs) : Numeral cs
  | negative {cs : List Char} (unsigned : Unsigned cs) : Numeral ('-' :: cs)

/-- A value without brackets. -/
inductive Scalar : Input → Prop where
  | null : Scalar (Glyph.ofText ['n', 'u', 'l', 'l'])
  | yes : Scalar (Glyph.ofText ['t', 'r', 'u', 'e'])
  | no : Scalar (Glyph.ofText ['f', 'a', 'l', 's', 'e'])
  | number {cs : List Char} (numeral : Numeral cs) : Scalar (Glyph.ofText cs)
  | text {w : List Char} (quoted : Quoted w) : Scalar (.char '"' :: (Glyph.ofText w ++ [.char '"']))

/-- A member of an object, of which nothing but the form is known. -/
structure Member where
  before : Input
  spelling : List Char
  between : Input
  text : Input
  blankBefore : Blank before
  quoted : Quoted spelling
  blankBetween : Blank between

namespace Member

/-- The colon and what comes after it. -/
def tail (m : Member) : Input := m.between ++ .char ':' :: m.text

def whole (m : Member) : Input :=
  m.before ++ .char '"' :: (Glyph.ofText m.spelling ++ .char '"' :: m.tail)

def Named (m : Member) (name : String) : Prop := Spells name.toList m.spelling

end Member

/-- A JSON value with white space around it, whatever it writes. -/
inductive Formed : Input → Prop where
  | scalar {t : Input} (scalar : Scalar t) : Formed t
  | arr {inside : Input} {items : List Input} (blank : Blank inside)
    (inner : ∀ item ∈ items, Formed item) :
    Formed (.char '[' :: (inside ++ (separated items ++ [.char ']'])))
  | obj {inside : Input} {members : List Member} (blank : Blank inside)
    (inner : ∀ m ∈ members, Formed m.text) :
    Formed (.char '\x7b' :: (inside ++ (separated (members.map (·.whole)) ++ [.char '\x7d'])))
  | padded {before t after : Input} (blankBefore : Blank before) (formed : Formed t)
    (blankAfter : Blank after) : Formed (before ++ (t ++ after))

/-- A value without brackets, with white space around it. -/
inductive Plain : Input → Prop where
  | mk {before t after : Input} (blankBefore : Blank before) (scalar : Scalar t)
    (blankAfter : Blank after) : Plain (before ++ (t ++ after))

theorem Plain.of_scalar {t : Input} (h : Scalar t) : Plain t := by
  have hblank : Blank [] := List.forall_mem_nil _
  simpa using Plain.mk hblank h hblank

theorem Plain.formed {t : Input} (h : Plain t) : Formed t := by
  obtain ⟨blankBefore, scalar, blankAfter⟩ := h
  exact .padded blankBefore (.scalar scalar) blankAfter

/-! ### Texts in quotes -/

variable {rest left : Input} {w : List Char}

theorem quoted_of_spells {cs : List Char} (h : Spells cs w) : Quoted w := by
  induction h with
  | nil => exact .nil
  | plain visible noQuote noBackslash _ ih => exact .plain visible noQuote noBackslash ih
  | @escaped c cs e w stands _ ih =>
    cases stands with
    | quote | backslash | slash | backspace | formFeed | newline | carriageReturn | tab =>
      exact .escaped (by decide) ih
    | number digits _ => exact .number digits ih
    | @halves e e' high low first _ second _ =>
      have hsecond := Quoted.number first (.number second ih)
      simpa only [List.cons_append, List.append_assoc] using hsecond

/-- A member that is known by what it spells. -/
def Entry.member (e : Entry) : Member :=
  ⟨e.before, e.spelling, e.between, e.text, e.blankBefore, quoted_of_spells e.spells, e.blankBetween⟩

theorem Entry.named_member (e : Entry) : e.member.Named e.name := e.spells

/-- **A text in quotes is passed over.** -/
theorem skipString_quoted (h : Quoted w) (rest : Input) {fuel : Nat} (hfuel : w.length < fuel) :
    skipString fuel (Glyph.ofText w ++ .char '"' :: rest) = .ok rest := by
  induction h generalizing fuel with
  | nil =>
    cases fuel with
    | zero => cases hfuel
    | succ fuel => rfl
  | @plain c w visible noQuote noBackslash _ ih =>
    cases fuel with
    | zero => cases hfuel
    | succ fuel =>
      have hmore := ih (Nat.lt_of_succ_lt_succ hfuel)
      simp only [Glyph.ofText, List.map_cons, List.cons_append] at hmore ⊢
      rw [skipString]
      · rw [if_neg (Nat.not_lt.mpr visible), hmore]
      · simpa using noQuote
      · simp [noBackslash]
      · simp [noBackslash]
      · simp [noBackslash]
  | @escaped c w short _ ih =>
    cases fuel with
    | zero => cases hfuel
    | succ fuel =>
      have hless : w.length < fuel := by
        simp at hfuel
        omega
      have hmore := ih hless
      simp only [Glyph.ofText, List.map_cons, List.cons_append] at hmore ⊢
      rw [skipString]
      exact (if_pos short).trans hmore
  | @number e w n digits _ ih =>
    cases fuel with
    | zero => cases hfuel
    | succ fuel =>
      have hless : w.length < fuel := by
        simp at hfuel
        omega
      have hmore := ih hless
      have hhex := readHex_digits digits (Glyph.ofText w ++ .char '"' :: rest)
      simp only [Glyph.ofText, List.map_cons, List.map_append, List.cons_append,
        List.append_assoc] at hmore hhex ⊢
      rw [skipString, if_neg (by decide), if_pos rfl, hhex]
      exact hmore

/-- An escape that is read, of one character or of two halves, is followed by what may stand
between quotes. -/
theorem behind_of_readEscape (h : Quoted ('\\' :: w)) {c : Char}
    (hread : readEscape (Glyph.ofText w ++ .char '"' :: rest) = .ok (c, left)) :
    ∃ w', Quoted w' ∧ left = Glyph.ofText w' ++ .char '"' :: rest := by
  cases h with
  | plain _ _ noBackslash => exact absurd rfl noBackslash
  | @escaped c w short more =>
    refine ⟨w, more, ?_⟩
    simp only [shortEscapes, List.mem_cons, List.not_mem_nil, or_false] at short
    rcases short with rfl | rfl | rfl | rfl | rfl | rfl | rfl | rfl <;>
      exact (Prod.mk.inj (Except.ok.inj hread)).2.symm
  | @number e w n digits more =>
    have hhex := readHex_digits digits (Glyph.ofText w ++ .char '"' :: rest)
    simp only [Glyph.ofText, List.map_cons, List.map_append, List.cons_append,
      List.append_assoc] at hhex hread ⊢
    rw [readEscape, hhex] at hread
    dsimp only at hread
    split at hread
    · cases hread
    · split at hread
      · -- The first half of a character asks for the second.
        cases more with
        | nil => cases hread
        | plain _ _ noBackslash =>
          unfold readLowSurrogate at hread
          simp [noBackslash] at hread
        | escaped short =>
          simp only [shortEscapes, List.mem_cons, List.not_mem_nil, or_false] at short
          rcases short with rfl | rfl | rfl | rfl | rfl | rfl | rfl | rfl <;> cases hread
        | @number e' w n' digits' more =>
          have hhex' := readHex_digits digits' (Glyph.ofText w ++ .char '"' :: rest)
          simp only [Glyph.ofText, List.map_cons, List.map_append, List.cons_append,
            List.append_assoc] at hhex' hread
          rw [readLowSurrogate, hhex'] at hread
          dsimp only at hread
          split at hread
          · exact ⟨w, more, (Prod.mk.inj (Except.ok.inj hread)).2.symm⟩
          · cases hread
      · exact ⟨w, more, (Prod.mk.inj (Except.ok.inj hread)).2.symm⟩

theorem rest_of_readGlyphs {fuel : Nat} (h : Quoted w) {glyphs : List Glyph}
    (hread : readGlyphs fuel (Glyph.ofText w ++ .char '"' :: rest) = .ok (glyphs, left)) :
    left = rest := by
  induction fuel generalizing w glyphs with
  | zero => cases hread
  | succ fuel ih =>
    have hescape {w : List Char} (h : Quoted ('\\' :: w)) (hread : readGlyphs (fuel + 1)
        (.char '\\' :: (Glyph.ofText w ++ .char '"' :: rest)) = .ok (glyphs, left)) : left = rest := by
      rw [readGlyphs] at hread
      split at hread
      · cases hread
      · rename_i hread'
        obtain ⟨w', hquoted, rfl⟩ := behind_of_readEscape h hread'
        split at hread
        · cases hread
        · rename_i hmore
          obtain ⟨-, rfl⟩ := Prod.mk.inj (Except.ok.inj hread)
          exact ih hquoted hmore
    cases h with
    | nil => exact (Prod.mk.inj (Except.ok.inj hread)).2.symm
    | @plain c w visible noQuote noBackslash more =>
      simp only [Glyph.ofText, List.map_cons, List.cons_append] at hread
      rw [readGlyphs, if_neg (Nat.not_lt.mpr visible)] at hread
      · split at hread
        · cases hread
        · rename_i hmore
          obtain ⟨-, rfl⟩ := Prod.mk.inj (Except.ok.inj hread)
          exact ih more hmore
      · simpa using noQuote
      · simpa using noBackslash
    | escaped short more => exact hescape (.escaped short more) hread
    | number digits more => exact hescape (.number digits more) hread

/-- **What is read of a text in quotes stops behind it.** -/
theorem rest_of_readString (h : Quoted w) {s : String}
    (hread : readString (Glyph.ofText w ++ .char '"' :: rest) = .ok (s, left)) : left = rest := by
  unfold readString at hread
  split at hread
  · cases hread
  · rename_i hglyphs
    split at hread
    · obtain ⟨-, rfl⟩ := Prod.mk.inj (Except.ok.inj hread)
      exact rest_of_readGlyphs h hglyphs
    · cases hread

/-! ### Numbers -/

variable {cs : List Char}

theorem broken_exponent {x : List Char} (h : Exponent x) (hrest : Ends rest) :
    Broken (Glyph.ofText x ++ rest) := by
  cases h with
  | none => exact hrest.broken
  | some marked =>
    rintro g more ⟨⟩
    rcases marked with rfl | rfl <;> rfl

theorem broken_fraction {x f : List Char} (hf : Fraction f) (h : Exponent x) (hrest : Ends rest) :
    Broken (Glyph.ofText (f ++ x) ++ rest) := by
  cases hf with
  | none => exact broken_exponent h hrest
  | some =>
    rintro g more ⟨⟩
    rfl

theorem readExponentSign_signed {sign : List Char} (hsign : sign = [] ∨ sign = ['+'] ∨ sign = ['-'])
    (h : Digits cs) (rest : Input) :
    ∃ down, readExponentSign (Glyph.ofText (sign ++ cs) ++ rest) = (down, Glyph.ofText cs ++ rest) := by
  rcases hsign with rfl | rfl | rfl
  · refine ⟨false, ?_⟩
    obtain ⟨some, digits⟩ := h
    cases cs with
    | nil => exact absurd rfl some
    | cons c cs =>
      have hc : c.isDigit = true := digits c List.mem_cons_self
      unfold readExponentSign
      split
      · rename_i heq
        obtain ⟨⟨⟩, -⟩ := List.cons.inj heq
        cases hc
      · rename_i heq
        obtain ⟨⟨⟩, -⟩ := List.cons.inj heq
        cases hc
      · rfl
  · exact ⟨false, rfl⟩
  · exact ⟨true, rfl⟩

theorem skipExponent_signed {sign : List Char} (hsign : sign = [] ∨ sign = ['+'] ∨ sign = ['-'])
    (h : Digits cs) (hrest : Ends rest) :
    skipExponent (Glyph.ofText (sign ++ cs) ++ rest) = .ok rest := by
  obtain ⟨down, hread⟩ := readExponentSign_signed hsign h rest
  have hdigits := readDigits_append h.digits hrest.broken
  unfold skipExponent
  rw [hread]
  dsimp only
  rw [hdigits]
  exact if_neg (by simp [digitsOf, h.some])

/-- What passes over the whole part of a number goes on behind it. -/
theorem digitsOf_whole (h : Digits cs) (noZeros : ∀ more, cs = '0' :: more → more = []) :
    digitsOf cs ≠ [] ∧ ∀ d ds, digitsOf cs ≠ 0 :: d :: ds := by
  refine ⟨by simp [digitsOf, h.some], fun d ds heq => ?_⟩
  cases cs with
  | nil => cases heq
  | cons c cs =>
    obtain ⟨hfirst, hmore⟩ := List.cons.inj heq
    obtain rfl := eq_zero_of_isDigit (h.digits c List.mem_cons_self) hfirst
    obtain rfl := noZeros cs rfl
    cases hmore

theorem skipped_of_ends {α : Type} {a : α} {point exponent : Input → α} : Ends rest →
    (match rest with
      | .char '.' :: more => point more
      | .char 'e' :: more | .char 'E' :: more => exponent more
      | _ => a) = a := by
  intro h
  split
  · rename_i more
    exact absurd rfl (h _ more rfl).2.1
  · rename_i more
    cases (h _ more rfl).2.2
  · rename_i more
    cases (h _ more rfl).2.2
  · rfl

theorem skipped_fraction {α : Type} {a : α} {exponent : Input → α} : Ends rest →
    (match rest with
      | g :: more => if isExponentMark g then exponent more else a
      | [] => a) = a := by
  intro h
  cases rest with
  | nil => rfl
  | cons g more => exact if_neg (by simp [(h g more rfl).2.2])

/-- **A number is passed over.** -/
theorem skipNumber_unsigned (h : Unsigned cs) (hrest : Ends rest) :
    skipNumber (Glyph.ofText cs ++ rest) = .ok rest := by
  cases h with
  | @parts whole fraction exponent digits noZeros hfraction hexponent =>
    have hdigits := readDigits_append digits.digits (broken_fraction hfraction hexponent hrest)
    obtain ⟨hsome, hzero⟩ := digitsOf_whole digits noZeros
    rw [ofText_append, List.append_assoc]
    unfold skipNumber
    rw [hdigits]
    dsimp only
    split
    · exact absurd ‹_› hsome
    · exact absurd ‹_› (hzero _ _)
    · cases hfraction with
      | none =>
        cases hexponent with
        | none => exact skipped_of_ends hrest
        | some marked signed digits =>
          have hskip := skipExponent_signed signed digits hrest
          rcases marked with rfl | rfl <;> exact hskip
      | @some fraction digits =>
        have hfraction := readDigits_append digits.digits (broken_exponent hexponent hrest)
        have hempty : (digitsOf fraction).isEmpty = false := by simp [digitsOf, digits.some]
        rw [List.cons_append, ofText_cons, ofText_append, List.cons_append, List.append_assoc]
        simp only [hfraction, hempty, Bool.false_eq_true, if_false]
        cases hexponent with
        | none => exact skipped_fraction hrest
        | some marked signed digits =>
          have hskip := skipExponent_signed signed digits hrest
          rcases marked with rfl | rfl <;> exact hskip

variable {negative : Bool} {n start : Nat} {x : Number}

theorem rest_of_assemble {exponent : Int}
    (h : assemble negative n exponent rest = .ok (x, left)) : left = rest := by
  unfold assemble at h
  split at h
  · exact (Prod.mk.inj (Except.ok.inj h)).2.symm
  · cases h

/-- The digits of an exponent are read to their end, or left once they are too many. -/
theorem rest_of_readExponentDigits {e? : Option Nat} (h : ∀ c ∈ cs, c.isDigit = true)
    (hrest : Broken rest) (hread : readExponentDigits n (Glyph.ofText cs ++ rest) = (e?, left)) :
    (readDigits left).2 = rest ∧ (e?.isSome = true → left = rest) := by
  induction cs generalizing n with
  | nil =>
    have hsame : readExponentDigits n rest = (some n, rest) := by
      cases rest with
      | nil => rfl
      | cons g more => rw [readExponentDigits, hrest g more rfl]
    obtain ⟨rfl, rfl⟩ := Prod.mk.inj (hsame.symm.trans hread)
    exact ⟨by rw [readDigits_of_broken hrest], fun _ => rfl⟩
  | cons c cs ih =>
    obtain ⟨hc, hcs⟩ := List.forall_mem_cons.mp h
    rw [ofText_cons, List.cons_append, readExponentDigits, digit?_of_isDigit hc] at hread
    dsimp only at hread
    split at hread
    · exact ih hcs hread
    · obtain ⟨rfl, rfl⟩ := Prod.mk.inj hread
      exact ⟨by rw [readDigits_append hcs hrest], fun hsome => absurd hsome Bool.false_ne_true⟩

theorem rest_of_readExponent {sign : List Char} {start : Int}
    (hsign : sign = [] ∨ sign = ['+'] ∨ sign = ['-']) (h : Digits cs) (hrest : Ends rest)
    (hread : readExponent negative n start (Glyph.ofText (sign ++ cs) ++ rest) = .ok (x, left)) :
    left = rest := by
  obtain ⟨down, hdown⟩ := readExponentSign_signed hsign h rest
  obtain ⟨some, digits⟩ := h
  cases cs with
  | nil => exact absurd rfl some
  | cons c cs =>
    obtain ⟨hc, hcs⟩ := List.forall_mem_cons.mp digits
    unfold readExponent at hread
    rw [hdown] at hread
    simp only [ofText_cons, List.cons_append, digit?_of_isDigit hc] at hread
    split at hread
    · rename_i heq
      obtain ⟨-, hall⟩ := rest_of_readExponentDigits hcs hrest.broken heq
      exact (rest_of_assemble hread).trans (hall rfl)
    · rename_i heq
      obtain ⟨hleft, -⟩ := rest_of_readExponentDigits hcs hrest.broken heq
      split at hread
      · cases hread
      · exact (Prod.mk.inj (Except.ok.inj hread)).2.symm.trans hleft

/-- What is read from the fraction of a number on stops behind the number. -/
theorem rest_of_readFraction {exponent : List Char} (h : Digits cs) (hexponent : Exponent exponent)
    (hrest : Ends rest) (hread : readFraction negative n start
      (Glyph.ofText cs ++ (Glyph.ofText exponent ++ rest)) = .ok (x, left)) : left = rest := by
  have hdigits := readDigits_append h.digits (broken_exponent hexponent hrest)
  have hempty : (digitsOf cs).isEmpty = false := by simp [digitsOf, h.some]
  unfold readFraction at hread
  simp only [hdigits, hempty, Bool.false_eq_true, if_false] at hread
  cases hexponent with
  | none =>
    exact rest_of_assemble ((skipped_fraction hrest).symm.trans hread)
  | some marked signed digits =>
    rcases marked with rfl | rfl <;> exact rest_of_readExponent signed digits hrest hread

theorem rest_of_readNumber (h : Unsigned cs) (hrest : Ends rest)
    (hread : readNumber negative (Glyph.ofText cs ++ rest) = .ok (x, left)) : left = rest := by
  cases h with
  | @parts whole fraction exponent digits noZeros hfraction hexponent =>
    have hdigits := readDigits_append digits.digits (broken_fraction hfraction hexponent hrest)
    obtain ⟨hsome, hzero⟩ := digitsOf_whole digits noZeros
    rw [ofText_append, List.append_assoc] at hread
    unfold readNumber at hread
    rw [hdigits] at hread
    dsimp only at hread
    split at hread
    · exact absurd ‹_› hsome
    · exact absurd ‹_› (hzero _ _)
    · cases hfraction with
      | none =>
        cases hexponent with
        | none =>
          have hwhole := (skipped_of_ends hrest).symm.trans hread
          split at hwhole
          · exact (Prod.mk.inj (Except.ok.inj hwhole)).2.symm
          · exact rest_of_assemble hwhole
        | some marked signed digits =>
          rcases marked with rfl | rfl <;> exact rest_of_readExponent signed digits hrest hread
      | @some fraction digits =>
        rw [List.cons_append, ofText_cons, ofText_append, List.cons_append, List.append_assoc] at hread
        exact rest_of_readFraction digits hexponent hrest hread

theorem exists_of_unsigned (h : Unsigned cs) :
    ∃ c more, cs = c :: more ∧ c.isDigit = true := by
  cases h with
  | @parts whole fraction exponent digits =>
    obtain ⟨some, digits⟩ := digits
    cases whole with
    | nil => exact absurd rfl some
    | cons c whole => exact ⟨c, _, rfl, digits c List.mem_cons_self⟩

/-- **What is read of a number stops behind it.** -/
theorem rest_of_readSigned (h : Numeral cs) (hrest : Ends rest)
    (hread : readSigned (Glyph.ofText cs ++ rest) = .ok (x, left)) : left = rest := by
  cases h with
  | positive unsigned =>
    obtain ⟨c, more, rfl, hc⟩ := exists_of_unsigned unsigned
    unfold readSigned at hread
    split at hread
    · rename_i heq
      obtain ⟨⟨⟩, -⟩ := List.cons.inj heq
      cases hc
    · exact rest_of_readNumber unsigned hrest hread
  | negative unsigned => exact rest_of_readNumber unsigned hrest hread

/-- A number starts with one of the first glyphs of a number. -/
theorem exists_of_numeral (h : Numeral cs) :
    ∃ c more, cs = c :: more ∧ startsNumber (.char c) = true := by
  cases h with
  | positive unsigned =>
    obtain ⟨c, more, rfl, hc⟩ := exists_of_unsigned unsigned
    exact ⟨c, more, rfl, startsNumber_of_isDigit hc⟩
  | negative => exact ⟨_, _, rfl, rfl⟩

end Json
end DeviceRelay

/-
# No reader leaves more than it got

What is left after a part was read is the end of the text before it, so it is no longer. A
string has no more characters than the text it was read of. That bounds every length in what
is read by the length of the text.

Key theorems: `Json.length_readString`, `Json.length_readSigned`, `Json.length_skipValue`.
-/
import DeviceRelay.Json.Decoder

namespace DeviceRelay
namespace Json

variable {α : Type} {input rest : Input}

@[grind →]
theorem ok_of_map {β : Type} {f : α → β} {r : Except Fault α} {b : β} (h : r.map f = .ok b) :
    ∃ a, r = .ok a ∧ f a = b := by
  cases r with
  | error => cases h
  | ok a => exact ⟨a, rfl, Except.ok.inj h⟩

/-! ### Words and white space -/

theorem length_skipBlank_le (input : Input) : (skipBlank input).length ≤ input.length :=
  (List.dropWhile_suffix _).length_le

/-- A text that starts with a glyph after its white space is longer than what follows. -/
@[grind →]
theorem length_of_skipBlank {g : Glyph} (h : skipBlank input = g :: rest) :
    rest.length < input.length := by
  have hlength := length_skipBlank_le input
  rw [h] at hlength
  exact hlength

@[grind →]
theorem length_readWord {word : List Char} (h : readWord word input = .ok rest) :
    rest.length ≤ input.length := by
  induction word, input using readWord.induct with
  | case1 input =>
    obtain rfl := Except.ok.inj h
    exact Nat.le_refl _
  | case2 word d more ih =>
    rw [readWord, if_pos rfl] at h
    exact Nat.le_succ_of_le (ih h)
  | case3 c word d more hne =>
    rw [readWord, if_neg hne] at h
    cases h
  | case4 | case5 => cases h

/-! ### Strings -/

@[grind →]
theorem length_readHex {n : Nat} (h : readHex input = .ok (n, rest)) :
    rest.length + 4 ≤ input.length := by
  unfold readHex at h
  grind

@[grind →]
theorem length_readLowSurrogate {high : Nat} {c : Char}
    (h : readLowSurrogate high input = .ok (c, rest)) : rest.length ≤ input.length := by
  unfold readLowSurrogate at h
  grind

@[grind →]
theorem length_readEscape {c : Char} (h : readEscape input = .ok (c, rest)) :
    rest.length ≤ input.length := by
  unfold readEscape at h
  grind

/-- Each glyph of a string takes one glyph at least, and its end takes another. -/
theorem length_readGlyphs {fuel : Nat} {glyphs : List Glyph}
    (h : readGlyphs fuel input = .ok (glyphs, rest)) :
    glyphs.length + rest.length < input.length := by
  induction fuel, input using readGlyphs.induct generalizing glyphs rest with
  | _ => grind [readGlyphs]

theorem length_characters {glyphs : List Glyph} {text : List Char}
    (h : glyphs.mapM Glyph.char? = some text) : text.length = glyphs.length := by
  induction glyphs generalizing text with
  | nil =>
    obtain rfl := Option.some.inj h
    rfl
  | cons g glyphs ih =>
    rw [List.mapM_cons] at h
    obtain ⟨c, -, h⟩ := Option.bind_eq_some_iff.mp h
    obtain ⟨more, hmore, h⟩ := Option.bind_eq_some_iff.mp h
    obtain rfl := Option.some.inj h
    exact congrArg (· + 1) (ih hmore)

/-- **A string has no more characters than the text it is read of.** -/
@[grind →]
theorem length_readString {s : String} (h : readString input = .ok (s, rest)) :
    s.toList.length + rest.length < input.length := by
  unfold readString at h
  split at h
  · cases h
  · rename_i glyphs _ hglyphs
    split at h
    · rename_i text htext
      obtain ⟨rfl, rfl⟩ := Prod.mk.inj (Except.ok.inj h)
      rw [String.toList_ofList, length_characters htext]
      exact length_readGlyphs hglyphs
    · cases h

@[grind →]
theorem length_skipString {fuel : Nat} (h : skipString fuel input = .ok rest) :
    rest.length ≤ input.length := by
  induction fuel, input using skipString.induct with
  | _ => grind [skipString]

/-! ### Numbers -/

theorem length_readDigits_le (input : Input) : (readDigits input).2.length ≤ input.length := by
  induction input with
  | nil => exact Nat.le_refl _
  | cons g more ih =>
    rw [readDigits]
    split
    · exact Nat.le_succ_of_le ih
    · exact Nat.le_refl _

theorem length_readExponentSign_le (input : Input) :
    (readExponentSign input).2.length ≤ input.length := by
  unfold readExponentSign
  grind

theorem length_readExponentDigits_le (n : Nat) (input : Input) :
    (readExponentDigits n input).2.length ≤ input.length := by
  induction n, input using readExponentDigits.induct with
  | _ => grind [readExponentDigits]

@[grind →]
theorem length_assemble {negative : Bool} {n : Nat} {exponent : Int} {x : Number}
    (h : assemble negative n exponent input = .ok (x, rest)) : rest.length ≤ input.length := by
  unfold assemble at h
  grind

@[grind →]
theorem length_readExponent {negative : Bool} {n : Nat} {start : Int} {x : Number}
    (h : readExponent negative n start input = .ok (x, rest)) : rest.length ≤ input.length := by
  unfold readExponent at h
  grind [length_readExponentSign_le, length_readExponentDigits_le, length_readDigits_le]

@[grind →]
theorem length_readFraction {negative : Bool} {n start : Nat} {x : Number}
    (h : readFraction negative n start input = .ok (x, rest)) : rest.length ≤ input.length := by
  unfold readFraction at h
  grind [length_readDigits_le]

@[grind →]
theorem length_readNumber {negative : Bool} {x : Number}
    (h : readNumber negative input = .ok (x, rest)) : rest.length ≤ input.length := by
  unfold readNumber at h
  grind [length_readDigits_le]

@[grind →]
theorem length_readSigned {x : Number} (h : readSigned input = .ok (x, rest)) :
    rest.length ≤ input.length := by
  unfold readSigned at h
  grind

@[grind →]
theorem length_skipExponent (h : skipExponent input = .ok rest) : rest.length ≤ input.length := by
  unfold skipExponent at h
  grind [length_readExponentSign_le, length_readDigits_le]

@[grind →]
theorem length_skipNumber (h : skipNumber input = .ok rest) : rest.length ≤ input.length := by
  unfold skipNumber at h
  grind [length_readDigits_le]

/-! ### Lists and objects -/

@[grind →]
theorem length_nextItem {first more : Bool} (h : nextItem first input = .ok (more, rest)) :
    rest.length ≤ input.length := by
  have hblank := length_skipBlank_le input
  unfold nextItem at h
  grind [length_skipBlank_le]

@[grind →]
theorem length_nextName {first more : Bool} (h : nextName first input = .ok (more, rest)) :
    rest.length ≤ input.length := by
  have hblank := length_skipBlank_le input
  unfold nextName at h
  grind [length_skipBlank_le]

@[grind →]
theorem length_readColon (h : readColon input = .ok rest) : rest.length ≤ input.length := by
  unfold readColon at h
  grind

@[grind →]
theorem length_endList (h : endList input = .ok rest) : rest.length ≤ input.length := by
  unfold endList at h
  grind

@[grind →]
theorem length_endObject (h : endObject input = .ok rest) : rest.length ≤ input.length := by
  unfold endObject at h
  grind

/-! ### Names for alternatives -/

@[grind →]
theorem length_readVariantName {known : List (String × α)} {named : String × α}
    (h : Decoder.readVariantName known input = .ok (named, rest)) : rest.length ≤ input.length := by
  unfold Decoder.readVariantName at h
  grind

@[grind →]
theorem length_readUnit {depth : Nat} {u : Unit}
    (h : Decoder.unit.read depth input = .ok (u, rest)) : rest.length ≤ input.length := by
  unfold Decoder.unit at h
  grind

@[grind →]
theorem length_readVariantObject {known : List (String × α)} {depth : Nat} {a : α}
    (h : Decoder.readVariantObject known depth input = .ok (a, rest)) :
    rest.length ≤ input.length := by
  unfold Decoder.readVariantObject at h
  grind

theorem length_readChoice {known : List (String × α)} {depth : Nat} {a : α}
    (h : (Decoder.choice known).read depth input = .ok (a, rest)) : rest.length ≤ input.length := by
  unfold Decoder.choice at h
  grind

/-! ### Passing over values -/

/-- The three ways to pass over what is left of a value need each other, each with less fuel. -/
theorem length_skip (fuel : Nat) :
    (∀ open_ input rest, skipWithin fuel open_ input = .ok rest → rest.length ≤ input.length) ∧
    (∀ comma open_ input rest, skipOn fuel comma open_ input = .ok rest →
      rest.length ≤ input.length) ∧
    ∀ outer input rest, skipMember fuel outer input = .ok rest → rest.length ≤ input.length := by
  induction fuel with
  | zero => exact ⟨nofun, nofun, nofun⟩
  | succ fuel ih =>
    obtain ⟨hwithin, hon, hmember⟩ := ih
    have hthen {part : Except Fault Input} {comma : Bool} {open_ : List Bracket} {rest : Input}
        (h : part.bind (skipOn fuel comma open_) = .ok rest) :
        ∃ middle, part = .ok middle ∧ rest.length ≤ middle.length := by
      cases part with
      | error => cases h
      | ok middle => exact ⟨middle, rfl, hon _ _ _ _ h⟩
    refine ⟨fun open_ input rest h => ?_, fun comma open_ input rest h => ?_,
      fun outer input rest h => ?_⟩
    case refine_1 =>
      unfold skipWithin at h
      grind
    case refine_2 =>
      have hblank := length_skipBlank_le input
      cases open_ with
      | nil =>
        obtain rfl := Except.ok.inj h
        exact Nat.le_refl _
      | cons bracket outer =>
        cases bracket with
        | list | object =>
          unfold skipOn at h
          grind
    case refine_3 =>
      unfold skipMember at h
      grind

@[grind →]
theorem length_skipValue (h : skipValue input = .ok rest) : rest.length ≤ input.length :=
  (length_skip _).1 _ _ _ h

end Json
end DeviceRelay

/-
# White space, and text without it at either end

The blank characters are the ones Unicode lists as white space: the five ASCII
ones, the vertical tab, the next line, and the spaces and separators of other
scripts. The zero-width space is none of them.

Key definitions: `Text.isBlank`, `Text.trim`, `Text.isAllBlank`.
-/

namespace DeviceRelay
namespace Text

/-- Whether `c` is white space. -/
def isBlank (c : Char) : Bool :=
  let n := c.toNat
  (0x09 ≤ n && n ≤ 0x0D) || n == 0x20 || n == 0x85 || n == 0xA0 || n == 0x1680 ||
    (0x2000 ≤ n && n ≤ 0x200A) || n == 0x2028 || n == 0x2029 || n == 0x202F ||
    n == 0x205F || n == 0x3000

/-- A text without the white space at either end. -/
def trim (text : List Char) : List Char :=
  ((text.dropWhile isBlank).reverse.dropWhile isBlank).reverse

/-- Whether a text holds nothing but white space. -/
def isAllBlank (text : List Char) : Bool := text.all isBlank

/-- A text is nothing but white space exactly when trimming leaves nothing. -/
theorem trim_eq_nil_iff (text : List Char) : trim text = [] ↔ isAllBlank text = true := by
  simp only [trim, isAllBlank, List.reverse_eq_nil_iff, List.all_eq_true]
  constructor
  · intro h c hc
    have drop_all : ∀ l : List Char, l.dropWhile isBlank = [] → ∀ x ∈ l, isBlank x = true := by
      intro l
      induction l with
      | nil => simp
      | cons a l ih =>
        intro hl x hx
        by_cases ha : isBlank a = true
        · rw [List.dropWhile_cons_of_pos ha] at hl
          rcases List.mem_cons.1 hx with rfl | hx
          · exact ha
          · exact ih hl x hx
        · rw [List.dropWhile_cons_of_neg ha] at hl
          simp at hl
    have inner := drop_all _ h
    by_cases hd : text.dropWhile isBlank = []
    · exact drop_all _ hd c hc
    · exfalso
      obtain ⟨a, l, hal⟩ := List.exists_cons_of_ne_nil hd
      have hneg := List.head_dropWhile_not isBlank hd
      have hmem : a ∈ (text.dropWhile isBlank).reverse := by simp [hal]
      have := inner a hmem
      simp [hal, this] at hneg
  · intro h
    have : text.dropWhile isBlank = [] := by
      induction text with
      | nil => rfl
      | cons a l ih =>
        rw [List.dropWhile_cons_of_pos (h a (by simp))]
        exact ih fun x hx => h x (by simp [hx])
    simp [this]

end Text
end DeviceRelay

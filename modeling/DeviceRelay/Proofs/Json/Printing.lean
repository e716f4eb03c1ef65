/-
# What is printed is read back

A value is printed in one of the ways in which it can be written: without white space, with the
quote, the backslash and the control characters escaped, and with the members in the order of
their names. So a value in normal form that has no doubles is read back from what is printed of
it, by a reader that may go as deep as its brackets nest.

Key definitions: `Json.Value.Whole`, `Json.Entry.printed`.
Key theorems: `Json.spells_escaped`, `Json.writes_print`, `Json.ofText_printFields`.
-/
import DeviceRelay.Proofs.Json.Texts

namespace DeviceRelay
namespace Json

/-! ### Texts -/

theorem value?_digit {n : Nat} (h : n < 16) : Hex.value? (Hex.digit n) = some n := by
  have hall : ∀ n < 16, Hex.value? (Hex.digit n) = some n := by decide
  exact hall n h

theorem hexDigits_padded {n : Nat} (h : n < 0x10000) : HexDigits (Hex.padded 4 n) n := by
  have hdigit (k : Nat) : Hex.value? (Hex.digit (k % 16)) = some (k % 16) :=
    value?_digit (Nat.mod_lt _ (by decide))
  have hfour := HexDigits.four (hdigit (n / 16 / 16 / 16)) (hdigit (n / 16 / 16)) (hdigit (n / 16))
    (hdigit n)
  have hvalue : ((n / 16 / 16 / 16 % 16 * 16 + n / 16 / 16 % 16) * 16 + n / 16 % 16) * 16 + n % 16 = n := by
    omega
  rw [hvalue] at hfour
  exact hfour

theorem spells_escapeChar (c : Char) {cs w : List Char} (h : Spells cs w) :
    Spells (c :: cs) (escapeChar c ++ w) := by
  unfold escapeChar
  split
  · exact .escaped .quote h
  · exact .escaped .backslash h
  · exact .escaped .backspace h
  · exact .escaped .formFeed h
  · exact .escaped .newline h
  · exact .escaped .carriageReturn h
  · exact .escaped .tab h
  · rename_i noQuote noBackslash _ _ _ _ _
    split
    · rename_i hcontrol
      have hnumber := Escape.number (hexDigits_padded (n := c.toNat) (by omega)) (.inl (by omega))
      rw [Char.ofNat_toNat] at hnumber
      exact .escaped hnumber h
    · rename_i hvisible
      exact .plain (by omega) noQuote noBackslash h

/-- **What is printed between the quotes spells the text.** -/
theorem spells_escaped (cs : List Char) : Spells cs (cs.flatMap escapeChar) := by
  induction cs with
  | nil => exact .nil
  | cons c cs ih =>
    rw [List.flatMap_cons]
    exact spells_escapeChar c ih

/-! ### Parts -/

theorem ofText_append (a b : List Char) : Glyph.ofText (a ++ b) = Glyph.ofText a ++ Glyph.ofText b :=
  List.map_append ..

theorem ofText_cons (c : Char) (cs : List Char) : Glyph.ofText (c :: cs) = .char c :: Glyph.ofText cs :=
  rfl

theorem ofText_printString (s : String) : Glyph.ofText (printString s) =
    .char '"' :: (Glyph.ofText (s.toList.flatMap escapeChar) ++ [.char '"']) := by
  simp [printString, Glyph.ofText]

/-- A member that is printed. -/
def Entry.printed (name : String) (text : List Char) : Entry where
  before := []
  name := name
  spelling := name.toList.flatMap escapeChar
  between := []
  text := Glyph.ofText text
  blankBefore := List.forall_mem_nil _
  spells := spells_escaped name.toList
  blankBetween := List.forall_mem_nil _

theorem Entry.whole_printed (name : String) (text : List Char) :
    (Entry.printed name text).whole = Glyph.ofText (printString name ++ ':' :: text) := by
  simp [Entry.printed, whole, tail, printString, Glyph.ofText]

theorem ofText_printItems (items : List Value) : Glyph.ofText (printItems items) =
    separated (items.map fun item => Glyph.ofText (print item)) := by
  cases items with
  | nil => rfl
  | cons item items =>
    induction items generalizing item with
    | nil => simp [printItems, separated, followed]
    | cons next items ih =>
      have hmore := ih next
      rw [printItems, ofText_append, ofText_cons, hmore]
      · simp [separated, followed]
      · simp

theorem ofText_printMembers (members : List (String × Value)) : Glyph.ofText (printMembers members) =
    separated (members.map fun member => (Entry.printed member.1 (print member.2)).whole) := by
  cases members with
  | nil => rfl
  | cons member members =>
    induction members generalizing member with
    | nil => simp [printMembers, separated, followed, Entry.whole_printed]
    | cons next members ih =>
      have hmore := ih next
      rw [printMembers]
      · simp only [ofText_append, ofText_cons, hmore]
        simp [separated, followed, Entry.whole_printed, Glyph.ofText]
      · simp

theorem ofText_intercalate (parts : List (List Char)) :
    Glyph.ofText (List.intercalate [','] parts) = separated (parts.map Glyph.ofText) := by
  cases parts with
  | nil => rfl
  | cons part parts =>
    induction parts generalizing part with
    | nil => simp [separated, followed]
    | cons next parts ih =>
      have hmore := ih next
      rw [List.intercalate_cons_cons, ofText_append, ofText_append, hmore]
      simp [separated, followed, Glyph.ofText]

/-- Fields are printed as members between braces. -/
theorem ofText_printFields (fields : List (String × List Char)) : Glyph.ofText (printFields fields) =
    .char '\x7b' ::
      (separated (fields.map fun field => (Entry.printed field.1 field.2).whole) ++ [.char '\x7d']) := by
  unfold printFields
  rw [ofText_cons, ofText_append, ofText_intercalate, List.map_map]
  simp only [Function.comp_def, Entry.whole_printed]
  rfl

/-! ### Values -/

namespace Value

/-- A value without doubles. -/
inductive Whole : Value → Prop where
  | null : Whole .null
  | bool (b : Bool) : Whole (.bool b)
  | int (n : Int) : Whole (.num (.int n))
  | str (s : String) : Whole (.str s)
  | arr {items : List Value} (inner : ∀ item ∈ items, Whole item) : Whole (.arr items)
  | obj {members : List (String × Value)} (inner : ∀ member ∈ members, Whole member.2) :
    Whole (.obj members)

end Value

/-- What is printed of a list writes it if this holds of each item. -/
theorem writes_printList {depth : Nat} {items : List Value}
    (inner : ∀ item ∈ items, Writes depth item (Glyph.ofText (print item))) :
    Writes (depth + 1) (.arr items) (Glyph.ofText (print (.arr items))) := by
  have htext : Glyph.ofText (print (.arr items)) = .char '[' :: ([] ++
      (separated ((items.map fun item => (item, Glyph.ofText (print item))).map (·.2)) ++
        [.char ']'])) := by
    rw [print, ofText_cons, ofText_append, ofText_printItems, List.map_map]
    rfl
  have hsame : (items.map fun item => (item, Glyph.ofText (print item))).map (·.1) = items := by
    rw [List.map_map]
    exact List.map_id items
  have hlist : Writes (depth + 1)
      (.arr ((items.map fun item => (item, Glyph.ofText (print item))).map (·.1)))
      (Glyph.ofText (print (.arr items))) := by
    rw [htext]
    exact .arr (List.forall_mem_nil _) (List.forall_mem_map.mpr inner)
  rwa [hsame] at hlist

/-- What is printed of an object writes it if this holds of each member. -/
theorem writes_printObject {depth : Nat} {members : List (String × Value)}
    (ordered : Ordered members)
    (inner : ∀ member ∈ members, Writes depth member.2 (Glyph.ofText (print member.2))) :
    Writes (depth + 1) (.obj members) (Glyph.ofText (print (.obj members))) := by
  have htext : Glyph.ofText (print (.obj members)) = .char '\x7b' :: ([] ++
      (separated ((members.map fun member =>
        (Entry.printed member.1 (print member.2), member.2)).map (·.1.whole)) ++ [.char '\x7d'])) := by
    rw [print, ofText_cons, ofText_append, ofText_printMembers, List.map_map]
    rfl
  have hsame : (members.map fun member =>
      (Entry.printed member.1 (print member.2), member.2)).map (fun e => (e.1.name, e.2)) =
        members := by
    rw [List.map_map]
    exact List.map_id members
  have hobject : Writes (depth + 1)
      (Value.ofMembers ((members.map fun member =>
        (Entry.printed member.1 (print member.2), member.2)).map fun e => (e.1.name, e.2)))
      (Glyph.ofText (print (.obj members))) := by
    rw [htext]
    exact .obj (List.forall_mem_nil _) (List.forall_mem_map.mpr inner)
  rwa [hsame, Value.ofMembers_of_ordered ordered] at hobject

/-- **What is printed of a value writes it.** -/
theorem writes_print {v : Value} (fits : v.Fits) (whole : v.Whole) {depth : Nat}
    (h : v.height ≤ depth) : Writes depth v (Glyph.ofText (print v)) := by
  induction fits generalizing depth with
  | null => exact .null depth
  | bool b =>
    cases b with
    | true => exact .yes depth
    | false => exact .no depth
  | num fits =>
    cases whole with
    | int n => exact .int depth fits
  | str s =>
    rw [print, ofText_printString]
    exact .str depth (spells_escaped s.toList)
  | @arr items _ ih =>
    cases whole with
    | arr inner =>
      cases depth with
      | zero => cases h
      | succ depth =>
        have hitems := Value.heightItems_le.mp (Nat.le_of_succ_le_succ h)
        exact writes_printList fun item hitem => ih item hitem (inner item hitem) (hitems item hitem)
  | @obj members ordered _ ih =>
    cases whole with
    | obj inner =>
      cases depth with
      | zero => cases h
      | succ depth =>
        have hmembers := Value.heightMembers_le.mp (Nat.le_of_succ_le_succ h)
        exact writes_printObject ordered fun member hmember =>
          ih member hmember (inner member hmember) (hmembers member hmember)

end Json
end DeviceRelay

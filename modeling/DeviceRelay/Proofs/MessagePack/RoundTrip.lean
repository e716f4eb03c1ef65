/-
# A packed value is read back

The bytes of a value are read as one item, if its brackets nest no deeper than the reader
goes, and as nothing if they do. The item stands for the value, if that is in normal form.
What this takes of a value is that its texts, lists and objects are shorter than `2 ^ 32`, as
their lengths are written in 32 bits.

Key definitions: `MessagePack.Short`, `MessagePack.itemOf`, `MessagePack.ReadAs`.
Key theorems: `MessagePack.read_write`, `MessagePack.toValue?_itemOf`.
-/
import DeviceRelay.Proofs.Json.Values
import DeviceRelay.Proofs.MessagePack.Forms

namespace DeviceRelay
namespace MessagePack

open Json (Value Number)

/-! ### Lengths -/

/-- A text whose length can be written. -/
def ShortText (s : String) : Prop := (Utf8.encode s.toList).length < twoTo 32

instance (s : String) : Decidable (ShortText s) :=
  inferInstanceAs (Decidable ((Utf8.encode s.toList).length < twoTo 32))

/-- A value whose lengths can be written. -/
inductive Short : Value → Prop where
  | null : Short .null
  | bool (b : Bool) : Short (.bool b)
  | num (n : Number) : Short (.num n)
  | str {s : String} (short : ShortText s) : Short (.str s)
  | arr {items : List Value} (short : items.length < twoTo 32) (inner : ∀ item ∈ items, Short item) :
    Short (.arr items)
  | obj {members : List (String × Value)} (short : members.length < twoTo 32)
    (names : ∀ member ∈ members, ShortText member.1) (inner : ∀ member ∈ members, Short member.2) :
    Short (.obj members)

/-! ### Items -/

def textItem (s : String) : Item := .text (Utf8.encode s.toList)

mutual

/-- The item that is read of a value. -/
def itemOf : Value → Item
  | .null => .nil
  | .bool b => .bool b
  | .num (.int n) => intItem n
  | .num (.double x) => .float x
  | .str s => textItem s
  | .arr items => .list (itemsOf items)
  | .obj members => .map (membersOf members)

/-- The items that are read of values. -/
def itemsOf : List Value → List Item
  | [] => []
  | item :: rest => itemOf item :: itemsOf rest

/-- The pairs of items that are read of members. -/
def membersOf : List (String × Value) → List (Item × Item)
  | [] => []
  | (name, value) :: rest => (textItem name, itemOf value) :: membersOf rest

end

/-- A value is read as its item if its brackets nest no deeper than the reader goes. -/
def ReadAs (v : Value) : Prop :=
  ∀ depth rest, read depth (write v ++ rest) =
    if v.height ≤ depth then some (itemOf v, rest) else none

theorem readAs_of_flat {v : Value} (hflat : v.height = 0)
    (h : ∀ depth rest, read depth (write v ++ rest) = some (itemOf v, rest)) : ReadAs v := by
  intro depth rest
  rw [hflat, if_pos (Nat.zero_le depth)]
  exact h depth rest

theorem readMany_writeItems {items : List Value} (h : ∀ item ∈ items, ReadAs item) (depth : Nat)
    (rest : List UInt8) : readMany (read depth) items.length (writeItems items ++ rest) =
      if Value.heightItems items ≤ depth then some (itemsOf items, rest) else none := by
  induction items with
  | nil => rfl
  | cons item items ih =>
    obtain ⟨hitem, hitems⟩ := List.forall_mem_cons.mp h
    rw [List.length_cons, readMany, writeItems, List.append_assoc, hitem]
    simp only [Value.heightItems, Nat.max_le]
    by_cases hfirst : item.height ≤ depth
    · by_cases hothers : Value.heightItems items ≤ depth
      · simp [hfirst, hothers, ih hitems, itemsOf]
      · simp [hfirst, hothers, ih hitems]
    · simp [hfirst]

theorem readMany_writeMembers {members : List (String × Value)}
    (names : ∀ member ∈ members, ShortText member.1) (h : ∀ member ∈ members, ReadAs member.2)
    (depth : Nat) (rest : List UInt8) :
    readMany (readPair (read depth)) members.length (writeMembers members ++ rest) =
      if Value.heightMembers members ≤ depth then some (membersOf members, rest) else none := by
  induction members with
  | nil => rfl
  | cons member members ih =>
    obtain ⟨name, value⟩ := member
    obtain ⟨hname, hnames⟩ := List.forall_mem_cons.mp names
    obtain ⟨hvalue, hvalues⟩ := List.forall_mem_cons.mp h
    have hpair : readPair (read depth)
          (writeText name ++ (write value ++ (writeMembers members ++ rest))) =
        if value.height ≤ depth then
          some ((textItem name, itemOf value), writeMembers members ++ rest) else none := by
      unfold readPair
      rw [read_writeText hname]
      simp only [Option.bind_eq_bind, Option.bind_some, hvalue depth]
      split <;> rfl
    rw [List.length_cons, readMany, writeMembers, List.append_assoc, List.append_assoc, hpair]
    simp only [Value.heightMembers, Nat.max_le]
    by_cases hfirst : value.height ≤ depth
    · by_cases hothers : Value.heightMembers members ≤ depth
      · simp [hfirst, hothers, ih hnames hvalues, membersOf]
      · simp [hfirst, hothers, ih hnames hvalues]
    · simp [hfirst]

/-- **A packed value is read as its item, if its brackets nest no deeper than the reader goes.** -/
theorem read_write {v : Value} (short : Short v) : ReadAs v := by
  induction short with
  | null => exact readAs_of_flat rfl fun depth _ => read_plain rfl depth
  | bool b =>
    cases b with
    | false => exact readAs_of_flat rfl fun depth _ => read_plain rfl depth
    | true => exact readAs_of_flat rfl fun depth _ => read_plain rfl depth
  | num n =>
    cases n with
    | int n => exact readAs_of_flat rfl (read_writeInt n)
    | double x => exact readAs_of_flat rfl (read_writeDouble x)
  | str short => exact readAs_of_flat rfl (read_writeText short)
  | @arr items short _ ih =>
    intro depth rest
    obtain ⟨hopen, hfull⟩ := read_listMarker short (writeItems items ++ rest)
    rw [write, List.append_assoc]
    cases depth with
    | zero => rw [hfull, Value.height, if_neg (Nat.not_succ_le_zero _)]
    | succ depth =>
      rw [hopen, readMany_writeItems ih]
      simp only [Value.height, Nat.succ_le_succ_iff]
      split <;> rfl
  | @obj members short names _ ih =>
    intro depth rest
    obtain ⟨hopen, hfull⟩ := read_mapMarker short (writeMembers members ++ rest)
    rw [write, List.append_assoc]
    cases depth with
    | zero => rw [hfull, Value.height, if_neg (Nat.not_succ_le_zero _)]
    | succ depth =>
      rw [hopen, readMany_writeMembers names ih]
      simp only [Value.height, Nat.succ_le_succ_iff]
      split <;> rfl

/-! ### What an item stands for -/

theorem text?_encode (s : String) : Item.text? (Utf8.encode s.toList) = some s := by
  unfold Item.text?
  rw [Utf8.decode_encode]
  exact congrArg some String.ofList_toList

theorem toInt?_intItem {n : Int} (hlow : -(twoTo 63 : Int) ≤ n) (hhigh : n < (twoTo 64 : Int)) :
    (intItem n).toInt? = some n := by
  unfold intItem
  split
  · rename_i h0
    have hword : n.toNat % twoTo 64 = n.toNat := Nat.mod_eq_of_lt (by omega)
    rw [hword]
    exact congrArg some (Int.toNat_of_nonneg h0)
  · rename_i h0
    have hword : signedWord 8 (n + twoTo 64).toNat = n :=
      signedWord_complement (by decide : 0 < 8) (Int.not_le.mp h0) hlow
    rw [hword]
    rfl

theorem itemsToValues?_itemsOf {items : List Value}
    (h : ∀ item ∈ items, (itemOf item).toValue? = some item) :
    Item.itemsToValues? (itemsOf items) = some items := by
  induction items with
  | nil => rfl
  | cons item items ih =>
    obtain ⟨hitem, hitems⟩ := List.forall_mem_cons.mp h
    rw [itemsOf, Item.itemsToValues?, hitem, ih hitems]
    rfl

theorem membersToValues?_membersOf {members : List (String × Value)}
    (h : ∀ member ∈ members, (itemOf member.2).toValue? = some member.2) (first : Bool) :
    Item.membersToValues? first (membersOf members) = some members := by
  induction members generalizing first with
  | nil => rfl
  | cons member members ih =>
    obtain ⟨name, value⟩ := member
    obtain ⟨hvalue, hvalues⟩ := List.forall_mem_cons.mp h
    have hname : textItem name = .text (Utf8.encode name.toList) := rfl
    rw [membersOf, hname, Item.membersToValues?]
    simp only [text?_encode, hvalue, ih hvalues]
    rfl

/-- **The item of a value in normal form stands for this value.** -/
theorem toValue?_itemOf {v : Value} (fits : v.Fits) : (itemOf v).toValue? = some v := by
  induction fits with
  | null => rfl
  | bool => rfl
  | @num n fits =>
    cases n with
    | int n =>
      have hint := toInt?_intItem fits.1 fits.2
      unfold itemOf
      cases hitem : intItem n with
      | unsigned m | signed m =>
        rw [hitem] at hint
        obtain rfl := Option.some.inj hint
        rfl
      | _ => simp [hitem, Item.toInt?] at hint
    | double x =>
      have hfinite : x.isFinite = true := fits
      rw [itemOf, Item.toValue?, if_pos hfinite]
  | str s =>
    rw [itemOf, textItem, Item.toValue?, text?_encode]
    rfl
  | arr _ ih =>
    rw [itemOf, Item.toValue?, itemsToValues?_itemsOf ih]
    rfl
  | @obj members ordered _ ih =>
    rw [itemOf, Item.toValue?, membersToValues?_membersOf ih, Option.map_some,
      Value.ofMembers_of_ordered ordered]

end MessagePack
end DeviceRelay

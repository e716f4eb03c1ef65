/-
# A value that was read from text is in one normal form

Whole numbers are within 64 bits, doubles are numbers, and the members of an object are in
the order of their names, each name once. An object that is built member by member is in
this form, and building it again from its own members gives the same object.

Key definitions: `Json.Ordered`, `Json.inserted`, `Json.Number.Fits`, `Json.Value.height`,
`Json.Value.Fits`.
Key theorems: `Json.ordered_inserted`, `Json.length_inserted_le`,
`Json.Value.ofMembers_of_ordered`.
-/
import DeviceRelay.Json.Value

namespace DeviceRelay
namespace Json

/-! ### Members in order -/

/-- The names ascend. -/
def Ordered (members : List (String × Value)) : Prop := members.Pairwise (·.1 < ·.1)

variable {name : String} {value : Value} {members : List (String × Value)}

theorem mem_insertMember {member : String × Value} (h : member ∈ insertMember name value members) :
    member = (name, value) ∨ member ∈ members := by
  induction members with
  | nil => exact Or.inl (List.mem_singleton.mp h)
  | cons head rest ih =>
    obtain ⟨other, old⟩ := head
    rw [insertMember] at h
    split at h
    · exact List.mem_cons.mp h
    · split at h
      · exact (List.mem_cons.mp h).imp_right (List.mem_cons_of_mem _)
      · rcases List.mem_cons.mp h with rfl | h
        · exact Or.inr List.mem_cons_self
        · exact (ih h).imp_right (List.mem_cons_of_mem _)

theorem ordered_insertMember (h : Ordered members) : Ordered (insertMember name value members) := by
  induction members with
  | nil => exact List.pairwise_singleton ..
  | cons head rest ih =>
    obtain ⟨other, old⟩ := head
    obtain ⟨hfirst, hrest⟩ := List.pairwise_cons.mp h
    rw [insertMember]
    split
    · rename_i hlt
      refine List.pairwise_cons.mpr ⟨fun member hmember => ?_, h⟩
      rcases List.mem_cons.mp hmember with rfl | hmember
      · exact hlt
      · exact String.lt_trans hlt (hfirst member hmember)
    · rename_i hge
      split
      · rename_i heq
        subst heq
        exact List.pairwise_cons.mpr ⟨hfirst, hrest⟩
      · rename_i hne
        have hlt : other < name := String.not_le.mp fun hle =>
          hne (String.le_antisymm hle (String.not_lt.mp hge))
        refine List.pairwise_cons.mpr ⟨fun member hmember => ?_, ih hrest⟩
        rcases mem_insertMember hmember with rfl | hmember
        · exact hlt
        · exact hfirst member hmember

theorem length_insertMember_le (name : String) (value : Value) (members : List (String × Value)) :
    (insertMember name value members).length ≤ members.length + 1 := by
  induction members with
  | nil => exact Nat.le_refl _
  | cons head rest ih =>
    rw [insertMember]
    split
    · exact Nat.le_refl _
    · split
      · exact Nat.le_succ _
      · exact Nat.succ_le_succ ih

theorem insertMember_last (h : ∀ member ∈ members, member.1 < name) :
    insertMember name value members = members ++ [(name, value)] := by
  induction members with
  | nil => rfl
  | cons head rest ih =>
    obtain ⟨other, old⟩ := head
    have hlt : other < name := h _ List.mem_cons_self
    rw [insertMember, if_neg (String.lt_asymm hlt), if_neg (String.ne_of_lt hlt).symm,
      ih fun member hmember => h member (List.mem_cons_of_mem _ hmember)]
    rfl

/-- The members of an object after some are written in turn. -/
def inserted (object members : List (String × Value)) : List (String × Value) :=
  members.foldl (fun object member => insertMember member.1 member.2 object) object

theorem ordered_inserted {object : List (String × Value)} (h : Ordered object)
    (members : List (String × Value)) : Ordered (inserted object members) := by
  induction members generalizing object with
  | nil => exact h
  | cons member rest ih => exact ih (ordered_insertMember h)

theorem mem_inserted {object : List (String × Value)} {member : String × Value}
    (h : member ∈ inserted object members) : member ∈ object ∨ member ∈ members := by
  induction members generalizing object with
  | nil => exact Or.inl h
  | cons first rest ih =>
    rcases ih h with h | h
    · rcases mem_insertMember h with rfl | h
      · exact Or.inr List.mem_cons_self
      · exact Or.inl h
    · exact Or.inr (List.mem_cons_of_mem _ h)

theorem length_inserted_le (object members : List (String × Value)) :
    (inserted object members).length ≤ object.length + members.length := by
  induction members generalizing object with
  | nil => exact Nat.le_refl _
  | cons first rest ih =>
    calc (inserted object (first :: rest)).length
        ≤ (insertMember first.1 first.2 object).length + rest.length := ih _
      _ ≤ object.length + 1 + rest.length :=
          Nat.add_le_add_right (length_insertMember_le ..) _
      _ = object.length + (first :: rest).length := by rw [List.length_cons]; omega

theorem inserted_of_ordered {object : List (String × Value)} (h : Ordered (object ++ members)) :
    inserted object members = object ++ members := by
  induction members generalizing object with
  | nil => exact (List.append_nil object).symm
  | cons first rest ih =>
    have hlast : insertMember first.1 first.2 object = object ++ [first] :=
      insertMember_last fun member hmember =>
        (List.pairwise_append.mp h).2.2 member hmember first List.mem_cons_self
    have hsplit : object ++ first :: rest = (object ++ [first]) ++ rest := by
      rw [List.append_assoc, List.singleton_append]
    rw [hsplit] at h
    calc inserted object (first :: rest) = inserted (insertMember first.1 first.2 object) rest := rfl
      _ = inserted (object ++ [first]) rest := by rw [hlast]
      _ = (object ++ [first]) ++ rest := ih h
      _ = object ++ first :: rest := hsplit.symm

/-! ### Normal form -/

/-- A number that a text can stand for. -/
def Number.Fits : Number → Prop
  | .int n => -(twoTo 63 : Int) ≤ n ∧ n < (twoTo 64 : Int)
  | .double x => x.isFinite = true

namespace Value

mutual

/-- How deep the brackets of a value nest. -/
def height : Value → Nat
  | .null | .bool _ | .num _ | .str _ => 0
  | .arr items => heightItems items + 1
  | .obj members => heightMembers members + 1

/-- The largest height of some items. -/
def heightItems : List Value → Nat
  | [] => 0
  | item :: rest => max item.height (heightItems rest)

/-- The largest height of some members. -/
def heightMembers : List (String × Value) → Nat
  | [] => 0
  | (_, value) :: rest => max value.height (heightMembers rest)

end

theorem heightItems_le {items : List Value} {depth : Nat} :
    heightItems items ≤ depth ↔ ∀ item ∈ items, item.height ≤ depth := by
  induction items with
  | nil => simp [heightItems]
  | cons item rest ih => simp only [heightItems, Nat.max_le, List.forall_mem_cons, ih]

theorem heightMembers_le {members : List (String × Value)} {depth : Nat} :
    heightMembers members ≤ depth ↔ ∀ member ∈ members, member.2.height ≤ depth := by
  induction members with
  | nil => simp [heightMembers]
  | cons member rest ih => simp only [heightMembers, Nat.max_le, List.forall_mem_cons, ih]

/-- An object that is built nests as deep as the members of which it is built. -/
theorem height_ofMembers_le {depth : Nat} (h : ∀ member ∈ members, member.2.height ≤ depth) :
    (ofMembers members).height ≤ depth + 1 := by
  refine Nat.succ_le_succ (heightMembers_le.mpr fun member hmember => h member ?_)
  exact (mem_inserted hmember).resolve_left List.not_mem_nil

/-- A value in the form in which it is read from text. -/
inductive Fits : Value → Prop where
  | null : Fits .null
  | bool (b : Bool) : Fits (.bool b)
  | num {n : Number} (fits : n.Fits) : Fits (.num n)
  | str (s : String) : Fits (.str s)
  | arr {items : List Value} (fits : ∀ item ∈ items, Fits item) : Fits (.arr items)
  | obj {members : List (String × Value)} (ordered : Ordered members)
    (fits : ∀ member ∈ members, Fits member.2) : Fits (.obj members)

/-- To build an object again changes nothing. -/
theorem ofMembers_of_ordered (h : Ordered members) : ofMembers members = .obj members := by
  have hnone : Ordered ([] ++ members) := h
  exact congrArg Value.obj (inserted_of_ordered hnone)

end Value
end Json
end DeviceRelay

/-
# A device has one owner at most

To record a pairing gives a device that has no owner its owner, and to remove one takes the
owner away. Neither touches the owner of another device. A device that has an owner is
refused, so nobody takes a device over. A store that fails leaves every owner as it is.

Key definitions: `PairingStore.owner?`, `PairingStore.Answers`.
Key theorems: `Edges.owner?_create`, `Edges.owner?_remove`, `PairingStore.answers_record`,
`PairingStore.owner?_remove`, `Edges.connected_iff`.
-/
import DeviceRelay.Pairing.Store
import Mathlib.Data.List.Basic

namespace DeviceRelay

/-! ### Edges -/

namespace Edges

variable {edges edges' : Edges} {user device : PrincipalId}

theorem owner?_create (h : edges.create? user device = some edges') :
    edges.owner? device = none ∧
      ∀ d, edges'.owner? d = if d = device then some user else edges.owner? d := by
  unfold create? at h
  obtain ⟨hfree, h⟩ := Option.ite_none_left_eq_some.mp h
  obtain rfl := Option.some.inj h
  have hnone : edges.owner? device = none := Option.not_isSome_iff_eq_none.mp hfree
  refine ⟨hnone, fun d => ?_⟩
  have happ : owner? ⟨edges.toList ++ [⟨user, device⟩]⟩ d =
      (edges.owner? d).or (if device = d then some user else none) := by
    unfold owner?
    rw [List.find?_append]
    cases edges.toList.find? (·.device = d) with
    | some edge => rfl
    | none => by_cases hd : device = d <;> simp [hd]
  rw [happ]
  by_cases hd : d = device
  · rw [hd, hnone]
    simp
  · rw [if_neg hd, if_neg fun h => hd h.symm]
    simp

theorem owner?_remove (edges : Edges) (device d : PrincipalId) :
    (edges.remove device).1.owner? d = if d = device then none else edges.owner? d := by
  have hremoved : (edges.remove device).1 = ⟨edges.toList.filter (·.device ≠ device)⟩ := rfl
  rw [hremoved]
  unfold owner?
  rw [List.find?_filter]
  by_cases hd : d = device
  · subst hd
    simp
  · rw [if_neg hd]
    congr 2
    funext edge
    by_cases he : edge.device = d
    · simp [he, hd]
    · simp [he]

/-- How owners connect two principals. The two owners may be those of different instants. -/
theorem connected_iff (a b : PrincipalId) (ownerA ownerB : Option PrincipalId) :
    connected a b ownerA ownerB = true ↔ ownerA = some b ∨ ownerB = some a ∨
      ∃ x, ownerA = some x ∧ ownerB = some x := by
  have hshared : (ownerA.isSome = true ∧ ownerA = ownerB) ↔
      ∃ x, ownerA = some x ∧ ownerB = some x := by
    constructor
    · rintro ⟨hsome, hsame⟩
      obtain ⟨x, hx⟩ := Option.isSome_iff_exists.mp hsome
      exact ⟨x, hx, hsame ▸ hx⟩
    · rintro ⟨x, hx, hx'⟩
      exact ⟨by rw [hx]; rfl, hx.trans hx'.symm⟩
  unfold connected
  rw [Bool.or_eq_true, Bool.or_eq_true, Bool.and_eq_true, or_assoc]
  simp only [beq_iff_eq, hshared]

theorem sameNetwork_iff (edges : Edges) (a b : PrincipalId) :
    edges.sameNetwork a b = true ↔
      a = b ∨ connected a b (edges.owner? a) (edges.owner? b) = true := by
  unfold sameNetwork
  rw [Bool.or_eq_true, beq_iff_eq]

end Edges

/-! ### Stores -/

namespace PairingStore

/-- The owner of a device, as the store has it. -/
def owner? (s : PairingStore) (device : PrincipalId) : Option PrincipalId :=
  s.edges.owner? device

variable {s s' : PairingStore} {user device : PrincipalId}

theorem read_ok {α : Type} {f : Edges → α} {a : α} (h : s.read f = .ok a) : f s.edges = a := by
  unfold read at h
  split at h
  · cases h
  · exact Except.ok.inj h

/-- How the store answers when a pairing is to be recorded, and what it is then. -/
inductive Answers (s : PairingStore) (user device : PrincipalId) : PairingStore → Recording → Prop where
  | recorded (edges : Edges) (usable : s.fault = none) (free : s.owner? device = none)
    (owners : ∀ d, edges.owner? d = if d = device then some user else s.owner? d) :
    Answers s user device { s with edges } .recorded
  | taken (owner : PrincipalId) (usable : s.fault = none) (owned : s.owner? device = some owner) :
    Answers s user device s (.refused (.alreadyPaired device))
  | failed (cause : StorageError) (fault : s.fault = some (.error cause)) :
    Answers s user device s (.refused (.storage cause))
  | broken (fault : s.fault = some .breakdown) : Answers s user device s .brokenOff

/-- **A store records a pairing of a device that has no owner, and no other.** -/
theorem answers_record {r : Recording} (h : s.record user device = (s', r)) :
    Answers s user device s' r := by
  unfold record at h
  split at h
  · rename_i hfault
    obtain ⟨rfl, rfl⟩ := Prod.mk.inj h
    exact .broken hfault
  · rename_i cause hfault
    obtain ⟨rfl, rfl⟩ := Prod.mk.inj h
    exact .failed cause hfault
  · rename_i hfault
    split at h
    · rename_i edges hcreate
      obtain ⟨rfl, rfl⟩ := Prod.mk.inj h
      obtain ⟨hfree, howners⟩ := Edges.owner?_create hcreate
      exact .recorded edges hfault hfree howners
    · rename_i hcreate
      obtain ⟨rfl, rfl⟩ := Prod.mk.inj h
      have hsome : (s.owner? device).isSome = true := by
        by_contra hnone
        unfold Edges.create? at hcreate
        exact absurd (if_neg hnone ▸ hcreate) (by simp)
      obtain ⟨owner, howner⟩ := Option.isSome_iff_exists.mp hsome
      exact .taken owner hfault howner

theorem Answers.owner? {r : Recording} (h : Answers s user device s' r) (d : PrincipalId)
    (hd : d = device → r ≠ .recorded) : s'.owner? d = s.owner? d := by
  cases h with
  | recorded edges _ _ owners =>
    rw [PairingStore.owner?, owners, if_neg fun he => hd he rfl]
  | taken | failed | broken => rfl

theorem owner?_remove (s : PairingStore) (device d : PrincipalId) :
    (s.remove device).1.owner? d = s.owner? d ∨
      d = device ∧ (s.remove device).1.owner? d = none := by
  unfold remove
  split
  · exact .inl rfl
  · have howner := Edges.owner?_remove s.edges device d
    by_cases hd : d = device
    · exact .inr ⟨hd, howner.trans (if_pos hd)⟩
    · exact .inl (howner.trans (if_neg hd))

end PairingStore
end DeviceRelay

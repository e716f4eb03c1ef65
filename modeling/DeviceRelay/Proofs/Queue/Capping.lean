/-
# A push with a cap is a push and a trim in one step

A push that makes room counts the items to be dropped from the front, and drops all if there are
fewer. A trim is told a place instead, by which it may count from the end, and empties a list whose
range has no place. For every list, every cap and every number of items to be dropped the two
agree: a push with a cap leads where a push leads and then, just if the list is longer than the cap,
a trim from the place of the first item that stays to the last place.

Key definitions: `Queues.capping`, `Queues.Capped`.
Key theorems: `Queues.between_to_last`, `Queues.trim_push`, `Queues.pushCapped_here`,
`Queues.capped_of_step`.
-/
import DeviceRelay.Proofs.Queue.Ranges

namespace DeviceRelay
namespace Queues

variable {κ α γ : Type}

/-- A range that ends with the last place leaves out the first items only. -/
theorem between_to_last (n : Nat) (items : List α) : between n (-1) items = items.drop n := by
  have hall : (min (resolve (-1) items.length) (items.length - 1) + 1).toNat = items.length := by
    unfold resolve
    omega
  have hfirst : (max (resolve (n : Int) items.length) 0).toNat = n := by
    unfold resolve
    omega
  rw [between_eq_drop_take, hall, hfirst, List.take_length]

theorem drop_min_length (n : Nat) (items : List α) :
    items.drop (min n items.length) = items.drop n := by
  by_cases h : n ≤ items.length
  · rw [Nat.min_eq_left h]
  · have hle : items.length ≤ n := by omega
    rw [Nat.min_eq_right hle, List.drop_length, List.drop_eq_nil_of_le hle]

variable [DecidableEq κ]

theorem setItems_setItems (q : Queues κ α γ) (k : κ) (l l' : List α) :
    (q.setItems k l).setItems k l' = q.setItems k l' := by
  unfold setItems
  rw [Keyed.put_put]

/-- To wake the pops of a key changes no list, so what is trimmed does not depend on it. -/
theorem wake_trim (q : Queues κ α γ) (k : κ) (first last : Int) :
    (q.wake k).trim k first last = (q.trim k first last).wake k := rfl

/-- A push and a trim of its key leave what is in the range of the longer list. -/
theorem trim_push (q : Queues κ α γ) (k : κ) (a : α) (first last : Int) :
    (q.push k a).1.trim k first last =
      (q.setItems k (between first last (q.items k ++ [a]))).wake k := by
  show ((q.setItems k (q.items k ++ [a])).wake k).trim k first last = _
  rw [wake_trim]
  unfold trim
  rw [items_setItems_self, setItems_setItems]

/-- What a push with a cap leaves, in one step. -/
theorem pushCapped_here (q : Queues κ α γ) (k : κ) (a : α) (max drop : Nat) :
    (q.pushCapped k a max drop).1 =
      if max < (q.push k a).2 then (q.push k a).1.trim k drop (-1) else (q.push k a).1 := by
  have hlength : (q.push k a).2 = (q.items k ++ [a]).length := rfl
  have hcapped : (q.pushCapped k a max drop).1 =
      (q.setItems k ((q.items k ++ [a]).drop (excess max drop (q.items k ++ [a]).length))).wake k :=
    rfl
  by_cases hlong : max < (q.items k ++ [a]).length
  · have hexcess : excess max drop (q.items k ++ [a]).length =
        min drop (q.items k ++ [a]).length := if_pos hlong
    rw [hlength, if_pos hlong, trim_push, between_to_last, hcapped, hexcess, drop_min_length]
  · have hexcess : excess max drop (q.items k ++ [a]).length = 0 := if_neg hlong
    rw [hlength, if_neg hlong, hcapped, hexcess, List.drop_zero]
    rfl

/-! ### Runs -/

variable [DecidableEq γ]

/-- The actions of a push with a cap: a push, and a trim of the list if it is too long then. -/
def capping (q : Queues κ α γ) (k : κ) (a : α) (max drop : Nat) : List (Action κ α γ) :=
  .push k a :: if max < (q.push k a).2 then [.trim k drop (-1)] else []

/-- What a push with a cap does, which tells that `length` items are left and that `dropped` went. -/
structure Capped (s t : State κ α γ) (k : κ) (a : α) (max drop length dropped : Nat) : Prop where
  /-- It leads where the push and the trim lead. -/
  refined : (machine κ α γ).run s (capping s.here k a max drop) =
    some (t, [.stored k (s.here.push k a).2 0])
  counted : length = (t.here.items k).length
  /-- What is gone is the front of the list that the push makes. -/
  removed : ∃ gone, (s.here.push k a).1.items k = gone ++ t.here.items k ∧ gone.length = dropped
  others : ∀ k', k' ≠ k → t.here.items k' = s.here.items k'

/-- **A push with a cap is a push, and then a trim just if the list is too long**, for every state,
item, cap and number of items to be dropped. -/
theorem capped_of_step (s : State κ α γ) (k : κ) (a : α) (max drop : Nat) :
    ∃ t length dropped, s.step (.pushCapped k a max drop) = some (t, [.stored k length dropped]) ∧
      Capped s t k a max drop length dropped := by
  refine ⟨{ s with here := (s.here.pushCapped k a max drop).1 },
    (s.here.pushCapped k a max drop).2.1, (s.here.pushCapped k a max drop).2.2, rfl, ?_⟩
  constructor
  case refined =>
    rw [pushCapped_here]
    unfold capping
    by_cases hlong : max < (s.here.push k a).2
    · rw [if_pos hlong, if_pos hlong]
      rfl
    · rw [if_neg hlong, if_neg hlong]
      rfl
  case counted => exact length_pushCapped s.here k a max drop
  case removed =>
    refine ⟨(s.here.items k ++ [a]).take (excess max drop ((s.here.items k).length + 1)), ?_, ?_⟩
    · rw [items_push, if_pos rfl, items_pushCapped, if_pos rfl, List.take_append_drop]
    · have hle : excess max drop ((s.here.items k).length + 1) ≤ (s.here.items k).length + 1 := by
        unfold excess
        split <;> omega
      rw [dropped_pushCapped, List.length_take, List.length_append, List.length_singleton]
      omega
  case others =>
    intro k' hk
    rw [items_pushCapped, if_neg hk]

/-- Three of four items stay if one is to go, and none if ten are. -/
example : ((Queues.mk [('k', [1, 2, 3])] [] : Queues Char Nat Nat).pushCapped 'k' 4 3 1).2 = (3, 1) ∧
    ((Queues.mk [('k', [1, 2, 3])] [] : Queues Char Nat Nat).pushCapped 'k' 4 0 10).2 = (0, 4) := by
  decide

end Queues
end DeviceRelay

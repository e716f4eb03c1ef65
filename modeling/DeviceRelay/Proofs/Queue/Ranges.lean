/-
# A list is cut to a range of places, also in words

To trim a list keeps exactly the items whose place is in the range, in their order, where a
place below zero counts from the end. A machine works the range out in words of 64 bits: it
adds the length to a place below zero, moves both ends into the list, turns them into sizes,
cuts the list behind the last place and drops what stands before the first one. Here each of
these steps fails if its result is no word, or if it asks for more items than there are. On a
list whose length is a word, as it is for every list in a memory, and for any two words, no step
fails, and the outcome is the range.

Key definitions: `Queues.InRange`, `Queues.inRange`, `Queues.signed?`, `Queues.size?`,
`Queues.cutWords?`, `Queues.betweenWords?`, `Queues.Trimmed`.
Key theorems: `Queues.between_eq_inRange`, `Queues.betweenWords?_eq`, `Queues.trimmed_of_words`.
-/
import DeviceRelay.Proofs.Queue.Steps
import Mathlib.Algebra.Ring.Int.Defs
import Mathlib.Algebra.Ring.Nat

namespace DeviceRelay
namespace Queues

variable {κ α γ : Type}

/-! ### What stands in a range -/

/-- A place of a list is in the range from `first` to `last`, both included, which count from
the end if they are below zero. -/
def InRange (first last : Int) (length i : Nat) : Prop :=
  (if first < 0 then first + length else first) ≤ i ∧
    i ≤ (if last < 0 then last + length else last)

instance (first last : Int) (length i : Nat) : Decidable (InRange first last length i) := by
  unfold InRange
  infer_instance

/-- The items that stand in a range, in their order. -/
def inRange (first last : Int) (items : List α) : List α :=
  (items.zipIdx.filter fun e => InRange first last items.length e.2).map (·.1)

/-- To cut a list behind a place and then to drop what stands before another one keeps what
stands between the two, where the first item has the place `k`. -/
theorem drop_take_eq_filter (n m : Nat) (items : List α) (k : Nat) :
    (items.take (m - k)).drop (n - k) =
      ((items.zipIdx k).filter fun e => n ≤ e.2 ∧ e.2 < m).map (·.1) := by
  induction items generalizing k with
  | nil => simp
  | cons a items ih =>
    have hrest := ih (k + 1)
    rw [List.zipIdx_cons, List.filter_cons]
    by_cases hm : k < m
    · have hcut : m - k = (m - (k + 1)) + 1 := by omega
      rw [hcut, List.take_succ_cons]
      by_cases hn : n ≤ k
      · have hfirst : n - k = 0 := by omega
        have hnext : n - (k + 1) = 0 := by omega
        rw [hnext, List.drop_zero] at hrest
        rw [hfirst, List.drop_zero, if_pos (by simp [hn, hm]), List.map_cons, hrest]
      · have hdrop : n - k = (n - (k + 1)) + 1 := by omega
        rw [hdrop, List.drop_succ_cons, if_neg (by simp [hn]), hrest]
    · -- the list ends before this item, and so before all that come later
      have hcut : m - k = 0 := by omega
      have hnext : m - (k + 1) = 0 := by omega
      rw [hnext, List.take_zero, List.drop_nil] at hrest
      rw [hcut, List.take_zero, List.drop_nil, if_neg (by simp [hm]), hrest]

/-- The ends of a range as numbers of items: how many stand before it, and how many up to its
last place. -/
theorem between_eq_drop_take (first last : Int) (items : List α) :
    between first last items =
      (items.take (min (resolve last items.length) (items.length - 1) + 1).toNat).drop
        (max (resolve first items.length) 0).toNat := by
  unfold between
  dsimp only
  split
  · next hcrossed =>
    symm
    apply List.drop_eq_nil_of_le
    rw [List.length_take]
    omega
  · next hordered =>
    congr 2
    omega

/-- **What is left is what stands in the range.** -/
theorem between_eq_inRange (first last : Int) (items : List α) :
    between first last items = inRange first last items := by
  have hcut := drop_take_eq_filter (max (resolve first items.length) 0).toNat
    (min (resolve last items.length) (items.length - 1) + 1).toNat items 0
  rw [Nat.sub_zero, Nat.sub_zero] at hcut
  rw [between_eq_drop_take, hcut]
  unfold inRange
  congr 1
  apply List.filter_congr
  intro e he
  have hplace : e.2 < items.length := (List.mem_zipIdx' he).1
  apply decide_eq_decide.mpr
  unfold InRange resolve
  omega

/-! ### The range in words -/

/-- A number as a word with a sign, if it is one. -/
def signed? (n : Int) : Option Int64 := if -2 ^ 63 ≤ n ∧ n < 2 ^ 63 then some (.ofInt n) else none

/-- A number as a word without a sign, which is how sizes are told, if it is one. -/
def size? (n : Int) : Option UInt64 := if 0 ≤ n ∧ n < 2 ^ 64 then some (.ofNat n.toNat) else none

/-- Adds the length to a place below zero. -/
def resolveWord? (index length : Int64) : Option Int64 :=
  if index < 0 then signed? (length.toInt + index.toInt) else some index

/-- Cuts a list behind its first items, of which there must be so many. -/
def keepFirst? (n : UInt64) (items : List α) : Option (List α) :=
  if n.toNat ≤ items.length then some (items.take n.toNat) else none

/-- Drops the first items of a list, of which there must be so many. -/
def dropFirst? (n : UInt64) (items : List α) : Option (List α) :=
  if n.toNat ≤ items.length then some (items.drop n.toNat) else none

/-- Cuts a list behind its place `last`, and drops what stands before its place `first`. -/
def cutWords? (first last : Int64) (items : List α) : Option (List α) := do
  let place ← size? last.toInt
  let kept ← keepFirst? (← size? (place.toNat + 1)) items
  dropFirst? (← size? first.toInt) kept

/-- The items of a range, worked out in words. It fails if a result is no word, or if there are
fewer items than are to be kept or dropped. -/
def betweenWords? (first last : Int64) (items : List α) : Option (List α) := do
  let length ← signed? items.length
  let first := max (← resolveWord? first length) 0
  let final ← signed? (length.toInt - 1)
  let last := min (← resolveWord? last length) final
  if last < first then some [] else cutWords? first last items

theorem signed?_of_fits {n : Int} (hlow : -2 ^ 63 ≤ n) (hhigh : n < 2 ^ 63) :
    ∃ w, signed? n = some w ∧ w.toInt = n :=
  ⟨.ofInt n, if_pos ⟨hlow, hhigh⟩, Int64.toInt_ofInt_of_le hlow hhigh⟩

theorem size?_of_fits {n : Int} (hlow : 0 ≤ n) (hhigh : n < 2 ^ 64) :
    ∃ w, size? n = some w ∧ (w.toNat : Int) = n := by
  refine ⟨.ofNat n.toNat, if_pos ⟨hlow, hhigh⟩, ?_⟩
  rw [UInt64.toNat_ofNat_of_lt' (by rw [UInt64.size]; omega)]
  exact Int.toNat_of_nonneg hlow

theorem toInt_max (a b : Int64) : (max a b).toInt = max a.toInt b.toInt := by
  show (if a ≤ b then b else a).toInt = _
  by_cases h : a ≤ b
  · rw [if_pos h, Int.max_eq_right (Int64.le_iff_toInt_le.mp h)]
  · have hlt : b.toInt ≤ a.toInt := by
      rw [Int64.le_iff_toInt_le] at h
      omega
    rw [if_neg h, Int.max_eq_left hlt]

theorem toInt_min (a b : Int64) : (min a b).toInt = min a.toInt b.toInt := by
  show (if a ≤ b then a else b).toInt = _
  by_cases h : a ≤ b
  · rw [if_pos h, Int.min_eq_left (Int64.le_iff_toInt_le.mp h)]
  · have hlt : b.toInt ≤ a.toInt := by
      rw [Int64.le_iff_toInt_le] at h
      omega
    rw [if_neg h, Int.min_eq_right hlt]

/-- To add a length to a place below zero stays within the words. -/
theorem resolveWord?_of_length (index : Int64) {length : Int64} (hlength : 0 ≤ length.toInt) :
    ∃ w, resolveWord? index length = some w ∧ w.toInt = resolve index.toInt length.toInt := by
  unfold resolveWord? resolve
  have hsign : index < 0 ↔ index.toInt < 0 := Int64.lt_iff_toInt_lt
  have hlow := Int64.le_toInt index
  have hhigh := Int64.toInt_lt length
  by_cases h : index < 0
  · rw [if_pos h, if_pos (hsign.mp h)]
    have hneg := hsign.mp h
    exact signed?_of_fits (by omega) (by omega)
  · rw [if_neg h, if_neg fun hneg => h (hsign.mpr hneg)]
    exact ⟨index, rfl, rfl⟩

theorem keepFirst?_of_le {n : UInt64} {items : List α} (h : n.toNat ≤ items.length) :
    keepFirst? n items = some (items.take n.toNat) := if_pos h

theorem dropFirst?_of_le {n : UInt64} {items : List α} (h : n.toNat ≤ items.length) :
    dropFirst? n items = some (items.drop n.toNat) := if_pos h

/-- Two places of a list in their order tell how many items there are to be kept and dropped. -/
theorem cutWords?_of_ordered {first last : Int64} {items : List α} (hfirst : 0 ≤ first.toInt)
    (hordered : first.toInt ≤ last.toInt) (hlast : last.toInt < items.length) :
    cutWords? first last items =
      some ((items.take (last.toInt.toNat + 1)).drop first.toInt.toNat) := by
  have hword := Int64.toInt_lt last
  obtain ⟨place, hplace, hplace'⟩ := size?_of_fits (n := last.toInt) (by omega) (by omega)
  obtain ⟨count, hcount, hcount'⟩ := size?_of_fits (n := place.toNat + 1) (by omega) (by omega)
  obtain ⟨before, hbefore, hbefore'⟩ := size?_of_fits (n := first.toInt) (by omega) (by omega)
  have hkeep : count.toNat = last.toInt.toNat + 1 := by omega
  have hdrop : before.toNat = first.toInt.toNat := by omega
  have hkept : keepFirst? count items = some (items.take (last.toInt.toNat + 1)) := by
    rw [← hkeep]
    exact keepFirst?_of_le (by omega)
  have hdropped : dropFirst? before (items.take (last.toInt.toNat + 1)) =
      some ((items.take (last.toInt.toNat + 1)).drop first.toInt.toNat) := by
    rw [← hdrop]
    apply dropFirst?_of_le
    rw [List.length_take]
    omega
  unfold cutWords?
  simp only [Option.bind_eq_bind]
  rw [hplace, Option.bind_some, hcount, Option.bind_some, hkept, Option.bind_some, hbefore,
    Option.bind_some, hdropped]

/-- **No step of the range in words fails**, on a list shorter than the greatest word, and the
outcome is the range. -/
theorem betweenWords?_eq (first last : Int64) {items : List α} (hlength : items.length < 2 ^ 63) :
    betweenWords? first last items = some (between first.toInt last.toInt items) := by
  obtain ⟨length, hword, hsame⟩ := signed?_of_fits (n := items.length) (by omega) (by omega)
  have hnonneg : 0 ≤ length.toInt := by omega
  obtain ⟨low, hlow, hlow'⟩ := resolveWord?_of_length first hnonneg
  obtain ⟨final, hfinal, hfinal'⟩ :=
    signed?_of_fits (n := length.toInt - 1) (by omega) (by omega)
  obtain ⟨high, hhigh, hhigh'⟩ := resolveWord?_of_length last hnonneg
  have hstart : (max low 0).toInt = max (resolve first.toInt items.length) 0 := by
    rw [toInt_max, hlow', hsame, Int64.toInt_zero]
  have hend : (min high final).toInt = min (resolve last.toInt items.length) (items.length - 1) := by
    rw [toInt_min, hhigh', hfinal', hsame]
  have hwords : betweenWords? first last items =
      if min high final < max low 0 then some [] else cutWords? (max low 0) (min high final) items := by
    unfold betweenWords?
    simp only [Option.bind_eq_bind]
    rw [hword, Option.bind_some, hlow, Option.bind_some, hfinal, Option.bind_some, hhigh,
      Option.bind_some]
  rw [hwords]
  unfold between
  dsimp only
  rw [← hstart, ← hend]
  by_cases hcrossed : min high final < max low 0
  · rw [if_pos hcrossed, if_pos (Int64.lt_iff_toInt_lt.mp hcrossed)]
  · -- both ends are places of the list, so there are as many items as are kept and dropped
    have hordered : ¬ (min high final).toInt < (max low 0).toInt :=
      fun h => hcrossed (Int64.lt_iff_toInt_lt.mpr h)
    rw [if_neg hcrossed, if_neg hordered]
    exact cutWords?_of_ordered (by omega) (by omega) (by omega)

theorem betweenWords?_of_long (first last : Int64) {items : List α} (hlength : 2 ^ 63 ≤ items.length) :
    betweenWords? first last items = none := by
  have hword : signed? items.length = none := if_neg (by omega)
  unfold betweenWords?
  rw [hword]
  rfl

/-! ### Queues -/

variable [DecidableEq κ]

/-- What trimming does, where the ends of the range are words. -/
structure Trimmed (q : Queues κ α γ) (k : κ) (first last : Int64) : Prop where
  /-- What stands in the range is kept, in order. -/
  kept : (q.trim k first.toInt last.toInt).items k = inRange first.toInt last.toInt (q.items k)
  /-- It is worked out in words, and no step of that fails, just if the length is a word, as it is
  for every list in a memory. -/
  words : (q.items k).length < 2 ^ 63 ↔ (betweenWords? first last (q.items k)).map (q.setItems k) =
    some (q.trim k first.toInt last.toInt)
  others : ∀ k', k' ≠ k → (q.trim k first.toInt last.toInt).items k' = q.items k'

/-- **To trim keeps exactly the items of the range**, for any two words, and no step of it
overflows or asks for items that are not there. -/
theorem trimmed_of_words (q : Queues κ α γ) (k : κ) (first last : Int64) :
    Trimmed q k first last := by
  constructor
  case kept => rw [items_trim, if_pos rfl, between_eq_inRange]
  case words =>
    constructor
    · intro hlength
      rw [betweenWords?_eq first last hlength]
      rfl
    · intro hwords
      by_contra hlong
      rw [betweenWords?_of_long first last (by omega)] at hwords
      cases hwords
  case others =>
    intro k' hk
    rw [items_trim, if_neg hk]

/-- From the least word to the last place but one all items but the last one are kept, and from the
greatest word to the least one none is. -/
example : betweenWords? Int64.minValue (-2) ['a', 'b', 'c'] = some ['a', 'b'] ∧
    betweenWords? Int64.maxValue Int64.minValue ['a', 'b', 'c'] = some [] := by decide

end Queues
end DeviceRelay

/-
# What comes out of a line was put in by one earlier step

Steps put elements into a line and take elements out of it in order. If each step puts in at
most one, then an element that comes out was put in by the step at whose time as many had
been put in as had come out before it. Two elements that come out were put in by two steps.

Key definitions: `Fifo.rank`.
Key theorems: `Fifo.exists_put`, `Fifo.eq_of_rank`.
-/
import Mathlib.Data.List.Basic

namespace DeviceRelay
namespace Fifo

variable {α β : Type} {put taken : α → List β} {steps : List α}

/-- How many elements come before those of the step `i`. -/
def rank (f : α → List β) (steps : List α) (i : Nat) : Nat := ((steps.take i).flatMap f).length

theorem rank_cons (f : α → List β) (x : α) (rest : List α) (i : Nat) :
    rank f (x :: rest) (i + 1) = (f x).length + rank f rest i := by
  unfold rank
  rw [List.take_succ_cons, List.flatMap_cons, List.length_append]

theorem rank_take {f : α → List β} {i j : Nat} (hij : i ≤ j) :
    rank f (steps.take j) i = rank f steps i := by
  unfold rank
  rw [List.take_take, Nat.min_eq_left hij]

theorem rank_concat {f : α → List β} {i : Nat} (hi : i ≤ steps.length) (x : α) :
    rank f (steps ++ [x]) i = rank f steps i := by
  unfold rank
  rw [List.take_append_of_le_length hi]

theorem length_concat {f : α → List β} (steps : List α) (x : α) :
    ((steps ++ [x]).flatMap f).length = (steps.flatMap f).length + (f x).length := by
  rw [List.flatMap_append, List.flatMap_singleton, List.length_append]

theorem exists_step (hone : ∀ x ∈ steps, (put x).length ≤ 1) {k : Nat} {b : β}
    (h : (steps.flatMap put)[k]? = some b) :
    ∃ i y, steps[i]? = some y ∧ put y = [b] ∧ rank put steps i = k := by
  induction steps generalizing k with
  | nil => simp at h
  | cons x rest ih =>
    obtain ⟨hx, hrest⟩ := List.forall_mem_cons.mp hone
    rw [List.flatMap_cons] at h
    cases hput : put x with
    | nil =>
      rw [hput, List.nil_append] at h
      obtain ⟨i, y, hi, hy, hrank⟩ := ih hrest h
      refine ⟨i + 1, y, hi, hy, ?_⟩
      rw [rank_cons, hput, hrank, List.length_nil, Nat.zero_add]
    | cons c more =>
      obtain rfl : more = [] := by simpa [hput] using hx
      rw [hput] at h
      cases k with
      | zero =>
        obtain rfl : c = b := by simpa using h
        exact ⟨0, x, rfl, hput, rfl⟩
      | succ k =>
        obtain ⟨i, y, hi, hy, hrank⟩ := ih hrest (by simpa using h)
        refine ⟨i + 1, y, hi, hy, ?_⟩
        rw [rank_cons, hput, hrank, List.length_singleton, Nat.add_comm]

theorem take_succ_of_getElem? {j : Nat} {x : α} (h : steps[j]? = some x) :
    steps.take (j + 1) = steps.take j ++ [x] := by
  rw [List.take_add_one, h]
  rfl

/-- **What comes out in a step was put in by a step that is no later**, if so far only what
was put in came out, in order. -/
theorem exists_put (hone : ∀ x ∈ steps, (put x).length ≤ 1) {j : Nat} {x : α} {b : β}
    (hj : steps[j]? = some x) (hx : taken x = [b])
    (hfirst : (steps.take (j + 1)).flatMap taken <+: (steps.take (j + 1)).flatMap put) :
    ∃ i y, i ≤ j ∧ steps[i]? = some y ∧ put y = [b] ∧ rank put steps i = rank taken steps j := by
  have htaken : (steps.take (j + 1)).flatMap taken = (steps.take j).flatMap taken ++ [b] := by
    rw [take_succ_of_getElem? hj, List.flatMap_append, List.flatMap_singleton, hx]
  have hlast : ((steps.take (j + 1)).flatMap put)[rank taken steps j]? = some b := by
    obtain ⟨more, hmore⟩ := hfirst
    rw [← hmore, htaken, List.append_assoc]
    simp [rank]
  have hone' : ∀ x ∈ steps.take (j + 1), (put x).length ≤ 1 :=
    fun x hx => hone x (List.mem_of_mem_take hx)
  obtain ⟨i, y, hi, hy, hrank⟩ := exists_step hone' hlast
  have hij : i < j + 1 := by
    have hlength := (List.getElem?_eq_some_iff.mp hi).1
    rw [List.length_take] at hlength
    omega
  refine ⟨i, y, Nat.le_of_lt_succ hij, ?_, hy, ?_⟩
  · rwa [List.getElem?_take_of_lt hij] at hi
  · rwa [rank, List.take_take, Nat.min_eq_left (Nat.le_of_lt hij)] at hrank

theorem rank_lt {j j' : Nat} (hlt : j < j') {x : α} (hj : steps[j]? = some x) (hx : taken x ≠ []) :
    rank taken steps j < rank taken steps j' := by
  have hsplit : steps.take j' = steps.take j ++ ([x] ++ (steps.take j').drop (j + 1)) := by
    rw [← List.append_assoc, ← take_succ_of_getElem? hj]
    calc steps.take j' = (steps.take j').take (j + 1) ++ (steps.take j').drop (j + 1) :=
          (List.take_append_drop ..).symm
      _ = steps.take (j + 1) ++ (steps.take j').drop (j + 1) := by
          rw [List.take_take, Nat.min_eq_left hlt]
  have hpos : 0 < (taken x).length := List.length_pos_iff.mpr hx
  unfold rank
  rw [hsplit, List.flatMap_append, List.flatMap_append, List.flatMap_singleton]
  simp only [List.length_append]
  omega

/-- **Two steps that take something out have two ranks.** -/
theorem eq_of_rank {j j' : Nat} {x x' : α} (hj : steps[j]? = some x) (hx : taken x ≠ [])
    (hj' : steps[j']? = some x') (hx' : taken x' ≠ [])
    (h : rank taken steps j = rank taken steps j') : j = j' := by
  rcases Nat.lt_trichotomy j j' with hlt | heq | hgt
  · exact absurd h (Nat.ne_of_lt (rank_lt hlt hj hx))
  · exact heq
  · exact absurd h.symm (Nat.ne_of_lt (rank_lt hgt hj' hx'))

end Fifo
end DeviceRelay

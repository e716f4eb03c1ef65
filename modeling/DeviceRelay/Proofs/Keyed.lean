/-
# Lists of entries by key

The state of the relay is kept in lists of keys with values, of which the first entry for
a key counts. These are the facts on looking up after an entry was put or changed, and
on the keys that are left after one was removed, with what a list is made up of whose entries
each have a key of their own.

Key theorems: `Keyed.lookup_put`, `Keyed.put_put`, `Keyed.lookup_change`, `Keyed.mem_keys_remove`,
`Keyed.put_of_not_mem`, `Keyed.lookup_of_mem`, `Keyed.lookup_remove`, `Keyed.nodup_put`,
`Keyed.find?_map`, `Keyed.find?_of_mem`, `Keyed.countP_replace`, `Keyed.perm_remove`,
`Keyed.perm_change`.
-/
import DeviceRelay.Registry
import Mathlib.Data.List.Nodup

namespace DeviceRelay
namespace Keyed

variable {κ β : Type} [DecidableEq κ]

theorem lookup_cons_eq (k : κ) (e : κ × β) (l : List (κ × β)) :
    (e :: l).lookup k = if k = e.1 then some e.2 else l.lookup k := by
  rw [List.lookup_cons]
  by_cases h : k = e.1
  · rw [if_pos h, beq_iff_eq.mpr h]
  · rw [if_neg h, beq_eq_false_iff_ne.mpr h]

theorem mem_keys_iff (l : List (κ × β)) (k : κ) :
    k ∈ l.map (·.1) ↔ (l.lookup k).isSome = true := by
  simp [List.lookup_isSome_iff]

theorem lookup_eq_none_iff (l : List (κ × β)) (k : κ) :
    l.lookup k = none ↔ k ∉ l.map (·.1) := by
  rw [mem_keys_iff]; cases l.lookup k <;> simp

theorem mem_of_lookup {l : List (κ × β)} {k : κ} {b : β} (h : l.lookup k = some b) :
    (k, b) ∈ l := by
  obtain ⟨l₁, l₂, rfl, -⟩ := List.lookup_eq_some_iff.mp h
  simp

/-- If keys do not repeat, every entry counts. -/
theorem lookup_of_mem {l : List (κ × β)} (hl : (l.map (·.1)).Nodup) {k : κ} {b : β}
    (h : (k, b) ∈ l) : l.lookup k = some b := by
  induction l with
  | nil => simp at h
  | cons e l ih =>
    rw [List.map_cons, List.nodup_cons] at hl
    rw [lookup_cons_eq]
    rcases List.mem_cons.mp h with rfl | h
    · simp
    · have hk : k ∈ l.map (·.1) := List.mem_map_of_mem h
      rw [if_neg fun he : k = e.1 => hl.1 (he ▸ hk)]
      exact ih hl.2 h

theorem keys_remove (l : List (κ × β)) (k : κ) :
    (l.filter (·.1 ≠ k)).map (·.1) = (l.map (·.1)).filter (· ≠ k) := by
  rw [List.filter_map]; rfl

theorem mem_keys_remove (l : List (κ × β)) (k k' : κ) :
    k' ∈ (l.filter (·.1 ≠ k)).map (·.1) ↔ k' ∈ l.map (·.1) ∧ k' ≠ k := by
  rw [keys_remove, List.mem_filter]; simp

theorem lookup_remove (l : List (κ × β)) (k k' : κ) :
    (l.filter (·.1 ≠ k)).lookup k' = if k' = k then none else l.lookup k' := by
  induction l with
  | nil => simp
  | cons e l ih =>
    by_cases he : e.1 = k
    · rw [List.filter_cons_of_neg (by simp [he]), ih, lookup_cons_eq, he]
      by_cases hk : k' = k <;> simp [hk]
    · rw [List.filter_cons_of_pos (by simp [he]), lookup_cons_eq, lookup_cons_eq, ih]
      by_cases hk : k' = e.1
      · simp [hk, he]
      · simp [hk]

theorem lookup_change (l : List (κ × β)) (f : κ → β → β) (k : κ) :
    (l.map fun e => (e.1, f e.1 e.2)).lookup k = (l.lookup k).map (f k) := by
  induction l with
  | nil => simp
  | cons e l ih =>
    rw [List.map_cons, lookup_cons_eq, lookup_cons_eq, ih]
    by_cases h : k = e.1 <;> simp [h]

theorem lookup_put (l : List (κ × β)) (k k' : κ) (b : β) :
    (Registry.put k b l).lookup k' = if k' = k then some b else l.lookup k' := by
  induction l with
  | nil => exact lookup_cons_eq k' (k, b) []
  | cons e l ih =>
    unfold Registry.put
    by_cases h : k = e.1
    · rw [if_pos h, lookup_cons_eq, lookup_cons_eq, ← h]
      by_cases hk : k' = k <;> simp [hk]
    · rw [if_neg h, lookup_cons_eq, lookup_cons_eq, ih]
      by_cases he : k' = e.1
      · have hk : k' ≠ k := fun hk => h (hk.symm.trans he)
        simp [← he, hk]
      · simp [he]

/-- Of two entries for a key the later one takes the place of the earlier one. -/
theorem put_put (k : κ) (b b' : β) (l : List (κ × β)) :
    Registry.put k b' (Registry.put k b l) = Registry.put k b' l := by
  induction l with
  | nil => simp [Registry.put]
  | cons e l ih =>
    by_cases h : k = e.1
    · simp [Registry.put, h]
    · simp [Registry.put, h, ih]

theorem mem_put {l : List (κ × β)} {k : κ} {b : β} {e : κ × β} (h : e ∈ Registry.put k b l) :
    e ∈ l ∨ e = (k, b) := by
  induction l with
  | nil => exact Or.inr (List.mem_singleton.mp h)
  | cons x l ih =>
    unfold Registry.put at h
    split at h
    · rcases List.mem_cons.mp h with rfl | h
      · exact Or.inr rfl
      · exact Or.inl (List.mem_cons_of_mem x h)
    · rcases List.mem_cons.mp h with rfl | h
      · exact Or.inl List.mem_cons_self
      · exact (ih h).imp_left (List.mem_cons_of_mem x)

/-- To put an entry adds its key at the end, if it is new. -/
theorem keys_put (k : κ) (b : β) (l : List (κ × β)) :
    (Registry.put k b l).map (·.1) =
      if k ∈ l.map (·.1) then l.map (·.1) else l.map (·.1) ++ [k] := by
  induction l with
  | nil => rfl
  | cons e l ih =>
    unfold Registry.put
    by_cases h : k = e.1
    · simp [h]
    · rw [if_neg h, List.map_cons, ih]
      by_cases hk : k ∈ l.map (·.1) <;> simp [h, hk]

theorem nodup_put {k : κ} (b : β) {l : List (κ × β)} (hl : (l.map (·.1)).Nodup) :
    ((Registry.put k b l).map (·.1)).Nodup := by
  rw [keys_put]
  split
  case isTrue => exact hl
  case isFalse hk => rw [← List.concat_eq_append]; exact hl.concat hk

/-- An entry under a new key comes last. -/
theorem put_of_not_mem {l : List (κ × β)} {k : κ} (b : β) (h : k ∉ l.map (·.1)) :
    Registry.put k b l = l ++ [(k, b)] := by
  induction l with
  | nil => rfl
  | cons e l ih =>
    simp only [List.map_cons, List.mem_cons, not_or] at h
    unfold Registry.put
    rw [if_neg h.1, ih h.2, List.cons_append]

/-- To change entries without their keys changes what is found, and not where. -/
theorem find?_map {α : Type} (l : List α) (key : α → κ) {f : α → α} (hf : ∀ a, key (f a) = key a)
    (k : κ) :
    (l.map f).find? (fun a => key a = k) = (l.find? (fun a => key a = k)).map f := by
  rw [List.find?_map]
  congr 2
  funext a
  simp only [Function.comp_apply, hf]

/-- What is known by a key of its own is found by it. -/
theorem find?_of_mem {α : Type} {l : List α} {key : α → κ} (hl : (l.map key).Nodup) {a : α}
    (ha : a ∈ l) : l.find? (fun b => key b = key a) = some a := by
  cases hfind : l.find? (fun b => key b = key a) with
  | none => simpa using List.find?_eq_none.mp hfind a ha
  | some b =>
    have hb : key b = key a := by simpa using List.find?_some hfind
    rw [List.inj_on_of_nodup_map hl (List.mem_of_find?_eq_some hfind) ha hb]

/-- To replace what is known by a key of its own changes a count by what it counts for. -/
theorem countP_replace {α : Type} (p : α → Bool) (key : α → κ) {l : List α}
    (hl : (l.map key).Nodup) {x y : α} (hx : l.find? (fun b => key b = key x) = some x)
    (hy : key y = key x) :
    (l.map fun b => if key b = key y then y else b).countP p + (p x).toNat =
      l.countP p + (p y).toNat := by
  induction l with
  | nil => simp at hx
  | cons z l ih =>
    rw [List.map_cons, List.nodup_cons] at hl
    rw [List.map_cons, List.countP_cons, List.countP_cons]
    by_cases hz : key z = key x
    · obtain rfl : z = x := by simpa [List.find?_cons, hz] using hx
      have hrest : (l.map fun b => if key b = key y then y else b) = l := by
        refine (List.map_congr_left fun b hb => ?_).trans (List.map_id l)
        exact if_neg fun h : key b = key y => hl.1 (h.trans hy ▸ List.mem_map_of_mem hb)
      rw [if_pos hy.symm, hrest]
      cases p z <;> cases p y <;> simp
    · have hx' : l.find? (fun b => key b = key x) = some x := by
        simpa [List.find?_cons, hz] using hx
      have hz' : ¬key z = key y := fun h => hz (h.trans hy)
      have hrest := ih hl.2 hx'
      rw [if_neg hz']
      omega

/-- What is known by a key of its own is all that the key finds. -/
theorem filter_key {α : Type} {key : α → κ} {l : List α} (hl : (l.map key).Nodup) {k : κ} {x : α}
    (hx : l.find? (fun b => key b = k) = some x) : l.filter (fun b => key b = k) = [x] := by
  induction l with
  | nil => cases hx
  | cons z l ih =>
    rw [List.map_cons, List.nodup_cons] at hl
    by_cases hz : key z = k
    · obtain rfl : z = x := by simpa [List.find?_cons, hz] using hx
      have hrest : l.filter (fun b => key b = k) = [] := by
        refine List.filter_eq_nil_iff.mpr fun b hb hk => hl.1 ?_
        rw [hz, ← of_decide_eq_true hk]
        exact List.mem_map_of_mem hb
      rw [List.filter_cons, if_pos (decide_eq_true hz), hrest]
    · rw [List.filter_cons, if_neg (by simpa using hz)]
      exact ih hl.2 (by simpa [List.find?_cons, hz] using hx)

/-- What a key finds and what is left without it make up the list. -/
theorem perm_remove {α : Type} {key : α → κ} {l : List α} (hl : (l.map key).Nodup) {k : κ} {x : α}
    (hx : l.find? (fun b => key b = k) = some x) :
    l.Perm (x :: l.filter (fun b => key b ≠ k)) := by
  have hsplit := List.filter_append_perm (fun b => decide (key b = k)) l
  rw [filter_key hl hx] at hsplit
  refine hsplit.symm.trans ?_
  simp

/-- To change what a key finds leaves the rest. -/
theorem perm_change {α : Type} {key : α → κ} {l : List α} (hl : (l.map key).Nodup) {k : κ} {x : α}
    (hx : l.find? (fun b => key b = k) = some x) (f : α → α) :
    (l.map fun b => if key b = k then f b else b).Perm (f x :: l.filter (fun b => key b ≠ k)) := by
  have hfound : key x = k := by simpa using List.find?_some hx
  have hrest : ((l.filter fun b => key b ≠ k).map fun b => if key b = k then f b else b) =
      l.filter (fun b => key b ≠ k) := by
    refine (List.map_congr_left fun b hb => ?_).trans (List.map_id _)
    exact if_neg (of_decide_eq_true (List.mem_filter.mp hb).2)
  refine ((perm_remove hl hx).map _).trans ?_
  rw [List.map_cons, if_pos hfound, hrest]

end Keyed
end DeviceRelay

/-
# Only pushes, trims and pops change a list

A push adds at the end and cuts from the front, a pop takes the first item, and both
leave the lists of the other keys alone. A pop that waits, joins the line again, gives
up or is dropped changes no list. Here is all that beginning a pop and running one can
do: both are attempts to take the first item.

Key definitions: `Queues.Attempt`.
Key theorems: `Queues.items_pushCapped`, `Queues.take?_eq_some_iff`,
`Queues.beginPop_cases`, `Queues.resume?_cases`, `Queues.attempt_of_beginPop`,
`Queues.attempt_of_resume?`.
-/
import DeviceRelay.Proofs.Keyed
import DeviceRelay.Queue

namespace DeviceRelay
namespace Queues

section
variable {κ α γ : Type} [DecidableEq κ]

theorem items_setItems (q : Queues κ α γ) (k k' : κ) (l : List α) :
    (q.setItems k l).items k' = if k' = k then l else q.items k' := by
  unfold items setItems
  rw [Keyed.lookup_put]
  by_cases h : k' = k <;> simp [h]

@[simp] theorem items_setItems_self (q : Queues κ α γ) (k : κ) (l : List α) :
    (q.setItems k l).items k = l := by
  rw [items_setItems, if_pos rfl]

theorem items_setItems_of_ne (q : Queues κ α γ) {k k' : κ} (h : k' ≠ k) (l : List α) :
    (q.setItems k l).items k' = q.items k' := by
  rw [items_setItems, if_neg h]

@[simp] theorem items_touch (q : Queues κ α γ) (k k' : κ) :
    (q.setItems k (q.items k)).items k' = q.items k' := by
  rw [items_setItems]
  by_cases h : k' = k <;> simp [h]

@[simp] theorem items_wake (q : Queues κ α γ) (k k' : κ) : (q.wake k).items k' = q.items k' := rfl

theorem exists_of_mem_wake {q : Queues κ α γ} {k : κ} {p : Pop κ γ} (h : p ∈ (q.wake k).pops) :
    ∃ p' ∈ q.pops, p'.call = p.call ∧ p'.key = p.key := by
  obtain ⟨p', hp', rfl⟩ := List.mem_map.mp h
  refine ⟨p', hp', ?_⟩
  split <;> exact ⟨rfl, rfl⟩

/-! ### Pushing -/

theorem items_push (q : Queues κ α γ) (k k' : κ) (a : α) :
    (q.push k a).1.items k' = if k' = k then q.items k ++ [a] else q.items k' :=
  items_setItems q k k' _

theorem items_pushCapped (q : Queues κ α γ) (k k' : κ) (a : α) (max drop : Nat) :
    (q.pushCapped k a max drop).1.items k' =
      if k' = k then (q.items k ++ [a]).drop (excess max drop ((q.items k).length + 1))
      else q.items k' := by
  unfold pushCapped
  rw [items_wake, items_setItems, List.length_append, List.length_singleton]

theorem dropped_pushCapped (q : Queues κ α γ) (k : κ) (a : α) (max drop : Nat) :
    (q.pushCapped k a max drop).2.2 = excess max drop ((q.items k).length + 1) := by
  show excess max drop (q.items k ++ [a]).length = _
  rw [List.length_append, List.length_singleton]

theorem length_pushCapped (q : Queues κ α γ) (k : κ) (a : α) (max drop : Nat) :
    (q.pushCapped k a max drop).2.1 = ((q.pushCapped k a max drop).1.items k).length := by
  show _ = ((q.setItems k _).items k).length
  rw [items_setItems_self]
  rfl

/-! ### Popping -/

theorem take?_eq_none_iff (q : Queues κ α γ) (k : κ) : q.take? k = none ↔ q.items k = [] := by
  unfold take?
  cases q.items k <;> simp

theorem take?_eq_some_iff (q q' : Queues κ α γ) (k : κ) (a : α) :
    q.take? k = some (q', a) ↔ ∃ rest, q.items k = a :: rest ∧ q' = q.setItems k rest := by
  unfold take?
  cases q.items k with
  | nil => simp
  | cons b rest =>
    constructor
    · intro h
      obtain ⟨rfl, rfl⟩ := Prod.mk.inj (Option.some.inj h)
      exact ⟨rest, rfl, rfl⟩
    · rintro ⟨_, h, rfl⟩
      obtain ⟨rfl, rfl⟩ := List.cons.inj h
      rfl

theorem items_of_take? {q q' : Queues κ α γ} {k : κ} {a : α} (h : q.take? k = some (q', a)) :
    q.items k = a :: q'.items k ∧ (∀ k', k' ≠ k → q'.items k' = q.items k') ∧ q'.pops = q.pops := by
  obtain ⟨rest, hrest, rfl⟩ := (take?_eq_some_iff q q' k a).mp h
  refine ⟨?_, fun k' hk => items_setItems_of_ne q hk rest, rfl⟩
  rw [items_setItems_self, hrest]

/-- **All that beginning a pop can do**: it ends at once, as the clock cannot name its
end or as there is an item, or it joins the line. -/
theorem beginPop_cases {q q' : Queues κ α γ} {now timeout : Nat} {call : γ} {k : κ}
    {popped? : Option (Popped α)} (h : q.beginPop now call k timeout = (q', popped?)) :
    (popped? = some .beyondClock ∧ q'.pops = q.pops ∧ ∀ k', q'.items k' = q.items k') ∨
    (∃ a, popped? = some (.item a) ∧ q'.pops = q.pops ∧ q.items k = a :: q'.items k ∧
      ∀ k', k' ≠ k → q'.items k' = q.items k') ∨
    (∃ due, popped? = none ∧ deadline? now timeout = some due ∧ q.items k = [] ∧
      q'.pops = q.pops ++ [⟨call, k, due, false⟩] ∧ ∀ k', q'.items k' = q.items k') := by
  unfold beginPop at h
  cases hd : deadline? now timeout with
  | none =>
    simp only [hd] at h
    obtain ⟨rfl, rfl⟩ := Prod.mk.inj h
    exact Or.inl ⟨rfl, rfl, items_touch q k⟩
  | some due =>
    simp only [hd] at h
    cases ht : (q.setItems k (q.items k)).take? k with
    | none =>
      simp only [ht] at h
      obtain ⟨rfl, rfl⟩ := Prod.mk.inj h
      have hk := (take?_eq_none_iff _ k).mp ht
      rw [items_touch] at hk
      exact Or.inr (Or.inr ⟨due, rfl, rfl, hk, rfl, items_touch q k⟩)
    | some taken =>
      obtain ⟨q₁, a⟩ := taken
      simp only [ht] at h
      obtain ⟨rfl, rfl⟩ := Prod.mk.inj h
      obtain ⟨hk, hother, hpops⟩ := items_of_take? ht
      rw [items_touch] at hk
      refine Or.inr (Or.inl ⟨a, rfl, hpops, hk, fun k' hne => ?_⟩)
      rw [hother k' hne, items_touch]

/-- An attempt of a call to pop the oldest item of a key. Of its pops none is left after
it, but for the one with which it waits. -/
inductive Attempt (q q' : Queues κ α γ) (call : γ) (k : κ) : Option (Popped α) → Prop where
  | took (a : α) (front : q.items k = a :: q'.items k)
      (others : ∀ k', k' ≠ k → q'.items k' = q.items k')
      (left : ∀ p ∈ q'.pops, p ∈ q.pops ∧ p.call ≠ call) : Attempt q q' call k (some (.item a))
  | gaveUp (popped : Popped α) (why : popped = .nothing ∨ popped = .beyondClock)
      (same : ∀ k', q'.items k' = q.items k')
      (left : ∀ p ∈ q'.pops, p ∈ q.pops ∧ p.call ≠ call) : Attempt q q' call k (some popped)
  | joined (p : Pop κ γ) (hcall : p.call = call) (hkey : p.key = k) (empty : q.items k = [])
      (same : ∀ k', q'.items k' = q.items k')
      (left : ∀ p' ∈ q'.pops, p' = p ∨ p' ∈ q.pops ∧ p'.call ≠ call) : Attempt q q' call k none

/-- To begin a pop is an attempt, if the call has none in the line. -/
theorem attempt_of_beginPop {q q' : Queues κ α γ} {now timeout : Nat} {call : γ} {k : κ}
    {popped? : Option (Popped α)} (h : q.beginPop now call k timeout = (q', popped?))
    (hnone : ∀ p ∈ q.pops, p.call ≠ call) : Attempt q q' call k popped? := by
  rcases beginPop_cases h with
    ⟨rfl, hpops, hsame⟩ | ⟨a, rfl, hpops, hfront, hothers⟩ | ⟨due, rfl, -, hk, hpops, hsame⟩
  · refine .gaveUp .beyondClock (Or.inr rfl) hsame fun p hp => ?_
    rw [hpops] at hp
    exact ⟨hp, hnone p hp⟩
  · refine .took a hfront hothers fun p hp => ?_
    rw [hpops] at hp
    exact ⟨hp, hnone p hp⟩
  · refine .joined ⟨call, k, due, false⟩ rfl rfl hk hsame fun p hp => ?_
    rw [hpops, List.mem_append, List.mem_singleton] at hp
    exact hp.symm.imp_right fun hp => ⟨hp, hnone p hp⟩

end

section
variable {κ α γ : Type} [DecidableEq κ] [DecidableEq γ]

omit [DecidableEq κ] in
theorem mem_abandon {q : Queues κ α γ} {call : γ} {p : Pop κ γ} :
    p ∈ (q.abandon call).pops ↔ p ∈ q.pops ∧ p.call ≠ call := by
  simp [abandon]

/-- **All that running a pop can do**: a woken pop takes an item or joins the line again,
and one that is due gives up. -/
theorem resume?_cases {q q' : Queues κ α γ} {now : Nat} {call : γ} {popped? : Option (Popped α)}
    (h : q.resume? now call = some (q', popped?)) :
    ∃ p, q.pops.find? (·.call = call) = some p ∧
      ((∃ a, popped? = some (.item a) ∧ p.woken = true ∧ q'.pops = (q.abandon call).pops ∧
          q.items p.key = a :: q'.items p.key ∧ ∀ k, k ≠ p.key → q'.items k = q.items k) ∨
        (popped? = none ∧ p.woken = true ∧ q.items p.key = [] ∧
          q'.pops = (q.abandon call).pops ++ [{ p with woken := false }] ∧
          ∀ k, q'.items k = q.items k) ∨
        (popped? = some .nothing ∧ p.woken = false ∧ p.due ≤ now ∧ q' = q.abandon call)) := by
  obtain ⟨p, hp, h⟩ := Option.bind_eq_some_iff.mp h
  refine ⟨p, hp, ?_⟩
  by_cases hw : p.woken = true
  · simp only [hw, ↓reduceIte] at h
    cases ht : q.take? p.key with
    | none =>
      simp only [ht] at h
      obtain ⟨rfl, rfl⟩ := Prod.mk.inj (Option.some.inj h)
      have hk := (take?_eq_none_iff q p.key).mp ht
      exact Or.inr (Or.inl ⟨rfl, hw, hk, rfl, fun _ => rfl⟩)
    | some taken =>
      obtain ⟨q₁, a⟩ := taken
      simp only [ht] at h
      obtain ⟨rfl, rfl⟩ := Prod.mk.inj (Option.some.inj h)
      obtain ⟨hk, hother, hpops⟩ := items_of_take? ht
      refine Or.inl ⟨a, rfl, hw, ?_, hk, hother⟩
      simp only [abandon, hpops]
  · simp only [hw, Bool.false_eq_true, ↓reduceIte] at h
    by_cases hdue : p.due ≤ now
    · rw [if_pos hdue] at h
      obtain ⟨rfl, rfl⟩ := Prod.mk.inj (Option.some.inj h)
      exact Or.inr (Or.inr ⟨rfl, by simpa using hw, hdue, rfl⟩)
    · rw [if_neg hdue] at h
      cases h

/-- To run a pop is an attempt on its key. -/
theorem attempt_of_resume? {q q' : Queues κ α γ} {now : Nat} {call : γ} {popped? : Option (Popped α)}
    (h : q.resume? now call = some (q', popped?)) :
    ∃ p ∈ q.pops, p.call = call ∧ Attempt q q' call p.key popped? := by
  obtain ⟨p, hp, hcases⟩ := resume?_cases h
  have hcall : p.call = call := by simpa using List.find?_some hp
  refine ⟨p, List.mem_of_find?_eq_some hp, hcall, ?_⟩
  rcases hcases with
    ⟨a, rfl, -, hpops, hfront, hothers⟩ | ⟨rfl, -, hk, hpops, hsame⟩ | ⟨rfl, -, -, rfl⟩
  · exact .took a hfront hothers fun p' hp' => mem_abandon.mp (hpops ▸ hp')
  · refine .joined { p with woken := false } hcall rfl hk hsame fun p' hp' => ?_
    rw [hpops, List.mem_append, List.mem_singleton] at hp'
    exact hp'.symm.imp_right mem_abandon.mp
  · exact .gaveUp .nothing (Or.inl rfl) (fun _ => rfl) fun p' hp' => mem_abandon.mp hp'

end

end Queues
end DeviceRelay

/-
# No line is empty, and no waiter stands in two lines

A registry keeps the lines of the keys in a list by key. Whatever edits them, a key has one
line at most, and a key without waiters has none: a line that loses its last waiter is
forgotten, and nobody puts an empty one. So a waiter stands in the line of a target exactly
if it is found under this target, and if the tickets of each line are in order and a ticket
belongs to one target, then no ticket is there twice.

Key definitions: `Registry.Tidy`, `Registry.places`, `Registry.Edited`.
Key theorems: `Registry.Edited.tidy`, `Registry.Edited.nextTicket_le`,
`Registry.Tidy.mem_keys_iff`, `Registry.Tidy.mem_places_iff`, `Registry.Tidy.nodup_places`,
`Rendezvous.edited_of_step`.
-/
import DeviceRelay.Proofs.Rendezvous.Lines
import DeviceRelay.Rendezvous.Runs

namespace DeviceRelay

namespace Registry

section
variable {κ ν : Type}

/-- The lines of the keys as they are kept. -/
structure Tidy (r : Registry κ ν) : Prop where
  /-- A key has one line. -/
  keys : (r.keyed.map (·.1)).Nodup
  /-- No line is empty. -/
  filled : ∀ e ∈ r.keyed, e.2 ≠ []

theorem Tidy.of_keyed {r r' : Registry κ ν} (tidy : r.Tidy) (h : r'.keyed = r.keyed) : r'.Tidy :=
  ⟨h ▸ tidy.keys, h ▸ tidy.filled⟩

/-- The waiters of all lines, each with the target whose line it stands in. -/
def places (r : Registry κ ν) : List (Target κ × Waiter ν) :=
  r.keyed.flatMap (fun e => e.2.map fun w => (.key e.1, w)) ++ r.global.map fun w => (.any, w)

theorem places_eq_nil_iff {r : Registry κ ν} (tidy : r.Tidy) :
    r.places = [] ↔ r.keyed = [] ∧ r.global = [] := by
  rw [places, List.append_eq_nil_iff, List.flatMap_eq_nil_iff, List.map_eq_nil_iff]
  refine and_congr_left fun _ => ⟨fun h => ?_, fun h => by simp [h]⟩
  refine List.eq_nil_iff_forall_not_mem.mpr fun e he => tidy.filled e he ?_
  exact List.map_eq_nil_iff.mp (h e he)

end

section
variable {κ ν : Type} [DecidableEq κ]

/-- A registry after some operation on it. -/
inductive Edited (r : Registry κ ν) : Registry κ ν → Prop where
  | same : Edited r r
  | set (k : κ) (v : ν) : Edited r (r.set k v).1
  | remove (k : κ) : Edited r (r.remove k)
  | register (target : Target κ) (accepts : ν → Bool) : Edited r (r.register target accepts).1
  | withdraw {r' : Registry κ ν} (target : Target κ) (ticket : Nat) :
    Edited r r' → Edited r (r'.withdraw target ticket)
  | close : Edited r r.close

/-- Who waits for a key is in a line that is kept under it. -/
theorem exists_mem_of_waiters {r : Registry κ ν} {k : κ} {w : Waiter ν} (hw : w ∈ r.waiters (.key k)) :
    ∃ ws, (k, ws) ∈ r.keyed ∧ w ∈ ws := by
  cases hl : r.keyed.lookup k with
  | none => simp [waiters, waitersOf, hl] at hw
  | some ws => exact ⟨ws, Keyed.mem_of_lookup hl, by simpa [waiters, waitersOf, hl] using hw⟩

namespace Tidy

variable {r : Registry κ ν}

theorem setWaitersOf (tidy : r.Tidy) (k : κ) (ws : List (Waiter ν)) :
    (r.setWaitersOf k ws).Tidy := by
  unfold Registry.setWaitersOf
  split
  case isTrue =>
    refine ⟨tidy.keys.sublist (List.filter_sublist.map _), fun e he => ?_⟩
    exact tidy.filled e (List.mem_of_mem_filter he)
  case isFalse hws =>
    refine ⟨Keyed.nodup_put ws tidy.keys, fun e he => ?_⟩
    rcases Keyed.mem_put he with he | rfl
    · exact tidy.filled e he
    · exact mt List.isEmpty_iff.mpr hws

theorem setWaiters (tidy : r.Tidy) (t : Target κ) (ws : List (Waiter ν)) :
    (r.setWaiters t ws).Tidy := by
  cases t with
  | key k => exact tidy.setWaitersOf k ws
  | any => exact tidy.of_keyed rfl

theorem waiters_of_mem (tidy : r.Tidy) {e : κ × List (Waiter ν)} (he : e ∈ r.keyed) :
    r.waiters (.key e.1) = e.2 := by
  simp [waiters, waitersOf, Keyed.lookup_of_mem tidy.keys he]

/-- **A key is kept exactly if somebody waits for it.** -/
theorem mem_keys_iff (tidy : r.Tidy) (k : κ) :
    k ∈ r.keyed.map (·.1) ↔ ∃ w, w ∈ r.waiters (.key k) := by
  constructor
  · intro hk
    obtain ⟨e, he, rfl⟩ := List.mem_map.mp hk
    rw [tidy.waiters_of_mem he]
    exact List.exists_mem_of_ne_nil e.2 (tidy.filled e he)
  · rintro ⟨w, hw⟩
    obtain ⟨ws, hws, -⟩ := exists_mem_of_waiters hw
    exact List.mem_map_of_mem hws

theorem mem_places_iff (tidy : r.Tidy) {t : Target κ} {w : Waiter ν} :
    (t, w) ∈ r.places ↔ w ∈ r.waiters t := by
  cases t with
  | any => simp [places, waiters]
  | key k =>
    simp only [places, List.mem_append, List.mem_flatMap, List.mem_map, Prod.mk.injEq,
      Target.key.injEq, reduceCtorEq, false_and, and_false, exists_false, or_false]
    constructor
    · rintro ⟨e, he, w, hw, rfl, rfl⟩
      rwa [tidy.waiters_of_mem he]
    · intro hw
      obtain ⟨ws, hws, hw⟩ := exists_mem_of_waiters hw
      exact ⟨(k, ws), hws, w, hw, rfl, rfl⟩

/-- No ticket is in the lines twice if each line is in order and no two targets share one. -/
theorem nodup_places (tidy : r.Tidy)
    (ordered : ∀ t, ((r.waiters t).map (·.ticket)).Pairwise (· < ·))
    (apart : ∀ t t' w w', w ∈ r.waiters t → w' ∈ r.waiters t' → w.ticket = w'.ticket → t = t') :
    (r.places.map (·.2.ticket)).Nodup := by
  have line : ∀ t, ((r.waiters t).map fun w => (t, w)).Pairwise
      fun p p' => p.2.ticket ≠ p'.2.ticket := fun t => by
    rw [List.pairwise_map]
    exact (List.pairwise_map.mp (ordered t)).imp Nat.ne_of_lt
  -- two places are in one line, in the lines of two keys, or in that of a key and that of all
  refine List.pairwise_map.mpr (List.pairwise_append.mpr ⟨?_, line .any, ?_⟩)
  · refine List.pairwise_flatMap.mpr ⟨fun e he => ?_, ?_⟩
    · exact tidy.waiters_of_mem he ▸ line (.key e.1)
    · refine (List.pairwise_map.mp tidy.keys).imp_of_mem ?_
      intro e e' he he' hne p hp p' hp' hsame
      obtain ⟨w, hw, rfl⟩ := List.mem_map.mp hp
      obtain ⟨w', hw', rfl⟩ := List.mem_map.mp hp'
      rw [← tidy.waiters_of_mem he] at hw
      rw [← tidy.waiters_of_mem he'] at hw'
      exact hne (Target.key.inj (apart _ _ w w' hw hw' hsame))
  · intro p hp p' hp' hsame
    obtain ⟨e, he, hp⟩ := List.mem_flatMap.mp hp
    obtain ⟨w, hw, rfl⟩ := List.mem_map.mp hp
    obtain ⟨w', hw', rfl⟩ := List.mem_map.mp hp'
    rw [← tidy.waiters_of_mem he] at hw
    cases apart _ .any w w' hw hw' hsame

end Tidy

namespace Edited

variable {r r' : Registry κ ν}

/-- **Every operation leaves the lines tidy.** -/
theorem tidy (h : Edited r r') (tidy : r.Tidy) : r'.Tidy := by
  induction h with
  | same => exact tidy
  | set k v =>
    refine Tidy.setWaitersOf ?_ k _
    exact tidy.of_keyed rfl
  | remove k => exact tidy.of_keyed rfl
  | register target accepts =>
    refine Tidy.setWaiters ?_ target _
    exact tidy.of_keyed rfl
  | withdraw target ticket _ ih => exact ih.setWaiters target _
  | close => exact ⟨List.nodup_nil, by simp [Registry.close]⟩

/-- A ticket that was given is not given again. -/
theorem nextTicket_le (h : Edited r r') : r.nextTicket ≤ r'.nextTicket := by
  induction h with
  | same | remove | close => exact Nat.le_refl _
  | set k v => simp [Registry.set]
  | register target accepts => simp [Registry.register]
  | withdraw target ticket _ ih => simpa [Registry.withdraw] using ih

end Edited
end

end Registry

namespace Rendezvous

section
variable {κ ν γ : Type} [DecidableEq κ]

theorem edited_begin (r : Rendezvous κ ν γ) (now : Nat) (call : γ) (target : Target κ)
    (accepts : ν → Bool) (timeout : Option Nat) :
    r.registry.Edited (r.begin now call target accepts timeout).1.registry := by
  unfold begin
  split
  · exact .same
  · split
    · exact .same
    · exact .register target accepts

theorem edited_beginListing (r : Rendezvous κ ν γ) (now : Nat) (call : γ) (accepts : ν → Bool)
    (timeout : Option Nat) :
    r.registry.Edited (r.beginListing now call accepts timeout).1.registry := by
  unfold beginListing
  split
  · exact .same
  · split
    · exact .register .any accepts
    · exact .same

theorem edited_withdrawAll (ws : List (Wait κ γ)) {r r' : Registry κ ν} (h : r.Edited r') :
    r.Edited (ws.foldl (fun r w => r.withdraw w.target w.ticket) r') := by
  induction ws generalizing r' with
  | nil => exact h
  | cons w ws ih => exact ih (h.withdraw w.target w.ticket)

variable [DecidableEq γ]

/-- A step of a run is an operation on the registry. -/
theorem edited_of_step {s t : State κ ν γ} {a : Action κ ν γ} {events : List (Event ν γ)}
    (h : s.step a = some (t, events)) : s.here.registry.Edited t.here.registry := by
  cases a with
  | resume call =>
    obtain ⟨⟨here, o⟩, hr, h⟩ := Option.map_eq_some_iff.mp h
    obtain ⟨rfl, -⟩ := Prod.mk.inj h
    obtain rfl := resume_eq hr
    exact edited_withdrawAll _ .same
  | tick moment =>
    simp only [State.step] at h
    split at h
    · obtain ⟨rfl, -⟩ := Prod.mk.inj (Option.some.inj h)
      exact .same
    · cases h
  | set k v =>
    obtain ⟨rfl, -⟩ := Prod.mk.inj (Option.some.inj h)
    exact .set k v
  | remove k =>
    obtain ⟨rfl, -⟩ := Prod.mk.inj (Option.some.inj h)
    exact .remove k
  | close =>
    obtain ⟨rfl, -⟩ := Prod.mk.inj (Option.some.inj h)
    exact .close
  | drop call =>
    obtain ⟨rfl, -⟩ := Prod.mk.inj (Option.some.inj h)
    exact edited_withdrawAll _ .same
  | wait call target accepts timeout =>
    obtain ⟨rfl, -⟩ := Prod.mk.inj (Option.some.inj h)
    exact edited_begin _ _ _ _ _ _
  | list call accepts timeout =>
    obtain ⟨rfl, -⟩ := Prod.mk.inj (Option.some.inj h)
    exact edited_beginListing _ _ _ _ _

end
end Rendezvous
end DeviceRelay

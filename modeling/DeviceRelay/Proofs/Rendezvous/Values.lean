/-
# Waiting changes no value

The values of a registry change when one is set or removed, and its flag when it is
closed. Those who begin to wait, are woken, return or are dropped leave both alone.

Key theorems: `Rendezvous.values_set`, `Rendezvous.values_beginListing`,
`Rendezvous.values_abandon`, `Rendezvous.resume_eq`.
-/
import DeviceRelay.Proofs.Keyed
import DeviceRelay.Rendezvous

namespace DeviceRelay

namespace Registry

variable {κ ν : Type} [DecidableEq κ]

@[simp] theorem setWaitersOf_values (r : Registry κ ν) (k : κ) (ws : List (Waiter ν)) :
    (r.setWaitersOf k ws).values = r.values := by
  unfold setWaitersOf; split <;> rfl

@[simp] theorem setWaitersOf_closed (r : Registry κ ν) (k : κ) (ws : List (Waiter ν)) :
    (r.setWaitersOf k ws).closed = r.closed := by
  unfold setWaitersOf; split <;> rfl

@[simp] theorem setWaiters_values (r : Registry κ ν) (t : Target κ) (ws : List (Waiter ν)) :
    (r.setWaiters t ws).values = r.values := by
  cases t <;> simp [setWaiters]

@[simp] theorem setWaiters_closed (r : Registry κ ν) (t : Target κ) (ws : List (Waiter ν)) :
    (r.setWaiters t ws).closed = r.closed := by
  cases t <;> simp [setWaiters]

end Registry

namespace Rendezvous

variable {κ ν γ : Type} [DecidableEq κ]

@[simp] theorem values_set (r : Rendezvous κ ν γ) (k : κ) (v : ν) :
    (r.set k v).registry.values = Registry.put k v r.registry.values := by
  simp [set, Registry.set]

@[simp] theorem closed_set (r : Rendezvous κ ν γ) (k : κ) (v : ν) :
    (r.set k v).registry.closed = r.registry.closed := by
  simp [set, Registry.set]

@[simp] theorem values_beginListing (r : Rendezvous κ ν γ) (now : Nat) (call : γ)
    (accepts : ν → Bool) (timeout : Option Nat) :
    (r.beginListing now call accepts timeout).1.registry.values = r.registry.values := by
  unfold beginListing
  split
  · rfl
  · split
    · simp [enlist, Registry.register]
    · rfl

@[simp] theorem closed_beginListing (r : Rendezvous κ ν γ) (now : Nat) (call : γ)
    (accepts : ν → Bool) (timeout : Option Nat) :
    (r.beginListing now call accepts timeout).1.registry.closed = r.registry.closed := by
  unfold beginListing
  split
  · rfl
  · split
    · simp [enlist, Registry.register]
    · rfl

theorem withdrawAll_kept (ws : List (Wait κ γ)) (r : Registry κ ν) :
    (ws.foldl (fun r w => r.withdraw w.target w.ticket) r).values = r.values ∧
      (ws.foldl (fun r w => r.withdraw w.target w.ticket) r).closed = r.closed := by
  induction ws generalizing r with
  | nil => exact ⟨rfl, rfl⟩
  | cons w ws ih =>
    rw [List.foldl_cons]
    obtain ⟨h1, h2⟩ := ih (r.withdraw w.target w.ticket)
    exact ⟨h1.trans (by simp [Registry.withdraw]), h2.trans (by simp [Registry.withdraw])⟩

variable [DecidableEq γ]

@[simp] theorem values_abandon (r : Rendezvous κ ν γ) (call : γ) :
    (r.abandon call).registry.values = r.registry.values := (withdrawAll_kept _ _).1

@[simp] theorem closed_abandon (r : Rendezvous κ ν γ) (call : γ) :
    (r.abandon call).registry.closed = r.registry.closed := (withdrawAll_kept _ _).2

theorem resume_eq {r r' : Rendezvous κ ν γ} {now : Nat} {call : γ} {o : Outcome ν}
    (h : r.resume? now call = some (r', o)) : r' = r.abandon call := by
  unfold resume? at h
  obtain ⟨_, -, h⟩ := Option.map_eq_some_iff.mp h
  exact (Prod.mk.inj h).1.symm

end Rendezvous
end DeviceRelay

/-
# What a letter takes from the buckets

A letter takes a cell from the common bucket, if there is one, and then a cell from the bucket of
its sender. A sender's empty bucket refuses the letter, and the cell for all is gone nevertheless.
The buckets of other senders are left alone. Whatever is taken and comes back, no bucket ever holds
more than it has room for, and so to forget the senders whose buckets are full is not noticed.

Key definitions: `RateLimits.Budget`, `RateLimits.Budget.common`, `RateLimits.Budget.of`,
`RateLimits.Bounded`.
Key theorems: `RateLimits.takeCells_result`, `RateLimits.globalLeft_takeCells`,
`RateLimits.leftFor_takeCells`, `RateLimits.Bounded.leftFor_clear`,
`Cleanup.bounded_of_history`.
-/
import DeviceRelay.Cleanup
import DeviceRelay.Proofs.Keyed
import DeviceRelay.Proofs.Runs

namespace DeviceRelay
namespace RateLimits

theorem leftFor_setLeft (limits : RateLimits) (sender q : PrincipalId) (left : Nat) :
    (limits.setLeft sender left).leftFor q = if q = sender then left else limits.leftFor q := by
  unfold leftFor setLeft
  dsimp only
  rw [List.lookup_append, Keyed.lookup_remove, Keyed.lookup_cons_eq]
  by_cases hq : q = sender
  · simp [hq]
  · simp [hq]

/-- A letter needs a cell for all and one of its sender. -/
theorem takeCells_result (limits : RateLimits) (sender : PrincipalId) :
    (limits.takeCells sender).2 =
      if limits.globalLeft = 0 then .error .global
      else if limits.leftFor sender = 0 then .error .sender else .ok () := by
  unfold takeCells checkGlobal
  cases hglobal : limits.globalLeft with
  | zero => rfl
  | succ left =>
    have hleft : ({ limits with globalLeft := left } : RateLimits).leftFor sender =
      limits.leftFor sender := rfl
    dsimp only
    unfold checkSender
    rw [hleft]
    cases limits.leftFor sender with
    | zero | succ => rfl

/-- Also a letter that its sender's quota refuses takes a cell for all. -/
theorem globalLeft_takeCells (limits : RateLimits) (sender : PrincipalId) :
    (limits.takeCells sender).1.globalLeft = limits.globalLeft - 1 := by
  unfold takeCells checkGlobal
  cases hglobal : limits.globalLeft with
  | zero => exact hglobal
  | succ left =>
    dsimp only
    unfold checkSender
    split <;> rfl

theorem leftFor_takeCells (limits : RateLimits) (sender q : PrincipalId) :
    (limits.takeCells sender).1.leftFor q =
      if limits.globalLeft ≠ 0 ∧ q = sender then limits.leftFor q - 1 else limits.leftFor q := by
  unfold takeCells checkGlobal
  cases hglobal : limits.globalLeft with
  | zero => simp
  | succ left =>
    have hleft (id : PrincipalId) : ({ limits with globalLeft := left } : RateLimits).leftFor id =
      limits.leftFor id := rfl
    dsimp only
    unfold checkSender
    rw [hleft]
    split <;> rename_i hcells <;> dsimp only <;> rw [leftFor_setLeft, hleft]
    all_goals
      by_cases hq : q = sender
      · subst hq
        simp [hcells]
      · simp [hq]

/-! ### Budgets -/

/-- What some senders share: the cells that are left to them. A letter brings none of them back, and
takes one whenever one of these senders gets all it needs. -/
structure Budget where
  /-- Whether a sender draws on it. -/
  covers : PrincipalId → Bool
  left : RateLimits → Nat
  shrinks : ∀ limits sender, left (takeCells limits sender).1 ≤ left limits
  pays : ∀ limits sender, covers sender = true → (takeCells limits sender).2 = .ok () →
    left (takeCells limits sender).1 < left limits

/-- Who gets all it needs took a cell from both buckets. -/
theorem cells_of_ok {limits : RateLimits} {sender : PrincipalId}
    (h : (limits.takeCells sender).2 = .ok ()) :
    limits.globalLeft ≠ 0 ∧ limits.leftFor sender ≠ 0 := by
  rw [takeCells_result] at h
  by_cases hglobal : limits.globalLeft = 0
  · rw [if_pos hglobal] at h
    cases h
  · by_cases hsender : limits.leftFor sender = 0
    · rw [if_neg hglobal, if_pos hsender] at h
      cases h
    · exact ⟨hglobal, hsender⟩

/-- The common bucket, on which everybody draws. -/
def Budget.common : Budget where
  covers _ := true
  left := globalLeft
  shrinks limits sender := by
    rw [globalLeft_takeCells]
    exact Nat.sub_le ..
  pays limits sender _ h := by
    have hcells := (cells_of_ok h).1
    rw [globalLeft_takeCells]
    omega

/-- The bucket of one sender. -/
def Budget.of (q : PrincipalId) : Budget where
  covers sender := sender = q
  left limits := limits.leftFor q
  shrinks limits sender := by
    rw [leftFor_takeCells]
    split
    · exact Nat.sub_le ..
    · exact Nat.le_refl _
  pays limits sender hq h := by
    obtain ⟨hglobal, hsender⟩ := cells_of_ok h
    obtain rfl : sender = q := of_decide_eq_true hq
    rw [leftFor_takeCells, if_pos ⟨hglobal, rfl⟩]
    omega

/-! ### Room -/

/-- No bucket holds more than it has room for, and no sender is known twice. -/
structure Bounded (limits : RateLimits) : Prop where
  common : limits.globalLeft ≤ limits.common
  own : ∀ e ∈ limits.senders, e.2 ≤ limits.perSender
  once : (limits.senders.map (·.1)).Nodup

theorem bounded_ofConfig {config : LimitsConfig} {limits : RateLimits}
    (h : ofConfig config = .ok limits) : limits.Bounded := by
  unfold ofConfig at h
  split at h
  · cases h
  · split at h
    · cases h
    · obtain rfl := Except.ok.inj h
      exact ⟨Nat.le_refl _, List.forall_mem_nil _, List.nodup_nil⟩

namespace Bounded

variable {limits : RateLimits} (B : limits.Bounded)

include B

theorem leftFor_le (sender : PrincipalId) : limits.leftFor sender ≤ limits.perSender := by
  unfold leftFor
  cases hfind : limits.senders.lookup sender with
  | none => exact Nat.le_refl _
  | some left => exact B.own _ (Keyed.mem_of_lookup hfind)

theorem checkGlobal : limits.checkGlobal.1.Bounded := by
  unfold RateLimits.checkGlobal
  split
  · exact B
  · next left hleft =>
    have hcommon := B.common
    rw [hleft] at hcommon
    exact ⟨Nat.le_of_lt hcommon, B.own, B.once⟩

theorem setLeft {sender : PrincipalId} {left : Nat} (h : left ≤ limits.perSender) :
    (limits.setLeft sender left).Bounded where
  common := B.common
  own := by
    refine List.forall_mem_append.mpr ⟨fun e he => B.own e (List.mem_of_mem_filter he), ?_⟩
    exact List.forall_mem_singleton.mpr h
  once := by
    unfold RateLimits.setLeft
    rw [List.map_append, Keyed.keys_remove]
    refine List.nodup_append.mpr ⟨B.once.filter _, List.nodup_singleton _, ?_⟩
    rintro q hq _ hsender rfl
    simp [List.mem_filter] at hq hsender
    exact hq.2 hsender

theorem checkSender (sender : PrincipalId) : (limits.checkSender sender).1.Bounded := by
  have hle := B.leftFor_le sender
  unfold RateLimits.checkSender
  split
  · exact B.setLeft (Nat.zero_le _)
  · exact B.setLeft (by omega)

theorem takeCells (sender : PrincipalId) : (limits.takeCells sender).1.Bounded := by
  have hglobal := B.checkGlobal
  unfold RateLimits.takeCells
  split
  · next hchecked => rwa [hchecked] at hglobal
  · next hchecked =>
    rw [hchecked] at hglobal
    exact hglobal.checkSender sender

theorem refill (common : Nat) (own : PrincipalId → Nat) : (limits.refill common own).Bounded where
  common := Nat.min_le_right _ _
  own := List.forall_mem_map.mpr fun _ _ => Nat.min_le_right _ _
  once := by
    unfold RateLimits.refill
    rw [List.map_map]
    exact B.once

theorem clear : limits.clear.Bounded where
  common := B.common
  own e he := B.own e (List.mem_of_mem_filter he)
  once := B.once.sublist (List.filter_sublist.map _)

/-- **To forget the senders whose buckets are full is not noticed.** -/
theorem leftFor_clear (sender : PrincipalId) : limits.clear.leftFor sender = limits.leftFor sender := by
  have hkept {left : Nat} (h : limits.clear.senders.lookup sender = some left) :
      limits.senders.lookup sender = some left :=
    Keyed.lookup_of_mem B.once (List.mem_of_mem_filter (Keyed.mem_of_lookup h))
  unfold leftFor
  cases hcleared : limits.clear.senders.lookup sender with
  | some left =>
    rw [hkept hcleared]
    rfl
  | none =>
    cases hfind : limits.senders.lookup sender with
    | none => rfl
    | some left =>
      -- it was forgotten, so its bucket is full
      have hmem := Keyed.mem_of_lookup hfind
      have hfull : ¬ left < limits.perSender := fun hlt =>
        (Keyed.lookup_eq_none_iff _ _).mp hcleared
          (List.mem_map_of_mem (List.mem_filter.mpr ⟨hmem, decide_eq_true hlt⟩))
      exact Nat.le_antisymm (Nat.le_of_not_lt hfull) (B.own _ hmem)

end Bounded
end RateLimits

namespace Cleanup

variable {start s t : State} {a : Action} {events : List Event}

theorem bounded_of_step (B : s.limits.Bounded) (h : step s a = some (t, events)) :
    t.limits.Bounded := by
  cases a with
  | checkSender sender =>
    obtain ⟨rfl, -⟩ := Prod.mk.inj (Option.some.inj h)
    exact B.checkSender sender
  | checkGlobal =>
    obtain ⟨rfl, -⟩ := Prod.mk.inj (Option.some.inj h)
    exact B.checkGlobal
  | refill common own =>
    obtain ⟨rfl, -⟩ := Prod.mk.inj (Option.some.inj h)
    exact B.refill common own
  | clear =>
    obtain ⟨rfl, -⟩ := Prod.mk.inj (Option.some.inj h)
    exact B.clear
  | start | stop =>
    obtain ⟨rfl, -⟩ := Prod.mk.inj (Option.some.inj h)
    exact B
  | tick moment =>
    obtain ⟨-, h⟩ := Option.ite_none_right_eq_some.mp h
    obtain ⟨rfl, -⟩ := Prod.mk.inj (Option.some.inj h)
    exact B
  | run =>
    obtain ⟨⟨cleanup, limits⟩, hrun, hsame⟩ := Option.map_eq_some_iff.mp h
    obtain ⟨rfl, -⟩ := Prod.mk.inj hsame
    obtain ⟨task, -, hdue⟩ := Option.bind_eq_some_iff.mp hrun
    cases task with
    | ended => cases hdue
    | running every next =>
      obtain ⟨-, hdue⟩ := Option.ite_none_right_eq_some.mp hdue
      obtain ⟨-, rfl⟩ := Prod.mk.inj (Option.some.inj hdue)
      exact B.clear

/-- **No bucket ever holds more than it has room for**, whatever the checks, the refills and the
cleanup do. -/
theorem bounded_of_history {steps : List (Machine.Step State Action Event)}
    (B : start.limits.Bounded) (h : machine.History start s steps) : s.limits.Bounded :=
  h.invariant (P := fun s => s.limits.Bounded) B fun _ _ _ _ B hstep => bounded_of_step B hstep

end Cleanup
end DeviceRelay

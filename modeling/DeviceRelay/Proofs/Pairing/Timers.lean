/-
# What is live has a timer, and what has a timer is live

The live requests, their timers and their states are kept apart, and are changed by
sending, claims, timers and the shutdown in different orders. In every state of a run they
agree: the live requests are the timed ones, each stands under its own identifier, and a
request is pending as long as it is live or its pairing is being recorded. A timer is due
one lifetime after its request was sent. So once the timers that are due have fired, no
request is live beyond its lifetime; and that is so whenever no task can run.

Key definitions: `Coordinator.Account`.
Key theorems: `Coordinator.account_of_history`.
-/
import DeviceRelay.Proofs.Pairing.Histories

namespace DeviceRelay
namespace Coordinator

variable {γ : Type}

theorem expire_of_due {c : Coordinator γ} {now due : Nat} {id : RequestId}
    (h : c.timers.lookup id = some due) (hdue : due ≤ now) :
    (c.expire? now id).isSome = true := by
  simp only [expire?, h, Option.bind_eq_bind, Option.bind_some, if_pos hdue]
  split <;> rfl

theorem timerDue_of_range {now timeout : Nat} (h : (now + timeout) / 1000 ≤ clockRange) :
    timerDue now timeout = now + timeout := by
  rw [timerDue, deadline?, if_pos h]; rfl

variable [DecidableEq γ]

/-- How live requests, timers, states and recordings fit together in a state of a run. -/
structure Account (ttl : Nat) (steps : List (Step γ)) (s : State γ) : Prop where
  /-- The live requests are those with a timer. -/
  timed : ∀ id, id ∈ s.here.liveIds ↔ id ∈ s.here.timerIds
  /-- None is live twice, and none has two timers. -/
  distinct : s.here.liveIds.Nodup ∧ s.here.timerIds.Nodup
  /-- A live request stands under its own identifier and is pending. -/
  own : ∀ e ∈ s.here.live.registry.values, e.2.id = e.1 ∧ s.here.stateOf e.1 = .pending
  /-- A request that was sent is pending if it is live or its recording goes on, and then only. -/
  pending : ∀ id ∈ s.here.sentIds,
    (s.here.stateOf id = .pending ↔ id ∈ s.here.liveIds ∨ Task.write id ∈ s.tasks)
  /-- A timer is due one lifetime after its request was sent. -/
  due : ∀ e ∈ s.here.timers,
    (∃ x ∈ steps, ∃ request, Sends request x ∧ request.id = e.1) ∧
    ∀ x ∈ steps, ∀ request, Sends request x → request.id = e.1 →
      e.2 = timerDue x.before.clock.now ttl
  /-- When no task can run, the timers that are due have fired. -/
  fired : (machine γ).ready s = none → ∀ e ∈ s.here.timers, s.clock.now < e.2
  /-- When they have fired, no request is live beyond its lifetime, unless the clock cannot
  name the end of that. -/
  alive : (∀ e ∈ s.here.timers, s.clock.now < e.2) → ∀ id ∈ s.here.liveIds,
    ∃ x ∈ steps, ∃ request, Sends request x ∧ request.id = id ∧
      ((x.before.clock.now + ttl) / 1000 ≤ clockRange →
        s.clock.now < x.before.clock.now + ttl)

theorem due_of_ready_none {s : State γ} (S : s.Sound) (h : (machine γ).ready s = none)
    {e : RequestId × Nat} (he : e ∈ s.here.timers) : s.clock.now < e.2 := by
  by_contra hle
  have hlive : e.1 ∈ s.here.liveIds := (S.here.timed e.1).mp (List.mem_map_of_mem he)
  have htask := S.timers e.1 (stage_of_live hlive)
  have hnone := List.find?_eq_none.mp (Option.map_eq_none_iff.mp h) _ htask
  have hfires := expire_of_due (Keyed.lookup_of_mem S.here.timersNodup he) (Nat.not_lt.mp hle)
  simp [State.runTask?, hfires] at hnone

/-- **Live requests, timers and states agree in every state of a run.** -/
theorem account_of_history {ttl : Nat} {clock : Clock} {store : PairingStore} {s : State γ}
    {steps : List (Step γ)} (h : (machine γ).History (.fresh ttl clock store) s steps) :
    Account ttl steps s := by
  have S := sound_of_history h (fresh_sound ttl clock store)
  obtain ⟨-, hset⟩ := timed_of_history h
  constructor
  case timed => exact fun id => (S.here.timed id).symm
  case distinct => exact ⟨S.here.liveNodup, S.here.timersNodup⟩
  case own =>
    intro e he
    have hlive : e.1 ∈ s.here.liveIds := List.mem_map_of_mem he
    exact ⟨S.here.own e he, S.here.pending_of_live hlive⟩
  case pending =>
    intro id hid
    rw [S.here.sent_iff] at hid
    rw [S.here.stateOf_eq, ← stage_eq_live_iff, S.writes]
    cases hstage : s.here.stage id with
    | unsent => exact absurd hstage hid
    | ended r => simp [Stage.state?, Stage.stateAfter_ne_pending]
    | _ => simp [Stage.state?]
  case due =>
    intro e he
    obtain ⟨y, hy, request, hid, hsent, hdue⟩ := hset e he
    refine ⟨⟨y, hy, request, hsent, hid⟩, fun x hx other ho hid' => ?_⟩
    rw [hdue, sends_unique h hx hy ho hsent (hid'.trans hid.symm)]
  case fired => exact fun hready e he => due_of_ready_none S hready he
  case alive =>
    intro hfired id hid
    obtain ⟨e, he, rfl⟩ := List.mem_map.mp ((S.here.timed id).mpr hid)
    obtain ⟨x, hx, request, hid, hsent, hdue⟩ := hset e he
    refine ⟨x, hx, request, hsent, hid, fun hrange => ?_⟩
    rw [← timerDue_of_range hrange, ← hdue]
    exact hfired e he

/-- One request is live and one is being recorded. -/
theorem account_of_two : ∃ (s : State Nat) (steps : List (Step Nat)),
    (machine Nat).History (.fresh 60000 {} {}) s steps ∧
      s.here.liveIds = [⟨8⟩] ∧ s.here.stateOf ⟨7⟩ = .pending ∧ s.clock.now = 59999 ∧
      Account 60000 steps s := by
  have h1 : (machine Nat).History (.fresh 60000 {} {}) _ [] := .start
  have h2 := h1.step (a := .send ⟨7⟩ alice phone) rfl
  have h3 := h2.step (a := .send ⟨8⟩ alice phone) rfl
  have h4 := h3.step (a := .accept 0 ⟨7⟩) rfl
  have h5 := h4.step (a := .tick 59999) rfl
  exact ⟨_, _, h5, rfl, rfl, rfl, account_of_history h5⟩

end Coordinator
end DeviceRelay

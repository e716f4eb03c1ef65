/-
# A request goes through stages

A request is unsent until it is sent, and live until it is claimed. From then on either
its pairing is recorded, until the recording ends, or it is rejected. The stage of a
request is read off the live requests and the recordings; its state and its timer follow
from it in every sound coordinator.

Key definitions: `Stage`, `Stage.Precedes`, `Coordinator.stage`, `Coordinator.Sound`.
Key theorems: `Stage.Precedes.trans`, `Stage.Precedes.eq_of_settled`,
`Coordinator.stage_eq_live_iff`, `Coordinator.Sound.stage_of_write`,
`Coordinator.Sound.stateOf_eq`.
-/
import DeviceRelay.Pairing.Coordinator
import DeviceRelay.Proofs.Rendezvous.Values

namespace DeviceRelay

/-- How far a request got. -/
inductive Stage where
  | unsent
  | live
  /-- An accept claimed it, and its pairing is being recorded. -/
  | recording
  /-- The recording of its pairing ended. -/
  | ended (r : Recording)
  /-- It was claimed, and nothing is recorded. -/
  | rejected

namespace Stage

/-- The state of a request at a stage, if it was sent. -/
def state? : Stage → Option PairingState
  | .unsent => none
  | .live | .recording => some .pending
  | .ended r => some (Coordinator.stateAfter r)
  | .rejected => some .rejected

/-- Whether a request at one stage may be found at another one later. -/
def Precedes : Stage → Stage → Prop
  | .unsent, _ => True
  | .live, t => t ≠ .unsent
  | .recording, t => t = .recording ∨ ∃ r, t = .ended r
  | .ended r, t => t = .ended r
  | .rejected, t => t = .rejected

theorem Precedes.refl (a : Stage) : a.Precedes a := by
  cases a <;> simp [Precedes]

theorem Precedes.trans {a b c : Stage} (h : a.Precedes b) (h' : b.Precedes c) :
    a.Precedes c := by
  cases a with
  | unsent => trivial
  | live =>
    cases b with
    | unsent => exact absurd rfl h
    | live => exact h'
    | recording => rcases h' with rfl | ⟨r, rfl⟩ <;> simp [Precedes]
    | ended r => rw [show c = .ended r from h']; simp [Precedes]
    | rejected => rw [show c = .rejected from h']; simp [Precedes]
  | recording =>
    rcases h with rfl | ⟨r, rfl⟩
    · exact h'
    · exact Or.inr ⟨r, h'⟩
  | ended r => rw [show b = .ended r from h] at h'; exact h'
  | rejected => rw [show b = .rejected from h] at h'; exact h'

theorem stateAfter_ne_pending (r : Recording) : Coordinator.stateAfter r ≠ .pending := by
  cases r <;> simp [Coordinator.stateAfter]

theorem Precedes.eq_unsent {a : Stage} (h : a.Precedes .unsent) : a = .unsent := by
  cases a <;> simp_all [Precedes]

theorem Precedes.claimed {a b : Stage} (h : a.Precedes b) (hu : a ≠ .unsent) (hl : a ≠ .live) :
    b ≠ .unsent ∧ b ≠ .live := by
  cases a with
  | unsent => exact absurd rfl hu
  | live => exact absurd rfl hl
  | recording => rcases h with rfl | ⟨r, rfl⟩ <;> simp
  | ended r => rw [show b = .ended r from h]; simp
  | rejected => rw [show b = .rejected from h]; simp

/-- A request that is settled stays at its stage. -/
theorem Precedes.eq_of_settled {a b : Stage} (h : a.Precedes b) (ha : a ≠ .unsent)
    (hs : a.state? ≠ some .pending) : b = a := by
  cases a with
  | unsent => exact absurd rfl ha
  | live => exact absurd rfl hs
  | recording => exact absurd rfl hs
  | ended r => exact h
  | rejected => exact h

end Stage

/-- The stage that a recording shows. -/
def EdgeWrite.stage (w : EdgeWrite) : Stage :=
  match w.recording with
  | none => .recording
  | some r => .ended r

namespace Coordinator

variable {γ : Type}

/-- The identifiers of the live requests. -/
def liveIds (c : Coordinator γ) : List RequestId := c.live.registry.values.map (·.1)

/-- The identifiers of all requests that were sent. -/
def sentIds (c : Coordinator γ) : List RequestId := c.states.map (·.1)

/-- The identifiers of the requests with a timer. -/
def timerIds (c : Coordinator γ) : List RequestId := c.timers.map (·.1)

/-- How far a request got. -/
def stage (c : Coordinator γ) (id : RequestId) : Stage :=
  if id ∈ c.liveIds then .live
  else
    match c.writes.find? (·.request.id = id) with
    | some w => w.stage
    | none => if id ∈ c.sentIds then .rejected else .unsent

/-- What holds of a coordinator between its operations: states and timers are what the
stages ask for, nothing is kept twice, and none is live after the shutdown. -/
structure Sound (c : Coordinator γ) : Prop where
  state : ∀ id, c.states.lookup id = (c.stage id).state?
  timed : ∀ id, id ∈ c.timerIds ↔ id ∈ c.liveIds
  own : ∀ e ∈ c.live.registry.values, e.2.id = e.1
  unclaimed : ∀ w ∈ c.writes, w.request.id ∉ c.liveIds
  liveNodup : c.liveIds.Nodup
  sentNodup : c.sentIds.Nodup
  timersNodup : c.timerIds.Nodup
  writesNodup : (c.writes.map (·.request.id)).Nodup
  shut : c.isShutDown = true → c.liveIds = []

/-! ### Reading off the stage -/

theorem stage_of_live {c : Coordinator γ} {id : RequestId} (h : id ∈ c.liveIds) :
    c.stage id = .live := if_pos h

theorem stage_of_not_live {c : Coordinator γ} {id : RequestId} (h : id ∉ c.liveIds) :
    c.stage id = match c.writes.find? (·.request.id = id) with
      | some w => w.stage
      | none => if id ∈ c.sentIds then .rejected else .unsent := if_neg h

theorem stage_eq_live_iff (c : Coordinator γ) (id : RequestId) :
    c.stage id = .live ↔ id ∈ c.liveIds := by
  refine ⟨fun h => ?_, stage_of_live⟩
  by_contra hl
  rw [stage_of_not_live hl] at h
  split at h
  · rename_i w _
    unfold EdgeWrite.stage at h
    split at h <;> cases h
  · split at h <;> cases h

theorem not_live_of_stage {c : Coordinator γ} {id : RequestId} {other : Stage}
    (h : c.stage id = other) (hother : other ≠ .live) : id ∉ c.liveIds :=
  fun hlive => hother (h.symm.trans (stage_of_live hlive))

/-- Nothing but the live requests, the recordings and the identifiers counts. -/
theorem stage_congr {c d : Coordinator γ} {id : RequestId} (hl : id ∈ d.liveIds ↔ id ∈ c.liveIds)
    (hw : d.writes.find? (·.request.id = id) = c.writes.find? (·.request.id = id))
    (hs : id ∈ d.sentIds ↔ id ∈ c.sentIds) : d.stage id = c.stage id := by
  unfold stage
  simp only [hl, hw, hs]

/-- A coordinator without requests is sound, and none was sent. -/
theorem new_sound (ttl : Nat) :
    ({ ttl } : Coordinator γ).Sound ∧ ∀ id, ({ ttl } : Coordinator γ).stage id = .unsent := by
  refine ⟨?_, fun _ => rfl⟩
  constructor <;> simp [stage, liveIds, sentIds, timerIds, Stage.state?]

namespace Sound

variable {c : Coordinator γ} (S : c.Sound)
include S

/-- A recording shows the stage of its request. -/
theorem stage_of_write {w : EdgeWrite} (hw : w ∈ c.writes) : c.stage w.request.id = w.stage := by
  rw [stage_of_not_live (S.unclaimed w hw)]
  cases hf : c.writes.find? (·.request.id = w.request.id) with
  | none => simpa using List.find?_eq_none.mp hf w hw
  | some w' =>
    have hid : w'.request.id = w.request.id := by simpa using List.find?_some hf
    have heq : w' = w :=
      List.inj_on_of_nodup_map S.writesNodup (List.mem_of_find?_eq_some hf) hw hid
    rw [heq]

theorem no_write {id : RequestId} (h : c.stage id = .live ∨ c.stage id = .unsent) :
    ∀ w ∈ c.writes, w.request.id ≠ id := by
  intro w hw he
  have hs := S.stage_of_write hw
  rw [he] at hs
  unfold EdgeWrite.stage at hs
  rcases h with h | h <;> rw [h] at hs <;> split at hs <;> cases hs

theorem sent_iff (id : RequestId) : id ∈ c.sentIds ↔ c.stage id ≠ .unsent := by
  rw [sentIds, Keyed.mem_keys_iff, S.state]
  cases c.stage id <;> simp [Stage.state?]

theorem unsent_iff (id : RequestId) : c.states.lookup id = none ↔ c.stage id = .unsent := by
  rw [S.state]
  cases c.stage id <;> simp [Stage.state?]

theorem stateOf_eq (id : RequestId) : c.stateOf id = (c.stage id).state?.getD .pending := by
  rw [stateOf, S.state]

theorem pending_of_live {id : RequestId} (h : id ∈ c.liveIds) : c.stateOf id = .pending := by
  rw [S.stateOf_eq, stage_of_live h]
  rfl

theorem accepted_iff (id : RequestId) :
    c.stateOf id = .accepted ↔ c.stage id = .ended .recorded := by
  rw [S.stateOf_eq]
  cases c.stage id with
  | ended r => cases r <;> simp [Stage.state?, stateAfter]
  | _ => simp [Stage.state?]

theorem recording_iff (id : RequestId) :
    c.stage id = .recording ↔ ∃ w ∈ c.writes, w.request.id = id ∧ w.recording = none := by
  constructor
  · intro h
    have hl := not_live_of_stage h (by simp)
    rw [stage_of_not_live hl] at h
    cases hf : c.writes.find? (·.request.id = id) with
    | none =>
      rw [hf] at h
      dsimp only at h
      split at h <;> cases h
    | some w =>
      rw [hf] at h
      refine ⟨w, List.mem_of_find?_eq_some hf, by simpa using List.find?_some hf, ?_⟩
      cases hr : w.recording with
      | none => rfl
      | some r => simp [EdgeWrite.stage, hr] at h
  · rintro ⟨w, hw, rfl, hr⟩
    rw [S.stage_of_write hw, EdgeWrite.stage, hr]

theorem ended_iff (id : RequestId) (r : Recording) :
    c.stage id = .ended r ↔ ∃ w ∈ c.writes, w.request.id = id ∧ w.recording = some r := by
  constructor
  · intro h
    have hl := not_live_of_stage h (by simp)
    rw [stage_of_not_live hl] at h
    cases hf : c.writes.find? (·.request.id = id) with
    | none =>
      rw [hf] at h
      dsimp only at h
      split at h <;> cases h
    | some w =>
      rw [hf] at h
      refine ⟨w, List.mem_of_find?_eq_some hf, by simpa using List.find?_some hf, ?_⟩
      cases hr : w.recording with
      | none => simp [EdgeWrite.stage, hr] at h
      | some r' =>
        simp only [EdgeWrite.stage, hr] at h
        rw [Stage.ended.inj h]
  · rintro ⟨w, hw, rfl, hr⟩
    rw [S.stage_of_write hw, EdgeWrite.stage, hr]

end Sound

end Coordinator
end DeviceRelay

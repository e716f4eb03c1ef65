/-
# A request is settled once, by whoever claimed it

Sending, accepts, rejects, timers, the shutdown, recordings, waits and drops may come in
any order, and the store may be slow, refuse or break down. Whatever the order, one step at
most claims a request, and whoever comes later is told that it is not found. Its state
leaves pending once at most. Its pairing is recorded once at most, after an accept claimed
it, for its own requester and target, and the end of that alone says how the request ends
and what the accept returns. That the accept was dropped makes no difference.

Key definitions: `Coordinator.Claims`, `Coordinator.Settlement`.
Key theorems: `Coordinator.settlement_of_history`.
-/
import DeviceRelay.Proofs.Pairing.Histories

namespace DeviceRelay
namespace Coordinator

variable {γ : Type}

/-- Whether a step takes a request from the live ones. -/
def Claims (id : RequestId) (x : Step γ) : Prop :=
  id ∈ x.before.here.liveIds ∧ id ∉ x.after.here.liveIds

instance (id : RequestId) (x : Step γ) : Decidable (Claims id x) :=
  inferInstanceAs (Decidable (_ ∧ _))

theorem claims_iff (id : RequestId) (x : Step γ) :
    Claims id x ↔ x.before.here.stage id = .live ∧ x.after.here.stage id ≠ .live := by
  unfold Claims
  rw [stage_eq_live_iff, Ne, stage_eq_live_iff]

/-- Whether an action is the end of the recording of a request. -/
def Action.ends (id : RequestId) : Action γ → Bool
  | .run (.write other) => other = id
  | _ => false

theorem Action.ends_iff (id : RequestId) (a : Action γ) :
    a.ends id = true ↔ a = .run (.write id) := by
  unfold Action.ends
  split <;> simp_all

variable [DecidableEq γ]

/-- What a run does with one request. -/
structure Settlement (steps : List (Step γ)) (s : State γ) (id : RequestId) : Prop where
  /-- It is sent once at most. -/
  sentOnce : ∀ x ∈ steps, ∀ y ∈ steps, ∀ request other, Sends request x → Sends other y →
    request.id = id → other.id = id → x = y
  /-- One step at most claims it. -/
  claimedOnce : steps.countP (fun x => Claims id x) ≤ 1
  /-- An accept, a reject, its timer or the shutdown claims it. -/
  claimedBy : ∀ x ∈ steps, Claims id x → (∃ call, x.action = .accept call id) ∨
    x.action = .reject id ∨ x.action = .run (.timer id) ∨ x.action = .shutDown
  /-- Once it is claimed it is not found, and to ask for it changes nothing. -/
  notFound : ∀ earlier x later, steps = earlier ++ x :: later → Claims id x → ∀ y ∈ later,
    (∀ call, y.action = .accept call id →
      y.after = y.before ∧ y.events = [.accepted call (.error (notLive id))]) ∧
    (y.action = .reject id → y.after = y.before ∧ y.events = [.rejected (.error (notLive id))])
  /-- Its state leaves pending once at most. -/
  settledOnce : steps.countP (fun x =>
    x.before.here.stateOf id = .pending ∧ x.after.here.stateOf id ≠ .pending) ≤ 1
  /-- A state that is not pending never changes. -/
  settledStays : ∀ x ∈ steps, x.before.here.stateOf id ≠ .pending →
    s.here.stateOf id = x.before.here.stateOf id
  /-- Its pairing is recorded once at most. -/
  recordedOnce : steps.countP (·.action.ends id) ≤ 1
  /-- It is recorded after an accept claimed the request, for the requester and the target
  with which it was sent, and the answer of the store settles the request. -/
  recorded : ∀ earlier x later, steps = earlier ++ x :: later → x.action = .run (.write id) →
    (∃ y ∈ earlier, Claims id y ∧ ∃ call, y.action = .accept call id) ∧
    ∃ request, request.id = id ∧ (∃ y ∈ earlier, Sends request y) ∧ ∃ r,
      x.before.store.record request.requester.id request.target.id = (x.after.store, r) ∧
      s.here.stateOf id = stateAfter r
  /-- Nothing else in a run touches the store, but that it changes by itself. -/
  storeKept : ∀ x ∈ steps, x.after.store = x.before.store ∨ x.action.changesStore ∨
    ∃ other, x.action = .run (.write other)
  /-- An accept that claims it waits for the recording. -/
  acceptWaits : ∀ x ∈ steps, ∀ call, x.action = .accept call id → Claims id x →
    x.events = [] ∧ (call, .recording id) ∈ x.after.waiting
  /-- Who waits for the recording claimed the request, and returns it if and only if it is
  accepted. -/
  acceptReturns : ∀ earlier x later, steps = earlier ++ x :: later → ∀ call,
    x.action = .run (.call call) → x.before.waiting.lookup call = some (.recording id) →
    (∃ y ∈ earlier, Claims id y ∧ y.action = .accept call id) ∧
    ∃ result, x.events = [.accepted call result] ∧
      (result.isOk = true ↔ s.here.stateOf id = .accepted) ∧ s.here.stateOf id ≠ .pending

/-! ### One step -/

variable {s t : State γ} {a : Action γ} {events : List (Event γ)}

theorem step_accept_of_not_live {id : RequestId} (hl : id ∉ s.here.liveIds) {call : γ}
    (h : s.step (.accept call id) = some (t, events)) :
    t = s ∧ events = [.accepted call (.error (notLive id))] := by
  simp only [State.step, beginAccept_of_not_live hl] at h
  obtain ⟨rfl, rfl⟩ := Prod.mk.inj (Option.some.inj h)
  exact ⟨rfl, rfl⟩

theorem step_reject_of_not_live {id : RequestId} (hl : id ∉ s.here.liveIds)
    (h : s.step (.reject id) = some (t, events)) :
    t = s ∧ events = [.rejected (.error (notLive id))] := by
  simp only [State.step, reject_of_not_live hl] at h
  obtain ⟨rfl, rfl⟩ := Prod.mk.inj (Option.some.inj h)
  exact ⟨rfl, rfl⟩

/-- The end of a recording settles the request by the answer of the store. -/
theorem Effect.write_eq (S : s.here.Sound) {id : RequestId}
    (E : Effect s (.run (.write id)) t events) :
    s.here.stage id = .recording ∧ ∃ request ∈ s.here.requests, request.id = id ∧ ∃ r,
      s.store.record request.requester.id request.target.id = (t.store, r) ∧
      t.here.stage id = .ended r := by
  cases E with
  | write h =>
    obtain ⟨w, hw, hid, hstage, r, hrec, M⟩ := endWrite_moves S h
    exact ⟨hstage, w.request, mem_requests.mpr (Or.inr ⟨w, hw, rfl⟩), hid, r, hrec, M.moved⟩
  | other _ _ _ _ _ ha => exact absurd trivial ha

theorem Effect.store_eq (E : Effect s a t events) :
    t.store = s.store ∨ a.changesStore ∨ ∃ id, a = .run (.write id) := by
  cases E with
  | write => exact Or.inr (Or.inr ⟨_, rfl⟩)
  | other _ h => exact h.imp_right Or.inl
  | _ => exact Or.inl rfl

/-- An accept that claims its request waits for the recording. -/
theorem Effect.accept_eq {call : γ} {id : RequestId} (E : Effect s (.accept call id) t events)
    (hl : id ∈ s.here.liveIds) (hl' : id ∉ t.here.liveIds) :
    events = [] ∧ (call, Waiting.recording id) ∈ t.waiting := by
  cases E with
  | accept h => exact ⟨rfl, List.mem_append_right _ (List.mem_singleton.mpr rfl)⟩
  | other K => rw [liveIds, K.values] at hl'; exact absurd hl hl'

/-- A call that waits for a recording returns what became of it. -/
theorem step_return {call : γ} {id : RequestId} (S : s.here.Sound)
    (hw : s.waiting.lookup call = some (.recording id))
    (h : s.step (.run (.call call)) = some (t, events)) :
    ∃ result, events = [.accepted call result] ∧
      (result.isOk = true ↔ s.here.stateOf id = .accepted) ∧ s.here.stateOf id ≠ .pending := by
  simp only [State.step, State.runTask?, State.runCall?, hw, Option.bind_eq_bind,
    Option.bind_some] at h
  obtain ⟨result, hr, h⟩ := Option.bind_eq_some_iff.mp h
  obtain ⟨-, rfl⟩ := Prod.mk.inj (Option.some.inj h)
  obtain ⟨r, hstage, hok⟩ := accepted_some S hr
  refine ⟨_, rfl, ?_, ?_⟩
  · rw [← hok]; cases result <;> simp [Except.map, Except.isOk, Except.toBool]
  · rw [S.stateOf_eq, hstage]; exact Stage.stateAfter_ne_pending r

/-! ### Runs from a start -/

variable {ttl : Nat} {clock : Clock} {store : PairingStore} {steps : List (Step γ)}

/-- A recording that goes on was begun by an accept that claimed its request. -/
theorem claimed_of_recording (h : (machine γ).History (.fresh ttl clock store) s steps)
    {id : RequestId} (hr : s.here.stage id = .recording) :
    ∃ x ∈ steps, Claims id x ∧ ∃ call, x.action = .accept call id := by
  induction h with
  | start => cases hr
  | @step u t steps a events hs hstep ih =>
    have S := (sound_of_history hs (fresh_sound ttl clock store)).here
    rcases (effect_of_step hstep).way S id with hk | hway
    · obtain ⟨x, hx, hc⟩ := ih (hk ▸ hr)
      exact ⟨x, List.mem_append_left _ hx, hc⟩
    · refine ⟨_, List.mem_append_right _ (List.mem_singleton.mpr rfl), ?_⟩
      rw [claims_iff, hr]
      rw [hr] at hway
      generalize u.here.stage id = old at hway ⊢
      unfold Action.op? at hway
      split at hway <;> cases hway
      exact ⟨⟨rfl, by simp⟩, _, rfl⟩

theorem claimed_of_waiting (h : (machine γ).History (.fresh ttl clock store) s steps)
    {call : γ} {id : RequestId} (hw : (call, Waiting.recording id) ∈ s.waiting) :
    ∃ x ∈ steps, Claims id x ∧ x.action = .accept call id := by
  induction h with
  | start => cases hw
  | step hs hstep ih =>
    have S := (sound_of_history hs (fresh_sound ttl clock store)).here
    rcases (effect_of_step hstep).waits hw with hw | ⟨rfl, hacc⟩
    · obtain ⟨x, hx, hc⟩ := ih hw
      exact ⟨x, List.mem_append_left _ hx, hc⟩
    · refine ⟨_, List.mem_append_right _ (List.mem_singleton.mpr rfl), ?_, rfl⟩
      rw [claims_iff, (beginAccept_moves S hacc).moved]
      exact ⟨stage_of_live (live_of_beginAccept hacc), by simp⟩

/-! ### The settlement -/

section
variable (h : (machine γ).History (.fresh ttl clock store) s steps) (id : RequestId)
include h

theorem claims_once : steps.countP (fun x => Claims id x) ≤ 1 := by
  refine h.countP_le_one (fun u => u.here.stage id ≠ .unsent ∧ u.here.stage id ≠ .live)
    (fun x hx hp => ?_) fun x hx hspent => ?_
  · obtain ⟨-, -, -, L, -⟩ := of_step_mem h hx
    obtain ⟨hb, ha⟩ := (claims_iff id x).mp (of_decide_eq_true hp)
    have hle := L id
    rw [hb] at hle ⊢
    exact ⟨by simp, hle, ha⟩
  · obtain ⟨-, -, -, L, -⟩ := of_step_mem h hx
    exact (L id).claimed hspent.1 hspent.2

theorem claims_cases {x : Step γ} (hx : x ∈ steps) (hc : Claims id x) :
    (∃ call, x.action = .accept call id) ∨ x.action = .reject id ∨ x.action = .run (.timer id) ∨
      x.action = .shutDown := by
  obtain ⟨S, E, -⟩ := of_step_mem h hx
  obtain ⟨hb, ha⟩ := (claims_iff id x).mp hc
  rcases E.way S.here id with hk | hway
  · exact absurd (hk.trans hb) ha
  · rw [hb] at hway
    generalize x.after.here.stage id = new at hway
    unfold Action.op? at hway
    split at hway <;> cases hway <;> simp_all

theorem not_found_after_claim {earlier later : List (Step γ)} {x y : Step γ}
    (hs : steps = earlier ++ x :: later) (hc : Claims id x) (hy : y ∈ later) :
    (∀ call, y.action = .accept call id →
      y.after = y.before ∧ y.events = [.accepted call (.error (notLive id))]) ∧
    (y.action = .reject id →
      y.after = y.before ∧ y.events = [.rejected (.error (notLive id))]) := by
  obtain ⟨-, -, S', L, -⟩ := of_step_mem h (x := x) (by simp [hs])
  obtain ⟨hb, ha⟩ := (claims_iff id x).mp hc
  have hle := L id
  rw [hb] at hle
  subst hs
  obtain ⟨_, -, h2⟩ := h.split
  obtain ⟨-, -, h3⟩ := h2.head
  obtain ⟨_, _, -, hbetween, hy, -⟩ := h3.of_mem hy
  have hnl : id ∉ y.before.here.liveIds := fun hl =>
    ((later_of_history hbetween S' id).claimed hle ha).2 (stage_of_live hl)
  refine ⟨fun call hcall => ?_, fun hrej => ?_⟩
  · rw [hcall] at hy; exact step_accept_of_not_live hnl hy
  · rw [hrej] at hy; exact step_reject_of_not_live hnl hy

theorem leaves_pending_once : steps.countP (fun x =>
    x.before.here.stateOf id = .pending ∧ x.after.here.stateOf id ≠ .pending) ≤ 1 := by
  refine h.countP_le_one (fun u => u.here.stateOf id ≠ .pending)
    (fun x hx hp => ?_) fun x hx hspent => ?_
  · obtain ⟨hb, ha⟩ := of_decide_eq_true hp
    exact ⟨by simp [hb], ha⟩
  · obtain ⟨S, -, S', L, -⟩ := of_step_mem h hx
    rwa [L.stateOf_eq S.here S'.here hspent]

theorem settled_stays {x : Step γ} (hx : x ∈ steps) (hp : x.before.here.stateOf id ≠ .pending) :
    s.here.stateOf id = x.before.here.stateOf id := by
  obtain ⟨S, -, -, L, L'⟩ := of_step_mem h hx
  exact (L.trans L').stateOf_eq S.here (sound_of_history h (fresh_sound ttl clock store)).here hp

theorem ends_once : steps.countP (·.action.ends id) ≤ 1 := by
  refine h.countP_le_one (fun u => ∃ r, u.here.stage id = .ended r)
    (fun x hx hp => ?_) fun x hx hspent => ?_
  · obtain ⟨S, E, -⟩ := of_step_mem h hx
    rw [(Action.ends_iff id x.action).mp hp] at E
    obtain ⟨hstage, _, -, -, r, -, hended⟩ := E.write_eq S.here
    exact ⟨by simp [hstage], r, hended⟩
  · obtain ⟨-, -, -, L, -⟩ := of_step_mem h hx
    obtain ⟨r, hr⟩ := hspent
    have hle := L id
    rw [hr] at hle
    exact ⟨r, hle⟩

theorem recorded_for_request {earlier later : List (Step γ)} {x : Step γ}
    (hs : steps = earlier ++ x :: later) (hx : x.action = .run (.write id)) :
    (∃ y ∈ earlier, Claims id y ∧ ∃ call, y.action = .accept call id) ∧
    ∃ request, request.id = id ∧ (∃ y ∈ earlier, Sends request y) ∧ ∃ r,
      x.before.store.record request.requester.id request.target.id = (x.after.store, r) ∧
      s.here.stateOf id = stateAfter r := by
  obtain ⟨S, E, -, -, L⟩ := of_step_mem h (x := x) (by simp [hs])
  subst hs
  obtain ⟨_, h1, h2⟩ := h.split
  obtain ⟨rfl, -, -⟩ := h2.head
  rw [hx] at E
  obtain ⟨hstage, request, hr, hid, r, hrec, hended⟩ := E.write_eq S.here
  have hstate := L id
  rw [hended] at hstate
  refine ⟨claimed_of_recording h1 hstage, request, hid, sent_of_history h1 hr, r, hrec, ?_⟩
  rw [(sound_of_history h (fresh_sound ttl clock store)).here.stateOf_eq,
    show s.here.stage id = .ended r from hstate]
  rfl

theorem accept_returns {earlier later : List (Step γ)} {x : Step γ}
    (hs : steps = earlier ++ x :: later) {call : γ} (hx : x.action = .run (.call call))
    (hw : x.before.waiting.lookup call = some (.recording id)) :
    (∃ y ∈ earlier, Claims id y ∧ y.action = .accept call id) ∧
    ∃ result, x.events = [.accepted call result] ∧
      (result.isOk = true ↔ s.here.stateOf id = .accepted) ∧ s.here.stateOf id ≠ .pending := by
  have hmem : x ∈ steps := by simp [hs]
  obtain ⟨S, -, -⟩ := of_step_mem h hmem
  have hstays := settled_stays h id hmem
  subst hs
  obtain ⟨_, h1, h2⟩ := h.split
  obtain ⟨rfl, hstep, -⟩ := h2.head
  rw [hx] at hstep
  obtain ⟨result, hev, hok, hp⟩ := step_return S.here hw hstep
  rw [hstays hp]
  exact ⟨claimed_of_waiting h1 (Keyed.mem_of_lookup hw), result, hev, hok, hp⟩

end

/-- **In every run each request is settled once, by whoever claimed it.** -/
theorem settlement_of_history (h : (machine γ).History (.fresh ttl clock store) s steps)
    (id : RequestId) : Settlement steps s id where
  sentOnce _ hx _ hy _ _ hr ho hid hid' := sends_unique h hx hy hr ho (hid.trans hid'.symm)
  claimedOnce := claims_once h id
  claimedBy _ hx hc := claims_cases h id hx hc
  notFound _ _ _ hs hc _ hy := not_found_after_claim h id hs hc hy
  settledOnce := leaves_pending_once h id
  settledStays _ hx hp := settled_stays h id hx hp
  recordedOnce := ends_once h id
  recorded _ _ _ hs hx := recorded_for_request h id hs hx
  storeKept _ hx := (of_step_mem h hx).2.1.store_eq
  acceptWaits x hx call hcall hc := by
    obtain ⟨-, E, -⟩ := of_step_mem h hx
    rw [hcall] at E
    exact E.accept_eq hc.1 hc.2
  acceptReturns _ _ _ hs _ hx hw := accept_returns h id hs hx hw

/-- An accept that is dropped while the pairing is recorded. -/
theorem settlement_of_dropped_accept : ∃ (s : State Nat) (steps : List (Step Nat)),
    (machine Nat).History (.fresh 60000 {} {}) s steps ∧
      steps.map (·.action) =
        [.send ⟨7⟩ alice phone, .accept 0 ⟨7⟩, .drop 0, .run (.write ⟨7⟩)] ∧
      s.here.stateOf ⟨7⟩ = .accepted ∧ Settlement steps s ⟨7⟩ := by
  have h1 : (machine Nat).History (.fresh 60000 {} {}) _ [] := .start
  have h2 := h1.step (a := .send ⟨7⟩ alice phone) rfl
  have h3 := h2.step (a := .accept 0 ⟨7⟩) rfl
  have h4 := h3.step (a := .drop 0) rfl
  have h5 := h4.step (a := .run (.write ⟨7⟩)) rfl
  exact ⟨_, _, h5, rfl, rfl, settlement_of_history h5 _⟩

end Coordinator
end DeviceRelay

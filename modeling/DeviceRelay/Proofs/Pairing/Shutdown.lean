/-
# After the shutdown only recordings end

The shutdown stops the timers, rejects what is live and cancels those who wait, while
accepts may have their pairings recorded and listings may be suspended. Whatever comes
after it, another shutdown among it, finds nothing live, no timer and nobody who waits. No
request is sent, found, claimed or listed any more. A listing that had no reply is
cancelled. The one thing that still happens to a request is that its recording ends, if an
accept had claimed it before.

Key definitions: `Coordinator.Down`, `Coordinator.Unresolved`, `Coordinator.Closure`.
Key theorems: `Coordinator.closure_of_history`.
-/
import DeviceRelay.Proofs.Pairing.Listings
import DeviceRelay.Proofs.Pairing.Settlement

namespace DeviceRelay
namespace Coordinator

variable {γ : Type}

/-- A coordinator that was shut down: nothing is live, no timer is stored and nobody waits. -/
structure Down (c : Coordinator γ) : Prop where
  live : c.live.registry.values = []
  timers : c.timers = []
  shut : c.live.Shut

theorem Sound.down {c : Coordinator γ} (S : c.Sound) (h : c.live.Shut) : c.Down where
  live := List.map_eq_nil_iff.mp (S.shut h.closed)
  timers := by
    have hnone : c.timerIds = [] := List.eq_nil_iff_forall_not_mem.mpr fun id hid => by
      have hlive := (S.timed id).mp hid
      rw [S.shut h.closed] at hlive
      cases hlive
    exact List.map_eq_nil_iff.mp hnone
  shut := h

namespace Down

variable {c : Coordinator γ} (D : c.Down)
include D

theorem not_live (id : RequestId) : id ∉ c.liveIds := by
  rw [liveIds, D.live]
  exact List.not_mem_nil

theorem send_eq (clock : Clock) (id : RequestId) {p q : Principal} (hp : p.isDevice = false)
    (hq : q.isDevice = true) : c.send clock id p q = .error .cancelled := by
  have hrefused : c.refusal? p q = some .cancelled := by simp [refusal?, hp, hq, D.shut.closed]
  rw [send, hrefused]

theorem get_eq (id : RequestId) : c.get id = .error (notLive id) := by
  rw [get, Registry.get?, D.live]
  rfl

theorem beginListing_eq (now : Nat) (call : γ) (target : PrincipalId) (timeout : Nat) :
    c.beginListing now call target timeout = (c, some .cancelled) := by
  simp only [beginListing, Rendezvous.beginListing, D.shut.closed, ↓reduceIte]

theorem expire_eq (now : Nat) (id : RequestId) : c.expire? now id = none := by
  rw [expire?, D.timers]
  rfl

theorem shutDown_eq : c.shutDown = c := by
  obtain ⟨hvalues, htimers, hclosed, hkeyed, hglobal, hwaits⟩ := D
  obtain ⟨ttl, ⟨⟨values, keyed, global, next, closed⟩, waits, replies⟩, states, timers, writes⟩ := c
  subst hvalues htimers hclosed hkeyed hglobal hwaits
  simp [shutDown, Rendezvous.close, Registry.close]

end Down

variable [DecidableEq γ]

/-- A listing that waits and has no reply. -/
structure Unresolved (s : State γ) (call : γ) : Prop where
  waits : s.waiting.lookup call = some .listing
  unreplied : s.here.live.replies.lookup call = none

/-- What the shutdown `x` and the steps after it leave. -/
structure Closure (earlier : List (Step γ)) (x : Step γ) (later : List (Step γ)) (s : State γ) :
    Prop where
  /-- Nothing is live, no timer is stored and nobody waits. -/
  down : s.here.Down
  /-- What was live is rejected. -/
  rejected : ∀ id ∈ x.before.here.liveIds, s.here.stateOf id = .rejected
  /-- A listing that was not resolved is cancelled as soon as it runs. -/
  cancels : ∀ call, Unresolved x.before call → (∀ y ∈ later, y.action.leaves call = false) →
    (s.step (.run (.call call))).map (·.2) = some [.listed call (.error .cancelled)]
  cancelled : ∀ call, Unresolved x.before call → ∀ l y l', later = l ++ y :: l' →
    (∀ z ∈ l, z.action.leaves call = false) → y.action = .run (.call call) →
    y.events = [.listed call (.error .cancelled)]
  /-- It has returned or was dropped when nothing is left that can run. -/
  prompt : ∀ call, Unresolved x.before call → (machine γ).ready s = none →
    ∃ y ∈ later, y.action.leaves call = true
  /-- A request between the right parties is cancelled, and nothing is created. -/
  sends : ∀ id p q, s.here.states.lookup id = none → p.isDevice = false → q.isDevice = true →
    s.step (.send id p q) = some (s, [.sent (.error .cancelled)])
  /-- A listing is cancelled at once. -/
  lists : ∀ call target timeout,
    s.step (.list call target timeout) = some (s, [.listed call (.error .cancelled)])
  /-- No request is found. -/
  accepts : ∀ call id, s.step (.accept call id) = some (s, [.accepted call (.error (notLive id))])
  rejects : ∀ id, s.step (.reject id) = some (s, [.rejected (.error (notLive id))])
  gets : ∀ id, s.step (.get id) = some (s, [.got (.error (notLive id))])
  /-- No timer fires. -/
  expires : ∀ id, s.step (.run (.timer id)) = none
  /-- To shut down again changes nothing. -/
  again : s.step .shutDown = some (s, [])
  /-- A state changes only at the end of a recording that an accept began before the shutdown,
  and the answer of the store is how the request ends. -/
  changes : ∀ l y l', later = l ++ y :: l' →
    ∀ id, y.after.here.stateOf id ≠ y.before.here.stateOf id →
    y.action = .run (.write id) ∧
    (∃ z ∈ earlier, Claims id z ∧ ∃ call, z.action = .accept call id) ∧
    ∃ request, request.id = id ∧ (∃ z ∈ earlier, Sends request z) ∧ ∃ r,
      y.before.store.record request.requester.id request.target.id = (y.after.store, r) ∧
      s.here.stateOf id = stateAfter r
  /-- A recording that went on at the shutdown goes on until it ends. -/
  recording : ∀ id, Task.write id ∈ x.before.tasks → (∀ y ∈ later, y.action ≠ .run (.write id)) →
    Task.write id ∈ s.tasks ∧ s.here.stateOf id = .pending

/-! ### One step -/

variable {s t : State γ} {a : Action γ} {events : List (Event γ)}

/-- A request whose state changes was sent, claimed, or its recording ended. -/
theorem Effect.way_of_state (E : Effect s a t events) (S : s.Sound) {id : RequestId}
    (h : t.here.stateOf id ≠ s.here.stateOf id) :
    Way id (s.here.stage id) a.op? (t.here.stage id) := by
  refine (E.way S.here id).resolve_left fun hsame => h ?_
  rw [(E.state_sound S).here.stateOf_eq, S.here.stateOf_eq, hsame]

omit [DecidableEq γ] in
theorem Action.eq_write {a : Action γ} {id : RequestId} (h : a.op? = some (.write id)) :
    a = .run (.write id) := by
  unfold Action.op? at h
  split at h <;> simp_all

theorem Effect.recording (E : Effect s a t events) (S : s.Sound) {id : RequestId}
    (h : s.here.stage id = .recording) (ha : a ≠ .run (.write id)) :
    t.here.stage id = .recording := by
  rcases E.way S.here id with hsame | hway
  · rw [hsame, h]
  · rw [h] at hway
    generalize hop : a.op? = op, t.here.stage id = new at hway
    cases hway with
    | write r => exact absurd (Action.eq_write hop) ha

theorem step_listed {call : γ} (hw : s.waiting.lookup call = some .listing)
    (hr : s.here.live.replies.lookup call = some .cancelled) :
    ∃ t, s.step (.run (.call call)) = some (t, [.listed call (.error .cancelled)]) := by
  have hresume : s.here.resumeListing? s.clock.now call =
      some ({ s.here with live := s.here.live.abandon call }, .cancelled) := by
    simp [resumeListing?, Rendezvous.resume?, Rendezvous.outcome?, hr, Outcome.map]
  refine ⟨{ s with here := { s.here with live := s.here.live.abandon call } }.finish call, ?_⟩
  simp only [State.step, State.runTask?, State.runCall?, hw, hresume, Option.bind_eq_bind,
    Option.bind_some]
  rfl

/-! ### The steps after the shutdown -/

section
variable {ttl : Nat} {clock : Clock} {store : PairingStore} {earlier later : List (Step γ)}
  {x : Step γ} (h : (machine γ).History (.fresh ttl clock store) s (earlier ++ x :: later))
  (hx : x.action = .shutDown)
include h hx

theorem after_shutDown : x.after = { x.before with here := x.before.here.shutDown } := by
  obtain ⟨-, -, -, -, hstep, -⟩ := h.of_mem (x := x) (by simp)
  rw [hx] at hstep
  exact (Prod.mk.inj (Option.some.inj hstep)).1.symm

/-- **Whatever comes after the shutdown, nothing is live, timed or waits.** -/
theorem down_of_history : s.here.Down := by
  refine (sound_of_history h (fresh_sound ttl clock store)).here.down ?_
  have hafter := after_shutDown h hx
  obtain ⟨_, -, hrest⟩ := h.split
  obtain ⟨-, -, hlater⟩ := hrest.head
  refine hlater.stays (P := fun u => u.here.live.Shut) ?_ fun z hz hshut => ?_
  · obtain ⟨values, hlive⟩ := live_shutDown x.before.here
    rw [hafter, hlive]
    exact Rendezvous.shut_close _
  · obtain ⟨-, -, -, -, hstep, -⟩ := hlater.of_mem hz
    obtain ⟨_, -, M⟩ := meets_of_step hstep
    exact M.shut hshut

omit hx in
/-- The run up to a step after the shutdown, and up to the end of it. -/
theorem history_to_later {l l' : List (Step γ)} {y : Step γ} (hl : later = l ++ y :: l') :
    (machine γ).History (.fresh ttl clock store) y.before (earlier ++ x :: l) ∧
      (machine γ).History (.fresh ttl clock store) y.after (earlier ++ x :: (l ++ [y])) ∧
      y.before.step y.action = some (y.after, y.events) := by
  subst hl
  rw [← List.cons_append, ← List.append_assoc] at h
  obtain ⟨_, hbefore, hrest⟩ := h.split
  obtain ⟨rfl, hstep, -⟩ := hrest.head
  refine ⟨hbefore, ?_, hstep⟩
  rw [← List.cons_append, ← List.append_assoc]
  exact hbefore.step hstep

theorem down_of_later {y : Step γ} (hy : y ∈ later) : y.before.here.Down ∧ y.after.here.Down := by
  obtain ⟨l, l', hl⟩ := List.append_of_mem hy
  obtain ⟨hbefore, hafter, -⟩ := history_to_later h hl
  exact ⟨down_of_history hbefore hx, down_of_history hafter hx⟩

/-- What was claimed by an accept was claimed before the shutdown. -/
theorem claimed_before {id : RequestId} {z : Step γ} (hz : z ∈ earlier ++ x :: later)
    (hc : Claims id z) {call : γ} (hcall : z.action = .accept call id) : z ∈ earlier := by
  rcases List.mem_append.mp hz with hz | hz
  · exact hz
  · rcases List.mem_cons.mp hz with rfl | hz
    · rw [hx] at hcall
      cases hcall
    · exact absurd hc.1 ((down_of_later h hx hz).1.not_live id)

theorem sent_before {request : PairingRequest} {z : Step γ} (hz : z ∈ earlier ++ x :: later)
    (hsent : Sends request z) : z ∈ earlier := by
  rcases List.mem_append.mp hz with hz' | hz'
  · exact hz'
  · rcases List.mem_cons.mp hz' with rfl | hz'
    · exact absurd (hx.symm.trans hsent.1) (by simp)
    · obtain ⟨S, -⟩ := of_step_mem h hz
      obtain ⟨-, -, -, -, hstep, -⟩ := h.of_mem hz
      have hlive := (stage_of_sends S.here hstep hsent).2
      rw [stage_eq_live_iff] at hlive
      exact absurd hlive ((down_of_later h hx hz').2.not_live _)

/-- A listing without a reply gets one from the shutdown, and keeps it until it leaves. -/
theorem replied_of_history {call : γ} (hu : Unresolved x.before call)
    (hstays : ∀ y ∈ later, y.action.leaves call = false) :
    s.waiting.lookup call = some .listing ∧
      s.here.live.replies.lookup call = some .cancelled := by
  have hafter := after_shutDown h hx
  obtain ⟨_, hbefore, hrest⟩ := h.split
  obtain ⟨rfl, -, hlater⟩ := hrest.head
  have hears := (attended_of_history hbefore).hears call (Keyed.mem_of_lookup hu.waits)
  obtain ⟨values, hlive⟩ := live_shutDown x.before.here
  refine (hlater.stays (P := fun u => u.here.live.Shut ∧ u.waiting.lookup call = some .listing ∧
    u.here.live.replies.lookup call = some .cancelled) ?_ fun z hz hold => ?_).2
  · rw [hafter, hlive]
    exact ⟨Rendezvous.shut_close _, hu.waits,
      Rendezvous.lookup_replies_close (r := x.before.here.live.withValues values) hears
        hu.unreplied⟩
  · obtain ⟨hshut, hw, hr⟩ := hold
    obtain ⟨-, -, -, -, hstep, -⟩ := hlater.of_mem hz
    obtain ⟨new, W, M⟩ := meets_of_step hstep
    exact ⟨M.shut hshut, W.lookup (hstays z hz) hw,
      (M.lookup_of_shut hshut (hstays z hz)).trans hr⟩

theorem left_of_ready_none {call : γ} (hu : Unresolved x.before call)
    (hready : (machine γ).ready s = none) : ∃ y ∈ later, y.action.leaves call = true := by
  by_contra hnone
  have hstays : ∀ y ∈ later, y.action.leaves call = false := fun y hy =>
    Bool.not_eq_true _ ▸ fun hleaves => hnone ⟨y, hy, hleaves⟩
  obtain ⟨hw, hr⟩ := replied_of_history h hx hu hstays
  obtain ⟨t, hstep⟩ := step_listed hw hr
  have htask := (attended_of_history h).runs _ (Keyed.mem_of_lookup hw)
  have hcannot := List.find?_eq_none.mp (Option.map_eq_none_iff.mp hready) _ htask
  rw [State.step] at hstep
  simp [hstep] at hcannot

theorem rejected_of_shutDown {id : RequestId} (hid : id ∈ x.before.here.liveIds) :
    s.here.stateOf id = .rejected := by
  have S := (sound_of_history h (fresh_sound ttl clock store)).here
  obtain ⟨Sx, -, -, -, L⟩ := of_step_mem h (x := x) (by simp)
  have hle := L id
  rw [after_shutDown h hx, stage_shutDown Sx.here, if_pos hid] at hle
  rw [S.stateOf_eq, show s.here.stage id = .rejected from hle]
  rfl

/-- **After the shutdown only the end of a recording changes a state.** -/
theorem change_of_later {l l' : List (Step γ)} {y : Step γ} (hl : later = l ++ y :: l')
    {id : RequestId} (hstate : y.after.here.stateOf id ≠ y.before.here.stateOf id) :
    y.action = .run (.write id) ∧
    (∃ z ∈ earlier, Claims id z ∧ ∃ call, z.action = .accept call id) ∧
    ∃ request, request.id = id ∧ (∃ z ∈ earlier, Sends request z) ∧ ∃ r,
      y.before.store.record request.requester.id request.target.id = (y.after.store, r) ∧
      s.here.stateOf id = stateAfter r := by
  have hmem : y ∈ later := by simp [hl]
  obtain ⟨hbefore, -, -⟩ := history_to_later h hl
  obtain ⟨D, D'⟩ := down_of_later h hx hmem
  obtain ⟨S, E, -⟩ := of_step_mem h (x := y) (by simp [hmem])
  have haction : y.action = .run (.write id) := by
    have hway := E.way_of_state S hstate
    have hold := mt (stage_eq_live_iff y.before.here id).mp (D.not_live id)
    have hnew := mt (stage_eq_live_iff y.after.here id).mp (D'.not_live id)
    generalize hop : y.action.op? = op, y.before.here.stage id = old,
      y.after.here.stage id = new at hway hold hnew
    cases hway with
    | write r => exact Action.eq_write hop
    | send => exact absurd rfl hnew
    | accept | reject | expire | shutDown => exact absurd rfl hold
  have hsteps : earlier ++ x :: later = (earlier ++ x :: l) ++ y :: l' := by simp [hl]
  obtain ⟨⟨z, hz, hc, call, hcall⟩, request, hid, ⟨w, hw, hsent⟩, r, hrecord, hend⟩ :=
    recorded_for_request h id hsteps haction
  exact ⟨haction, ⟨z, claimed_before hbefore hx hz hc hcall, hc, call, hcall⟩, request, hid,
    ⟨w, sent_before hbefore hx hw hsent, hsent⟩, r, hrecord, hend⟩

theorem recording_of_later {id : RequestId} (htask : Task.write id ∈ x.before.tasks)
    (hgoes : ∀ y ∈ later, y.action ≠ .run (.write id)) :
    Task.write id ∈ s.tasks ∧ s.here.stateOf id = .pending := by
  have S := sound_of_history h (fresh_sound ttl clock store)
  obtain ⟨Sx, -⟩ := of_step_mem h (x := x) (by simp)
  have hstage : s.here.stage id = .recording := by
    obtain ⟨_, hbefore, hrest⟩ := h.split
    obtain ⟨rfl, -, -⟩ := hrest.head
    refine hrest.stays (P := fun u => u.here.stage id = .recording) ((Sx.writes id).mp htask)
      fun z hz hr => ?_
    obtain ⟨Sz, E, -⟩ := of_step_mem h (List.mem_append_right _ hz)
    refine E.recording Sz hr ?_
    rcases List.mem_cons.mp hz with rfl | hz
    · rw [hx]
      simp
    · exact hgoes z hz
  refine ⟨(S.writes id).mpr hstage, ?_⟩
  rw [S.here.stateOf_eq, hstage]
  rfl

/-- **Whatever comes after the shutdown, the coordinator stays closed**, and only what an
accept had claimed before is still settled. -/
theorem closure_of_history : Closure earlier x later s := by
  have D := down_of_history h hx
  constructor
  case down => exact D
  case rejected => exact fun id hid => rejected_of_shutDown h hx hid
  case cancels =>
    intro call hu hstays
    obtain ⟨hw, hr⟩ := replied_of_history h hx hu hstays
    obtain ⟨t, hstep⟩ := step_listed hw hr
    rw [hstep]
    rfl
  case cancelled =>
    intro call hu l y l' hl hstays hy
    obtain ⟨hbefore, -, hstep⟩ := history_to_later h hl
    obtain ⟨hw, hr⟩ := replied_of_history hbefore hx hu hstays
    obtain ⟨t, hlisted⟩ := step_listed hw hr
    rw [hy, hlisted] at hstep
    exact (Prod.mk.inj (Option.some.inj hstep)).2.symm
  case prompt => exact fun call hu hready => left_of_ready_none h hx hu hready
  case sends =>
    intro id p q hnew hp hq
    simp only [State.step, hnew, Option.isSome_none, Bool.false_eq_true, ↓reduceIte,
      D.send_eq s.clock id hp hq]
  case lists =>
    intro call target timeout
    simp only [State.step, D.beginListing_eq]
    rfl
  case accepts =>
    intro call id
    simp only [State.step, beginAccept_of_not_live (D.not_live id)]
  case rejects =>
    intro id
    simp only [State.step, reject_of_not_live (D.not_live id)]
  case gets =>
    intro id
    simp only [State.step, D.get_eq, Except.map]
  case expires =>
    intro id
    simp only [State.step, State.runTask?, D.expire_eq, Option.map_none]
  case again => simp only [State.step, D.shutDown_eq]
  case changes => exact fun l y l' hl id hstate => change_of_later h hx hl hstate
  case recording => exact fun id htask hgoes => recording_of_later h hx htask hgoes

end

/-- A listing waits, one request is live and one is being recorded when it is shut down. -/
theorem closure_of_recording : ∃ (s : State Nat) (earlier later : List (Step Nat)) (x : Step Nat),
    (machine Nat).History (.fresh 60000 {} {}) s (earlier ++ x :: later) ∧
      x.action = .shutDown ∧ x.before.here.liveIds = [⟨8⟩] ∧ Unresolved x.before 0 ∧
      later.map (·.action) = [.run (.write ⟨7⟩), .shutDown, .run (.call 0)] ∧
      s.here.stateOf ⟨7⟩ = .accepted ∧ s.here.stateOf ⟨8⟩ = .rejected ∧
      Closure earlier x later s := by
  have h1 : (machine Nat).History (.fresh 60000 {} {}) _ [] := .start
  have h2 := h1.step (a := .list 0 ⟨9⟩ 5000) rfl
  have h3 := h2.step (a := .send ⟨7⟩ alice phone) rfl
  have h4 := h3.step (a := .send ⟨8⟩ alice phone) rfl
  have h5 := h4.step (a := .accept 1 ⟨7⟩) rfl
  have h6 := (((h5.step (a := .shutDown) rfl).step (a := .run (.write ⟨7⟩)) rfl).step
    (a := .shutDown) rfl).step (a := .run (.call 0)) rfl
  have h7 : (machine Nat).History (.fresh 60000 {} {}) _ ([_, _, _, _] ++ _ :: _) := h6
  exact ⟨_, _, _, _, h7, rfl, rfl, ⟨rfl, rfl⟩, rfl, rfl, rfl, closure_of_history h7 rfl⟩

end Coordinator
end DeviceRelay

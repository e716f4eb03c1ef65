/-
# A run of the coordinator is a run of its registry

Requests and listings meet at the registry of the live requests. To send a request sets it there,
to claim one removes it, and the shutdown removes all of them and closes the registry. A listing
begins there, and when it runs or is dropped, then it does so there. Nothing else touches the
registry. So the steps of a coordinator are, one after the other, the steps of a registry, and
what is known of the runs of a registry holds for those who list requests.

Key definitions: `Coordinator.State.place`, `Coordinator.sent?`, `Coordinator.visits`.
Key theorems: `Coordinator.visits_of_step`, `Coordinator.visits_of_history`.
-/
import DeviceRelay.Proofs.Pairing.Histories
import DeviceRelay.Proofs.Rendezvous.Queries

namespace DeviceRelay
namespace Coordinator

variable {γ : Type}

/-- The registry of the live requests with those who wait there, at the present moment. -/
def State.place (s : State γ) : Rendezvous.State RequestId PairingRequest γ :=
  ⟨s.clock.now, s.here.live⟩

/-- The request that a step sends. -/
def sent? (x : Step γ) : Option PairingRequest :=
  match x.events with
  | [.sent (.ok sighting)] => some sighting.request
  | _ => none

/-- Whether a request is to a device. -/
def addressed (d : PrincipalId) (request : PairingRequest) : Bool := request.target.id = d

variable [DecidableEq γ]

/-- What a step does at the registry. -/
def visits (x : Step γ) : List (Rendezvous.Action RequestId PairingRequest γ) :=
  match x.action with
  | .send .. => (sent? x).toList.map fun request => .set request.id request
  | .accept _ id | .reject id | .run (.timer id) => [.remove id]
  | .list call target timeout => [.list call (x.before.here.concerns target) (some timeout)]
  | .run (.call call) =>
    if x.before.waiting.lookup call = some .listing then [.resume call] else []
  | .drop call => [.drop call]
  | .shutDown => (x.before.here.live.registry.values.map fun e => .remove e.1) ++ [.close]
  | .tick moment => [.tick moment]
  | _ => []

/-- A step of the coordinator as steps of its registry. -/
def Visits (s t : State γ) (actions : List (Rendezvous.Action RequestId PairingRequest γ)) : Prop :=
  ∃ trace, (Rendezvous.machine RequestId PairingRequest γ).History s.place t.place trace ∧
    trace.map (·.action) = actions

variable {s t u : State γ} {x : Step γ} {a : Action γ} {events : List (Event γ)}

theorem Visits.rests (h : t.place = s.place) : Visits s t [] :=
  ⟨[], h ▸ .start, rfl⟩

theorem Visits.one {action : Rendezvous.Action RequestId PairingRequest γ}
    (seen : List (Rendezvous.Event PairingRequest γ))
    (h : s.place.step action = some (t.place, seen)) : Visits s t [action] :=
  ⟨_, .step .start h, rfl⟩

theorem Visits.trans {first second : List (Rendezvous.Action RequestId PairingRequest γ)}
    (h : Visits s t first) (h' : Visits t u second) : Visits s u (first ++ second) := by
  obtain ⟨trace, hfirst, rfl⟩ := h
  obtain ⟨later, hsecond, rfl⟩ := h'
  exact ⟨trace ++ later, hfirst.trans hsecond, List.map_append⟩

omit [DecidableEq γ] in
theorem remove_of_not_live {c : Coordinator γ} {id : RequestId} (h : id ∉ c.liveIds) :
    c.live.remove id = c.live := by
  have hvalues : c.live.registry.values.filter (·.1 ≠ id) = c.live.registry.values := by
    refine List.filter_eq_self.mpr fun e he => ?_
    have hne : e.1 ≠ id := fun heq => h (heq ▸ List.mem_map_of_mem he)
    simpa using hne
  unfold Rendezvous.remove Registry.remove
  rw [hvalues]

/-- A step that removes a request from the registry, if it is there. -/
theorem Visits.removes {id : RequestId} (hnow : t.clock.now = s.clock.now)
    (hlive : t.here.live = s.here.live.remove id) : Visits s t [.remove id] := by
  have hplace : t.place = ⟨s.clock.now, s.here.live.remove id⟩ := by
    rw [State.place, hnow, hlive]
  exact .one [] (by rw [hplace]; rfl)

theorem history_removes (now : Nat) (ids : List RequestId) :
    ∀ r : Rendezvous RequestId PairingRequest γ, ∃ trace,
      (Rendezvous.machine RequestId PairingRequest γ).History ⟨now, r⟩
        ⟨now, ids.foldl Rendezvous.remove r⟩ trace ∧ trace.map (·.action) = ids.map .remove := by
  induction ids with
  | nil => exact fun r => ⟨[], .start, rfl⟩
  | cons id ids ih =>
    intro r
    obtain ⟨trace, h, hactions⟩ := ih (r.remove id)
    have hfirst : (Rendezvous.machine RequestId PairingRequest γ).step ⟨now, r⟩ (.remove id) =
      some (⟨now, r.remove id⟩, []) := rfl
    refine ⟨⟨⟨now, r⟩, .remove id, ⟨now, r.remove id⟩, []⟩ :: trace, ?_, ?_⟩
    · exact (Machine.History.step .start hfirst).trans h
    · rw [List.map_cons, hactions, List.map_cons]

omit [DecidableEq γ] in
/-- The shutdown removes what is live and closes the registry. -/
theorem live_of_shutDown (c : Coordinator γ) :
    c.shutDown.live = (c.liveIds.foldl Rendezvous.remove c.live).close := by
  have hfold (l : List (RequestId × PairingRequest)) : ∀ d : Coordinator γ,
      (l.foldl (fun c (e : RequestId × PairingRequest) =>
        { c.settle e.1 .rejected with live := c.live.remove e.1 }) d).live =
          (l.map (·.1)).foldl Rendezvous.remove d.live := by
    induction l with
    | nil => exact fun _ => rfl
    | cons e l ih => exact fun d => ih { d.settle e.1 .rejected with live := d.live.remove e.1 }
  exact congrArg Rendezvous.close (hfold c.live.registry.values { c with timers := [] })

theorem visits_shutDown (h : t = { s with here := s.here.shutDown }) :
    Visits s t ((s.here.live.registry.values.map fun e => .remove e.1) ++ [.close]) := by
  obtain ⟨trace, hremoves, hactions⟩ := history_removes s.clock.now s.here.liveIds s.here.live
  have hclose : (Rendezvous.machine RequestId PairingRequest γ).step
      ⟨s.clock.now, s.here.liveIds.foldl Rendezvous.remove s.here.live⟩ .close =
        some (t.place, []) := by
    rw [h, State.place, live_of_shutDown]
    rfl
  refine ⟨_, hremoves.step hclose, ?_⟩
  rw [List.map_append, hactions, liveIds, List.map_map]
  rfl

/-- To let a call run that waits for something else leaves the registry alone. -/
theorem visits_of_runCall {call : γ} (h : s.runCall? call = some (t, events)) :
    Visits s t (if s.waiting.lookup call = some .listing then [.resume call] else []) := by
  unfold State.runCall? at h
  obtain ⟨w, hw, h⟩ := Option.bind_eq_some_iff.mp h
  rw [hw]
  cases w with
  | recording id =>
    obtain ⟨result, -, h⟩ := Option.bind_eq_some_iff.mp h
    obtain ⟨rfl, -⟩ := Prod.mk.inj (Option.some.inj h)
    exact .rests rfl
  | listing =>
    obtain ⟨⟨here, outcome⟩, hresume, h⟩ := Option.bind_eq_some_iff.mp h
    obtain ⟨rfl, -⟩ := Prod.mk.inj (Option.some.inj h)
    obtain ⟨⟨live, o⟩, hlive, hresume⟩ := Option.map_eq_some_iff.mp hresume
    obtain ⟨rfl, -⟩ := Prod.mk.inj hresume
    rw [if_pos rfl]
    refine .one [⟨call, o.map fun v => [v]⟩] ?_
    simp only [State.place, Rendezvous.State.step, hlive, Option.map_some]
    rfl
  | settling id due =>
    simp only at h
    split at h
    · obtain ⟨rfl, -⟩ := Prod.mk.inj (Option.some.inj h)
      exact .rests rfl
    · cases h

theorem visits_of_runTask {task : Task γ} (h : s.runTask? task = some (t, events)) :
    Visits s t (visits ⟨s, .run task, t, events⟩) := by
  cases task with
  | timer id =>
    obtain ⟨here, hexpire, h⟩ := Option.map_eq_some_iff.mp h
    obtain ⟨rfl, -⟩ := Prod.mk.inj h
    refine .removes rfl ?_
    unfold expire? at hexpire
    obtain ⟨due, -, hexpire⟩ := Option.bind_eq_some_iff.mp hexpire
    obtain ⟨-, hexpire⟩ := Option.ite_none_right_eq_some.mp hexpire
    simp only [reject_stopTimer] at hexpire
    split at hexpire
    · next hreject =>
      obtain rfl := Option.some.inj hexpire
      rw [(reject_ok hreject).2]
    · next hreject =>
      obtain rfl := Option.some.inj hexpire
      exact (remove_of_not_live (not_live_of_reject hreject)).symm
  | write id =>
    obtain ⟨⟨here, store⟩, hwrite, h⟩ := Option.map_eq_some_iff.mp h
    obtain ⟨rfl, -⟩ := Prod.mk.inj h
    obtain ⟨_, -, -, -, _, -, rfl⟩ := endWrite_some hwrite
    exact .rests rfl
  | call call => exact visits_of_runCall h

/-- How a listing begins. -/
inductive Begins (s : State γ) (call : γ) (d : PrincipalId) (timeout : Nat) (t : State γ)
    (events : List (Event γ)) : Prop where
  | returns (outcome : Outcome (List PairingRequest))
    (found : s.here.live.beginListing s.clock.now call (s.here.concerns d) (some timeout) =
      (t.here.live, some outcome))
    (shown : events = [s.listedEvent call outcome]) (waiting : t.waiting = s.waiting)
    (now : t.clock.now = s.clock.now)
  | waits (found : s.here.live.beginListing s.clock.now call (s.here.concerns d) (some timeout) =
      (t.here.live, none))
    (silent : events = []) (waiting : t.waiting = s.waiting ++ [(call, .listing)])
    (now : t.clock.now = s.clock.now)

theorem begins_of_step {call : γ} {d : PrincipalId} {timeout : Nat}
    (h : s.step (.list call d timeout) = some (t, events)) : Begins s call d timeout t events := by
  simp only [State.step] at h
  cases hfound : s.here.live.beginListing s.clock.now call (s.here.concerns d) (some timeout) with
  | mk live outcome? =>
    have hbegun : s.here.beginListing s.clock.now call d timeout =
        ({ s.here with live }, outcome?) :=
      congrArg (fun found => ({ s.here with live := found.1 }, found.2)) hfound
    rw [hbegun] at h
    cases outcome? with
    | some outcome =>
      obtain ⟨rfl, rfl⟩ := Prod.mk.inj (Option.some.inj h)
      exact .returns outcome hfound rfl rfl rfl
    | none =>
      obtain ⟨rfl, rfl⟩ := Prod.mk.inj (Option.some.inj h)
      exact .waits hfound rfl rfl rfl

/-- **What a step of the coordinator does at its registry.** -/
theorem visits_of_step (h : s.step a = some (t, events)) :
    Visits s t (visits ⟨s, a, t, events⟩) := by
  cases a with
  | send id p q =>
    simp only [State.step] at h
    split at h
    · cases h
    · split at h
      · obtain ⟨rfl, rfl⟩ := Prod.mk.inj (Option.some.inj h)
        exact .rests rfl
      · next hsend =>
        obtain ⟨rfl, rfl⟩ := Prod.mk.inj (Option.some.inj h)
        obtain ⟨-, rfl, rfl⟩ := send_ok hsend
        exact .one [] rfl
  | accept call id =>
    simp only [State.step] at h
    split at h
    · next haccept =>
      obtain ⟨rfl, -⟩ := Prod.mk.inj (Option.some.inj h)
      have hgone : id ∉ s.here.liveIds := fun hlive => by
        obtain ⟨_, hget, hclaim⟩ := claim_of_live hlive
        rw [beginAccept, hclaim] at haccept
        cases haccept
      exact .removes rfl (remove_of_not_live hgone).symm
    · next haccept =>
      obtain ⟨rfl, -⟩ := Prod.mk.inj (Option.some.inj h)
      obtain ⟨_, -, rfl⟩ := beginAccept_ok haccept
      exact .removes rfl rfl
  | reject id =>
    simp only [State.step] at h
    split at h
    · next hreject =>
      obtain ⟨rfl, -⟩ := Prod.mk.inj (Option.some.inj h)
      exact .removes rfl (remove_of_not_live (not_live_of_reject hreject)).symm
    · next hreject =>
      obtain ⟨rfl, -⟩ := Prod.mk.inj (Option.some.inj h)
      obtain ⟨-, rfl⟩ := reject_ok hreject
      exact .removes rfl rfl
  | list call target timeout =>
    refine .one (s.place.begun call (s.here.live.beginListing s.clock.now call
      (s.here.concerns target) (some timeout))).2 ?_
    have hplace : t.place = ⟨s.clock.now, (s.here.live.beginListing s.clock.now call
        (s.here.concerns target) (some timeout)).1⟩ := by
      cases begins_of_step h with
      | returns _ found _ _ now | waits found _ _ now => rw [State.place, now, found]
    rw [hplace]
    rfl
  | watch call id timeout =>
    obtain ⟨rfl, -⟩ := Prod.mk.inj (Option.some.inj h)
    exact .rests rfl
  | run task => exact visits_of_runTask h
  | drop call =>
    obtain ⟨rfl, -⟩ := Prod.mk.inj (Option.some.inj h)
    exact .one [] rfl
  | shutDown =>
    obtain ⟨rfl, -⟩ := Prod.mk.inj (Option.some.inj h)
    exact visits_shutDown rfl
  | link user device =>
    simp only [State.step] at h
    split at h <;> obtain ⟨rfl, -⟩ := Prod.mk.inj (Option.some.inj h) <;> exact .rests rfl
  | tick moment =>
    obtain ⟨hpasses, h⟩ := Option.ite_none_right_eq_some.mp h
    obtain ⟨rfl, -⟩ := Prod.mk.inj (Option.some.inj h)
    exact .one [] (if_pos hpasses)
  | get | setStore | unlink =>
    obtain ⟨rfl, -⟩ := Prod.mk.inj (Option.some.inj h)
    exact .rests rfl

/-- **The run of a coordinator is a run of its registry.** -/
theorem visits_of_history {steps : List (Step γ)} (h : (machine γ).History s t steps) :
    Visits s t (steps.flatMap visits) := by
  induction h with
  | start => exact .rests rfl
  | step hs hstep ih =>
    rw [List.flatMap_append, List.flatMap_singleton]
    exact ih.trans (visits_of_step hstep)

/-! ### Sending -/

omit [DecidableEq γ] in
/-- Of a pending request a device hears just if it is asked for. -/
theorem concerns_of_pending {c : Coordinator γ} {request : PairingRequest}
    (h : c.stateOf request.id = .pending) (d : PrincipalId) :
    c.concerns d request = addressed d request := by
  unfold concerns addressed
  rw [h, decide_eq_true rfl, Bool.and_true]

/-- What a step shows that sends a request, and what is live then. -/
theorem sends_of_step (S : s.here.Sound) {id : RequestId} {p q : Principal} {sighting : Sighting}
    (h : s.step (.send id p q) = some (t, [.sent (.ok sighting)])) :
    sighting = ⟨⟨id, p, q, s.clock.wall⟩, .pending⟩ ∧
      t.here.live.registry.values = s.here.live.registry.values ++ [(id, sighting.request)] := by
  simp only [State.step] at h
  split at h
  · cases h
  · next hnew =>
    have hunsent : s.here.stage id = .unsent :=
      (S.unsent_iff id).mp (Option.not_isSome_iff_eq_none.mp hnew)
    split at h
    · obtain ⟨-, hshown⟩ := Prod.mk.inj (Option.some.inj h)
      cases List.singleton_inj.mp hshown
    · next hsend =>
      obtain ⟨rfl, hshown⟩ := Prod.mk.inj (Option.some.inj h)
      obtain rfl := Except.ok.inj (Event.sent.inj (List.singleton_inj.mp hshown))
      have M := send_moves S hunsent hsend
      have hnot : id ∉ s.here.liveIds := not_live_of_stage hunsent (by simp)
      obtain ⟨-, rfl, rfl⟩ := send_ok hsend
      constructor
      · rw [sight, M.sound.stateOf_eq, M.moved]
        rfl
      · rw [Rendezvous.values_set]
        exact Keyed.put_of_not_mem _ hnot

/-- A step that sends a request tells which, and that it is live from then on. -/
theorem sends_iff (S : x.before.here.Sound)
    (hstep : x.before.step x.action = some (x.after, x.events)) {request : PairingRequest} :
    Sends request x ↔ (∃ id p q, x.action = .send id p q) ∧ sent? x = some request := by
  constructor
  · rintro ⟨hx, hevents⟩
    refine ⟨⟨_, _, _, hx⟩, ?_⟩
    rw [sent?, hevents]
  · rintro ⟨⟨id, p, q, hx⟩, hsent⟩
    unfold sent? at hsent
    split at hsent
    · next sighting hevents =>
      obtain rfl := Option.some.inj hsent
      rw [hx, hevents] at hstep
      obtain ⟨rfl, -⟩ := sends_of_step S hstep
      exact ⟨hx, hevents⟩
    · cases hsent

end Coordinator
end DeviceRelay

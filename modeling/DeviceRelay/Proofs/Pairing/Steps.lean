/-
# What a step of the coordinator does

A step does the operation on the requests that its action names, or it leaves them alone:
it looks, it lists, it lets a call wait or return, or it is refused. A step keeps the
coordinator sound, together with its tasks and with the calls that wait: a live request
has a timer that runs, and a recording goes on as long as its task.

Key definitions: `Coordinator.Effect`, `Coordinator.State.fresh`, `Coordinator.State.Sound`.
Key theorems: `Coordinator.effect_of_step`, `Coordinator.Effect.change`,
`Coordinator.Effect.state_sound`, `Coordinator.Effect.requests`, `Coordinator.Effect.timers`.
-/
import DeviceRelay.Pairing.Runs
import DeviceRelay.Proofs.Pairing.Changes

namespace DeviceRelay
namespace Coordinator

variable {γ : Type}

/-- Whether an action gives the store another behaviour, or other pairings by other means. -/
def Action.changesStore : Action γ → Prop
  | .setStore .. | .link .. | .unlink .. => True
  | _ => False

/-- Whether an action is a timer, the end of a recording or the shutdown. -/
def Action.settles : Action γ → Prop
  | .run (.timer _) | .run (.write _) | .shutDown => True
  | _ => False

/-- A coordinator before anything happened. -/
def State.fresh (ttl : Nat) (clock : Clock) (store : PairingStore) : State γ :=
  { clock, store, here := { ttl } }

/-- What an action does to the requests, if it succeeds. -/
def Action.op? : Action γ → Option Op
  | .send id p q => some (.send id p q)
  | .accept _ id => some (.accept id)
  | .reject id => some (.reject id)
  | .run (.timer id) => some (.expire id)
  | .run (.write id) => some (.write id)
  | .shutDown => some .shutDown
  | _ => none

theorem Action.eq_send {a : Action γ} {id : RequestId} {p q : Principal} (h : a.op? = some (.send id p q)) :
    a = .send id p q := by
  unfold Action.op? at h
  split at h <;> simp_all

/-- What a sound coordinator is, together with its tasks and with the calls that wait: a live
request has a timer that runs, a recording goes on as long as its task, and whoever waits
for a recording waits for one that began. -/
structure State.Sound (s : State γ) : Prop where
  here : s.here.Sound
  timers : ∀ id, s.here.stage id = .live → Task.timer id ∈ s.tasks
  writes : ∀ id, Task.write id ∈ s.tasks ↔ s.here.stage id = .recording
  waits : ∀ w ∈ s.waiting, ∀ id, w.2 = .recording id → Stage.recording.Precedes (s.here.stage id)

theorem State.Sound.of_moves {s t : State γ} (S : s.Sound) {id : RequestId} {new : Stage}
    (M : s.here.Moves t.here id new)
    (timer : new = .live → Task.timer id ∈ t.tasks)
    (timers : ∀ other, other ≠ id → Task.timer other ∈ s.tasks → Task.timer other ∈ t.tasks)
    (write : Task.write id ∈ t.tasks ↔ new = .recording)
    (writes : ∀ other, other ≠ id → (Task.write other ∈ t.tasks ↔ Task.write other ∈ s.tasks))
    (waits : ∀ w ∈ t.waiting, ∀ id, w.2 = .recording id →
      Stage.recording.Precedes (t.here.stage id)) : t.Sound where
  here := M.sound
  timers other h := by
    rw [M.stage_eq] at h
    split_ifs at h with ho
    · rw [ho]; exact timer h
    · exact timers other ho (S.timers other h)
  writes other := by
    rw [M.stage_eq]
    split_ifs with ho
    · rw [ho]; exact write
    · rw [writes other ho, S.writes]
  waits := waits

theorem fresh_sound (ttl : Nat) (clock : Clock) (store : PairingStore) :
    (State.fresh ttl clock store : State γ).Sound := by
  obtain ⟨S, hstage⟩ := new_sound (γ := γ) ttl
  refine ⟨S, fun id h => ?_, fun id => ?_, fun w hw => ?_⟩
  · cases (hstage id).symm.trans h
  · simp [State.fresh, hstage]
  · cases hw

variable [DecidableEq γ]

/-- All that a step can do. -/
inductive Effect (s : State γ) : Action γ → State γ → List (Event γ) → Prop where
  | send {id : RequestId} {p q : Principal} {here : Coordinator γ} {request : PairingRequest} :
    s.here.states.lookup id = none → s.here.send s.clock id p q = .ok (here, request) →
    Effect s (.send id p q) { s with here, tasks := s.tasks ++ [.timer id] }
      [.sent (.ok (here.sight request))]
  | accept {call : γ} {id : RequestId} {here : Coordinator γ} :
    s.here.beginAccept s.store s.clock.now id = .ok here →
    Effect s (.accept call id)
      { s with
        here
        waiting := s.waiting ++ [(call, .recording id)]
        tasks := s.tasks ++ [.call call] ++ [.write id] } []
  | reject {id : RequestId} {here : Coordinator γ} {request : PairingRequest} :
    s.here.reject id = .ok (here, request) →
    Effect s (.reject id) { s with here } [.rejected (.ok (here.sight request))]
  | expire {id : RequestId} {here : Coordinator γ} :
    s.here.expire? s.clock.now id = some here →
    Effect s (.run (.timer id)) { s with here, tasks := s.tasks.filter (· ≠ .timer id) } []
  | write {id : RequestId} {here : Coordinator γ} {store : PairingStore} :
    s.here.endWrite? s.store s.clock.now id = some (here, store) →
    Effect s (.run (.write id))
      { s with here, store, tasks := s.tasks.filter (· ≠ .write id) } []
  | shutDown : Effect s .shutDown { s with here := s.here.shutDown } []
  /-- The rest moves no request and ends no recording. -/
  | other {a : Action γ} {t : State γ} {events : List (Event γ)} :
    s.here.Kept t.here → (t.store = s.store ∨ a.changesStore) →
    (∀ w ∈ t.waiting, w ∈ s.waiting ∨ ∀ id, w.2 ≠ .recording id) →
    (∀ id, Task.timer id ∈ t.tasks ↔ Task.timer id ∈ s.tasks) →
    (∀ id, Task.write id ∈ t.tasks ↔ Task.write id ∈ s.tasks) →
    ¬ a.settles → Effect s a t events

namespace Effect

variable {s t : State γ} {a : Action γ} {events : List (Event γ)}

/-- What changes nothing but the waits and the tasks of calls. -/
theorem of_kept {here : Coordinator γ} (K : s.here.Kept here) {waiting : List (γ × Waiting)}
    {tasks : List (Task γ)} (hw : ∀ w ∈ waiting, w ∈ s.waiting ∨ ∀ id, w.2 ≠ .recording id)
    (ht : ∀ id, Task.timer id ∈ tasks ↔ Task.timer id ∈ s.tasks)
    (hr : ∀ id, Task.write id ∈ tasks ↔ Task.write id ∈ s.tasks)
    (ha : ¬ a.settles) : Effect s a { s with here, waiting, tasks } events :=
  .other K (Or.inl rfl) hw ht hr ha

theorem of_same (ha : ¬ a.settles) : Effect s a s events :=
  of_kept (.refl _) (fun _ => Or.inl) (fun _ => .rfl) (fun _ => .rfl) ha

/-- A call begins to wait, but not for a recording. -/
theorem of_suspend {here : Coordinator γ} (K : s.here.Kept here) {call : γ} {w : Waiting}
    (hw : ∀ id, w ≠ .recording id) (ha : ¬ a.settles) :
    Effect s a ({ s with here }.suspend call w) events := by
  refine of_kept K (fun v hv => ?_) (by simp) (by simp) ha
  rcases List.mem_append.mp hv with hv | hv
  · exact Or.inl hv
  · rw [List.mem_singleton.mp hv]; exact Or.inr hw

theorem of_finish {here : Coordinator γ} (K : s.here.Kept here) {call : γ}
    (ha : ¬ a.settles) : Effect s a ({ s with here }.finish call) events :=
  of_kept K (fun _ hw => Or.inl (List.mem_of_mem_filter hw)) (by simp) (by simp) ha

end Effect

theorem effect_of_runCall {s t : State γ} {call : γ} {events : List (Event γ)}
    (h : s.runCall? call = some (t, events)) : Effect s (.run (.call call)) t events := by
  unfold State.runCall? at h
  obtain ⟨w, hw, h⟩ := Option.bind_eq_some_iff.mp h
  cases w with
  | recording id =>
    obtain ⟨result, -, h⟩ := Option.bind_eq_some_iff.mp h
    obtain ⟨rfl, rfl⟩ := Prod.mk.inj (Option.some.inj h)
    exact .of_finish (.refl _) not_false
  | listing =>
    obtain ⟨⟨here, outcome⟩, hr, h⟩ := Option.bind_eq_some_iff.mp h
    obtain ⟨rfl, rfl⟩ := Prod.mk.inj (Option.some.inj h)
    exact .of_finish (resumeListing_kept hr) not_false
  | settling id due =>
    simp only at h
    split at h
    · obtain ⟨rfl, rfl⟩ := Prod.mk.inj (Option.some.inj h)
      exact .of_finish (.refl _) not_false
    · cases h

theorem effect_of_runTask {s t : State γ} {task : Task γ} {events : List (Event γ)}
    (h : s.runTask? task = some (t, events)) : Effect s (.run task) t events := by
  cases task with
  | timer id =>
    obtain ⟨here, he, h⟩ := Option.map_eq_some_iff.mp h
    obtain ⟨rfl, rfl⟩ := Prod.mk.inj h
    exact .expire he
  | write id =>
    obtain ⟨⟨here, store⟩, he, h⟩ := Option.map_eq_some_iff.mp h
    obtain ⟨rfl, rfl⟩ := Prod.mk.inj h
    exact .write he
  | call call => exact effect_of_runCall h

/-- Every step does one of these. -/
theorem effect_of_step {s t : State γ} {a : Action γ} {events : List (Event γ)}
    (h : s.step a = some (t, events)) : Effect s a t events := by
  cases a with
  | send id p q =>
    simp only [State.step] at h
    split at h
    · cases h
    · rename_i hs
      split at h
      · obtain ⟨rfl, rfl⟩ := Prod.mk.inj (Option.some.inj h)
        exact .of_same not_false
      · rename_i hsend
        obtain ⟨rfl, rfl⟩ := Prod.mk.inj (Option.some.inj h)
        exact .send (Option.not_isSome_iff_eq_none.mp hs) hsend
  | accept call id =>
    simp only [State.step] at h
    split at h
    · obtain ⟨rfl, rfl⟩ := Prod.mk.inj (Option.some.inj h)
      exact .of_same not_false
    · rename_i hacc
      obtain ⟨rfl, rfl⟩ := Prod.mk.inj (Option.some.inj h)
      exact .accept hacc
  | reject id =>
    simp only [State.step] at h
    split at h
    · obtain ⟨rfl, rfl⟩ := Prod.mk.inj (Option.some.inj h)
      exact .of_same not_false
    · rename_i hrej
      obtain ⟨rfl, rfl⟩ := Prod.mk.inj (Option.some.inj h)
      exact .reject hrej
  | get id =>
    obtain ⟨rfl, rfl⟩ := Prod.mk.inj (Option.some.inj h)
    exact .of_same not_false
  | list call target timeout =>
    have K := beginListing_kept s.here s.clock.now call target timeout
    simp only [State.step] at h
    split at h <;> rename_i hb <;> rw [hb] at K
    · obtain ⟨rfl, rfl⟩ := Prod.mk.inj (Option.some.inj h)
      exact .of_kept K (fun _ => Or.inl) (fun _ => .rfl) (fun _ => .rfl) not_false
    · obtain ⟨rfl, rfl⟩ := Prod.mk.inj (Option.some.inj h)
      exact .of_suspend K (by simp) not_false
  | watch call id timeout =>
    obtain ⟨rfl, rfl⟩ := Prod.mk.inj (Option.some.inj h)
    exact .of_suspend (.refl _) (by simp) not_false
  | run task => exact effect_of_runTask h
  | drop call =>
    obtain ⟨rfl, rfl⟩ := Prod.mk.inj (Option.some.inj h)
    exact .of_finish (abandon_kept _ _) not_false
  | shutDown =>
    obtain ⟨rfl, rfl⟩ := Prod.mk.inj (Option.some.inj h)
    exact .shutDown
  | setStore delay fault =>
    obtain ⟨rfl, rfl⟩ := Prod.mk.inj (Option.some.inj h)
    exact .other (.refl _) (Or.inr trivial) (fun _ => Or.inl) (fun _ => .rfl) (fun _ => .rfl) not_false
  | link user device =>
    simp only [State.step] at h
    split at h
    · obtain ⟨rfl, rfl⟩ := Prod.mk.inj (Option.some.inj h)
      exact .other (.refl _) (Or.inr trivial) (fun _ => Or.inl) (fun _ => .rfl) (fun _ => .rfl) not_false
    · obtain ⟨rfl, rfl⟩ := Prod.mk.inj (Option.some.inj h)
      exact .of_same not_false
  | unlink device =>
    obtain ⟨rfl, rfl⟩ := Prod.mk.inj (Option.some.inj h)
    exact .other (.refl _) (Or.inr trivial) (fun _ => Or.inl) (fun _ => .rfl) (fun _ => .rfl) not_false
  | tick moment =>
    simp only [State.step] at h
    split at h
    · obtain ⟨rfl, rfl⟩ := Prod.mk.inj (Option.some.inj h)
      exact .other (.refl _) (Or.inl rfl) (fun _ => Or.inl) (fun _ => .rfl) (fun _ => .rfl) not_false
    · cases h

variable {s t : State γ} {a : Action γ} {events : List (Event γ)}

/-- A step changes the requests as its action says, or not at all. -/
theorem Effect.change (E : Effect s a t events) (S : s.here.Sound) :
    ∃ op, Change s.clock s.store s.here op t.store t.here ∧ (op = none ∨ op = a.op?) ∧
      ∀ id p q request, op = some (.send id p q) →
        s.here.send s.clock id p q = .ok (t.here, request) →
        events = [.sent (.ok ⟨request, .pending⟩)] := by
  cases E with
  | @send id p q here request hs h =>
    refine ⟨_, .send hs h, Or.inr rfl, fun id' p' q' request' hop h' => ?_⟩
    obtain ⟨rfl, rfl, rfl⟩ := Op.send.inj (Option.some.inj hop)
    obtain rfl : request' = request := (Prod.mk.inj (Except.ok.inj (h'.symm.trans h))).2
    have M := send_moves S ((S.unsent_iff _).mp hs) h
    have hid : request'.id = id := by rw [(send_ok h).2.1]
    rw [sight, hid, M.sound.stateOf_eq, M.moved]
    rfl
  | accept h => exact ⟨_, .accept h, Or.inr rfl, by simp⟩
  | reject h => exact ⟨_, .reject h, Or.inr rfl, by simp⟩
  | expire h => exact ⟨_, .expire h, Or.inr rfl, by simp⟩
  | write h => exact ⟨_, .write h, Or.inr rfl, by simp⟩
  | shutDown => exact ⟨_, .shutDown, Or.inr rfl, by simp⟩
  | other K => exact ⟨_, .keep K, Or.inl rfl, by simp⟩

/-- **Each request stays where it is or goes one of the ways.** -/
theorem Effect.way (E : Effect s a t events) (S : s.here.Sound) (id : RequestId) :
    t.here.stage id = s.here.stage id ∨ Way id (s.here.stage id) a.op? (t.here.stage id) := by
  obtain ⟨op, C, rfl | rfl, -⟩ := E.change S
  · refine Or.inl ((C.way S id).resolve_right fun hw => ?_)
    generalize s.here.stage id = old, t.here.stage id = new at hw
    cases hw
  · exact C.way S id

theorem Effect.later (E : Effect s a t events) (S : s.here.Sound) : s.here.Later t.here := by
  obtain ⟨_, C, -⟩ := E.change S
  exact C.later S

/-- Whoever waits for a recording after a step waited for it before, or began it. -/
theorem Effect.waits (E : Effect s a t events) {call : γ} {id : RequestId}
    (h : (call, Waiting.recording id) ∈ t.waiting) :
    (call, Waiting.recording id) ∈ s.waiting ∨
      a = .accept call id ∧ s.here.beginAccept s.store s.clock.now id = .ok t.here := by
  cases E with
  | @accept call' id' here hacc =>
    rcases List.mem_append.mp h with h | h
    · exact Or.inl h
    · obtain ⟨rfl, hw⟩ := Prod.mk.inj (List.mem_singleton.mp h)
      obtain rfl := Waiting.recording.inj hw
      exact Or.inr ⟨rfl, hacc⟩
  | other _ _ hw => exact (hw _ h).imp_right fun hne => absurd rfl (hne id)
  | _ => exact Or.inl h

/-- **Every step keeps the coordinator sound.** -/
theorem Effect.state_sound (E : Effect s a t events) (S : s.Sound) : t.Sound := by
  have waits : ∀ w ∈ t.waiting, ∀ id, w.2 = .recording id →
      Stage.recording.Precedes (t.here.stage id) := by
    rintro ⟨call, w⟩ hw id rfl
    rcases E.waits hw with h | ⟨rfl, h⟩
    · exact (S.waits _ h id rfl).trans (E.later S.here id)
    · rw [(beginAccept_moves S.here h).moved]; exact .refl _
  cases E with
  | send hs h =>
    have hid := (S.here.unsent_iff _).mp hs
    exact S.of_moves (send_moves S.here hid h) (by simp) (by simp +contextual)
      (by simp [S.writes, hid]) (by simp) waits
  | accept h =>
    exact S.of_moves (beginAccept_moves S.here h) (by simp) (by simp) (by simp)
      (by simp +contextual) waits
  | reject h =>
    have hid := stage_of_live (live_of_reject h)
    exact S.of_moves (reject_moves S.here h) (by simp) (by simp) (by simp [S.writes, hid])
      (by simp) waits
  | expire h =>
    obtain ⟨-, request, hr⟩ := expire_some S.here h
    have hid := stage_of_live (live_of_reject hr)
    exact S.of_moves (reject_moves S.here hr) (by simp) (by simp +contextual)
      (by simp [S.writes, hid]) (by simp) waits
  | write h =>
    obtain ⟨_, -, -, -, _, -, M⟩ := endWrite_moves S.here h
    exact S.of_moves M (by simp) (by simp) (by simp) (by simp +contextual) waits
  | shutDown =>
    refine ⟨shutDown_sound S.here, fun id h => ?_, fun id => ?_, waits⟩
    · rw [stage_eq_live_iff, (shutDown_eq s.here).1] at h
      cases h
    · rw [stage_shutDown S.here, S.writes]
      by_cases hl : id ∈ s.here.liveIds
      · rw [if_pos hl, stage_of_live hl]; simp
      · rw [if_neg hl]
  | other K _ _ ht hw =>
    exact ⟨K.sound S.here, fun id h => (ht id).mpr (S.timers id (K.stage id ▸ h)),
      fun id => by rw [hw, K.stage, S.writes], waits⟩

/-- A step brings no request but the one that it sends. -/
theorem Effect.requests (E : Effect s a t events) (S : s.here.Sound) {request : PairingRequest}
    (h : request ∈ t.here.requests) :
    request ∈ s.here.requests ∨ a = .send request.id request.requester request.target ∧
      events = [.sent (.ok ⟨request, .pending⟩)] := by
  obtain ⟨op, C, hop, hsent⟩ := E.change S
  refine (C.requests S h).imp_right fun ⟨ho, hsend⟩ => ?_
  subst ho
  exact ⟨Action.eq_send (hop.resolve_left (by simp)).symm, hsent _ _ _ _ rfl hsend⟩

/-- A step sets no timer but that of the request that it sends. -/
theorem Effect.timers (E : Effect s a t events) (S : s.here.Sound) {e : RequestId × Nat}
    (h : e ∈ t.here.timers) :
    e ∈ s.here.timers ∨ e.2 = timerDue s.clock.now s.here.ttl ∧ ∃ request, request.id = e.1 ∧
      a = .send request.id request.requester request.target ∧
      events = [.sent (.ok ⟨request, .pending⟩)] := by
  obtain ⟨op, C, hop, hsent⟩ := E.change S
  refine (C.timers S h).imp_right fun ⟨hdue, request, hid, ho, hsend⟩ => ?_
  subst ho
  exact ⟨hdue, request, hid, Action.eq_send (hop.resolve_left (by simp)).symm,
    hsent _ _ _ _ rfl hsend⟩

theorem Effect.ttl (E : Effect s a t events) (S : s.here.Sound) : t.here.ttl = s.here.ttl := by
  obtain ⟨_, C, -⟩ := E.change S
  exact C.ttl S

end Coordinator
end DeviceRelay

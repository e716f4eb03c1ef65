/-
# A listing returns what is live, or the next request to its device

A device that lists its requests gets those that are live at that moment, in the order of their
creation. If there are none, then it waits. The first request that is sent to it after that is the
reply to all its listings that wait, and to nobody else, and the shutdown cancels all who wait.
A listing that is due before one of these returns without a request. It can return as soon as
one of these is so, and it returns once. Nobody learns from this of requests to other devices, and
nothing happens to requests and their timers when a listing begins, returns or is dropped.

Key definitions: `Coordinator.reply`, `Coordinator.Listed`, `Coordinator.Spared`,
`Coordinator.Listings`.
Key theorems: `Coordinator.current_of_step`, `Coordinator.spared_of_step`,
`Coordinator.stands_of_history`, `Coordinator.listed_of_history`,
`Coordinator.listings_of_history`.
-/
import DeviceRelay.Proofs.Pairing.Waiting

namespace DeviceRelay
namespace Coordinator

variable {γ : Type}

/-- What a device hears from a listing that waited. -/
def reply (s : State γ) : Outcome PairingRequest → Except Error (List Sighting)
  | .value request => .ok [s.here.sight request]
  | .empty => .ok []
  | .cancelled => .error .cancelled

/-- The live requests to a device. -/
def liveFor (c : Coordinator γ) (d : PrincipalId) : List PairingRequest :=
  c.live.registry.valuesMatching (addressed d)

variable [DecidableEq γ]

/-- What becomes of a listing that a step of a run begins. -/
structure Listed (earlier : List (Step γ)) (x : Step γ) (later : List (Step γ)) (s : State γ)
    (call : γ) (d : PrincipalId) (due : Nat) : Prop where
  /-- It returns at once with exactly the live requests to its device, each of them once, in the
  order of their creation. All of them are pending. -/
  current : x.before.here.liveFor d ≠ [] → ∃ found : List PairingRequest,
    found.Perm (x.before.here.liveFor d) ∧
    (∀ request, request ∈ found ↔
      x.before.here.get request.id = .ok request ∧ request.target.id = d) ∧
    found.Nodup ∧
    found.Pairwise (fun a b => a.createdAt ≤ b.createdAt) ∧
    x.events = [.listed call (.ok (found.map fun request => ⟨request, .pending⟩))]
  /-- Without any it waits. -/
  waits : x.before.here.liveFor d = [] → x.events = []
  /-- It returns later only if it waits and is still there, with what the steps since say, and
  then never again. -/
  returns : ∀ l y l', later = l ++ y :: l' → ∀ result, .listed call result ∈ y.events →
    x.events = [] ∧ y.action = .run (.call call) ∧ (∀ z ∈ l, z.action.leaves call = false) ∧
    (∃ o, yields? d due l y.before.clock.now = some o ∧
      y.events = [.listed call (reply y.before o)]) ∧
    ∀ z ∈ l', ∀ result, .listed call result ∉ z.events
  /-- As long as it waits and is still there, it can return if the steps since say so, and then
  only. -/
  stands : x.events = [] → (∀ y ∈ later, y.action.leaves call = false) →
    (s.step (.run (.call call))).map (·.2) =
      (yields? d due later s.clock.now).map fun o => [.listed call (reply s o)]
  /-- When nothing is ready, it waits for something that is still to come. -/
  prompt : x.events = [] → (∀ y ∈ later, y.action.leaves call = false) →
    (machine γ).ready s = none → yields? d due later s.clock.now = none
  /-- If time passes only while nothing is ready, then it gives up exactly when it is due. -/
  onTime : (machine γ).Timely (earlier ++ x :: later) → ∀ l y l', later = l ++ y :: l' →
    (∃ result, .listed call result ∈ y.events) → decision? d l = none → y.before.clock.now = due
  /-- A request that decides was sent to its device, and was pending when it was sent. -/
  published : ∀ l l' request, later = l ++ l' → decision? d l = some (.value request) →
    ∃ z ∈ l, Sends request z ∧ request.target.id = d ∧
      z.after.here.stateOf request.id = .pending ∧ request ∈ z.after.here.liveFor d

/-- What a step leaves alone in which one call begins to list, runs or is dropped. -/
structure Spared (s t : State γ) (call : γ) : Prop where
  requests : s.here.Kept t.here
  /-- Every other call waits for what it waited for, and can return what it could return. -/
  waiting : ∀ other, other ≠ call → t.waiting.lookup other = s.waiting.lookup other
  outcomes : ∀ other, other ≠ call → ∀ now,
    t.here.live.outcome? now other = s.here.live.outcome? now other

/-- What becomes of the listings of a run that begin before it is shut down. -/
structure Listings (steps : List (Step γ)) (s : State γ) : Prop where
  listed : ∀ earlier x later call d timeout, steps = earlier ++ x :: later →
    x.action = .list call d timeout → Alone call (earlier ++ later) →
    (∀ y ∈ earlier, y.action ≠ .shutDown) →
      Listed earlier x later s call d (timerDue x.before.clock.now timeout)
  /-- A request that is sent is the reply to every listing that waits for its device, and
  leaves every other one waiting. -/
  shared : ∀ earlier x l z later call d timeout request,
    steps = earlier ++ x :: (l ++ z :: later) → x.action = .list call d timeout →
    Alone call (earlier ++ (l ++ z :: later)) → x.events = [] →
    (∀ y ∈ l, y.action.leaves call = false) → decision? d l = none → Sends request z →
      decision? d (l ++ [z]) = (if request.target.id = d then some (.value request) else none) ∧
      (request.target.id = d → (z.after.step (.run (.call call))).map (·.2) =
        some [.listed call (.ok [⟨request, .pending⟩])])
  spared : ∀ x ∈ steps, ∀ call,
    (∃ d timeout, x.action = .list call d timeout) ∨ x.action.leaves call = true →
      Spared x.before x.after call

variable {s t u : State γ} {a : Action γ} {events : List (Event γ)} {steps : List (Step γ)}
  {call : γ} {d : PrincipalId}

/-! ### Returning -/

omit [DecidableEq γ] in
theorem listedEvent_eq (s : State γ) (call : γ) (o : Outcome PairingRequest) :
    s.listedEvent call (o.map fun request => [request]) = .listed call (reply s o) := by
  cases o with
  | value request =>
    simp only [State.listedEvent, Outcome.map, listed, List.mergeSort_singleton, reply]
    rfl
  | empty | cancelled => rfl

theorem run_of_listing (h : s.waiting.lookup call = some .listing) :
    (s.step (.run (.call call))).map (·.2) =
      (s.here.live.outcome? s.clock.now call).map fun o => [.listed call (reply s o)] := by
  simp only [State.step, State.runTask?, State.runCall?, h, Option.bind_eq_bind, Option.bind_some,
    resumeListing?, Rendezvous.resume?]
  cases s.here.live.outcome? s.clock.now call with
  | none => rfl
  | some o => exact congrArg (fun e => some [e]) (listedEvent_eq s call o)

/-- How a listing is seen to return in a step. -/
inductive Returns (s : State γ) (a : Action γ) (events : List (Event γ)) (call : γ) : Prop where
  | atOnce (d : PrincipalId) (timeout : Nat) (asked : a = .list call d timeout)
  | later (asked : a = .run (.call call)) (waits : s.waiting.lookup call = some .listing)
    (o : Outcome PairingRequest) (can : s.here.live.outcome? s.clock.now call = some o)
    (shown : events = [.listed call (reply s o)])

theorem returns_of_step (h : s.step a = some (t, events)) {result : Except Error (List Sighting)}
    (seen : .listed call result ∈ events) : Returns s a events call := by
  cases a with
  | list other d timeout =>
    cases begins_of_step h with
    | returns outcome _ shown =>
      rw [shown] at seen
      obtain rfl : call = other := (Event.listed.inj (List.mem_singleton.mp seen)).1
      exact .atOnce d timeout rfl
    | waits _ silent =>
      rw [silent] at seen
      cases seen
  | run task =>
    cases task with
    | timer id | write id =>
      obtain ⟨_, -, h⟩ := Option.map_eq_some_iff.mp h
      obtain ⟨-, rfl⟩ := Prod.mk.inj h
      cases seen
    | call other =>
      have hrun : (s.step (.run (.call other))).map (·.2) = some events := by rw [h]; rfl
      replace h : s.runCall? other = some (t, events) := h
      unfold State.runCall? at h
      obtain ⟨w, hw, h⟩ := Option.bind_eq_some_iff.mp h
      cases w with
      | listing =>
        rw [run_of_listing hw] at hrun
        obtain ⟨o, ho, rfl⟩ := Option.map_eq_some_iff.mp hrun
        obtain rfl : call = other := (Event.listed.inj (List.mem_singleton.mp seen)).1
        exact .later rfl hw o ho rfl
      | recording id =>
        obtain ⟨_, -, h⟩ := Option.bind_eq_some_iff.mp h
        obtain ⟨-, rfl⟩ := Prod.mk.inj (Option.some.inj h)
        cases List.mem_singleton.mp seen
      | settling id due =>
        obtain ⟨-, h⟩ := Option.ite_none_right_eq_some.mp h
        obtain ⟨-, rfl⟩ := Prod.mk.inj (Option.some.inj h)
        cases List.mem_singleton.mp seen
  | send id p q =>
    simp only [State.step] at h
    split at h
    · cases h
    · split at h <;> obtain ⟨-, rfl⟩ := Prod.mk.inj (Option.some.inj h) <;>
        cases List.mem_singleton.mp seen
  | accept other id =>
    simp only [State.step] at h
    split at h <;> obtain ⟨-, rfl⟩ := Prod.mk.inj (Option.some.inj h)
    · cases List.mem_singleton.mp seen
    · cases seen
  | reject id =>
    simp only [State.step] at h
    split at h <;> obtain ⟨-, rfl⟩ := Prod.mk.inj (Option.some.inj h) <;>
      cases List.mem_singleton.mp seen
  | link user device =>
    simp only [State.step] at h
    split at h <;> obtain ⟨-, rfl⟩ := Prod.mk.inj (Option.some.inj h) <;>
      cases List.mem_singleton.mp seen
  | get id =>
    obtain ⟨-, rfl⟩ := Prod.mk.inj (Option.some.inj h)
    cases List.mem_singleton.mp seen
  | tick moment =>
    obtain ⟨-, h⟩ := Option.ite_none_right_eq_some.mp h
    obtain ⟨-, rfl⟩ := Prod.mk.inj (Option.some.inj h)
    cases seen
  | watch | drop | shutDown | setStore | unlink =>
    obtain ⟨-, rfl⟩ := Prod.mk.inj (Option.some.inj h)
    cases seen

/-! ### A listing in a run -/

section
variable {ttl : Nat} {clock : Clock} {store : PairingStore} {earlier later : List (Step γ)}
  {x : Step γ} {timeout : Nat}

theorem step_of_split (h : (machine γ).History (.fresh ttl clock store) s (earlier ++ x :: later)) :
    (machine γ).History (.fresh ttl clock store) x.before earlier ∧
      x.before.step x.action = some (x.after, x.events) ∧
      (machine γ).History x.after s later := by
  obtain ⟨_, hbefore, hfrom⟩ := h.split
  obtain ⟨rfl, hstep, hafter⟩ := hfrom.head
  exact ⟨hbefore, hstep, hafter⟩

/-- **A listing waits as long as it did not return at once, was not dropped and did not run.** -/
theorem waits_iff (h : (machine γ).History (.fresh ttl clock store) s (earlier ++ x :: later))
    (hx : x.action = .list call d timeout) (alone : Alone call (earlier ++ later)) :
    s.waiting.lookup call = some .listing ↔
      x.events = [] ∧ ∀ y ∈ later, y.action.leaves call = false := by
  obtain ⟨hbefore, hstep, hafter⟩ := step_of_split h
  have hearlier : Alone call earlier := fun y hy => alone y (List.mem_append_left _ hy)
  have hlater : Alone call later := fun y hy => alone y (List.mem_append_right _ hy)
  have hfresh : x.before.waiting.lookup call = none := by
    rw [lookup_of_history hbefore hearlier]
    split <;> rfl
  rw [hx] at hstep
  have hbegun : x.after.waiting.lookup call = some .listing ↔ x.events = [] := by
    cases begins_of_step hstep with
    | returns _ _ shown waiting =>
      rw [waiting, hfresh, shown]
      simp
    | waits _ silent waiting =>
      rw [waiting, silent, List.lookup_append, hfresh, Keyed.lookup_cons_eq, if_pos rfl]
      simp
  rw [lookup_of_history hafter hlater, ← hbegun]
  by_cases hleft : ∃ y ∈ later, y.action.leaves call = true
  · rw [if_pos hleft]
    obtain ⟨y, hy, hleaves⟩ := hleft
    refine iff_of_false (by simp) fun hboth => ?_
    rw [hboth.2 y hy] at hleaves
    cases hleaves
  · rw [if_neg hleft]
    refine (and_iff_left fun y hy => Bool.eq_false_iff.mpr fun hleaves => ?_).symm
    exact hleft ⟨y, hy, hleaves⟩

/-! ### Beginning -/

theorem open_of_history (h : (machine γ).History (.fresh ttl clock store) s steps)
    (before : ∀ y ∈ steps, y.action ≠ .shutDown) : s.here.live.registry.closed = false := by
  obtain ⟨trace, hrun, hactions⟩ := visits_of_history h
  refine Bool.eq_false_iff.mpr fun hclosed => ?_
  obtain ⟨y, hy, hcloses⟩ := (Rendezvous.tracked_of_history hrun).closed.mp hclosed
  obtain ⟨x, hx, hvisited⟩ := visited_of_trace hactions hy
  exact before x hx (hvisited.closes hcloses)

omit [DecidableEq γ] in
theorem mem_values_iff (S : s.here.Sound) {request : PairingRequest} :
    request ∈ s.here.live.registry.values.map (·.2) ↔ s.here.get request.id = .ok request := by
  constructor
  · intro h
    obtain ⟨e, he, rfl⟩ := List.mem_map.mp h
    have hfound := Keyed.lookup_of_mem S.liveNodup he
    unfold get Registry.get?
    rw [S.own e he, hfound]
  · intro h
    unfold get Registry.get? at h
    split at h
    · next hfound =>
      obtain rfl := Except.ok.inj h
      exact List.mem_map_of_mem (Keyed.mem_of_lookup hfound)
    · cases h

omit [DecidableEq γ] in
theorem pending_of_value (S : s.here.Sound) {request : PairingRequest}
    (h : request ∈ s.here.live.registry.values.map (·.2)) :
    s.here.stateOf request.id = .pending := by
  obtain ⟨e, he, rfl⟩ := List.mem_map.mp h
  rw [S.own e he]
  exact S.pending_of_live (List.mem_map_of_mem he)

omit [DecidableEq γ] in
theorem mem_liveFor_iff (S : s.here.Sound) {request : PairingRequest} :
    request ∈ s.here.liveFor d ↔
      s.here.get request.id = .ok request ∧ request.target.id = d := by
  rw [← mem_values_iff S]
  exact List.mem_filter.trans (and_congr_right fun _ => decide_eq_true_iff)

omit [DecidableEq γ] in
/-- No request is live twice, and what is live is pending. -/
theorem pending_of_liveFor (S : s.here.Sound) :
    (s.here.liveFor d).Nodup ∧ ∀ request ∈ s.here.liveFor d, s.here.stateOf request.id = .pending := by
  have hids : s.here.live.registry.values.map (fun e => e.2.id) = s.here.liveIds :=
    List.map_congr_left fun e he => S.own e he
  have hnodup : ((s.here.live.registry.values.map (·.2)).map (·.id)).Nodup := by
    rw [List.map_map]
    exact hids ▸ S.liveNodup
  exact ⟨hnodup.of_map.filter _,
    fun request hrequest => pending_of_value S (List.mem_filter.mp hrequest).1⟩

omit [DecidableEq γ] in
/-- As what is live is pending, a listing finds all live requests to its device. -/
theorem valuesMatching_concerns (S : s.here.Sound) :
    s.here.live.registry.valuesMatching (s.here.concerns d) = s.here.liveFor d :=
  List.filter_congr fun _ hrequest => concerns_of_pending (pending_of_value S hrequest) d

omit [DecidableEq γ] in
theorem taken_of_open (S : s.here.Sound) (isOpen : s.here.live.registry.closed = false) :
    (s.here.live.beginListing s.clock.now call (s.here.concerns d) (some timeout)).2 =
      match s.here.liveFor d with
      | [] => none
      | found => some (.value found) := by
  rw [← valuesMatching_concerns S]
  unfold Rendezvous.beginListing
  rw [isOpen, if_neg Bool.false_ne_true]
  split <;> simp only [*]

/-- **A listing that finds live requests returns all of them at once.** -/
theorem current_of_step (S : s.here.Sound) (isOpen : s.here.live.registry.closed = false)
    (h : s.step (.list call d timeout) = some (t, events)) (found : s.here.liveFor d ≠ []) :
    ∃ found : List PairingRequest, found.Perm (s.here.liveFor d) ∧
      (∀ request, request ∈ found ↔
        s.here.get request.id = .ok request ∧ request.target.id = d) ∧
      found.Nodup ∧
      found.Pairwise (fun a b => a.createdAt ≤ b.createdAt) ∧
      events = [.listed call (.ok (found.map fun request => ⟨request, .pending⟩))] := by
  have htaken : (s.here.live.beginListing s.clock.now call (s.here.concerns d)
      (some timeout)).2 = some (.value (s.here.liveFor d)) := by
    rw [taken_of_open S isOpen]
    split
    · next hnone => exact absurd hnone found
    · rfl
  obtain ⟨hnodup, hpending⟩ := pending_of_liveFor (d := d) S
  have hperm := List.mergeSort_perm (s.here.liveFor d) fun a b => decide (a.createdAt ≤ b.createdAt)
  have hsorted : ((s.here.liveFor d).mergeSort fun a b => decide (a.createdAt ≤ b.createdAt)).Pairwise
      fun a b => decide (a.createdAt ≤ b.createdAt) = true :=
    List.pairwise_mergeSort (fun a b c hab hbc => by simp only [decide_eq_true_eq] at *; omega)
      (fun a b => by simp only [Bool.or_eq_true, decide_eq_true_eq]; omega) _
  refine ⟨_, hperm, fun request => hperm.mem_iff.trans (mem_liveFor_iff S),
    hperm.nodup_iff.mpr hnodup, hsorted.imp of_decide_eq_true, ?_⟩
  cases begins_of_step h with
  | returns outcome found shown =>
    obtain rfl := Option.some.inj ((congrArg Prod.snd found).symm.trans htaken)
    rw [shown, State.listedEvent]
    refine congrArg (fun seen => [Event.listed call (.ok seen)]) (List.map_congr_left ?_)
    intro request hrequest
    rw [sight, hpending request (hperm.mem_iff.mp hrequest)]
  | waits found => cases (congrArg Prod.snd found).symm.trans htaken

theorem waits_of_step (S : s.here.Sound) (isOpen : s.here.live.registry.closed = false)
    (h : s.step (.list call d timeout) = some (t, events)) (absent : s.here.liveFor d = []) :
    events = [] := by
  cases begins_of_step h with
  | returns outcome found =>
    have htaken := (congrArg Prod.snd found).symm.trans (taken_of_open S isOpen)
    rw [absent] at htaken
    cases htaken
  | waits _ silent => exact silent

/-! ### Sending -/

theorem mem_liveFor_of_sends (S : x.before.here.Sound)
    (hstep : x.before.step x.action = some (x.after, x.events)) {request : PairingRequest}
    (h : Sends request x) : request ∈ x.after.here.liveFor request.target.id := by
  rw [h.1, h.2] at hstep
  obtain ⟨-, hvalues⟩ := sends_of_step S hstep
  refine List.mem_filter.mpr ⟨?_, decide_eq_true rfl⟩
  rw [hvalues, List.map_append]
  exact List.mem_append_right _ List.mem_cons_self

/-! ### What is spared -/

theorem Spared.of_same (same : t.here = s.here)
    (waiting : ∀ other, other ≠ call → t.waiting.lookup other = s.waiting.lookup other) :
    Spared s t call where
  requests := same ▸ .refl _
  waiting := waiting
  outcomes _ _ _ := by rw [same]

theorem outcome?_abandon (r : Rendezvous RequestId PairingRequest γ) {other : γ} (hne : other ≠ call)
    (now : Nat) : (r.abandon call).outcome? now other = r.outcome? now other := by
  have hreplies : (r.abandon call).replies.lookup other = r.replies.lookup other :=
    Keyed.lookup_filter (p := fun c => decide (c ≠ call)) (decide_eq_true hne)
  have hwaits : ((r.abandon call).waits.any fun w => w.call = other && Rendezvous.isOver now w) =
      r.waits.any fun w => w.call = other && Rendezvous.isOver now w := by
    rw [Rendezvous.abandon, List.any_filter]
    refine List.any_congr rfl fun w => ?_
    by_cases hw : w.call = other
    · simp [hw, hne]
    · simp [hw]
  unfold Rendezvous.outcome?
  rw [hreplies, hwaits]

/-- A listing that begins leaves the outcomes of all others. -/
theorem outcome?_beginListing (r : Rendezvous RequestId PairingRequest γ) {other : γ}
    (hne : other ≠ call) (accepts : PairingRequest → Bool) (limit : Option Nat) (start now : Nat) :
    (r.beginListing start call accepts limit).1.outcome? now other = r.outcome? now other := by
  unfold Rendezvous.beginListing
  split
  · rfl
  · split
    · unfold Rendezvous.outcome? Rendezvous.enlist
      simp [hne.symm]
    · rfl

/-- A call that returns or is dropped is taken from the registry, if anything happens. -/
theorem here_of_leaves (h : s.step a = some (t, events)) (hleaves : a.leaves call = true) :
    t.here = s.here ∨ t.here = s.here.abandon call := by
  unfold Action.leaves at hleaves
  split at hleaves
  · obtain rfl := of_decide_eq_true hleaves
    replace h : s.runCall? _ = some (t, events) := h
    unfold State.runCall? at h
    obtain ⟨w, -, h⟩ := Option.bind_eq_some_iff.mp h
    cases w with
    | recording id =>
      obtain ⟨_, -, h⟩ := Option.bind_eq_some_iff.mp h
      obtain ⟨rfl, -⟩ := Prod.mk.inj (Option.some.inj h)
      exact .inl rfl
    | listing =>
      obtain ⟨⟨here, outcome⟩, hresume, h⟩ := Option.bind_eq_some_iff.mp h
      obtain ⟨rfl, -⟩ := Prod.mk.inj (Option.some.inj h)
      obtain ⟨⟨live, o⟩, hlive, hresume⟩ := Option.map_eq_some_iff.mp hresume
      obtain ⟨rfl, -⟩ := Prod.mk.inj hresume
      rw [Rendezvous.resume_eq hlive]
      exact .inr rfl
    | settling id due =>
      obtain ⟨-, h⟩ := Option.ite_none_right_eq_some.mp h
      obtain ⟨rfl, -⟩ := Prod.mk.inj (Option.some.inj h)
      exact .inl rfl
  · obtain rfl := of_decide_eq_true hleaves
    obtain ⟨rfl, -⟩ := Prod.mk.inj (Option.some.inj h)
    exact .inr rfl
  · cases hleaves

/-- A listing that begins is asked for at the registry, and nothing else happens. -/
theorem here_of_list (h : s.step (.list call d timeout) = some (t, events)) :
    t.here = (s.here.beginListing s.clock.now call d timeout).1 := by
  simp only [State.step] at h
  split at h <;> next hbegun =>
    obtain ⟨rfl, -⟩ := Prod.mk.inj (Option.some.inj h)
    exact (congrArg Prod.fst hbegun).symm

/-- **When a listing begins, or a call returns or is dropped, nobody else notices.** -/
theorem spared_of_step (h : s.step a = some (t, events))
    (ha : (∃ d timeout, a = .list call d timeout) ∨ a.leaves call = true) : Spared s t call := by
  have hwaiting : ∀ other, other ≠ call → t.waiting.lookup other = s.waiting.lookup other := by
    intro other hne
    have hapart : a.begins? ≠ some other ∧ ¬ a.leaves other = true := by
      rcases ha with ⟨d, timeout, rfl⟩ | hleaves
      · exact ⟨fun hbegins => hne (Option.some.inj hbegins).symm, Bool.false_ne_true⟩
      · rw [Action.begins?_of_leaves hleaves]
        exact ⟨nofun, fun hother => hne (Action.eq_of_leaves hleaves hother)⟩
    rw [lookup_of_step h hapart.1, if_neg hapart.2]
  rcases ha with ⟨d, timeout, rfl⟩ | hleaves
  · have hhere := here_of_list h
    refine ⟨hhere ▸ beginListing_kept _ _ _ _ _, hwaiting, fun other hne now => ?_⟩
    rw [hhere]
    exact outcome?_beginListing _ hne _ _ _ _
  · rcases here_of_leaves h hleaves with hhere | hhere
    · exact .of_same hhere hwaiting
    · refine ⟨hhere ▸ abandon_kept _ _, hwaiting, fun other hne now => ?_⟩
      rw [hhere]
      exact outcome?_abandon _ hne _

/-! ### From the start to the end -/

section
variable (h : (machine γ).History (.fresh ttl clock store) s (earlier ++ x :: later))
  (hx : x.action = .list call d timeout) (alone : Alone call (earlier ++ later))
include h hx alone

/-- What a listing returns if it still waits and runs now. -/
theorem stands_of_history (silent : x.events = [])
    (stays : ∀ y ∈ later, y.action.leaves call = false) :
    (s.step (.run (.call call))).map (·.2) =
      (yields? d (timerDue x.before.clock.now timeout) later s.clock.now).map
        fun o => [.listed call (reply s o)] := by
  rw [run_of_listing ((waits_iff h hx alone).mpr ⟨silent, stays⟩),
    outcome?_of_history h hx alone silent stays]

/-- When nothing is ready, no listing that waits has anything to return. -/
theorem prompt_of_history (silent : x.events = [])
    (stays : ∀ y ∈ later, y.action.leaves call = false) (hready : (machine γ).ready s = none) :
    yields? d (timerDue x.before.clock.now timeout) later s.clock.now = none := by
  have hwaits := (waits_iff h hx alone).mpr ⟨silent, stays⟩
  have htask := (attended_of_history h).runs _ (Keyed.mem_of_lookup hwaits)
  have hcannot := List.find?_eq_none.mp (Option.map_eq_none_iff.mp hready) _ htask
  have hblocked : s.runTask? (.call call) = none := by simpa using hcannot
  have hstands := stands_of_history h hx alone silent stays
  rw [State.step, hblocked, Option.map_none] at hstands
  exact Option.map_eq_none_iff.mp hstands.symm

end

/-- A listing that waited returns once, with what it can return. -/
theorem returns_of_history
    (h : (machine γ).History (.fresh ttl clock store) s (earlier ++ x :: later))
    (hx : x.action = .list call d timeout) (alone : Alone call (earlier ++ later))
    {l l' : List (Step γ)} {y : Step γ} (hlater : later = l ++ y :: l')
    {result : Except Error (List Sighting)} (seen : .listed call result ∈ y.events) :
    x.events = [] ∧ y.action = .run (.call call) ∧ (∀ z ∈ l, z.action.leaves call = false) ∧
      ∃ o, yields? d (timerDue x.before.clock.now timeout) l y.before.clock.now = some o ∧
        y.events = [.listed call (reply y.before o)] := by
  subst hlater
  rw [← List.cons_append, ← List.append_assoc] at h
  obtain ⟨hbefore, hstep, -⟩ := step_of_split h
  have alone' : Alone call (earlier ++ l) := fun z hz => alone z (by
    rcases List.mem_append.mp hz with hz | hz <;> simp [hz])
  have hy : y.action.begins? ≠ some call := alone y (by simp)
  cases returns_of_step hstep seen with
  | atOnce d timeout asked =>
    rw [asked] at hy
    exact absurd rfl hy
  | later asked waits o can shown =>
    obtain ⟨silent, stays⟩ := (waits_iff hbefore hx alone').mp waits
    rw [outcome?_of_history hbefore hx alone' silent stays] at can
    exact ⟨silent, asked, stays, o, can, shown⟩

omit [DecidableEq γ] in
theorem alone_of_append {earlier l : List (Step γ)} (l' : List (Step γ))
    (h : Alone call (earlier ++ (l ++ l'))) :
    Alone call (earlier ++ l) := fun y hy => h y (by
  rcases List.mem_append.mp hy with hy | hy <;> simp [hy])

/-- What decides with a request for those who wait, sends it to their device. -/
theorem sends_of_decision {l : List (Step γ)} (h : (machine γ).History (.fresh ttl clock store) s steps)
    (hl : ∀ z ∈ l, z ∈ steps) {request : PairingRequest}
    (decided : decision? d l = some (.value request)) :
    ∃ z ∈ l, Sends request z ∧ request.target.id = d ∧
      z.after.here.stateOf request.id = .pending ∧ request ∈ z.after.here.liveFor d := by
  obtain ⟨z, hz, hdecides⟩ := List.exists_of_findSome?_eq_some decided
  obtain ⟨S, -, S', -⟩ := of_step_mem h (hl z hz)
  obtain ⟨-, -, -, -, hstep, -⟩ := h.of_mem (hl z hz)
  unfold decides? at hdecides
  split at hdecides
  · next hsend =>
    obtain ⟨sent, hsent, hvalue⟩ := Option.map_eq_some_iff.mp hdecides
    obtain rfl := Outcome.value.inj hvalue
    obtain ⟨hshown, hd⟩ := Option.filter_eq_some_iff.mp hsent
    obtain rfl := of_decide_eq_true hd
    have sends := (sends_iff S.here hstep).mpr ⟨⟨_, _, _, hsend⟩, hshown⟩
    have hlive := mem_liveFor_of_sends S.here hstep sends
    exact ⟨z, hz, sends, rfl, (pending_of_liveFor S'.here).2 sent hlive, hlive⟩
  · cases Option.some.inj hdecides
  · cases hdecides

/-- **What becomes of a listing.** -/
theorem listed_of_history
    (h : (machine γ).History (.fresh ttl clock store) s (earlier ++ x :: later))
    (hx : x.action = .list call d timeout) (alone : Alone call (earlier ++ later))
    (before : ∀ y ∈ earlier, y.action ≠ .shutDown) :
    Listed earlier x later s call d (timerDue x.before.clock.now timeout) := by
  obtain ⟨hbefore, hstep, -⟩ := step_of_split h
  rw [hx] at hstep
  have isOpen := open_of_history hbefore before
  have S := sound_of_history hbefore (fresh_sound ttl clock store)
  constructor
  case current => exact current_of_step S.here isOpen hstep
  case waits => exact waits_of_step S.here isOpen hstep
  case returns =>
    intro l y l' hlater result seen
    obtain ⟨silent, runs, stays, returns⟩ := returns_of_history h hx alone hlater seen
    refine ⟨silent, runs, stays, returns, fun z hz again hseen => ?_⟩
    obtain ⟨l₁, l₂, rfl⟩ := List.append_of_mem hz
    have hagain : later = (l ++ y :: l₁) ++ z :: l₂ := by simp [hlater]
    obtain ⟨-, -, hstays, -⟩ := returns_of_history h hx alone hagain hseen
    have hleft := hstays y (by simp)
    rw [runs] at hleft
    exact absurd (of_decide_eq_false hleft) (by simp)
  case stands => exact stands_of_history h hx alone
  case prompt => exact prompt_of_history h hx alone
  case onTime =>
    rintro timely l y l' rfl ⟨result, seen⟩ undecided
    obtain ⟨silent, -, stays, o, yields, -⟩ := returns_of_history h hx alone rfl seen
    rw [← List.cons_append, ← List.append_assoc] at h timely
    have hlate := due_of_timely (step_of_split h).1 timely.append_left hx (alone_of_append _ alone)
      silent stays undecided
    rw [yields?, undecided, Option.none_or] at yields
    obtain ⟨hdue, -⟩ := Option.ite_none_right_eq_some.mp yields
    omega
  case published =>
    rintro l l' request rfl decided
    exact sends_of_decision h (fun z hz => by simp [hz]) decided

/-- **What becomes of the listings of a run.** They return what is live for their device, or the
first request that is sent to it, which all of them hear of that wait, or nothing, or that the
coordinator was shut down, and do nothing to requests, timers and other listings. -/
theorem listings_of_history (h : (machine γ).History (.fresh ttl clock store) s steps) :
    Listings steps s where
  listed := by
    rintro earlier x later call d timeout rfl hx alone before
    exact listed_of_history h hx alone before
  shared := by
    rintro earlier x l z later call d timeout request rfl hx alone silent stays undecided sends
    have hz : z ∈ earlier ++ x :: (l ++ z :: later) := by simp
    obtain ⟨S, -, S', -⟩ := of_step_mem h hz
    obtain ⟨-, -, -, -, hstep, -⟩ := h.of_mem hz
    obtain ⟨-, hshown⟩ := (sends_iff S.here hstep).mp sends
    have hdecides : decision? d (l ++ [z]) =
        if request.target.id = d then some (.value request) else none := by
      rw [decision?, List.findSome?_append, show l.findSome? (decides? d) = none from undecided,
        Option.none_or, List.findSome?_singleton, decides?, sends.1, hshown]
      by_cases hd : request.target.id = d <;> simp [Option.filter, addressed, hd]
    refine ⟨hdecides, fun hd => ?_⟩
    have hafter : (machine γ).History (.fresh ttl clock store) z.after
        (earlier ++ x :: (l ++ [z])) := by
      rw [← List.cons_append, ← List.append_assoc] at h ⊢
      exact (step_of_split h).1.step hstep
    have alone' : Alone call (earlier ++ (l ++ [z])) :=
      alone_of_append later (by simpa using alone)
    have stays' : ∀ y ∈ l ++ [z], y.action.leaves call = false := by
      intro y hy
      rcases List.mem_append.mp hy with hy | hy
      · exact stays y hy
      · obtain rfl := List.mem_singleton.mp hy
        rw [sends.1]
        rfl
    have hlive := mem_liveFor_of_sends S.here hstep sends
    rw [stands_of_history hafter hx alone' silent stays', yields?, hdecides, if_pos hd,
      Option.some_or, Option.map_some, reply, sight, (pending_of_liveFor S'.here).2 request hlive]
  spared _ hmem _ hleaves := by
    obtain ⟨-, -, -, -, hstep, -⟩ := h.of_mem hmem
    exact spared_of_step hstep hleaves

end


/-- A device in the runs that are shown, to which nobody sends anything. -/
def tablet : Principal := ⟨⟨3⟩, "tablet", true⟩

/-- Two listings of one device and one of another wait, a request is sent to the first device, and
time passes after it was listed. -/
def polls : List (Action Nat) :=
  [.list 0 phone.id 5000, .list 1 tablet.id 5000, .list 2 phone.id 5000, .send ⟨7⟩ alice phone,
    .run (.call 0), .run (.call 2), .list 3 phone.id 5000, .tick 5000, .run (.call 1)]

theorem replay_polls : ((machine Nat).replay (.fresh 60000 {} {}) polls).isSome = true := by
  decide +kernel

/-- What a listing found that is seen to return. -/
def Event.found? : Event γ → Option (γ × List Sighting)
  | .listed call (.ok found) => some (call, found)
  | _ => none

/-- The request is the reply to both listings of its device, and is there for the next one. The
listing of the other device returns without a request. -/
theorem listings_of_polls : ∃ (s : State Nat) (steps : List (Step Nat)) (request : PairingRequest),
    (machine Nat).History (.fresh 60000 {} {}) s steps ∧ steps.map (·.action) = polls ∧
      request = ⟨⟨7⟩, alice, phone, 0⟩ ∧
      (steps.flatMap (·.events)).filterMap Event.found? =
        [(0, [⟨request, .pending⟩]), (2, [⟨request, .pending⟩]), (3, [⟨request, .pending⟩]),
          (1, [])] ∧
      Listings steps s := by
  have h := Machine.history_of_replayed replay_polls
  have hactions := Machine.actions_of_replay (Option.some_get replay_polls).symm
  exact ⟨_, _, _, h, hactions, rfl, by decide +kernel, listings_of_history h⟩

end Coordinator
end DeviceRelay

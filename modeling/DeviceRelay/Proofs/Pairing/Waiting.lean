/-
# Whoever waits at the coordinator waits at its registry

A listing that finds nothing waits, under its name, until it runs or is dropped. What it can
return is known from the steps since it began: the first of them that sends a request to its
device or shuts the coordinator down decides, and if there is none, then it returns without a
request once it is due. This is so since it waits at the registry of the live requests too, where
the same steps decide the same.

Key definitions: `Coordinator.Alone`, `Coordinator.decides?`, `Coordinator.decision?`,
`Coordinator.yields?`, `Coordinator.Projected`.
Key theorems: `Coordinator.lookup_of_history`, `Coordinator.projected_of_history`,
`Coordinator.outcome?_of_history`, `Coordinator.due_of_timely`.
-/
import DeviceRelay.Proofs.Pairing.Listings
import DeviceRelay.Proofs.Pairing.Visits
import DeviceRelay.Proofs.Rendezvous.Resolution
import Mathlib.Data.List.Induction

namespace DeviceRelay
namespace Coordinator

variable {γ : Type}

/-- The call that an action begins. -/
def Action.begins? : Action γ → Option γ
  | .accept call _ | .list call _ _ | .watch call _ _ => some call
  | _ => none

/-- No step begins a call of this name. -/
def Alone (call : γ) (steps : List (Step γ)) : Prop := ∀ y ∈ steps, y.action.begins? ≠ some call

/-- What a step decides for those who wait for a request to a device: a request to it is sent, or
the coordinator is shut down. -/
def decides? (d : PrincipalId) (x : Step γ) : Option (Outcome PairingRequest) :=
  match x.action with
  | .send .. => ((sent? x).filter (addressed d)).map .value
  | .shutDown => some .cancelled
  | _ => none

/-- What the first of some steps that decides anything decides for them. -/
def decision? (d : PrincipalId) (steps : List (Step γ)) : Option (Outcome PairingRequest) :=
  steps.findSome? (decides? d)

/-- What a listing returns that began to wait some steps ago, if it runs now. -/
def yields? (d : PrincipalId) (due : Nat) (later : List (Step γ)) (now : Nat) :
    Option (Outcome PairingRequest) :=
  (decision? d later).or (if due ≤ now then some .empty else none)

variable [DecidableEq γ]

variable {s t u : State γ} {a : Action γ} {events : List (Event γ)} {steps : List (Step γ)}
  {call : γ} {d : PrincipalId}

/-! ### Who waits -/

theorem Action.begins?_of_leaves (h : a.leaves call = true) : a.begins? = none := by
  unfold Action.leaves at h
  split at h
  · rfl
  · rfl
  · cases h

theorem Action.eq_of_leaves {other : γ} (h : a.leaves call = true) (hother : a.leaves other = true) :
    other = call := by
  unfold Action.leaves at h hother
  split at h
  · exact (of_decide_eq_true hother).symm.trans (of_decide_eq_true h)
  · exact (of_decide_eq_true hother).symm.trans (of_decide_eq_true h)
  · cases h

theorem waiting_of_kept (hsame : t.waiting = s.waiting) (hstay : ∀ call, a.leaves call = false) :
    t.waiting = s.waiting.filter fun w => !a.leaves w.1 := by
  rw [hsame]
  refine (List.filter_eq_self.mpr fun w _ => ?_).symm
  rw [hstay]
  rfl

/-- The calls that wait after a step: who leaves is gone, and who begins is there. -/
theorem waiting_of_step (h : s.step a = some (t, events)) :
    t.waiting = s.waiting.filter (fun w => !a.leaves w.1) ∨
      ∃ call w, a.begins? = some call ∧ t.waiting = s.waiting ++ [(call, w)] := by
  cases a with
  | send id p q =>
    refine .inl (waiting_of_kept ?_ fun _ => rfl)
    simp only [State.step] at h
    split at h
    · cases h
    · split at h <;> obtain ⟨rfl, -⟩ := Prod.mk.inj (Option.some.inj h) <;> rfl
  | accept call id =>
    simp only [State.step] at h
    split at h <;> obtain ⟨rfl, -⟩ := Prod.mk.inj (Option.some.inj h)
    · exact .inl (waiting_of_kept rfl fun _ => rfl)
    · exact .inr ⟨call, _, rfl, rfl⟩
  | reject id =>
    refine .inl (waiting_of_kept ?_ fun _ => rfl)
    simp only [State.step] at h
    split at h <;> obtain ⟨rfl, -⟩ := Prod.mk.inj (Option.some.inj h) <;> rfl
  | list call target timeout =>
    cases begins_of_step h with
    | returns _ _ _ waiting => exact .inl (waiting_of_kept waiting fun _ => rfl)
    | waits _ _ waiting => exact .inr ⟨call, _, rfl, waiting⟩
  | watch call id timeout =>
    obtain ⟨rfl, -⟩ := Prod.mk.inj (Option.some.inj h)
    exact .inr ⟨call, _, rfl, rfl⟩
  | run task =>
    obtain ⟨W, -⟩ := meets_of_runTask h
    exact .inl (W.waiting.trans (List.append_nil _))
  | drop call =>
    obtain ⟨rfl, -⟩ := Prod.mk.inj (Option.some.inj h)
    have hleaves : (fun w : γ × Waiting => !(Action.drop call).leaves w.1) =
        fun w => decide (w.1 ≠ call) := by
      funext w
      simp only [Action.leaves, ne_eq, decide_not, eq_comm]
    rw [hleaves]
    exact .inl rfl
  | shutDown | get | setStore | unlink =>
    obtain ⟨rfl, -⟩ := Prod.mk.inj (Option.some.inj h)
    exact .inl (waiting_of_kept rfl fun _ => rfl)
  | link user device =>
    refine .inl (waiting_of_kept ?_ fun _ => rfl)
    simp only [State.step] at h
    split at h <;> obtain ⟨rfl, -⟩ := Prod.mk.inj (Option.some.inj h) <;> rfl
  | tick moment =>
    obtain ⟨-, h⟩ := Option.ite_none_right_eq_some.mp h
    obtain ⟨rfl, -⟩ := Prod.mk.inj (Option.some.inj h)
    exact .inl (waiting_of_kept rfl fun _ => rfl)

/-- What a call waits for after a step that does not begin it. -/
theorem lookup_of_step (h : s.step a = some (t, events)) (apart : a.begins? ≠ some call) :
    t.waiting.lookup call = if a.leaves call = true then none else s.waiting.lookup call := by
  rcases waiting_of_step h with hwaiting | ⟨other, w, begins, hwaiting⟩
  · rw [hwaiting]
    by_cases hleaves : a.leaves call = true
    · rw [if_pos hleaves, Keyed.lookup_eq_none_iff]
      intro hmem
      obtain ⟨w, hw, rfl⟩ := List.mem_map.mp hmem
      have hstays := (List.mem_filter.mp hw).2
      rw [hleaves] at hstays
      cases hstays
    · rw [if_neg hleaves]
      refine Keyed.lookup_filter (p := fun call => !a.leaves call) ?_
      rw [Bool.eq_false_iff.mpr hleaves]
      rfl
  · have hne : call ≠ other := fun heq => apart (heq ▸ begins)
    have hstays : ¬ a.leaves call = true := fun hleaves => by
      rw [Action.begins?_of_leaves hleaves] at begins
      cases begins
    rw [if_neg hstays, hwaiting, List.lookup_append, Keyed.lookup_cons_eq, if_neg hne]
    exact Option.or_none

/-- **What a call waits for after some steps that do not begin it**: nothing, once it has left. -/
theorem lookup_of_history (h : (machine γ).History u s steps) (alone : Alone call steps) :
    s.waiting.lookup call =
      if ∃ y ∈ steps, y.action.leaves call = true then none else u.waiting.lookup call := by
  induction h with
  | start => rw [if_neg (by simp)]
  | @step s t steps a events hs hstep ih =>
    obtain ⟨hearlier, hlast⟩ : Alone call steps ∧ a.begins? ≠ some call :=
      ⟨fun y hy => alone y (List.mem_append_left _ hy),
        alone ⟨s, a, t, events⟩ (List.mem_append_right _ List.mem_cons_self)⟩
    rw [lookup_of_step hstep hlast, ih hearlier]
    by_cases hleaves : a.leaves call = true
    · rw [if_pos hleaves, if_pos ⟨_, List.mem_append_right _ List.mem_cons_self, hleaves⟩]
    · rw [if_neg hleaves]
      refine if_congr ⟨?_, ?_⟩ rfl rfl
      · rintro ⟨y, hy, hyleaves⟩
        exact ⟨y, List.mem_append_left _ hy, hyleaves⟩
      · rintro ⟨y, hy, hyleaves⟩
        rcases List.mem_append.mp hy with hy | hy
        · exact ⟨y, hy, hyleaves⟩
        · obtain rfl := List.mem_singleton.mp hy
          exact absurd hyleaves hleaves

/-! ### At the registry -/

/-- What a listing asks the registry for that begins at a coordinator. -/
def query (c : Coordinator γ) (call : γ) (d : PrincipalId) (due : Nat) :
    Rendezvous.Query RequestId PairingRequest γ :=
  ⟨call, .any, fun _ => true, c.concerns d, some due⟩

/-- Of what is sent in a step, nothing was settled before. -/
def SendsUnsettled (c : Coordinator γ) (x : Step γ) : Prop :=
  ∀ id p q request, x.action = .send id p q → sent? x = some request →
    c.stateOf request.id = .pending

omit [DecidableEq γ] in
theorem findSome?_removes {β : Type} (ids : List β) (f : β → RequestId)
    (q : Rendezvous.Query RequestId PairingRequest γ) :
    (ids.map fun e => Rendezvous.Action.remove (f e)).findSome? q.settledBy? = none := by
  rw [List.findSome?_eq_none_iff]
  rintro _ ha
  obtain ⟨e, -, rfl⟩ := List.mem_map.mp ha
  rfl

/-- What a step does at the registry decides what the step decides. -/
theorem findSome?_visits {c : Coordinator γ} {x : Step γ} (unsettled : SendsUnsettled c x) (call : γ)
    (d : PrincipalId) (due : Nat) :
    (visits x).findSome? (query c call d due).settledBy? = decides? d x := by
  unfold visits decides?
  cases hx : x.action with
  | send id p q =>
    dsimp only
    cases hsent : sent? x with
    | none => rfl
    | some request =>
      have hconcerns := concerns_of_pending (unsettled id p q request hx hsent) d
      by_cases hd : addressed d request = true <;>
        simp [query, Rendezvous.Query.settledBy?, Rendezvous.Query.wants, Target.covers, hconcerns,
          hd, Option.filter_some]
  | shutDown =>
    dsimp only
    rw [List.findSome?_append, findSome?_removes]
    rfl
  | run task =>
    cases task with
    | timer | write => rfl
    | call other =>
      dsimp only
      split <;> rfl
  | _ => rfl

theorem verdict?_of_visits {c : Coordinator γ} (unsettled : ∀ x ∈ steps, SendsUnsettled c x)
    (call : γ) (d : PrincipalId) (due : Nat)
    {trace : List (Rendezvous.Step RequestId PairingRequest γ)}
    (htrace : trace.map (·.action) = steps.flatMap visits) :
    (query c call d due).verdict? trace = decision? d steps := by
  have hactions : (query c call d due).verdict? trace =
      (trace.map (·.action)).findSome? (query c call d due).settledBy? := by
    rw [List.findSome?_map]
    rfl
  rw [hactions, htrace]
  clear htrace hactions
  induction steps with
  | nil => rfl
  | cons x steps ih =>
    obtain ⟨hx, hsteps⟩ := List.forall_mem_cons.mp unsettled
    rw [List.flatMap_cons, List.findSome?_append, findSome?_visits hx, ih hsteps, decision?,
      decision?, List.findSome?_cons]
    cases decides? d x with
    | none | some => rfl

/-- What is sent after some steps was unsettled before them. -/
theorem sendsUnsettled_of_history (S : s.Sound) (h : (machine γ).History s t steps) :
    ∀ x ∈ steps, SendsUnsettled s.here x := by
  intro x hx id p q request hsend hsent
  obtain ⟨_, _, -, hbefore, hstep, -⟩ := h.of_mem hx
  have S' := sound_of_history hbefore S
  have sends := (sends_iff S'.here hstep).mpr ⟨⟨id, p, q, hsend⟩, hsent⟩
  have hlater := later_of_history hbefore S request.id
  rw [(stage_of_sends S'.here hstep sends).1] at hlater
  rw [S.here.stateOf_eq, hlater.eq_unsent]
  rfl

/-- What an action at the registry tells of the step that does it. -/
structure Visited (x : Step γ) (action : Rendezvous.Action RequestId PairingRequest γ) : Prop where
  lists : ∀ call accepts timeout, action = .list call accepts timeout → x.action.begins? = some call
  waits : ∀ call target accepts timeout, action ≠ .wait call target accepts timeout
  leaves : ∀ call, action.leaves call = true → x.action.leaves call = true
  closes : action = .close → x.action = .shutDown
  ticks : ∀ moment, action = .tick moment → x.action = .tick moment

theorem visited_of_mem {x : Step γ} {action : Rendezvous.Action RequestId PairingRequest γ}
    (h : action ∈ visits x) : Visited x action := by
  unfold visits at h
  cases haction : x.action with
  | send id p q =>
    rw [haction] at h
    obtain ⟨request, -, rfl⟩ := List.mem_map.mp h
    exact ⟨nofun, nofun, nofun, nofun, nofun⟩
  | accept | reject =>
    rw [haction] at h
    obtain rfl := List.mem_singleton.mp h
    exact ⟨nofun, nofun, nofun, nofun, nofun⟩
  | tick moment =>
    rw [haction] at h
    obtain rfl := List.mem_singleton.mp h
    refine ⟨nofun, nofun, nofun, nofun, fun other hother => ?_⟩
    rw [haction, Rendezvous.Action.tick.inj hother]
  | list call target timeout =>
    rw [haction] at h
    obtain rfl := List.mem_singleton.mp h
    refine ⟨fun other _ _ hother => ?_, nofun, nofun, nofun, nofun⟩
    rw [haction, (Rendezvous.Action.list.inj hother).1]
    rfl
  | drop call =>
    rw [haction] at h
    obtain rfl := List.mem_singleton.mp h
    exact ⟨nofun, nofun, fun other hother => haction ▸ hother, nofun, nofun⟩
  | shutDown =>
    rw [haction] at h
    rcases List.mem_append.mp h with h | h
    · obtain ⟨e, -, rfl⟩ := List.mem_map.mp h
      exact ⟨nofun, nofun, nofun, nofun, nofun⟩
    · obtain rfl := List.mem_singleton.mp h
      exact ⟨nofun, nofun, nofun, fun _ => haction, nofun⟩
  | run task =>
    rw [haction] at h
    cases task with
    | timer id =>
      obtain rfl := List.mem_singleton.mp h
      exact ⟨nofun, nofun, nofun, nofun, nofun⟩
    | write id => cases h
    | call call =>
      obtain ⟨-, h⟩ := List.mem_ite_nil_right.mp h
      obtain rfl := List.mem_singleton.mp h
      exact ⟨nofun, nofun, fun other hother => haction ▸ hother, nofun, nofun⟩
  | watch | get | setStore | link | unlink =>
    rw [haction] at h
    cases h

theorem now_of_step (h : s.step a = some (t, events)) (apart : ∀ moment, a ≠ .tick moment) :
    t.clock.now = s.clock.now := by
  obtain ⟨trace, hrun, hactions⟩ := visits_of_step h
  refine hrun.stays (P := fun r => r.now = s.clock.now) rfl fun y hy hsame => ?_
  have hmem : y.action ∈ trace.map (·.action) := List.mem_map_of_mem hy
  rw [hactions] at hmem
  obtain ⟨_, _, -, -, hstep, -⟩ := hrun.of_mem hy
  rcases Rendezvous.now_of_step hstep with hnow | hticks
  · exact hnow.trans hsame
  · exact absurd ((visited_of_mem hmem).ticks _ hticks) (apart _)

theorem visited_of_trace {trace : List (Rendezvous.Step RequestId PairingRequest γ)}
    (h : trace.map (·.action) = steps.flatMap visits)
    {y : Rendezvous.Step RequestId PairingRequest γ} (hy : y ∈ trace) :
    ∃ x ∈ steps, Visited x y.action := by
  have hmem : y.action ∈ trace.map (·.action) := List.mem_map_of_mem hy
  rw [h] at hmem
  obtain ⟨x, hx, hvisits⟩ := List.mem_flatMap.mp hmem
  exact ⟨x, hx, visited_of_mem hvisits⟩

section
variable {ttl : Nat} {clock : Clock} {store : PairingStore} {earlier later : List (Step γ)}
  {x : Step γ} {timeout : Nat}

/-- What is known at the registry of a listing that waits. -/
structure Projected (clock : Clock) (c : Coordinator γ) (s : State γ) (call : γ) (d : PrincipalId)
    (due : Nat) (later : List (Step γ))
    (first : List (Rendezvous.Step RequestId PairingRequest γ))
    (y : Rendezvous.Step RequestId PairingRequest γ)
    (rest : List (Rendezvous.Step RequestId PairingRequest γ)) : Prop where
  history : (Rendezvous.machine RequestId PairingRequest γ).History ⟨clock.now, {}⟩ s.place
    (first ++ y :: rest)
  asks : Rendezvous.asked? y = some (query c call d due)
  only : Rendezvous.AskedOnce (query c call d due) (first ++ rest)
  silent : y.events = []
  stays : ∀ z ∈ rest, z.action.leaves call = false
  verdict : (query c call d due).verdict? rest = decision? d later

/-- **A listing that waits at the coordinator waits at the registry.** -/
theorem projected_of_history
    (h : (machine γ).History (.fresh ttl clock store) s (earlier ++ x :: later))
    (hx : x.action = .list call d timeout) (alone : Alone call (earlier ++ later))
    (silent : x.events = []) (stays : ∀ y ∈ later, y.action.leaves call = false) :
    ∃ first y rest, Projected clock x.before.here s call d (timerDue x.before.clock.now timeout) later
      first y rest := by
  obtain ⟨_, hbefore, hfrom⟩ := h.split
  obtain ⟨rfl, hstep, hafter⟩ := hfrom.head
  rw [hx] at hstep
  have hasks : (Rendezvous.machine RequestId PairingRequest γ).step x.before.place
      (.list call (x.before.here.concerns d) (some timeout)) = some (x.after.place, []) := by
    cases begins_of_step hstep with
    | returns _ _ shown => cases silent.symm.trans shown
    | waits found _ _ now =>
      have hbegun : x.before.place.begun call (x.before.here.live.beginListing x.before.clock.now
          call (x.before.here.concerns d) (some timeout)) = (x.after.place, []) := by
        rw [found, State.place, State.place, now]
        rfl
      exact congrArg some hbegun
  obtain ⟨first, hfirst, hearlier⟩ := visits_of_history hbefore
  obtain ⟨rest, hrest, hlater⟩ := visits_of_history hafter
  have hrun := (hfirst.step hasks).trans hrest
  rw [List.append_assoc, List.singleton_append] at hrun
  have S := sound_of_history hbefore (fresh_sound ttl clock store)
  obtain ⟨-, unsettled⟩ := List.forall_mem_cons.mp (sendsUnsettled_of_history S hfrom)
  refine ⟨first, _, rest, hrun, rfl, ?_, rfl, fun z hz => ?_, verdict?_of_visits unsettled _ _ _ hlater⟩
  · intro z hz q hq hcall
    obtain ⟨y, hy, hvisited⟩ : ∃ y ∈ earlier ++ later, Visited y z.action := by
      rcases List.mem_append.mp hz with hz | hz
      · obtain ⟨y, hy, hvisited⟩ := visited_of_trace hearlier hz
        exact ⟨y, List.mem_append_left _ hy, hvisited⟩
      · obtain ⟨y, hy, hvisited⟩ := visited_of_trace hlater hz
        exact ⟨y, List.mem_append_right _ hy, hvisited⟩
    unfold Rendezvous.asked? at hq
    split at hq
    · next hwaits => exact hvisited.waits _ _ _ _ hwaits
    · next hlists =>
      obtain rfl := Option.some.inj hq
      have hbegins := hvisited.lists _ _ _ hlists
      exact alone y hy (hbegins.trans (congrArg some hcall))
    · cases hq
  · obtain ⟨y, hy, hvisited⟩ := visited_of_trace hlater hz
    refine Bool.eq_false_iff.mpr fun hleaves => ?_
    have hgone := hvisited.leaves call hleaves
    rw [stays y hy] at hgone
    cases hgone

/-- What a listing that waits can return. -/
theorem outcome?_of_history
    (h : (machine γ).History (.fresh ttl clock store) s (earlier ++ x :: later))
    (hx : x.action = .list call d timeout) (alone : Alone call (earlier ++ later))
    (silent : x.events = []) (stays : ∀ y ∈ later, y.action.leaves call = false) :
    s.here.live.outcome? s.clock.now call =
      yields? d (timerDue x.before.clock.now timeout) later s.clock.now := by
  obtain ⟨first, y, rest, P⟩ := projected_of_history h hx alone silent stays
  have houtcome := Rendezvous.outcome?_of_askedOnce P.history P.asks P.only P.silent P.stays
  rw [Rendezvous.Query.outcomeAt?, P.verdict] at houtcome
  refine houtcome.trans (congrArg (decision? d later).or ?_)
  exact if_congr decide_eq_true_iff rfl rfl

/-- A listing that waits and is not decided is one of the next things to fall due. -/
theorem mem_dues_of_history
    (h : (machine γ).History (.fresh ttl clock store) s (earlier ++ x :: later))
    (hx : x.action = .list call d timeout) (alone : Alone call (earlier ++ later))
    (silent : x.events = []) (stays : ∀ y ∈ later, y.action.leaves call = false)
    (undecided : decision? d later = none) :
    timerDue x.before.clock.now timeout ∈ s.here.live.waits.filterMap (·.due) := by
  obtain ⟨first, y, rest, P⟩ := projected_of_history h hx alone silent stays
  obtain ⟨entries, armed, hwaiting⟩ := (Rendezvous.tracked_of_history P.history).armed
  have hmem : query x.before.here call d (timerDue x.before.clock.now timeout) ∈
      Rendezvous.waiting (first ++ y :: rest) := by
    refine Rendezvous.mem_waiting_iff.mpr (Rendezvous.mem_standing_iff.mpr ?_)
    exact ⟨first, y, rest, rfl, Rendezvous.suspended?_eq_some_iff.mpr ⟨P.asks, P.silent⟩, P.stays,
      P.verdict.trans undecided⟩
  rw [← hwaiting] at hmem
  obtain ⟨e, he, hquery⟩ := List.mem_map.mp hmem
  have hwait : e.2.wait e.1 ∈ s.here.live.waits := armed.waits ▸ List.mem_map_of_mem he
  exact List.mem_filterMap.mpr ⟨_, hwait, congrArg Rendezvous.Query.due hquery⟩

omit [DecidableEq γ] in
theorem le_of_nextDue {moment due : Nat} (h : ∀ next, s.nextDue? = some next → moment ≤ next)
    (hdue : due ∈ s.here.live.waits.filterMap (·.due)) : moment ≤ due := by
  have hhere : ∀ next, s.here.nextDue? = some next → moment ≤ next := fun next hnext =>
    Machine.le_of_min? h (List.mem_append_right _ (Option.mem_toList.mpr hnext))
  have hlive : ∀ next, s.here.live.nextDue? = some next → moment ≤ next := fun next hnext =>
    Machine.le_of_min? hhere (List.mem_append_right _ (Option.mem_toList.mpr hnext))
  exact Machine.le_of_min? hlive hdue

/-- A listing is not beyond its time while it waits, if time passes only while nothing is ready. -/
theorem due_of_timely
    (h : (machine γ).History (.fresh ttl clock store) s (earlier ++ x :: later))
    (timely : (machine γ).Timely (earlier ++ x :: later))
    (hx : x.action = .list call d timeout) (alone : Alone call (earlier ++ later))
    (silent : x.events = []) (stays : ∀ y ∈ later, y.action.leaves call = false)
    (undecided : decision? d later = none) :
    s.clock.now ≤ timerDue x.before.clock.now timeout := by
  induction later using List.reverseRecOn generalizing s with
  | nil =>
    obtain ⟨_, -, hfrom⟩ := h.split
    obtain ⟨rfl, hstep, hafter⟩ := hfrom.head
    obtain rfl := hafter.nil
    rw [hx] at hstep
    cases begins_of_step hstep with
    | returns _ _ _ _ now | waits _ _ _ now =>
      rw [now]
      exact le_timerDue _ _
  | append_singleton later z ih =>
    rw [← List.cons_append, ← List.append_assoc] at h timely
    obtain ⟨_, hbefore, hfrom⟩ := h.split
    obtain ⟨rfl, hstep, hafter⟩ := hfrom.head
    obtain rfl := hafter.nil
    have alone' : Alone call (earlier ++ later) := fun y hy => alone y (by
      rcases List.mem_append.mp hy with hy | hy <;> simp [hy])
    have stays' : ∀ y ∈ later, y.action.leaves call = false := fun y hy =>
      stays y (List.mem_append_left _ hy)
    have undecided' : decision? d later = none := by
      rw [decision?, List.findSome?_append] at undecided
      exact (Option.or_eq_none_iff.mp undecided).1
    by_cases hticks : ∃ moment, z.action = .tick moment
    · obtain ⟨moment, hticks⟩ := hticks
      obtain ⟨-, hstop⟩ := timely z (List.mem_append_right _ List.mem_cons_self) moment hticks
      have hdue := mem_dues_of_history hbefore hx alone' silent stays' undecided'
      rw [hticks] at hstep
      obtain ⟨-, hafter⟩ := Option.ite_none_right_eq_some.mp hstep
      rw [← (Prod.mk.inj (Option.some.inj hafter)).1]
      exact le_of_nextDue hstop hdue
    · rw [now_of_step hstep fun moment hmoment => hticks ⟨moment, hmoment⟩]
      exact ih hbefore timely.append_left alone' stays' undecided'

end

end Coordinator
end DeviceRelay

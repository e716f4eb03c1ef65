/-
# The phases of all parties, one step at a time

Calls and sessions that publish are in phases. In one step a party begins, or one party leaves
its phase: it goes on to another, ends, or is dropped. All the others stay in theirs. Whatever
is neither the step of a party in a phase nor the end of one leaves the counts of requests and
pairings alone, and the cells of the rates, too, unless some come back.

Key definitions: `Action.party?`, `Server.phases`, `Server.leaves?`, `Server.Named`,
`Server.Shift`.
Key theorems: `Server.named_of_step`, `Server.shift_of_step`, `Server.named_of_history`.
-/
import DeviceRelay.Proofs.Server.Attendance
import DeviceRelay.Proofs.Server.Phases
import DeviceRelay.Proofs.Service.Ledger

namespace DeviceRelay

/-- The party that makes a step in an action, or that is dropped. -/
def Action.party? : Action → Option Task
  | .run task => some task
  | .dropCall label => some (.call label)
  | .dropSession name => some (.session name)
  | _ => none

namespace Server

/-- The phases of all parties. -/
def phases (s : Server) : List Phase :=
  s.calls.map (·.phase) ++ s.sessions.filterMap (·.phase.phase?)

/-- The phase that a party leaves in a step. -/
def leaves? (z : Step) : Option Phase := z.action.party?.bind z.before.phaseOf?

/-- No two calls have one label, and no two sessions one name. -/
structure Named (s : Server) : Prop where
  calls : (s.calls.map (·.label)).Nodup
  sessions : s.Distinct

/-- What a step does to the phases of the parties. -/
inductive Shift (z : Step) : Prop where
  | rests (still : leaves? z = none) (phases : z.after.phases.Perm z.before.phases)
    (ledger : z.after.service.ledger = z.before.service.ledger)
  | begins (call : Call) (still : leaves? z = none)
    (phases : z.after.phases.Perm (.begins call :: z.before.phases))
    (ledger : z.after.service.ledger = z.before.service.ledger)
  /-- A party makes a step of its own, and goes on or ends. -/
  | moves (task : Task) (asked : z.action = .run task) (phase : Phase)
    (here : z.before.phaseOf? task = some phase) (party : Party) (move : Move)
    (moves : z.before.service.step? party phase = some move)
    (service : z.after.service = move.service) (others : List Phase)
    (before : z.before.phases.Perm (phase :: others))
    (after : z.after.phases.Perm (move.progress.next?.toList ++ others))
  | drops (dropped : ∀ task, z.action ≠ .run task) (phase : Phase) (left : leaves? z = some phase)
    (phases : z.before.phases.Perm (phase :: z.after.phases))
    (ledger : z.after.service.ledger = z.before.service.ledger)
  | refills (common : Nat) (own : PrincipalId → Nat) (asked : z.action = .refill common own)
    (phases : z.after.phases = z.before.phases)
    (ledger : z.after.service.ledger = { z.before.service.ledger with
      limits := z.before.service.limits.refill common own })

variable {s t : Server} {a : Action} {events : List Event}

theorem leaves?_of_run {z : Step} {task : Task} (asked : z.action = .run task) :
    leaves? z = z.before.phaseOf? task := by
  unfold leaves?
  rw [asked]
  rfl

theorem leaves?_of_apart {z : Step} (apart : z.action.party? = none) : leaves? z = none := by
  unfold leaves?
  rw [apart]
  rfl

/-! ### Names -/

theorem named_start (hcalls : s.calls = []) (hsessions : s.sessions = []) : s.Named := by
  refine ⟨?_, ?_⟩
  · rw [hcalls]
    exact List.nodup_nil
  · rw [Distinct, hsessions]
    exact List.nodup_nil

/-- **Calls begin under new labels, and sessions under new names.** -/
theorem named_of_step (named : s.Named) (h : s.step a = some (t, events)) : t.Named := by
  refine ⟨?_, distinct_of_step named.sessions h⟩
  have hlabels := named.calls
  cases turn_of_step h with
  | still _ _ _ _ calls | opens _ _ _ _ _ _ _ calls | session _ _ _ _ _ _ calls
  | raw _ _ _ _ calls => exact calls ▸ hlabels
  | begins label origin call _ new calls =>
    rw [calls, List.map_append, List.map_singleton, ← List.concat_eq_append]
    refine hlabels.concat fun hlabel => ?_
    obtain ⟨c, hc, hclabel⟩ := List.mem_map.mp hlabel
    exact List.find?_eq_none.mp new c hc (by simpa using hclabel)
  | call label _ _ _ _ _ _ calls =>
    rcases calls with ⟨next, -, calls⟩ | ⟨_, -, calls⟩
    · have hsame : t.calls.map (·.label) = s.calls.map (·.label) := by
        rw [calls, List.map_map]
        refine List.map_congr_left fun c _ => ?_
        dsimp only [Function.comp_apply]
        split <;> rfl
      rw [hsame]
      exact hlabels
    · rw [calls]
      exact hlabels.sublist (List.filter_sublist.map _)
  | dropCall label _ _ calls =>
    rw [calls]
    exact hlabels.sublist (List.filter_sublist.map _)

/-! ### Calls -/

theorem phases_begin {label : String} {origin : Origin} {call : Call}
    (calls : t.calls = s.calls ++ [⟨label, origin, .begins call⟩])
    (sessions : t.sessions = s.sessions) : t.phases.Perm (.begins call :: s.phases) := by
  have hphases : t.phases =
      s.calls.map (·.phase) ++ .begins call :: s.sessions.filterMap (·.phase.phase?) := by
    rw [phases, calls, sessions, List.map_append, List.append_assoc]
    rfl
  rw [hphases]
  exact List.perm_middle

theorem phases_call (named : s.Named) {label : String} {c : Running}
    (here : s.call? label = some c) : ∃ others, s.phases.Perm (c.phase :: others) ∧
      (∀ (t : Server) (next : Phase), t.sessions = s.sessions → (t.calls = s.calls.map fun other =>
        if other.label = label then { other with phase := next } else other) →
          t.phases.Perm (next :: others)) ∧
      ∀ t : Server, t.sessions = s.sessions → t.calls = s.calls.filter (·.label ≠ label) →
        t.phases.Perm others := by
  refine ⟨(s.calls.filter (·.label ≠ label)).map (·.phase) ++
    s.sessions.filterMap (·.phase.phase?), ?_, ?_, ?_⟩
  · exact ((Keyed.perm_remove named.calls here).map _).append_right _
  · intro t next sessions calls
    rw [phases, calls, sessions]
    have hchange := Keyed.perm_change named.calls here fun c => { c with phase := next }
    exact (hchange.map _).append_right _
  · intro t sessions calls
    rw [phases, calls, sessions]

theorem phases_gone {label : String} (gone : s.call? label = none)
    (calls : t.calls = s.calls.filter (·.label ≠ label)) (sessions : t.sessions = s.sessions) :
    t.phases = s.phases := by
  have hall : s.calls.filter (·.label ≠ label) = s.calls := by
    refine List.filter_eq_self.mpr fun c hc => ?_
    have hother := List.find?_eq_none.mp gone c hc
    simpa using hother
  rw [phases, calls, sessions, hall]
  rfl

theorem shift_of_runCall (named : s.Named) {label : String}
    (h : s.runCall? label = some (t, events)) : Shift ⟨s, .run (.call label), t, events⟩ := by
  obtain ⟨c, move, here, moves, hservice, -, hsessions, hprogress⟩ := runCall_some h
  obtain ⟨others, hbefore, hnext, hends⟩ := phases_call named here
  have hphase : s.phaseOf? (.call label) = some c.phase := by
    rw [phaseOf?_call, here]
    rfl
  refine .moves _ rfl c.phase hphase _ move moves hservice others hbefore ?_
  rcases hprogress with ⟨next, goesOn, -, calls⟩ | ⟨ending, ends, -, calls⟩
  · rw [goesOn]
    exact hnext t next hsessions calls
  · rw [ends]
    exact hends t hsessions calls

theorem shift_of_dropCall (named : s.Named) {label : String}
    (calls : t.calls = s.calls.filter (·.label ≠ label)) (sessions : t.sessions = s.sessions)
    (ledger : t.service.ledger = s.service.ledger) :
    Shift ⟨s, .dropCall label, t, events⟩ := by
  have hleaves : leaves? ⟨s, .dropCall label, t, events⟩ = (s.call? label).map (·.phase) := rfl
  cases here : s.call? label with
  | none =>
    rw [here] at hleaves
    exact .rests hleaves (.of_eq (phases_gone here calls sessions)) ledger
  | some c =>
    rw [here] at hleaves
    obtain ⟨others, hbefore, -, hends⟩ := phases_call named here
    have hafter : t.phases.Perm others := hends t sessions calls
    exact .drops nofun c.phase hleaves (hbefore.trans (hafter.symm.cons _)) ledger

/-! ### Sessions -/

theorem filterMap_cons_toList {α β : Type} (f : α → Option β) (x : α) (l : List α) :
    (x :: l).filterMap f = (f x).toList ++ l.filterMap f := by
  rw [List.filterMap_cons]
  cases f x <;> rfl

theorem filterMap_concat {α β : Type} (f : α → Option β) (l : List α) (x : α) :
    (l ++ [x]).filterMap f = l.filterMap f ++ (f x).toList := by
  rw [List.filterMap_append, filterMap_cons_toList, List.filterMap_nil, List.append_nil]

theorem phases_setSession (named : s.Named) {x y : Session} (here : s.session? x.name = some x)
    (same : y.name = x.name) : ∃ others, s.phases.Perm (x.phase.phase?.toList ++ others) ∧
      ∀ t : Server, t.calls = s.calls → t.sessions = (s.setSession y).sessions →
        t.phases.Perm (y.phase.phase?.toList ++ others) := by
  have hsplit {l : List Session} {z : Session}
      (h : l.Perm (z :: s.sessions.filter (·.name ≠ x.name))) :
      (s.calls.map (·.phase) ++ l.filterMap (·.phase.phase?)).Perm (z.phase.phase?.toList ++
        (s.calls.map (·.phase) ++ (s.sessions.filter (·.name ≠ x.name)).filterMap
          (·.phase.phase?))) := by
    have hrest := h.filterMap (·.phase.phase?)
    rw [filterMap_cons_toList] at hrest
    exact (hrest.append_left _).trans (List.perm_append_comm_assoc ..)
  refine ⟨_, hsplit (Keyed.perm_remove named.sessions here), ?_⟩
  intro t calls sessions
  have hchange := Keyed.perm_change named.sessions here fun _ => y
  rw [← same] at hchange
  rw [phases, calls, sessions]
  refine hsplit ?_
  rw [← same]
  exact hchange

/-- A session that is in no phase before and after a step of it, or stays in its phase. -/
theorem Shift.of_session (named : s.Named) {x : Session} {r : Service × Session}
    (here : s.session? x.name = some x) (same : r.2.name = x.name)
    (calls : t.calls = s.calls) (sessions : t.sessions = (s.setSession r.2).sessions)
    (ledger : t.service.ledger = s.service.ledger)
    (still : leaves? ⟨s, a, t, events⟩ = none) (phase : r.2.phase.phase? = x.phase.phase?) :
    Shift ⟨s, a, t, events⟩ := by
  obtain ⟨others, hbefore, hafter⟩ := phases_setSession named here same
  have hshifted := hafter t calls sessions
  rw [phase] at hshifted
  exact .rests still (hshifted.trans hbefore.symm) ledger

theorem shift_of_publishes (named : s.Named) {x : Session} (here : s.session? x.name = some x)
    {messageId : String} {phase : Phase} (before : x.phase = .publishes messageId phase)
    {move : Move} (moves : s.service.step? (.session x.name) phase = some move)
    (calls : t.calls = s.calls) (sessions : t.sessions = (s.setSession
      { x with phase := Session.onProgress messageId move.progress }).sessions)
    (service : t.service = move.service) :
    Shift ⟨s, .run (.session x.name), t, events⟩ := by
  obtain ⟨others, hbefore, hafter⟩ := phases_setSession
    (y := { x with phase := Session.onProgress messageId move.progress }) named here rfl
  have hshifted := hafter t calls sessions
  have hphase : s.phaseOf? (.session x.name) = some phase := by
    rw [phaseOf?_session here, before]
    rfl
  rw [before] at hbefore
  refine .moves _ rfl phase hphase _ move moves service others hbefore ?_
  cases hprogress : move.progress with
  | goesOn | ends =>
    rw [hprogress] at hshifted
    exact hshifted

/-- A session that takes up a text begins to publish, or refuses it. -/
theorem shift_of_hears (named : s.Named) {x : Session} {connection : Connection} {text : String}
    (here : s.session? x.name = some x) (waits : x.phase = .selects)
    (calls : t.calls = s.calls)
    (sessions : t.sessions = (s.setSession ({ x with connection }.takeText text)).sessions)
    (ledger : t.service.ledger = s.service.ledger) :
    Shift ⟨s, .choose x.name .receive, t, events⟩ := by
  have hsame : ({ x with connection }.takeText text).name = x.name :=
    (Session.same_takeText { x with connection } text).name
  obtain ⟨others, hbefore, hafter⟩ := phases_setSession named here hsame
  have hshifted := hafter t calls sessions
  rw [waits] at hbefore
  cases hphase : ({ x with connection }.takeText text).phase.phase? with
  | none =>
    rw [hphase] at hshifted
    exact .rests rfl (hshifted.trans hbefore.symm) ledger
  | some phase =>
    obtain ⟨call, rfl⟩ := phase?_takeText hphase
    rw [hphase] at hshifted
    exact .begins call rfl (hshifted.trans (hbefore.symm.cons _)) ledger

theorem phase?_drop (v : Service) (x : Session) : (x.drop v).2.phase.phase? = none := by
  unfold Session.drop
  split
  · rfl
  · next hruns =>
    cases hphase : x.phase with
    | publishes => simp [Session.isRunning, hphase] at hruns
    | _ => rfl

theorem ledger_drop (v : Service) (x : Session) : (x.drop v).1.ledger = v.ledger := by
  unfold Session.drop
  split <;> rfl

theorem shift_of_dropSession (named : s.Named) {x : Session} (here : s.session? x.name = some x)
    (calls : t.calls = s.calls)
    (sessions : t.sessions = (s.setSession (x.drop s.service).2).sessions)
    (ledger : t.service.ledger = s.service.ledger) :
    Shift ⟨s, .dropSession x.name, t, events⟩ := by
  have hsame : (x.drop s.service).2.name = x.name := (x.same_drop s.service).name
  have hleaves : leaves? ⟨s, .dropSession x.name, t, events⟩ = x.phase.phase? :=
    phaseOf?_session here
  have hafter := phase?_drop s.service x
  cases hphase : x.phase.phase? with
  | none =>
    refine .of_session named here hsame calls sessions ledger ?_ ?_
    · rw [hleaves, hphase]
    · rw [hafter, hphase]
  | some phase =>
    obtain ⟨others, hbefore, hothers⟩ := phases_setSession named here hsame
    have hshifted := hothers t calls sessions
    rw [hafter] at hshifted
    rw [hphase] at hbefore hleaves
    exact .drops nofun phase hleaves (hbefore.trans (hshifted.symm.cons _)) ledger

/-- **What the turn of a session does to the phases.** -/
theorem shift_of_session (named : s.Named) {x : Session} {r : Service × Session}
    (here : s.session? x.name = some x) (turn : SessionTurn s x a r)
    (calls : t.calls = s.calls) (sessions : t.sessions = (s.setSession r.2).sessions)
    (service : t.service = r.1) : Shift ⟨s, a, t, events⟩ := by
  have hledger : t.service.ledger = r.1.ledger := congrArg Service.ledger service
  have hsame := turn.same.name
  cases turn with
  | forward _ turn =>
    cases turn with
    | reserves _ _ _ after =>
      subst after
      exact .of_session named here hsame calls sessions hledger rfl rfl
    | consumes _ _ _ consumed? _ after =>
      subst after
      refine .of_session named here hsame calls sessions hledger rfl ?_
      cases consumed? with
      | none => rfl
      | some consumed => cases consumed <;> rfl
  | choose choice _ waits turn =>
    cases turn with
    | hears asked connection text _ after =>
      subst after asked
      exact shift_of_hears named here waits calls sessions hledger
    | keeps _ _ after =>
      subst after
      exact .of_session named here hsame calls sessions hledger rfl rfl
    | refuses _ _ _ after | takes _ _ after | ends _ _ _ after =>
      subst after
      exact .of_session named here hsame calls sessions hledger rfl
        (congrArg SessionPhase.phase? waits).symm
  | proceed _ turn =>
    cases turn with
    | publishes messageId phase before move moves after =>
      subst after
      exact shift_of_publishes named here before moves calls sessions service
    | sends _ before _ _ after | ends _ before _ _ _ after =>
      subst after
      have hstill : s.phaseOf? (.session x.name) = none := by
        rw [phaseOf?_session here, before]
        rfl
      exact .of_session named here hsame calls sessions hledger hstill
        (congrArg SessionPhase.phase? before).symm
  | drop =>
    rw [ledger_drop] at hledger
    exact shift_of_dropSession named here calls sessions hledger
  | peer => exact .of_session named here hsame calls sessions hledger rfl rfl

/-! ### All steps -/

theorem shift_of_after (named : s.Named) {x : Session} {r : Service × Session}
    (here : s.session? x.name = some x) (turn : SessionTurn s x a r)
    (after : s.after r = (t, events)) : Shift ⟨s, a, t, events⟩ := by
  obtain rfl : (s.after r).1 = t := congrArg Prod.fst after
  refine shift_of_session named here turn ?_ ?_ (service_after s r) <;> unfold Server.after <;>
    dsimp only <;> split <;> rfl

theorem Shift.of_same (calls : t.calls = s.calls) (sessions : t.sessions = s.sessions)
    (ledger : t.service.ledger = s.service.ledger) (still : leaves? ⟨s, a, t, events⟩ = none) :
    Shift ⟨s, a, t, events⟩ := by
  have hphases : t.phases = s.phases := by
    rw [phases, calls, sessions]
    rfl
  exact .rests still (.of_eq hphases) ledger

theorem shift_of_beginCall {label : String} {origin : Origin} {call : Call}
    (h : s.beginCall? label origin call = some t) (apart : a.party? = none) :
    Shift ⟨s, a, t, events⟩ := by
  obtain ⟨_, -, -, -, rfl⟩ := beginCall_some h
  exact .begins call (leaves?_of_apart apart) (phases_begin rfl rfl) rfl

theorem shift_of_openSession {name : String} {p : Principal} {connection : Connection}
    (h : s.openSession? name p connection = some t) (apart : a.party? = none) :
    Shift ⟨s, a, t, events⟩ := by
  unfold openSession? at h
  obtain ⟨-, h⟩ := Option.ite_none_left_eq_some.mp h
  obtain rfl := Option.some.inj h
  refine .rests (leaves?_of_apart apart) (.of_eq ?_) rfl
  dsimp only [phases]
  rw [List.filterMap_append]
  exact congrArg _ (List.append_nil _)

theorem shift_of_runTask (named : s.Named) {task : Task}
    (h : s.runTask? task = some (t, events)) : Shift ⟨s, .run task, t, events⟩ := by
  cases task with
  | call label => exact shift_of_runCall named h
  | background b =>
    obtain ⟨service, hb, h⟩ := Option.map_eq_some_iff.mp h
    obtain ⟨rfl, rfl⟩ := Prod.mk.inj h
    have hledger : service.ledger = s.service.ledger := by
      cases b with
      | timer id | write id =>
        obtain ⟨_, -, rfl⟩ := Option.map_eq_some_iff.mp hb
        rfl
    exact .of_same rfl rfl hledger rfl
  | forward name =>
    obtain ⟨x, hx, h⟩ := Option.bind_eq_some_iff.mp h
    obtain ⟨r, hr, hafter⟩ := Option.bind_eq_some_iff.mp h
    obtain rfl := session_name hx
    have turn := Session.forwarded_of_forward? hr
    exact shift_of_after named hx (.forward r turn) (Option.some.inj hafter)
  | session name =>
    obtain ⟨x, hx, h⟩ := Option.bind_eq_some_iff.mp h
    obtain ⟨r, hr, hafter⟩ := Option.bind_eq_some_iff.mp h
    obtain rfl := session_name hx
    have turn := Session.proceeded_of_proceed? hr
    exact shift_of_after named hx (.proceed r turn) (Option.some.inj hafter)

/-- **In every step a party begins, or one party leaves its phase, or none does.** -/
theorem shift_of_step (named : s.Named) (h : s.step a = some (t, events)) :
    Shift ⟨s, a, t, events⟩ := by
  cases a with
  | call label call =>
    obtain ⟨t', ht, h⟩ := Option.map_eq_some_iff.mp h
    obtain ⟨rfl, -⟩ := Prod.mk.inj h
    exact shift_of_beginCall ht rfl
  | http label r draw =>
    simp only [step, beginHttp?] at h
    split at h
    · obtain ⟨rfl, -⟩ := Prod.mk.inj (Option.some.inj h)
      exact .of_same rfl rfl rfl rfl
    · obtain ⟨t', ht, h⟩ := Option.map_eq_some_iff.mp h
      obtain ⟨rfl, -⟩ := Prod.mk.inj h
      exact shift_of_beginCall ht rfl
  | openSession name p connection =>
    obtain ⟨t', ht, h⟩ := Option.map_eq_some_iff.mp h
    obtain ⟨rfl, -⟩ := Prod.mk.inj h
    exact shift_of_openSession ht rfl
  | handshake name r =>
    simp only [step, shake?] at h
    split at h
    · obtain ⟨rfl, -⟩ := Prod.mk.inj (Option.some.inj h)
      exact .of_same rfl rfl rfl rfl
    · obtain ⟨t', ht, h⟩ := Option.map_eq_some_iff.mp h
      obtain ⟨rfl, -⟩ := Prod.mk.inj h
      exact shift_of_openSession ht rfl
  | run task => exact shift_of_runTask named h
  | choose name choice =>
    obtain ⟨x, hx, h⟩ := Option.bind_eq_some_iff.mp h
    obtain ⟨r, hr, hafter⟩ := Option.bind_eq_some_iff.mp h
    obtain rfl := session_name hx
    obtain ⟨waits, turn⟩ := Session.chosen_of_choose? hr
    exact shift_of_after named hx (.choose choice r waits turn) (Option.some.inj hafter)
  | peer name event =>
    obtain ⟨x, hx, h⟩ := Option.map_eq_some_iff.mp h
    obtain ⟨rfl, -⟩ := Prod.mk.inj h
    obtain rfl := session_name hx
    exact shift_of_session named hx (.peer event) rfl rfl rfl
  | dropCall label =>
    obtain ⟨rfl, -⟩ := Prod.mk.inj (Option.some.inj h)
    exact shift_of_dropCall named rfl rfl rfl
  | dropSession name =>
    obtain ⟨x, hx, h⟩ := Option.map_eq_some_iff.mp h
    obtain ⟨rfl, -⟩ := Prod.mk.inj h
    obtain rfl := session_name hx
    exact shift_of_session named hx .drop rfl rfl rfl
  | shutDown | setStore delay fault | setQueues fault | pushRaw recipient bytes =>
    obtain ⟨rfl, -⟩ := Prod.mk.inj (Option.some.inj h)
    exact .of_same rfl rfl rfl rfl
  | refill common own =>
    obtain ⟨rfl, -⟩ := Prod.mk.inj (Option.some.inj h)
    exact .refills common own rfl rfl rfl
  | link user device =>
    simp only [step] at h
    split at h <;> obtain ⟨rfl, -⟩ := Prod.mk.inj (Option.some.inj h) <;>
      exact .of_same rfl rfl rfl rfl
  | tick moment =>
    simp only [step] at h
    split at h
    · obtain ⟨rfl, -⟩ := Prod.mk.inj (Option.some.inj h)
      exact .of_same rfl rfl rfl rfl
    · cases h

/-- **In every state of a run calls and sessions have names of their own.** -/
theorem named_of_history {start : Server} {steps : List Step} (h : machine.History start s steps)
    (hcalls : start.calls = []) (hsessions : start.sessions = []) : s.Named :=
  h.invariant (named_start hcalls hsessions) fun _ _ _ _ named hstep => named_of_step named hstep

end Server
end DeviceRelay

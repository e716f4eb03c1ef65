/-
# No more letters are accepted than the rates allow

A letter that is queued has taken a cell of its sender and one from the common bucket when its
call began. Until then the call held these cells, and other calls that began in the meantime
took others. So the letters that were queued, the cells that calls hold and the cells that are
left are together never more than the buckets had at the start and the cells that came back
since, whatever else the calls, the sessions and the clients do.

Key definitions: `Server.held`, `Server.paid`, `Server.regained`, `Server.Rationed`.
Key theorems: `Server.paid_of_step`, `Server.paid_of_history`, `Server.bounded_of_history`,
`Server.published_by_first_check`.
-/
import DeviceRelay.Proofs.Server.Settings
import DeviceRelay.Proofs.Server.Shifts
import DeviceRelay.Proofs.Service.Endings
import DeviceRelay.Proofs.Service.Publishing

namespace DeviceRelay

/-- Whether cells come back in an action. -/
def Action.isRefill : Action → Bool
  | .refill .. => true
  | _ => false

namespace Server

open RateLimits (Budget)

/-- How many cells of a budget are held by calls whose letters are on the way. -/
def held (b : Budget) (s : Server) : Nat := (s.phases.filterMap Phase.cell?).countP b.covers

/-- How many letters that were queued in a run draw on a budget. -/
def paid (b : Budget) (steps : List Step) : Nat :=
  (steps.filterMap accepted?).countP fun letter => b.covers letter.sender

/-- How many cells of a budget came back in a run. -/
def regained (b : Budget) (steps : List Step) : Nat :=
  (steps.map fun z =>
    if z.action.isRefill = true then
      b.left z.after.service.limits - b.left z.before.service.limits else 0).sum

/-- What the rates of a configuration mean for a run. -/
structure Rationed (config : Config) (steps : List Step) : Prop where
  /-- Without a refill a sender is within its rate, and all together are within the common one. -/
  sender : (∀ z ∈ steps, z.action.isRefill = false) →
    ∀ q, (steps.filterMap accepted?).countP (·.sender = q) ≤ config.limits.messagesPerMinute
  total : (∀ z ∈ steps, z.action.isRefill = false) →
    (steps.filterMap accepted?).length ≤ config.limits.globalRequestsPerSecond
  /-- Beyond that there is at most one letter for each cell that came back. -/
  senderRegained : ∀ q, (steps.filterMap accepted?).countP (·.sender = q) ≤
    config.limits.messagesPerMinute + regained (.of q) steps
  totalRegained : (steps.filterMap accepted?).length ≤
    config.limits.globalRequestsPerSecond + regained .common steps
  /-- To publish a letter succeeds in the steps that are counted here, and in no others. -/
  told : ∀ z ∈ steps, ∀ task phase letter, z.action = .run task →
    z.before.phaseOf? task = some phase → phase.letter? = some letter →
      ∃ party move, z.before.service.step? party phase = some move ∧
        z.after.service = move.service ∧
        (move.progress = .ends (.answered .done) ↔ accepted? z = some letter)

variable {start s t : Server} {a : Action} {events : List Event} {steps : List Step}

/-! ### Steps -/

/-- A step queues a letter only if its party leaves the phase in which it was to do so. -/
theorem leaves?_of_accepted {z : Step} {letter : Letter} (h : accepted? z = some letter) :
    leaves? z = some (.queues letter) := by
  obtain ⟨task, asked, here⟩ := phaseOf?_of_accepted h
  rw [leaves?_of_run asked, here]

theorem paid_of_accepted {z : Step} (b : Budget) {letter : Letter}
    (h : accepted? z = some letter) :
    paid b [z] = if b.covers letter.sender = true then 1 else 0 := by
  unfold paid
  rw [filterMap_cons_toList, h]
  exact List.countP_singleton

theorem paid_of_none {z : Step} (b : Budget) (h : accepted? z = none) : paid b [z] = 0 := by
  unfold paid
  rw [filterMap_cons_toList, h]
  rfl

/-- How many cells one holds who holds those of a sender. -/
def cells (b : Budget) (sender? : Option PrincipalId) : Nat := sender?.toList.countP b.covers

theorem held_of_perm (b : Budget) (phase? : Option Phase) {others : List Phase}
    (h : s.phases.Perm (phase?.toList ++ others)) : held b s =
      cells b (phase?.bind Phase.cell?) + (others.filterMap Phase.cell?).countP b.covers := by
  unfold held cells
  rw [(h.filterMap Phase.cell?).countP_eq, List.filterMap_append, List.countP_append]
  cases phase? with
  | none => rfl
  | some phase =>
    rw [Option.toList_some, filterMap_cons_toList, List.filterMap_nil, List.append_nil]
    rfl

/-- A party that moves gives up as many cells as it draws or takes. -/
theorem cells_of_moves (b : Budget) (S : s.Sound) {task : Task} {phase : Phase} {party : Party}
    {move : Move} (asked : a = .run task) (here : s.phaseOf? task = some phase)
    (moves : s.service.step? party phase = some move) (service : t.service = move.service) :
    paid b [⟨s, a, t, events⟩] + cells b (move.progress.next?.bind Phase.cell?) +
      b.left t.service.limits ≤ cells b phase.cell? + b.left s.service.limits := by
  have hqueues {letter : Letter} (haccepted : accepted? ⟨s, a, t, events⟩ = some letter) :
      phase = .queues letter := by
    have hleaves := leaves?_of_accepted haccepted
    rw [leaves?_of_run asked] at hleaves
    exact Option.some.inj (here.symm.trans hleaves)
  rw [service]
  cases Service.spent_of_step? S.requests moves with
  | rests limits after =>
    rw [limits]
    refine Nat.add_le_add_right ?_ _
    cases hnext : move.progress.next?.bind Phase.cell? with
    | some q =>
      obtain ⟨hcell, hearly⟩ := after q hnext
      have hnone : accepted? ⟨s, a, t, events⟩ = none :=
        Option.eq_none_iff_forall_ne_some.mpr fun letter haccepted =>
          hearly letter (hqueues haccepted)
      rw [paid_of_none b hnone, Nat.zero_add, hcell]
    | none =>
      cases haccepted : accepted? ⟨s, a, t, events⟩ with
      | none =>
        rw [paid_of_none b haccepted]
        exact Nat.zero_le _
      | some letter =>
        obtain rfl := hqueues haccepted
        rw [paid_of_accepted b haccepted]
        exact Nat.le_of_eq List.countP_singleton.symm
  | takes sender before limits after =>
    have hnone : accepted? ⟨s, a, t, events⟩ = none := by
      refine Option.eq_none_iff_forall_ne_some.mpr fun letter haccepted => ?_
      obtain rfl := hqueues haccepted
      cases before
    rw [paid_of_none b hnone, Nat.zero_add, before, limits]
    have hshrinks := b.shrinks s.service.limits sender
    cases hnext : move.progress.next?.bind Phase.cell? with
    | none => exact Nat.add_le_add_left hshrinks 0
    | some q =>
      obtain ⟨rfl, hok⟩ := after q hnext
      have hone : cells b (some q) = if b.covers q = true then 1 else 0 := List.countP_singleton
      have hzero : cells b none = 0 := rfl
      by_cases hcovers : b.covers q = true
      · have hpays := b.pays s.service.limits q hcovers hok
        rw [if_pos hcovers] at hone
        omega
      · rw [if_neg hcovers] at hone
        omega

theorem regained_of_refill (b : Budget) {z : Step} (h : z.action.isRefill = true) :
    regained b [z] = b.left z.after.service.limits - b.left z.before.service.limits := by
  unfold regained
  rw [List.map_singleton, if_pos h, List.sum_singleton]

/-- **In a step no cells come up but those that come back.** -/
theorem paid_of_step (b : Budget) (S : s.Sound) (named : s.Named)
    (h : s.step a = some (t, events)) :
    paid b [⟨s, a, t, events⟩] + held b t + b.left t.service.limits ≤
      held b s + b.left s.service.limits + regained b [⟨s, a, t, events⟩] := by
  have hnone (left : ∀ letter, leaves? ⟨s, a, t, events⟩ ≠ some (.queues letter)) :
      paid b [⟨s, a, t, events⟩] = 0 :=
    paid_of_none b (Option.eq_none_iff_forall_ne_some.mpr fun letter haccepted =>
      left letter (leaves?_of_accepted haccepted))
  cases shift_of_step named h with
  | rests still phases ledger =>
    have hlimits : t.service.limits = s.service.limits :=
      congrArg Service.Ledger.limits ledger
    have hheld : held b t = held b s := (phases.filterMap Phase.cell?).countP_eq _
    rw [hnone (by rw [still]; nofun), hlimits, hheld, Nat.zero_add]
    exact Nat.le_add_right _ _
  | begins call still phases ledger =>
    have hlimits : t.service.limits = s.service.limits :=
      congrArg Service.Ledger.limits ledger
    have hheld : held b t = held b s := (phases.filterMap Phase.cell?).countP_eq _
    rw [hnone (by rw [still]; nofun), hlimits, hheld, Nat.zero_add]
    exact Nat.le_add_right _ _
  | refills common own asked phases =>
    have still : leaves? ⟨s, a, t, events⟩ = none := leaves?_of_apart (by rw [asked]; rfl)
    have hheld : held b t = held b s :=
      congrArg (fun l : List Phase => (l.filterMap Phase.cell?).countP b.covers) phases
    rw [hnone (by rw [still]; nofun), hheld, regained_of_refill b (by rw [asked]; rfl)]
    dsimp only
    omega
  | moves task asked phase here party move moves service others before after =>
    have hmoves : paid b [⟨s, a, t, events⟩] + cells b (move.progress.next?.bind Phase.cell?) +
        b.left t.service.limits ≤ cells b phase.cell? + b.left s.service.limits :=
      cells_of_moves b S asked here moves service
    have hbefore : held b s = cells b phase.cell? +
        (others.filterMap Phase.cell?).countP b.covers :=
      held_of_perm b (some phase) before
    have hafter : held b t = cells b (move.progress.next?.bind Phase.cell?) +
        (others.filterMap Phase.cell?).countP b.covers := held_of_perm b _ after
    omega
  | drops dropped phase left phases ledger =>
    have hlimits : t.service.limits = s.service.limits :=
      congrArg Service.Ledger.limits ledger
    have hheld : held b s = cells b phase.cell? + held b t :=
      held_of_perm b (some phase) phases
    have hpaid : paid b [⟨s, a, t, events⟩] = 0 := by
      refine paid_of_none b (Option.eq_none_iff_forall_ne_some.mpr fun letter haccepted => ?_)
      obtain ⟨task, asked, -⟩ := phaseOf?_of_accepted haccepted
      exact dropped task asked
    rw [hpaid, hlimits]
    omega

/-! ### Runs -/

theorem paid_append (b : Budget) (xs ys : List Step) :
    paid b (xs ++ ys) = paid b xs + paid b ys := by
  unfold paid
  rw [List.filterMap_append, List.countP_append]

theorem regained_append (b : Budget) (xs ys : List Step) :
    regained b (xs ++ ys) = regained b xs + regained b ys := by
  unfold regained
  rw [List.map_append, List.sum_append]

theorem regained_eq_zero (b : Budget) (h : ∀ z ∈ steps, z.action.isRefill = false) :
    regained b steps = 0 := by
  induction steps with
  | nil => rfl
  | cons z steps ih =>
    obtain ⟨hz, hsteps⟩ := List.forall_mem_cons.mp h
    rw [← List.singleton_append, regained_append, ih hsteps, regained, List.map_singleton, hz,
      if_neg Bool.false_ne_true]
    rfl

/-- **Along a run the letters that were queued and the cells that are held or left do not exceed
what was left at its start and came back since.** -/
theorem paid_of_history (b : Budget) (S : start.Sound) (hcalls : start.calls = [])
    (hsessions : start.sessions = []) (h : machine.History start s steps) :
    paid b steps + held b s + b.left s.service.limits ≤
      b.left start.service.limits + regained b steps := by
  induction h with
  | start =>
    have hphases : start.phases = [] := by
      rw [phases, hcalls, hsessions]
      rfl
    have hheld : held b start = 0 := by
      rw [held, hphases]
      rfl
    have hpaid : paid b [] = 0 := rfl
    omega
  | step hs hstep ih =>
    have named := named_of_history hs hcalls hsessions
    have hpaid := paid_of_step b (sound_of_history hs S) named hstep
    rw [paid_append, regained_append]
    omega

theorem limits_of_ofConfig {config : Config} {epoch : Int} (h : ofConfig config epoch = .ok s) :
    RateLimits.ofConfig config.limits = .ok s.service.limits := by
  unfold ofConfig Service.ofConfig at h
  split at h
  · cases h
  · split at h
    · cases h
    · next limits hlimits =>
      obtain rfl := Except.ok.inj h
      exact hlimits

theorem ofConfig_full {config : Config} {epoch : Int} (h : ofConfig config epoch = .ok s) :
    s.service.limits.globalLeft = config.limits.globalRequestsPerSecond ∧
      ∀ q, s.service.limits.leftFor q = config.limits.messagesPerMinute := by
  have hlimits := limits_of_ofConfig h
  unfold RateLimits.ofConfig at hlimits
  split at hlimits
  · cases hlimits
  · split at hlimits
    · cases hlimits
    · rw [← Except.ok.inj hlimits]
      exact ⟨rfl, fun q => rfl⟩

/-- **No bucket ever holds more than it has room for**, in every state of a run. -/
theorem bounded_of_history {config : Config} {epoch : Int}
    (hstart : ofConfig config epoch = .ok start) (h : machine.History start s steps) :
    s.service.limits.Bounded := by
  obtain ⟨-, hcalls, hsessions⟩ := ofConfig_ok hstart
  induction h with
  | start => exact RateLimits.bounded_ofConfig (limits_of_ofConfig hstart)
  | @step u t steps a events hs hstep B =>
    have same (ledger : t.service.ledger = u.service.ledger) : t.service.limits.Bounded := by
      have hlimits : t.service.limits = u.service.limits := congrArg Service.Ledger.limits ledger
      exact hlimits ▸ B
    cases shift_of_step (named_of_history hs hcalls hsessions) hstep with
    | rests _ _ ledger | begins _ _ _ ledger | drops _ _ _ _ ledger => exact same ledger
    | refills common own _ _ ledger =>
      have hlimits : t.service.limits = u.service.limits.refill common own :=
        congrArg Service.Ledger.limits ledger
      exact hlimits ▸ B.refill common own
    | moves task asked phase here party move moves service =>
      have hservice : t.service = move.service := service
      have S := sound_of_history hs (ofConfig_sound hstart)
      rw [hservice]
      cases Service.spent_of_step? S.requests moves with
      | rests limits => exact limits ▸ B
      | takes sender before limits => exact limits ▸ B.takeCells sender

/-- To publish a letter succeeds in just the steps that queue it. -/
theorem told_of_step (named : s.Named) (h : s.step a = some (t, events)) {task : Task}
    {phase : Phase} {letter : Letter} (asked : a = .run task)
    (here : s.phaseOf? task = some phase) (carries : phase.letter? = some letter) :
    ∃ party move, s.service.step? party phase = some move ∧ t.service = move.service ∧
      (move.progress = .ends (.answered .done) ↔ accepted? ⟨s, a, t, events⟩ = some letter) := by
  have hleaves : leaves? ⟨s, a, t, events⟩ = some phase := (leaves?_of_run asked).trans here
  cases shift_of_step named h with
  | rests still | begins _ still => cases still.symm.trans hleaves
  | refills common own refilled => cases refilled.symm.trans asked
  | drops dropped => exact absurd asked (dropped task)
  | moves other asked' previous here' party move moves service =>
    obtain rfl := Action.run.inj (asked.symm.trans asked')
    obtain rfl := Option.some.inj (here.symm.trans here')
    refine ⟨party, move, moves, service, ?_⟩
    cases Service.published_of_step? carries moves with
    | carries next goesOn after =>
      refine iff_of_false (by rw [goesOn]; nofun) fun haccepted => ?_
      obtain rfl : phase = .queues letter :=
        Option.some.inj (hleaves.symm.trans (leaves?_of_accepted haccepted))
      -- whoever queues a letter ends with it
      cases (Service.passes_of_step? moves).follows goesOn with
      | waits _ _ hwaits =>
        cases next with
        | awaits | lists | consumes => cases after
        | _ => exact hwaits
    | enqueued before usable ends =>
      refine iff_of_true ends (accepted?_of_queues asked ?_ usable)
      rw [here, before]
    | fails e ends refused =>
      refine iff_of_false (by rw [ends]; nofun) fun haccepted => ?_
      obtain rfl : phase = .queues letter :=
        Option.some.inj (hleaves.symm.trans (leaves?_of_accepted haccepted))
      rw [accepted?_eq_none asked here refused] at haccepted
      cases haccepted

/-- **No more letters are accepted in a run than the rates allow.** -/
theorem rationed_of_history {config : Config} {epoch : Int}
    (hstart : ofConfig config epoch = .ok start) (h : machine.History start s steps) :
    Rationed config steps := by
  obtain ⟨-, hcalls, hsessions⟩ := ofConfig_ok hstart
  obtain ⟨hglobal, hsender⟩ := ofConfig_full hstart
  have S := ofConfig_sound hstart
  have hsent (q : PrincipalId) : (steps.filterMap accepted?).countP (·.sender = q) ≤
      config.limits.messagesPerMinute + regained (.of q) steps := by
    have hpaid := paid_of_history (.of q) S hcalls hsessions h
    have hleft : (Budget.of q).left start.service.limits = config.limits.messagesPerMinute :=
      hsender q
    have hpays : paid (.of q) steps = (steps.filterMap accepted?).countP (·.sender = q) := rfl
    omega
  have htotal : (steps.filterMap accepted?).length ≤
      config.limits.globalRequestsPerSecond + regained .common steps := by
    have hpaid := paid_of_history .common S hcalls hsessions h
    have hleft : Budget.common.left start.service.limits =
      config.limits.globalRequestsPerSecond := hglobal
    have hall : paid .common steps = (steps.filterMap accepted?).length :=
      congrFun List.countP_true _
    omega
  constructor
  case sender =>
    intro unrefilled q
    have hsent := hsent q
    rwa [regained_eq_zero _ unrefilled, Nat.add_zero] at hsent
  case total =>
    intro unrefilled
    rwa [regained_eq_zero _ unrefilled, Nat.add_zero] at htotal
  case senderRegained => exact hsent
  case totalRegained => exact htotal
  case told =>
    intro z hz task phase letter asked here carries
    obtain ⟨_, _, -, hbefore, hstep, -⟩ := h.of_mem hz
    exact told_of_step (named_of_history hbefore hcalls hsessions) hstep asked here carries

/-- **The first check that fails decides about a letter, and in a run no more letters are
accepted than the rates allow.** -/
theorem published_by_first_check :
    (∀ (s : Service) (party : Party) (call : Call) (letter : Letter),
      (Phase.begins call).letter? = some letter →
        (∃ r, s.Concluded letter r ∧ ∀ t ending, Service.RunsAlone party s (.begins call) t ending ↔
          t = r.1 ∧ ending = .ofPosting r.2) ∧
        ∀ turns ending, Service.RunsAmid party s (.begins call) turns ending →
          s.Conducted letter turns ending) ∧
    ∀ (config : Config) (epoch : Int) (start s : Server) (steps : List Step),
      ofConfig config epoch = .ok start → machine.History start s steps →
        Rationed config steps := by
  constructor
  · intro s party call letter carries
    refine ⟨⟨s.post letter, s.concluded_of_post letter, fun t ending => ?_⟩,
      fun turns ending h => Service.conducted_of_runsAmid carries h⟩
    exact Service.runsAlone_iff carries
  · exact fun config epoch start s steps hstart h => rationed_of_history hstart h

/-! ### A crowd that writes -/

/-- The place with two users at its start. -/
def crowdedStart : Server := (ofConfig Service.crowd 0).toOption.get rfl

/-- One user writes to itself twice, and then so does the other one. -/
def writesThrice : List Action :=
  [.call "first" (.publish ⟨⟨1⟩, "alice", false⟩ ⟨1⟩ .request "m" .null), .run (.call "first"),
    .call "again" (.publish ⟨⟨1⟩, "alice", false⟩ ⟨1⟩ .request "m" .null), .run (.call "again"),
    .run (.call "first"),
    .call "other" (.publish ⟨⟨2⟩, "bob", false⟩ ⟨2⟩ .request "m" .null), .run (.call "other")]

theorem replay_writesThrice : (machine.replay crowdedStart writesThrice).isSome = true := by
  decide +kernel

/-- The first letter is accepted, the second one exceeds the rate of its sender, and the third one
the common rate. -/
theorem published_by_crowd : ∃ (start s : Server) (steps : List Step),
    ofConfig Service.crowd 0 = .ok start ∧ machine.History start s steps ∧
      steps.map (·.action) = writesThrice ∧ (∀ z ∈ steps, z.action.isRefill = false) ∧
      Rationed Service.crowd steps ∧
      (steps.filterMap accepted?).length = 1 ∧ s.service.metrics.rateLimitHits = 2 ∧
      ∃ letter r, (Phase.begins (.publish ⟨⟨2⟩, "bob", false⟩ ⟨2⟩ .request "m" .null)).letter? =
        some letter ∧ s.service.Concluded letter r ∧ r.2 = .error (.rateLimited
          RateLimitError.global.message) := by
  have hstart : ofConfig Service.crowd 0 = .ok crowdedStart := rfl
  have h := Machine.history_of_replayed replay_writesThrice
  have hactions := Machine.actions_of_replay (Option.some_get replay_writesThrice).symm
  have hunrefilled : ∀ a ∈ writesThrice, a.isRefill = false := by decide
  obtain ⟨hletters, hruns⟩ := published_by_first_check
  obtain ⟨⟨r, hconcluded, -⟩, -⟩ := hletters _ (.call "other") (.publish ⟨⟨2⟩, "bob", false⟩ ⟨2⟩
    .request "m" .null) _ rfl
  refine ⟨_, _, _, hstart, h, hactions, fun z hz => ?_, hruns _ _ _ _ _ hstart h, by decide +kernel,
    by decide +kernel, _, r, rfl, hconcluded, hconcluded.decided.trans rfl⟩
  exact hunrefilled z.action (hactions ▸ List.mem_map_of_mem hz)

end Server
end DeviceRelay

/-
# What each step does to the queue of a principal

A step that queues a letter for a principal adds it at the end of the queue, and the oldest
entries may be dropped. The forwarder of a session of the principal and a call that
consumes for it take the oldest entry, one at a time. Other means may add bytes. No other
step changes the queue. So what leaves a queue and what is left of it is, in this order,
what came to it.

Key definitions: `Server.phaseOf?`, `Server.accepted?`, `Server.arriving`,
`Server.leaving`, `Server.Forwards`, `Server.QueueTurn`.
Key theorems: `Server.forwards_of_turn`, `Server.queueTurn_of_turn`,
`Server.arrived_of_history`.
-/
import DeviceRelay.Proofs.Server.Consumers

namespace DeviceRelay
namespace Server

/-- The phase of the call, or of the publishing of the session, that a task lets go on. -/
def phaseOf? (s : Server) : Task → Option Phase
  | .call label => (s.call? label).map (·.phase)
  | .session name =>
    (s.session? name).bind fun x =>
      match x.phase with
      | .publishes _ phase => some phase
      | _ => none
  | _ => none

/-- The letter that a step queues. -/
def accepted? (z : Step) : Option Letter :=
  match z.action with
  | .run task =>
    if z.before.service.relay.fault.isNone then
      (z.before.phaseOf? task).bind fun phase =>
        match phase with
        | .queues letter => some letter
        | _ => none
    else none
  | _ => none

/-- The message that a step writes for a letter. -/
def written (z : Step) (letter : Letter) : Message := letter.message z.before.service.clock.wall

/-- The entries that a step adds to the queue of a principal. -/
def arriving (p : PrincipalId) (z : Step) : List (List UInt8) :=
  match z.action with
  | .pushRaw recipient bytes => if recipient = p then [bytes] else []
  | _ =>
    match accepted? z with
    | some letter => if letter.recipient = p then [(written z letter).pack] else []
    | none => []

/-- The entries that a step takes away at the front of the queue of a principal, of those
that were there before it or arrive with it. -/
def leaving (p : PrincipalId) (z : Step) : List (List UInt8) :=
  let offered := z.before.queue p ++ arriving p z
  offered.take (offered.length - (z.after.queue p).length)

theorem leaving_eq {p : PrincipalId} {z : Step} {gone : List (List UInt8)}
    (h : z.before.queue p ++ arriving p z = gone ++ z.after.queue p) : leaving p z = gone := by
  unfold leaving
  simp only [h, List.length_append, Nat.add_sub_cancel, List.take_left']

variable {p : PrincipalId} {z : Step}

theorem accepted?_of_queues {task : Task} {letter : Letter} (asked : z.action = .run task)
    (hphase : z.before.phaseOf? task = some (.queues letter))
    (usable : z.before.service.relay.fault = none) : accepted? z = some letter := by
  simp [accepted?, asked, hphase, usable]

/-- A step in another phase queues nothing, and neither does one while the queues cannot be
used. -/
theorem accepted?_eq_none {task : Task} {phase : Phase} (asked : z.action = .run task)
    (hphase : z.before.phaseOf? task = some phase)
    (h : ∀ letter, phase = .queues letter → z.before.service.relay.fault ≠ none) :
    accepted? z = none := by
  simp only [accepted?, asked, hphase, Option.bind_some]
  cases phase with
  | queues letter => simp [Option.isNone_iff_eq_none, h letter rfl]
  | _ => simp

theorem arriving_of_run {task : Task} (asked : z.action = .run task) :
    arriving p z = match accepted? z with
      | some letter => if letter.recipient = p then [(written z letter).pack] else []
      | none => [] := by
  unfold arriving
  rw [asked]

/-- A step that queues a letter is made by a party that is about to. -/
theorem phaseOf?_of_accepted {letter : Letter} (h : accepted? z = some letter) :
    ∃ task, z.action = .run task ∧ z.before.phaseOf? task = some (.queues letter) := by
  unfold accepted? at h
  split at h
  · rename_i task asked
    obtain ⟨-, h⟩ := Option.ite_none_right_eq_some.mp h
    obtain ⟨phase, hphase, h⟩ := Option.bind_eq_some_iff.mp h
    split at h
    · obtain rfl := Option.some.inj h
      exact ⟨task, asked, hphase⟩
    · cases h
  · cases h

theorem accepted?_of_quiet (quiet : z.action.isBusy = false) : accepted? z = none := by
  unfold accepted?
  cases haction : z.action with
  | run task =>
    cases task with
    | background b => simp [phaseOf?]
    | _ => simp [haction, Action.isBusy] at quiet
  | _ => rfl

theorem arriving_of_quiet (quiet : z.action.isBusy = false) : arriving p z = [] := by
  have hnone := accepted?_of_quiet quiet
  unfold arriving
  cases haction : z.action with
  | pushRaw => simp [haction, Action.isBusy] at quiet
  | _ => rw [hnone]

/-- What a step does to the queue of a principal. -/
inductive QueueTurn (p : PrincipalId) (z : Step) : Prop where
  | kept (nothing : arriving p z = []) (same : z.after.queue p = z.before.queue p)
  /-- A letter is queued, and the oldest entries are dropped if there are too many. -/
  | posted (letter : Letter) (accepted : accepted? z = some letter) (addressed : letter.recipient = p)
    (arrives : arriving p z = [(written z letter).pack])
    (stores : z.after.queue p = (z.before.queue p ++ [(written z letter).pack]).drop
      (Queues.excess z.before.service.relay.maxSize z.before.service.relay.overflowBuffer
        ((z.before.queue p).length + 1)))
  | raw (bytes : List UInt8) (asked : z.action = .pushRaw p bytes)
    (stores : z.after.queue p = z.before.queue p ++ [bytes])
  /-- The forwarder of a session takes an entry. -/
  | forwarded (x : Session) (here : z.before.session? x.name = some x) (runs : x.isRunning = true)
    (own : x.principal.id = p) (asked : z.action = .run (.forward x.name)) (bytes : List UInt8)
    (front : z.before.queue p = bytes :: z.after.queue p)
  /-- A call takes an entry. -/
  | called (label : String) (skips : Bool)
    (consumes : (Party.call label, p, skips) ∈ z.before.service.relay.clients)
    (asked : z.action = .run (.call label)) (nothing : arriving p z = []) (bytes : List UInt8)
    (front : z.before.queue p = bytes :: z.after.queue p)

/-! ### Forwarders -/

/-- What a step of the forwarder of a session does to the queues and to the session. -/
inductive Forwards (s : Server) (x : Session) (t : Server) : Prop where
  | idle (same : ∀ p, t.queue p = s.queue p) (y : Session) (after : t.session? x.name = some y)
    (runs : y.isRunning = true) (held : y.held = x.held)
  /-- It takes the oldest entry of its principal, which the session holds if it is a message. -/
  | took (bytes : List UInt8) (front : s.queue x.principal.id = bytes :: t.queue x.principal.id)
    (others : ∀ p, p ≠ x.principal.id → t.queue p = s.queue p) (y : Session)
    (after : t.session? x.name = some y) (runs : y.isRunning = true)
    (held : y.held = x.held ++ ((Message.unpack? bytes).map Delivery.ofMessage).toList)

theorem held_handed_message {x : Session} (free : x.slot = none) (m : Message) :
    (x.handed (some (.message m))).held = x.held ++ [.ofMessage m] := by
  simp [Session.held, Session.handed, Session.sending?, free]

theorem isRunning_handed (x : Session) (consumed? : Option Consumed) :
    (x.handed consumed?).isRunning = x.isRunning := by
  cases consumed? with
  | none => rfl
  | some consumed => cases consumed <;> rfl

theorem held_handed {x : Session} {consumed? : Option Consumed}
    (h : ∀ m, consumed? ≠ some (.message m)) : (x.handed consumed?).held = x.held := by
  cases consumed? with
  | none => rfl
  | some consumed =>
    cases consumed with
    | message m => exact absurd rfl (h m)
    | _ => rfl

/-- **A forwarder takes the oldest entry of its principal or nothing**, and only while its
session runs. -/
theorem forwards_of_turn {s t : Server} {name : String} (M : s.Manned)
    (T : Turn s (.run (.forward name)) t) :
    ∃ x, s.session? name = some x ∧ x.isRunning = true ∧ Forwards s x t := by
  cases becomes_of_turn T name with
  | rests apart => exact absurd rfl apart
  | joins apart => exact absurd rfl apart
  | acts x here r turn relay after =>
    obtain rfl := session_name here
    generalize haction : Action.run (.forward x.name) = a at turn
    cases turn with
    | choose | proceed | drop | peer => cases haction
    | forward _ turn =>
      cases turn with
      | reserves runs idle free hr =>
        subst hr
        refine ⟨x, here, runs, .idle (fun p => ?_) _ after runs rfl⟩
        rw [queue, relay]
        rfl
      | consumes runs busy relay' consumed? run hr =>
        subst hr
        refine ⟨x, here, runs, ?_⟩
        have hM := M.sessions _ x here
        obtain ⟨-, -, c, hc, hcall, hran⟩ := Relay.ran_of_tended M.tended run
        obtain ⟨-, -, hrecipient, hskips⟩ := hM.consumes c.recipient c.skips
          (hcall ▸ List.mem_map_of_mem (f := fun c => (c.call, c.recipient, c.skips)) hc)
        have hrunning := (isRunning_handed x consumed?).trans runs
        have hqueue : ∀ p, t.queue p = relay'.entries p := fun p => by rw [queue, relay]
        rcases hran with ran | ⟨cause, rfl, rfl⟩
        · cases ran with
          | waits same => exact .idle (fun p => (hqueue p).trans (same p)) _ after hrunning rfl
          | gaveUp consumed why same =>
            refine .idle (fun p => (hqueue p).trans (same p)) _ after hrunning (held_handed ?_)
            rcases why with rfl | rfl <;> exact nofun
          | took bytes front others =>
            rw [hrecipient] at front others
            refine .took bytes ((hqueue _).symm ▸ front) (fun p hp => (hqueue p).trans (others p hp)) _
              after hrunning ?_
            unfold Relay.report
            cases hm : Message.unpack? bytes with
            | some m => exact held_handed_message (hM.free busy) m
            | none => simp [hskips, Session.handed]
        · exact .idle hqueue _ after hrunning (held_handed nofun)

/-! ### All turns -/

/-- What a step of a call or of a publishing does to the queue of a principal. -/
theorem queueTurn_of_move {party : Party} {task : Task} {phase : Phase} {move : Move}
    (M : z.before.Manned) (asked : z.action = .run task)
    (hphase : z.before.phaseOf? task = some phase)
    (moves : z.before.service.step? party phase = some move)
    (relay : z.after.service.relay = move.service.relay)
    (hcalls : phase = .consumes → ∃ label, task = .call label ∧ party = .call label) :
    QueueTurn p z := by
  have kept (hnone : accepted? z = none) (same : z.after.queue p = z.before.queue p) :
      QueueTurn p z := .kept (by rw [arriving_of_run asked, hnone]) same
  cases Service.mailed_of_step? moves with
  | idle idle refused =>
    refine kept (accepted?_eq_none asked hphase refused) ?_
    rw [queue, relay, idle.relay]
    rfl
  | carries letter next before early goesOn after hrelay =>
    refine kept (accepted?_eq_none asked hphase fun l hl => absurd hl (early l)) ?_
    rw [queue, relay, hrelay]
    rfl
  | queued letter before usable ends hrelay =>
    subst before
    have haccepted := accepted?_of_queues asked hphase usable
    have harriving := arriving_of_run (p := p) asked
    have hstores := Relay.entries_publish usable letter.recipient p (written z letter)
    rw [haccepted] at harriving
    by_cases hp : letter.recipient = p
    · refine .posted letter haccepted hp (harriving.trans (if_pos hp)) ?_
      rw [queue, relay, hrelay]
      rw [if_pos hp.symm, hp] at hstores
      exact hp ▸ hstores
    · refine .kept (harriving.trans (if_neg hp)) ?_
      rw [queue, relay, hrelay]
      exact hstores.trans (if_neg fun h => hp h.symm)
  | begins recipient timeout before goesOn hrelay =>
    refine kept (accepted?_eq_none asked hphase (before ▸ nofun)) ?_
    rw [queue, relay, hrelay]
    rfl
  | consumes before consumed? run next =>
    obtain ⟨label, rfl, rfl⟩ := hcalls before
    have hnone := accepted?_eq_none asked hphase (before ▸ nofun)
    have hqueue : z.after.queue p = move.service.relay.entries p := by rw [queue, relay]
    obtain ⟨-, -, c, hc, hcall, ran | ⟨cause, -, hfailed⟩⟩ := Relay.ran_of_tended M.tended run
    · cases ran with
      | waits same => exact kept hnone (hqueue.trans (same p))
      | gaveUp _ _ same => exact kept hnone (hqueue.trans (same p))
      | took bytes front others =>
        by_cases hp : p = c.recipient
        · subst hp
          refine .called label c.skips ?_ asked (by rw [arriving_of_run asked, hnone]) bytes
            (hqueue ▸ front)
          exact hcall ▸ List.mem_map_of_mem (f := fun c => (c.call, c.recipient, c.skips)) hc
        · exact kept hnone (hqueue.trans (others p hp))
    · exact kept hnone (hqueue.trans (by rw [hfailed]; rfl))

theorem arriving_eq_nil (hnone : accepted? z = none) (hraw : ∀ r bytes, z.action ≠ .pushRaw r bytes) :
    arriving p z = [] := by
  unfold arriving
  rw [hnone]
  split
  · next r bytes h => exact absurd h (hraw r bytes)
  · rfl

/-- What the turn of a session does to the queue of a principal. -/
theorem queueTurn_of_session {s t : Server} {a : Action} {events : List Event} (S : s.Sound)
    (M : s.Manned) {x : Session} (here : s.session? x.name = some x) {r : Service × Session}
    (turn : SessionTurn s x a r) (relay : t.service.relay = r.1.relay) (T : Turn s a t) :
    QueueTurn p ⟨s, a, t, events⟩ := by
  have kept (quiet : a.isBusy = false) (same : r.1.relay.entries p = s.service.relay.entries p) :
      QueueTurn p ⟨s, a, t, events⟩ := by
    refine .kept (arriving_of_quiet quiet) ?_
    rw [queue, relay]
    exact same
  cases turn with
  | forward _ turn =>
    obtain ⟨x', here', runs, hforwards⟩ := forwards_of_turn M T
    obtain rfl := Option.some.inj (here.symm.trans here')
    have hnothing : arriving p (⟨s, .run (.forward x.name), t, events⟩ : Step) = [] :=
      arriving_eq_nil (by simp [accepted?, phaseOf?]) nofun
    cases hforwards with
    | idle same => exact .kept hnothing (same p)
    | took bytes front others =>
      by_cases hp : x.principal.id = p
      · subst hp
        exact .forwarded x here runs rfl rfl bytes front
      · exact .kept hnothing (others p fun h => hp h.symm)
  | choose choice _ _ turn =>
    refine kept rfl ?_
    cases turn with
    | keeps _ _ after | hears _ _ _ _ after | refuses _ _ _ after | takes _ _ after
    | ends _ _ _ after =>
      exact after ▸ rfl
  | proceed _ turn =>
    cases turn with
    | publishes messageId phase before move moves after =>
      refine queueTurn_of_move M rfl ?_ moves (relay.trans (by rw [after])) fun hconsumes => ?_
      · simp [phaseOf?, here, before]
      · exact (hconsumes ▸ S.sessions x (session_some here) _ _ before).elim
    | sends frame before _ _ after | ends frame before _ _ _ after =>
      refine .kept (arriving_eq_nil ?_ nofun) ?_
      · simp [accepted?, phaseOf?, here, before]
      · rw [queue, relay, after]
        rfl
  | drop =>
    refine kept rfl ?_
    unfold Session.drop
    split <;> rfl
  | peer => exact kept rfl rfl

/-- **What any step does to the queue of a principal.** -/
theorem queueTurn_of_turn {s t : Server} {a : Action} {events : List Event} (S : s.Sound)
    (M : s.Manned) (T : Turn s a t) : QueueTurn p ⟨s, a, t, events⟩ := by
  have kept (quiet : a.isBusy = false) (same : t.queue p = s.queue p) :
      QueueTurn p ⟨s, a, t, events⟩ := .kept (arriving_of_quiet quiet) same
  have hT := T
  cases T with
  | still _ quiet _ relay =>
    refine kept quiet ?_
    rw [queue, relay]
    rfl
  | begins _ _ _ asks _ _ relay =>
    refine kept asks.quiet ?_
    rw [queue, relay]
    rfl
  | opens _ _ _ opened _ _ relay =>
    refine kept opened.quiet ?_
    rw [queue, relay]
    rfl
  | call label c asked here move moves service =>
    refine queueTurn_of_move M asked ?_ moves (by rw [service]) fun _ => ⟨label, rfl, rfl⟩
    simp [phaseOf?, here]
  | session x here r turn relay => exact queueTurn_of_session S M here turn relay hT
  | dropCall label asked relay =>
    subst asked
    refine kept rfl ?_
    rw [queue, relay]
    rfl
  | raw recipient bytes asked relay =>
    subst asked
    have hstores := Relay.entries_pushRaw s.service.relay recipient p bytes
    by_cases hp : recipient = p
    · subst hp
      refine .raw bytes rfl ?_
      rw [queue, relay]
      exact hstores.trans (if_pos rfl)
    · refine .kept (if_neg hp) ?_
      rw [queue, relay]
      exact hstores.trans (if_neg fun h => hp h.symm)

/-! ### What came and what left -/

theorem arriving_forward {name : String} (asked : z.action = .run (.forward name)) :
    arriving p z = [] :=
  arriving_eq_nil (by simp [accepted?, phaseOf?, asked]) (by simp [asked])

/-- What leaves a queue and what is left is what was there and what came. -/
theorem QueueTurn.front (h : QueueTurn p z) :
    z.before.queue p ++ arriving p z = leaving p z ++ z.after.queue p := by
  suffices key : ∃ gone, z.before.queue p ++ arriving p z = gone ++ z.after.queue p by
    obtain ⟨gone, hgone⟩ := key
    rw [leaving_eq hgone]
    exact hgone
  cases h with
  | kept nothing same => exact ⟨[], by simp [nothing, same]⟩
  | posted letter _ _ arrives stores =>
    rw [arrives, stores]
    exact ⟨_, (List.take_append_drop _ _).symm⟩
  | raw bytes asked stores => exact ⟨[], by simp [arriving, asked, stores]⟩
  | forwarded _ _ _ _ asked bytes front => exact ⟨[bytes], by simp [arriving_forward asked, front]⟩
  | called _ _ _ _ nothing bytes front => exact ⟨[bytes], by simp [nothing, front]⟩

/-- All entries that came to the queue of a principal, in order. -/
def arrived (p : PrincipalId) (steps : List Step) : List (List UInt8) := steps.flatMap (arriving p)

/-- All entries that left the queue of a principal, in order. -/
def left (p : PrincipalId) (steps : List Step) : List (List UInt8) := steps.flatMap (leaving p)

theorem queueTurn_of_mem {start s : Server} {steps : List Step} (h : machine.History start s steps)
    (S : start.Sound) (M : start.Manned) (hz : z ∈ steps) : QueueTurn p z := by
  obtain ⟨earlier, later, -, hbefore, hstep, -⟩ := h.of_mem hz
  exact queueTurn_of_turn (sound_of_history hbefore S) (manned_of_history hbefore S M)
    (turn_of_step hstep)

/-- **What came to a queue is what left it and then what is there**, in order. -/
theorem arrived_of_history {start s : Server} {steps : List Step} (h : machine.History start s steps)
    (S : start.Sound) (M : start.Manned) (p : PrincipalId) :
    start.queue p ++ arrived p steps = left p steps ++ s.queue p := by
  induction h with
  | start => simp [arrived, left]
  | @step u t steps a events hu hstep ih =>
    have hfront := (queueTurn_of_mem (hu.step hstep) S M (z := ⟨u, a, t, events⟩) (p := p)
      (by simp)).front
    unfold arrived left at ih ⊢
    rw [List.flatMap_append, List.flatMap_append, List.flatMap_singleton, List.flatMap_singleton,
      ← List.append_assoc, ih, List.append_assoc, List.append_assoc]
    exact congrArg _ hfront

end Server
end DeviceRelay

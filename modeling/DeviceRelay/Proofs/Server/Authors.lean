/-
# Every letter was written by one party, who is its sender

A party writes a letter with a call of its own, with a request over HTTP that names a known
principal by its token, or with a text in a session. The sender of the letter is the
principal that calls, that the token names, or whose session it is; no text can name
another. The recipient is the one that the call or the text names. A party that carries a
letter wrote it in an earlier step, and did not queue it yet. The principal of a session is the
one for whom it was opened, whom a program names or the token of a handshake.

Key definitions: `Server.Writes`, `Server.letterOf?`, `Server.CallBecomes`, `Server.Wrote`.
Key theorems: `Server.writes_of_asks`, `Server.callBecomes_of_turn`, `Server.carries_of_turn`,
`Server.opened_of_history`, `Server.wrote_of_accepted`, `Server.Wrote.eq`.
-/
import DeviceRelay.Proofs.Server.Mail

namespace DeviceRelay

/-- The task that an action can give a letter. -/
def Action.writer? : Action → Option Task
  | .call label _ | .http label _ _ => some (.call label)
  | .choose name _ => some (.session name)
  | _ => none

/-- The letter that a session carries. -/
def Session.letter? (x : Session) : Option Letter :=
  match x.phase with
  | .publishes _ phase => phase.letter?
  | _ => none

theorem Except.ok_of_bind {ε α β : Type} {x : Except ε α} {f : α → Except ε β} {b : β}
    (h : x >>= f = .ok b) : ∃ a, x = .ok a ∧ f a = .ok b := by
  cases x with
  | error e => cases h
  | ok a => exact ⟨a, rfl, h⟩

namespace Server

/-! ### Writing -/

/-- A party writes a letter in a step. -/
inductive Writes (z : Step) : Task → Letter → Prop where
  | calls (label : String) (sender : Principal) (recipient : PrincipalId) (kind : MessageKind)
    (correlationId : String) (data : Json.Value)
    (asked : z.action = .call label (.publish sender recipient kind correlationId data)) :
    Writes z (.call label) ⟨sender.id, recipient, kind, correlationId, data⟩
  /-- A request over HTTP that asks. The server draws its correlation text. -/
  | asks (label : String) (r : HttpRequest) (draw : Draw) (sender : Principal)
    (payload : WriteRequestPayload) (asked : z.action = .http label r draw)
    (caller : z.before.service.caller r = .ok sender)
    (body : Payload.read WriteRequestPayload.decoder r = .ok payload) :
    Writes z (.call label)
      ⟨sender.id, payload.target, .request, draw.correlationId, payload.data⟩
  /-- A request over HTTP that answers. -/
  | answers (label : String) (r : HttpRequest) (draw : Draw) (sender : Principal)
    (payload : WriteResponsePayload) (asked : z.action = .http label r draw)
    (caller : z.before.service.caller r = .ok sender)
    (body : Payload.read WriteResponsePayload.decoder r = .ok payload) :
    Writes z (.call label) ⟨sender.id, payload.target, .response, payload.answers, payload.data⟩
  /-- A text that a session takes up. -/
  | hears (x : Session) (connection : Connection) (text : String) (r : InboundRequest)
    (asked : z.action = .choose x.name .receive) (here : z.before.session? x.name = some x)
    (received : x.connection.receive? = some (connection, some (.ok text)))
    (parsed : InboundRequest.parse text.toList = .ok r) :
    Writes z (.session x.name) ⟨x.principal.id, r.target, r.requestType.kind, r.messageId, r.data⟩

theorem Writes.writer {z : Step} {task : Task} {letter : Letter} (h : Writes z task letter) :
    z.action.writer? = some task := by
  cases h with
  | calls _ _ _ _ _ _ asked | asks _ _ _ _ _ asked | answers _ _ _ _ _ asked
  | hears _ _ _ _ asked => exact asked ▸ rfl

variable {s t : Server} {a : Action} {events : List Event}

theorem planFor_of_plan {r : HttpRequest} {draw : Draw} {call : Call} {rendering : Rendering}
    (h : r.plan s.service draw = .call call rendering) : ∃ endpoint : Endpoint, ∃ caller,
      s.service.caller r = .ok caller ∧
        endpoint.planFor caller r draw = .ok (.call call rendering) := by
  unfold HttpRequest.plan at h
  split at h
  · cases h
  · rename_i endpoint _
    unfold Endpoint.plan at h
    split at h
    · cases h
    · cases h
    · split at h
      · cases h
      · rename_i caller hcaller
        refine ⟨endpoint, caller, hcaller, ?_⟩
        cases hplan : endpoint.planFor caller r draw with
        | error e => simp [hplan, Plan.ofExcept] at h
        | ok made =>
          rw [hplan] at h
          exact congrArg Except.ok h

/-- An endpoint that leads to publishing writes a letter of its caller. -/
theorem writes_of_planFor {endpoint : Endpoint} {label : String} {r : HttpRequest} {draw : Draw}
    {caller : Principal} (hcaller : s.service.caller r = .ok caller) {call : Call}
    {rendering : Rendering} (h : endpoint.planFor caller r draw = .ok (.call call rendering))
    {letter : Letter} (hletter : (Phase.begins call).letter? = some letter) :
    Writes ⟨s, .http label r draw, t, events⟩ (.call label) letter := by
  cases endpoint with
  | writeRequest =>
    obtain ⟨payload, hbody, h⟩ := Except.ok_of_bind h
    obtain ⟨rfl, -⟩ := Plan.call.inj (Except.ok.inj h)
    obtain rfl := Option.some.inj hletter
    exact .asks label r draw caller payload rfl hcaller hbody
  | writeResponse =>
    obtain ⟨payload, hbody, h⟩ := Except.ok_of_bind h
    obtain ⟨rfl, -⟩ := Plan.call.inj (Except.ok.inj h)
    obtain rfl := Option.some.inj hletter
    exact .answers label r draw caller payload rfl hcaller hbody
  | pair =>
    obtain ⟨payload, -, h⟩ := Except.ok_of_bind h
    obtain ⟨device, -, h⟩ := Except.ok_of_bind h
    obtain ⟨rfl, -⟩ := Plan.call.inj (Except.ok.inj h)
    cases hletter
  | poll | respond | unpair =>
    obtain ⟨payload, -, h⟩ := Except.ok_of_bind h
    obtain ⟨rfl, -⟩ := Plan.call.inj (Except.ok.inj h)
    cases hletter
  | devices | owner =>
    obtain ⟨rfl, -⟩ := Plan.call.inj (Except.ok.inj h)
    cases hletter
  | socket | health | metrics => cases h

/-- **What begins to publish writes a letter**: of the one who calls, or of the caller whom
the token of a request names. -/
theorem writes_of_asks {label : String} {call : Call} (asks : Asks s a label call) {letter : Letter}
    (hletter : (Phase.begins call).letter? = some letter) :
    Writes ⟨s, a, t, events⟩ (.call label) letter := by
  cases asks with
  | direct =>
    cases call with
    | publish sender recipient kind correlationId data =>
      obtain rfl := Option.some.inj hletter
      exact .calls label sender recipient kind correlationId data rfl
    | _ => cases hletter
  | http _ r draw _ rendering plan =>
    obtain ⟨endpoint, caller, hcaller, hplan⟩ := planFor_of_plan plan
    exact writes_of_planFor hcaller hplan hletter

/-! ### Calls -/

/-- What becomes of the call of some label in a step. -/
inductive CallBecomes (s : Server) (a : Action) (t : Server) (label : String) : Prop where
  | rests (apart : a ≠ .run (.call label)) (after : t.call? label = s.call? label)
  | begins (call : Call) (asks : Asks s a label call)
    (after : (t.call? label).map (·.phase) = some (.begins call))
  | goesOn (c : Running) (asked : a = .run (.call label)) (here : s.call? label = some c) (move : Move)
    (moves : s.service.step? (.call label) c.phase = some move) (next : Phase)
    (goes : move.progress = .goesOn next) (after : (t.call? label).map (·.phase) = some next)
  | gone (after : t.call? label = none)

theorem call?_filter {label other : String} (calls : t.calls = s.calls.filter (·.label ≠ other)) :
    t.call? label = if label = other then none else s.call? label := by
  unfold call?
  rw [calls, List.find?_filter]
  split
  · rename_i heq
    subst heq
    simp
  · rename_i hne
    congr 1
    funext c
    by_cases hc : c.label = label
    · simp [hc, hne]
    · simp [hc]

theorem call?_map {label other : String} {next : Phase}
    (calls : t.calls = s.calls.map fun c =>
      if c.label = other then { c with phase := next } else c) :
    t.call? label =
      (s.call? label).map fun c => if c.label = other then { c with phase := next } else c := by
  unfold call?
  rw [calls]
  exact Keyed.find?_map s.calls (·.label) (fun c => by split <;> rfl) label

/-- **A call changes in its own steps only**, or is dropped. -/
theorem callBecomes_of_turn (T : Turn s a t) (label : String) : CallBecomes s a t label := by
  have rests (apart : a ≠ .run (.call label)) (calls : t.calls = s.calls) :
      CallBecomes s a t label := .rests apart (by rw [call?, call?, calls])
  cases T with
  | still _ quiet _ _ calls => exact rests (fun h => by simp [h, Action.isBusy] at quiet) calls
  | opens _ _ _ opened _ _ _ calls => exact rests (fun h => by cases opened <;> cases h) calls
  | raw _ _ asked _ calls => exact rests (fun h => by simp [h] at asked) calls
  | session x _ _ turn _ _ calls =>
    refine rests (fun h => ?_) calls
    have hsession := turn.session?
    simp [h, Action.session?] at hsession
  | dropCall other asked _ calls =>
    by_cases hlabel : label = other
    · exact .gone ((call?_filter calls).trans (if_pos hlabel))
    · exact .rests (fun h => by simp [h] at asked) ((call?_filter calls).trans (if_neg hlabel))
  | begins other origin call asks new calls =>
    have happ : t.call? label = (s.call? label).or
        (if other = label then some ⟨other, origin, .begins call⟩ else none) := by
      unfold call?
      rw [calls, List.find?_append]
      simp [List.find?_singleton]
    by_cases hlabel : other = label
    · subst hlabel
      exact .begins call asks (by simp [happ, new])
    · exact .rests (fun h => by cases asks <;> cases h) (by simpa [hlabel] using happ)
  | call other c asked here move moves _ calls =>
    by_cases hlabel : label = other
    · subst hlabel
      rcases calls with ⟨next, hnext, calls⟩ | ⟨_, -, calls⟩
      · refine .goesOn c asked here move moves next hnext ?_
        rw [call?_map calls, here]
        simp [(call_some here).2]
      · exact .gone ((call?_filter calls).trans (if_pos rfl))
    · refine .rests (fun h => hlabel (by simpa [asked, eq_comm] using h)) ?_
      rcases calls with ⟨next, -, calls⟩ | ⟨_, -, calls⟩
      · rw [call?_map calls]
        cases hcall : s.call? label with
        | none => rfl
        | some c' => simp [(call_some hcall).2, hlabel]
      · exact (call?_filter calls).trans (if_neg hlabel)

/-! ### Letters -/

/-- The letter that a party carries. -/
def letterOf? (s : Server) (task : Task) : Option Letter := (s.phaseOf? task).bind Phase.letter?

theorem letterOf?_call (s : Server) (label : String) :
    s.letterOf? (.call label) = ((s.call? label).map (·.phase)).bind Phase.letter? := rfl

theorem letterOf?_session {name : String} {x : Session} (here : s.session? name = some x) :
    s.letterOf? (.session name) = x.letter? := by
  unfold letterOf? phaseOf? Session.letter?
  simp only [here, Option.bind_some]
  cases x.phase <;> rfl

/-- A letter that is queued is carried by the party whose step it is. -/
theorem letterOf?_of_accepted {z : Step} {letter : Letter} (h : accepted? z = some letter) :
    ∃ task, z.action = .run task ∧ z.before.letterOf? task = some letter := by
  obtain ⟨task, asked, hphase⟩ := phaseOf?_of_accepted h
  refine ⟨task, asked, ?_⟩
  unfold letterOf?
  rw [hphase]
  rfl

/-- What one step says of a letter that a party carries after it: the party writes it now, or
carried it before and does not queue it. -/
def Carries (z : Step) (task : Task) (letter : Letter) : Prop :=
  Writes z task letter ∨
    z.before.letterOf? task = some letter ∧ (z.action = .run task → accepted? z = none)

/-- A call or a session that goes on with a letter had it before, and was not about to queue
it. -/
theorem carries_of_goesOn {z : Step} {task : Task} {party : Party} {phase next : Phase} {move : Move}
    (asked : z.action = .run task) (hphase : z.before.phaseOf? task = some phase)
    (moves : z.before.service.step? party phase = some move) (goes : move.progress = .goesOn next)
    {letter : Letter} (hletter : next.letter? = some letter) : Carries z task letter := by
  cases Service.mailed_of_step? moves with
  | idle idle => simp [idle.next next goes] at hletter
  | carries letter' next' before early goesOn after =>
    obtain rfl := Progress.goesOn.inj (goes.symm.trans goesOn)
    obtain rfl := Option.some.inj (after.symm.trans hletter)
    have hnone := accepted?_eq_none asked hphase fun l hl => absurd hl (early l)
    refine .inr ⟨?_, fun _ => hnone⟩
    rw [letterOf?, hphase]
    exact before
  | queued _ _ _ ends => simp [goes] at ends
  | begins _ _ _ goesOn =>
    obtain rfl := Progress.goesOn.inj (goes.symm.trans goesOn)
    cases hletter
  | consumes _ _ _ hnext =>
    obtain rfl := hnext next goes
    cases hletter

/-- A session that takes up a text carries the letter of the text, whose sender is its
principal. -/
theorem writes_of_chosen {x : Session} {choice : Choice} {r : Service × Session}
    (here : s.session? x.name = some x) (waits : x.phase = .selects)
    (turn : Session.Chosen s.service x choice r) {letter : Letter} (h : r.2.letter? = some letter) :
    Writes ⟨s, .choose x.name choice, t, events⟩ (.session x.name) letter := by
  cases turn with
  | keeps _ _ after | refuses _ _ _ after | takes _ _ after | ends _ _ _ after =>
    subst after
    simp [Session.letter?, Session.takeMessage, Session.finish, waits] at h
  | hears asked connection text received after =>
    subst after asked
    unfold Session.takeText at h
    split at h
    · cases h
    · rename_i r hparsed
      obtain rfl := Option.some.inj h
      exact .hears x connection text r rfl here received hparsed

theorem carries_of_session {x : Session} {r : Service × Session} (here : s.session? x.name = some x)
    (turn : SessionTurn s x a r) {letter : Letter} (h : r.2.letter? = some letter) :
    Carries ⟨s, a, t, events⟩ (.session x.name) letter := by
  have kept (same : r.2.phase = x.phase) (apart : a ≠ .run (.session x.name)) :
      Carries ⟨s, a, t, events⟩ (.session x.name) letter := by
    refine .inr ⟨?_, fun asked => absurd asked apart⟩
    rw [letterOf?_session here, ← h, Session.letter?, Session.letter?, same]
  cases turn with
  | forward _ turn =>
    refine kept ?_ (by simp)
    cases turn with
    | reserves _ _ _ after => rw [after]
    | consumes _ _ _ consumed? _ after =>
      rw [after]
      cases consumed? with
      | none => rfl
      | some consumed => cases consumed <;> rfl
  | choose choice _ waits turn => exact .inl (writes_of_chosen here waits turn h)
  | proceed _ turn =>
    cases turn with
    | publishes messageId phase before move moves after =>
      subst after
      cases hprogress : move.progress with
      | goesOn next =>
        have hphase : s.phaseOf? (.session x.name) = some phase := by simp [phaseOf?, here, before]
        have hletter : next.letter? = some letter := by
          simpa [Session.letter?, Session.onProgress, hprogress] using h
        exact carries_of_goesOn rfl hphase moves hprogress hletter
      | ends ending => simp [Session.letter?, Session.onProgress, hprogress] at h
    | sends _ _ _ _ after | ends _ _ _ _ _ after =>
      subst after
      simp [Session.letter?, Session.finish] at h
  | drop =>
    refine kept ?_ (by simp)
    unfold Session.drop at h ⊢
    split
    · rename_i hruns
      simp [Session.letter?, hruns] at h
    · rfl
  | peer => exact kept rfl (by simp)

/-- **A party that carries a letter wrote it just now, or carried it before.** -/
theorem carries_of_turn (T : Turn s a t) {task : Task} {letter : Letter}
    (h : t.letterOf? task = some letter) : Carries ⟨s, a, t, events⟩ task letter := by
  have kept (same : t.letterOf? task = s.letterOf? task) (apart : a ≠ .run task) :
      Carries ⟨s, a, t, events⟩ task letter :=
    .inr ⟨same ▸ h, fun asked => absurd asked apart⟩
  cases task with
  | background | forward => cases h
  | call label =>
    rw [letterOf?_call] at h
    cases callBecomes_of_turn T label with
    | rests apart after => exact kept (by rw [letterOf?_call, letterOf?_call, after]) apart
    | begins call asks after =>
      rw [after] at h
      exact .inl (writes_of_asks asks h)
    | goesOn c asked here move moves next goes after =>
      rw [after] at h
      have hphase : s.phaseOf? (.call label) = some c.phase := by simp [phaseOf?, here]
      exact carries_of_goesOn asked hphase moves goes h
    | gone after => simp [after] at h
  | session name =>
    cases becomes_of_turn T name with
    | rests apart after =>
      refine kept (by rw [letterOf?, letterOf?, phaseOf?, phaseOf?, after]) fun asked => ?_
      exact apart (asked ▸ rfl)
    | joins _ _ _ _ after =>
      rw [letterOf?_session after] at h
      cases h
    | acts x here r turn _ after =>
      obtain rfl := session_name here
      rw [letterOf?_session after] at h
      exact carries_of_session here turn h

/-! ### Runs -/

/-- **The principal of a session is the one for whom it was opened.** -/
theorem opened_of_history {start : Server} {steps : List Step} (h : machine.History start s steps)
    (hsessions : start.sessions = []) {name : String} {x : Session} (hx : s.session? name = some x) :
    ∃ y ∈ steps, Opens y.before y.action name x.principal := by
  induction h generalizing x with
  | start => simp [session?, hsessions] at hx
  | @step u t steps a events hu hstep ih =>
    have earlier {p : Principal} (h : ∃ y ∈ steps, Opens y.before y.action name p) :
        ∃ y ∈ steps ++ [(⟨u, a, t, events⟩ : Step)], Opens y.before y.action name p := by
      obtain ⟨y, hy, hopens⟩ := h
      exact ⟨y, List.mem_append_left _ hy, hopens⟩
    cases becomes_of_turn (turn_of_step hstep) name with
    | rests _ after => exact earlier (ih (after ▸ hx))
    | acts x' here r turn _ after =>
      obtain rfl := Option.some.inj (after.symm.trans hx)
      rw [turn.same.principal]
      exact earlier (ih here)
    | joins _ _ p connection after opened =>
      obtain rfl := Option.some.inj (after.symm.trans hx)
      exact ⟨_, List.mem_append_right _ List.mem_cons_self, opened⟩

/-- A party wrote a letter in the step `w` of a run and did not queue it up to the step `n`. -/
structure Wrote (steps : List Step) (task : Task) (letter : Letter) (w n : Nat) : Prop where
  earlier : w < n
  writes : ∃ z, steps[w]? = some z ∧ Writes z task letter
  holds : ∀ i z, w < i → i < n → steps[i]? = some z → z.action = .run task → accepted? z = none

/-- **A party that carries a letter wrote it, and did not queue it since.** -/
theorem wrote_of_carried {start : Server} {steps : List Step} (h : machine.History start s steps)
    (hcalls : start.calls = []) (hsessions : start.sessions = []) {task : Task} {letter : Letter}
    (hletter : s.letterOf? task = some letter) : ∃ w, Wrote steps task letter w steps.length := by
  induction h with
  | start =>
    cases task with
    | call label => simp [letterOf?, phaseOf?, call?, hcalls] at hletter
    | session name => simp [letterOf?, phaseOf?, session?, hsessions] at hletter
    | background | forward => cases hletter
  | @step u t steps a events hu hstep ih =>
    have hlast : (steps ++ [(⟨u, a, t, events⟩ : Step)])[steps.length]? = some ⟨u, a, t, events⟩ :=
      List.getElem?_concat_length
    have hbefore {i : Nat} (hi : i < steps.length) :
        (steps ++ [(⟨u, a, t, events⟩ : Step)])[i]? = steps[i]? := List.getElem?_append_left hi
    rw [List.length_append, List.length_singleton]
    have hcarries : Carries ⟨u, a, t, events⟩ task letter :=
      carries_of_turn (turn_of_step hstep) hletter
    rcases hcarries with hwrites | ⟨hcarried, hkeeps⟩
    · refine ⟨steps.length, Nat.lt_succ_self _, ⟨_, hlast, hwrites⟩, fun i _ hi hlt => ?_⟩
      exact absurd hlt (Nat.not_lt.mpr hi)
    · obtain ⟨w, hearlier, ⟨z, hz, hwrites⟩, hholds⟩ := ih hcarried
      refine ⟨w, Nat.lt_succ_of_lt hearlier, ⟨z, (hbefore hearlier).trans hz, hwrites⟩, ?_⟩
      intro i y hi hlt hy asked
      rcases Nat.lt_or_eq_of_le (Nat.le_of_lt_succ hlt) with hlt | rfl
      · exact hholds i y hi hlt ((hbefore hlt).symm.trans hy) asked
      · obtain rfl := Option.some.inj (hlast.symm.trans hy)
        exact hkeeps asked

/-- **A letter that is queued was written by the party that queues it**, and by no text of
another. -/
theorem wrote_of_accepted {start : Server} {steps : List Step} (h : machine.History start s steps)
    (hcalls : start.calls = []) (hsessions : start.sessions = []) {i : Nat} {z : Step}
    (hi : steps[i]? = some z) {letter : Letter} (accepted : accepted? z = some letter) :
    ∃ task, z.action = .run task ∧ ∃ w, Wrote steps task letter w i := by
  obtain ⟨task, asked, hletter⟩ := letterOf?_of_accepted accepted
  have hlt : i < steps.length := (List.getElem?_eq_some_iff.mp hi).1
  have hlength : (steps.take i).length = i := List.length_take_of_le (Nat.le_of_lt hlt)
  have htake {k : Nat} (hk : k < i) : (steps.take i)[k]? = steps[k]? := List.getElem?_take_of_lt hk
  obtain ⟨w, hearlier, ⟨y, hy, hwrites⟩, hholds⟩ :=
    wrote_of_carried (h.take hi).1 hcalls hsessions hletter
  rw [hlength] at hearlier hholds
  refine ⟨task, asked, w, hearlier, ⟨y, (htake hearlier).symm.trans hy, hwrites⟩, ?_⟩
  intro k y' hk hki hy'
  exact hholds k y' hk hki ((htake hki).trans hy')

/-- **What one writes is queued once at most.** -/
theorem Wrote.eq {steps : List Step} {task task' : Task} {letter letter' : Letter} {w i i' : Nat}
    {z z' : Step} (hw : Wrote steps task letter w i) (hw' : Wrote steps task' letter' w i')
    (hi : steps[i]? = some z) (hi' : steps[i']? = some z') (asked : z.action = .run task)
    (asked' : z'.action = .run task') (accepted : accepted? z = some letter)
    (accepted' : accepted? z' = some letter') : i = i' := by
  obtain ⟨y, hy, hwrites⟩ := hw.writes
  obtain ⟨y', hy', hwrites'⟩ := hw'.writes
  obtain rfl := Option.some.inj (hy.symm.trans hy')
  obtain rfl : task = task' := Option.some.inj (hwrites.writer.symm.trans hwrites'.writer)
  rcases Nat.lt_trichotomy i i' with hlt | heq | hgt
  · simp [hw'.holds i z hw.earlier hlt hi asked] at accepted
  · exact heq
  · simp [hw.holds i' z' hw'.earlier hgt hi' asked'] at accepted'

end Server
end DeviceRelay

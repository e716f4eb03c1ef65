/-
# What is published is decoded unchanged

An entry that a consumer takes came to the queue in an earlier step. If that step queued a
letter, the entry is the packed message of this letter, and the consumer hands over just this
message: a session puts it into its slot, a call returns it. This takes of the message only
that the packed form keeps it. Whatever comes over HTTP or in a session is such a message, as
the readers of texts bound its numbers, its lengths and its brackets. So no consumer passes
over, or fails at, what was published through the service.

Key definitions: `Server.Takes`, `Server.Delivers`, `Server.Came`, `Server.Modest`,
`Server.Intact`.
Key theorems: `Server.delivers_of_takes`, `Server.came_of_takes`, `Server.sendable_of_accepted`,
`Server.intact_of_history`.
-/
import DeviceRelay.Proofs.Server.Provenance

namespace DeviceRelay
namespace Server

open Fifo (rank)

variable {start s : Server} {steps : List Step} {p : PrincipalId} {bytes : List UInt8} {z : Step}

/-! ### What a consumer hands over -/

/-- A consumer takes an entry of a principal in a step. -/
inductive Takes (p : PrincipalId) (z : Step) (bytes : List UInt8) : Prop where
  | session (name : String) (asked : z.action = .run (.forward name))
    (takes : leaving p z = [bytes])
  | call (label : String) (asked : z.action = .run (.call label))
    (consumes : z.before.phaseOf? (.call label) = some .consumes) (takes : leaving p z = [bytes])

/-- A consumer hands a message for a principal over in a step. -/
inductive Delivers (p : PrincipalId) (z : Step) (m : Message) : Prop where
  /-- A session has it in its slot. -/
  | session (x y : Session) (here : z.before.session? x.name = some x) (own : x.principal.id = p)
    (after : z.after.session? x.name = some y) (full : y.slot = some m)
  /-- A call returns it. -/
  | call (c : Running) (here : z.before.call? c.label = some c)
    (returned : z.events = [endEvent c.label (.answered (.message (some m))) c.origin])

theorem Takes.leaving_eq (h : Takes p z bytes) : leaving p z = [bytes] := by
  cases h with
  | session _ _ takes => exact takes
  | call _ _ _ takes => exact takes

theorem Takes.arriving_eq (h : Takes p z bytes) : arriving p z = [] := by
  cases h with
  | session _ asked => exact arriving_forward asked
  | call _ asked consumes =>
    exact arriving_eq_nil (accepted?_eq_none asked consumes nofun) (by simp [asked])

theorem Takes.front (h : Takes p z bytes) (Q : QueueTurn p z) :
    z.before.queue p = bytes :: z.after.queue p := by
  simpa [h.arriving_eq, h.leaving_eq] using Q.front

/-- A session whose forwarder takes a message has it in its slot. -/
theorem delivers_of_forward {name : String} (M : z.before.Manned)
    (T : Turn z.before z.action z.after) (asked : z.action = .run (.forward name))
    (front : z.before.queue p = bytes :: z.after.queue p) {m : Message}
    (hm : Message.unpack? bytes = some m) : Delivers p z m := by
  rw [asked] at T
  cases becomes_of_turn T name with
  | rests apart => exact absurd rfl apart
  | joins apart => exact absurd rfl apart
  | acts x here r turn relay after =>
    obtain rfl := session_name here
    generalize haction : Action.run (.forward x.name) = a at turn
    cases turn with
    | choose | proceed | drop | peer => cases haction
    | forward _ turn =>
      have hqueue : z.after.queue p = r.1.relay.entries p := by rw [queue, relay]
      rw [hqueue] at front
      cases turn with
      | reserves _ _ _ hr =>
        subst hr
        exact absurd front (by simp [queue, Relay.begin, Relay.entries])
      | consumes _ _ relay' consumed? run hr =>
        subst hr
        obtain ⟨c, hc, hcall, hrecipient, rfl⟩ := Relay.report_of_front M.tended run front
        obtain ⟨-, -, hown, -⟩ := (M.sessions _ x here).consumes c.recipient c.skips
          (hcall ▸ List.mem_map_of_mem (f := fun c => (c.call, c.recipient, c.skips)) hc)
        refine .session x _ here (hown.symm.trans hrecipient) after ?_
        simp [Relay.report, hm, Session.handed]

theorem delivers_of_call {label : String} (M : z.before.Manned)
    (hstep : z.before.runCall? label = some (z.after, z.events))
    (consumes : z.before.phaseOf? (.call label) = some .consumes)
    (front : z.before.queue p = bytes :: z.after.queue p) {m : Message}
    (hm : Message.unpack? bytes = some m) : Delivers p z m := by
  obtain ⟨c, move, here, moves, hservice, -, -, hcalls⟩ := runCall_some hstep
  obtain ⟨c', here', hphase⟩ := Option.map_eq_some_iff.mp consumes
  obtain rfl := Option.some.inj (here.symm.trans here')
  rw [hphase] at moves
  obtain ⟨⟨relay, consumed?⟩, run, rfl⟩ := Option.map_eq_some_iff.mp moves
  have hqueue : z.after.queue p = relay.entries p := by
    rw [queue, hservice]
    cases consumed? <;> rfl
  obtain ⟨client, -, -, -, rfl⟩ := Relay.report_of_front M.tended run (hqueue ▸ front)
  have hreport : Relay.report client bytes = some (.message m) := by simp [Relay.report, hm]
  rw [hreport] at hcalls
  rcases hcalls with ⟨next, hnext, -⟩ | ⟨ending, hending, hevents, -⟩
  · cases hnext
  · obtain rfl := Progress.ends.inj hending
    have hlabel : c.label = label := by simpa using List.find?_some here
    subst hlabel
    exact .call c here hevents

/-- **A consumer that takes a message hands it over.** -/
theorem delivers_of_takes (h : machine.History start s steps) (S : start.Sound) (M : start.Manned)
    (hz : z ∈ steps) (takes : Takes p z bytes) {m : Message}
    (hm : Message.unpack? bytes = some m) : Delivers p z m := by
  have hfront := takes.front (queueTurn_of_mem h S M hz)
  obtain ⟨_, _, -, hbefore, hstep, -⟩ := h.of_mem hz
  have hmanned := manned_of_history hbefore S M
  cases takes with
  | session name asked => exact delivers_of_forward hmanned (turn_of_step hstep) asked hfront hm
  | call label asked consumes =>
    rw [asked] at hstep
    exact delivers_of_call hmanned hstep consumes hfront hm

/-! ### Where an entry comes from -/

/-- What came to the queue of a principal in the step `i` was taken by a consumer in the
step `k`. -/
structure Came (steps : List Step) (p : PrincipalId) (bytes : List UInt8) (i k : Nat) : Prop where
  puts : ∃ z, steps[i]? = some z ∧ arriving p z = [bytes]
  takes : ∃ z, steps[k]? = some z ∧ Takes p z bytes
  earlier : i < k
  /-- As many entries came before it as left before it. -/
  inQueue : rank (arriving p) steps i = rank (leaving p) steps k

/-- **An entry that a consumer takes came to the queue before.** -/
theorem came_of_takes (h : machine.History start s steps) (S : start.Sound) (M : start.Manned)
    (hqueue : start.queue p = []) {k : Nat} (hk : steps[k]? = some z) (takes : Takes p z bytes) :
    ∃ i, Came steps p bytes i k := by
  have hfirst : (steps.take (k + 1)).flatMap (leaving p) <+:
      (steps.take (k + 1)).flatMap (arriving p) := by
    have harrived := arrived_of_history (h.take_succ hk) S M p
    rw [hqueue, List.nil_append] at harrived
    exact ⟨_, harrived.symm⟩
  obtain ⟨i, y, hik, hi, hputs, hrank⟩ :=
    Fifo.exists_put (fun y _ => length_arriving_le p y) hk takes.leaving_eq hfirst
  have hlt : i < k := by
    refine Nat.lt_of_le_of_ne hik fun heq => ?_
    subst heq
    obtain rfl := Option.some.inj (hi.symm.trans hk)
    simp [takes.arriving_eq] at hputs
  exact ⟨i, ⟨y, hi, hputs⟩, ⟨z, hk, takes⟩, hlt, hrank⟩

/-- What comes to a queue with a letter is the packed message of this letter. -/
theorem eq_pack_of_arriving (h : arriving p z = [bytes]) {letter : Letter}
    (haccepted : accepted? z = some letter) :
    letter.recipient = p ∧ bytes = (written z letter).pack := by
  obtain ⟨task, asked, -⟩ := phaseOf?_of_accepted haccepted
  rw [arriving_of_run asked, haccepted] at h
  dsimp only at h
  split at h
  · rename_i haddressed
    exact ⟨haddressed, (List.singleton_inj.mp h).symm⟩
  · cases h

/-! ### What the packed form keeps -/

/-- What a program passes to a call nests less deep than the reader of bytes goes, and the
clock shows a signed word. -/
structure Modest (z : Step) : Prop where
  calls : ∀ label sender recipient kind correlationId data,
    z.action = .call label (.publish sender recipient kind correlationId data) →
      data.height < MessagePack.depthLimit
  low : -(twoTo 63 : Int) ≤ z.before.service.clock.wall
  high : z.before.service.clock.wall < (twoTo 63 : Int)

theorem shallow_of_writes (modest : Modest z) {task : Task} {letter : Letter}
    (h : Writes z task letter) : letter.data.height < MessagePack.depthLimit := by
  have hdeeper : Json.depthLimit < MessagePack.depthLimit := by decide
  cases h with
  | calls label sender recipient kind correlationId data asked =>
    exact modest.calls _ _ _ _ _ _ asked
  | asks _ _ _ _ _ _ _ body =>
    exact Nat.lt_trans (WriteRequestPayload.height_of_read body) hdeeper
  | answers _ _ _ _ _ _ _ body =>
    exact Nat.lt_trans (WriteResponsePayload.height_of_read body) hdeeper
  | hears _ _ _ _ _ _ _ parsed =>
    exact Nat.lt_trans (InboundRequest.height_of_parse parsed) hdeeper

/-- **The packed form keeps whatever is published.** -/
theorem sendable_of_accepted (h : machine.History start s steps) (hcalls : start.calls = [])
    (hsessions : start.sessions = []) (proper : ∀ z ∈ steps, Proper z)
    (modest : ∀ z ∈ steps, Modest z) (hz : z ∈ steps) {letter : Letter}
    (haccepted : accepted? z = some letter) : (written z letter).Sendable := by
  obtain ⟨i, hi⟩ := List.getElem?_of_mem hz
  obtain ⟨task, -, w, hwrote⟩ := wrote_of_accepted h hcalls hsessions hi haccepted
  obtain ⟨u, hw, hwrites⟩ := hwrote.writes
  have hu : u ∈ steps := List.mem_of_getElem? hw
  obtain ⟨fits, short⟩ := packable_of_writes (proper u hu) hwrites z.before.service.clock.wall
  exact ⟨fits, short, shallow_of_writes (modest u hu) hwrites, (modest z hz).low, (modest z hz).high⟩

/-! ### Every message -/

/-- Nothing that is published is lost at decoding. -/
structure Intact (steps : List Step) : Prop where
  /-- A message that the packed form keeps is read back. -/
  restored : ∀ m : Message, m.Sendable → Message.unpack? m.pack = some m
  /-- Each entry that a consumer takes came to the queue before. -/
  came : ∀ k z p bytes, steps[k]? = some z → Takes p z bytes → ∃ i, Came steps p bytes i k
  /-- A consumer that takes the entry of a letter hands over the message of the letter. -/
  decoded : ∀ i k y z p bytes letter, Came steps p bytes i k → steps[i]? = some y →
    steps[k]? = some z → accepted? y = some letter → (written y letter).Sendable →
    letter.recipient = p ∧ bytes = (written y letter).pack ∧ Delivers p z (written y letter)
  /-- What comes over HTTP or in a session can be packed, and so can what programs pass to
  calls, within its bounds. -/
  sendable : (∀ z ∈ steps, Proper z) → (∀ z ∈ steps, Modest z) → ∀ z ∈ steps, ∀ letter,
    accepted? z = some letter → (written z letter).Sendable
  /-- So where the queues get nothing but published messages, no consumer skips an entry. -/
  neverSkips : (∀ z ∈ steps, Proper z) → (∀ z ∈ steps, Modest z) → ∀ z ∈ steps, ∀ p bytes,
    Takes p z bytes → ∃ m, Message.unpack? bytes = some m ∧ Delivers p z m

/-- **What is published is decoded unchanged, and never skipped**, in every run of a server. -/
theorem intact_of_history {config : Config} {epoch : Int} (hstart : ofConfig config epoch = .ok start)
    (h : machine.History start s steps) : Intact steps := by
  have S := ofConfig_sound hstart
  have M := ofConfig_manned hstart
  have hcame : ∀ k z p bytes, steps[k]? = some z → Takes p z bytes → ∃ i, Came steps p bytes i k :=
    fun k z p bytes hk takes => came_of_takes h S M (ofConfig_queue hstart p) hk takes
  have hsendable : (∀ z ∈ steps, Proper z) → (∀ z ∈ steps, Modest z) → ∀ z ∈ steps, ∀ letter,
      accepted? z = some letter → (written z letter).Sendable :=
    fun proper modest z hz letter haccepted => sendable_of_accepted h (ofConfig_ok hstart).2.1
      (ofConfig_relay hstart).2 proper modest hz haccepted
  refine ⟨fun m hm => hm.unpack?_pack, hcame, ?_, hsendable, ?_⟩
  case refine_1 =>
    intro i k y z p bytes letter came hi hk haccepted sendable
    obtain ⟨y', hi', hputs⟩ := came.puts
    obtain rfl := Option.some.inj (hi.symm.trans hi')
    obtain ⟨z', hk', takes⟩ := came.takes
    obtain rfl := Option.some.inj (hk.symm.trans hk')
    obtain ⟨haddressed, rfl⟩ := eq_pack_of_arriving hputs haccepted
    exact ⟨haddressed, rfl,
      delivers_of_takes h S M (List.mem_of_getElem? hk) takes sendable.unpack?_pack⟩
  case refine_2 =>
    intro proper modest z hz p bytes takes
    obtain ⟨k, hk⟩ := List.getElem?_of_mem hz
    obtain ⟨i, came⟩ := hcame k z p bytes hk takes
    obtain ⟨y, hi, hputs⟩ := came.puts
    have hy : y ∈ steps := List.mem_of_getElem? hi
    obtain ⟨letter, haccepted, -, rfl⟩ := letter_of_arriving (proper y hy) hputs
    have hread := (hsendable proper modest y hy letter haccepted).unpack?_pack
    exact ⟨_, hread, delivers_of_takes h S M hz takes hread⟩

/-! ### A run -/

theorem modest_of_exchange {z : Step}
    (hz : z ∈ ((machine.replay householdStart exchange).get replay_exchange).2) : Modest z := by
  have haction := Machine.action_of_replayed replay_exchange hz
  have hclock : ∀ z ∈ ((machine.replay householdStart exchange).get replay_exchange).2,
      z.before.service.clock.wall = 0 := by decide +kernel
  constructor
  case calls =>
    intro label sender recipient kind correlationId data asked
    simp [asked, exchange] at haction
  case low => rw [hclock z hz]; decide
  case high => rw [hclock z hz]; decide

/-- Each of the two takes a message of the other, and none is lost. -/
theorem intact_of_two : ∃ (start s : Server) (steps : List Step),
    ofConfig household 0 = .ok start ∧ machine.History start s steps ∧ (∀ z ∈ steps, Proper z) ∧
      (∀ z ∈ steps, Modest z) ∧ (∃ z ∈ steps, ∃ bytes, Takes ⟨2⟩ z bytes) ∧
      (∃ z ∈ steps, ∃ bytes, Takes ⟨1⟩ z bytes) ∧ Intact steps := by
  have hstart : ofConfig household 0 = .ok householdStart := rfl
  have h := Machine.history_of_replayed replay_exchange
  have htakes (name : String) {p : PrincipalId} (i : Nat)
      (h : ((((machine.replay householdStart exchange).get replay_exchange).2[i]?).map fun z =>
        (poppedBy name p z).length) = some 1) :
      ∃ z ∈ ((machine.replay householdStart exchange).get replay_exchange).2, ∃ bytes,
        Takes p z bytes := by
    obtain ⟨z, hz, hone⟩ := Option.map_eq_some_iff.mp h
    obtain ⟨bytes, hbytes⟩ := List.length_eq_one_iff.mp hone
    obtain ⟨asked, hleaving⟩ := poppedBy_cons hbytes
    exact ⟨z, List.mem_of_getElem? hz, bytes, .session name asked hleaving⟩
  exact ⟨_, _, _, hstart, h, fun z => proper_of_exchange, fun z => modest_of_exchange,
    htakes "phone" 8 (by decide +kernel), htakes "alice" 18 (by decide +kernel),
    intact_of_history hstart h⟩

end Server
end DeviceRelay

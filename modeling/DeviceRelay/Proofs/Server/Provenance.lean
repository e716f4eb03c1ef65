/-
# Every data frame carries a letter of its own, from its sender to its recipient

A data frame that a session sends was in its hands since its forwarder took an entry from
the queue of its principal. The entry came to the queue when a party queued a letter for this
principal, and the party wrote the letter before. Each hand-over keeps the order and loses
nothing but what it drops, so no two frames come from one letter. The entry is the packed
message of the letter, and what is read of it is the message that was packed. So the frame
has the kind, the correlation text and the data of the letter, and names its writer as the
sender.

Key definitions: `Server.Passed`, `Server.Route`, `Server.Proper`, `Server.DataFrame`,
`Server.Stems`, `Server.Provenance`.
Key theorems: `Server.exists_passed`, `Server.route_of_passed`, `Server.Route.eq`,
`Server.packable_of_writes`, `Server.stems_of_frame`, `Server.provenance_of_history`.
-/
import DeviceRelay.Proofs.Fifo
import DeviceRelay.Proofs.Inbound
import DeviceRelay.Proofs.Packing
import DeviceRelay.Proofs.Server.Authors
import DeviceRelay.Proofs.Server.Custody
import Mathlib.Data.Set.Function

namespace DeviceRelay
namespace Server

open Fifo (rank)

variable {s : Server} {steps : List Step} {name : String} {p : PrincipalId}

/-! ### From the queue to the peer -/

/-- The deliveries that a session takes from the queue of a principal in a step. -/
def takenBy (name : String) (p : PrincipalId) (z : Step) : List Delivery :=
  deliveries (poppedBy name p z)

/-- The delivery in the data frame that a session sends in a step. -/
def sentBy (name : String) (z : Step) : List Delivery :=
  ((frameOf? name z).bind OutboundFrame.delivery?).toList

theorem sent_eq (name : String) (steps : List Step) :
    sent name steps = steps.flatMap (sentBy name) := by
  induction steps with
  | nil => rfl
  | cons z rest ih =>
    rw [List.flatMap_cons, ← ih, sentBy, sent, frames, List.filterMap_cons]
    cases hframe : frameOf? name z with
    | none => rfl
    | some frame => cases frame <;> rfl

theorem deliveries_popped (name : String) (p : PrincipalId) (steps : List Step) :
    deliveries (popped name p steps) = steps.flatMap (takenBy name p) := by
  unfold popped
  induction steps with
  | nil => rfl
  | cons z rest ih => rw [List.flatMap_cons, List.flatMap_cons, deliveries_append, ih, takenBy]

theorem length_arriving_le (p : PrincipalId) (z : Step) : (arriving p z).length ≤ 1 := by
  unfold arriving
  split
  · split <;> simp
  · split
    · split <;> simp
    · simp

theorem length_poppedBy_le {z : Step} (Q : QueueTurn p z) : (poppedBy name p z).length ≤ 1 := by
  unfold poppedBy
  split
  · rename_i other asked
    split
    · have hnothing := arriving_forward (p := p) asked
      cases Q with
      | kept _ same =>
        have hnone : leaving p z = [] :=
          leaving_eq (by rw [hnothing, same, List.append_nil, List.nil_append])
        simp [hnone]
      | posted _ _ _ arrives => simp [hnothing] at arrives
      | raw _ asked' => simp [asked] at asked'
      | forwarded _ _ _ _ _ bytes front =>
        have hone : leaving p z = [bytes] :=
          leaving_eq (by rw [hnothing, front, List.append_nil, List.singleton_append])
        simp [hone]
      | called _ _ _ asked' => simp [asked] at asked'
    · exact Nat.zero_le _
  · exact Nat.zero_le _

/-! ### The way of an entry -/

/-- A session took an entry in the step `k` and sent its message in the step `j`. -/
structure Passed (steps : List Step) (name : String) (p : PrincipalId) (bytes : List UInt8)
    (k j : Nat) : Prop where
  takes : ∃ z, steps[k]? = some z ∧ z.action = .run (.forward name) ∧ leaving p z = [bytes]
  earlier : k < j
  /-- As many messages were taken before it as were sent before it. -/
  inHands : rank (takenBy name p) steps k = rank (sentBy name) steps j

/-- The way of an entry through a run: it came to the queue of a principal in the step `i`, a
session took it in the step `k`, and the session sent it in the step `j`. -/
structure Route (steps : List Step) (name : String) (p : PrincipalId) (bytes : List UInt8)
    (i k j : Nat) : Prop extends Passed steps name p bytes k j where
  puts : ∃ z, steps[i]? = some z ∧ arriving p z = [bytes]
  putFirst : i < k
  /-- As many entries came before it as left before it. -/
  inQueue : rank (arriving p) steps i = rank (leaving p) steps k

theorem poppedBy_cons {z : Step} {bytes : List UInt8} {more : List (List UInt8)}
    (h : poppedBy name p z = bytes :: more) :
    z.action = .run (.forward name) ∧ leaving p z = bytes :: more := by
  unfold poppedBy at h
  split at h
  · rename_i other asked
    split at h
    · rename_i heq
      exact ⟨heq ▸ asked, h⟩
    · cases h
  · cases h

theorem frameOf?_some {z : Step} {frame : OutboundFrame} (h : frameOf? name z = some frame) :
    z.action = .run (.session name) ∧
      ∃ x, z.before.session? name = some x ∧ x.emits? = some frame := by
  unfold frameOf? at h
  split at h
  · rename_i other asked
    obtain ⟨rfl, h⟩ := Option.ite_none_right_eq_some.mp h
    exact ⟨asked, Option.bind_eq_some_iff.mp h⟩
  · cases h

theorem sentBy_of_frame {z : Step} {d : Delivery} (h : frameOf? name z = some (.data d)) :
    sentBy name z = [d] := by
  rw [sentBy, h]
  rfl

/-- The session that sends a frame has what it sent first among what it took. -/
theorem sent_first_of_frame {start : Server} (h : machine.History start s steps) (S : start.Sound)
    (M : start.Manned) (hsessions : start.sessions = []) {j : Nat} {z : Step}
    (hj : steps[j]? = some z) {x : Session} (hx : z.before.session? name = some x) :
    (steps.take (j + 1)).flatMap (sentBy name) <+:
      (steps.take (j + 1)).flatMap (takenBy name x.principal.id) := by
  have hstep := (h.take hj).2
  have hcustody := (custody_of_history (h.take_succ hj) S M hsessions name).2
  have hfirst {y : Session} (hy : z.after.session? name = some y)
      (same : y.principal = x.principal) :
      (steps.take (j + 1)).flatMap (sentBy name) <+:
        (steps.take (j + 1)).flatMap (takenBy name x.principal.id) := by
    rw [← sent_eq, ← deliveries_popped, ← same]
    exact (hcustody y hy).sent_first
  cases becomes_of_turn (turn_of_step hstep) name with
  | rests _ after => exact hfirst (after.trans hx) rfl
  | joins _ new => simp [hx] at new
  | acts x' here r turn _ after =>
    obtain rfl := Option.some.inj (hx.symm.trans here)
    exact hfirst after turn.same.principal

theorem popped_of_takenBy {z : Step} (Q : QueueTurn p z) {d : Delivery} (h : takenBy name p z = [d]) :
    ∃ bytes, z.action = .run (.forward name) ∧ leaving p z = [bytes] ∧
      (Message.unpack? bytes).map Delivery.ofMessage = some d := by
  have hone : (poppedBy name p z).length ≤ 1 := length_poppedBy_le Q
  unfold takenBy at h
  cases hpopped : poppedBy name p z with
  | nil => simp [hpopped, deliveries] at h
  | cons bytes more =>
    obtain rfl : more = [] := by simpa [hpopped] using hone
    obtain ⟨asked, hleaving⟩ := poppedBy_cons hpopped
    refine ⟨bytes, asked, hleaving, ?_⟩
    rw [hpopped] at h
    cases hmessage : (Message.unpack? bytes).map Delivery.ofMessage with
    | none => simp [deliveries, hmessage] at h
    | some d' => simpa [deliveries, hmessage] using h

/-- **A session took each message before it sent it.** -/
theorem exists_passed {start : Server} (h : machine.History start s steps) (S : start.Sound)
    (M : start.Manned) (hsessions : start.sessions = []) {j : Nat} {z : Step}
    (hj : steps[j]? = some z) {x : Session} (hx : z.before.session? name = some x) {d : Delivery}
    (hframe : frameOf? name z = some (.data d)) :
    ∃ bytes k, Passed steps name x.principal.id bytes k j ∧
      (Message.unpack? bytes).map Delivery.ofMessage = some d := by
  have hturns : ∀ z ∈ steps, QueueTurn x.principal.id z := fun z hz => queueTurn_of_mem h S M hz
  have hone : ∀ z ∈ steps, (takenBy name x.principal.id z).length ≤ 1 := fun z hz =>
    Nat.le_trans (List.length_filterMap_le ..) (length_poppedBy_le (hturns z hz))
  obtain ⟨k, y, hkj, hk, htakes, hhands⟩ := Fifo.exists_put hone hj (sentBy_of_frame hframe)
    (sent_first_of_frame h S M hsessions hj hx)
  obtain ⟨bytes, asked, hleaving, hmessage⟩ :=
    popped_of_takenBy (hturns y (List.mem_of_getElem? hk)) htakes
  have hlt : k < j := by
    refine Nat.lt_of_le_of_ne hkj fun heq => ?_
    subst heq
    obtain rfl := Option.some.inj (hk.symm.trans hj)
    simp [(frameOf?_some hframe).1] at asked
  exact ⟨bytes, k, ⟨⟨y, hk, asked, hleaving⟩, hlt, hhands⟩, hmessage⟩

/-- **An entry that a session took came to the queue before.** -/
theorem route_of_passed {start : Server} (h : machine.History start s steps) (S : start.Sound)
    (M : start.Manned) (hqueue : start.queue p = []) {bytes : List UInt8} {k j : Nat}
    (P : Passed steps name p bytes k j) : ∃ i, Route steps name p bytes i k j := by
  obtain ⟨y, hk, asked, hleaving⟩ := P.takes
  have hfirst : (steps.take (k + 1)).flatMap (leaving p) <+:
      (steps.take (k + 1)).flatMap (arriving p) := by
    have harrived := arrived_of_history (h.take_succ hk) S M p
    rw [hqueue, List.nil_append] at harrived
    exact ⟨_, harrived.symm⟩
  obtain ⟨i, z, hik, hi, hputs, hrank⟩ :=
    Fifo.exists_put (fun z _ => length_arriving_le p z) hk hleaving hfirst
  have hlt : i < k := by
    refine Nat.lt_of_le_of_ne hik fun heq => ?_
    subst heq
    obtain rfl := Option.some.inj (hi.symm.trans hk)
    simp [arriving_forward asked] at hputs
  exact ⟨i, { P with puts := ⟨z, hi, hputs⟩, putFirst := hlt, inQueue := hrank }⟩

/-- **One entry goes one way.** -/
theorem Route.eq {name' : String} {bytes bytes' : List UInt8} {i k k' j j' : Nat} {z z' : Step}
    {d d' : Delivery} (R : Route steps name p bytes i k j) (R' : Route steps name' p bytes' i k' j')
    (hj : steps[j]? = some z) (hframe : frameOf? name z = some (.data d))
    (hj' : steps[j']? = some z') (hframe' : frameOf? name' z' = some (.data d')) : j = j' := by
  obtain ⟨y, hk, asked, hleaving⟩ := R.takes
  obtain ⟨y', hk', asked', hleaving'⟩ := R'.takes
  have hleaves : leaving p y ≠ [] := by simp [hleaving]
  have hleaves' : leaving p y' ≠ [] := by simp [hleaving']
  obtain rfl : k = k' := Fifo.eq_of_rank hk hleaves hk' hleaves' (R.inQueue.symm.trans R'.inQueue)
  obtain rfl := Option.some.inj (hk.symm.trans hk')
  obtain rfl : name = name' := by simpa [asked] using asked'
  have hsends : sentBy name z ≠ [] := by simp [sentBy_of_frame hframe]
  have hsends' : sentBy name z' ≠ [] := by simp [sentBy_of_frame hframe']
  exact Fifo.eq_of_rank hj hsends hj' hsends' (R.inHands.symm.trans R'.inHands)

/-! ### From the letter to the queue -/

/-- The text that a session takes up in a step. -/
def heard? (z : Step) : Option String :=
  match z.action with
  | .choose name .receive =>
    match (z.before.session? name).bind (·.connection.receive?) with
    | some (_, some (.ok text)) => some text
    | _ => none
  | _ => none

/-- What a step may bring in. The queues get packed letters only, what a program passes to a
call is a value that can be packed, and the bodies and texts of clients have fewer than `2 ^ 30`
characters, which no transport comes near. -/
structure Proper (z : Step) : Prop where
  packed : ∀ p bytes, z.action ≠ .pushRaw p bytes
  calls : ∀ label sender recipient kind correlationId data,
    z.action = .call label (.publish sender recipient kind correlationId data) →
      data.Fits ∧ MessagePack.ShortText correlationId ∧ MessagePack.Short data
  requests : ∀ label r draw, z.action = .http label r draw →
    r.body.length < twoTo 30 ∧ MessagePack.ShortText draw.correlationId
  texts : ∀ text, heard? z = some text → text.toList.length < twoTo 30

/-- **What a party writes can be packed**: by its data, and by its correlation text. -/
theorem packable_of_writes {z : Step} (proper : Proper z) {task : Task} {letter : Letter}
    (h : Writes z task letter) (wall : Int) :
    letter.data.Fits ∧ (letter.message wall).Short := by
  cases h with
  | calls label sender recipient kind correlationId data asked =>
    obtain ⟨fits, hcorrelation, hdata⟩ := proper.calls _ _ _ _ _ _ asked
    exact ⟨fits, hcorrelation, hdata⟩
  | asks label r draw _ payload asked _ body =>
    obtain ⟨hbody, hcorrelation⟩ := proper.requests label r draw asked
    obtain ⟨n, hn, readable⟩ := WriteRequestPayload.readable_of_read body
    exact ⟨readable.fits, hcorrelation, readable.short (Nat.lt_of_le_of_lt hn hbody)⟩
  | answers label r draw _ payload asked _ body =>
    obtain ⟨hbody, -⟩ := proper.requests label r draw asked
    obtain ⟨n, hn, readable⟩ := WriteResponsePayload.readable_of_read body
    have hlt : n < twoTo 30 := Nat.lt_of_le_of_lt hn hbody
    exact ⟨readable.data.fits, shortText_of_length (Nat.lt_of_le_of_lt readable.answers hlt),
      readable.data.short hlt⟩
  | hears x connection text r asked here received parsed =>
    have htext : text.toList.length < twoTo 30 :=
      proper.texts text (by simp [heard?, asked, here, received])
    have readable := InboundRequest.readable_of_parse parsed
    exact ⟨readable.data.fits, shortText_of_length (Nat.lt_of_le_of_lt readable.messageId htext),
      readable.data.short htext⟩

/-- An entry that comes to a queue is the packed message of a letter for its principal. -/
theorem letter_of_arriving {z : Step} (proper : Proper z) {bytes : List UInt8}
    (h : arriving p z = [bytes]) : ∃ letter, accepted? z = some letter ∧
      letter.recipient = p ∧ bytes = (written z letter).pack := by
  unfold arriving at h
  split at h
  · rename_i recipient raw asked
    exact absurd asked (proper.packed recipient raw)
  · split at h
    · rename_i letter haccepted
      split at h
      · rename_i haddressed
        exact ⟨letter, haccepted, haddressed, (List.singleton_inj.mp h).symm⟩
      · cases h
    · cases h

/-! ### Provenance -/

/-- The step `j` of a run sends a data frame in a session. A step sends no other frame. -/
def DataFrame (steps : List Step) (j : Nat) (x : Session) (d : Delivery) : Prop :=
  ∃ z, steps[j]? = some z ∧ z.before.session? x.name = some x ∧
    frameOf? x.name z = some (.data d)

theorem DataFrame.eq {j : Nat} {x x' : Session} {d d' : Delivery} (h : DataFrame steps j x d)
    (h' : DataFrame steps j x' d') : x = x' ∧ d = d' := by
  obtain ⟨z, hz, hx, hframe⟩ := h
  obtain ⟨z', hz', hx', hframe'⟩ := h'
  obtain rfl := Option.some.inj (hz.symm.trans hz')
  have hname : x.name = x'.name := by
    simpa [(frameOf?_some hframe).1] using (frameOf?_some hframe').1
  rw [← hname] at hx' hframe'
  obtain rfl := Option.some.inj (hx.symm.trans hx')
  exact ⟨rfl, OutboundFrame.data.inj (Option.some.inj (hframe.symm.trans hframe'))⟩

/-- Where a data frame comes from: a party wrote a letter in the step `w` and queued it in the
step `i`, before the step `j` sent the frame. -/
structure Stems (steps : List Step) (w i j : Nat) (x : Session) (d : Delivery) (task : Task)
    (letter : Letter) : Prop where
  wrote : Wrote steps task letter w i
  queued : ∃ z, steps[i]? = some z ∧ z.action = .run task ∧ accepted? z = some letter
  earlier : i < j
  /-- The letter is for the principal of the session. -/
  addressed : letter.recipient = x.principal.id
  kind : d.kind = letter.kind
  correlationId : d.correlationId = letter.correlationId
  data : d.data = letter.data
  /-- The frame names who wrote the letter. -/
  sender : d.sender = letter.sender

/-- **A data frame comes from a letter**, by way of the queue of the principal of its session. -/
theorem stems_of_frame {start : Server} (h : machine.History start s steps) (S : start.Sound)
    (M : start.Manned) (hcalls : start.calls = []) (hsessions : start.sessions = [])
    (hqueue : ∀ p, start.queue p = []) (proper : ∀ z ∈ steps, Proper z) {j : Nat} {x : Session}
    {d : Delivery} (hframe : DataFrame steps j x d) : ∃ w i, ∃ task letter bytes k,
      Stems steps w i j x d task letter ∧ Route steps x.name x.principal.id bytes i k j := by
  obtain ⟨z, hj, hx, hsent⟩ := hframe
  obtain ⟨bytes, k, passed, hread⟩ := exists_passed h S M hsessions hj hx hsent
  obtain ⟨i, route⟩ := route_of_passed h S M (hqueue _) passed
  obtain ⟨y, hi, harrives⟩ := route.puts
  obtain ⟨letter, haccepted, haddressed, rfl⟩ :=
    letter_of_arriving (proper y (List.mem_of_getElem? hi)) harrives
  obtain ⟨task, asked, w, hwrote⟩ := wrote_of_accepted h hcalls hsessions hi haccepted
  obtain ⟨u, hw, hwrites⟩ := hwrote.writes
  obtain ⟨fits, short⟩ := packable_of_writes (proper u (List.mem_of_getElem? hw)) hwrites
    y.before.service.clock.wall
  -- what is read of the entry is the message that was packed
  obtain ⟨n, hn, rfl⟩ := Option.map_eq_some_iff.mp hread
  have hmessage : n = { written y letter with createdAt := n.createdAt } :=
    Message.of_unpack?_pack fits short hn
  exact ⟨w, i, task, letter, _, k,
    { wrote := hwrote
      queued := ⟨y, hi, asked, haccepted⟩
      earlier := Nat.lt_trans route.putFirst route.earlier
      addressed := haddressed
      kind := congrArg Message.kind hmessage
      correlationId := congrArg Message.correlationId hmessage
      data := congrArg Message.data hmessage
      sender := congrArg Message.sender hmessage },
    route⟩

/-- Every data frame comes from a letter of its own. -/
structure Provenance (steps : List Step) (wrote queued : Nat → Nat) : Prop where
  stems : ∀ j x d, DataFrame steps j x d →
    ∃ task letter, Stems steps (wrote j) (queued j) j x d task letter
  /-- No letter that is queued leads to two data frames. -/
  queuedOnce : ∀ j x d j' x' d', DataFrame steps j x d → DataFrame steps j' x' d' →
    queued j = queued j' → j = j'
  /-- Nothing that is written leads to two data frames. -/
  wroteOnce : ∀ j x d j' x' d', DataFrame steps j x d → DataFrame steps j' x' d' →
    wrote j = wrote j' → j = j'
  /-- The principal of a session is the one for whom it was opened. -/
  opened : ∀ j z x, steps[j]? = some z → z.before.session? x.name = some x →
    ∃ y ∈ steps.take j, Opens y.before y.action x.name x.principal
  /-- The peer of a session receives its frames and nothing else. -/
  received : ∀ z ∈ steps, ∀ x y, z.before.session? x.name = some x →
    z.after.session? x.name = some y →
    y.connection.texts = x.connection.texts ++ ((frameOf? x.name z).map (·.text)).toList

/-- **Every data frame comes from a letter of its own, by its writer and for the principal of
its session**, in every run of a server. -/
theorem provenance_of_history {config : Config} {epoch : Int} {start s : Server}
    {steps : List Step} (hstart : ofConfig config epoch = .ok start)
    (h : machine.History start s steps) (proper : ∀ z ∈ steps, Proper z) :
    ∃ wrote queued : Nat → Nat, Provenance steps wrote queued := by
  have hsessions := (ofConfig_relay hstart).2
  have hstems (j : Nat) : ∃ w i, ∀ x d, DataFrame steps j x d → ∃ task letter bytes k,
      Stems steps w i j x d task letter ∧ Route steps x.name x.principal.id bytes i k j := by
    by_cases hsends : ∃ x d, DataFrame steps j x d
    · obtain ⟨x, d, hframe⟩ := hsends
      obtain ⟨w, i, hstems⟩ := stems_of_frame h (ofConfig_sound hstart) (ofConfig_manned hstart)
        (ofConfig_ok hstart).2.1 hsessions (ofConfig_queue hstart) proper hframe
      refine ⟨w, i, fun x' d' hframe' => ?_⟩
      obtain ⟨rfl, rfl⟩ := hframe.eq hframe'
      exact hstems
    · exact ⟨0, 0, fun x d hframe => absurd ⟨x, d, hframe⟩ hsends⟩
  choose wrote queued hstems using hstems
  have hqueuedOnce : ∀ j x d j' x' d', DataFrame steps j x d → DataFrame steps j' x' d' →
      queued j = queued j' → j = j' := by
    intro j x d j' x' d' hframe hframe' hsame
    obtain ⟨task, letter, bytes, k, stems, route⟩ := hstems j x d hframe
    obtain ⟨task', letter', bytes', k', stems', route'⟩ := hstems j' x' d' hframe'
    -- one letter, so one queue
    obtain ⟨z, hz, -, haccepted⟩ := stems.queued
    obtain ⟨z', hz', -, haccepted'⟩ := stems'.queued
    rw [← hsame] at hz' route'
    obtain rfl := Option.some.inj (hz.symm.trans hz')
    obtain rfl := Option.some.inj (haccepted.symm.trans haccepted')
    rw [← stems.addressed] at route
    rw [← stems'.addressed] at route'
    obtain ⟨y, hj, -, hsent⟩ := hframe
    obtain ⟨y', hj', -, hsent'⟩ := hframe'
    exact route.eq route' hj hsent hj' hsent'
  refine ⟨wrote, queued, ?_, hqueuedOnce, ?_, ?_, ?_⟩
  case refine_1 =>
    intro j x d hframe
    obtain ⟨task, letter, -, -, stems, -⟩ := hstems j x d hframe
    exact ⟨task, letter, stems⟩
  case refine_2 =>
    intro j x d j' x' d' hframe hframe' hsame
    obtain ⟨task, letter, -, -, stems, -⟩ := hstems j x d hframe
    obtain ⟨task', letter', -, -, stems', -⟩ := hstems j' x' d' hframe'
    obtain ⟨z, hz, asked, haccepted⟩ := stems.queued
    obtain ⟨z', hz', asked', haccepted'⟩ := stems'.queued
    have hwrote := stems'.wrote
    rw [← hsame] at hwrote
    exact hqueuedOnce j x d j' x' d' hframe hframe'
      (stems.wrote.eq hwrote hz hz' asked asked' haccepted haccepted')
  case refine_3 =>
    intro j z x hj hx
    exact opened_of_history (h.take hj).1 hsessions hx
  case refine_4 =>
    intro z hz x y hx hy
    obtain ⟨_, _, -, -, hstep, -⟩ := h.of_mem hz
    exact texts_of_turn (turn_of_step hstep) hx hy

/-! ### A run -/

def household : Config where
  principals := [⟨⟨⟨1⟩, "alice", false⟩, "t-alice"⟩, ⟨⟨⟨2⟩, "alice-phone", true⟩, "t-phone"⟩]

def householdStart : Server := (ofConfig household 0).toOption.get rfl

/-- The user asks the device. -/
def enquiry : HttpRequest where
  method := "POST"
  target := "/storage/write/request"
  authorization := some (Utf8.encode "Bearer t-alice".toList)
  contentType := some (Utf8.encode "application/json".toList)
  body := Utf8.encode "\x7b\"target_user_id\":2,\"data\":\"ping\"\x7d".toList

/-- The bearer of a token asks for a session. -/
def greeting (token : String) : HttpRequest where
  method := "GET"
  target := "/storage/ws"
  authorization := some (Utf8.encode ("Bearer " ++ token).toList)

/-- The device answers the user. -/
def rejoinder : String :=
  "\x7b\"request_type\":\"enqueue_response\",\"message_id\":\"w\"," ++
    "\"target_user_id\":1,\"data\":\"pong\"\x7d"

/-- The user asks over HTTP and is answered in a session. -/
def exchange : List Action :=
  [.link ⟨1⟩ ⟨2⟩, .handshake "phone" (greeting "t-phone"), .handshake "alice" (greeting "t-alice"),
    .http "w" enquiry ⟨⟨0⟩, "w"⟩, .run (.call "w"), .run (.call "w"), .run (.call "w"),
    .run (.forward "phone"), .run (.forward "phone"), .choose "phone" .relay,
    .run (.session "phone"), .peer "phone" (.webSocket (.message (.text rejoinder))),
    .choose "phone" .receive, .run (.session "phone"), .run (.session "phone"),
    .run (.session "phone"), .run (.session "phone"), .run (.forward "alice"),
    .run (.forward "alice"), .choose "alice" .relay, .run (.session "alice")]

theorem replay_exchange : (machine.replay householdStart exchange).isSome = true := by
  decide +kernel

theorem proper_of_exchange {z : Step}
    (hz : z ∈ ((machine.replay householdStart exchange).get replay_exchange).2) : Proper z := by
  have haction := Machine.action_of_replayed replay_exchange hz
  have hheard : ∀ z ∈ ((machine.replay householdStart exchange).get replay_exchange).2,
      (heard? z).all (fun text => text.toList.length < twoTo 30) = true := by decide +kernel
  constructor
  case packed =>
    intro p bytes asked
    simp [asked, exchange] at haction
  case calls =>
    intro label sender recipient kind correlationId data asked
    simp [asked, exchange] at haction
  case requests =>
    intro label r draw asked
    obtain ⟨-, rfl, rfl⟩ : label = "w" ∧ r = enquiry ∧ draw = ⟨⟨0⟩, "w"⟩ := by
      simpa [asked, exchange] using haction
    exact ⟨by decide +kernel, by decide +kernel⟩
  case texts =>
    intro text htext
    simpa [htext] using hheard z hz

/-- Each of the two gets a message of the other, under its own number. -/
theorem provenance_of_two : ∃ (start s : Server) (steps : List Step),
    ofConfig household 0 = .ok start ∧ machine.History start s steps ∧ (∀ z ∈ steps, Proper z) ∧
      (sent "phone" steps).map (fun d => (d.sender, d.data)) = [(⟨1⟩, .str "ping")] ∧
      (sent "alice" steps).map (fun d => (d.sender, d.data)) = [(⟨2⟩, .str "pong")] ∧
      ∃ wrote queued, Provenance steps wrote queued := by
  have hstart : ofConfig household 0 = .ok householdStart := rfl
  have h := Machine.history_of_replayed replay_exchange
  exact ⟨_, _, _, hstart, h, fun z => proper_of_exchange, by decide +kernel, by decide +kernel,
    provenance_of_history hstart h fun z => proper_of_exchange⟩

end Server
end DeviceRelay

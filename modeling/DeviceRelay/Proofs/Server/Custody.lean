/-
# A session sends every message it took, in order, but for the two it holds

The entries of a queue that are messages go through three hands: the forwarder of a session
takes one, the session holds it in its slot and then while it sends it, and its peer
receives it as a data frame. So of the messages that a session took from the queue of its
principal all were sent, in the order of the queue, but for at most two, and only those two
are lost if it ends or is dropped. That changes no queue, and the session takes nothing
afterwards.

Key definitions: `Session.Hands`, `Server.popped`, `Server.frames`, `Server.sent`,
`Server.Custody`, `Server.Handover`.
Key theorems: `Server.hands_of_turn`, `Server.custody_of_history`,
`Server.handover_of_history`.
-/
import DeviceRelay.Proofs.Server.Mail
import Mathlib.Data.List.Flatten

namespace DeviceRelay

def OutboundFrame.delivery? : OutboundFrame → Option Delivery
  | .data delivery => some delivery
  | .response _ => none

/-! ### Sessions -/

namespace Session

/-- What becomes of the messages in the hands of a session that takes some and sends some. -/
inductive Hands (x y : Session) (taken sent : List Delivery) : Prop where
  | runs (before : x.isRunning = true) (after : y.isRunning = true)
    (balance : x.held ++ taken = sent ++ y.held)
  /-- It ends and loses what it does not send any more. -/
  | ends (before : x.isRunning = true) (after : y.isRunning = false) (nothing : taken = [])
    (lost : List Delivery) (balance : x.held = sent ++ lost)
  | rests (before : x.isRunning = false) (after : y.isRunning = false) (nothing : taken = [])
    (silent : sent = [])

variable {s : Service} {x : Session} {r : Service × Session}

theorem hands_of_same {y : Session} (runs : y.isRunning = x.isRunning) (held : y.held = x.held) :
    Hands x y [] [] := by
  cases hx : x.isRunning with
  | true => exact .runs hx (runs.trans hx) (by simp [held])
  | false => exact .rests hx (runs.trans hx) rfl rfl

theorem hands_of_chosen {choice : Choice} (waits : x.phase = .selects) (h : Chosen s x choice r) :
    Hands x r.2 [] [] := by
  have hruns : x.isRunning = true := by rw [isRunning, waits]
  cases h with
  | keeps _ _ after =>
    subst after
    exact hands_of_same rfl rfl
  | hears _ connection text _ after =>
    subst after
    unfold takeText
    split <;> exact .runs hruns rfl (by simp [held, sending?, waits])
  | refuses _ _ _ after =>
    subst after
    exact .runs hruns rfl (by simp [held, sending?, waits])
  | takes m full after =>
    subst after
    exact .runs hruns rfl (by simp [held, sending?, waits, full, takeMessage])
  | ends _ _ _ after =>
    subst after
    exact .ends hruns rfl rfl x.held rfl

theorem held_of_sends {frame : OutboundFrame} (before : x.phase = .sends frame) :
    x.held = frame.delivery?.toList ++ (x.slot.map Delivery.ofMessage).toList := by
  unfold held sending?
  rw [before]
  cases frame <;> rfl

theorem hands_of_proceeded (h : Proceeded s x r) :
    Hands x r.2 [] (x.emits?.bind OutboundFrame.delivery?).toList := by
  cases h with
  | publishes messageId phase before move moves after =>
    subst after
    have hsilent : x.emits? = none := by rw [emits?, before]
    rw [hsilent]
    refine .runs (by rw [isRunning, before]) ?_ ?_
    · cases move.progress <;> rfl
    · cases move.progress <;> simp [held, sending?, before, onProgress]
  | sends frame before connection sent after =>
    subst after
    have hemits : x.emits? = some frame := by simp [emits?, before, sent]
    rw [hemits]
    refine .runs (by rw [isRunning, before]) rfl ?_
    rw [held_of_sends before]
    simp [held, sending?]
  | ends frame before connection tried result after =>
    subst after
    have hruns : x.isRunning = true := by rw [isRunning, before]
    cases hsend : (x.connection.send frame.text).2 with
    | ok _ =>
      have hemits : x.emits? = some frame := by simp [emits?, before, hsend]
      rw [hemits]
      exact .ends hruns rfl rfl _ (held_of_sends before)
    | error _ =>
      have hemits : x.emits? = none := by simp [emits?, before, hsend]
      rw [hemits]
      exact .ends hruns rfl rfl x.held rfl

theorem hands_drop (s : Service) (x : Session) : Hands x (x.drop s).2 [] [] := by
  unfold drop
  split
  case isTrue hruns => exact .ends hruns rfl rfl x.held rfl
  case isFalse => exact hands_of_same rfl rfl

/-! ### What is sent -/

theorem texts_of_chosen {choice : Choice} (h : Chosen s x choice r) :
    r.2.connection.texts = x.connection.texts := by
  cases h with
  | keeps _ silent after => exact after ▸ silent
  | hears _ connection text received after =>
    have hsame : ({ x with connection }.takeText text).connection = connection := by
      unfold takeText
      split <;> rfl
    rw [after]
    exact (congrArg Connection.texts hsame).trans (Connection.texts_receive? received)
  | refuses _ silent _ after => exact after ▸ silent
  | takes _ _ after => exact after ▸ rfl
  | ends connection silent _ after =>
    rw [after]
    exact (Connection.texts_close ..).trans silent

theorem texts_of_proceeded (h : Proceeded s x r) :
    r.2.connection.texts = x.connection.texts ++ (x.emits?.map (·.text)).toList := by
  have key (frame : OutboundFrame) (before : x.phase = .sends frame) :
      (x.connection.send frame.text).1.texts =
        x.connection.texts ++ (x.emits?.map (·.text)).toList := by
    rw [Connection.texts_send, emits?, before]
    dsimp only
    cases (x.connection.send frame.text).2 <;> rfl
  cases h with
  | publishes _ _ before _ _ after => simp [after, emits?, before]
  | sends frame before connection sent after =>
    rw [after]
    simpa only [sent] using key frame before
  | ends frame before connection tried _ after =>
    rw [after]
    exact (Connection.texts_close ..).trans (tried ▸ key frame before)

end Session

/-! ### The server -/

namespace Server

/-- The entries that a session takes from the queue of a principal in a step. -/
def poppedBy (name : String) (p : PrincipalId) (z : Step) : List (List UInt8) :=
  match z.action with
  | .run (.forward other) => if other = name then leaving p z else []
  | _ => []

/-- The frame that a session sends in a step. -/
def frameOf? (name : String) (z : Step) : Option OutboundFrame :=
  match z.action with
  | .run (.session other) => if other = name then (z.before.session? name).bind Session.emits? else none
  | _ => none

/-- The entries that a session took from the queue of a principal, the first first. -/
def popped (name : String) (p : PrincipalId) (steps : List Step) : List (List UInt8) :=
  steps.flatMap (poppedBy name p)

/-- The frames that a session sent, the first first. -/
def frames (name : String) (steps : List Step) : List OutboundFrame :=
  steps.filterMap (frameOf? name)

/-- The deliveries in the data frames that a session sent. -/
def sent (name : String) (steps : List Step) : List Delivery :=
  (frames name steps).filterMap OutboundFrame.delivery?

/-- The deliveries of the entries that are messages. -/
def deliveries (entries : List (List UInt8)) : List Delivery :=
  entries.filterMap fun bytes => (Message.unpack? bytes).map Delivery.ofMessage

variable {s t : Server} {a : Action} {events : List Event} {name : String}

theorem poppedBy_of_forward {z : Step} (asked : z.action = .run (.forward name)) (p : PrincipalId) :
    poppedBy name p z = leaving p z := by
  simp [poppedBy, asked]

theorem poppedBy_of_apart {z : Step} (apart : z.action.session? ≠ some name) (p : PrincipalId) :
    poppedBy name p z = [] := by
  unfold poppedBy
  split
  · next other ha =>
    rw [ha] at apart
    exact if_neg fun h => apart (congrArg some h)
  · rfl

theorem frameOf?_of_apart {z : Step} (apart : z.action.session? ≠ some name) :
    frameOf? name z = none := by
  unfold frameOf?
  split
  · next other ha =>
    rw [ha] at apart
    exact if_neg fun h => apart (congrArg some h)
  · rfl

/-- What a forwarder takes goes into the hands of its session, and comes from the queue of
its principal only. -/
theorem hands_of_forwards {x : Session} (events : List Event) (runs : x.isRunning = true)
    (F : Forwards s x t) :
    (∃ y, t.session? x.name = some y ∧ Session.Hands x y
      (deliveries (leaving x.principal.id ⟨s, .run (.forward x.name), t, events⟩)) []) ∧
      ∀ p, p ≠ x.principal.id → leaving p ⟨s, .run (.forward x.name), t, events⟩ = [] := by
  have hleaving (p : PrincipalId) (gone : List (List UInt8)) (h : s.queue p = gone ++ t.queue p) :
      leaving p ⟨s, .run (.forward x.name), t, events⟩ = gone := by
    refine leaving_eq ?_
    rw [arriving_forward rfl, List.append_nil]
    exact h
  cases F with
  | idle same y after hruns held =>
    refine ⟨⟨y, after, ?_⟩, fun p _ => hleaving p [] (same p).symm⟩
    rw [hleaving _ [] (same _).symm]
    exact .runs runs hruns (by simp [deliveries, held])
  | took bytes front others y after hruns held =>
    refine ⟨⟨y, after, ?_⟩, fun p hp => hleaving p [] (others p hp).symm⟩
    rw [hleaving _ [bytes] front]
    refine .runs runs hruns ?_
    rw [held, List.nil_append, deliveries, List.filterMap_cons, List.filterMap_nil]
    cases Message.unpack? bytes <;> rfl

/-- **What becomes of the messages in the hands of a session in a step.** -/
theorem hands_of_turn {x y : Session} (M : s.Manned) (T : Turn s a t) (hx : s.session? name = some x)
    (hy : t.session? name = some y) :
    Session.Hands x y (deliveries (poppedBy name x.principal.id ⟨s, a, t, events⟩))
      ((frameOf? name ⟨s, a, t, events⟩).bind OutboundFrame.delivery?).toList := by
  cases becomes_of_turn T name with
  | joins _ new => simp [new] at hx
  | rests apart after =>
    obtain rfl := Option.some.inj (hx.symm.trans (after.symm.trans hy))
    rw [poppedBy_of_apart apart, frameOf?_of_apart apart]
    exact Session.hands_of_same rfl rfl
  | acts x' here r turn relay after =>
    obtain rfl := Option.some.inj (hx.symm.trans here)
    obtain rfl := Option.some.inj (after.symm.trans hy)
    obtain rfl := session_name here
    cases turn with
    | forward _ turn =>
      obtain ⟨x', here', runs, F⟩ := forwards_of_turn M T
      obtain rfl := Option.some.inj (here.symm.trans here')
      obtain ⟨⟨y, hy', H⟩, -⟩ := hands_of_forwards events runs F
      obtain rfl := Option.some.inj (hy.symm.trans hy')
      rw [poppedBy_of_forward rfl]
      exact H
    | choose choice _ waits turn => exact Session.hands_of_chosen waits turn
    | proceed _ turn =>
      have H := Session.hands_of_proceeded turn
      rw [show frameOf? x.name _ = x.emits? by simp [frameOf?, hx]]
      exact H
    | drop => exact Session.hands_drop s.service x
    | peer => exact Session.hands_of_same rfl rfl

/-- A session takes nothing from the queue of another principal. -/
theorem poppedBy_other {x : Session} (M : s.Manned) (T : Turn s a t) (hx : s.session? name = some x)
    {p : PrincipalId} (hp : p ≠ x.principal.id) : poppedBy name p ⟨s, a, t, events⟩ = [] := by
  cases becomes_of_turn T name with
  | joins _ new => simp [new] at hx
  | rests apart => exact poppedBy_of_apart apart p
  | acts x' here r turn =>
    obtain rfl := Option.some.inj (hx.symm.trans here)
    obtain rfl := session_name here
    cases turn with
    | forward _ turn =>
      obtain ⟨x', here', runs, F⟩ := forwards_of_turn M T
      obtain rfl := Option.some.inj (here.symm.trans here')
      rw [poppedBy_of_forward rfl]
      exact (hands_of_forwards events runs F).2 p hp
    | _ => rfl

/-- The texts that a session sent are those of its frames. -/
theorem texts_of_turn {x y : Session} (T : Turn s a t) (hx : s.session? name = some x)
    (hy : t.session? name = some y) : y.connection.texts =
      x.connection.texts ++ ((frameOf? name ⟨s, a, t, events⟩).map (·.text)).toList := by
  cases becomes_of_turn T name with
  | joins _ new => simp [new] at hx
  | rests apart after =>
    obtain rfl := Option.some.inj (hx.symm.trans (after.symm.trans hy))
    rw [frameOf?_of_apart apart]
    simp
  | acts x' here r turn relay after =>
    obtain rfl := Option.some.inj (hx.symm.trans here)
    obtain rfl := Option.some.inj (after.symm.trans hy)
    obtain rfl := session_name here
    cases turn with
    | forward _ turn =>
      have hsame : r.2.connection = x.connection := by
        cases turn with
        | reserves _ _ _ after => rw [after]
        | consumes _ _ _ consumed? _ after =>
          rw [after]
          cases consumed? with
          | none => rfl
          | some consumed => cases consumed <;> rfl
      simp [frameOf?, hsame]
    | choose choice _ waits turn => simp [frameOf?, Session.texts_of_chosen turn]
    | proceed _ turn =>
      rw [show frameOf? x.name _ = x.emits? by simp [frameOf?, hx]]
      exact Session.texts_of_proceeded turn
    | drop =>
      have hsame : (x.drop s.service).2.connection = x.connection := by
        unfold Session.drop
        split <;> rfl
      simp [frameOf?, hsame]
    | peer event => simp [frameOf?, Connection.texts_onPeer]

/-! ### Runs -/

/-- A session ends or is dropped in a step. -/
structure EndsIn (name : String) (z : Step) (y : Session) : Prop where
  before : z.before.session? name = some y
  ran : y.isRunning = true
  after : ∃ y', z.after.session? name = some y' ∧ y'.isRunning = false

/-- What became of all that a session took. -/
structure Custody (name : String) (x : Session) (steps : List Step) : Prop where
  /-- It took nothing from the queues of others. -/
  own : ∀ p, p ≠ x.principal.id → popped name p steps = []
  /-- As long as it runs, it sent all but what it holds. -/
  running : x.isRunning = true →
    deliveries (popped name x.principal.id steps) = sent name steps ++ x.held
  /-- Once it ended, all but what it held then is sent. -/
  ended : x.isRunning = false → ∃ z ∈ steps, ∃ y, EndsIn name z y ∧ ∃ lost, lost <:+ y.held ∧
    deliveries (popped name x.principal.id steps) = sent name steps ++ lost

theorem popped_concat (name : String) (p : PrincipalId) (steps : List Step) (z : Step) :
    popped name p (steps ++ [z]) = popped name p steps ++ poppedBy name p z := by
  simp [popped]

theorem sent_concat (name : String) (steps : List Step) (z : Step) :
    sent name (steps ++ [z]) =
      sent name steps ++ ((frameOf? name z).bind OutboundFrame.delivery?).toList := by
  unfold sent frames
  rw [List.filterMap_append, List.filterMap_append]
  congr 1
  cases hf : frameOf? name z with
  | none => simp [hf]
  | some frame => cases frame <;> simp [hf, OutboundFrame.delivery?]

theorem deliveries_append (entries later : List (List UInt8)) :
    deliveries (entries ++ later) = deliveries entries ++ deliveries later :=
  List.filterMap_append ..

theorem Custody.concat {x y : Session} {steps : List Step} (C : Custody name x steps) {z : Step}
    (hx : z.before.session? name = some x) (hy : z.after.session? name = some y)
    (own : ∀ p, p ≠ x.principal.id → poppedBy name p z = []) (same : y.principal = x.principal)
    (H : Session.Hands x y (deliveries (poppedBy name x.principal.id z))
      ((frameOf? name z).bind OutboundFrame.delivery?).toList) : Custody name y (steps ++ [z]) := by
  constructor
  case own =>
    intro p hp
    rw [same] at hp
    rw [popped_concat, C.own p hp, own p hp, List.nil_append]
  case running =>
    intro hruns
    rw [same, popped_concat, deliveries_append, sent_concat]
    cases H with
    | runs before after balance => rw [C.running before, List.append_assoc, balance, List.append_assoc]
    | ends before after => simp [hruns] at after
    | rests before after => simp [hruns] at after
  case ended =>
    intro hended
    rw [same, popped_concat, deliveries_append, sent_concat]
    cases H with
    | runs before after balance => simp [hended] at after
    | ends before after nothing lost balance =>
      refine ⟨z, by simp, x, ⟨hx, before, y, hy, after⟩, lost, ⟨_, balance.symm⟩, ?_⟩
      rw [nothing, List.append_nil, C.running before, balance, List.append_assoc]
    | rests before after nothing silent =>
      obtain ⟨z', hz', y', hends, lost, hlost, hbalance⟩ := C.ended before
      refine ⟨z', by simp [hz'], y', hends, lost, hlost, ?_⟩
      rw [nothing, silent, List.append_nil, List.append_nil, hbalance]

/-- A session that is not there yet took nothing and sent nothing. -/
structure Absent (name : String) (steps : List Step) : Prop where
  popped : ∀ p, popped name p steps = []
  sent : sent name steps = []

theorem Absent.concat {steps : List Step} (A : Absent name steps) {z : Step}
    (apart : z.action.session? ≠ some name) : Absent name (steps ++ [z]) :=
  ⟨fun p => by rw [popped_concat, A.popped, poppedBy_of_apart apart, List.nil_append],
    by rw [sent_concat, A.sent, frameOf?_of_apart apart]; rfl⟩

theorem Absent.custody {steps : List Step} (A : Absent name steps) (p : Principal)
    (connection : Connection) : Custody name { name, principal := p, connection } steps := by
  refine ⟨fun p _ => A.popped p, fun _ => ?_, nofun⟩
  rw [A.popped, A.sent]
  rfl

/-- **A session that runs sent all that it took but what it holds**, and one that ended but
what it held then. -/
theorem custody_of_history {start : Server} {steps : List Step} (h : machine.History start s steps)
    (S : start.Sound) (M : start.Manned) (hstart : start.sessions = []) (name : String) :
    (s.session? name = none → Absent name steps) ∧
      ∀ x, s.session? name = some x → Custody name x steps := by
  induction h with
  | start =>
    refine ⟨fun _ => ⟨fun _ => rfl, rfl⟩, fun x hx => ?_⟩
    simp [session?, hstart] at hx
  | @step u t steps a events hu hstep ih =>
    have M' := manned_of_history hu S M
    have T := turn_of_step hstep
    have next {x y : Session} (hx : u.session? name = some x) (hy : t.session? name = some y)
        (same : y.principal = x.principal) : Custody name y (steps ++ [⟨u, a, t, events⟩]) :=
      (ih.2 x hx).concat hx hy (fun p hp => poppedBy_other M' T hx hp) same (hands_of_turn M' T hx hy)
    cases becomes_of_turn T name with
    | acts x here r turn relay after =>
      refine ⟨fun hnone => by simp [after] at hnone, fun y hy => ?_⟩
      obtain rfl := Option.some.inj (after.symm.trans hy)
      exact next here hy turn.same.principal
    | rests apart after =>
      refine ⟨fun hnone => (ih.1 (after ▸ hnone)).concat apart, fun y hy => ?_⟩
      exact next (after ▸ hy) hy rfl
    | joins apart new p connection after =>
      refine ⟨fun hnone => by simp [after] at hnone, fun y hy => ?_⟩
      obtain rfl := Option.some.inj (after.symm.trans hy)
      exact ((ih.1 new).concat apart).custody p connection

/-! ### The end of a session -/

theorem rests_of_stopped {x : Session} (T : Turn s a t) (hx : s.session? name = some x)
    (stopped : x.isRunning = false) : (∀ p, poppedBy name p ⟨s, a, t, events⟩ = []) ∧
      frameOf? name ⟨s, a, t, events⟩ = none ∧
      ∃ y, t.session? name = some y ∧ y.isRunning = false := by
  cases becomes_of_turn T name with
  | joins _ new => simp [new] at hx
  | rests apart after =>
    exact ⟨poppedBy_of_apart apart, frameOf?_of_apart apart, x, after.trans hx, stopped⟩
  | acts x' here r turn relay after =>
    obtain rfl := Option.some.inj (hx.symm.trans here)
    have hruns {P : Prop} (hr : x.isRunning = true) : P := by simp [hr] at stopped
    cases turn with
    | forward _ turn =>
      cases turn with
      | reserves runs => exact hruns runs
      | consumes runs => exact hruns runs
    | choose _ _ waits => exact hruns (by rw [Session.isRunning, waits])
    | proceed _ turn =>
      cases turn with
      | publishes _ _ before | sends _ before | ends _ before =>
        exact hruns (by rw [Session.isRunning, before])
    | drop =>
      refine ⟨fun _ => rfl, rfl, _, after, ?_⟩
      simp [Session.drop, stopped]
    | peer => exact ⟨fun _ => rfl, rfl, _, after, stopped⟩

/-- **The end of a session changes no queue.** -/
theorem queue_of_ends {y : Session} (M : s.Manned) (T : Turn s a t)
    (E : EndsIn name ⟨s, a, t, events⟩ y) (p : PrincipalId) : t.queue p = s.queue p := by
  obtain ⟨hbefore, ran, y', hafter, stopped⟩ := E
  dsimp only at hbefore hafter
  cases becomes_of_turn T name with
  | joins _ new => simp [new] at hbefore
  | rests _ after =>
    obtain rfl := Option.some.inj (hbefore.symm.trans (after.symm.trans hafter))
    simp [ran] at stopped
  | acts x here r turn relay after =>
    obtain rfl := Option.some.inj (hbefore.symm.trans here)
    obtain rfl := Option.some.inj (after.symm.trans hafter)
    obtain rfl := session_name here
    have hqueue (same : r.1.relay.entries p = s.service.relay.entries p) : t.queue p = s.queue p := by
      rw [queue, relay]
      exact same
    cases turn with
    | forward _ turn =>
      obtain ⟨x', here', -, F⟩ := forwards_of_turn M T
      obtain rfl := Option.some.inj (here.symm.trans here')
      cases F with
      | idle same => exact same p
      | took _ _ _ y hy runs =>
        obtain rfl := Option.some.inj (hy.symm.trans hafter)
        simp [runs] at stopped
    | choose _ _ _ turn =>
      refine hqueue ?_
      cases turn with
      | keeps _ _ after | hears _ _ _ _ after | refuses _ _ _ after | takes _ _ after
      | ends _ _ _ after => exact after ▸ rfl
    | proceed _ turn =>
      cases turn with
      | publishes _ _ _ move _ after =>
        have hruns : r.2.isRunning = true := by
          rw [after]
          cases move.progress <;> rfl
        simp [hruns] at stopped
      | sends _ _ _ _ after | ends _ _ _ _ _ after => exact hqueue (after ▸ rfl)
    | drop =>
      refine hqueue ?_
      unfold Session.drop
      split <;> rfl
    | peer => exact hqueue rfl

theorem Manned.gone {x : Session} (M : s.Manned) (hx : s.session? name = some x)
    (stopped : x.isRunning = false) :
    (∀ c ∈ s.service.relay.consumers, c.call ≠ .session name) ∧
      ∀ pop ∈ s.service.relay.queues.pops, pop.call ≠ .session name := by
  obtain rfl := session_name hx
  have hconsumers : ∀ c ∈ s.service.relay.consumers, c.call ≠ .session x.name := by
    intro c hc hcall
    obtain ⟨runs, -⟩ := (M.sessions _ x hx).consumes c.recipient c.skips
      (hcall ▸ List.mem_map_of_mem (f := fun c => (c.call, c.recipient, c.skips)) hc)
    simp [runs] at stopped
  refine ⟨hconsumers, fun pop hpop hcall => ?_⟩
  obtain ⟨c, hc, -⟩ := M.tended pop hpop
  exact hconsumers c (List.mem_of_find?_eq_some hc) (by simpa [hcall] using List.find?_some hc)

/-! ### The whole run -/

/-- What a run says of all sessions and all queues. -/
structure Handover (steps : List Step) (s : Server) : Prop where
  /-- What a session took it sent, but for the two messages at most that it holds, or held
  when it ended. -/
  custody : ∀ name x, s.session? name = some x → Custody name x steps
  atMostTwo : ∀ x : Session, x.held.length ≤ 2
  /-- What came to a queue left it in order or is still there in order. -/
  queues : ∀ p, arrived p steps = left p steps ++ s.queue p
  /-- Each entry that left was taken by one session or call of its principal, or dropped. -/
  turns : ∀ z ∈ steps, ∀ p, QueueTurn p z
  /-- A session sends its data frames in the order of the queue. -/
  order : ∀ name x, s.session? name = some x →
    (popped name x.principal.id steps ++ s.queue x.principal.id).Sublist
        (arrived x.principal.id steps) ∧
      (sent name steps).Sublist (deliveries (arrived x.principal.id steps))
  /-- The frames that a session sends are the texts that its peer receives. -/
  texts : ∀ z ∈ steps, ∀ name x y, z.before.session? name = some x →
    z.after.session? name = some y →
    y.connection.texts = x.connection.texts ++ ((frameOf? name z).map (·.text)).toList
  /-- The end of a session changes no queue. -/
  ends : ∀ z ∈ steps, ∀ name y, EndsIn name z y → ∀ p, z.after.queue p = z.before.queue p
  /-- A session that ended takes and sends nothing more. -/
  stopped : ∀ z ∈ steps, ∀ name x, z.before.session? name = some x → x.isRunning = false →
    (∀ p, poppedBy name p z = []) ∧ frameOf? name z = none ∧
      ∃ y, z.after.session? name = some y ∧ y.isRunning = false
  /-- A session that ended waits at no queue. -/
  gone : ∀ name x, s.session? name = some x → x.isRunning = false →
    (∀ c ∈ s.service.relay.consumers, c.call ≠ .session name) ∧
      ∀ pop ∈ s.service.relay.queues.pops, pop.call ≠ .session name

theorem popped_sublist_left (name : String) (p : PrincipalId) (steps : List Step) :
    (popped name p steps).Sublist (left p steps) := by
  refine List.Sublist.flatMap_right steps fun z _ => ?_
  unfold poppedBy
  split
  · split
    · exact List.Sublist.refl _
    · exact List.nil_sublist _
  · exact List.nil_sublist _

theorem Custody.sent_first {x : Session} {steps : List Step} (C : Custody name x steps) :
    sent name steps <+: deliveries (popped name x.principal.id steps) := by
  cases hruns : x.isRunning with
  | true => exact ⟨x.held, (C.running hruns).symm⟩
  | false =>
    obtain ⟨-, -, -, -, lost, -, hbalance⟩ := C.ended hruns
    exact ⟨lost, hbalance.symm⟩

theorem ofConfig_queue {config : Config} {epoch : Int} (h : ofConfig config epoch = .ok s)
    (p : PrincipalId) : s.queue p = [] := by
  rw [queue, (ofConfig_relay h).1]
  rfl

/-- **Every message that a session takes is sent in order, or is one of the two that it holds
when it ends**, in every run of a server. -/
theorem handover_of_history {config : Config} {epoch : Int} {start s : Server} {steps : List Step}
    (hstart : ofConfig config epoch = .ok start) (h : machine.History start s steps) :
    Handover steps s := by
  have S := ofConfig_sound hstart
  have M := ofConfig_manned hstart
  have hcustody := fun name => (custody_of_history h S M (ofConfig_relay hstart).2 name).2
  have hqueues : ∀ p, arrived p steps = left p steps ++ s.queue p := fun p => by
    simpa [ofConfig_queue hstart] using arrived_of_history h S M p
  constructor
  case custody => exact hcustody
  case atMostTwo => exact Session.length_held_le
  case queues => exact hqueues
  case turns => exact fun z hz p => queueTurn_of_mem h S M hz
  case order =>
    intro name x hx
    have hpopped : (popped name x.principal.id steps ++ s.queue x.principal.id).Sublist
        (arrived x.principal.id steps) := by
      rw [hqueues]
      exact (popped_sublist_left name _ steps).append (List.Sublist.refl _)
    refine ⟨hpopped, (hcustody name x hx).sent_first.sublist.trans ?_⟩
    exact ((List.sublist_append_left ..).trans hpopped).filterMap _
  case texts =>
    intro z hz name x y hx hy
    obtain ⟨_, _, -, hbefore, hstep, -⟩ := h.of_mem hz
    exact texts_of_turn (turn_of_step hstep) hx hy
  case ends =>
    intro z hz name y E p
    obtain ⟨_, _, -, hbefore, hstep, -⟩ := h.of_mem hz
    exact queue_of_ends (manned_of_history hbefore S M) (turn_of_step hstep) E p
  case stopped =>
    intro z hz name x hx hstopped
    obtain ⟨_, _, -, hbefore, hstep, -⟩ := h.of_mem hz
    exact rests_of_stopped (turn_of_step hstep) hx hstopped
  case gone => exact fun name x hx stopped => (manned_of_history h S M).gone hx stopped

/-! ### A run -/

/-- A principal that writes to itself. -/
def hermit : Principal := ⟨⟨1⟩, "alice", false⟩

def solitary : Config where
  principals := [⟨hermit, "t-alice"⟩]

def solitaryStart : Server := (ofConfig solitary 0).toOption.get rfl

/-- A message of the principal to itself. -/
def note (correlationId : String) : Call :=
  .publish hermit hermit.id .request correlationId .null

/-- A session sends a message and is dropped with another, and the next session begins. -/
def dropsOne : List Action :=
  [.call "a" (note "a"), .run (.call "a"), .run (.call "a"), .call "b" (note "b"),
    .run (.call "b"), .run (.call "b"), .call "c" (note "c"), .run (.call "c"), .run (.call "c"),
    .openSession "first" hermit (.direct {}), .run (.forward "first"), .run (.forward "first"),
    .choose "first" .relay, .run (.session "first"), .run (.forward "first"),
    .run (.forward "first"), .dropSession "first", .openSession "next" hermit (.direct {}),
    .run (.forward "next"), .run (.forward "next")]

theorem replay_dropsOne : (machine.replay solitaryStart dropsOne).isSome = true := by
  decide +kernel

/-- Of three messages a session sends one and is dropped with one, and the next session
still finds the third. -/
theorem handover_of_three : ∃ (start s : Server) (steps : List Step),
    ofConfig solitary 0 = .ok start ∧ machine.History start s steps ∧
      (sent "first" steps).map (·.correlationId) = ["a"] ∧
      (deliveries (popped "first" ⟨1⟩ steps)).map (·.correlationId) = ["a", "b"] ∧
      (deliveries (popped "next" ⟨1⟩ steps)).map (·.correlationId) = ["c"] ∧
      Handover steps s := by
  have hstart : ofConfig solitary 0 = .ok solitaryStart := rfl
  have h := Machine.history_of_replayed replay_dropsOne
  exact ⟨_, _, _, hstart, h, by decide +kernel, by decide +kernel, by decide +kernel,
    handover_of_history hstart h⟩

end Server
end DeviceRelay

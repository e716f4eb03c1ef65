/-
# Only a running session with a free slot consumes

A session is among those who consume at the relay only while it runs and its forwarder is
busy. It consumes for its own principal, and its slot is free meanwhile. One that ended or
was dropped consumes no more.

Key definitions: `Session.Manned`, `Session.Keeps`, `Server.Manned`.
Key theorems: `Session.keeps_of_turn`, `Server.manned_of_turn`, `Server.manned_of_history`.
-/
import DeviceRelay.Proofs.Server.Turns

namespace DeviceRelay

namespace Session

/-- How a session stands among those who consume. -/
structure Manned (relay : Relay Party) (x : Session) : Prop where
  consumes : ∀ p skips, (Party.session x.name, p, skips) ∈ relay.clients →
    x.isRunning = true ∧ x.forwarder = .consumes ∧ p = x.principal.id ∧ skips = true
  free : x.forwarder = .consumes → x.slot = none

/-- What the turn of a session does to those who consume. -/
structure Keeps (s : Service) (x : Session) (r : Service × Session) : Prop where
  tended : r.1.relay.Tended
  others : ∀ client ∈ r.1.relay.clients, client.1 ≠ .session x.name → client ∈ s.relay.clients
  manned : Manned r.1.relay r.2

variable {s : Service} {x : Session} {r : Service × Session}

/-- A turn in which a session neither begins nor ends to consume. -/
theorem keeps_of_same (M : Manned s.relay x) (tended : r.1.relay.Tended)
    (clients : r.1.relay.clients = s.relay.clients) (same : x.Same r.2)
    (runs : x.isRunning = true → r.2.isRunning = true) (forwarder : r.2.forwarder = x.forwarder)
    (slot : r.2.slot = x.slot ∨ r.2.slot = none) : Keeps s x r := by
  refine ⟨tended, fun client hclient _ => clients ▸ hclient, fun p skips hclient => ?_,
    fun hbusy => ?_⟩
  · rw [same.name, clients] at hclient
    obtain ⟨hruns, hbusy, rfl, rfl⟩ := M.consumes p skips hclient
    exact ⟨runs hruns, forwarder.trans hbusy, by rw [same.principal], rfl⟩
  · rcases slot with hslot | hslot
    · exact hslot.trans (M.free (forwarder ▸ hbusy))
    · exact hslot

theorem keeps_of_stop (tended : r.1.relay.Tended)
    (clients : r.1.relay.clients = s.relay.clients.filter (·.1 ≠ .session x.name))
    (same : x.Same r.2) (idle : r.2.forwarder ≠ .consumes) : Keeps s x r := by
  refine ⟨tended, fun client hclient _ => ?_, fun p skips hclient => ?_, fun h => absurd h idle⟩
  · rw [clients] at hclient
    exact List.mem_of_mem_filter hclient
  · rw [clients, same.name] at hclient
    simpa using (List.mem_filter.mp hclient).2

theorem keeps_finish (tended : s.relay.Tended) (connection : Connection)
    (result : Except TransportError Unit) :
    Keeps s x ({ x with connection }.finish s result) :=
  keeps_of_stop (tended.abandon _) (Relay.clients_abandon ..) ⟨rfl, rfl⟩ nofun

theorem keeps_of_forwarded (M : Manned s.relay x) (tended : s.relay.Tended) (h : Forwarded s x r) :
    Keeps s x r := by
  cases h with
  | reserves runs idle free after =>
    subst after
    have hbegin := tended.begin (.session x.name) x.principal.id
      (s.config.relay.consumeTimeout * 1000) true
    refine ⟨hbegin, fun client hclient hother => ?_, fun p skips hclient => ?_, fun _ => free⟩
    · rw [Relay.clients_begin] at hclient
      rcases List.mem_append.mp hclient with hclient | hclient
      · exact hclient
      · exact absurd (by rw [List.mem_singleton.mp hclient]) hother
    · rw [Relay.clients_begin] at hclient
      rcases List.mem_append.mp hclient with hclient | hclient
      · obtain ⟨-, hbusy, -⟩ := M.consumes p skips hclient
        simp [idle] at hbusy
      · obtain ⟨hp, hskips⟩ : p = x.principal.id ∧ skips = true := by simpa using hclient
        exact ⟨runs, rfl, hp, hskips⟩
  | consumes runs busy relay consumed? run after =>
    subst after
    obtain ⟨htended, hclients, -⟩ := Relay.ran_of_tended tended run
    cases consumed? with
    | none => exact keeps_of_same M htended hclients ⟨rfl, rfl⟩ id rfl (.inl rfl)
    | some consumed =>
      refine keeps_of_stop htended hclients (same_handed x _) ?_
      cases consumed <;> exact nofun

theorem keeps_of_chosen (M : Manned s.relay x) (tended : s.relay.Tended) {choice : Choice}
    (h : Chosen s x choice r) : Keeps s x r := by
  have hsame := h.same
  cases h with
  | keeps _ _ after =>
    subst after
    exact keeps_of_same M tended rfl hsame id rfl (.inl rfl)
  | hears _ connection text _ after =>
    subst after
    refine keeps_of_same M tended rfl hsame (fun _ => ?_) ?_ (.inl ?_) <;>
      unfold takeText <;> split <;> rfl
  | refuses _ _ _ after =>
    subst after
    exact keeps_of_same M tended rfl hsame (fun _ => rfl) rfl (.inl rfl)
  | takes _ _ after =>
    subst after
    exact keeps_of_same M tended rfl hsame (fun _ => rfl) rfl (.inr rfl)
  | ends connection _ result after =>
    subst after
    exact keeps_finish tended connection result

theorem keeps_of_proceeded (M : Manned s.relay x) (tended : s.relay.Tended) (hx : x.Publishes)
    (h : Proceeded s x r) : Keeps s x r := by
  have hsame := h.same
  cases h with
  | publishes messageId phase before move moves after =>
    subst after
    obtain ⟨htended, hclients⟩ := Service.relay_of_publishes tended (hx _ _ before) moves
    refine keeps_of_same M htended hclients hsame (fun _ => ?_) rfl (.inl rfl)
    dsimp only [isRunning]
    cases move.progress <;> rfl
  | sends _ _ _ _ after =>
    subst after
    exact keeps_of_same M tended rfl hsame (fun _ => rfl) rfl (.inl rfl)
  | ends _ _ connection _ result after =>
    subst after
    exact keeps_finish tended connection result

theorem keeps_drop (M : Manned s.relay x) (tended : s.relay.Tended) : Keeps s x (x.drop s) := by
  unfold drop
  split
  · exact keeps_of_stop (tended.abandon _) (Relay.clients_abandon ..) ⟨rfl, rfl⟩ nofun
  · exact keeps_of_same M tended rfl ⟨rfl, rfl⟩ id rfl (.inl rfl)

theorem keeps_of_turn {server : Server} {a : Action} (S : server.Sound)
    (hx : server.session? x.name = some x) (M : Manned server.service.relay x)
    (tended : server.service.relay.Tended) (h : Server.SessionTurn server x a r) :
    Keeps server.service x r := by
  cases h with
  | forward _ turn => exact keeps_of_forwarded M tended turn
  | choose _ _ _ turn => exact keeps_of_chosen M tended turn
  | proceed _ turn =>
    exact keeps_of_proceeded M tended (S.sessions x (Server.session_some hx)) turn
  | drop => exact keeps_drop M tended
  | peer => exact keeps_of_same M tended rfl ⟨rfl, rfl⟩ id rfl (.inl rfl)

end Session

namespace Server

/-- How a server stands to those who consume: every session among them is known and stands
as it should. -/
structure Manned (s : Server) : Prop where
  tended : s.service.relay.Tended
  known : ∀ name p skips, (Party.session name, p, skips) ∈ s.service.relay.clients →
    (s.session? name).isSome = true
  sessions : ∀ name x, s.session? name = some x → x.Manned s.service.relay

variable {s t : Server} {a : Action}

/-- Of the sessions, only the one whose turn it is can begin to consume. -/
theorem clients_of_turn (S : s.Sound) (M : s.Manned) (T : Turn s a t) :
    t.service.relay.Tended ∧ ∀ name p skips, a.session? ≠ some name →
      (Party.session name, p, skips) ∈ t.service.relay.clients →
      (Party.session name, p, skips) ∈ s.service.relay.clients := by
  cases T with
  | still _ _ fault relay =>
    rw [relay]
    exact ⟨M.tended, fun _ _ _ _ hclient => hclient⟩
  | begins _ _ _ _ _ _ relay =>
    rw [relay]
    exact ⟨M.tended, fun _ _ _ _ hclient => hclient⟩
  | opens _ _ _ _ _ _ relay =>
    rw [relay]
    exact ⟨M.tended, fun _ _ _ _ hclient => hclient⟩
  | call label c _ _ move moves service =>
    obtain ⟨htended, hclients⟩ := Service.clients_of_step? M.tended moves
    rw [service]
    exact ⟨htended, fun _ _ _ _ hclient => hclients _ hclient nofun⟩
  | session x here r turn relay =>
    have K := Session.keeps_of_turn S here (M.sessions _ x here) M.tended turn
    rw [relay]
    refine ⟨K.tended, fun name p skips hother hclient => K.others _ hclient fun heq => hother ?_⟩
    rw [turn.session?]
    exact congrArg some (Party.session.inj heq).symm
  | dropCall label _ relay =>
    rw [relay, Relay.clients_abandon]
    exact ⟨M.tended.abandon _, fun _ _ _ _ hclient => List.mem_of_mem_filter hclient⟩
  | raw _ _ _ relay =>
    rw [relay]
    exact ⟨M.tended.pushRaw _ _, fun _ _ _ _ hclient => hclient⟩

theorem manned_of_turn (S : s.Sound) (M : s.Manned) (T : Turn s a t) : t.Manned := by
  obtain ⟨htended, hclients⟩ := clients_of_turn S M T
  constructor
  case tended => exact htended
  case known =>
    intro name p skips hclient
    cases becomes_of_turn T name with
    | acts _ _ _ _ _ after => rw [after]; rfl
    | rests apart after => rw [after]; exact M.known name p skips (hclients _ _ _ apart hclient)
    | joins _ _ _ _ after => rw [after]; rfl
  case sessions =>
    intro name x hx
    cases becomes_of_turn T name with
    | acts y here r turn relay after =>
      obtain rfl := Option.some.inj (after.symm.trans hx)
      obtain rfl := session_name here
      rw [relay]
      exact (Session.keeps_of_turn S here (M.sessions _ y here) M.tended turn).manned
    | rests apart after =>
      rw [hx] at after
      have hM := M.sessions name x after.symm
      obtain rfl := session_name after.symm
      exact ⟨fun p skips hclient => hM.consumes p skips (hclients _ _ _ apart hclient), hM.free⟩
    | joins apart new p connection after =>
      obtain rfl := Option.some.inj (after.symm.trans hx)
      refine ⟨fun p skips hclient => ?_, nofun⟩
      have hknown := M.known name p skips (hclients _ _ _ apart hclient)
      simp [new] at hknown

theorem ofConfig_relay {config : Config} {epoch : Int} (h : ofConfig config epoch = .ok s) :
    s.service.relay = .ofConfig config.relay ∧ s.sessions = [] := by
  unfold ofConfig Service.ofConfig at h
  split at h
  · cases h
  · split at h
    · cases h
    · obtain rfl := Except.ok.inj h
      exact ⟨rfl, rfl⟩

theorem ofConfig_manned {config : Config} {epoch : Int} (h : ofConfig config epoch = .ok s) :
    s.Manned := by
  obtain ⟨hrelay, hsessions⟩ := ofConfig_relay h
  constructor
  case tended =>
    rw [hrelay]
    exact fun _ hpop => absurd hpop List.not_mem_nil
  case known =>
    rw [hrelay]
    exact fun _ _ _ hclient => absurd hclient List.not_mem_nil
  case sessions => simp [session?, hsessions]

/-- **Only a running session with a free slot consumes**, in every state of a run. -/
theorem manned_of_history {start : Server} {steps : List Step} (h : machine.History start s steps)
    (S : start.Sound) (M : start.Manned) : s.Manned := by
  induction h with
  | start => exact M
  | step h hstep ih => exact manned_of_turn (sound_of_history h S) ih (turn_of_step hstep)

end Server
end DeviceRelay

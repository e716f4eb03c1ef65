/-
# The requests of a server change as those of a coordinator

Calls, sessions, timers and recordings take their steps in any order. Each step does one
operation on the requests or none, and it sends a request only under an identifier that
was drawn for it and that no other call is to send. So the requests of a server are sound
in every state of a run, and none goes back to an earlier stage.

Key definitions: `Server.Step`, `Server.Sound`, `Server.Aside`.
Key theorems: `Server.change_of_step`, `Server.sound_of_step`, `Server.sound_of_history`,
`Server.later_of_history`.
-/
import DeviceRelay.Proofs.Runs
import DeviceRelay.Proofs.Service.Requests
import DeviceRelay.Server

namespace DeviceRelay

open Coordinator (Op Change Kept)

/-! ### Sessions -/

namespace Session

/-- Whether what a session publishes, if it does, is a message. -/
def Publishes (x : Session) : Prop :=
  ∀ messageId phase, x.phase = .publishes messageId phase → phase.publishes

/-- What a step of a session leaves alone. -/
structure Aside (s : Service) (r : Service × Session) : Prop where
  pairing : s.pairing.Kept r.1.pairing
  store : r.1.store = s.store
  publishes : r.2.Publishes

variable {s : Service} {x : Session} {r : Service × Session}

theorem finish_aside (result : Except TransportError Unit) : Aside s (x.finish s result) :=
  ⟨.refl _, rfl, nofun⟩

theorem forward_aside (hx : x.Publishes) (h : x.forward? s = some r) : Aside s r := by
  unfold forward? at h
  dsimp only at h
  split at h
  · cases h
  · split at h
    · split at h
      · cases h
      · obtain rfl := Option.some.inj h
        exact ⟨.refl _, rfl, hx⟩
    · obtain ⟨⟨relay, consumed?⟩, -, rfl⟩ := Option.map_eq_some_iff.mp h
      dsimp only
      split <;> exact ⟨.refl _, rfl, hx⟩
    · cases h

theorem takeText_publishes (x : Session) (text : String) : (x.takeText text).Publishes := by
  unfold takeText
  split
  · exact nofun
  · rintro _ _ h
    obtain ⟨-, rfl⟩ := SessionPhase.publishes.inj h
    trivial

theorem takeEvent_aside (event : Except TransportError String) : Aside s (x.takeEvent s event) := by
  unfold takeEvent
  split
  · exact ⟨.refl _, rfl, takeText_publishes x _⟩
  · exact ⟨.refl _, rfl, nofun⟩
  · exact finish_aside _
  · exact finish_aside _

theorem choose_aside {choice : Choice} (hx : x.Publishes) (h : x.choose? s choice = some r) :
    Aside s r := by
  unfold choose? at h
  split at h
  · split at h
    · split at h
      · cases h
      · obtain rfl := Option.some.inj h
        exact finish_aside _
    · obtain ⟨⟨connection, event?⟩, -, rfl⟩ := Option.map_eq_some_iff.mp h
      cases event? with
      | some event => exact takeEvent_aside event
      | none => exact ⟨.refl _, rfl, hx⟩
    · split at h
      · obtain rfl := Option.some.inj h
        exact ⟨.refl _, rfl, nofun⟩
      · split at h
        · obtain rfl := Option.some.inj h
          exact finish_aside _
        · cases h
  · cases h

theorem sendFrame_aside (frame : OutboundFrame) : Aside s (x.sendFrame s frame) := by
  unfold sendFrame
  dsimp only
  split
  · split
    · exact ⟨.refl _, rfl, nofun⟩
    · exact finish_aside _
  · exact finish_aside _
  · exact finish_aside _

theorem proceed_aside (hx : x.Publishes) (h : x.proceed? s = some r) : Aside s r := by
  unfold proceed? at h
  split at h
  · rename_i messageId phase hphase
    obtain ⟨move, hmove, rfl⟩ := Option.map_eq_some_iff.mp h
    have P := Service.step_publishes (hx _ _ hphase) hmove
    split
    · rename_i next hnext
      refine ⟨P.pairing ▸ .refl _, P.store, fun _ _ he => ?_⟩
      obtain ⟨-, rfl⟩ := SessionPhase.publishes.inj he
      exact P.next _ hnext
    · exact ⟨P.pairing ▸ .refl _, P.store, nofun⟩
  · obtain rfl := Option.some.inj h
    exact sendFrame_aside _
  · cases h

theorem drop_aside (hx : x.Publishes) : Aside s (x.drop s) := by
  unfold drop
  split
  · exact ⟨Coordinator.abandon_kept _ _, rfl, nofun⟩
  · exact ⟨.refl _, rfl, hx⟩

end Session
/-! ### The server -/

namespace Server

/-- A step of the server. -/
abbrev Step := Machine.Step Server Action Event

/-- What holds of a server between its steps: requests are sent only under identifiers that
were drawn, each by one call, and a call that waits for a request sent it. -/
structure Sound (s : Server) : Prop where
  requests : s.service.pairing.Sound
  drawn : ∀ id, s.service.pairing.stage id ≠ .unsent → id ∈ s.drawn
  wants : ∀ c ∈ s.calls, ∀ id, c.phase.wants id →
    id ∈ s.drawn ∧ s.service.pairing.stage id = .unsent
  wantsOnce : ∀ c ∈ s.calls, ∀ c' ∈ s.calls, ∀ id, c.phase.wants id → c'.phase.wants id →
    c.label = c'.label
  awaits : ∀ c ∈ s.calls, ∀ id, c.phase.awaitsFor id → s.service.pairing.stage id ≠ .unsent
  sessions : ∀ x ∈ s.sessions, x.Publishes

/-- A step that begins no call and lets none go on. -/
structure Aside (s : Server) (a : Action) (t : Server) : Prop where
  change : ∃ op, Change s.service.clock s.service.store s.service.pairing op t.service.store
    t.service.pairing ∧ (∀ id p q, op ≠ some (.send id p q)) ∧
      ∀ id, op = some (.write id) → a = .run (.background (.write id))
  calls : ∀ c ∈ t.calls, c ∈ s.calls
  drawn : t.drawn = s.drawn
  sessions : ∀ x ∈ t.sessions, x.Publishes

variable {s t : Server} {a : Action}

theorem Aside.sound (A : Aside s a t) (S : s.Sound) : t.Sound := by
  obtain ⟨op, C, hop, -⟩ := A.change
  have unsent : ∀ id, s.service.pairing.stage id = .unsent → t.service.pairing.stage id = .unsent :=
    fun id h => C.unsent S.requests h (hop id)
  constructor
  case requests => exact C.sound S.requests
  case drawn =>
    intro id h
    rw [A.drawn]
    exact S.drawn id fun hu => h (unsent id hu)
  case wants =>
    intro c hc id hw
    obtain ⟨hd, hu⟩ := S.wants c (A.calls c hc) id hw
    exact ⟨A.drawn ▸ hd, unsent id hu⟩
  case wantsOnce => exact fun c hc c' hc' => S.wantsOnce c (A.calls c hc) c' (A.calls c' hc')
  case awaits =>
    intro c hc id hw hu
    have hle := C.later S.requests id
    rw [hu] at hle
    exact S.awaits c (A.calls c hc) id hw (Stage.Precedes.eq_unsent hle)
  case sessions => exact A.sessions

theorem Aside.of_kept (K : s.service.pairing.Kept t.service.pairing)
    (calls : ∀ c ∈ t.calls, c ∈ s.calls) (drawn : t.drawn = s.drawn)
    (sessions : ∀ x ∈ t.sessions, x.Publishes) : Aside s a t :=
  ⟨⟨none, .keep K, by simp, by simp⟩, calls, drawn, sessions⟩

theorem setSession_publishes {x : Session} (hs : ∀ x ∈ s.sessions, x.Publishes) (hx : x.Publishes) :
    ∀ y ∈ (s.setSession x).sessions, y.Publishes := by
  intro y hy
  obtain ⟨z, hz, rfl⟩ := List.mem_map.mp hy
  split
  · exact hx
  · exact hs z hz

theorem after_aside {r : Service × Session} (S : s.Sound) (A : Session.Aside s.service r) :
    Aside s a (s.after r).1 := by
  have hs := setSession_publishes (s := { s with service := r.1 }) S.sessions A.publishes
  unfold after
  dsimp only
  split <;> exact .of_kept A.pairing (fun _ => id) rfl hs

/-! ### Calls -/

theorem call_some {label : String} {c : Running} (h : s.call? label = some c) :
    c ∈ s.calls ∧ c.label = label :=
  ⟨List.mem_of_find?_eq_some h, by simpa using List.find?_some h⟩

/-- A step of a call: the service moves, and the call goes on or ends. -/
theorem runCall_some {label : String} {events : List Event}
    (h : s.runCall? label = some (t, events)) : ∃ c move, s.call? label = some c ∧
      s.service.step? (.call label) c.phase = some move ∧ t.service = move.service ∧
      t.drawn = s.drawn ∧ t.sessions = s.sessions ∧
      ((∃ next, move.progress = .goesOn next ∧ events = [] ∧
          t.calls = s.calls.map fun other =>
            if other.label = label then { other with phase := next } else other) ∨
        ∃ ending, move.progress = .ends ending ∧ events = [endEvent label ending c.origin] ∧
          t.calls = s.calls.filter (·.label ≠ label)) := by
  unfold runCall? at h
  obtain ⟨c, hc, h⟩ := Option.bind_eq_some_iff.mp h
  obtain ⟨move, hmove, h⟩ := Option.bind_eq_some_iff.mp h
  refine ⟨c, move, hc, hmove, ?_⟩
  cases hp : move.progress with
  | goesOn next =>
    simp only [hp] at h
    obtain ⟨rfl, rfl⟩ := Prod.mk.inj (Option.some.inj h)
    exact ⟨rfl, rfl, rfl, Or.inl ⟨next, rfl, rfl, rfl⟩⟩
  | ends ending =>
    simp only [hp] at h
    obtain ⟨rfl, rfl⟩ := Prod.mk.inj (Option.some.inj h)
    exact ⟨rfl, rfl, rfl, Or.inr ⟨ending, rfl, rfl, rfl⟩⟩

theorem runCall_stepped (S : s.Sound) {label : String} {c : Running} {move : Move}
    (hc : s.call? label = some c) (hm : s.service.step? (.call label) c.phase = some move) :
    ∃ op, Service.Stepped s.service c.phase move op :=
  Service.stepped S.requests (fun id hw => (S.wants c (call_some hc).1 id hw).2) hm

theorem calls_of_goesOn {label : String} {next : Phase}
    (hcalls : t.calls = s.calls.map fun other =>
      if other.label = label then { other with phase := next } else other)
    {e : Running} (he : e ∈ t.calls) :
    e ∈ s.calls ∧ e.label ≠ label ∨ e.label = label ∧ e.phase = next := by
  rw [hcalls] at he
  obtain ⟨e', he', rfl⟩ := List.mem_map.mp he
  split
  · next hl => exact Or.inr ⟨hl, rfl⟩
  · next hl => exact Or.inl ⟨he', hl⟩

/-- A call that wants to send did so before, and its request is not sent meanwhile: only
the call that goes on sends, and then it is past wanting to. -/
theorem wants_of_goesOn (S : s.Sound) {label : String} {c : Running} {move : Move} {next : Phase}
    {op : Option Op} (hc : s.call? label = some c) (M : Service.Stepped s.service c.phase move op)
    (hn : move.progress = .goesOn next)
    (hcalls : t.calls = s.calls.map fun other =>
      if other.label = label then { other with phase := next } else other)
    {e : Running} (he : e ∈ t.calls) {id : RequestId} (hw : e.phase.wants id) :
    (∃ e' ∈ s.calls, e'.label = e.label ∧ e'.phase.wants id) ∧ ∀ p q, op ≠ some (.send id p q) := by
  obtain ⟨hmem, hlabel⟩ := call_some hc
  rcases calls_of_goesOn hcalls he with ⟨he, hl⟩ | ⟨hl, hphase⟩
  · refine ⟨⟨e, he, rfl, hw⟩, fun p q ho => hl ?_⟩
    have hwc : c.phase.wants id := by rw [(M.sends id p q ho).1]; rfl
    exact (S.wantsOnce e he c hmem id hw hwc).trans hlabel
  · rw [hphase] at hw
    refine ⟨⟨c, hmem, hlabel.trans hl.symm, M.wants next hn id hw⟩, fun p q ho => ?_⟩
    obtain ⟨-, _, _, ha⟩ := M.sends id p q ho
    rw [hn] at ha
    rw [Progress.goesOn.inj ha] at hw
    exact hw

theorem goesOn_sound (S : s.Sound) {label : String} {c : Running} {move : Move} {next : Phase}
    {op : Option Op} (hc : s.call? label = some c) (M : Service.Stepped s.service c.phase move op)
    (hn : move.progress = .goesOn next) (hservice : t.service = move.service)
    (hdrawn : t.drawn = s.drawn) (hsessions : t.sessions = s.sessions)
    (hcalls : t.calls = s.calls.map fun other =>
      if other.label = label then { other with phase := next } else other) : t.Sound := by
  have hmem := (call_some hc).1
  have C := M.change
  rw [← hservice] at C
  constructor
  case requests => exact C.sound S.requests
  case drawn =>
    intro id h
    rw [hdrawn]
    by_contra hd
    have hu : s.service.pairing.stage id = .unsent := by_contra fun hne => hd (S.drawn id hne)
    refine h (C.unsent S.requests hu fun p q ho => ?_)
    have hwc : c.phase.wants id := by rw [(M.sends id p q ho).1]; rfl
    exact hd (S.wants c hmem id hwc).1
  case wants =>
    intro e he id hw
    obtain ⟨⟨e', he', -, hw'⟩, hop⟩ := wants_of_goesOn S hc M hn hcalls he hw
    obtain ⟨hd, hu⟩ := S.wants e' he' id hw'
    exact ⟨hdrawn ▸ hd, C.unsent S.requests hu hop⟩
  case wantsOnce =>
    intro e he e' he' id hw hw'
    obtain ⟨⟨x, hx, hxl, hxw⟩, -⟩ := wants_of_goesOn S hc M hn hcalls he hw
    obtain ⟨⟨x', hx', hxl', hxw'⟩, -⟩ := wants_of_goesOn S hc M hn hcalls he' hw'
    rw [← hxl, ← hxl']
    exact S.wantsOnce x hx x' hx' id hxw hxw'
  case awaits =>
    intro e he id ha
    rcases calls_of_goesOn hcalls he with ⟨he, -⟩ | ⟨-, hphase⟩
    · intro hu
      have hle := C.later S.requests id
      rw [hu] at hle
      exact S.awaits e he id ha hle.eq_unsent
    · rw [hphase] at ha
      obtain ⟨p, q, rfl⟩ := M.awaits next hn id ha
      rw [(C.of_send S.requests).2]
      simp
  case sessions => rw [hsessions]; exact S.sessions

theorem runCall_sound (S : s.Sound) {label : String} {events : List Event}
    (h : s.runCall? label = some (t, events)) : t.Sound := by
  obtain ⟨c, move, hc, hm, hservice, hdrawn, hsessions, hcalls⟩ := runCall_some h
  obtain ⟨op, M⟩ := runCall_stepped S hc hm
  rcases hcalls with ⟨next, hn, -, hcalls⟩ | ⟨ending, he, -, hcalls⟩
  · exact goesOn_sound S hc M hn hservice hdrawn hsessions hcalls
  · refine Aside.sound (a := .run (.call label))
      ⟨⟨op, hservice ▸ M.change, fun id p q ho => ?_, fun id ho => absurd ho (M.writes id)⟩,
        fun c hc => ?_, hdrawn, ?_⟩ S
    · obtain ⟨-, _, _, hgo⟩ := M.sends id p q ho
      rw [he] at hgo
      cases hgo
    · rw [hcalls] at hc
      exact List.mem_of_mem_filter hc
    · rw [hsessions]; exact S.sessions

/-- A call that begins has a new label and brings a new identifier, if any. -/
theorem beginCall_some {label : String} {origin : Origin} {call : Call}
    (h : s.beginCall? label origin call = some t) :
    ∃ ids : List RequestId, (∀ id, Phase.wants (.begins call) id → id ∈ ids) ∧
      s.call? label = none ∧ (∀ id ∈ ids, id ∉ s.drawn) ∧
      t = { s with
        calls := s.calls ++ [⟨label, origin, .begins call⟩]
        tasks := s.tasks ++ [.call label]
        drawn := ids ++ s.drawn } := by
  unfold beginCall? at h
  dsimp only at h
  obtain ⟨hnew, h⟩ := Option.ite_none_left_eq_some.mp h
  obtain rfl := Option.some.inj h
  obtain ⟨hlabel, hids⟩ := not_or.mp hnew
  refine ⟨_, ?_, Option.not_isSome_iff_eq_none.mp hlabel, ?_, rfl⟩
  · intro id hw
    cases call with
    | pair id' => exact List.mem_singleton.mpr (Eq.symm hw)
    | _ => exact hw.elim
  · intro id hid hd
    exact hids (List.any_eq_true.mpr ⟨id, hid, decide_eq_true hd⟩)

theorem beginCall_sound (S : s.Sound) {label : String} {origin : Origin} {call : Call}
    (h : s.beginCall? label origin call = some t) : t.Sound := by
  obtain ⟨ids, hids, hlabel, hfresh, rfl⟩ := beginCall_some h
  have hnew : ∀ c ∈ s.calls, ∀ id, c.phase.wants id → ¬ Phase.wants (.begins call) id :=
    fun c hc id hw hw' => hfresh id (hids id hw') (S.wants c hc id hw).1
  constructor
  case requests => exact S.requests
  case drawn => exact fun id h => List.mem_append_right _ (S.drawn id h)
  case wants =>
    intro c hc id hw
    rcases List.mem_append.mp hc with hc | hc
    · obtain ⟨hd, hu⟩ := S.wants c hc id hw
      exact ⟨List.mem_append_right _ hd, hu⟩
    · rw [List.mem_singleton.mp hc] at hw
      refine ⟨List.mem_append_left _ (hids id hw), ?_⟩
      by_contra hne
      exact hfresh id (hids id hw) (S.drawn id hne)
  case wantsOnce =>
    intro c hc c' hc' id hw hw'
    rcases List.mem_append.mp hc with hc | hc <;> rcases List.mem_append.mp hc' with hc' | hc'
    · exact S.wantsOnce c hc c' hc' id hw hw'
    · rw [List.mem_singleton.mp hc'] at hw'
      exact absurd hw' (hnew c hc id hw)
    · rw [List.mem_singleton.mp hc] at hw
      exact absurd hw (hnew c' hc' id hw')
    · rw [List.mem_singleton.mp hc, List.mem_singleton.mp hc']
  case awaits =>
    intro c hc id ha
    rcases List.mem_append.mp hc with hc | hc
    · exact S.awaits c hc id ha
    · rw [List.mem_singleton.mp hc] at ha
      exact ha.elim
  case sessions => exact S.sessions

/-! ### All steps -/

theorem Aside.of_same (S : s.Sound) (hp : t.service.pairing = s.service.pairing)
    (hc : t.calls = s.calls) (hd : t.drawn = s.drawn) (hs : t.sessions = s.sessions) : Aside s a t :=
  .of_kept (hp ▸ .refl _) (by simp [hc]) hd (hs ▸ S.sessions)

theorem session_some {name : String} {x : Session} (h : s.session? name = some x) :
    x ∈ s.sessions := List.mem_of_find?_eq_some h

theorem openSession_aside (S : s.Sound) {name : String} {p : Principal} {connection : Connection}
    (h : s.openSession? name p connection = some t) : Aside s a t := by
  unfold openSession? at h
  obtain ⟨-, h⟩ := Option.ite_none_left_eq_some.mp h
  obtain rfl := Option.some.inj h
  refine .of_kept (.refl _) (fun _ => id) rfl fun x hx => ?_
  rcases List.mem_append.mp hx with hx | hx
  · exact S.sessions x hx
  · rw [List.mem_singleton.mp hx]; exact nofun

theorem background_aside (S : s.Sound) {b : Background} {events : List Event}
    (h : s.runTask? (.background b) = some (t, events)) : Aside s (.run (.background b)) t := by
  obtain ⟨service, hb, h⟩ := Option.map_eq_some_iff.mp h
  obtain ⟨rfl, -⟩ := Prod.mk.inj h
  cases b with
  | timer id =>
    obtain ⟨pairing, he, rfl⟩ := Option.map_eq_some_iff.mp hb
    exact ⟨⟨_, .expire he, by simp, by simp⟩, fun _ hc => hc, rfl, S.sessions⟩
  | write id =>
    obtain ⟨⟨pairing, store⟩, he, rfl⟩ := Option.map_eq_some_iff.mp hb
    exact ⟨⟨_, .write he, by simp, by simp⟩, fun _ hc => hc, rfl, S.sessions⟩

/-- A step lets a call go on or end, begins a call, or does neither. -/
theorem step_cases (S : s.Sound) {events : List Event}
    (h : s.step a = some (t, events)) :
    (∃ label, a = .run (.call label) ∧ s.runCall? label = some (t, events)) ∨
      (∃ label origin call, s.beginCall? label origin call = some t) ∨ Aside s a t := by
  cases a with
  | call label call =>
    obtain ⟨t', ht, h⟩ := Option.map_eq_some_iff.mp h
    obtain ⟨rfl, -⟩ := Prod.mk.inj h
    exact Or.inr (Or.inl ⟨_, _, _, ht⟩)
  | http label r draw =>
    simp only [step, beginHttp?] at h
    split at h
    · obtain ⟨rfl, -⟩ := Prod.mk.inj (Option.some.inj h)
      exact Or.inr (Or.inr (.of_same S rfl rfl rfl rfl))
    · obtain ⟨t', ht, h⟩ := Option.map_eq_some_iff.mp h
      obtain ⟨rfl, -⟩ := Prod.mk.inj h
      exact Or.inr (Or.inl ⟨_, _, _, ht⟩)
  | openSession name p connection =>
    obtain ⟨t', ht, h⟩ := Option.map_eq_some_iff.mp h
    obtain ⟨rfl, -⟩ := Prod.mk.inj h
    exact Or.inr (Or.inr (openSession_aside S ht))
  | handshake name r =>
    simp only [step, shake?] at h
    split at h
    · obtain ⟨rfl, -⟩ := Prod.mk.inj (Option.some.inj h)
      exact Or.inr (Or.inr (.of_same S rfl rfl rfl rfl))
    · obtain ⟨t', ht, h⟩ := Option.map_eq_some_iff.mp h
      obtain ⟨rfl, -⟩ := Prod.mk.inj h
      exact Or.inr (Or.inr (openSession_aside S ht))
  | run task =>
    cases task with
    | call label => exact Or.inl ⟨label, rfl, h⟩
    | background b => exact Or.inr (Or.inr (background_aside S h))
    | forward name =>
      obtain ⟨x, hx, h⟩ := Option.bind_eq_some_iff.mp h
      obtain ⟨r, hr, h⟩ := Option.bind_eq_some_iff.mp h
      obtain rfl := congrArg Prod.fst (Option.some.inj h)
      exact Or.inr (Or.inr (after_aside S
        (Session.forward_aside (S.sessions x (session_some hx)) hr)))
    | session name =>
      obtain ⟨x, hx, h⟩ := Option.bind_eq_some_iff.mp h
      obtain ⟨r, hr, h⟩ := Option.bind_eq_some_iff.mp h
      obtain rfl := congrArg Prod.fst (Option.some.inj h)
      exact Or.inr (Or.inr (after_aside S
        (Session.proceed_aside (S.sessions x (session_some hx)) hr)))
  | choose name choice =>
    obtain ⟨x, hx, h⟩ := Option.bind_eq_some_iff.mp h
    obtain ⟨r, hr, h⟩ := Option.bind_eq_some_iff.mp h
    obtain rfl := congrArg Prod.fst (Option.some.inj h)
    exact Or.inr (Or.inr (after_aside S
      (Session.choose_aside (S.sessions x (session_some hx)) hr)))
  | peer name event =>
    obtain ⟨x, hx, h⟩ := Option.map_eq_some_iff.mp h
    obtain ⟨rfl, -⟩ := Prod.mk.inj h
    refine Or.inr (Or.inr (.of_kept (.refl _) (fun _ => id) rfl
      (setSession_publishes S.sessions ?_)))
    exact S.sessions x (session_some hx)
  | dropCall label =>
    obtain ⟨rfl, -⟩ := Prod.mk.inj (Option.some.inj h)
    exact Or.inr (Or.inr (.of_kept (Coordinator.abandon_kept _ _)
      (fun _ hc => List.mem_of_mem_filter hc) rfl S.sessions))
  | dropSession name =>
    obtain ⟨x, hx, h⟩ := Option.map_eq_some_iff.mp h
    obtain ⟨rfl, -⟩ := Prod.mk.inj h
    have A := Session.drop_aside (s := s.service) (S.sessions x (session_some hx))
    exact Or.inr (Or.inr (.of_kept A.pairing (fun _ => id) rfl
      (setSession_publishes S.sessions A.publishes)))
  | shutDown =>
    obtain ⟨rfl, -⟩ := Prod.mk.inj (Option.some.inj h)
    exact Or.inr (Or.inr ⟨⟨_, .shutDown, by simp, by simp⟩, fun _ => id, rfl, S.sessions⟩)
  | setStore delay fault =>
    obtain ⟨rfl, -⟩ := Prod.mk.inj (Option.some.inj h)
    exact Or.inr (Or.inr (.of_same S rfl rfl rfl rfl))
  | setQueues fault | refill common own =>
    obtain ⟨rfl, -⟩ := Prod.mk.inj (Option.some.inj h)
    exact Or.inr (Or.inr (.of_same S rfl rfl rfl rfl))
  | link user device =>
    simp only [step] at h
    split at h <;> obtain ⟨rfl, -⟩ := Prod.mk.inj (Option.some.inj h) <;>
      exact Or.inr (Or.inr (.of_same S rfl rfl rfl rfl))
  | pushRaw recipient bytes =>
    obtain ⟨rfl, -⟩ := Prod.mk.inj (Option.some.inj h)
    exact Or.inr (Or.inr (.of_same S rfl rfl rfl rfl))
  | tick moment =>
    simp only [step] at h
    split at h
    · obtain ⟨rfl, -⟩ := Prod.mk.inj (Option.some.inj h)
      exact Or.inr (Or.inr (.of_same S rfl rfl rfl rfl))
    · cases h

/-- **A step of a server does one operation on the requests, or none.** A recording ends
in a step of its own. -/
theorem change_of_step (S : s.Sound) {events : List Event} (h : s.step a = some (t, events)) :
    ∃ op, Change s.service.clock s.service.store s.service.pairing op t.service.store
      t.service.pairing ∧ ∀ id, op = some (.write id) → a = .run (.background (.write id)) := by
  rcases step_cases S h with ⟨label, -, h⟩ | ⟨label, origin, call, h⟩ | A
  · obtain ⟨c, move, hc, hm, hservice, -⟩ := runCall_some h
    obtain ⟨op, M⟩ := runCall_stepped S hc hm
    exact ⟨op, hservice ▸ M.change, fun id ho => absurd ho (M.writes id)⟩
  · obtain ⟨_, -, -, -, rfl⟩ := beginCall_some h
    exact ⟨none, .keep (.refl _), by simp⟩
  · obtain ⟨op, C, -, hop⟩ := A.change
    exact ⟨op, C, hop⟩

/-- **Every step keeps a server sound.** -/
theorem sound_of_step (S : s.Sound) {events : List Event} (h : s.step a = some (t, events)) :
    t.Sound := by
  rcases step_cases S h with ⟨label, -, h⟩ | ⟨label, origin, call, h⟩ | A
  · exact runCall_sound S h
  · exact beginCall_sound S h
  · exact A.sound S

/-! ### Runs -/

theorem ofConfig_ok {config : Config} {epoch : Int} (h : ofConfig config epoch = .ok s) :
    s.service.pairing = { ttl := config.pairing.requestTtl * 1000 } ∧ s.calls = [] ∧
      s.sessions = [] := by
  unfold ofConfig at h
  split at h
  · cases h
  · unfold Service.ofConfig at h
    split at h
    · cases h
    · simp only [Except.map, Except.ok.injEq] at h
      subst h
      exact ⟨rfl, rfl, rfl⟩

theorem ofConfig_unsent {config : Config} {epoch : Int} (h : ofConfig config epoch = .ok s)
    (id : RequestId) : s.service.pairing.stage id = .unsent := by
  rw [(ofConfig_ok h).1]
  exact (Coordinator.new_sound _).2 id

theorem ofConfig_sound {config : Config} {epoch : Int} (h : ofConfig config epoch = .ok s) :
    s.Sound := by
  obtain ⟨hp, hc, hs⟩ := ofConfig_ok h
  have hunsent := ofConfig_unsent h
  refine ⟨?_, fun id hne => absurd (hunsent id) hne, ?_, ?_, ?_, ?_⟩
  · rw [hp]; exact (Coordinator.new_sound _).1
  all_goals simp [hc, hs]

theorem sound_of_history {steps : List Step}
    (h : machine.History s t steps) (S : s.Sound) : t.Sound :=
  h.invariant S fun _ _ _ _ S h => sound_of_step S h

/-- Along a run no request goes back. -/
theorem later_of_history {steps : List Step}
    (h : machine.History s t steps) (S : s.Sound) : s.service.pairing.Later t.service.pairing := by
  induction h with
  | start => exact .refl _
  | step hs hstep ih =>
    have S' := sound_of_history hs S
    obtain ⟨op, C, -⟩ := change_of_step S' hstep
    exact ih.trans (C.later S'.requests)

end Server
end DeviceRelay

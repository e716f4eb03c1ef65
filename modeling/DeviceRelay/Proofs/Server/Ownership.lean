/-
# A device comes by an owner and loses it in steps that show why

The owner of a device changes in steps of three kinds only. The recording of an accepted
pairing ends and the store records it, a pairing is made by other means, or a call that was
allowed to removes the pairing of the device. What is being recorded was claimed by a call of
the device itself. So the owner of a device in any state of a run goes back to the step in
which it came by it, and nobody removed the pairing since.

Key definitions: `Server.owner?`, `Server.Accepts`, `Server.Ends`, `Server.Pairs`,
`Server.Unpairs`, `Server.PairingTurn`, `Server.OwnerTurn`.
Key theorems: `Server.pairingTurn_of_step`, `Server.ownerTurn_of_step`,
`Server.paired_of_history`, `Server.paired_between`, `Server.unpaired_between`,
`Server.sent_before`, `Server.accepted_before`, `Server.stands_since`.
-/
import DeviceRelay.Proofs.Pairing.Histories
import DeviceRelay.Proofs.Server.Phases

namespace DeviceRelay

/-- Whether an action makes a pairing by other means than a request. -/
def Action.isLink : Action → Bool
  | .link _ _ => true
  | _ => false

namespace Server

/-- The owner of a device, as the store has it. -/
def owner? (s : Server) (device : PrincipalId) : Option PrincipalId := s.service.store.owner? device

/-- A call of a device accepts a live request that names it: the request is claimed. -/
structure Accepts (label : String) (device : Principal) (request : PairingRequest) (z : Step) :
    Prop where
  asked : z.action = .run (.call label)
  phase : z.before.phaseOf? (.call label) = some (.begins (.respond device request.id true))
  live : z.before.service.pairing.get request.id = .ok request
  own : request.target.id = device.id
  claimed : ∃ due, z.after.service.pairing.writes =
    z.before.service.pairing.writes ++ [⟨request, due, none⟩]

/-- A call sends a request. -/
structure Sends (label : String) (request : PairingRequest) (z : Step) : Prop where
  asked : z.action = .run (.call label)
  phase : z.before.phaseOf? (.call label) =
    some (.sends request.id request.requester request.target)
  sent : z.before.service.pairing.send z.before.service.clock request.id request.requester
    request.target = .ok (z.after.service.pairing, request)

/-- The recording of a claimed request ends in a step, as the store answers. -/
structure Ends (request : PairingRequest) (r : Recording) (z : Step) : Prop where
  asked : z.action = .run (.background (.write request.id))
  begun : ∃ w ∈ z.before.service.pairing.writes, w.request = request ∧ w.recording = none
  answers : PairingStore.Answers z.before.service.store request.requester.id request.target.id
    z.after.service.store r
  noted : ∃ w ∈ z.after.service.pairing.writes, w.request = request ∧ w.recording = some r

/-- A device comes to be owned by a user in a step. -/
inductive Pairs (user device : PrincipalId) (z : Step) : Prop where
  | recorded (request : PairingRequest) (ends : Ends request .recorded z)
    (asker : request.requester.id = user) (asked : request.target.id = device)
  | linked (asked : z.action = .link user device) (free : z.before.owner? device = none)
    (owned : z.after.owner? device = some user)

/-- A call removes the pairing of a device with its owner. -/
structure Unpairs (label : String) (owner device : PrincipalId) (z : Step) : Prop where
  asked : z.action = .run (.call label)
  phase : z.before.phaseOf? (.call label) = some (.removes device)
  owned : z.before.owner? device = some owner
  freed : z.after.owner? device = none

/-- What a step does to the pairings and to what is being recorded. -/
inductive PairingTurn (z : Step) : Prop where
  | rests (edges : z.after.service.store.edges = z.before.service.store.edges)
    (writes : z.after.service.pairing.writes = z.before.service.pairing.writes)
  | accepts (label : String) (device : Principal) (request : PairingRequest)
    (accepts : Accepts label device request z)
    (store : z.after.service.store = z.before.service.store)
  | removes (label : String) (device : PrincipalId) (asked : z.action = .run (.call label))
    (phase : z.before.phaseOf? (.call label) = some (.removes device))
    (store : z.after.service.store = (z.before.service.store.remove device).1)
    (writes : z.after.service.pairing.writes = z.before.service.pairing.writes)
  | ends (request : PairingRequest) (r : Recording) (ends : Ends request r z)
    (writes : z.after.service.pairing.writes = z.before.service.pairing.writes.map fun w =>
      if w.request.id = request.id then { w with recording := some r } else w)
  | links (user device : PrincipalId) (asked : z.action = .link user device)
    (free : z.before.owner? device = none)
    (owners : ∀ d, z.after.owner? d = if d = device then some user else z.before.owner? d)
    (writes : z.after.service.pairing.writes = z.before.service.pairing.writes)

variable {s t : Server} {a : Action} {events : List Event} {z : Step}

/-! ### All steps -/

theorem pairingTurn_of_session {r : Service × Session} (A : Session.Aside s.service r)
    (service : t.service = r.1) : PairingTurn ⟨s, a, t, events⟩ := by
  refine .rests ?_ ?_
  · rw [service, A.store]
  · rw [service]
    exact A.pairing.writes

theorem pairingTurn_of_beginCall {label : String} {origin : Origin} {call : Call}
    (h : s.beginCall? label origin call = some t) : PairingTurn ⟨s, a, t, events⟩ := by
  obtain ⟨_, -, -, -, rfl⟩ := beginCall_some h
  exact .rests rfl rfl

theorem pairingTurn_of_openSession {name : String} {p : Principal} {connection : Connection}
    (h : s.openSession? name p connection = some t) : PairingTurn ⟨s, a, t, events⟩ := by
  unfold openSession? at h
  obtain ⟨-, h⟩ := Option.ite_none_left_eq_some.mp h
  obtain rfl := Option.some.inj h
  exact .rests rfl rfl

theorem pairingTurn_of_background (S : s.Sound) {b : Background}
    (h : s.runTask? (.background b) = some (t, events)) :
    PairingTurn ⟨s, .run (.background b), t, events⟩ := by
  obtain ⟨service, hb, h⟩ := Option.map_eq_some_iff.mp h
  obtain ⟨rfl, rfl⟩ := Prod.mk.inj h
  cases b with
  | timer id =>
    obtain ⟨pairing, hexpire, rfl⟩ := Option.map_eq_some_iff.mp hb
    obtain ⟨-, _, hreject⟩ := Coordinator.expire_some S.requests hexpire
    refine .rests rfl ?_
    rw [(Coordinator.reject_ok hreject).2]
    rfl
  | write id =>
    obtain ⟨⟨pairing, store⟩, hwrite, rfl⟩ := Option.map_eq_some_iff.mp hb
    obtain ⟨w, hw, rfl, hbegun, r, hrecord, rfl⟩ := Coordinator.endWrite_some hwrite
    refine .ends w.request r ⟨rfl, ⟨w, hw, rfl, hbegun⟩, PairingStore.answers_record hrecord,
      { w with recording := some r }, ?_, rfl, rfl⟩ rfl
    exact List.mem_map.mpr ⟨w, hw, if_pos rfl⟩

theorem get_ok {c : Coordinator Party} {id : RequestId} {request : PairingRequest} (S : c.Sound)
    (h : c.get id = .ok request) : request.id = id ∧ (id, request) ∈ c.live.registry.values := by
  unfold Coordinator.get at h
  split at h
  · rename_i hget
    obtain rfl := Except.ok.inj h
    have hmem := Keyed.mem_of_lookup hget
    exact ⟨S.own _ hmem, hmem⟩
  · cases h

/-- A call claims a request or removes a pairing, or leaves the pairings alone. -/
theorem pairingTurn_of_runCall (S : s.Sound) {label : String}
    (h : s.runCall? label = some (t, events)) :
    PairingTurn ⟨s, .run (.call label), t, events⟩ := by
  obtain ⟨c, move, hc, hmove, hservice, -⟩ := runCall_some h
  have hphase : s.phaseOf? (.call label) = some c.phase := by rw [phaseOf?_call, hc]; rfl
  have steady (h : Service.Steady s.service move) :
      PairingTurn ⟨s, .run (.call label), t, events⟩ :=
    .rests (by rw [hservice, h.store]) (by rw [hservice, h.writes])
  have hpasses : Service.Passes s.service move c.phase := Service.passes_of_step? hmove
  generalize c.phase = phase at hpasses hphase
  cases hpasses with
  | rests _ h => exact steady h.toSteady
  | asks _ _ _ _ _ _ h | mayRemove _ _ _ _ _ h | toItself _ _ _ _ h | learns _ _ _ h
  | connects _ _ _ h => exact steady h
  | removes device store writes =>
    exact .removes label device rfl hphase (by rw [hservice, store]) (by rw [hservice, writes])
  | claims device id request live own due store writes =>
    obtain ⟨rfl, -⟩ := get_ok S.requests live
    refine .accepts label device request ⟨rfl, hphase, live, own, due, ?_⟩ (by rw [hservice, store])
    rw [hservice, writes]

/-- **What any step does to the pairings.** -/
theorem pairingTurn_of_step (S : s.Sound) (h : s.step a = some (t, events)) :
    PairingTurn ⟨s, a, t, events⟩ := by
  cases a with
  | call label call =>
    obtain ⟨t', ht, h⟩ := Option.map_eq_some_iff.mp h
    obtain ⟨rfl, -⟩ := Prod.mk.inj h
    exact pairingTurn_of_beginCall ht
  | http label r draw =>
    simp only [step, beginHttp?] at h
    split at h
    · obtain ⟨rfl, -⟩ := Prod.mk.inj (Option.some.inj h)
      exact .rests rfl rfl
    · obtain ⟨t', ht, h⟩ := Option.map_eq_some_iff.mp h
      obtain ⟨rfl, -⟩ := Prod.mk.inj h
      exact pairingTurn_of_beginCall ht
  | openSession name p connection =>
    obtain ⟨t', ht, h⟩ := Option.map_eq_some_iff.mp h
    obtain ⟨rfl, -⟩ := Prod.mk.inj h
    exact pairingTurn_of_openSession ht
  | handshake name r =>
    simp only [step, shake?] at h
    split at h
    · obtain ⟨rfl, -⟩ := Prod.mk.inj (Option.some.inj h)
      exact .rests rfl rfl
    · obtain ⟨t', ht, h⟩ := Option.map_eq_some_iff.mp h
      obtain ⟨rfl, -⟩ := Prod.mk.inj h
      exact pairingTurn_of_openSession ht
  | run task =>
    cases task with
    | call label => exact pairingTurn_of_runCall S h
    | background b => exact pairingTurn_of_background S h
    | forward name =>
      obtain ⟨x, hx, h⟩ := Option.bind_eq_some_iff.mp h
      obtain ⟨r, hr, h⟩ := Option.bind_eq_some_iff.mp h
      obtain rfl := congrArg Prod.fst (Option.some.inj h)
      exact pairingTurn_of_session (Session.forward_aside (S.sessions x (session_some hx)) hr)
        (service_after s r)
    | session name =>
      obtain ⟨x, hx, h⟩ := Option.bind_eq_some_iff.mp h
      obtain ⟨r, hr, h⟩ := Option.bind_eq_some_iff.mp h
      obtain rfl := congrArg Prod.fst (Option.some.inj h)
      exact pairingTurn_of_session (Session.proceed_aside (S.sessions x (session_some hx)) hr)
        (service_after s r)
  | choose name choice =>
    obtain ⟨x, hx, h⟩ := Option.bind_eq_some_iff.mp h
    obtain ⟨r, hr, h⟩ := Option.bind_eq_some_iff.mp h
    obtain rfl := congrArg Prod.fst (Option.some.inj h)
    exact pairingTurn_of_session (Session.choose_aside (S.sessions x (session_some hx)) hr)
      (service_after s r)
  | peer name event =>
    obtain ⟨x, hx, h⟩ := Option.map_eq_some_iff.mp h
    obtain ⟨rfl, -⟩ := Prod.mk.inj h
    exact .rests rfl rfl
  | dropCall label =>
    obtain ⟨rfl, -⟩ := Prod.mk.inj (Option.some.inj h)
    exact .rests rfl (Coordinator.abandon_kept _ _).writes
  | dropSession name =>
    obtain ⟨x, hx, h⟩ := Option.map_eq_some_iff.mp h
    obtain ⟨rfl, -⟩ := Prod.mk.inj h
    exact pairingTurn_of_session (Session.drop_aside (S.sessions x (session_some hx))) rfl
  | shutDown =>
    obtain ⟨rfl, -⟩ := Prod.mk.inj (Option.some.inj h)
    exact .rests rfl (Coordinator.shutDown_eq _).2.2.1
  | setStore delay fault | setQueues fault | pushRaw recipient bytes | refill common own =>
    obtain ⟨rfl, -⟩ := Prod.mk.inj (Option.some.inj h)
    exact .rests rfl rfl
  | link user device =>
    simp only [step] at h
    split at h <;> rename_i hcreate <;> obtain ⟨rfl, -⟩ := Prod.mk.inj (Option.some.inj h)
    · obtain ⟨hfree, howners⟩ := Edges.owner?_create hcreate
      exact .links user device rfl hfree howners rfl
    · exact .rests rfl rfl
  | tick moment =>
    simp only [step] at h
    split at h
    · obtain ⟨rfl, -⟩ := Prod.mk.inj (Option.some.inj h)
      exact .rests rfl rfl
    · cases h

/-! ### What is being recorded -/

/-- The recording of a request is claimed or ends in a step, or it was there before. -/
theorem PairingTurn.write (T : PairingTurn z) (S : z.before.Sound) {w : EdgeWrite}
    (hw : w ∈ z.after.service.pairing.writes) : w ∈ z.before.service.pairing.writes ∨
      (∃ label device, Accepts label device w.request z ∧ w.recording = none) ∨
      ∃ r, w.recording = some r ∧ Ends w.request r z := by
  cases T with
  | rests _ writes | removes _ _ _ _ _ writes | links _ _ _ _ _ writes => exact .inl (writes ▸ hw)
  | accepts label device request accepts =>
    obtain ⟨due, hclaimed⟩ := accepts.claimed
    rw [hclaimed] at hw
    rcases List.mem_append.mp hw with hw | hw
    · exact .inl hw
    · obtain rfl := List.mem_singleton.mp hw
      exact .inr (.inl ⟨label, device, accepts, rfl⟩)
  | ends request r ends writes =>
    obtain ⟨v, hv, rfl, hbegun⟩ := ends.begun
    rw [writes] at hw
    obtain ⟨u, hu, rfl⟩ := List.mem_map.mp hw
    by_cases hid : u.request.id = v.request.id
    · obtain rfl : u = v := List.inj_on_of_nodup_map S.requests.writesNodup hu hv hid
      rw [if_pos rfl]
      exact .inr (.inr ⟨r, rfl, ends⟩)
    · rw [if_neg hid]
      exact .inl hu

/-- What is recorded or was stays noted, and how it ended does not change. -/
theorem PairingTurn.noted (T : PairingTurn z) (S : z.before.Sound) {w : EdgeWrite}
    (hw : w ∈ z.before.service.pairing.writes) : ∃ v ∈ z.after.service.pairing.writes,
      v.request = w.request ∧ (w.recording ≠ none → v = w) := by
  cases T with
  | rests _ writes | removes _ _ _ _ _ writes | links _ _ _ _ _ writes =>
    exact ⟨w, writes ▸ hw, rfl, fun _ => rfl⟩
  | accepts _ _ _ accepts =>
    obtain ⟨due, hclaimed⟩ := accepts.claimed
    exact ⟨w, hclaimed ▸ List.mem_append_left _ hw, rfl, fun _ => rfl⟩
  | ends request r ends writes =>
    obtain ⟨v, hv, rfl, hbegun⟩ := ends.begun
    by_cases hid : w.request.id = v.request.id
    · obtain rfl : w = v := List.inj_on_of_nodup_map S.requests.writesNodup hw hv hid
      refine ⟨{ w with recording := some r }, ?_, rfl, fun hne => absurd hbegun hne⟩
      rw [writes]
      exact List.mem_map.mpr ⟨w, hw, if_pos rfl⟩
    · refine ⟨w, ?_, rfl, fun _ => rfl⟩
      rw [writes]
      exact List.mem_map.mpr ⟨w, hw, if_neg hid⟩

/-- A request that is live or was accepted after a step is sent in it, or was there before. -/
theorem sends_of_step (S : s.Sound) (h : s.step a = some (t, events)) {request : PairingRequest}
    (hr : request ∈ t.service.pairing.requests) : request ∈ s.service.pairing.requests ∨
      ∃ label, Sends label request ⟨s, a, t, events⟩ := by
  rcases step_cases S h with ⟨label, rfl, h⟩ | ⟨label, origin, call, h⟩ | A
  · obtain ⟨c, move, hc, hmove, hservice, -⟩ := runCall_some h
    obtain ⟨op, M⟩ := runCall_stepped S hc hmove
    rw [hservice] at hr
    refine (M.change.requests S.requests hr).imp_right fun ⟨hop, hsend⟩ => ?_
    obtain ⟨hphase, -⟩ := M.sends _ _ _ hop
    refine ⟨label, rfl, ?_, ?_⟩
    · rw [phaseOf?_call, hc, ← hphase]
      rfl
    · rw [hservice]
      exact hsend
  · obtain ⟨_, -, -, -, rfl⟩ := beginCall_some h
    exact .inl hr
  · obtain ⟨op, C, hop, -⟩ := A.change
    exact .inl ((C.requests S.requests hr).resolve_right fun hsent => hop _ _ _ hsent.1)

/-- A call that fails without a change changes nothing of the service. -/
theorem step_of_fail {label : String} {c : Running} (hc : s.call? label = some c) {e : Error}
    (hfails : s.service.step? (.call label) c.phase = some (s.service.fail e)) :
    ∃ t, s.step (.run (.call label)) = some (t, [endEvent label (.failed e) c.origin]) ∧
      t.service = s.service := by
  have hrun : s.step (.run (.call label)) = s.runCall? label := rfl
  unfold runCall? at hrun
  rw [hrun, hc]
  simp only [Option.bind_eq_bind, Option.bind_some, hfails]
  exact ⟨_, rfl, rfl⟩

/-! ### The owner of a device -/

/-- What a step does to the owner of a device. -/
inductive OwnerTurn (device : PrincipalId) (z : Step) : Prop where
  | rests (same : z.after.owner? device = z.before.owner? device)
  | gains (user : PrincipalId) (pairs : Pairs user device z)
  | loses (label : String) (owner : PrincipalId) (unpairs : Unpairs label owner device z)

theorem Pairs.owner? {user device : PrincipalId} (h : Pairs user device z) :
    z.before.owner? device = none ∧ z.after.owner? device = some user := by
  cases h with
  | recorded request ends asker asked =>
    generalize hr : Recording.recorded = r at ends
    have answers := ends.answers
    subst asker asked
    unfold Server.owner?
    generalize z.after.service.store = store at answers
    cases answers with
    | recorded edges _ free owners => exact ⟨free, (owners _).trans (if_pos rfl)⟩
    | taken | failed | broken => cases hr
  | linked _ free owned => exact ⟨free, owned⟩

/-- **The owner of a device changes only as it is paired or unpaired.** -/
theorem PairingTurn.owner (T : PairingTurn z) (device : PrincipalId) : OwnerTurn device z := by
  have kept (store : z.after.service.store = z.before.service.store) : OwnerTurn device z :=
    .rests (by rw [Server.owner?, store]; rfl)
  cases T with
  | rests edges =>
    refine .rests ?_
    rw [Server.owner?, PairingStore.owner?, edges]
    rfl
  | accepts _ _ _ _ store => exact kept store
  | removes label other asked phase store =>
    have howner : z.after.owner? device = (z.before.service.store.remove other).1.owner? device := by
      rw [Server.owner?, store]
    rcases PairingStore.owner?_remove z.before.service.store other device with hsame | ⟨rfl, hfreed⟩
    · exact .rests (howner.trans hsame)
    · rw [hfreed] at howner
      cases howned : z.before.owner? device with
      | none => exact .rests (howner.trans howned.symm)
      | some owner => exact .loses label owner ⟨asked, phase, howned, howner⟩
  | links user other asked free owners =>
    by_cases hd : device = other
    · subst hd
      exact .gains user (.linked asked free ((owners device).trans (if_pos rfl)))
    · exact .rests ((owners device).trans (if_neg hd))
  | ends request r ends =>
    by_cases hd : device = request.target.id ∧ r = .recorded
    · obtain ⟨rfl, rfl⟩ := hd
      exact .gains request.requester.id (.recorded request ends rfl rfl)
    · exact .rests (ends.answers.owner? device fun hdevice hr => hd ⟨hdevice, hr⟩)

theorem ownerTurn_of_step (S : s.Sound) (h : s.step a = some (t, events)) (device : PrincipalId) :
    OwnerTurn device ⟨s, a, t, events⟩ := (pairingTurn_of_step S h).owner device

theorem OwnerTurn.keeps {device user : PrincipalId} (T : OwnerTurn device z)
    (h : z.before.owner? device = some user) (hkept : ∀ label, ¬ Unpairs label user device z) :
    z.after.owner? device = some user := by
  cases T with
  | rests same => exact same.trans h
  | gains _ pairs =>
    have hfree := pairs.owner?.1
    rw [h] at hfree
    cases hfree
  | loses label owner unpairs =>
    obtain rfl : owner = user := Option.some.inj (unpairs.owned.symm.trans h)
    exact absurd unpairs (hkept label)

/-- What no step pairs with a user is not owned by this user. -/
theorem OwnerTurn.keeps_ne {device user : PrincipalId} (T : OwnerTurn device z)
    (h : z.before.owner? device ≠ some user) (hunpaired : ¬ Pairs user device z) :
    z.after.owner? device ≠ some user := by
  intro howned
  cases T with
  | rests same => exact h (same.symm.trans howned)
  | gains other pairs =>
    obtain rfl : other = user := Option.some.inj (pairs.owner?.2.symm.trans howned)
    exact hunpaired pairs
  | loses _ _ unpairs =>
    rw [unpairs.freed] at howned
    cases howned

/-- A step of a call that takes the owner of a device away unpairs the device. -/
theorem OwnerTurn.unpairs {device owner : PrincipalId} {label : String} (T : OwnerTurn device z)
    (asked : z.action = .run (.call label)) (howned : z.before.owner? device = some owner)
    (hfreed : z.after.owner? device = none) : Unpairs label owner device z := by
  cases T with
  | rests same =>
    rw [howned, hfreed] at same
    cases same
  | gains user pairs =>
    have hgained := pairs.owner?.2
    rw [hfreed] at hgained
    cases hgained
  | loses other owner' unpairs =>
    obtain rfl : other = label := by simpa [asked, eq_comm] using unpairs.asked
    obtain rfl := Option.some.inj (unpairs.owned.symm.trans howned)
    exact unpairs

/-- A step that pairs a device with a user unpairs nothing. -/
theorem Pairs.not_unpairs {user device owner other : PrincipalId} (h : Pairs user device z)
    (label : String) : ¬ Unpairs label owner other z := by
  intro unpairs
  cases h with
  | recorded _ ends => cases unpairs.asked.symm.trans ends.asked
  | linked asked => cases unpairs.asked.symm.trans asked

/-- A party that goes on from a phase in which it removes nothing leaves the owners alone. -/
theorem OwnerTurn.same_of_phase {device : PrincipalId} {task : Task} {phase : Phase}
    (T : OwnerTurn device z) (asked : z.action = .run task)
    (hphase : z.before.phaseOf? task = some phase) (hother : phase ≠ .removes device) :
    z.after.owner? device = z.before.owner? device := by
  cases T with
  | rests same => exact same
  | gains _ pairs =>
    cases pairs with
    | recorded _ ends =>
      obtain rfl := Action.run.inj (asked.symm.trans ends.asked)
      cases hphase
    | linked linked => cases asked.symm.trans linked
  | loses _ _ unpairs =>
    obtain rfl := Action.run.inj (asked.symm.trans unpairs.asked)
    exact absurd (Option.some.inj (hphase.symm.trans unpairs.phase)) hother

/-! ### Runs -/

section Runs

variable {start : Server} {steps : List Step}

/-- Without other means a device comes by its owner as a request is recorded. -/
theorem Pairs.request {user device : PrincipalId} (h : Pairs user device z)
    (hlink : z.action.isLink = false) : ∃ request, Ends request .recorded z ∧
      request.requester.id = user ∧ request.target.id = device := by
  cases h with
  | recorded request ends asker asked => exact ⟨request, ends, asker, asked⟩
  | linked asked =>
    rw [asked] at hlink
    cases hlink

theorem sound_before (h : machine.History start s steps) (S : start.Sound) {i : Nat}
    (hi : steps[i]? = some z) : z.before.Sound := sound_of_history (h.take hi).1 S

theorem ownerTurn_of_history (h : machine.History start s steps) (S : start.Sound) {i : Nat}
    (hi : steps[i]? = some z) (device : PrincipalId) : OwnerTurn device z :=
  ownerTurn_of_step (sound_before h S hi) (h.take hi).2 device

theorem pairingTurn_of_history (h : machine.History start s steps) (S : start.Sound) {i : Nat}
    (hi : steps[i]? = some z) : PairingTurn z :=
  pairingTurn_of_step (sound_before h S hi) (h.take hi).2

/-- **Whoever owns a device was paired with it in a step of the run**, and no call removed the
pairing since. -/
theorem paired_of_history (h : machine.History start s steps) (S : start.Sound)
    {user device : PrincipalId} (hstart : start.owner? device = none)
    (hs : s.owner? device = some user) : ∃ (k : Nat) (z : Step), steps[k]? = some z ∧
      Pairs user device z ∧ ∀ (m : Nat) x label owner, k < m → steps[m]? = some x →
        ¬ Unpairs label owner device x := by
  obtain ⟨k, z, hk, hbefore, hafter, hsince⟩ :=
    h.origin (P := fun t => t.owner? device = some user) hs (by rw [hstart]; simp)
  refine ⟨k, z, hk, ?_, fun m x label owner hkm hm unpairs => ?_⟩
  · by_contra hunpaired
    exact (ownerTurn_of_history h S hk device).keeps_ne hbefore hunpaired hafter
  · have howned := (hsince m x hkm hm).2
    rw [unpairs.freed] at howned
    cases howned

/-- Who owned a device and owns it no longer was unpaired from it in between. -/
theorem unpaired_between (h : machine.History start s steps) (S : start.Sound) {i j : Nat}
    {y x : Step} (hij : i < j) (hi : steps[i]? = some y) (hj : steps[j]? = some x)
    {user device : PrincipalId} (hfrom : y.after.owner? device = some user)
    (hto : x.before.owner? device ≠ some user) :
    ∃ n z label, i < n ∧ n < j ∧ steps[n]? = some z ∧ Unpairs label user device z := by
  by_contra hnone
  refine hto (h.between hij hi hj (P := fun t => t.owner? device = some user) hfrom ?_)
  intro n z hin hnj hn howned
  apply (ownerTurn_of_history h S hn device).keeps howned
  exact fun label unpairs => hnone ⟨n, z, label, hin, hnj, hn, unpairs⟩

/-- Who did not own a device and owns it now was paired with it in between. -/
theorem paired_between (h : machine.History start s steps) (S : start.Sound) {i j : Nat}
    {y x : Step} (hij : i < j) (hi : steps[i]? = some y) (hj : steps[j]? = some x)
    {user device : PrincipalId} (hfrom : y.after.owner? device ≠ some user)
    (hto : x.before.owner? device = some user) :
    ∃ n z, i < n ∧ n < j ∧ steps[n]? = some z ∧ Pairs user device z := by
  by_contra hnone
  refine h.between hij hi hj (P := fun t => t.owner? device ≠ some user) hfrom ?_ hto
  intro n z hin hnj hn howned
  apply (ownerTurn_of_history h S hn device).keeps_ne howned
  exact fun pairs => hnone ⟨n, z, hin, hnj, hn, pairs⟩

/-- **What is live or being recorded was sent** in an earlier step. -/
theorem sent_before (h : machine.History start s steps) (S : start.Sound)
    (hstart : start.service.pairing.requests = []) {k : Nat} {x : Step} (hk : steps[k]? = some x)
    {request : PairingRequest} (hr : request ∈ x.before.service.pairing.requests) :
    ∃ (i : Nat) (z : Step) (label : String), i < k ∧ steps[i]? = some z ∧ Sends label request z := by
  obtain ⟨i, z, hik, hi, hbefore, hafter⟩ := h.origin_before
    (P := fun t => request ∈ t.service.pairing.requests) hk hr (by simp [hstart])
  have hsends := sends_of_step (sound_before h S hi) (h.take hi).2 hafter
  obtain ⟨label, sends⟩ := hsends.resolve_left hbefore
  exact ⟨i, z, label, hik, hi, sends⟩

/-- **What is being recorded, or was, a call of its device accepted** in an earlier step. -/
theorem accepted_before (h : machine.History start s steps) (S : start.Sound)
    (hstart : start.service.pairing.requests = []) {k : Nat} {x : Step} (hk : steps[k]? = some x)
    {w : EdgeWrite} (hw : w ∈ x.before.service.pairing.writes) : ∃ (j : Nat) (z : Step) (label : String)
      (device : Principal), j < k ∧ steps[j]? = some z ∧ Accepts label device w.request z := by
  have hnone : start.service.pairing.writes = [] :=
    List.map_eq_nil_iff.mp (List.append_eq_nil_iff.mp hstart).2
  obtain ⟨j, z, hjk, hj, hbefore, v, hv, hrequest⟩ := h.origin_before
    (P := fun t => ∃ v ∈ t.service.pairing.writes, v.request = w.request) hk ⟨w, hw, rfl⟩
    (by simp [hnone])
  have T := pairingTurn_of_history h S hj
  rcases T.write (sound_before h S hj) hv with hv | ⟨label, device, accepts, -⟩ | ⟨_, -, ends⟩
  · exact absurd ⟨v, hv, hrequest⟩ hbefore
  · exact ⟨j, z, label, device, hjk, hj, hrequest ▸ accepts⟩
  · obtain ⟨u, hu, hsame, -⟩ := ends.begun
    exact absurd ⟨u, hu, hsame.trans hrequest⟩ hbefore

/-- How the recording of a request stands that was claimed in the step `j` of a run: it goes on,
or it ended in a later step. -/
def Stands (steps : List Step) (j : Nat) (request : PairingRequest) (s : Server) : Prop :=
  ∃ w ∈ s.service.pairing.writes, w.request = request ∧
    (w.recording = none ∨ ∃ (k : Nat) (x : Step) (r : Recording), j < k ∧ steps[k]? = some x ∧
      w.recording = some r ∧ Ends request r x)

/-- **Whatever was claimed is being recorded, or its recording ended in a later step.** -/
theorem stands_since (h : machine.History start s steps) (S : start.Sound) {j : Nat} {z : Step}
    (hj : steps[j]? = some z) {label : String} {device : Principal} {request : PairingRequest}
    (accepts : Accepts label device request z) : Stands steps j request s := by
  refine h.since hj (P := Stands steps j request) ?_ fun n x hjn hn hx => ?_
  · obtain ⟨due, hclaimed⟩ := accepts.claimed
    refine ⟨⟨request, due, none⟩, ?_, rfl, .inl rfl⟩
    rw [hclaimed]
    exact List.mem_append_right _ (List.mem_singleton.mpr rfl)
  · obtain ⟨w, hw, hrequest, hstands⟩ := hx
    have Sx := sound_before h S hn
    have T := pairingTurn_of_history h S hn
    obtain ⟨v, hv, hsame, hkept⟩ := T.noted Sx hw
    refine ⟨v, hv, hsame.trans hrequest, ?_⟩
    rcases hstands with hgoes | ⟨k, y, r, hjk, hk, hr, ends⟩
    · rcases T.write Sx hv with hold | ⟨_, _, -, hnone⟩ | ⟨r, hr, ends⟩
      · obtain rfl : v = w :=
          List.inj_on_of_nodup_map Sx.requests.writesNodup hold hw (by rw [hsame])
        exact .inl hgoes
      · exact .inl hnone
      · exact .inr ⟨n, x, r, hjn, hn, hr, (hsame.trans hrequest) ▸ ends⟩
    · obtain rfl := hkept (by simp [hr])
      exact .inr ⟨k, y, r, hjk, hk, hr, ends⟩

theorem noted_since (h : machine.History start s steps) (S : start.Sound) {k : Nat} {z : Step}
    (hk : steps[k]? = some z) {request : PairingRequest} {r : Recording} (ends : Ends request r z) :
    ∃ w ∈ s.service.pairing.writes, w.request = request ∧ w.recording = some r := by
  refine h.since hk (P := fun t => ∃ w ∈ t.service.pairing.writes,
    w.request = request ∧ w.recording = some r) ends.noted fun n x _ hn hx => ?_
  obtain ⟨w, hw, hrequest, hr⟩ := hx
  obtain ⟨v, hv, -, hkept⟩ := (pairingTurn_of_history h S hn).noted (sound_before h S hn) hw
  obtain rfl := hkept (by simp [hr])
  exact ⟨v, hv, hrequest, hr⟩

theorem Ends.ne_of_lt (h : machine.History start s steps) (S : start.Sound) {n k : Nat} {y x : Step}
    (hlt : n < k) (hn : steps[n]? = some y) (hk : steps[k]? = some x)
    {earlier later : PairingRequest} {r r' : Recording} (hy : Ends earlier r y)
    (hx : Ends later r' x) : earlier.id ≠ later.id := by
  intro hid
  have Sx := sound_before h S hk
  have Sy := sound_of_history (h.take_succ hn) S
  have hlater : y.after.service.pairing.Later x.before.service.pairing :=
    later_of_history ((h.take hk).1.drop_succ ((List.getElem?_take_of_lt hlt).trans hn)) Sy
  obtain ⟨w, hw, rfl, hended⟩ := hy.noted
  obtain ⟨v, hv, rfl, hgoes⟩ := hx.begun
  have hprecedes := hlater w.request.id
  rw [Sy.requests.stage_of_write hw, hid, Sx.requests.stage_of_write hv] at hprecedes
  simp [EdgeWrite.stage, hended, hgoes, Stage.Precedes] at hprecedes

theorem ofConfig_empty {config : Config} {epoch : Int} (h : ofConfig config epoch = .ok s) :
    (∀ device, s.owner? device = none) ∧ s.service.pairing.requests = [] := by
  refine ⟨fun device => ?_, ?_⟩
  · unfold ofConfig at h
    split at h
    · cases h
    · unfold Service.ofConfig at h
      split at h
      · cases h
      · obtain rfl := Except.ok.inj h
        rfl
  · rw [(ofConfig_ok h).1]
    rfl

end Runs

/-! ### A place -/

def laptop : Principal := ⟨⟨3⟩, "laptop", true⟩

/-- A second user of a place. -/
def bob : Principal := ⟨⟨4⟩, "bob", false⟩

/-- A place with two users and two devices. -/
def estate : Config where
  principals := [⟨Coordinator.alice, "t-alice"⟩, ⟨Coordinator.phone, "t-phone"⟩,
    ⟨laptop, "t-laptop"⟩, ⟨bob, "t-bob"⟩]

/-- The service of the place at its start. -/
def estateStart : Server := (ofConfig estate 0).toOption.get rfl

/-- A user asks for a device, and the request is sent. -/
def asksFor (label : String) (id : RequestId) (requester : Principal) (device : PrincipalId) :
    List Action :=
  [.call label (.pair id requester (.number device)), .run (.call label), .run (.call label)]

def agrees (label : String) (id : RequestId) (device : Principal) : List Action :=
  [.call label (.respond device id true), .run (.call label)]

/-- A caller unpairs a device, up to its removal. -/
def checksOut (label : String) (caller : Principal) (device : PrincipalId) : List Action :=
  [.call label (.unpair caller device), .run (.call label)]

end Server
end DeviceRelay

/-
# Each operation moves one request one stage on

To send makes a request live. To accept it begins its recording, and the end of the
recording ends it; to reject it, and its timer, reject it. Each of these moves one
request and leaves the others where they are, and the shutdown rejects all that are
live. So no request ever goes back to an earlier stage.

Key definitions: `Coordinator.Moves`, `Coordinator.Later`.
Key theorems: `Coordinator.send_moves`, `Coordinator.beginAccept_moves`,
`Coordinator.reject_moves`, `Coordinator.expire_some`, `Coordinator.endWrite_moves`,
`Coordinator.shutDown_sound`, `Coordinator.stage_shutDown`.
-/
import DeviceRelay.Proofs.Pairing.Stages

namespace DeviceRelay
namespace Coordinator

variable {γ : Type}

/-! ### What the operations leave -/

theorem send_ok {c d : Coordinator γ} {clock : Clock} {id : RequestId} {p q : Principal}
    {request : PairingRequest} (h : c.send clock id p q = .ok (d, request)) :
    c.refusal? p q = none ∧ request = ⟨id, p, q, clock.wall⟩ ∧
      d = { c with
        live := c.live.set id request
        states := c.states ++ [(id, .pending)]
        timers := c.timers ++ [(id, timerDue clock.now c.ttl)] } := by
  unfold send at h
  split at h
  · cases h
  · rename_i hr
    obtain ⟨rfl, rfl⟩ := Prod.mk.inj (Except.ok.inj h)
    exact ⟨hr, rfl, rfl⟩

theorem claim_ok {c d : Coordinator γ} {id : RequestId} {request : PairingRequest}
    (h : c.claim id = .ok (d, request)) :
    c.live.registry.get? id = some request ∧
      d = { c with live := c.live.remove id, timers := c.timers.filter (·.1 ≠ id) } := by
  unfold claim at h
  split at h
  · rename_i hg
    obtain ⟨rfl, rfl⟩ := Prod.mk.inj (Except.ok.inj h)
    exact ⟨hg, rfl⟩
  · cases h

theorem claim_of_live {c : Coordinator γ} {id : RequestId} (h : id ∈ c.liveIds) :
    ∃ d request, c.claim id = .ok (d, request) := by
  obtain ⟨request, hr⟩ := Option.isSome_iff_exists.mp ((Keyed.mem_keys_iff _ _).mp h)
  unfold claim Registry.get?
  rw [hr]
  exact ⟨_, _, rfl⟩

theorem claim_of_not_live {c : Coordinator γ} {id : RequestId} (h : id ∉ c.liveIds) :
    c.claim id = .error (notLive id) := by
  unfold claim Registry.get?
  rw [(Keyed.lookup_eq_none_iff _ _).mpr h]

theorem reject_ok {c d : Coordinator γ} {id : RequestId} {request : PairingRequest}
    (h : c.reject id = .ok (d, request)) :
    c.live.registry.get? id = some request ∧
      d = { c with
        live := c.live.remove id
        timers := c.timers.filter (·.1 ≠ id)
        states := (c.settle id .rejected).states } := by
  unfold reject at h
  split at h
  · cases h
  · rename_i hc
    obtain ⟨hg, rfl⟩ := claim_ok hc
    obtain ⟨rfl, rfl⟩ := Prod.mk.inj (Except.ok.inj h)
    exact ⟨hg, rfl⟩

theorem reject_of_not_live {c : Coordinator γ} {id : RequestId} (h : id ∉ c.liveIds) :
    c.reject id = .error (notLive id) := by
  unfold reject; rw [claim_of_not_live h]

theorem reject_of_live {c : Coordinator γ} {id : RequestId} (h : id ∈ c.liveIds) :
    ∃ d request, c.reject id = .ok (d, request) := by
  obtain ⟨d, request, hc⟩ := claim_of_live h
  unfold reject; rw [hc]
  exact ⟨_, _, rfl⟩

theorem not_live_of_reject {c : Coordinator γ} {id : RequestId} {e : Error}
    (h : c.reject id = .error e) : id ∉ c.liveIds := fun hlive => by
  obtain ⟨_, _, hrejected⟩ := reject_of_live hlive
  rw [hrejected] at h
  cases h

theorem beginAccept_ok {c d : Coordinator γ} {store : PairingStore} {now : Nat} {id : RequestId}
    (h : c.beginAccept store now id = .ok d) :
    ∃ request, c.live.registry.get? id = some request ∧
      d = { c with
        live := c.live.remove id
        timers := c.timers.filter (·.1 ≠ id)
        writes := c.writes ++ [⟨request, now + store.delay, none⟩] } := by
  unfold beginAccept at h
  split at h
  · cases h
  · rename_i hc
    obtain ⟨hg, rfl⟩ := claim_ok hc
    obtain rfl := Except.ok.inj h
    exact ⟨_, hg, rfl⟩

theorem beginAccept_of_not_live {c : Coordinator γ} {id : RequestId} (h : id ∉ c.liveIds)
    (store : PairingStore) (now : Nat) : c.beginAccept store now id = .error (notLive id) := by
  unfold beginAccept; rw [claim_of_not_live h]

theorem endWrite_some {c d : Coordinator γ} {store store' : PairingStore} {now : Nat}
    {id : RequestId} (h : c.endWrite? store now id = some (d, store')) :
    ∃ w ∈ c.writes, w.request.id = id ∧ w.recording = none ∧ ∃ r,
      store.record w.request.requester.id w.request.target.id = (store', r) ∧
        d = (c.noteEnd id r).settle id (stateAfter r) := by
  unfold endWrite? at h
  obtain ⟨w, hw, h⟩ := Option.bind_eq_some_iff.mp h
  have hp := List.find?_some hw
  simp only [canEnd, Bool.and_eq_true, decide_eq_true_eq, Option.isNone_iff_eq_none] at hp
  obtain ⟨rfl, rfl⟩ := Prod.mk.inj (Option.some.inj h)
  exact ⟨w, List.mem_of_find?_eq_some hw, hp.1, hp.2.1, _, rfl, rfl⟩

/-- To stop the timer first makes no difference to a reject. -/
theorem reject_stopTimer (c : Coordinator γ) (id : RequestId) :
    { c with timers := c.timers.filter (·.1 ≠ id) }.reject id = c.reject id := by
  have hc : { c with timers := c.timers.filter (·.1 ≠ id) }.claim id = c.claim id := by
    unfold claim
    simp
  unfold reject
  rw [hc]

/-- A timer that fires rejects its request. -/
theorem expire_some {c d : Coordinator γ} (S : c.Sound) {now : Nat} {id : RequestId}
    (h : c.expire? now id = some d) :
    (∃ due, c.timers.lookup id = some due ∧ due ≤ now) ∧ ∃ request, c.reject id = .ok (d, request) := by
  unfold expire? at h
  obtain ⟨due, hd, h⟩ := Option.bind_eq_some_iff.mp h
  have hl : id ∈ c.liveIds := (S.timed id).mp ((Keyed.mem_keys_iff _ _).mpr (by rw [hd]; rfl))
  obtain ⟨d', request, hr⟩ := reject_of_live hl
  split at h
  · rename_i hle
    simp only [reject_stopTimer, hr] at h
    obtain rfl := Option.some.inj h
    exact ⟨⟨due, hd, hle⟩, request, hr⟩
  · cases h

/-! ### One request moves -/

/-- The second coordinator is the first with one request at another stage. -/
structure Moves (c d : Coordinator γ) (id : RequestId) (new : Stage) : Prop where
  sound : d.Sound
  moved : d.stage id = new
  others : ∀ other, other ≠ id → d.stage other = c.stage other

/-- Every request is where it was or further on. -/
def Later (c d : Coordinator γ) : Prop := ∀ id, (c.stage id).Precedes (d.stage id)

theorem Later.refl (c : Coordinator γ) : c.Later c := fun _ => .refl _

theorem Later.trans {c d e : Coordinator γ} (h : c.Later d) (h' : d.Later e) : c.Later e :=
  fun id => (h id).trans (h' id)

theorem Moves.stage_eq {c d : Coordinator γ} {id : RequestId} {new : Stage} (h : c.Moves d id new)
    (other : RequestId) : d.stage other = if other = id then new else c.stage other := by
  by_cases ho : other = id
  · rw [if_pos ho, ho, h.moved]
  · rw [if_neg ho, h.others other ho]

theorem Later.stateOf_eq {c d : Coordinator γ} (L : c.Later d) (Sc : c.Sound) (Sd : d.Sound)
    {id : RequestId} (h : c.stateOf id ≠ .pending) : d.stateOf id = c.stateOf id := by
  rw [Sc.stateOf_eq] at h ⊢
  rw [Sd.stateOf_eq, (L id).eq_of_settled]
  · intro hu; rw [hu] at h; exact h rfl
  · intro hp; rw [hp] at h; exact h rfl

theorem accepted_some {c : Coordinator γ} (S : c.Sound) {id : RequestId}
    {result : Except Error PairingRequest} (h : c.accepted? id = some result) :
    ∃ r, c.stage id = .ended r ∧ (result.isOk = true ↔ c.stateOf id = .accepted) := by
  unfold accepted? at h
  obtain ⟨w, hw, h⟩ := Option.bind_eq_some_iff.mp h
  obtain ⟨r, hr, h⟩ := Option.bind_eq_some_iff.mp h
  have hid : w.request.id = id := by simpa using List.find?_some hw
  have hstage : c.stage id = .ended r := by
    rw [← hid, S.stage_of_write (List.mem_of_find?_eq_some hw), EdgeWrite.stage, hr]
  refine ⟨r, hstage, ?_⟩
  rw [S.stateOf_eq, hstage]
  cases r <;> obtain rfl := Option.some.inj h <;>
    simp [Except.isOk, Except.toBool, Stage.state?, stateAfter]

theorem lookup_settle (c : Coordinator γ) (id other : RequestId) (new : PairingState) :
    (c.settle id new).states.lookup other =
      (c.states.lookup other).map fun st => if other = id then .settle new st else st :=
  Keyed.lookup_change c.states (fun k st => if k = id then .settle new st else st) other

theorem sentIds_settle (c : Coordinator γ) (id : RequestId) (new : PairingState) :
    (c.settle id new).sentIds = c.sentIds := by
  simp [sentIds, settle, List.map_map, Function.comp_def]

theorem send_moves {c d : Coordinator γ} (S : c.Sound) {clock : Clock} {id : RequestId}
    {p q : Principal} {request : PairingRequest} (hid : c.stage id = .unsent)
    (h : c.send clock id p q = .ok (d, request)) : c.Moves d id .live := by
  obtain ⟨hr, hreq, hd⟩ := send_ok h
  have hs : id ∉ c.sentIds := fun hm => (S.sent_iff id).mp hm hid
  have hl := not_live_of_stage hid (by simp)
  have ht : id ∉ c.timerIds := fun hm => hl ((S.timed id).mp hm)
  have hvalues : d.live.registry.values = c.live.registry.values ++ [(id, request)] := by
    rw [hd, ← Keyed.put_of_not_mem request hl]; simp
  have hlive : d.liveIds = c.liveIds ++ [id] := by simp [liveIds, hvalues]
  have hsent : d.sentIds = c.sentIds ++ [id] := by simp [sentIds, hd]
  have htimer : d.timerIds = c.timerIds ++ [id] := by simp [timerIds, hd]
  have hw : d.writes = c.writes := by rw [hd]
  have hopen : d.isShutDown = false := by
    unfold refusal? at hr
    simp only [isShutDown, hd, Rendezvous.closed_set]
    split_ifs at hr with h1 h2 h3
    simpa using h3
  have hmoved : d.stage id = .live := stage_of_live (by simp [hlive])
  have hothers : ∀ other, other ≠ id → d.stage other = c.stage other := fun other ho =>
    stage_congr (by simp [hlive, ho]) (by rw [hw]) (by simp [hsent, ho])
  refine ⟨?_, hmoved, hothers⟩
  constructor
  case state =>
    intro other
    have hlook : d.states.lookup other = (c.states.lookup other).or ([(id, .pending)].lookup other) := by
      rw [hd]; exact List.lookup_append
    rw [hlook, Keyed.lookup_cons_eq]
    by_cases ho : other = id
    · rw [ho, hmoved, S.state, hid]; simp [Stage.state?]
    · rw [hothers other ho, S.state]; simp [ho]
  case timed => intro other; simp only [htimer, hlive, List.mem_append, S.timed]
  case own =>
    intro e he
    rw [hvalues, List.mem_append, List.mem_singleton] at he
    rcases he with he | rfl
    · exact S.own e he
    · rw [hreq]
  case unclaimed =>
    intro w hwm
    rw [hw] at hwm
    rw [hlive, List.mem_append, List.mem_singleton, not_or]
    exact ⟨S.unclaimed w hwm, S.no_write (Or.inr hid) w hwm⟩
  case liveNodup => rw [hlive, ← List.concat_eq_append]; exact S.liveNodup.concat hl
  case sentNodup => rw [hsent, ← List.concat_eq_append]; exact S.sentNodup.concat hs
  case timersNodup => rw [htimer, ← List.concat_eq_append]; exact S.timersNodup.concat ht
  case writesNodup => rw [hw]; exact S.writesNodup
  case shut => intro hshut; rw [hopen] at hshut; cases hshut

theorem mem_liveIds_remove {c d : Coordinator γ} {id : RequestId}
    (hd : d.live = c.live.remove id) (other : RequestId) :
    other ∈ d.liveIds ↔ other ∈ c.liveIds ∧ other ≠ id := by
  rw [liveIds, hd]; exact Keyed.mem_keys_remove _ _ _

theorem mem_timerIds_remove {c d : Coordinator γ} {id : RequestId}
    (hd : d.timers = c.timers.filter (·.1 ≠ id)) (other : RequestId) :
    other ∈ d.timerIds ↔ other ∈ c.timerIds ∧ other ≠ id := by
  rw [timerIds, hd]; exact Keyed.mem_keys_remove _ _ _

/-- To claim a request of a sound coordinator leaves it sound, if states, recordings and
stages are seen to. -/
theorem Sound.of_claim {c d : Coordinator γ} (S : c.Sound) {id : RequestId} (hid : id ∈ c.liveIds)
    (hl : d.live = c.live.remove id) (ht : d.timers = c.timers.filter (·.1 ≠ id))
    (state : ∀ other, d.states.lookup other = (d.stage other).state?)
    (unclaimed : ∀ w ∈ d.writes, w.request.id ∉ d.liveIds) (sentNodup : d.sentIds.Nodup)
    (writesNodup : (d.writes.map (·.request.id)).Nodup) : d.Sound where
  state := state
  timed other := by rw [mem_timerIds_remove ht, mem_liveIds_remove hl, S.timed]
  own e he := by
    rw [hl] at he
    exact S.own e (List.mem_of_mem_filter he)
  unclaimed := unclaimed
  liveNodup := by
    rw [liveIds, hl]
    exact S.liveNodup.sublist (List.filter_sublist.map _)
  sentNodup := sentNodup
  timersNodup := by
    rw [timerIds, ht]
    exact S.timersNodup.sublist (List.filter_sublist.map _)
  writesNodup := writesNodup
  shut hshut := by
    rw [isShutDown, hl] at hshut
    rw [S.shut hshut] at hid
    cases hid

theorem live_of_reject {c d : Coordinator γ} {id : RequestId} {request : PairingRequest}
    (h : c.reject id = .ok (d, request)) : id ∈ c.liveIds := by
  by_contra hl
  rw [reject_of_not_live hl] at h
  cases h

theorem live_of_beginAccept {c d : Coordinator γ} {store : PairingStore} {now : Nat}
    {id : RequestId} (h : c.beginAccept store now id = .ok d) : id ∈ c.liveIds := by
  by_contra hl
  rw [beginAccept_of_not_live hl] at h
  cases h

theorem reject_moves {c d : Coordinator γ} (S : c.Sound) {id : RequestId}
    {request : PairingRequest} (h : c.reject id = .ok (d, request)) : c.Moves d id .rejected := by
  have hid := live_of_reject h
  obtain ⟨-, hd⟩ := reject_ok h
  have hl : d.live = c.live.remove id := by rw [hd]
  have ht : d.timers = c.timers.filter (·.1 ≠ id) := by rw [hd]
  have hlive := mem_liveIds_remove hl
  have hstates : d.states = (c.settle id .rejected).states := by rw [hd]
  have hsent : d.sentIds = c.sentIds := by
    rw [← sentIds_settle c id .rejected, sentIds, hstates]; rfl
  have hw : d.writes = c.writes := by rw [hd]
  have hfind : c.writes.find? (·.request.id = id) = none := by
    simpa [List.find?_eq_none] using S.no_write (Or.inl (stage_of_live hid))
  have hmoved : d.stage id = .rejected := by
    rw [stage_of_not_live (by simp [hlive]), hw, hfind]
    exact if_pos (by rw [hsent, S.sent_iff, stage_of_live hid]; simp)
  have hothers : ∀ other, other ≠ id → d.stage other = c.stage other := fun other ho =>
    stage_congr (by simp [hlive, ho]) (by rw [hw]) (by rw [hsent])
  refine ⟨S.of_claim hid hl ht ?state ?unclaimed (hsent ▸ S.sentNodup) (hw ▸ S.writesNodup),
    hmoved, hothers⟩
  case state =>
    intro other
    rw [hstates, lookup_settle, S.state]
    by_cases ho : other = id
    · rw [ho, hmoved, stage_of_live hid]; simp [Stage.state?, PairingState.settle]
    · rw [hothers other ho]; simp [ho]
  case unclaimed =>
    intro w hwm hwl
    rw [hw] at hwm
    exact S.unclaimed w hwm ((hlive _).mp hwl).1

theorem beginAccept_moves {c d : Coordinator γ} (S : c.Sound) {store : PairingStore} {now : Nat}
    {id : RequestId} (h : c.beginAccept store now id = .ok d) : c.Moves d id .recording := by
  have hid := live_of_beginAccept h
  obtain ⟨request, hget, hd⟩ := beginAccept_ok h
  have hown : request.id = id := S.own _ (Keyed.mem_of_lookup hget)
  have hl : d.live = c.live.remove id := by rw [hd]
  have ht : d.timers = c.timers.filter (·.1 ≠ id) := by rw [hd]
  have hlive := mem_liveIds_remove hl
  have hsent : d.sentIds = c.sentIds := by rw [sentIds, hd]; rfl
  have hw : d.writes = c.writes ++ [⟨request, now + store.delay, none⟩] := by rw [hd]
  have hnone := S.no_write (Or.inl (stage_of_live hid))
  have hmoved : d.stage id = .recording := by
    have hfind : c.writes.find? (·.request.id = id) = none := by
      simpa [List.find?_eq_none] using hnone
    rw [stage_of_not_live (by simp [hlive]), hw, List.find?_append, hfind]
    simp [hown, EdgeWrite.stage]
  have hothers : ∀ other, other ≠ id → d.stage other = c.stage other := fun other ho =>
    stage_congr (by simp [hlive, ho])
      (by rw [hw, List.find?_append]; simp [hown, Ne.symm ho]) (by rw [hsent])
  refine ⟨S.of_claim hid hl ht ?state ?unclaimed (hsent ▸ S.sentNodup) ?writesNodup,
    hmoved, hothers⟩
  case state =>
    intro other
    rw [show d.states = c.states by rw [hd], S.state]
    by_cases ho : other = id
    · rw [ho, hmoved, stage_of_live hid]; rfl
    · rw [hothers other ho]
  case unclaimed =>
    intro w hwm hwl
    rw [hw, List.mem_append, List.mem_singleton] at hwm
    rcases hwm with hwm | rfl
    · exact S.unclaimed w hwm ((hlive _).mp hwl).1
    · exact ((hlive _).mp hwl).2 hown
  case writesNodup =>
    rw [hw, List.map_append, List.map_singleton, ← List.concat_eq_append]
    refine S.writesNodup.concat fun hm => ?_
    obtain ⟨w, hwm, he⟩ := List.mem_map.mp hm
    exact hnone w hwm (he.trans hown)

/-- To note how a recording ended changes the stage of its own request. -/
theorem stage_of_noted {c d : Coordinator γ} {id : RequestId} {r : Recording}
    (hlive : d.liveIds = c.liveIds) (hsent : d.sentIds = c.sentIds)
    (hw : d.writes = c.writes.map fun w =>
      if w.request.id = id then { w with recording := some r } else w)
    (hstage : ∃ w ∈ c.writes, w.request.id = id) (hnl : id ∉ c.liveIds) :
    d.stage id = .ended r ∧ ∀ other, other ≠ id → d.stage other = c.stage other := by
  have hfind : ∀ other, d.writes.find? (·.request.id = other) =
      (c.writes.find? (·.request.id = other)).map fun w =>
        if w.request.id = id then { w with recording := some r } else w := by
    intro other
    rw [hw, Keyed.find?_map c.writes (·.request.id) fun w => by split <;> rfl]
  constructor
  · obtain ⟨w, hwm, hwid⟩ := hstage
    rw [stage_of_not_live (by rw [hlive]; exact hnl), hfind]
    cases hf : c.writes.find? (·.request.id = id) with
    | none => exact absurd hwid (by simpa using List.find?_eq_none.mp hf w hwm)
    | some w' =>
      have hid : w'.request.id = id := by simpa using List.find?_some hf
      simp [hid, EdgeWrite.stage]
  · intro other ho
    refine stage_congr (by rw [hlive]) ?_ (by rw [hsent])
    rw [hfind]
    cases hf : c.writes.find? (·.request.id = other) with
    | none => rfl
    | some w' =>
      have hid : w'.request.id = other := by simpa using List.find?_some hf
      simp [hid, ho]

theorem endWrite_moves {c d : Coordinator γ} (S : c.Sound) {store store' : PairingStore}
    {now : Nat} {id : RequestId} (h : c.endWrite? store now id = some (d, store')) :
    ∃ w ∈ c.writes, w.request.id = id ∧ c.stage id = .recording ∧ ∃ r,
      store.record w.request.requester.id w.request.target.id = (store', r) ∧
        c.Moves d id (.ended r) := by
  obtain ⟨w, hwm, hwid, hnone, r, hrec, hd⟩ := endWrite_some h
  have hstage : c.stage id = .recording := by
    rw [← hwid, S.stage_of_write hwm, EdgeWrite.stage, hnone]
  have hnl : id ∉ c.liveIds := fun hl => S.unclaimed w hwm (hwid ▸ hl)
  have hlive : d.liveIds = c.liveIds := by rw [hd]; rfl
  have hstates : d.states = (c.settle id (stateAfter r)).states := by rw [hd]; rfl
  have hsent : d.sentIds = c.sentIds := by
    rw [← sentIds_settle c id (stateAfter r), sentIds, hstates]; rfl
  have hw : d.writes = c.writes.map fun w =>
      if w.request.id = id then { w with recording := some r } else w := by rw [hd]; rfl
  have hrequest : ∀ w : EdgeWrite,
      (if w.request.id = id then { w with recording := some r } else w).request = w.request := by
    intro w; split <;> rfl
  obtain ⟨hmoved, hothers⟩ := stage_of_noted hlive hsent hw ⟨w, hwm, hwid⟩ hnl
  refine ⟨w, hwm, hwid, hstage, r, hrec, ?_, hmoved, hothers⟩
  constructor
  case state =>
    intro other
    rw [hstates, lookup_settle, S.state]
    by_cases ho : other = id
    · rw [ho, hmoved, hstage]; simp [Stage.state?, PairingState.settle]
    · rw [hothers other ho]; simp [ho]
  case timed => intro other; rw [hlive, ← S.timed, timerIds, timerIds, hd]; rfl
  case own => rw [hd]; exact S.own
  case unclaimed =>
    intro v hv
    rw [hw] at hv
    obtain ⟨u, hu, rfl⟩ := List.mem_map.mp hv
    rw [hrequest, hlive]
    exact S.unclaimed u hu
  case liveNodup => rw [hlive]; exact S.liveNodup
  case sentNodup => rw [hsent]; exact S.sentNodup
  case timersNodup => rw [hd]; exact S.timersNodup
  case writesNodup =>
    rw [hw, List.map_map, List.map_congr_left (g := (·.request.id))]
    · exact S.writesNodup
    · intro w _; simp [hrequest]
  case shut => rw [hlive, hd]; exact S.shut

/-! ### The shutdown -/

theorem settle_settle (new old : PairingState) (st : PairingState) (h : old ≠ .pending) :
    PairingState.settle new (.settle old st) = .settle old st := by
  cases st <;> cases old <;> first | rfl | exact absurd rfl h

theorem shutDown_fold (l : List (RequestId × PairingRequest)) (c : Coordinator γ) :
    let d := l.foldl (fun c (e : RequestId × PairingRequest) =>
      { c.settle e.1 .rejected with live := c.live.remove e.1 }) c
    (∀ id, id ∈ d.liveIds ↔ id ∈ c.liveIds ∧ id ∉ l.map (·.1)) ∧
      (∀ id, d.states.lookup id = (c.states.lookup id).map fun st =>
        if id ∈ l.map (·.1) then .settle .rejected st else st) ∧
      d.sentIds = c.sentIds ∧ d.writes = c.writes ∧ d.timers = c.timers ∧ d.ttl = c.ttl := by
  induction l generalizing c with
  | nil => simp
  | cons e l ih =>
    obtain ⟨hlive, hstates, hsent, hw, ht, httl⟩ :=
      ih { c.settle e.1 .rejected with live := c.live.remove e.1 }
    refine ⟨fun id => ?_, fun id => ?_, hsent.trans (sentIds_settle c e.1 .rejected), hw, ht, httl⟩
    · rw [List.foldl_cons, hlive, mem_liveIds_remove (c := c) rfl, List.map_cons, List.mem_cons]
      tauto
    · have hs := lookup_settle c e.1 id .rejected
      rw [List.foldl_cons, hstates, hs, Option.map_map]
      congr 1
      funext st
      by_cases he : id = e.1 <;> by_cases hm : id ∈ l.map (·.1) <;>
        simp [he, hm, settle_settle]

theorem shutDown_eq (c : Coordinator γ) :
    c.shutDown.liveIds = [] ∧ c.shutDown.timers = [] ∧ c.shutDown.writes = c.writes ∧
      c.shutDown.sentIds = c.sentIds ∧ c.shutDown.ttl = c.ttl ∧
      ∀ id, c.shutDown.states.lookup id = (c.states.lookup id).map fun st =>
        if id ∈ c.liveIds then .settle .rejected st else st := by
  obtain ⟨hlive, hstates, hsent, hw, ht, httl⟩ :=
    shutDown_fold c.live.registry.values { c with timers := [] }
  refine ⟨List.eq_nil_iff_forall_not_mem.mpr fun id hid => ?_, ht, hw, hsent, httl, hstates⟩
  exact (((hlive id).mp hid).2) ((hlive id).mp hid).1

/-- **The shutdown rejects what is live, and nothing else.** -/
theorem stage_shutDown {c : Coordinator γ} (S : c.Sound) (id : RequestId) :
    c.shutDown.stage id = if id ∈ c.liveIds then .rejected else c.stage id := by
  obtain ⟨hlive, -, hw, hsent, -, -⟩ := shutDown_eq c
  by_cases hid : id ∈ c.liveIds
  · rw [if_pos hid, stage_of_not_live (by simp [hlive]), hw]
    have hnone : c.writes.find? (·.request.id = id) = none := by
      simpa [List.find?_eq_none] using S.no_write (Or.inl (stage_of_live hid))
    rw [hnone]
    exact if_pos (by rw [hsent, S.sent_iff, stage_of_live hid]; simp)
  · rw [if_neg hid]
    exact stage_congr (by simp [hlive, hid]) (by rw [hw]) (by rw [hsent])

theorem shutDown_sound {c : Coordinator γ} (S : c.Sound) : c.shutDown.Sound := by
  obtain ⟨hlive, ht, hw, hsent, -, hstates⟩ := shutDown_eq c
  constructor
  case state =>
    intro id
    rw [hstates, stage_shutDown S, S.state]
    by_cases hid : id ∈ c.liveIds
    · rw [stage_of_live hid]; simp [hid, Stage.state?, PairingState.settle]
    · simp [hid]
  case timed => intro id; simp [timerIds, ht, hlive]
  case own =>
    intro e he
    have hm : e.1 ∈ c.shutDown.liveIds := List.mem_map_of_mem he
    rw [hlive] at hm
    cases hm
  case unclaimed => intro w _; simp [hlive]
  case liveNodup => rw [hlive]; exact List.nodup_nil
  case sentNodup => rw [hsent]; exact S.sentNodup
  case timersNodup => rw [timerIds, ht]; exact List.nodup_nil
  case writesNodup => rw [hw]; exact S.writesNodup
  case shut => exact fun _ => hlive

/-! ### The requests -/

/-- The requests that are live or were accepted. -/
def requests (c : Coordinator γ) : List PairingRequest :=
  c.live.registry.values.map (·.2) ++ c.writes.map (·.request)

theorem mem_requests {c : Coordinator γ} {request : PairingRequest} :
    request ∈ c.requests ↔ (∃ id, (id, request) ∈ c.live.registry.values) ∨
      ∃ w ∈ c.writes, w.request = request := by
  simp [requests]

theorem send_requests {c d : Coordinator γ} {clock : Clock} {id : RequestId} {p q : Principal}
    {request sent : PairingRequest} (h : c.send clock id p q = .ok (d, sent))
    (hr : request ∈ d.requests) : request ∈ c.requests ∨ request = sent := by
  obtain ⟨-, -, rfl⟩ := send_ok h
  rcases mem_requests.mp hr with ⟨other, he⟩ | hw
  · rw [Rendezvous.values_set] at he
    rcases Keyed.mem_put he with he | he
    · exact Or.inl (mem_requests.mpr (Or.inl ⟨other, he⟩))
    · exact Or.inr (Prod.mk.inj he).2
  · exact Or.inl (mem_requests.mpr (Or.inr hw))

theorem reject_requests {c d : Coordinator γ} {id : RequestId} {request sent : PairingRequest}
    (h : c.reject id = .ok (d, sent)) (hr : request ∈ d.requests) : request ∈ c.requests := by
  obtain ⟨-, rfl⟩ := reject_ok h
  rcases mem_requests.mp hr with ⟨other, he⟩ | hw
  · exact mem_requests.mpr (Or.inl ⟨other, List.mem_of_mem_filter he⟩)
  · exact mem_requests.mpr (Or.inr hw)

theorem beginAccept_requests {c d : Coordinator γ} {store : PairingStore} {now : Nat}
    {id : RequestId} {request : PairingRequest} (h : c.beginAccept store now id = .ok d)
    (hr : request ∈ d.requests) : request ∈ c.requests := by
  obtain ⟨taken, hget, rfl⟩ := beginAccept_ok h
  rcases mem_requests.mp hr with ⟨other, he⟩ | ⟨w, hw, rfl⟩
  · exact mem_requests.mpr (Or.inl ⟨other, List.mem_of_mem_filter he⟩)
  · rcases List.mem_append.mp hw with hw | hw
    · exact mem_requests.mpr (Or.inr ⟨w, hw, rfl⟩)
    · rw [List.mem_singleton.mp hw]
      exact mem_requests.mpr (Or.inl ⟨id, Keyed.mem_of_lookup hget⟩)

theorem endWrite_requests {c d : Coordinator γ} {store store' : PairingStore} {now : Nat}
    {id : RequestId} {request : PairingRequest}
    (h : c.endWrite? store now id = some (d, store')) (hr : request ∈ d.requests) :
    request ∈ c.requests := by
  obtain ⟨-, -, -, -, r, -, rfl⟩ := endWrite_some h
  rcases mem_requests.mp hr with he | ⟨w, hw, rfl⟩
  · exact mem_requests.mpr (Or.inl he)
  · obtain ⟨v, hv, rfl⟩ := List.mem_map.mp hw
    refine mem_requests.mpr (Or.inr ⟨v, hv, ?_⟩)
    split <;> rfl

theorem shutDown_requests {c : Coordinator γ} {request : PairingRequest}
    (hr : request ∈ c.shutDown.requests) : request ∈ c.requests := by
  obtain ⟨hlive, -, hw, -⟩ := shutDown_eq c
  rw [requests, List.map_eq_nil_iff.mp hlive, hw] at hr
  exact List.mem_append_right _ hr

/-! ### Listings -/

/-- The second coordinator differs at most in those who wait for a request. -/
structure Kept (c d : Coordinator γ) : Prop where
  ttl : d.ttl = c.ttl
  values : d.live.registry.values = c.live.registry.values
  closed : d.live.registry.closed = c.live.registry.closed
  states : d.states = c.states
  timers : d.timers = c.timers
  writes : d.writes = c.writes

theorem Kept.refl (c : Coordinator γ) : c.Kept c := ⟨rfl, rfl, rfl, rfl, rfl, rfl⟩

theorem Kept.stage {c d : Coordinator γ} (K : c.Kept d) (id : RequestId) :
    d.stage id = c.stage id :=
  stage_congr (by rw [liveIds, K.values]; rfl) (by rw [K.writes]) (by rw [sentIds, K.states]; rfl)

theorem Kept.sound {c d : Coordinator γ} (K : c.Kept d) (S : c.Sound) : d.Sound := by
  have hlive : d.liveIds = c.liveIds := by rw [liveIds, K.values]; rfl
  constructor
  case state => intro id; rw [K.states, K.stage, S.state]
  case timed => intro id; rw [hlive, ← S.timed, timerIds, K.timers]; rfl
  case own => rw [K.values]; exact S.own
  case unclaimed => rw [K.writes, hlive]; exact S.unclaimed
  case liveNodup => rw [hlive]; exact S.liveNodup
  case sentNodup => rw [sentIds, K.states]; exact S.sentNodup
  case timersNodup => rw [timerIds, K.timers]; exact S.timersNodup
  case writesNodup => rw [K.writes]; exact S.writesNodup
  case shut => rw [hlive, isShutDown, K.closed]; exact S.shut

theorem beginListing_kept (c : Coordinator γ) (now : Nat) (call : γ) (target : PrincipalId)
    (timeout : Nat) : c.Kept (c.beginListing now call target timeout).1 := by
  constructor <;> simp [beginListing]

theorem Kept.requests {c d : Coordinator γ} (K : c.Kept d) : d.requests = c.requests := by
  rw [Coordinator.requests, K.values, K.writes]; rfl

variable [DecidableEq γ]

theorem abandon_kept (c : Coordinator γ) (call : γ) : c.Kept (c.abandon call) := by
  constructor <;> simp [abandon]

theorem resumeListing_kept {c d : Coordinator γ} {now : Nat} {call : γ}
    {o : Outcome (List PairingRequest)} (h : c.resumeListing? now call = some (d, o)) :
    c.Kept d := by
  unfold resumeListing? at h
  obtain ⟨⟨live, outcome⟩, hr, h⟩ := Option.map_eq_some_iff.mp h
  obtain ⟨rfl, -⟩ := Prod.mk.inj h
  rw [Rendezvous.resume_eq hr]
  exact abandon_kept c call

end Coordinator
end DeviceRelay

/-
# The requests change by six operations

Whatever uses the coordinator, its requests change by six operations and by nothing else:
one is sent, accepted, rejected, expires, its recording ends, or all are shut down. Seen
from one request, an operation either leaves it where it is or takes it one way on.

Key definitions: `Coordinator.Op`, `Coordinator.Change`, `Coordinator.Way`.
Key theorems: `Coordinator.Change.way`, `Coordinator.Change.sound`, `Coordinator.Change.later`,
`Coordinator.Change.requests`, `Coordinator.Change.timers`, `Coordinator.Change.sentIds`.
-/
import DeviceRelay.Proofs.Pairing.Operations

namespace DeviceRelay
namespace Coordinator

/-- What can happen to the requests. -/
inductive Op where
  | send (id : RequestId) (requester target : Principal)
  | accept (id : RequestId)
  | reject (id : RequestId)
  | expire (id : RequestId)
  | write (id : RequestId)
  | shutDown

/-- The ways that a request can go in one operation. -/
inductive Way (id : RequestId) : Stage → Option Op → Stage → Prop where
  | send (p q : Principal) : Way id .unsent (some (.send id p q)) .live
  | accept : Way id .live (some (.accept id)) .recording
  | reject : Way id .live (some (.reject id)) .rejected
  | expire : Way id .live (some (.expire id)) .rejected
  | shutDown : Way id .live (some .shutDown) .rejected
  | write (r : Recording) : Way id .recording (some (.write id)) (.ended r)

theorem Way.precedes {id : RequestId} {old new : Stage} {op : Option Op} (h : Way id old op new) :
    old.Precedes new := by
  cases h <;> simp [Stage.Precedes]

variable {γ : Type}

/-- The coordinator after an operation, or after nothing happened to the requests. Only the
end of a recording uses the store. -/
inductive Change (clock : Clock) (store : PairingStore) (c : Coordinator γ) :
    Option Op → PairingStore → Coordinator γ → Prop where
  | keep {store' : PairingStore} {d : Coordinator γ} : c.Kept d → Change clock store c none store' d
  | send {id : RequestId} {p q : Principal} {d : Coordinator γ} {request : PairingRequest} :
    c.states.lookup id = none → c.send clock id p q = .ok (d, request) →
    Change clock store c (some (.send id p q)) store d
  | accept {id : RequestId} {d : Coordinator γ} :
    c.beginAccept store clock.now id = .ok d → Change clock store c (some (.accept id)) store d
  | reject {id : RequestId} {d : Coordinator γ} {request : PairingRequest} :
    c.reject id = .ok (d, request) → Change clock store c (some (.reject id)) store d
  | expire {id : RequestId} {d : Coordinator γ} :
    c.expire? clock.now id = some d → Change clock store c (some (.expire id)) store d
  | write {id : RequestId} {d : Coordinator γ} {store' : PairingStore} :
    c.endWrite? store clock.now id = some (d, store') →
    Change clock store c (some (.write id)) store' d
  | shutDown : Change clock store c (some .shutDown) store c.shutDown

namespace Change

variable {clock : Clock} {store store' : PairingStore} {c d : Coordinator γ} {op : Option Op}

/-- **Each request stays where it is or goes one of the ways.** -/
theorem way (h : Change clock store c op store' d) (S : c.Sound) (id : RequestId) :
    d.stage id = c.stage id ∨ Way id (c.stage id) op (d.stage id) := by
  cases h with
  | keep K => exact Or.inl (K.stage id)
  | @send id' p q d request hs h =>
    have hid := (S.unsent_iff id').mp hs
    by_cases ho : id = id'
    · rw [ho, hid, (send_moves S hid h).moved]; exact Or.inr (.send p q)
    · exact Or.inl ((send_moves S hid h).others id ho)
  | @accept id' d h =>
    by_cases ho : id = id'
    · rw [ho, stage_of_live (live_of_beginAccept h), (beginAccept_moves S h).moved]
      exact Or.inr .accept
    · exact Or.inl ((beginAccept_moves S h).others id ho)
  | @reject id' d request h =>
    by_cases ho : id = id'
    · rw [ho, stage_of_live (live_of_reject h), (reject_moves S h).moved]; exact Or.inr .reject
    · exact Or.inl ((reject_moves S h).others id ho)
  | @expire id' d h =>
    obtain ⟨-, request, hr⟩ := expire_some S h
    by_cases ho : id = id'
    · rw [ho, stage_of_live (live_of_reject hr), (reject_moves S hr).moved]; exact Or.inr .expire
    · exact Or.inl ((reject_moves S hr).others id ho)
  | @write id' d store h =>
    obtain ⟨w, -, -, hstage, r, -, M⟩ := endWrite_moves S h
    by_cases ho : id = id'
    · rw [ho, hstage, M.moved]; exact Or.inr (.write r)
    · exact Or.inl (M.others id ho)
  | shutDown =>
    have hstage := stage_shutDown S id
    by_cases hl : id ∈ c.liveIds
    · rw [if_pos hl] at hstage
      rw [hstage, stage_of_live hl]; exact Or.inr .shutDown
    · rw [if_neg hl] at hstage
      exact Or.inl hstage

theorem sound (h : Change clock store c op store' d) (S : c.Sound) : d.Sound := by
  cases h with
  | keep K => exact K.sound S
  | send hs h => exact (send_moves S ((S.unsent_iff _).mp hs) h).sound
  | accept h => exact (beginAccept_moves S h).sound
  | reject h => exact (reject_moves S h).sound
  | expire h =>
    obtain ⟨-, request, hr⟩ := expire_some S h
    exact (reject_moves S hr).sound
  | write h =>
    obtain ⟨_, -, -, -, _, -, M⟩ := endWrite_moves S h
    exact M.sound
  | shutDown => exact shutDown_sound S

/-- No request goes back. -/
theorem later (h : Change clock store c op store' d) (S : c.Sound) : c.Later d := by
  intro id
  rcases h.way S id with hk | hw
  · rw [hk]; exact .refl _
  · exact hw.precedes

/-- A request is new only if it is sent. -/
theorem unsent (h : Change clock store c op store' d) (S : c.Sound) {id : RequestId}
    (hid : c.stage id = .unsent) (hop : ∀ p q, op ≠ some (.send id p q)) : d.stage id = .unsent := by
  rcases h.way S id with hk | hw
  · rw [hk, hid]
  · rw [hid] at hw
    generalize d.stage id = new at hw
    cases hw with
    | send p q => exact absurd rfl (hop p q)

theorem of_send {id : RequestId} {p q : Principal}
    (h : Change clock store c (some (.send id p q)) store' d) (S : c.Sound) :
    c.stage id = .unsent ∧ d.stage id = .live := by
  cases h with
  | send hs h =>
    have hid := (S.unsent_iff _).mp hs
    exact ⟨hid, (send_moves S hid h).moved⟩

/-- An operation brings no request but the one that it sends. -/
theorem requests (h : Change clock store c op store' d) (S : c.Sound) {request : PairingRequest}
    (hr : request ∈ d.requests) :
    request ∈ c.requests ∨ op = some (.send request.id request.requester request.target) ∧
      c.send clock request.id request.requester request.target = .ok (d, request) := by
  cases h with
  | keep K => exact Or.inl (K.requests ▸ hr)
  | send hs h =>
    refine (send_requests h hr).imp_right fun he => ?_
    subst he
    obtain ⟨-, hreq, -⟩ := send_ok h
    rw [hreq] at h ⊢
    exact ⟨rfl, h⟩
  | accept h => exact Or.inl (beginAccept_requests h hr)
  | reject h => exact Or.inl (reject_requests h hr)
  | expire h =>
    obtain ⟨-, _, hrej⟩ := expire_some S h
    exact Or.inl (reject_requests hrej hr)
  | write h => exact Or.inl (endWrite_requests h hr)
  | shutDown => exact Or.inl (shutDown_requests hr)

/-- An operation sets no timer but that of the request that it sends. -/
theorem timers (h : Change clock store c op store' d) (S : c.Sound) {e : RequestId × Nat}
    (he : e ∈ d.timers) :
    e ∈ c.timers ∨ e.2 = timerDue clock.now c.ttl ∧ ∃ request : PairingRequest, request.id = e.1 ∧
      op = some (.send request.id request.requester request.target) ∧
      c.send clock request.id request.requester request.target = .ok (d, request) := by
  cases h with
  | keep K => exact Or.inl (K.timers ▸ he)
  | @send id p q d request hs h =>
    obtain ⟨-, hreq, hd⟩ := send_ok h
    have he : e ∈ c.timers ++ [(id, timerDue clock.now c.ttl)] := by rwa [hd] at he
    rcases List.mem_append.mp he with he | he
    · exact Or.inl he
    · obtain rfl := List.mem_singleton.mp he
      refine Or.inr ⟨rfl, request, by rw [hreq], by rw [hreq], ?_⟩
      rw [hreq] at h ⊢
      exact h
  | accept h =>
    obtain ⟨_, -, rfl⟩ := beginAccept_ok h
    exact Or.inl (List.mem_of_mem_filter he)
  | reject h =>
    obtain ⟨-, rfl⟩ := reject_ok h
    exact Or.inl (List.mem_of_mem_filter he)
  | expire h =>
    obtain ⟨-, _, hrej⟩ := expire_some S h
    obtain ⟨-, rfl⟩ := reject_ok hrej
    exact Or.inl (List.mem_of_mem_filter he)
  | write h =>
    obtain ⟨_, -, -, -, _, -, rfl⟩ := endWrite_some h
    exact Or.inl he
  | shutDown =>
    rw [(shutDown_eq c).2.1] at he
    cases he

theorem ttl (h : Change clock store c op store' d) (S : c.Sound) : d.ttl = c.ttl := by
  cases h with
  | keep K => exact K.ttl
  | send _ h => rw [(send_ok h).2.2]
  | accept h =>
    obtain ⟨_, -, rfl⟩ := beginAccept_ok h
    rfl
  | reject h => rw [(reject_ok h).2]
  | expire h =>
    obtain ⟨-, _, hrej⟩ := expire_some S h
    rw [(reject_ok hrej).2]
  | write h =>
    obtain ⟨_, -, -, -, _, -, rfl⟩ := endWrite_some h
    rfl
  | shutDown => exact (shutDown_eq c).2.2.2.2.1

/-- Only a request that is sent is a new one. -/
theorem sentIds (h : Change clock store c op store' d) (S : c.Sound)
    (hop : ∀ id p q, op ≠ some (.send id p q)) : d.sentIds = c.sentIds := by
  cases h with
  | keep K => rw [Coordinator.sentIds, K.states]; rfl
  | send => exact absurd rfl (hop _ _ _)
  | accept h =>
    obtain ⟨_, -, rfl⟩ := beginAccept_ok h
    rfl
  | reject h =>
    rw [(reject_ok h).2]
    exact sentIds_settle ..
  | expire h =>
    obtain ⟨-, _, hrej⟩ := expire_some S h
    rw [(reject_ok hrej).2]
    exact sentIds_settle ..
  | write h =>
    obtain ⟨_, -, -, -, _, -, rfl⟩ := endWrite_some h
    exact sentIds_settle ..
  | shutDown => exact (shutDown_eq c).2.2.2.1

end Change

end Coordinator
end DeviceRelay

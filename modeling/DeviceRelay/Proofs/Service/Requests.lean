/-
# What a step of a call does to the requests

A call that asks to own a device sends its request, waits, and may reject it at the end of
its wait; a call that answers a request rejects it or begins its recording. Every other
step leaves the requests alone. Only a call that waited for its request is answered with
an outcome, and only one that just sent a request waits for it.

Key definitions: `Phase.wants`, `Phase.awaitsFor`, `Phase.publishes`, `Service.Stepped`.
Key theorems: `Service.stepped`, `Service.endWait_outcome`, `Service.step_publishes`.
-/
import DeviceRelay.Proofs.Pairing.Changes
import DeviceRelay.Service.Steps

namespace DeviceRelay

open Coordinator (Op Change Kept)

namespace Phase

/-- Whether a call is yet to send the request with an identifier. -/
def wants : Phase → RequestId → Prop
  | .begins (.pair id _ _), other => id = other
  | .sends id _ _, other => id = other
  | _, _ => False

/-- Whether a call waits for a request that it sent. -/
def awaitsFor : Phase → RequestId → Prop
  | .awaits id _ _, other => id = other
  | _, _ => False

/-- Whether a call publishes a message. -/
def publishes : Phase → Prop
  | .begins (.publish ..) | .compares .. | .queues _ => True
  | _ => False

end Phase

namespace Service

variable {s : Service}

/-- What a step of a call in some phase does to the requests. -/
structure Stepped (s : Service) (phase : Phase) (m : Move) (op : Option Op) : Prop where
  change : Change s.clock s.store s.pairing op m.service.store m.service.pairing
  /-- A request is sent from the phase that does, and the call begins to wait for it. -/
  sends : ∀ id p q, op = some (.send id p q) →
    phase = .sends id p q ∧ ∃ device due, m.progress = .goesOn (.awaits id device due)
  /-- No recording ends. -/
  writes : ∀ id, op ≠ some (.write id)
  wants : ∀ next, m.progress = .goesOn next → ∀ id, next.wants id → phase.wants id
  awaits : ∀ next, m.progress = .goesOn next → ∀ id, next.awaitsFor id →
    ∃ p q, op = some (.send id p q)
  outcome : ∀ o, m.progress = .ends (.answered (.outcome o)) →
    ∃ due, phase = .awaits o.requestId o.device due

/-- How a step goes on that neither waits for a request, nor is yet to send one, nor tells
an outcome. -/
def Plain : Progress → Prop
  | .goesOn next => ∀ id, ¬ next.wants id ∧ ¬ next.awaitsFor id
  | .ends (.answered (.outcome _)) => False
  | .ends _ => True

theorem Stepped.of_plain {phase : Phase} {m : Move} {op : Option Op}
    (C : Change s.clock s.store s.pairing op m.service.store m.service.pairing)
    (hop : ∀ id p q, op ≠ some (.send id p q)) (hop' : ∀ id, op ≠ some (.write id))
    (h : Plain m.progress) : Stepped s phase m op where
  change := C
  sends id p q ho := absurd ho (hop id p q)
  writes := hop'
  wants next hn id hw := by rw [hn] at h; exact absurd hw (h id).1
  awaits next hn id hw := by rw [hn] at h; exact absurd hw (h id).2
  outcome o ho := by rw [ho] at h; exact h.elim

theorem Stepped.of_kept {phase : Phase} {m : Move} (h : s.pairing.Kept m.service.pairing)
    (hp : Plain m.progress) : Stepped s phase m none :=
  .of_plain (.keep h) (by simp) (by simp) hp

/-! ### Asking to own a device -/

theorem beginPair_stepped (id : RequestId) (requester : Principal) (device : DeviceRef) :
    Stepped s (.begins (.pair id requester device)) (s.beginPair id requester device) none := by
  unfold beginPair
  split
  · exact .of_kept (.refl _) trivial
  · split
    · exact .of_kept (.refl _) trivial
    · exact .of_kept (.refl _) trivial
    · refine ⟨.keep (.refl _), by simp, by simp, ?_, ?_, by simp⟩
      · rintro next hn other hw
        obtain rfl := Progress.goesOn.inj hn
        exact hw
      · rintro next hn other hw
        obtain rfl := Progress.goesOn.inj hn
        exact hw.elim

theorem sendRequest_stepped {id : RequestId} {requester target : Principal}
    (hid : s.pairing.states.lookup id = none) :
    ∃ op, Stepped s (.sends id requester target) (s.sendRequest id requester target) op := by
  unfold sendRequest
  split
  · exact ⟨none, .of_kept (.refl _) trivial⟩
  · rename_i hsend
    refine ⟨some (.send id requester target), .send hid hsend, ?_, by simp, ?_, ?_, by simp⟩
    · intro id' p q ho
      obtain ⟨rfl, rfl, rfl⟩ := Op.send.inj (Option.some.inj ho)
      exact ⟨rfl, _, _, rfl⟩
    · rintro next hn other hw
      obtain rfl := Progress.goesOn.inj hn
      exact hw.elim
    · rintro next hn other hw
      obtain rfl := Progress.goesOn.inj hn
      obtain rfl : id = other := hw
      exact ⟨_, _, rfl⟩

theorem conclude_kept (id : RequestId) (device : PrincipalId) (state : PairingState) :
    (s.conclude id device state).service.pairing = s.pairing ∧
      (s.conclude id device state).service.store = s.store := by
  unfold conclude
  split
  · exact ⟨rfl, rfl⟩
  · split <;> exact ⟨rfl, rfl⟩

theorem conclude_ends (id : RequestId) (device : PrincipalId) (state : PairingState) :
    (s.conclude id device state).progress = .ends (.failed .cancelled) ∨
      (s.conclude id device state).progress = .ends (.answered (.outcome ⟨id, device, state⟩)) := by
  unfold conclude
  split
  · exact Or.inl rfl
  · exact Or.inr rfl

theorem Stepped.of_conclude {s' : Service} {id : RequestId} {device : PrincipalId} {due : Nat}
    {state : PairingState} {op : Option Op}
    (C : Change s.clock s.store s.pairing op s'.store s'.pairing)
    (hop : ∀ id p q, op ≠ some (.send id p q)) (hop' : ∀ id, op ≠ some (.write id)) :
    Stepped s (.awaits id device due) (s'.conclude id device state) op := by
  obtain ⟨hp, hs⟩ := conclude_kept (s := s') id device state
  constructor
  case change => rw [hp, hs]; exact C
  case sends => exact fun id p q ho => absurd ho (hop id p q)
  case writes => exact hop'
  all_goals
    rcases conclude_ends (s := s') id device state with he | he <;> rw [he]
  case outcome.inr =>
    rintro o ho
    obtain rfl := Answer.outcome.inj (Ending.answered.inj (Progress.ends.inj ho))
    exact ⟨due, rfl⟩
  all_goals simp

theorem endWait_stepped {id : RequestId} {device : PrincipalId} {due : Nat} {m : Move}
    (h : s.endWait? id device due = some m) : ∃ op, Stepped s (.awaits id device due) m op := by
  unfold endWait? at h
  split at h
  · split at h
    · split at h <;> rename_i hrej <;> obtain rfl := Option.some.inj h
      · exact ⟨_, .of_conclude (.reject hrej) (by simp) (by simp)⟩
      · exact ⟨_, .of_conclude (.keep (.refl _)) (by simp) (by simp)⟩
    · cases h
  · obtain rfl := Option.some.inj h
    exact ⟨_, .of_conclude (.keep (.refl _)) (by simp) (by simp)⟩

/-- **How a wait ends.** The outcome is pending if the pairing is being recorded, and
otherwise it is the state in which the request stays. -/
theorem endWait_outcome (S : s.pairing.Sound) {id : RequestId} {device : PrincipalId} {due : Nat}
    {m : Move} {o : PairingOutcome} (h : s.endWait? id device due = some m)
    (ho : m.progress = .ends (.answered (.outcome o))) (hsent : s.pairing.stage id ≠ .unsent) :
    (o.state = .pending ∧ s.pairing.stage id = .recording) ∨
      (o.state ≠ .pending ∧ m.service.pairing.stateOf id = o.state ∧
        s.pairing.stage id ≠ .recording) := by
  have told : ∀ {s' : Service} {state}, (s'.conclude id device state).progress =
      .ends (.answered (.outcome o)) → o.state = state := by
    intro s' state ho
    rcases conclude_ends (s := s') id device state with he | he <;> rw [he] at ho
    · cases ho
    · rw [← Answer.outcome.inj (Ending.answered.inj (Progress.ends.inj ho))]
  unfold endWait? at h
  split at h
  · rename_i hp
    split at h
    · split at h <;> rename_i hrej <;> obtain rfl := Option.some.inj h <;> have hstate := told ho
      · have M := Coordinator.reject_moves S hrej
        rw [(conclude_kept _ _ _).1, hstate, M.sound.stateOf_eq, M.moved,
          Coordinator.stage_of_live (Coordinator.live_of_reject hrej)]
        exact Or.inr ⟨by simp [Stage.state?], rfl, by simp⟩
      · refine Or.inl ⟨hstate, ?_⟩
        have hlive : s.pairing.stage id ≠ .live := fun hl => by
          obtain ⟨_, _, hr⟩ :=
            Coordinator.reject_of_live ((Coordinator.stage_eq_live_iff _ _).mp hl)
          rw [hr] at hrej
          cases hrej
        rw [S.stateOf_eq] at hp
        generalize s.pairing.stage id = stage at *
        cases stage with
        | unsent => exact absurd rfl hsent
        | live => exact absurd rfl hlive
        | recording => rfl
        | ended r => exact absurd hp (Stage.stateAfter_ne_pending r)
        | rejected => cases hp
    · cases h
  · rename_i hp
    obtain rfl := Option.some.inj h
    rw [(conclude_kept _ _ _).1, told ho]
    refine Or.inr ⟨hp, rfl, fun hr => hp ?_⟩
    rw [S.stateOf_eq, hr]
    rfl

/-! ### Answering a request -/

theorem plain_ofResult {result : Except Error Answer}
    (h : ∀ o, result ≠ .ok (.outcome o)) : Plain (.ends (.ofResult result)) := by
  cases result with
  | error e => trivial
  | ok a =>
    cases a with
    | outcome o => exact absurd rfl (h o)
    | _ => trivial

theorem plain_listed (outcome : Outcome (List PairingRequest)) : Plain (.ends (s.listed outcome)) :=
  plain_ofResult fun o => by cases Coordinator.listed outcome <;> simp [Except.map]

theorem beginPoll_stepped (party : Party) (device : Principal) (timeout : Option Nat) :
    Stepped s (.begins (.poll device timeout)) (s.beginPoll party device timeout) none := by
  unfold beginPoll
  split
  · exact .of_kept (.refl _) trivial
  · have K := Coordinator.beginListing_kept s.pairing s.clock.now party device.id
      (timeout.getD (s.config.pairing.pollTimeout * 1000))
    dsimp only
    generalize s.pairing.beginListing .. = r at K ⊢
    obtain ⟨pairing, _ | outcome⟩ := r
    · exact .of_kept K fun _ => ⟨id, id⟩
    · exact .of_kept K (plain_listed _)

theorem endPoll_stepped {party : Party} {m : Move} (h : s.endPoll? party = some m) :
    Stepped s .lists m none := by
  unfold endPoll? at h
  obtain ⟨⟨pairing, outcome⟩, hr, rfl⟩ := Option.map_eq_some_iff.mp h
  exact .of_kept (Coordinator.resumeListing_kept hr) (plain_listed _)

theorem respond_stepped (device : Principal) (id : RequestId) (accept : Bool) :
    ∃ op, Stepped s (.begins (.respond device id accept)) (s.respond device id accept) op := by
  unfold respond
  split
  · exact ⟨_, .of_kept (.refl _) trivial⟩
  · split
    · split
      · exact ⟨_, .of_kept (.refl _) trivial⟩
      · rename_i hacc
        exact ⟨_, .of_plain (.accept hacc) (by simp) (by simp) fun _ => ⟨False.elim, False.elim⟩⟩
    · split
      · exact ⟨_, .of_kept (.refl _) trivial⟩
      · rename_i hrej
        exact ⟨_, .of_plain (.reject hrej) (by simp) (by simp) trivial⟩

theorem endAccept_stepped {id : RequestId} {m : Move} (h : s.endAccept? id = some m) :
    Stepped s (.records id) m none := by
  unfold endAccept? at h
  obtain ⟨result, -, rfl⟩ := Option.map_eq_some_iff.mp h
  exact .of_kept (.refl _) (plain_ofResult fun o => by cases result <;> simp [Except.map])

/-! ### The other calls -/

theorem ownerOf_stepped (device : Principal) :
    Stepped s (.begins (.owner device)) (s.ownerOf device) none := by
  unfold ownerOf
  split
  · exact .of_kept (.refl _) trivial
  · split <;> exact .of_kept (.refl _) trivial

theorem devicesOf_stepped (user : Principal) :
    Stepped s (.begins (.devices user)) (s.devicesOf user) none := by
  unfold devicesOf
  split
  · exact .of_kept (.refl _) trivial
  · split <;> exact .of_kept (.refl _) trivial

theorem beginUnpair_stepped (caller : Principal) (device : PrincipalId) :
    Stepped s (.begins (.unpair caller device)) (s.beginUnpair caller device) none := by
  unfold beginUnpair
  split
  · exact .of_kept (.refl _) trivial
  · exact .of_kept (.refl _) trivial
  · split
    · exact .of_kept (.refl _) fun _ => ⟨False.elim, False.elim⟩
    · exact .of_kept (.refl _) trivial

theorem removePairing_stepped (device : PrincipalId) :
    Stepped s (.removes device) (s.removePairing device) none := by
  unfold removePairing
  split <;> exact .of_kept (.refl _) trivial

theorem checkRates_pairing (sender : PrincipalId) :
    (s.checkRates sender).1.pairing = s.pairing ∧ (s.checkRates sender).1.store = s.store := by
  unfold checkRates
  split <;> exact ⟨rfl, rfl⟩

/-- A step of a call that publishes. -/
structure Publishing (s : Service) (m : Move) : Prop where
  pairing : m.service.pairing = s.pairing
  store : m.service.store = s.store
  next : ∀ next, m.progress = .goesOn next → next.publishes
  plain : Plain m.progress

theorem publishing_fail {s' : Service} (hp : s'.pairing = s.pairing) (hs : s'.store = s.store)
    (e : Error) : Publishing s (s'.fail e) := ⟨hp, hs, nofun, trivial⟩

theorem beginPublish_publishing (letter : Letter) : Publishing s (s.beginPublish letter) := by
  obtain ⟨hp, hs⟩ := checkRates_pairing (s := s) letter.sender
  unfold beginPublish
  split
  · rename_i h
    rw [h] at hp hs
    exact publishing_fail hp hs _
  · rename_i s' h
    rw [h] at hp hs
    have hnext : ∀ phase : Phase, phase.publishes → (∀ id, ¬ phase.wants id ∧ ¬ phase.awaitsFor id) →
        Publishing s ⟨s', .goesOn phase, none⟩ := fun phase h h' =>
      ⟨hp, hs, fun next hn => Progress.goesOn.inj hn ▸ h, h'⟩
    split
    · exact publishing_fail hp hs _
    · split
      · exact hnext _ trivial fun _ => ⟨id, id⟩
      · split
        · exact publishing_fail hp hs _
        · exact hnext _ trivial fun _ => ⟨id, id⟩

theorem compareOwners_publishing (letter : Letter) (senderOwner : Option PrincipalId) :
    Publishing s (s.compareOwners letter senderOwner) := by
  unfold compareOwners
  split
  · exact publishing_fail rfl rfl _
  · split
    · exact ⟨rfl, rfl, fun next hn => Progress.goesOn.inj hn ▸ trivial, fun _ => ⟨id, id⟩⟩
    · exact publishing_fail rfl rfl _

theorem enqueue_publishing (letter : Letter) : Publishing s (s.enqueue letter) := by
  unfold enqueue
  split
  · exact ⟨rfl, rfl, nofun, trivial⟩
  · exact ⟨rfl, rfl, nofun, trivial⟩

/-- A call that publishes goes on to publish, and touches neither requests nor pairings. -/
theorem step_publishes {party : Party} {phase : Phase} {m : Move} (hp : phase.publishes)
    (h : s.step? party phase = some m) : Publishing s m := by
  cases phase with
  | begins call =>
    cases call with
    | publish => rw [← Option.some.inj h]; exact beginPublish_publishing _
    | _ => exact hp.elim
  | compares => rw [← Option.some.inj h]; exact compareOwners_publishing _ _
  | queues => rw [← Option.some.inj h]; exact enqueue_publishing _
  | _ => exact hp.elim

theorem Publishing.stepped {phase : Phase} {m : Move} (h : Publishing s m) :
    Stepped s phase m none :=
  .of_plain (.keep (h.pairing ▸ .refl _)) (by simp) (by simp) h.plain

theorem runConsumer_stepped {party : Party} {m : Move} (h : s.runConsumer? party = some m) :
    Stepped s .consumes m none := by
  unfold runConsumer? at h
  obtain ⟨⟨relay, consumed?⟩, -, rfl⟩ := Option.map_eq_some_iff.mp h
  cases consumed? with
  | none => exact .of_kept (.refl _) fun _ => ⟨id, id⟩
  | some c => exact .of_kept (.refl _) (by cases c <;> trivial)

/-- **What a step of a call does to the requests.** A call that is yet to send a request
must bring a new identifier. -/
theorem stepped {party : Party} {phase : Phase} {m : Move} (S : s.pairing.Sound)
    (hw : ∀ id, phase.wants id → s.pairing.stage id = .unsent)
    (h : s.step? party phase = some m) : ∃ op, Stepped s phase m op := by
  cases phase with
  | begins call =>
    cases call with
    | pair id p device => rw [← Option.some.inj h]; exact ⟨_, beginPair_stepped id p device⟩
    | poll device timeout => rw [← Option.some.inj h]; exact ⟨_, beginPoll_stepped party device timeout⟩
    | respond device id accept => rw [← Option.some.inj h]; exact respond_stepped device id accept
    | owner device => rw [← Option.some.inj h]; exact ⟨_, ownerOf_stepped device⟩
    | devices user => rw [← Option.some.inj h]; exact ⟨_, devicesOf_stepped user⟩
    | unpair caller device => rw [← Option.some.inj h]; exact ⟨_, beginUnpair_stepped caller device⟩
    | publish => exact ⟨_, (step_publishes (by trivial) h).stepped⟩
    | consume =>
      rw [← Option.some.inj h]
      exact ⟨_, .of_kept (.refl _) fun _ => ⟨id, id⟩⟩
  | sends id p q =>
    rw [← Option.some.inj h]
    exact sendRequest_stepped ((S.unsent_iff id).mpr (hw id rfl))
  | awaits => exact endWait_stepped h
  | lists => exact ⟨_, endPoll_stepped h⟩
  | records => exact ⟨_, endAccept_stepped h⟩
  | removes device => rw [← Option.some.inj h]; exact ⟨_, removePairing_stepped device⟩
  | compares => exact ⟨_, (step_publishes (by trivial) h).stepped⟩
  | queues => exact ⟨_, (step_publishes (by trivial) h).stepped⟩
  | consumes => exact ⟨_, runConsumer_stepped h⟩

end Service
end DeviceRelay

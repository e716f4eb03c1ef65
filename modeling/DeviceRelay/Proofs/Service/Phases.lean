/-
# A call passes from phase to phase with what it learnt

A call sends a request once its device was found to be free. It records a pairing once its
device answered a live request that names it, and removes one once the owner that the store
told, or the device, was found to be its caller. A letter is queued once the owner of its
sender, told in one step, and that of its recipient, told in a later one, connect the two.
A call that ends or begins to wait leaves the pairings alone.

Key definitions: `Phase.waits`, `Service.Steady`, `Service.Passes`, `Service.Follows`.
Key theorems: `Service.passes_of_step?`, `Service.Passes.follows`.
-/
import DeviceRelay.Proofs.Pairing.Ownership
import DeviceRelay.Proofs.Service.Letters

namespace DeviceRelay

/-- Whether a call in a phase waits for others, and acts on nothing that it learnt. -/
def Phase.waits : Phase → Prop
  | .awaits .. | .lists | .consumes => True
  | _ => False

namespace Service

/-- A step that leaves the pairings and what is being recorded alone. -/
structure Steady (s : Service) (m : Move) : Prop where
  store : m.service.store = s.store
  writes : m.service.pairing.writes = s.pairing.writes

/-- A steady step with which a call ends or begins to wait. -/
structure Rests (s : Service) (m : Move) : Prop extends Steady s m where
  waits : ∀ next, m.progress = .goesOn next → next.waits

/-- From which phase a call makes a step, what it learns in it, and how it goes on. -/
inductive Passes (s : Service) (m : Move) : Phase → Prop where
  | rests (phase : Phase) (rests : Rests s m) : Passes s m phase
  /-- The device is free: a request is to be sent. -/
  | asks (id : RequestId) (requester target : Principal) (device : DeviceRef)
    (allowed : s.pairingTarget requester device = .ok target)
    (free : s.store.owner? target.id = none) (steady : Steady s m)
    (goes : m.progress = .goesOn (.sends id requester target)) :
    Passes s m (.begins (.pair id requester device))
  /-- The device claims a live request that names it. -/
  | claims (device : Principal) (id : RequestId) (request : PairingRequest)
    (live : s.pairing.get id = .ok request) (own : request.target.id = device.id) (due : Nat)
    (store : m.service.store = s.store)
    (writes : m.service.pairing.writes = s.pairing.writes ++ [⟨request, due, none⟩])
    (goes : m.progress = .goesOn (.records id)) : Passes s m (.begins (.respond device id true))
  /-- The caller owns the device, or is the device. -/
  | mayRemove (caller : Principal) (device owner : PrincipalId)
    (told : s.store.owner? device = some owner) (may : caller.id = owner ∨ caller.id = device)
    (steady : Steady s m) (goes : m.progress = .goesOn (.removes device)) :
    Passes s m (.begins (.unpair caller device))
  | removes (device : PrincipalId) (store : m.service.store = (s.store.remove device).1)
    (writes : m.service.pairing.writes = s.pairing.writes)
    (ends : ∀ next, m.progress ≠ .goesOn next) : Passes s m (.removes device)
  /-- The sender writes to itself. -/
  | toItself (call : Call) (letter : Letter) (carries : (Phase.begins call).letter? = some letter)
    (same : letter.sender = letter.recipient) (steady : Steady s m)
    (goes : m.progress = .goesOn (.queues letter)) : Passes s m (.begins call)
  /-- The store tells the owner of the sender. -/
  | learns (call : Call) (letter : Letter) (carries : (Phase.begins call).letter? = some letter)
    (steady : Steady s m)
    (goes : m.progress = .goesOn (.compares letter (s.store.owner? letter.sender))) :
    Passes s m (.begins call)
  /-- The store tells the owner of the recipient, and the two are connected. -/
  | connects (letter : Letter) (senderOwner : Option PrincipalId)
    (connected : Edges.connected letter.sender letter.recipient senderOwner
      (s.store.owner? letter.recipient) = true)
    (steady : Steady s m) (goes : m.progress = .goesOn (.queues letter)) :
    Passes s m (.compares letter senderOwner)

variable {s : Service}

theorem rests_ends {s' : Service} (hs : s'.store = s.store)
    (hw : s'.pairing.writes = s.pairing.writes) (ending : Ending) (b : Option Background) :
    Rests s ⟨s', .ends ending, b⟩ := ⟨⟨hs, hw⟩, nofun⟩

theorem rests_goesOn {s' : Service} (hs : s'.store = s.store)
    (hw : s'.pairing.writes = s.pairing.writes) {next : Phase} (hnext : next.waits)
    (b : Option Background) : Rests s ⟨s', .goesOn next, b⟩ :=
  ⟨⟨hs, hw⟩, fun _ hn => Progress.goesOn.inj hn ▸ hnext⟩

theorem rests_fail (e : Error) : Rests s (s.fail e) := rests_ends (by rfl) (by rfl) _ _

theorem rests_tell (a : Answer) : Rests s (s.tell a) := rests_ends (by rfl) (by rfl) _ _

/-! ### Calls about pairings -/

theorem pairingTarget_ok {requester target : Principal} {device : DeviceRef}
    (h : s.pairingTarget requester device = .ok target) : requester.isDevice = false ∧
      device.find? s.directory = some target ∧ target.isDevice = true := by
  unfold pairingTarget at h
  split at h
  · cases h
  · rename_i huser
    split at h
    · cases h
    · rename_i hfind
      split at h
      · rename_i hdevice
        obtain rfl := Except.ok.inj h
        exact ⟨by simpa using huser, hfind, hdevice⟩
      · cases h

theorem beginPair_passes (id : RequestId) (requester : Principal) (device : DeviceRef) :
    Passes s (s.beginPair id requester device) (.begins (.pair id requester device)) := by
  unfold beginPair
  split
  · exact .rests _ (rests_fail _)
  · rename_i target htarget
    split
    · exact .rests _ (rests_fail _)
    · exact .rests _ (rests_fail _)
    · rename_i hread
      have hfree : s.store.owner? target.id = none := PairingStore.read_ok hread
      exact .asks id requester target device htarget hfree ⟨rfl, rfl⟩ rfl

theorem sendRequest_rests (id : RequestId) (requester target : Principal) :
    Rests s (s.sendRequest id requester target) := by
  unfold sendRequest
  split
  · exact rests_fail _
  · rename_i hsend
    obtain ⟨-, -, hpairing⟩ := Coordinator.send_ok hsend
    exact rests_goesOn (by rfl) (by rw [hpairing]) (by trivial) _

theorem conclude_rests {s' : Service} (hs : s'.store = s.store)
    (hw : s'.pairing.writes = s.pairing.writes) (id : RequestId) (device : PrincipalId)
    (state : PairingState) : Rests s (s'.conclude id device state) := by
  unfold conclude
  split
  · exact rests_ends hs hw _ _
  · split <;> exact rests_ends (by exact hs) (by exact hw) _ _

theorem endWait_rests {id : RequestId} {device : PrincipalId} {due : Nat} {m : Move}
    (h : s.endWait? id device due = some m) : Rests s m := by
  unfold endWait? at h
  split at h
  · split at h
    · split at h <;> rename_i hreject <;> obtain rfl := Option.some.inj h
      · have hpairing := (Coordinator.reject_ok hreject).2
        exact conclude_rests (by rfl) (by rw [hpairing]) _ _ _
      · exact conclude_rests (by rfl) (by rfl) _ _ _
    · cases h
  · obtain rfl := Option.some.inj h
    exact conclude_rests (by rfl) (by rfl) _ _ _

theorem beginPoll_rests (party : Party) (device : Principal) (timeout : Option Nat) :
    Rests s (s.beginPoll party device timeout) := by
  have K := Coordinator.beginListing_kept s.pairing s.clock.now party device.id
    (timeout.getD (s.config.pairing.pollTimeout * 1000))
  unfold beginPoll
  split
  · exact rests_fail _
  · dsimp only
    split
    · exact rests_ends (by rfl) (by exact K.writes) _ _
    · exact rests_goesOn (by rfl) (by exact K.writes) (by trivial) _

theorem endPoll_rests {party : Party} {m : Move} (h : s.endPoll? party = some m) : Rests s m := by
  obtain ⟨⟨pairing, outcome⟩, hresume, rfl⟩ := Option.map_eq_some_iff.mp h
  exact rests_ends (by rfl) (by exact (Coordinator.resumeListing_kept hresume).writes) _ _

theorem answerable_ok {device : Principal} {id : RequestId} {request : PairingRequest}
    (h : s.answerable device id = .ok request) :
    s.pairing.get id = .ok request ∧ request.target.id = device.id := by
  unfold answerable at h
  split at h
  · cases h
  · rename_i hget
    split at h
    · rename_i hown
      obtain rfl := Except.ok.inj h
      exact ⟨hget, hown⟩
    · cases h

theorem respond_passes (device : Principal) (id : RequestId) (accept : Bool) :
    Passes s (s.respond device id accept) (.begins (.respond device id accept)) := by
  unfold respond
  split
  · exact .rests _ (rests_fail _)
  · rename_i request hanswerable
    obtain ⟨hlive, hown⟩ := answerable_ok hanswerable
    split
    · rename_i haccept
      subst haccept
      split
      · exact .rests _ (rests_fail _)
      · rename_i haccepted
        obtain ⟨request', hget, rfl⟩ := Coordinator.beginAccept_ok haccepted
        have hget' : s.pairing.get id = .ok request' := by
          unfold Coordinator.get
          rw [hget]
        obtain rfl : request' = request := Except.ok.inj (hget'.symm.trans hlive)
        exact .claims device id request' hlive hown _ rfl rfl rfl
    · split
      · exact .rests _ (rests_fail _)
      · rename_i hrejected
        have hpairing := (Coordinator.reject_ok hrejected).2
        exact .rests _ (rests_ends (by rfl) (by rw [hpairing]) _ _)

theorem endAccept_rests {id : RequestId} {m : Move} (h : s.endAccept? id = some m) : Rests s m := by
  obtain ⟨_, -, rfl⟩ := Option.map_eq_some_iff.mp h
  exact rests_ends (by rfl) (by rfl) _ _

theorem ownerOf_rests (device : Principal) : Rests s (s.ownerOf device) := by
  unfold ownerOf
  split
  · exact rests_fail _
  · split
    · exact rests_fail _
    · exact rests_tell _

theorem devicesOf_rests (user : Principal) : Rests s (s.devicesOf user) := by
  unfold devicesOf
  split
  · exact rests_fail _
  · split
    · exact rests_fail _
    · exact rests_tell _

theorem beginUnpair_passes (caller : Principal) (device : PrincipalId) :
    Passes s (s.beginUnpair caller device) (.begins (.unpair caller device)) := by
  unfold beginUnpair
  split
  · exact .rests _ (rests_fail _)
  · exact .rests _ (rests_fail _)
  · rename_i owner hread
    split
    · rename_i hmay
      exact .mayRemove caller device owner (PairingStore.read_ok hread) hmay ⟨rfl, rfl⟩ rfl
    · exact .rests _ (rests_fail _)

theorem removePairing_passes (device : PrincipalId) :
    Passes s (s.removePairing device) (.removes device) := by
  unfold removePairing
  split <;> rename_i hremove <;> exact .removes device (by rw [hremove]; rfl) rfl nofun

/-! ### Calls about messages -/

theorem beginPublish_passes {call : Call} {letter : Letter}
    (carries : (Phase.begins call).letter? = some letter) :
    Passes s (s.beginPublish letter) (.begins call) := by
  obtain ⟨hpairing, hstore⟩ := checkRates_pairing (s := s) letter.sender
  unfold beginPublish
  split
  · rename_i h
    rw [h] at hpairing hstore
    exact .rests _ (rests_ends hstore (by rw [hpairing]) _ _)
  · rename_i s' h
    rw [h] at hpairing hstore
    have hsteady (next : Phase) : Steady s ⟨s', .goesOn next, none⟩ :=
      ⟨hstore, congrArg Coordinator.writes hpairing⟩
    have hfail (e : Error) : Rests s (s'.fail e) :=
      rests_ends hstore (congrArg Coordinator.writes hpairing) _ _
    split
    · exact .rests _ (hfail _)
    · split
      · rename_i hsame
        exact .toItself call letter carries hsame (hsteady _) rfl
      · split
        · exact .rests _ (hfail _)
        · rename_i owner? hread
          obtain rfl := PairingStore.read_ok hread
          refine .learns call letter carries (hsteady _) ?_
          rw [PairingStore.owner?, ← hstore]

theorem compareOwners_passes (letter : Letter) (senderOwner : Option PrincipalId) :
    Passes s (s.compareOwners letter senderOwner) (.compares letter senderOwner) := by
  unfold compareOwners
  split
  · exact .rests _ (rests_fail _)
  · rename_i recipientOwner hread
    obtain rfl := PairingStore.read_ok hread
    split
    · rename_i hconnected
      exact .connects letter senderOwner hconnected ⟨rfl, rfl⟩ rfl
    · exact .rests _ (rests_fail _)

theorem enqueue_rests (letter : Letter) : Rests s (s.enqueue letter) := by
  unfold enqueue
  split <;> exact rests_ends (by rfl) (by rfl) _ _

theorem runConsumer_rests {party : Party} {m : Move} (h : s.runConsumer? party = some m) :
    Rests s m := by
  obtain ⟨⟨relay, consumed?⟩, -, rfl⟩ := Option.map_eq_some_iff.mp h
  cases consumed? with
  | none => exact rests_goesOn (by rfl) (by rfl) (by trivial) _
  | some c => exact rests_ends (by rfl) (by rfl) _ _

/-! ### All calls -/

/-- **All that a step of a call learns of the pairings and does to them.** -/
theorem passes_of_step? {party : Party} {phase : Phase} {m : Move}
    (h : s.step? party phase = some m) : Passes s m phase := by
  cases phase with
  | begins call =>
    obtain rfl := Option.some.inj h
    cases call with
    | pair id requester device => exact beginPair_passes id requester device
    | poll device timeout => exact .rests _ (beginPoll_rests party device timeout)
    | respond device id accept => exact respond_passes device id accept
    | owner device => exact .rests _ (ownerOf_rests device)
    | devices user => exact .rests _ (devicesOf_rests user)
    | unpair caller device => exact beginUnpair_passes caller device
    | publish sender recipient kind correlationId data => exact beginPublish_passes rfl
    | consume recipient timeout => exact .rests _ (rests_goesOn (by rfl) (by rfl) (by trivial) _)
  | sends id requester target =>
    obtain rfl := Option.some.inj h
    exact .rests _ (sendRequest_rests id requester target)
  | awaits id device due => exact .rests _ (endWait_rests h)
  | lists => exact .rests _ (endPoll_rests h)
  | records id => exact .rests _ (endAccept_rests h)
  | removes device =>
    obtain rfl := Option.some.inj h
    exact removePairing_passes device
  | compares letter senderOwner =>
    obtain rfl := Option.some.inj h
    exact compareOwners_passes letter senderOwner
  | queues letter =>
    obtain rfl := Option.some.inj h
    exact .rests _ (enqueue_rests letter)
  | consumes => exact .rests _ (runConsumer_rests h)

/-- Which phase follows on which, and what a call learnt when it passed from one to the next. -/
inductive Follows (s : Service) : Phase → Phase → Prop where
  | waits (previous next : Phase) (waits : next.waits) : Follows s previous next
  | asks (id : RequestId) (requester target : Principal) (device : DeviceRef)
    (allowed : s.pairingTarget requester device = .ok target)
    (free : s.store.owner? target.id = none) :
    Follows s (.begins (.pair id requester device)) (.sends id requester target)
  | claims (device : Principal) (id : RequestId) (request : PairingRequest)
    (live : s.pairing.get id = .ok request) (own : request.target.id = device.id) :
    Follows s (.begins (.respond device id true)) (.records id)
  | mayRemove (caller : Principal) (device owner : PrincipalId)
    (told : s.store.owner? device = some owner) (may : caller.id = owner ∨ caller.id = device) :
    Follows s (.begins (.unpair caller device)) (.removes device)
  | toItself (call : Call) (letter : Letter) (carries : (Phase.begins call).letter? = some letter)
    (same : letter.sender = letter.recipient) : Follows s (.begins call) (.queues letter)
  | learns (call : Call) (letter : Letter) (carries : (Phase.begins call).letter? = some letter) :
    Follows s (.begins call) (.compares letter (s.store.owner? letter.sender))
  | connects (letter : Letter) (senderOwner : Option PrincipalId)
    (connected : Edges.connected letter.sender letter.recipient senderOwner
      (s.store.owner? letter.recipient) = true) :
    Follows s (.compares letter senderOwner) (.queues letter)

/-- A call that goes on goes on to a phase that follows. -/
theorem Passes.follows {m : Move} {previous next : Phase} (h : Passes s m previous)
    (hnext : m.progress = .goesOn next) : Follows s previous next := by
  cases h with
  | rests _ rests => exact .waits previous next (rests.waits next hnext)
  | removes _ _ _ ends => exact absurd hnext (ends next)
  | asks id requester target device allowed free _ goes =>
    obtain rfl := Progress.goesOn.inj (hnext.symm.trans goes)
    exact .asks id requester target device allowed free
  | claims device id request live own _ _ _ goes =>
    obtain rfl := Progress.goesOn.inj (hnext.symm.trans goes)
    exact .claims device id request live own
  | mayRemove caller device owner told may _ goes =>
    obtain rfl := Progress.goesOn.inj (hnext.symm.trans goes)
    exact .mayRemove caller device owner told may
  | toItself call letter carries same _ goes =>
    obtain rfl := Progress.goesOn.inj (hnext.symm.trans goes)
    exact .toItself call letter carries same
  | learns call letter carries _ goes =>
    obtain rfl := Progress.goesOn.inj (hnext.symm.trans goes)
    exact .learns call letter carries
  | connects letter senderOwner connected _ goes =>
    obtain rfl := Progress.goesOn.inj (hnext.symm.trans goes)
    exact .connects letter senderOwner connected

end Service
end DeviceRelay

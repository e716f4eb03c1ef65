/-
# Pairing calls

A user asks to own a device and waits for its answer. Whoever waits in vain rejects
the request itself, unless the device already answered. A device asks for its
requests and answers them. The owner of a device and the device itself may end the
pairing.

Key definitions: `Service.beginPair`, `Service.sendRequest`, `Service.endWait?`,
`Service.beginPoll`, `Service.respond`, `Service.ownerOf`, `Service.devicesOf`,
`Service.beginUnpair`, `Service.removePairing`.
-/
import DeviceRelay.Service

namespace DeviceRelay
namespace Service

/-- The call fails and changes nothing. -/
def fail (s : Service) (e : Error) : Move := ⟨s, .ends (.failed e), none⟩

/-- The call is answered and changes nothing. -/
def tell (s : Service) (a : Answer) : Move := ⟨s, .ends (.answered a), none⟩

/-! ### Asking to own a device -/

/-- The device that a user asks for. -/
def pairingTarget (s : Service) (requester : Principal) (device : DeviceRef) :
    Except Error Principal :=
  if requester.isDevice then .error (.forbidden "devices cannot request pairing")
  else
    match device.find? s.directory with
    | none => .error (.notFound device.text)
    | some target =>
      if target.isDevice then .ok target
      else .error (.invalidPairingTarget s!"{target.username} is not a device")

/-- Checks the roles, and that the device has no owner. -/
def beginPair (s : Service) (id : RequestId) (requester : Principal) (device : DeviceRef) : Move :=
  match s.pairingTarget requester device with
  | .error e => s.fail e
  | .ok target =>
    match s.store.read fun edges => edges.owner? target.id with
    | .error e => s.fail e
    | .ok (some _) => s.fail (.alreadyPaired target.id)
    | .ok none => ⟨s, .goesOn (.sends id requester target), none⟩

/-- Sends the request, which is counted, and begins to wait. -/
def sendRequest (s : Service) (id : RequestId) (requester target : Principal) : Move :=
  match s.pairing.send s.clock id requester target with
  | .error e => s.fail e
  | .ok (pairing, _) =>
    let due := timerDue s.clock.now (s.config.pairing.responseWait * 1000)
    { service :=
        { s with pairing, metrics := { s.metrics with pairRequests := s.metrics.pairRequests + 1 } }
      progress := .goesOn (.awaits id target.id due)
      started := some (.timer id) }

/-- What the requester learns once its request has the given state. -/
def conclude (s : Service) (id : RequestId) (device : PrincipalId) (state : PairingState) : Move :=
  if state = .rejected ∧ s.pairing.isShutDown then s.fail .cancelled
  else
    let s :=
      if state = .accepted then
        { s with metrics := { s.metrics with pairings := s.metrics.pairings + 1 } }
      else s
    s.tell (.outcome ⟨id, device, state⟩)

/-- Ends the requester's wait, if the request is settled or the wait is over. A request
that is still pending is rejected, unless it was claimed. -/
def endWait? (s : Service) (id : RequestId) (device : PrincipalId) (due : Nat) : Option Move :=
  match s.pairing.stateOf id with
  | .pending =>
    if due ≤ s.clock.now then
      match s.pairing.reject id with
      | .ok (pairing, _) =>
        let s := { s with pairing }
        some (s.conclude id device (s.pairing.stateOf id))
      | .error _ => some (s.conclude id device .pending)
    else none
  | state => some (s.conclude id device state)

/-! ### Answering a request -/

def listed (s : Service) (outcome : Outcome (List PairingRequest)) : Ending :=
  .ofResult ((Coordinator.listed outcome).map fun requests =>
    .requests (requests.map s.pairing.sight))

/-- Begins to list the requests for a device. -/
def beginPoll (s : Service) (party : Party) (device : Principal) (timeout : Option Nat) : Move :=
  if !device.isDevice then s.fail (.forbidden "only devices receive pairing requests")
  else
    let timeout := timeout.getD (s.config.pairing.pollTimeout * 1000)
    let (pairing, outcome?) := s.pairing.beginListing s.clock.now party device.id timeout
    let s := { s with pairing }
    match outcome? with
    | some outcome => ⟨s, .ends (s.listed outcome), none⟩
    | none => ⟨s, .goesOn .lists, none⟩

/-- Lets a listing return, if it can. -/
def endPoll? (s : Service) (party : Party) : Option Move :=
  (s.pairing.resumeListing? s.clock.now party).map fun (pairing, outcome) =>
    let s := { s with pairing }
    ⟨s, .ends (s.listed outcome), none⟩

/-- The request that a device may answer. -/
def answerable (s : Service) (device : Principal) (id : RequestId) : Except Error PairingRequest :=
  match s.pairing.get id with
  | .error e => .error e
  | .ok request =>
    if request.target.id = device.id then .ok request
    else .error (.forbidden "only the target device may respond to a pairing request")

/-- Rejects a request, or claims it and begins to record its pairing. -/
def respond (s : Service) (device : Principal) (id : RequestId) (accept : Bool) : Move :=
  match s.answerable device id with
  | .error e => s.fail e
  | .ok _ =>
    if accept then
      match s.pairing.beginAccept s.store s.clock.now id with
      | .error e => s.fail e
      | .ok pairing => ⟨{ s with pairing }, .goesOn (.records id), some (.write id)⟩
    else
      match s.pairing.reject id with
      | .error e => s.fail e
      | .ok (pairing, request) =>
        let s := { s with pairing }
        s.tell (.request (s.pairing.sight request))

/-- Ends an accept, once the pairing was recorded or not. -/
def endAccept? (s : Service) (id : RequestId) : Option Move :=
  (s.pairing.accepted? id).map fun result =>
    ⟨s, .ends (.ofResult (result.map fun request => .request (s.pairing.sight request))), none⟩

/-! ### Pairings -/

/-- The owner of a device, if it is known. -/
def ownerOf (s : Service) (device : Principal) : Move :=
  if !device.isDevice then s.fail (.forbidden "only devices have owners")
  else
    match s.store.read fun edges => edges.owner? device.id with
    | .error e => s.fail e
    | .ok owner? => s.tell (.owner (owner?.bind s.directory.lookup?))

/-- The devices of a user that are known. -/
def devicesOf (s : Service) (user : Principal) : Move :=
  if user.isDevice then s.fail (.forbidden "devices do not own devices")
  else
    match s.store.read fun edges => edges.devices user.id with
    | .error e => s.fail e
    | .ok ids => s.tell (.devices (ids.filterMap s.directory.lookup?))

/-- Checks that the caller may end the pairing of a device. -/
def beginUnpair (s : Service) (caller : Principal) (device : PrincipalId) : Move :=
  match s.store.read fun edges => edges.owner? device with
  | .error e => s.fail e
  | .ok none => s.fail (.notFound s!"pairing for device {device}")
  | .ok (some owner) =>
    if caller.id = owner ∨ caller.id = device then ⟨s, .goesOn (.removes device), none⟩
    else s.fail (.forbidden "not the owner of this device")

/-- Removes the pairing of a device. -/
def removePairing (s : Service) (device : PrincipalId) : Move :=
  match s.store.remove device with
  | (store, .ok _) => { s with store }.tell .done
  | (store, .error e) => { s with store }.fail e

end Service
end DeviceRelay

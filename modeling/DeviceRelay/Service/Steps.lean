/-
# The steps of a call

A call is a sequence of steps, and the steps of other calls come in between. Each
step uses the store at most once.

Key definitions: `Service.begin`, `Service.step?`, `Service.abandon`,
`Service.runBackground?`, `Service.nextDue?`.
-/
import DeviceRelay.Service.Messages

namespace DeviceRelay
namespace Service

/-- The first step of a call. -/
def begin (s : Service) (party : Party) : Call → Move
  | .pair id requester device => s.beginPair id requester device
  | .poll device timeout => s.beginPoll party device timeout
  | .respond device id accept => s.respond device id accept
  | .owner device => s.ownerOf device
  | .devices user => s.devicesOf user
  | .unpair caller device => s.beginUnpair caller device
  | .publish sender recipient kind correlationId data =>
    s.beginPublish ⟨sender.id, recipient, kind, correlationId, data⟩
  | .consume recipient timeout => s.beginConsume party recipient timeout

/-- The next step of a call, if it need not wait. -/
def step? (s : Service) (party : Party) : Phase → Option Move
  | .begins call => some (s.begin party call)
  | .sends id requester target => some (s.sendRequest id requester target)
  | .awaits id device due => s.endWait? id device due
  | .lists => s.endPoll? party
  | .records id => s.endAccept? id
  | .removes device => some (s.removePairing device)
  | .compares letter senderOwner => some (s.compareOwners letter senderOwner)
  | .queues letter => some (s.enqueue letter)
  | .consumes => s.runConsumer? party

/-- Drops a call. What it began goes on. -/
def abandon (s : Service) (party : Party) : Service :=
  { s with pairing := s.pairing.abandon party, relay := s.relay.abandon party }

/-- Lets a timer fire or a recording end, if it can. -/
def runBackground? (s : Service) : Background → Option Service
  | .timer id => (s.pairing.expire? s.clock.now id).map fun pairing => { s with pairing }
  | .write id =>
    (s.pairing.endWrite? s.store s.clock.now id).map fun (pairing, store) =>
      { s with pairing, store }

/-- When something falls due that is not a matter of one call. -/
def nextDue? (s : Service) : Option Nat :=
  (s.pairing.nextDue?.toList ++ s.relay.nextDue?.toList).min?

end Service
end DeviceRelay

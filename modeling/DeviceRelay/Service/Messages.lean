/-
# Publishing and consuming

A message is queued for its recipient if the rate limits allow it, if the recipient
is known, and if both are in one network. The first of these that fails decides, and
then nothing is queued.

Key definitions: `Service.beginPublish`, `Service.compareOwners`, `Service.enqueue`,
`Service.beginConsume`, `Service.runConsumer?`.
-/
import DeviceRelay.Service.Pairing

namespace DeviceRelay
namespace Service

/-- Takes a cell from each bucket. A refusal is counted. -/
def checkRates (s : Service) (sender : PrincipalId) : Service × Except Error Unit :=
  match s.limits.takeCells sender with
  | (limits, .ok ()) => ({ s with limits }, .ok ())
  | (limits, .error e) =>
    ({ s with limits, metrics := { s.metrics with rateLimitHits := s.metrics.rateLimitHits + 1 } },
      .error (.rateLimited e.message))

/-- Checks the rates and the recipient, and reads the owner of the sender. Nobody
leaves the network by writing to itself. -/
def beginPublish (s : Service) (letter : Letter) : Move :=
  match s.checkRates letter.sender with
  | (s, .error e) => s.fail e
  | (s, .ok ()) =>
    if (s.directory.lookup? letter.recipient).isNone then
      s.fail (.notFound s!"principal {letter.recipient}")
    else if letter.sender = letter.recipient then ⟨s, .goesOn (.queues letter), none⟩
    else
      match s.store.read fun edges => edges.owner? letter.sender with
      | .error e => s.fail e
      | .ok owner? => ⟨s, .goesOn (.compares letter owner?), none⟩

/-- Reads the owner of the recipient, and checks that both are in one network. -/
def compareOwners (s : Service) (letter : Letter) (senderOwner : Option PrincipalId) : Move :=
  match s.store.read fun edges => edges.owner? letter.recipient with
  | .error e => s.fail e
  | .ok recipientOwner =>
    if Edges.connected letter.sender letter.recipient senderOwner recipientOwner then
      ⟨s, .goesOn (.queues letter), none⟩
    else s.fail .crossNetwork

/-- Queues the message, which is counted. -/
def enqueue (s : Service) (letter : Letter) : Move :=
  match s.relay.publish letter.recipient (letter.message s.clock.wall) with
  | (relay, .error cause) => { s with relay }.fail (.storage cause)
  | (relay, .ok _) =>
    { s with relay, metrics := { s.metrics with published := s.metrics.published + 1 } }.tell .done

/-- Begins to consume. -/
def beginConsume (s : Service) (party : Party) (recipient : PrincipalId) (timeout : Nat) : Move :=
  ⟨{ s with relay := s.relay.begin party recipient timeout false }, .goesOn .consumes, none⟩

def consumed : Consumed → Ending
  | .message m => .answered (.message (some m))
  | .nothing => .answered (.message none)
  | .undecodable => .failed (.storage (.encoding .unpacking))
  | .failed cause => .failed (.storage cause)
  | .beyondClock => .brokenOff

/-- Lets a consumer run, if it has something to do. -/
def runConsumer? (s : Service) (party : Party) : Option Move :=
  (s.relay.run? s.clock.now party).map fun (relay, consumed?) =>
    match consumed? with
    | none => ⟨{ s with relay }, .goesOn .consumes, none⟩
    | some c => ⟨{ s with relay }, .ends (consumed c), none⟩

end Service
end DeviceRelay

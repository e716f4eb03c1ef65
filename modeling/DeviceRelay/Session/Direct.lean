/-
# A connection within one process

Two ends exchange texts in order. The peer may also make a receive fail, hang up,
which ends its sending once what it sent was received, leave altogether, or turn the
flag that tells whether the connection is live. Closing notes a code and a reason.

Key definitions: `DirectLink`, `DirectLink.receive?`, `DirectLink.send`,
`DirectLink.close`, `DirectLink.PeerEvent`, `DirectLink.onPeer`.
-/
import DeviceRelay.Session.Transport

namespace DeviceRelay

/-- The two ways of a connection. -/
structure DirectLink where
  /-- What the peer sent and the server did not receive yet. -/
  toServer : List (Except TransportError String) := []
  /-- What the server sent and the peer did not receive yet. -/
  toPeer : List String := []
  /-- Whether the peer sends no more. -/
  hungUp : Bool := false
  /-- Whether the peer receives no more. -/
  left : Bool := false
  live : Bool := true
  closed : Option (Nat × String) := none

namespace DirectLink

/-- The next text or failure, unless there is a need to wait. A peer that sends no more
is gone once all was received. -/
def receive? (link : DirectLink) : Option (DirectLink × Except TransportError String) :=
  match link.toServer with
  | event :: rest => some ({ link with toServer := rest }, event)
  | [] => if link.hungUp then some ({ link with live := false }, .error .disconnected) else none

/-- Sends a text to the peer, unless it left. -/
def send (link : DirectLink) (text : String) : DirectLink × Except TransportError Unit :=
  if link.left then (link, .error .disconnected)
  else ({ link with toPeer := link.toPeer ++ [text] }, .ok ())

/-- Closes the connection. -/
def close (link : DirectLink) (code : Nat) (reason : String) : DirectLink :=
  { link with live := false, closed := some (code, reason) }

/-- What the peer does. -/
inductive PeerEvent where
  | text (s : String)
  /-- The next receive fails. -/
  | failure (e : TransportError)
  | hangUp
  | setLive (live : Bool)
  | leave

/-- The connection after the peer did something. -/
def onPeer (link : DirectLink) : PeerEvent → DirectLink
  | .text s => if link.hungUp then link else { link with toServer := link.toServer ++ [.ok s] }
  | .failure e =>
    if link.hungUp then link else { link with toServer := link.toServer ++ [.error e] }
  | .hangUp => { link with hungUp := true }
  | .setLive live => if link.left then link else { link with live }
  | .leave => { link with hungUp := true, left := true }

/-- The code and reason that the peer sees once the connection was closed. One that left
sees nothing. -/
def closeSeen? (link : DirectLink) : Option (Nat × String) :=
  if link.left then none else link.closed

/-- Takes the next text that the peer receives. -/
def peerReceive? (link : DirectLink) : Option (DirectLink × String) :=
  match link.toPeer with
  | [] => none
  | text :: rest => some ({ link with toPeer := rest }, text)

end DirectLink
end DeviceRelay

/-
# A connection over a WebSocket

The peer sends texts, bytes and pings. Bytes are a text if they are valid, and a
frame that is no text otherwise. A ping is answered when it is received, and shows
nothing else. Once the peer has closed the connection or it was cut, what was sent
before is still received, and nothing can be sent any more.

Key definitions: `WebSocket`, `WebSocket.receive?`, `WebSocket.send`,
`WebSocket.close`, `WebSocket.PeerEvent`, `WebSocket.onPeer`.
-/
import DeviceRelay.Session.Transport
import DeviceRelay.Text.Utf8

namespace DeviceRelay

/-- A message of the peer. -/
inductive SocketMessage where
  | text (s : String)
  | binary (bytes : List UInt8)
  | ping (bytes : List UInt8)
  | pong (bytes : List UInt8)
  deriving DecidableEq, Repr

/-- A frame to the peer. -/
inductive SocketFrame where
  | text (s : String)
  | pong (bytes : List UInt8)
  | close (code : Nat) (reason : String)
  deriving DecidableEq, Repr

/-- Where the peer stands. -/
inductive PeerState where
  | connected
  /-- It closed the connection. -/
  | closed
  /-- The connection was cut. -/
  | cut
  deriving DecidableEq, Repr

/-- A WebSocket, seen from the server. -/
structure WebSocket where
  toServer : List SocketMessage := []
  toPeer : List SocketFrame := []
  peer : PeerState := .connected
  live : Bool := true
  closed : Option (Nat × String) := none

namespace WebSocket

def textOfBinary (bytes : List UInt8) : Except TransportError String :=
  match Utf8.decode bytes with
  | .ok text => .ok (String.ofList text)
  | .error fault => .error (.malformedFrame ("binary frame is not UTF-8: " ++ fault.message))

/-- What a peer that will send no more shows at the end. -/
def ending? : PeerState → Option TransportError
  | .connected => none
  | .closed => some .disconnected
  | .cut =>
    some (.receiveFailed
      "WebSocket protocol error: Connection reset without closing handshake")

/-- Takes the next message, unless there is a need to wait. A ping or pong takes no
more than an answer. -/
def receive? (ws : WebSocket) : Option (WebSocket × Option (Except TransportError String)) :=
  match ws.toServer with
  | .text s :: rest => some ({ ws with toServer := rest }, some (.ok s))
  | .binary bytes :: rest => some ({ ws with toServer := rest }, some (textOfBinary bytes))
  | .ping bytes :: rest =>
    let toPeer := if ws.peer = .connected then ws.toPeer ++ [.pong bytes] else ws.toPeer
    some ({ ws with toServer := rest, toPeer }, none)
  | .pong _ :: rest => some ({ ws with toServer := rest }, none)
  | [] => (ending? ws.peer).map fun e => ({ ws with live := false }, some (.error e))

/-- Sends a text to the peer, if it is connected. -/
def send (ws : WebSocket) (text : String) : WebSocket × Except TransportError Unit :=
  if ws.peer = .connected then ({ ws with toPeer := ws.toPeer ++ [.text text] }, .ok ())
  else
    ({ ws with live := false },
      .error (.sendFailed "WebSocket protocol error: Sending after closing is not allowed"))

/-- Closes the connection. -/
def close (ws : WebSocket) (code : Nat) (reason : String) : WebSocket :=
  let toPeer := if ws.peer = .connected then ws.toPeer ++ [.close code reason] else ws.toPeer
  { ws with live := false, closed := some (code, reason), toPeer }

/-- What the peer does. -/
inductive PeerEvent where
  | message (m : SocketMessage)
  | close
  | cut

/-- The connection after the peer did something. -/
def onPeer (ws : WebSocket) : PeerEvent → WebSocket
  | .message m => if ws.peer = .connected then { ws with toServer := ws.toServer ++ [m] } else ws
  | .close => if ws.peer = .connected then { ws with peer := .closed } else ws
  | .cut => if ws.peer = .connected then { ws with peer := .cut } else ws

end WebSocket
end DeviceRelay

/-
# The connection of a session

A session talks to its peer over a connection of either kind in the same way.

Key definitions: `Connection`, `Connection.receive?`, `Connection.send`,
`Connection.close`, `Connection.isLive`, `PeerEvent`, `Connection.onPeer`.
-/
import DeviceRelay.Session.Direct
import DeviceRelay.Session.WebSocket

namespace DeviceRelay

def closeNormal : Nat := 1000

/-- A connection to a peer. -/
inductive Connection where
  | direct (link : DirectLink)
  | webSocket (ws : WebSocket)

/-- What the peer of a connection does. -/
inductive PeerEvent where
  | direct (event : DirectLink.PeerEvent)
  | webSocket (event : WebSocket.PeerEvent)

namespace Connection

/-- Takes the next event, unless there is a need to wait. Some events show nothing. -/
def receive? : Connection → Option (Connection × Option (Except TransportError String))
  | .direct link => link.receive?.map fun (link, event) => (.direct link, some event)
  | .webSocket ws => ws.receive?.map fun (ws, event?) => (.webSocket ws, event?)

/-- Sends a text to the peer. -/
def send : Connection → String → Connection × Except TransportError Unit
  | .direct link, text => let (link, result) := link.send text; (.direct link, result)
  | .webSocket ws, text => let (ws, result) := ws.send text; (.webSocket ws, result)

/-- Closes the connection. -/
def close (code : Nat) (reason : String) : Connection → Connection
  | .direct link => .direct (link.close code reason)
  | .webSocket ws => .webSocket (ws.close code reason)

/-- Whether the connection can be used. -/
def isLive : Connection → Bool
  | .direct link => link.live
  | .webSocket ws => ws.live

/-- The code and reason with which the server closed the connection. -/
def closed? : Connection → Option (Nat × String)
  | .direct link => link.closed
  | .webSocket ws => ws.closed

/-- Whether what the peer sends may still be received. -/
def peerCanSend : Connection → Bool
  | .direct link => !link.hungUp
  | .webSocket ws => ws.peer = .connected && ws.closed.isNone

/-- The connection if it is one within the process. -/
def link? : Connection → Option DirectLink
  | .direct link => some link
  | .webSocket _ => none

/-- All that was sent to the peer, from the first frame on. -/
def sent : Connection → List SocketFrame
  | .direct link => link.toPeer.map .text
  | .webSocket ws => ws.toPeer

/-- The connection after its peer did something. -/
def onPeer : Connection → PeerEvent → Connection
  | .direct link, .direct event => .direct (link.onPeer event)
  | .webSocket ws, .webSocket event => .webSocket (ws.onPeer event)
  | connection, _ => connection

end Connection
end DeviceRelay

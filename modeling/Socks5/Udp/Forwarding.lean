import Socks5.Log
import Socks5.Udp.Endpoint

/-!
# Forwarding datagrams

What a relay does with each datagram: one from the client loses its header and goes to the target
that the header names, any other goes to the client behind a header that names where it came from.
-/

namespace Socks5

namespace Forwarding

/-- Why a datagram goes nowhere. -/
inductive Drop where
  | unreadable (source : SocketAddr) (failure : Failure)
  | byName (source : SocketAddr) (target : Target)
  | clientUnknown (source : SocketAddr)
deriving DecidableEq

/-- What is done with a datagram. -/
inductive Action where
  | toTarget (source target : SocketAddr) (payload : Bytes)
  | toClient (source client : SocketAddr) (payload packet : Bytes)
  | drop (reason : Drop)
deriving DecidableEq

/-- The datagram that an action sends, and where to. -/
def Action.sent? : Action → Option (SocketAddr × Bytes)
  | .toTarget _ target payload => some (target, payload)
  | .toClient _ client _ packet => some (client, packet)
  | .drop _ => none

/-- What is done with a datagram of the client. Targets given by name are not looked up. -/
def outward (source : SocketAddr) (datagram : Bytes) : Action :=
  match Datagram.decapsulate datagram with
  | .error e => .drop (.unreadable source e)
  | .ok (target, payload) =>
    match target.socketAddr? with
    | none => .drop (.byName source target)
    | some address => .toTarget source address payload

/-- What is done with any other datagram. -/
def inward (endpoint : ClientEndpoint) (source : SocketAddr) (datagram : Bytes) : Action :=
  match endpoint.addr? with
  | none => .drop (.clientUnknown source)
  | some client =>
    match Datagram.encapsulate (.ofSocketAddr source) datagram with
    | .error e => .drop (.unreadable source e)
    | .ok packet => .toClient source client datagram packet

/-- Handles a datagram: what is known of the client afterwards, and what is done. -/
def handle (endpoint : ClientEndpoint) (source : SocketAddr) (datagram : Bytes) :
    ClientEndpoint × Action :=
  if endpoint.isKnown source || endpoint.isRevealedBy source datagram then
    (endpoint.learn source datagram, outward source datagram)
  else (endpoint, inward endpoint source datagram)

/-- Handles datagrams one after the other. -/
def handleAll (endpoint : ClientEndpoint) :
    List (SocketAddr × Bytes) → ClientEndpoint × List Action
  | [] => (endpoint, [])
  | (source, datagram) :: rest =>
    let (known, action) := handle endpoint source datagram
    let (final, actions) := handleAll known rest
    (final, action :: actions)

@[simp] theorem ip_handle (endpoint : ClientEndpoint) (source : SocketAddr) (datagram : Bytes) :
    (handle endpoint source datagram).1.ip = endpoint.ip := by
  unfold handle
  split
  · exact ClientEndpoint.ip_learn ..
  · rfl

/-! ## Log -/

/-- The log line of a datagram that goes nowhere. -/
def Drop.line : Drop → LogLine
  | .unreadable source e => ⟨.warn, s!"dropping datagram from {source.text}: {e.message}"⟩
  | .byName source target =>
    ⟨.warn, s!"dropping datagram from {source.text}: domain target {target.text} not supported"⟩
  | .clientUnknown source =>
    ⟨.debug, s!"dropping datagram from {source.text}: client port not known yet"⟩

/-- The log line of an action, given what became of the sending. -/
def Action.line : Action → Except IoFailure Unit → LogLine
  | .toTarget source target payload, .ok () =>
    ⟨.debug, s!"forwarded {payload.length} bytes: {source.text} -> {target.text}"⟩
  | .toTarget _ target _, .error e =>
    ⟨.warn, s!"failed to forward datagram to {target.text}: {e.text}"⟩
  | .toClient source client payload _, .ok () =>
    ⟨.debug, s!"forwarded {payload.length} bytes: {source.text} -> {client.text}"⟩
  | .toClient _ client _ _, .error e =>
    ⟨.error, s!"Error sending response to client {client.text}: {e.text}"⟩
  | .drop reason, _ => reason.line

end Forwarding

end Socks5

import Socks5.Bench.Sockets
import Socks5.Udp.Association

/-!
# Scripted associations

An association and some sockets around it. Whoever sends a datagram to the relay is told at once
that it cannot be reached, so that none arrives there.
-/

namespace Socks5.Bench

/-- An association under a script, with the sockets of the script, the address of the last
association, and whether forwarding was ever begun. -/
structure UdpBench where
  sockets : Sockets
  association : Option UdpAssociation := none
  address : SocketAddr := .unspecified
  hasForwarded : Bool := false

/-- Whom an association is opened for: a client whose address is known, or one that asks for
it. -/
inductive UdpParty where
  | client (ip : Ip) (port : PortRef)
  | requested (host : Host) (port : PortRef) (peer : Ip) (peerPort : PortRef)

namespace UdpBench

/-- What is known of a client at the outset. -/
def endpoint (names : Names) : UdpParty → ClientEndpoint
  | .client ip port =>
    let port := names.resolve port
    ⟨ip, if port = 0 then none else some port⟩
  | .requested host port peer peerPort =>
    .ofRequest ⟨host, names.resolve port⟩ { ip := peer, port := names.resolve peerPort }

/-- Opens a socket. -/
def openSocket (b : UdpBench) (kind : SocketKind) (ip : Ip) (name : String) :
    Except Fault UdpBench := do
  return { b with sockets := ← b.sockets.add kind ip name }

/-- Opens an association on an address, in place of the one that there was. -/
def bind (b : UdpBench) (ip : Ip) (party : UdpParty) : Except IoFailure SocketAddr × UdpBench :=
  let (port, names) := b.sockets.names.assign "relay"
  match Isolation.opened .datagrams { ip, port } with
  | .error cause => (.error cause, b)
  | .ok address =>
    (.ok address,
      { b with
        sockets := { b.sockets with names }
        association := some { address, client := endpoint names party }
        address })

/-- The association, which has to be there. -/
def current (b : UdpBench) : Except Fault UdpAssociation :=
  match b.association with
  | some a => .ok a
  | none => .error .noAssociation

/-- Does something with the association. -/
def withAssociation {α : Type} (b : UdpBench) (act : UdpAssociation → α × UdpAssociation) :
    Except Fault (α × UdpBench) := do
  let (result, a) := act (← b.current)
  return (result, { b with association := some a })

/-- Begins to forward. -/
def start (b : UdpBench) : Except Fault (Bool × UdpBench) := do
  let (started, b) ← b.withAssociation (·.start)
  return (started, { b with hasForwarded := b.hasForwarded || started })

/-- Ends the forwarding. -/
def stop (b : UdpBench) : Except Fault (Bool × UdpBench) := b.withAssociation (·.stop)

/-- Whether the forwarding is over for good. -/
def isStopped (b : UdpBench) : Except Fault Bool := return (← b.current).isStopped

/-- Lets go of the association, if there is one, and tells whether any forwarding is over then. -/
def drop (b : UdpBench) : Bool × UdpBench := (b.hasForwarded, { b with association := none })

/-- What comes of a connection to the address of the last association. -/
def reach (b : UdpBench) : IoFailure := Isolation.refusal b.address

/-- Sends a datagram to the address of the last association, and tells why it was refused. One that
is not refused is waited for in vain. -/
def send (b : UdpBench) (name : String) (datagram : List Fragment) :
    Except Fault (Option IoFailure) := b.sockets.send name datagram b.address

/-- A text with the names of the sockets. -/
def shown (b : UdpBench) (text : String) : String := b.sockets.names.inText text

end UdpBench

end Socks5.Bench

import Socks5.Wire.Datagram

/-!
# The client's side of a datagram relay

A relay has to tell the datagrams of its client from all others. It knows the client's address
from the request, and its port from there or from the first datagram that can only be the
client's.
-/

namespace Socks5

/-- Where the datagrams of a client come from: its address, and its port once it is known. -/
structure ClientEndpoint where
  ip : Ip
  port : Option Port
deriving DecidableEq

namespace ClientEndpoint

/-- The endpoint that a request announces. Without an address of its own the client is the peer of
the control connection, and port 0 is none. -/
def ofRequest (requested : Target) (peer : SocketAddr) : ClientEndpoint where
  ip := (requested.host.ip?.filter (!·.isUnspecified)).getD peer.ip
  port := if requested.port = 0 then none else some requested.port

/-- Whether a source has the client's address. A client on this host may use any of its loopback
addresses. -/
def isIpOf (e : ClientEndpoint) (source : SocketAddr) : Bool :=
  source.ip = e.ip || (e.ip.isLoopback && source.ip.isLoopback)

/-- Whether a source is the client, as far as it is known. -/
def isKnown (e : ClientEndpoint) (source : SocketAddr) : Bool :=
  e.isIpOf source && e.port = some source.port

/-- Whether a datagram gives away the client's port: the port is not known yet, the address fits,
and the datagram has a header. -/
def isRevealedBy (e : ClientEndpoint) (source : SocketAddr) (datagram : Bytes) : Bool :=
  e.port.isNone && e.isIpOf source && (DatagramHeader.decode datagram).isOk

/-- The endpoint with the port that a datagram gives away, if it does. -/
def learn (e : ClientEndpoint) (source : SocketAddr) (datagram : Bytes) : ClientEndpoint :=
  if e.isRevealedBy source datagram then { e with port := some source.port } else e

/-- Where datagrams for the client go. -/
def addr? (e : ClientEndpoint) : Option SocketAddr := e.port.map fun port => { ip := e.ip, port }

/-! ## Laws -/

@[simp] theorem ip_learn (e : ClientEndpoint) (source : SocketAddr) (datagram : Bytes) :
    (e.learn source datagram).ip = e.ip := by
  unfold learn
  split <;> rfl

/-- A port that is known stays. -/
theorem learn_eq_self {e : ClientEndpoint} {p : Port} (h : e.port = some p) (source : SocketAddr)
    (datagram : Bytes) : e.learn source datagram = e := by
  simp [learn, isRevealedBy, h]

end ClientEndpoint

end Socks5

import Socks5.Wire.Datagram

/-!
# Datagrams through a relay

A client that has a relay for its datagrams sends them there behind a header that names their
target, and takes from the relay alone what comes back, behind a header that names its source.
-/

namespace Socks5

/-- A client's socket for datagrams and the relay that they go through. -/
structure UdpClient where
  socket : SocketAddr
  relay : SocketAddr
deriving DecidableEq

namespace UdpClient

/-- What is sent for a payload: a datagram, and where it goes. -/
def send (c : UdpClient) (payload : Bytes) (target : Target) :
    Except Failure (SocketAddr × Bytes) := do
  let datagram ← Datagram.encapsulate target payload
  return (c.relay, datagram)

/-- What is received of the datagrams that arrive at the socket, with those that are left: the
first one from the relay counts, and those from elsewhere before it are passed over. `none` is to
go on waiting. -/
def receive (c : UdpClient) :
    List (SocketAddr × Bytes) → Option (Except Failure (Target × Bytes)) × List (SocketAddr × Bytes)
  | [] => (none, [])
  | (source, datagram) :: rest =>
    if source = c.relay then (some (Datagram.decapsulate datagram), rest) else c.receive rest

/-- Everything that is received of the datagrams that arrive at the socket. -/
def receiveAll (c : UdpClient) (arrivals : List (SocketAddr × Bytes)) :
    List (Except Failure (Target × Bytes)) :=
  arrivals.filterMap fun (source, datagram) =>
    if source = c.relay then some (Datagram.decapsulate datagram) else none

/-! ## Laws -/

/-- Receiving one datagram after the other yields everything that is received. -/
theorem receive_eq (c : UdpClient) (arrivals : List (SocketAddr × Bytes)) :
    (c.receive arrivals).1 = (c.receiveAll arrivals).head? ∧
      c.receiveAll (c.receive arrivals).2 = (c.receiveAll arrivals).tail := by
  induction arrivals with
  | nil => simp [receive, receiveAll]
  | cons arrival rest ih =>
    obtain ⟨source, datagram⟩ := arrival
    by_cases h : source = c.relay
    · simp [receive, receiveAll, h]
    · simpa [receive, receiveAll, h] using ih

end UdpClient

end Socks5

import Socks5.Udp.Forwarding

/-!
# Associations

The socket that relays the datagrams of one client. Forwarding begins at most once and ends for
good.
-/

namespace Socks5

/-- The relay socket of a client: its address, what is known of the client, and whether forwarding
has begun and whether it is over. -/
structure UdpAssociation where
  address : SocketAddr
  client : ClientEndpoint
  isStarted : Bool := false
  isStopped : Bool := false
deriving DecidableEq

namespace UdpAssociation

/-- Begins to forward, and tells whether it did: not a second time, and not after the end. -/
def start (a : UdpAssociation) : Bool × UdpAssociation :=
  if a.isStarted || a.isStopped then (false, a) else (true, { a with isStarted := true })

/-- Ends the forwarding, and tells whether it was not over before. -/
def stop (a : UdpAssociation) : Bool × UdpAssociation :=
  (!a.isStopped, { a with isStopped := true })

/-- Whether datagrams are being forwarded. -/
def isForwarding (a : UdpAssociation) : Bool := a.isStarted && !a.isStopped

/-- What is done with a datagram: nothing at all unless datagrams are being forwarded. -/
def receive (a : UdpAssociation) (source : SocketAddr) (datagram : Bytes) :
    Option Forwarding.Action × UdpAssociation :=
  if a.isForwarding then
    let (client, action) := Forwarding.handle a.client source datagram
    (some action, { a with client })
  else (none, a)

end UdpAssociation

end Socks5

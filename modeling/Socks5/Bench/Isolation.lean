import Socks5.Bench.Numbering
import Socks5.Session.LiveHost

/-!
# The network of the bench

The bench stands alone: it has no route to any address, not even to its own, and no IPv6 address
that would be its own. Sockets can be opened on every IPv4 address and on no IPv6 address in
particular. Whoever tries to connect or to send a datagram is told so at once, and nobody ever
connects, so that a script sees no session beyond the wait for a connection. What a session does
once there is one is a matter of its host (`LiveHost`), on whatever network.
-/

namespace Socks5.Bench.Isolation

/-! ## Opening sockets -/

/-- What stands in the way of an address that has a meaning only within a zone, if anything. This
host has no other zone than its own. -/
def zoneObstacle? (zone : Zone) : Option IoFailure :=
  if zone = 0 then some .invalidArgument
  else if zone = .own then none
  else some .noSuchDevice

/-- Why no socket can be opened on an IPv6 address, if so. Many hosts share a multicast address;
datagrams for it can be received, but nobody connects to it. -/
def ipv6Obstacle? (kind : SocketKind) (ip : Ipv6) (zone : Zone) : Option IoFailure :=
  let withinZone := if ip.isWithinLink then zoneObstacle? zone else none
  if ip = .unspecified then none
  else match kind, ip.multicastScope? with
    | .listener, some _ => some .invalidArgument
    | .datagrams, some _ => withinZone
    | _, none => withinZone.or (some .addrNotAvailable)

/-- Why no socket can be opened at an address, if so. -/
def obstacle? (kind : SocketKind) (address : SocketAddr) : Option IoFailure :=
  match address.ip.unmapped with
  | .v4 _ => none
  | .v6 ip => ipv6Obstacle? kind ip address.zone

/-- Opens a socket at an address. On this network the zone says no more of a socket that is
open. -/
def opened (kind : SocketKind) (address : SocketAddr) : Except IoFailure SocketAddr :=
  match obstacle? kind address with
  | some cause => .error cause
  | none => .ok { address with zone := 0 }

/-! ## Reaching addresses -/

/-- Why an address cannot be connected to. -/
def refusal (address : SocketAddr) : IoFailure :=
  match address.ip.unmapped with
  | .v4 _ => .networkUnreachable
  | .v6 ip =>
    if ip.multicastScope?.isSome then .networkUnreachable
    else if ip.isLinkLocal && address.zone = 0 then .invalidArgument
    else .addrNotAvailable

/-- Why a datagram of a size cannot be sent to an IPv4 address, if so. No route is needed to where
no host in particular is, for a socket that is on no address in particular itself, but nothing
arrives there. -/
def sendIpv4Refusal? (isAnywhere : Bool) (ip : Ipv4) (port : Port) (size : Nat) :
    Option IoFailure :=
  if 65535 < size then some .messageTooLong
  else if port = 0 then some .invalidArgument
  else if ip ≠ .unspecified || !isAnywhere then some .networkUnreachable
  -- the headers of a packet take 28 bytes
  else if 65535 - 28 < size then some .messageTooLong
  else none

/-- The IPv4 address that an address is for a socket on an IPv6 address, if any. A socket that is
itself on an IPv4-mapped address takes this host for no host in particular. -/
def ipv4Within? (source : Ipv6) (ip : Ip) : Option Ipv4 :=
  match ip.unmapped with
  | .v4 ip => some ip
  | .v6 ip => if ip = .unspecified && source.mapped?.isSome then some .localhost else none

/-- Why a datagram of a size cannot be sent from a socket on an address to another address, if
so. -/
def sendRefusal? (source : Ip) (destination : SocketAddr) (size : Nat) : Option IoFailure :=
  let port := destination.port
  match source, destination.ip with
  | .v4 _, .v4 ip => sendIpv4Refusal? true ip port size
  | .v4 _, .v6 _ => if 65535 < size then some .messageTooLong else some .familyUnsupported
  | .v6 source, ip =>
    let isAnywhere := source = .unspecified || source.mapped? = some .unspecified
    match ipv4Within? source ip with
    | some ip =>
      if isAnywhere || source.mapped?.isSome then sendIpv4Refusal? isAnywhere ip port size
      else some .networkUnreachable
    | none =>
      if port = 0 then some .invalidArgument
      else if source.mapped?.isSome then some .networkUnreachable
      else some .addrNotAvailable

/-! ## The network -/

/-- The network of a host that stands alone. Only texts of addresses can be looked up, and every
socket gets a port of its own, from a number on. -/
def network (firstPort : Nat) : Network where
  lookup := .literals
  dial address := some (.error (refusal address))
  openSocket kind earlier ip := opened kind { ip, port := Numbering.port firstPort earlier }

/-- How long a script waits for something that may never come, in milliseconds. -/
def patience : Nat := 5000

end Socks5.Bench.Isolation

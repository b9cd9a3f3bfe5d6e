import Socks5.Bench.Fault
import Socks5.Bench.Isolation
import Socks5.Bench.Names

/-!
# Sockets of a script

A script opens sockets of its own: some listen or are there only so that connecting to them is
refused, and some are for datagrams. As there is no route, they matter only by the ports that they
are on.
-/

namespace Socks5.Bench

/-- A socket of a script. -/
structure Socket where
  name : String
  kind : SocketKind
  address : SocketAddr
deriving DecidableEq

/-- The sockets of a script, and the names of ports. -/
structure Sockets where
  names : Names
  all : List Socket := []

namespace Sockets

/-- No sockets so far, for a script whose ports are numbered. -/
def empty (numbering : Numbering) : Sockets := { names := { firstPort := numbering.own } }

/-- Opens a socket on an address, in place of one of that name and kind. A script whose socket
cannot be opened does not go on. -/
def add (s : Sockets) (kind : SocketKind) (ip : Ip) (name : String) : Except Fault Sockets :=
  let (port, names) := s.names.assign name
  match Isolation.opened kind { ip, port } with
  | .error _ => .error (.noSocket name)
  | .ok address =>
    .ok ⟨names, ⟨name, kind, address⟩ :: s.all.filter fun k => k.name ≠ name || k.kind ≠ kind⟩

/-- The socket of a name and a kind, which a script has to have opened. -/
def find (s : Sockets) (kind : SocketKind) (name : String) : Except Fault Socket :=
  match s.all.find? fun k => k.name = name && k.kind = kind with
  | some socket => .ok socket
  | none => .error (.noSocket name)

/-- Sends a datagram from the socket of a name, and tells why it was refused, if it was. -/
def send (s : Sockets) (name : String) (datagram : List Fragment) (destination : SocketAddr) :
    Except Fault (Option IoFailure) := do
  let socket ← s.find .datagrams name
  return Isolation.sendRefusal? socket.address.ip destination (s.names.bytes datagram).length

/-- The addresses at which nobody else can listen. -/
def occupied (s : Sockets) : List SocketAddr :=
  (s.all.filter (·.kind = .listener)).map (·.address)

end Sockets

/-- The connection of a name, for a script that wants to use it. As nobody ever connects, there is
none. -/
def connection (name : String) : Except Fault Empty := .error (.noConnection name)

end Socks5.Bench

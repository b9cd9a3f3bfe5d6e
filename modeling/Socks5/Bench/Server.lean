import Socks5.Bench.Sockets
import Socks5.Server.Basic
import Socks5.Server.ListenAddress
import Socks5.Server.Live

/-!
# Scripted servers

A server and what a script may do with it: bind it, run it and shut it down. Nobody ever connects
to it.
-/

namespace Socks5.Bench

/-- A server under a script: the sockets of the script, the address at which the server listens or
has listened last, and how the last run has ended, if one was begun and is over. -/
structure ServerBench where
  server : Server
  live : LiveServer := {}
  sockets : Sockets
  address : SocketAddr := .unspecified
  ended : Option (Except BindFailure Unit) := none

namespace ServerBench

/-- A text with the ports of sockets in place of their marks. -/
def withPorts (names : Names) (text : String) : String :=
  names.named.foldl (fun text (name, port) => text.replace s!"<{name}>" (toString port.toNat)) text

/-- Opens a socket. -/
def openSocket (b : ServerBench) (kind : SocketKind) (ip : Ip) (name : String) :
    Except Fault ServerBench := do
  return { b with sockets := ← b.sockets.add kind ip name }

/-- Settles where the server listens: from here on the marks in its text are ports. -/
def settleListen (b : ServerBench) : ServerBench :=
  { b with server :=
      { b.server with listen := withPorts b.sockets.names b.server.listen } }

/-- Whether two listeners stand in each other's way: on one port, and on one address or on all. -/
def collide (a b : SocketAddr) : Bool :=
  a.port = b.port &&
    (a.ip.unmapped = b.ip.unmapped || a.ip.unmapped.isUnspecified || b.ip.unmapped.isUnspecified)

/-- Opens the listener of the server at an address. Port 0 leaves the choice to the host. -/
def openAt (b : ServerBench) (address : SocketAddr) : Except IoFailure (SocketAddr × Names) := do
  let names := b.sockets.names
  if address.port = 0 then
    let (port, names) := names.assign "server"
    return (← Isolation.opened .listener { address with port }, names)
  else
    let address ← Isolation.opened .listener address
    if b.sockets.occupied.any (collide address) then throw .addrInUse
    return (address, names.put address.port "server")

/-- Opens the listener of the server at the first of some addresses where that can be done. -/
def openAny (b : ServerBench) : List SocketAddr → Except IoFailure (SocketAddr × Names)
  | [] => .error ListenAddress.noHost
  | [address] => b.openAt address
  | address :: rest =>
    match b.openAt address with
    | .ok opened => .ok opened
    | .error _ => b.openAny rest

/-- Binds the server. -/
def bind (b : ServerBench) : Except BindFailure SocketAddr × ServerBench :=
  let opened := do
    b.openAny (← ListenAddress.parse .literals b.server.listen)
  let (result, live) := b.live.bind (opened.map (·.1))
  match result, opened with
  | .ok address, .ok (_, names) =>
    (result, { b with live, sockets := { b.sockets with names }, address })
  | _, _ => (result, { b with live })

/-- Lets the run of the server go on: it ends when the server has been shut down. -/
def settle (b : ServerBench) : ServerBench :=
  match b.live.listener, b.live.isShutDown with
  | .accepting _, true => { b with live := b.live.retire, ended := some (.ok ()) }
  | _, _ => b

/-- Begins to accept connections. -/
def accept (b : ServerBench) : ServerBench :=
  { b with live := b.live.accept b.server.methodRegistry.supported, ended := none }.settle

/-- Runs the server, which is bound first if need be. -/
def run (b : ServerBench) : ServerBench :=
  match b.live.listener with
  | .accepting _ => b
  | .bound _ => b.accept
  | .idle =>
    match b.bind with
    | (.ok _, b) => b.accept
    | (.error e, b) => { b with ended := some (.error e) }

/-- Shuts the server down, and tells how many sessions that closed. -/
def shutDown (b : ServerBench) : Nat × ServerBench :=
  let (closed, live) := b.live.shutDown
  (closed, { b with live }.settle)

/-- What comes of a connection to the server. -/
def reach (b : ServerBench) : IoFailure := Isolation.refusal b.address

/-- Sends a datagram, and tells why it was refused. There was no reply with an address to send it
to. -/
def send (b : ServerBench) (name : String) (datagram : List Fragment) :
    Except Fault (Option IoFailure) := b.sockets.send name datagram .unspecified

/-- The end of the script. -/
def finish (b : ServerBench) : ServerBench := b.shutDown.2

/-- A text of the log with the names of the sockets. -/
def shown (b : ServerBench) (text : String) : String := b.sockets.names.inText text

end ServerBench

end Socks5.Bench

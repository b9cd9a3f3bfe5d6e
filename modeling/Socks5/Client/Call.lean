import Socks5.Client.Basic
import Socks5.Client.Datagrams
import Socks5.Resolution
import Socks5.Stream.Duplex

/-!
# Calls

A call opens a connection to the proxy, agrees on a method and asks for one command. Besides the
stream to the proxy it needs the host of the client, which dials, looks up names and opens
sockets.
-/

namespace Socks5

/-! ## Questions -/

namespace Call

/-- What may be asked on a call. -/
inductive Ask where
  /-- A connection to an address, which then is the one that the call goes over. -/
  | dial (address : SocketAddr)
  /-- Something of the stream to the proxy. -/
  | stream (q : Stream.Ask)
  /-- The addresses of a name, for a port. -/
  | lookup (name : String) (port : Port)
  /-- The local address of the connection. -/
  | localAddr
  /-- A socket for datagrams on an address of the host. -/
  | openSocket (ip : Ip)

/-- The answers. -/
abbrev Answer : Ask → Type
  | .dial _ => Except IoFailure Unit
  | .stream q => Stream.Answer q
  | .lookup _ _ => Except IoFailure (List SocketAddr)
  | .localAddr => Except IoFailure SocketAddr
  | .openSocket _ => Except IoFailure SocketAddr

end Call

/-- The questions of a call. -/
def Calls : Interface := ⟨Call.Ask, Call.Answer⟩

namespace Call

/-- Puts a question to the host of the client; what it cannot do ends the call. -/
def obtain {α : Type} (answer : Except IoFailure α) : Task Calls α :=
  match answer with
  | .ok a => .done a
  | .error cause => .fail (.io cause)

/-- Works on the stream to the proxy. -/
def onStream {α : Type} (t : Task Streams α) : Task Calls α :=
  t.via (I := Streams) fun q => .put (I := Calls) (.stream q)

end Call

/-! ## Commands -/

namespace Client

open Call (obtain onStream)

/-- Puts a question to the host of the client. -/
def ask (q : Call.Ask) : Task Calls (Call.Answer q) := .put (I := Calls) q

/-- Opens a connection to the proxy and agrees on a method. -/
def dial (c : Client) : Task Calls Unit := do
  obtain (← ask (.dial c.proxy))
  onStream c.handshake

/-- The target as the proxy gets it: a name is looked up first by a client that does so itself. -/
def prepare (c : Client) (target : Target) : Task Calls Target :=
  match c.resolvesLocally, target.host with
  | true, .domain name => do
    let found ← ask (.lookup name target.port)
    return .ofSocketAddr (← obtain (target.resolve fun _ _ => found))
  | _, _ => return target

/-- Asks for a command, and tells the address in the reply. -/
def request (c : Client) (command : Command) (target : Target) : Task Calls Target := do
  c.dial
  let target ← c.prepare target
  onStream (Stream.deliver (Request.of command target))
  onStream readReply

/-- Asks for a connection to a target. From then on the stream to the proxy is the stream to the
target. -/
def connect (c : Client) (target : Target) : Task Calls Unit := do
  let _ ← c.request .connect target
  return ()

/-- Asks the proxy to wait for a connection from a target, and tells where it waits. -/
def bind (c : Client) (target : Target) : Task Calls Target := c.request .bind target

/-- Waits for the connection that the proxy waits for, and tells where it comes from. -/
def awaitPeer : Task Calls Target := onStream readReply

/-- The relay that a proxy announces. One without an address of its own is on the host of the
proxy. -/
def relayOf (c : Client) (bound : Target) : Except Failure SocketAddr :=
  match bound.socketAddr? with
  | some address =>
    .ok (if address.ip.isUnspecified then { address with ip := c.proxy.ip } else address)
  | none => .error (.malformed (.relayByName bound))

/-- Asks for a relay for the datagrams of a socket of its own. -/
def associate (c : Client) : Task Calls UdpClient := do
  c.dial
  let here ← obtain (← ask .localAddr)
  let socket ← obtain (← ask (.openSocket here.ip))
  onStream (Stream.deliver (Request.of .udpAssociate (.ofSocketAddr socket)))
  let bound ← onStream readReply
  return ⟨socket, ← .ofExcept (c.relayOf bound)⟩

end Client

/-! ## Calls over streams in memory -/

/-- The host of a client whose stream to the proxy is one in memory: what comes of dialling, of
looking up a name and of opening a socket is settled beforehand. -/
structure LiveCall where
  stream : Duplex
  localAddr : SocketAddr
  reach : SocketAddr → Except IoFailure Unit := fun _ => .ok ()
  lookup : Lookup := .literals
  openSocket : Ip → Except IoFailure SocketAddr := fun ip => .ok { ip, port := 0 }

namespace LiveCall

/-- What is answered on a call; `none` as long as the client has to wait for the proxy. -/
def answer : (q : Call.Ask) → LiveCall → Option (Call.Answer q) × LiveCall
  | .dial address, l => (some (l.reach address), l)
  | .stream q, l =>
    let (a, stream) := l.stream.answer q
    (a, { l with stream })
  | .lookup name port, l => (some (l.lookup name port), l)
  | .localAddr, l => (some (.ok l.localAddr), l)
  | .openSocket ip, l => (some (l.openSocket ip), l)

/-- Runs a call until it ends or waits. -/
def run {α : Type} (t : Task Calls α) (l : LiveCall) : Task Calls α × LiveCall :=
  t.settle (I := Calls) answer l

end LiveCall

end Socks5

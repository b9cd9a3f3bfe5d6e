import Socks5.Auth.Registry
import Socks5.Config
import Socks5.Log
import Socks5.Relay.Coupled
import Socks5.Session.State
import Socks5.Udp.Endpoint

/-!
# What a session asks of its host

Serving a session is a task: besides the channel to its client it needs the host that it runs on,
which keeps its state, asks the hooks, looks up names, opens connections and sockets, and relays.
The questions are small enough that everything that happens between two waits is a question of its
own. A wait that ends when the session is closed has an answer that says so; one that has none
goes on whatever becomes of the session.
-/

namespace Socks5

namespace Hosting

/-! ## Notes -/

/-- What a session has to say to a log. -/
inductive Note where
  | offered (methods : List MethodId) (selected : MethodId) (name : String)
  | authenticated (user : String)
  | connecting (target : Target)
  | unreached (address : SocketAddr) (cause : IoFailure)
  | listening (address : SocketAddr) (expected : Target)
  | accepted (peer : SocketAddr)
  | forwardingEarly
  | dissociated (address : SocketAddr)
  | relayed (stats : RelayStats)
  | ended (outcome : Except Failure Unit)

/-- How much it matters that a session has failed. -/
def levelOf : FailureKind → LogLevel
  | .closed => .debug
  | .protocol | .authentication | .network => .warn
  | .relay | .resource => .error

/-- The wording of a note. -/
def Note.line : Note → LogLine
  | .offered methods selected name =>
    ⟨.debug, s!"client offered {Text.Hex.listing methods}, " ++
      s!"selected {Text.Hex.prefixed selected} ({name})"⟩
  | .authenticated user => ⟨.info, s!"authenticated as {Text.Quoted.encode user}"⟩
  | .connecting target => ⟨.info, s!"CONNECT {target.text}"⟩
  | .unreached address cause => ⟨.debug, s!"connect to {address.text} failed: {cause.text}"⟩
  | .listening address expected =>
    ⟨.info, s!"BIND listening on {address.text}, expecting {expected.text}"⟩
  | .accepted peer => ⟨.info, s!"BIND accepted {peer.text}"⟩
  | .forwardingEarly => ⟨.debug, "forwarding data sent before the inbound connection"⟩
  | .dissociated address => ⟨.info, s!"UDP association on {address.text} closed"⟩
  | .relayed stats =>
    ⟨.info, s!"connection closed: {stats.outward} bytes from client, " ++
      s!"{stats.inward} bytes from server"⟩
  | .ended (.ok ()) => ⟨.debug, "session finished"⟩
  | .ended (.error e) =>
    ⟨levelOf e.kind,
      match e.kind with
      | .closed => s!"session ended: {e.message}"
      | _ => s!"session failed: {e.message}"⟩

/-! ## Questions -/

/-- The answer to a question that is given up when the session is closed, or when the time that a
command may take is over. -/
inductive Timed (limit : Option Duration) (α : Type) where
  | value (a : α)
  | expired (after : Duration) (h : limit = some after)
  | closed

/-- How the wait for an inbound connection ends: with one, and with what the client sent in the
meantime; with a failure of the listener; with the end of the time; because the client has ended
or failed; or because the session is closed. -/
inductive Inbound (limit : Option Duration) where
  | arrived (peer : SocketAddr) (early : Bytes)
  | failed (cause : IoFailure)
  | expired (after : Duration) (h : limit = some after)
  | clientGone
  | closed

/-- What a session may ask of its host. -/
inductive Ask where
  /-- Something on the channel to the client. -/
  | channel (q : Channel.Ask)
  /-- To move to a state. -/
  | enter (state : SessionState)
  /-- To note something in the log. -/
  | note (note : Note)
  /-- To remember who the client is. -/
  | identify (user : String)
  /-- Whether a new session may go on; a reason if not. -/
  | vetSession
  /-- Whether a request may be carried out; a reason if not. -/
  | vetRequest (request : Request)
  /-- To tell that the session is over. -/
  | farewell
  /-- The addresses of a name, for a port. -/
  | lookup (limit : Option Duration) (name : String) (port : Port)
  /-- A connection to an address, which then is the one of the session. -/
  | connect (limit : Option Duration) (address : SocketAddr)
  /-- The local address of the connection. -/
  | localAddr
  /-- A listener on an address of the host. -/
  | listen (ip : Ip)
  /-- The first connection that comes in, which then is the one of the session. -/
  | awaitPeer (limit : Option Duration)
  /-- To let go of the listener. -/
  | dropListener
  /-- Something of the stream of the connection, whatever becomes of the session. -/
  | peer (q : Stream.Ask)
  /-- A socket for the datagrams of a client. -/
  | associate (ip : Ip) (client : ClientEndpoint)
  /-- To begin forwarding datagrams. -/
  | startForwarding
  /-- To end forwarding datagrams. -/
  | stopForwarding
  /-- To keep the session open until its client ends, it is closed, or the forwarding is over. -/
  | hold
  /-- To relay between the client and the connection, at most so many bytes at once. -/
  | relay (bufferSize : Nat)

/-- The answers. -/
abbrev Answer : Ask → Type
  | .channel q => Channel.Answer q
  | .enter _ | .note _ | .identify _ | .farewell | .dropListener | .startForwarding
  | .stopForwarding => Unit
  | .vetSession | .vetRequest _ => Option String
  | .lookup limit _ _ => Timed limit (Except IoFailure (List SocketAddr))
  | .connect limit _ => Timed limit (Except IoFailure Unit)
  | .localAddr => Except IoFailure SocketAddr
  | .listen _ => Except IoFailure SocketAddr
  | .awaitPeer limit => Inbound limit
  | .peer q => Stream.Answer q
  | .associate _ _ => Except IoFailure SocketAddr
  | .hold => Except IoFailure Unit
  | .relay _ => Except Failure RelayStats

end Hosting

/-- The questions of a session to its host. -/
def Hostings : Interface := ⟨Hosting.Ask, Hosting.Answer⟩

end Socks5

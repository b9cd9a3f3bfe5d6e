import Socks5.Session.Live
import Socks5.Session.Serving
import Socks5.Udp.Association

/-!
# Hosts in memory

The host of one session, all of it in memory. It answers everything that serving the session asks:
from a network that is settled beforehand, and from what happens to it in the meantime, which are
bytes that arrive, connections that come in, time that goes by, and the closing of the session. It
keeps a record of the states of the session, of its log and of its hooks.
-/

namespace Socks5

/-! ## What a host is connected to -/

/-- A connection: its stream and its local address. -/
structure Link where
  stream : Duplex
  localAddr : Except IoFailure SocketAddr

/-- What a socket is for. -/
inductive SocketKind where
  | listener
  | datagrams
deriving DecidableEq, Repr

/-- What a host finds on its network: the addresses of names; what comes of dialling an address,
which is nothing as long as nobody answers; and what comes of opening a socket, given how many were
opened before. -/
structure Network where
  lookup : Lookup
  dial : SocketAddr → Option (Except IoFailure Link)
  openSocket : SocketKind → (earlier : Nat) → Ip → Except IoFailure SocketAddr

/-- What observes a session, and may refuse it or its request for a reason. -/
structure Hooks where
  session : Handle → Option String := fun _ => none
  request : Handle → Request → Option String := fun _ _ => none

/-- A call of a hook. -/
inductive HookCall where
  | vetSession (id : Nat) (state : SessionState)
  | vetRequest (id : Nat) (state : SessionState) (request : Request) (user : Option String)
  | farewell (id : Nat) (state : SessionState) (isClosed : Bool)

/-- A host with one session: the connection of the session, the listener and what has come in
there, the relay of datagrams and that of bytes, since when the time of a command is counted, what
the client has sent while a connection was waited for, and the record. -/
structure LiveHost where
  session : LiveSession
  network : Network
  hooks : Hooks := {}
  opened : Nat := 0
  link : Option Link := none
  listener : Option SocketAddr := none
  queue : List (Except IoFailure (SocketAddr × Duplex)) := []
  association : Option UdpAssociation := none
  relay : Option Relay := none
  clock : Nat := 0
  since : Option Nat := none
  early : Bytes := []
  calls : List HookCall := []
  log : List LogLine := []
  moves : List (SessionState × SessionState) := []

namespace LiveHost

/-! ## The session -/

/-- The handle of the session. -/
def handle (h : LiveHost) : Handle :=
  (h.session.registry.handle? h.session.id).getD
    { peer := .unspecified, localAddr := .unspecified }

/-- Changes the handle of the session. -/
def updateHandle (h : LiveHost) (change : Handle → Handle) : LiveHost :=
  { h with session := { h.session with
      registry := h.session.registry.update h.session.id change } }

/-- Moves the session to a state. With each state the time is counted anew. -/
def enter (h : LiveHost) (next : SessionState) : LiveHost :=
  let before := h.handle.state
  let h := { h.updateHandle (·.enter next) with since := none }
  let after := h.handle.state
  if before = after then h else { h with moves := h.moves ++ [(before, after)] }

theorem session_enter (h : LiveHost) (next : SessionState) :
    (h.enter next).session = (h.updateHandle (·.enter next)).session := by
  unfold enter
  simp only
  split <;> rfl

/-- Notes a hook call. -/
def record (h : LiveHost) (call : HookCall) : LiveHost := { h with calls := h.calls ++ [call] }

/-- Opens a socket on an address. -/
def openSocket (h : LiveHost) (kind : SocketKind) (ip : Ip) :
    Except IoFailure SocketAddr × LiveHost :=
  (h.network.openSocket kind h.opened ip, { h with opened := h.opened + 1 })

/-! ## Waiting -/

/-- Counts the time from now on, unless it is being counted. -/
def timed (h : LiveHost) : LiveHost := { h with since := h.since.or (some h.clock) }

/-- The limit, if there is one and it has been reached. -/
def expired? (h : LiveHost) : (limit : Option Duration) → Option { d : Duration // limit = some d }
  | none => none
  | some d => if h.since.any (· + d.milliseconds ≤ h.clock) then some ⟨d, rfl⟩ else none

/-- Dials an address. -/
def dial (h : LiveHost) (limit : Option Duration) (address : SocketAddr) :
    Option (Hosting.Timed limit (Except IoFailure Unit)) × LiveHost :=
  if h.session.isSignalled then (some .closed, h)
  else
    let h := h.timed
    match h.network.dial address with
    | some (.ok link) => (some (.value (.ok ())), { h with link := some link })
    | some (.error cause) => (some (.value (.error cause)), h)
    | none =>
      match h.expired? limit with
      | some ⟨after, e⟩ => (some (.expired after e), h)
      | none => (none, h)

/-- Waits for a connection to come in, and watches the client meanwhile. -/
def awaitPeer (h : LiveHost) (limit : Option Duration) :
    Option (Hosting.Inbound limit) × LiveHost :=
  -- a connection that has come in counts, whatever the client has done meanwhile
  match h.session.watch h.queue.head? with
  | (.closed, _) => (some .closed, h)
  | (.comes (.ok (peer, stream)), _) =>
    let localAddr := (h.listener.map .ok).getD (.error .notConnected)
    (some (.arrived peer h.early),
      { h with queue := h.queue.tail, link := some ⟨stream, localAddr⟩ })
  | (.comes (.error cause), _) => (some (.failed cause), { h with queue := h.queue.tail })
  | (.clientGone, _, session) => (some .clientGone, { h with session })
  | (.goesOn, bytes, session) =>
    let h := { h.timed with session, early := h.early ++ bytes }
    match h.expired? limit with
    | some ⟨after, e⟩ => (some (.expired after e), h)
    | none => (none, h)

/-- Holds the session until its client ends, it is closed, or the relay of datagrams has stopped. -/
def hold (h : LiveHost) : Option (Except IoFailure Unit) × LiveHost :=
  let held := h.session.hold (h.association.any (·.isStopped))
  (held.1, { h with session := held.2 })

/-- Works on the stream of the connection. -/
def onLink (h : LiveHost) (q : Stream.Ask) : Option (Stream.Answer q) × LiveHost :=
  match h.link with
  | none => (none, h)
  | some link =>
    let (a, stream) := link.stream.answer q
    (a, { h with link := some { link with stream } })

/-- Relays between the client and the connection. -/
def relayOn (h : LiveHost) (bufferSize : Nat) : Option (Except Failure RelayStats) × LiveHost :=
  match h.link with
  | none => (none, h)
  | some link =>
    -- from its start on the relay holds both streams
    let r := h.relay.getD (.start bufferSize h.session.stream link.stream)
    let r := r.settle h.session.isSignalled
    (r.outcome?, { h with relay := some r })

/-! ## Answers -/

/-- What the host answers; `none` as long as the session has to wait. -/
def answer : (q : Hosting.Ask) → LiveHost → Option (Hosting.Answer q) × LiveHost
  | .channel q, h =>
    let (a, session) := h.session.answer q
    (a, { h with session })
  | .enter state, h => (some (), h.enter state)
  | .note note, h => (some (), { h with log := h.log ++ [note.line] })
  | .identify user, h => (some (), h.updateHandle (·.setAttribute Handle.userKey user))
  | .vetSession, h =>
    (some (h.hooks.session h.handle), h.record (.vetSession h.session.id h.handle.state))
  | .vetRequest request, h =>
    let user := h.handle.attribute? Handle.userKey
    (some (h.hooks.request h.handle request),
      h.record (.vetRequest h.session.id h.handle.state request user))
  | .farewell, h =>
    (some (), h.record (.farewell h.session.id h.handle.state h.handle.isClosed))
  | .lookup _ name port, h =>
    (h.session.untilClosed .closed (some (.value (h.network.lookup name port))), h.timed)
  | .connect limit address, h => h.dial limit address
  | .localAddr, h => (some ((h.link.map (·.localAddr)).getD (.error .notConnected)), h)
  | .listen ip, h =>
    let (address, h) := h.openSocket .listener ip
    (some address, { h with listener := address.toOption })
  | .awaitPeer limit, h => h.awaitPeer limit
  | .dropListener, h => (some (), { h with listener := none, queue := [] })
  | .peer q, h => h.onLink q
  | .associate ip client, h =>
    let (address, h) := h.openSocket .datagrams ip
    (some address, { h with association := address.toOption.map ({ address := ·, client }) })
  | .startForwarding, h => (some (), { h with association := h.association.map (·.start.2) })
  | .stopForwarding, h => (some (), { h with association := h.association.map (·.stop.2) })
  | .hold, h => h.hold
  | .relay bufferSize, h => h.relayOn bufferSize

/-- Serves the session until it is over or has to wait. -/
def serve (t : Task Hostings Unit) (h : LiveHost) : Task Hostings Unit × LiveHost :=
  t.settle (I := Hostings) answer h

/-! ## What happens to a host -/

/-- The stream of the client, which is part of the relay once there is one. -/
def client (h : LiveHost) : Duplex := (h.relay.map (·.stream .client)).getD h.session.stream

/-- Something happens to the stream of the client. -/
def updateClient (h : LiveHost) (change : Duplex → Duplex) : LiveHost :=
  match h.relay with
  | some r => { h with relay := some (r.updateStream .client change) }
  | none => { h with session := { h.session with stream := change h.session.stream } }

/-- The stream of the connection, which is part of the relay once there is one. -/
def peer? (h : LiveHost) : Option Duplex :=
  (h.relay.map (·.stream .target)).or (h.link.map (·.stream))

/-- Something happens to the stream of the connection. -/
def updatePeer (h : LiveHost) (change : Duplex → Duplex) : LiveHost :=
  match h.relay with
  | some r => { h with relay := some (r.updateStream .target change) }
  | none => { h with link := h.link.map fun link => { link with stream := change link.stream } }

/-- A connection comes in at the listener, if there is one. -/
def arrive (h : LiveHost) (peer : SocketAddr) (stream : Duplex) : LiveHost :=
  if h.listener.isSome then { h with queue := h.queue ++ [.ok (peer, stream)] } else h

/-- A datagram comes in at the relay of datagrams, if there is one. -/
def receive (h : LiveHost) (source : SocketAddr) (datagram : Bytes) :
    Option Forwarding.Action × LiveHost :=
  match h.association with
  | none => (none, h)
  | some a =>
    let (action, a) := a.receive source datagram
    (action, { h with association := some a })

/-- Time goes by. -/
def wait (h : LiveHost) (milliseconds : Nat) : LiveHost :=
  { h with clock := h.clock + milliseconds }

/-- Closes the session from outside, and tells whether that closed it. -/
def close (h : LiveHost) : Bool × LiveHost :=
  let (won, registry) := h.session.registry.close h.session.id
  (won, { h with session := { h.session with registry } })

end LiveHost

end Socks5

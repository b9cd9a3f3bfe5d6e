import Socks5.Resolution
import Socks5.Session.Hosting

/-!
# Serving a session

The work of a server on one session, from the first byte to the farewell: a method is chosen and
run, a request is read, and its command is carried out. Every path ends with the session closed,
and the farewell comes last.
-/

namespace Socks5.Serving

open Hosting (Note)

/-! ## Single questions -/

/-- Puts a question to the host. -/
def ask (q : Hosting.Ask) : Task Hostings (Hosting.Answer q) := .put (I := Hostings) q

/-- Works on the channel to the client. -/
def onChannel {α : Type} (t : Task Channels α) : Task Hostings α :=
  t.via (I := Channels) fun q => ask (.channel q)

/-- Works on the stream of the connection. -/
def onPeer {α : Type} (t : Task Streams α) : Task Hostings α :=
  t.via (I := Streams) fun q => ask (.peer q)

/-- Reads a message from the client. -/
def receive (α : Type) [Message α] : Task Hostings α := onChannel (Channel.receive α)

/-- Writes a message to the client. -/
def deliver {α : Type} [Message α] (message : α) : Task Hostings Unit :=
  onChannel (Channel.deliver message)

/-- Moves the session to a state. -/
def enter (state : SessionState) : Task Hostings Unit := ask (.enter state)

/-- Notes something in the log. -/
def note (n : Note) : Task Hostings Unit := ask (.note n)

/-- The failure of a command whose time is over. -/
def expiry (what : String) (after : Duration) : Failure :=
  .network .ttlExpired ⟨.timedOut, s!"{what} timed out after {after.text}"⟩

/-- The answer to a timed question, unless the session was closed or the time is over. -/
def inTime {α : Type} {limit : Option Duration} (what : String) :
    Hosting.Timed limit α → Task Hostings α
  | .value a => .done a
  | .expired after _ => .fail (expiry what after)
  | .closed => .fail .closed

/-- Tells the client of a failure, and fails. A session that was closed ends without a word. -/
def reject {α : Type} (e : Failure) : Task Hostings α :=
  if e = .closed then .fail e
  else do
    deliver (Reply.failure e.replyCode)
    .fail e

/-- What a question about the host's own means comes to; a failure is told to the client. -/
def obtain {α : Type} : Except IoFailure α → Task Hostings α
  | .ok a => .done a
  | .error cause => reject (.resource cause)

/-! ## Commands -/

/-- What a server knows when it serves a session. -/
structure Setting where
  methods : MethodRegistry
  config : Config
  peer : SocketAddr
  localAddr : SocketAddr

/-- The address on which sockets are opened for the client: the configured one, or the one at
which the client has reached the server. -/
def Setting.bindIp (s : Setting) : Ip := s.config.bindIp.getD s.localAddr.ip

/-- Hands bytes over to the connection of the session. From here on its faults are those of the
relay. -/
def handOver (bytes : Bytes) : Task Hostings Unit := do
  match ← (onPeer (Stream.writeAll bytes)).attempt with
  | .error (.io cause) => .fail (.relay cause)
  | outcome => .ofExcept outcome

/-- Relays between the client and the connection of the session. -/
def relay (s : Setting) : Task Hostings Unit := do
  match ← ask (.relay s.config.bufferSize) with
  | .ok stats => note (.relayed stats)
  | .error e => .fail e

/-- Connects to the first address that accepts. When none does, the last failure counts. -/
def connectFirst (limit : Option Duration) (target : Target) :
    Option IoFailure → List SocketAddr → Task Hostings Unit
  | last, [] =>
    .fail (.unreached (last.getD ⟨.notFound, s!"no address for {target.text}"⟩))
  | _, address :: rest => do
    match ← inTime "connect" (← ask (.connect limit address)) with
    | .ok () => return ()
    | .error cause =>
      note (.unreached address cause)
      connectFirst limit target (some cause) rest

/-- The addresses of a target; a name is looked up. -/
def addresses (limit : Option Duration) (target : Target) : Task Hostings (List SocketAddr) := do
  -- the time for the lookup counts as time for connecting
  let found ← match target.host with
    | .ip _ => pure (.ok [])
    | .domain name => inTime "connect" (← ask (.lookup limit name target.port))
  match target.resolveAll fun _ _ => found with
  | .ok addresses => return addresses
  | .error cause => .fail (.network .hostUnreachable cause)

/-- Carries out CONNECT. -/
def connect (s : Setting) (target : Target) : Task Hostings Unit := do
  enter .connecting
  note (.connecting target)
  let limit := s.config.timeout
  let attempt := do connectFirst limit target none (← addresses limit target)
  match ← attempt.attempt with
  | .error e => reject e
  | .ok () =>
    let bound ← obtain (← ask .localAddr)
    deliver (Reply.success bound)
    enter .relaying
    relay s

/-- What comes of the wait for an inbound connection. A client that is gone takes the session with
it. -/
def inbound {limit : Option Duration} :
    Hosting.Inbound limit → Task Hostings (SocketAddr × Bytes)
  | .arrived peer early => .done (peer, early)
  | .failed cause => reject (.unreached cause)
  | .expired after _ => reject (expiry "bind accept" after)
  | .clientGone => do
    onChannel Channel.close
    .fail .closed
  | .closed => .fail .closed

/-- Carries out BIND: one connection is accepted, and the listener is gone before the client hears
of it. -/
def bind (s : Setting) (target : Target) : Task Hostings Unit := do
  enter .bindListening
  let address ← obtain (← ask (.listen s.bindIp))
  match ← (deliver (Reply.success address)).attempt with
  | .error e =>
    ask .dropListener
    .fail e
  | .ok () =>
    note (.listening address target)
    let answer ← ask (.awaitPeer s.config.timeout)
    -- nobody else gets in, however the wait has ended
    ask .dropListener
    let (peer, early) ← inbound answer
    note (.accepted peer)
    deliver (Reply.success peer)
    if !early.isEmpty then
      note .forwardingEarly
      handOver early
    enter .bindRelaying
    relay s

/-- Carries out UDP ASSOCIATE: datagrams are forwarded for as long as the session is held. -/
def associate (s : Setting) (requested : Target) : Task Hostings Unit := do
  let client := ClientEndpoint.ofRequest requested s.peer
  let address ← obtain (← ask (.associate s.bindIp client))
  deliver (Reply.success address)
  enter .udpAssociated
  ask .startForwarding
  let held ← ask .hold
  ask .stopForwarding
  note (.dissociated address)
  match held with
  | .ok () => return ()
  | .error cause => .fail (.io cause)

/-! ## The whole session -/

/-- Chooses a method from the client's offer and runs it. A verdict that lets a client in under a
name identifies the session. -/
def negotiate (methods : MethodRegistry) : Task Hostings Unit := do
  let offer ← receive MethodOffer
  let selected := methods.select offer.methods
  let method := methods.resolve selected
  note (.offered offer.methods selected method.name)
  deliver (MethodChoice.mk selected)
  enter .authenticating
  match ← onChannel method.server with
  | .admitted (some user) =>
    note (.authenticated user)
    ask (.identify user)
  | _ => return ()

/-- Carries out a request. -/
def carryOut (s : Setting) (request : Request) : Task Hostings Unit :=
  match request.rejection with
  | some code => reject (.rejected code)
  | none =>
    match request.command? with
    | some .connect => connect s request.target
    | some .bind => bind s request.target
    | some .udpAssociate => associate s request.target
    | none => reject (.rejected .commandNotSupported)

/-- Serves a session that was admitted. -/
def serve (s : Setting) : Task Hostings Unit := do
  enter .negotiating
  negotiate s.methods
  enter .awaitingCommand
  let request ← receive Request
  match ← ask (.vetRequest request) with
  | some reason => .fail (.aborted reason)
  | none => carryOut s request

/-- Serves a session from its admission to its farewell. -/
def run (s : Setting) : Task Hostings Unit := do
  let outcome ← match ← ask .vetSession with
    | some reason => pure (.error (.aborted reason))
    | none => (serve s).attempt
  note (.ended outcome)
  onChannel Channel.close
  ask .farewell

end Socks5.Serving

import Socks5.Bench.Sockets
import Socks5.Bench.Stimulus

/-!
# Scripted service

A session is served on a host that stands alone, and a script plays its client.
-/

namespace Socks5.Bench

/-! ## Hooks -/

/-- What the hooks of a script do: they refuse new sessions, or requests, for a reason. In the
reason for a request a mark stands for the target. -/
structure HookScript where
  session : Option String := none
  request : Option String := none

namespace HookScript

/-- The hooks that do what a script says. -/
def hooks (h : HookScript) : Hooks where
  session _ := h.session
  request _ request := h.request.map fun text =>
    text.replace "\x7btarget\x7d" request.target.text

end HookScript

/-! ## The script -/

/-- A session that is served, and its client: how much the client has read of what was written to
it, and the address in the last reply that it read. -/
structure Service where
  host : LiveHost
  task : Task Hostings Unit
  sockets : Sockets
  read : Nat := 0
  lastReply : SocketAddr := .unspecified

/-- What a client has read: bytes, with the name of a socket in place of the last two of a
reply. -/
inductive ReplyView where
  | whole (text : String)
  | short (bytes : Bytes)

/-- What is seen of a session at a moment. -/
structure Glance where
  fresh : Bytes
  state : SessionState
  sessions : Nat
  isOver : Bool

namespace Service

/-- A session that is about to be served, for a script whose ports are numbered. -/
def new (methods : MethodRegistry) (hooks : HookScript) (config : Config)
    (peer localAddr : SocketAddr) (numbering : Numbering) : Service :=
  { host :=
      { session := .alone peer localAddr { source := { arrivals := [] } }
        network := Isolation.network numbering.host
        hooks := hooks.hooks }
    task := Serving.run { methods, config, peer, localAddr }
    sockets := .empty numbering }

/-- Whether the session has been served to its end. -/
def isOver (s : Service) : Bool := s.task.outcome?.isSome

/-- Lets the service go on. -/
def settle (s : Service) : Service :=
  let (task, host) := s.host.serve s.task
  { s with task, host }

/-- Lets time go by, as much as a script waits for something in vain. -/
def idle (s : Service) : Service :=
  { s with host := s.host.wait Isolation.patience }.settle

/-- Something happens to the stream of the client. -/
def updateStream (s : Service) (change : Duplex → Duplex) : Service :=
  { s with host := s.host.updateClient change }.settle

/-- The client sends bytes, and perhaps its end or a fault follows. -/
def feed (s : Service) (fragments : List Fragment) (ending : List Arrival) : Service :=
  s.updateStream (Bench.feed (.piece (s.sockets.names.bytes fragments) :: ending))

/-- The client takes bytes by another rule. -/
def setIntake (s : Service) (rule : Intake) : Service := s.updateStream (Bench.setIntake rule)

/-- Closes the session from outside, and tells whether it was open. -/
def close (s : Service) : Bool × Service :=
  let (won, host) := s.host.close
  (won, { s with host }.settle)

/-- Opens a socket. -/
def openSocket (s : Service) (kind : SocketKind) (ip : Ip) (name : String) :
    Except Fault Service := do
  return { s with sockets := ← s.sockets.add kind ip name }.settle

/-- What was written to the client and not read by it. -/
def unread (s : Service) : Bytes := s.host.client.sink.since s.read

/-- The client reads `n` bytes, or everything. It waits for them; without a number it waits for
the end. -/
def receive (s : Service) (n : Option Nat) : (Bytes × Bool) × Service :=
  let s := s.settle
  let isThere (s : Service) : Bool :=
    s.isOver || match n with
      | none => false
      | some n => n ≤ s.unread.length
  -- the time that goes by in a vain wait may end other waits
  let s := if isThere s then s else s.idle
  let bytes := match n with
    | none => s.unread
    | some n => s.unread.take n
  let isShort := match n with
    | none => true
    | some n => decide (bytes.length < n)
  ((bytes, isShort), { s with read := s.read + bytes.length }.settle)

/-- The client reads a reply, which is longer if an IPv6 address seems to be in it. -/
def receiveReplyBytes (s : Service) : (Bytes × Bool) × Service :=
  let ((bytes, isShort), s) := s.receive (some 10)
  if isShort || bytes[3]? ≠ some AddressType.ipv6.toByte then ((bytes, isShort), s)
  else
    let ((more, _), s) := s.receive (some 12)
    ((bytes ++ more, false), s)

/-- The client reads a reply. The port in it gets a name, unless it has one. -/
def receiveReply (s : Service) (name : String) : ReplyView × Service :=
  let ((bytes, isShort), s) := s.receiveReplyBytes
  if isShort then (.short bytes, s)
  else
    match Target.decoder.parse (bytes.drop 3) with
    | .finished (.ok target) [] =>
      match target.socketAddr? with
      | none => (.whole (Text.Hex.ofBytes bytes), s)
      | some address =>
        if address.port = 0 then
          (.whole (Text.Hex.ofBytes bytes), { s with lastReply := address })
        else
          let names := s.sockets.names.call address.port name
          let shown := (names.name? address.port.toNat).getD name
          (.whole (Names.withLastNamed (bytes.take (bytes.length - 2)) shown),
            { s with sockets := { s.sockets with names }, lastReply := address })
    | _ => (.whole (Text.Hex.ofBytes bytes), s)

/-- What is to be seen of the session right now. -/
def glance (s : Service) : Glance × Service :=
  ({ fresh := s.unread
     state := s.host.handle.state
     sessions := s.host.session.registry.size
     isOver := s.isOver },
   { s with read := s.read + s.unread.length }.settle)

/-- Waits in vain for somebody. -/
def waitInVain (s : Service) : Service := s.settle.idle

/-- What comes of a connection to the address in the last reply. -/
def reach (s : Service) : IoFailure := Isolation.refusal s.lastReply

/-- Sends a datagram to the address in the last reply, and tells why it was refused. One that is not
refused is waited for in vain. -/
def send (s : Service) (name : String) (datagram : List Fragment) :
    Except Fault (Option IoFailure × Service) := do
  match ← s.sockets.send name datagram s.lastReply with
  | some cause => return (some cause, s.settle)
  | none => return (none, s.waitInVain)

/-- The end of the script: the client ends, and a session that then is not over is closed. -/
def finish (s : Service) : Service :=
  let s := s.updateStream (Bench.feed [.finish])
  if s.isOver then s else s.close.2

/-- A text of the log or of a hook with the names of the sockets. -/
def shown (s : Service) (text : String) : String := s.sockets.names.inText text

end Service

end Socks5.Bench

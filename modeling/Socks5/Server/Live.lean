import Socks5.Server.Note
import Socks5.Session.Registry

/-!
# Servers at work

A server listens, accepts connections, and makes a session of each of them as soon as its
transport has been prepared. Shutting it down means that it accepts no more and that a sweep
closes the sessions that it finds registered. A connection that is prepared only then still
becomes a session, so that every session is checked once more before it is served: on a server
that is shut down it is closed instead. Everything happens in steps, which may come in any order.
A sweep looks at the registry part by part, while sessions come and go. Both addresses of a
connection are known as soon as it comes in, and only what becomes a connection is accepted.
-/

namespace Socks5

/-! ## Connections -/

/-- How far the work on a connection has come. -/
inductive ConnectionStage where
  /-- Its transport is being prepared. -/
  | preparing
  /-- Its transport could not be prepared; there is no session. -/
  | unprepared
  /-- Its transport has been prepared, and its session is to be registered. -/
  | prepared
  /-- Its session is registered, and the check is to come. -/
  | registered (id : Nat)
  /-- Its session was closed by the check. -/
  | turnedAway (id : Nat)
  /-- Its session has passed the check. -/
  | cleared (id : Nat)
  /-- Its session is being served. -/
  | serving (id : Nat)
  /-- Its session has been served to its end. -/
  | served (id : Nat)
deriving DecidableEq, Repr

namespace ConnectionStage

/-- The session of a connection, once there is one. -/
def session? : ConnectionStage → Option Nat
  | .preparing | .unprepared | .prepared => none
  | .registered id | .turnedAway id | .cleared id | .serving id | .served id => some id

end ConnectionStage

/-- A connection that a server has accepted. -/
structure Connection where
  peer : SocketAddr
  localAddr : SocketAddr
  stage : ConnectionStage := .preparing
deriving DecidableEq

/-! ## Sweeps -/

/-- How far a sweep has come: it shuts the server down, looks at the registry, closes each session
that it has seen there, and has counted those that it closed. The sessions that were registered
when it began to look are due: it sees each of them, unless that is removed in the meantime. Of
those that are registered later it sees some. -/
inductive Sweep where
  | started
  | signalled
  | looking (due seen : List Nat)
  | closing (left : List Nat) (closed : Nat)
  | finished (closed : Nat)
deriving DecidableEq, Repr

namespace Sweep

/-- The number of sessions that a sweep has closed so far. -/
def closed : Sweep → Nat
  | .started | .signalled | .looking .. => 0
  | .closing _ closed | .finished closed => closed

end Sweep

/-! ## The server -/

/-- What a server is doing about new connections. -/
inductive ListenerStage where
  | idle
  | bound (address : SocketAddr)
  | accepting (address : SocketAddr)
deriving DecidableEq

/-- A server at work. -/
structure LiveServer where
  registry : Registry := {}
  isShutDown : Bool := false
  listener : ListenerStage := .idle
  connections : List Connection := []
  sweeps : List Sweep := []
  notes : List ServerNote := []
deriving DecidableEq

/-- Why a server does not begin to listen. -/
inductive BindFailure where
  | listening
  | io (cause : IoFailure)
deriving DecidableEq

/-- The wording of a cause. -/
def BindFailure.message : BindFailure → String
  | .listening => "bind can only be called once"
  | .io cause => cause.text

namespace LiveServer

/-- Notes something. -/
def note (s : LiveServer) (n : ServerNote) : LiveServer := { s with notes := s.notes ++ [n] }

/-! ## Listening -/

/-- Begins to listen at the address of a listener, if one could be opened, unless there is one
already. -/
def bind (s : LiveServer) (opened : Except IoFailure SocketAddr) :
    Except BindFailure SocketAddr × LiveServer :=
  match s.listener, opened with
  | .idle, .ok address =>
    (.ok address, { s.note (.listening address) with listener := .bound address })
  | .idle, .error cause => (.error (.io cause), s)
  | _, _ => (.error .listening, s)

/-- Begins to accept connections, for sessions that can run some methods. -/
def accept (s : LiveServer) (methods : List MethodId) : LiveServer :=
  match s.listener with
  | .bound address => { s.note (.supported methods) with listener := .accepting address }
  | _ => s

/-- Accepts no more connections after the server has been shut down, and closes what sessions
there are. -/
def retire (s : LiveServer) : LiveServer :=
  match s.isShutDown, s.listener with
  | true, .accepting _ =>
    let (closed, registry) := s.registry.closeAll
    { s.note (.stopped closed) with registry, listener := .idle }
  | _, _ => s

/-! ## Connections -/

/-- A connection comes in. -/
def connect (s : LiveServer) (peer localAddr : SocketAddr) : LiveServer :=
  match s.listener with
  | .accepting _ =>
    { s.note (.newClient peer) with
      connections := s.connections ++ [{ peer, localAddr }] }
  | _ => s

/-- Moves the work on a connection to a stage. -/
def advance (s : LiveServer) (i : Nat) (stage : ConnectionStage) : LiveServer :=
  { s with connections := s.connections.modify i fun c => { c with stage } }

/-- The transport of a connection has been prepared, or could not be. -/
def prepare (s : LiveServer) (i : Nat) (outcome : Except IoFailure Unit) : LiveServer :=
  match s.connections[i]? with
  | some ⟨peer, _, .preparing⟩ =>
    match outcome with
    | .ok () => s.advance i .prepared
    | .error cause => (s.advance i .unprepared).note (.unprepared peer cause)
  | _ => s

/-- A session is made of a connection. -/
def register (s : LiveServer) (i : Nat) : LiveServer :=
  match s.connections[i]? with
  | some ⟨peer, localAddr, .prepared⟩ =>
    let (id, registry) := s.registry.create peer localAddr
    { s.advance i (.registered id) with registry }
  | _ => s

/-- Checks whether a session may be served: on a server that is shut down it is closed. -/
def check (s : LiveServer) (i : Nat) : LiveServer :=
  match s.connections[i]? with
  | some ⟨_, _, .registered id⟩ =>
    -- a sweep may have passed before the session was registered
    if s.isShutDown then
      { s.advance i (.turnedAway id) with registry := (s.registry.close id).2 }
    else s.advance i (.cleared id)
  | _ => s

/-- A session begins to be served. -/
def serve (s : LiveServer) (i : Nat) : LiveServer :=
  match s.connections[i]? with
  | some ⟨_, _, .cleared id⟩ => s.advance i (.serving id)
  | _ => s

/-- Serving a session moves it on. -/
def enter (s : LiveServer) (i : Nat) (next : SessionState) : LiveServer :=
  match s.connections[i]? with
  | some ⟨_, _, .serving id⟩ =>
    { s with registry := s.registry.update id fun h => h.enter next }
  | _ => s

/-- A session has been served to its end, which leaves it closed. -/
def finish (s : LiveServer) (i : Nat) : LiveServer :=
  match s.connections[i]? with
  | some ⟨_, _, .serving id⟩ =>
    { s.advance i (.served id) with registry := (s.registry.close id).2 }
  | _ => s

/-! ## Shutting down -/

/-- The next step of a sweep. -/
def sweepStep (s : LiveServer) : Sweep → LiveServer × Sweep
  | .started => ({ s with isShutDown := true }, .signalled)
  | .signalled => (s, .looking s.registry.live [])
  | .looking due seen =>
    (s, .closing (seen ++ due.filter fun id => id ∈ s.registry.live ∧ id ∉ seen) 0)
  | .closing [] closed => (s, .finished closed)
  | .closing (id :: left) closed =>
    let (won, registry) := s.registry.close id
    ({ s with registry }, .closing left (if won then closed + 1 else closed))
  | .finished closed => (s, .finished closed)

/-- Takes `steps` steps of a sweep. -/
def sweepSteps : (steps : Nat) → LiveServer → Sweep → LiveServer × Sweep
  | 0, s, w => (s, w)
  | n + 1, s, w =>
    let (s, w) := s.sweepStep w
    sweepSteps n s w

/-- Shuts the server down in a row of steps, and counts the sessions that this closed. -/
def shutDown (s : LiveServer) : Nat × LiveServer :=
  let (s, w) := s.sweepSteps (s.registry.size + 4) .started
  (w.closed, s)

theorem sweepSteps_closing (ids : List Nat) (s : LiveServer) (closed : Nat) :
    s.sweepSteps (ids.length + 1) (.closing ids closed) =
      ({ s with registry := (s.registry.closeEach ids).2 },
        .finished (closed + (s.registry.closeEach ids).1)) := by
  induction ids generalizing s closed with
  | nil => rfl
  | cons id rest ih =>
    rw [List.length_cons, sweepSteps]
    simp only [sweepStep, ih, Registry.closeEach]
    by_cases hwon : (s.registry.close id).1
    · simp only [hwon, ↓reduceIte]
      rw [Nat.add_assoc, Nat.add_comm 1]
    · simp only [hwon, Bool.false_eq_true, ↓reduceIte]

/-- In a row of steps a sweep closes all sessions that are registered. -/
theorem shutDown_eq (s : LiveServer) :
    s.shutDown =
      (s.registry.closeAll.1,
        { s with isShutDown := true, registry := s.registry.closeAll.2 }) := by
  have hseen : (s.registry.live.filter fun id => id ∈ s.registry.live ∧ id ∉ ([] : List Nat)) =
      s.registry.live := List.filter_eq_self.2 fun id hid => by simpa using hid
  have hlook : s.sweepSteps (s.registry.size + 4) .started =
      sweepSteps (s.registry.live.length + 1) { s with isShutDown := true }
        (.closing (s.registry.live.filter fun id => id ∈ s.registry.live ∧ id ∉ []) 0) := rfl
  rw [shutDown, hlook, hseen, sweepSteps_closing, Nat.zero_add]
  rfl

/-! ## Steps in any order -/

/-- What may happen to a server. -/
inductive Event where
  | bind (opened : Except IoFailure SocketAddr)
  | accept (methods : List MethodId)
  | retire
  | connect (peer localAddr : SocketAddr)
  | prepare (connection : Nat) (outcome : Except IoFailure Unit)
  | register (connection : Nat)
  | check (connection : Nat)
  | serve (connection : Nat)
  | enter (connection : Nat) (next : SessionState)
  | finish (connection : Nat)
  /-- Somebody who holds the handle of a session closes it. -/
  | close (session : Nat)
  /-- A sweep begins. -/
  | shutDown
  /-- A sweep looks at a part of the registry, whose ids come in any order. -/
  | look (index : Nat) (ids : List Nat)
  /-- A sweep goes on. -/
  | sweep (index : Nat)

/-- What becomes of a server. What a sweep sees in a part of the registry are the sessions that are
registered at that moment. -/
def step (s : LiveServer) : Event → LiveServer
  | .bind opened => (s.bind opened).2
  | .accept methods => s.accept methods
  | .retire => s.retire
  | .connect peer localAddr => s.connect peer localAddr
  | .prepare i outcome => s.prepare i outcome
  | .register i => s.register i
  | .check i => s.check i
  | .serve i => s.serve i
  | .enter i next => s.enter i next
  | .finish i => s.finish i
  | .close id => { s with registry := (s.registry.close id).2 }
  | .shutDown => { s with sweeps := s.sweeps ++ [.started] }
  | .look index ids =>
    match s.sweeps[index]? with
    | some (.looking due seen) =>
      let seen := seen ++ ids.filter fun id => id ∈ s.registry.live
      { s with sweeps := s.sweeps.set index (.looking due seen) }
    | _ => s
  | .sweep index =>
    match s.sweeps[index]? with
    | none => s
    | some w =>
      let (s, w) := s.sweepStep w
      { s with sweeps := s.sweeps.set index w }

/-- What becomes of a server after events. -/
def run (s : LiveServer) (events : List Event) : LiveServer := events.foldl step s

end LiveServer

end Socks5

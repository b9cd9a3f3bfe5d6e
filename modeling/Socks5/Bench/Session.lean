import Socks5.Bench.Fault
import Socks5.Bench.Stimulus
import Socks5.Session.Live
import Socks5.Wire.Any

/-!
# Scripted sessions

A registry and the streams of its sessions, and what a script may do with them: work on one
session at a time, under stimuli.
-/

namespace Socks5.Bench

/-- The stream of a session: how much of what was written has been shown, and what became of the
stream. -/
structure Line where
  stream : Duplex
  shown : Nat := 0
  isShut : Bool := false
  isDropped : Bool := false

/-- A registry and the stream of every session, the first session first. -/
structure Sessions where
  registry : Registry := {}
  lines : List Line := []

/-- A stimulus for a wait, which may also be what is waited for. -/
inductive WaitStimulus (α : Type) where
  | outside (stimulus : Stimulus)
  | event (outcome : Except Failure α)

namespace Sessions

variable {α : Type}

/-- Creates a session over a stream. -/
def create (s : Sessions) (peer localAddr : SocketAddr) (stream : Duplex) : Nat × Sessions :=
  let (id, registry) := s.registry.create peer localAddr
  (id, { registry, lines := s.lines ++ [{ stream }] })

/-- The handle of a session, which has to have been created. -/
def handle (s : Sessions) (id : Nat) : Except Fault Handle :=
  match s.registry.handle? id with
  | some handle => .ok handle
  | none => .error (.noSession id)

/-- The stream of a session, which has to have been created. -/
def line (s : Sessions) (id : Nat) : Except Fault Line :=
  match if id = 0 then none else s.lines[id - 1]? with
  | some line => .ok line
  | none => .error (.noSession id)

/-- Changes the stream of a session. -/
def updateLine (s : Sessions) (id : Nat) (change : Line → Line) : Sessions :=
  { s with lines := s.lines.modify (id - 1) change }

/-- A session with its stream, of which it must not have let go. -/
def liveSession (s : Sessions) (id : Nat) : Except Fault LiveSession := do
  let line ← s.line id
  if line.isDropped then throw (.noSession id)
  return ⟨id, s.registry, line.stream⟩

/-- Takes a session back after work on it. -/
def restore (s : Sessions) (l : LiveSession) : Sessions :=
  { s with registry := l.registry }.updateLine l.id fun line => { line with stream := l.stream }

/-- Does something to the handle of a session. -/
def updateHandle (s : Sessions) (id : Nat) (change : Handle → Handle) :
    Except Fault (Handle × Sessions) := do
  let handle ← s.handle id
  return (change handle, { s with registry := s.registry.update id change })

/-- Closes a session, and tells whether it was open. -/
def close (s : Sessions) (id : Nat) : Except Fault (Bool × Sessions) := do
  let _ ← s.handle id
  let (won, registry) := s.registry.close id
  return (won, { s with registry })

/-- The bytes that were written to a session and not shown yet. -/
def written (s : Sessions) (id : Nat) : Except Fault (Bytes × Sessions) := do
  let line ← s.line id
  let sink := line.stream.sink
  return (sink.since line.shown, s.updateLine id fun line => { line with shown := sink.size })

/-- What a stimulus does to a session. -/
def apply (stimulus : Stimulus) (l : LiveSession) : LiveSession :=
  match stimulus with
  | .arrive arrivals => { l with stream := feed arrivals l.stream }
  | .intake rule => { l with stream := setIntake rule l.stream }
  | .close => l.close

/-- Applies a stimulus outside of any work, also to a stream that was let go. -/
def stimulate (s : Sessions) (id : Nat) (stimulus : Stimulus) : Except Fault Sessions := do
  let line ← s.line id
  return s.restore (apply stimulus ⟨id, s.registry, line.stream⟩)

/-- Works on the channel of a session under stimuli; work that is not over then is given up. -/
def work (s : Sessions) (id : Nat) (task : Task Channels α) (during : List Stimulus) :
    Except Fault (Option (Except Failure α) × Sessions) := do
  let (task, l) := conduct (fun (t, l) => LiveSession.run t l) (fun (t, _) => t.outcome?.isSome)
    (fun stimulus (t, l) => (t, apply stimulus l)) during (task, ← s.liveSession id)
  return (task.outcome?, s.restore l)

/-- Reads a message under stimuli. -/
def read (s : Sessions) (id : Nat) (kind : MessageKind) (during : List Stimulus) :
    Except Fault (Option (Except Failure AnyMessage) × Sessions) :=
  s.work id (Channel.whileOpen (Stream.run kind.decoder)) during

/-- Writes a message under stimuli. -/
def write (s : Sessions) (id : Nat) (message : AnyMessage) (during : List Stimulus) :
    Except Fault (Option (Except Failure Unit) × Sessions) :=
  s.work id (Channel.whileOpen (Stream.send message.encode)) during

/-! ## Waits -/

/-- A wait of a session: what has happened of what it waits for, how it ended, and what it
gathered. -/
structure Wait (α : Type) where
  session : LiveSession
  event : Option (Except Failure α) := none
  outcome : Option (Except Failure (Option α)) := none
  early : Bytes := []

namespace Wait

/-- What a stimulus does to a wait. -/
def apply (stimulus : WaitStimulus α) (w : Wait α) : Wait α :=
  match stimulus with
  | .outside stimulus => { w with session := Sessions.apply stimulus w.session }
  | .event outcome => { w with event := some outcome }

/-- Goes on waiting as `LiveSession.untilClosed` does. -/
def untilClosed (w : Wait α) : Wait α :=
  { w with outcome := (w.session.untilClosed (.error .closed) w.event).map (·.map some) }

/-- Goes on waiting as `LiveSession.watch` does. A client that ends or fails closes the session. -/
def watch (w : Wait α) : Wait α :=
  let (watched, bytes, session) := w.session.watch w.event
  let w := { w with session, early := w.early ++ bytes }
  match watched with
  | .comes event => { w with outcome := some (event.map some) }
  | .closed => { w with outcome := some (.error .closed) }
  | .clientGone => { w with session := session.close, outcome := some (.error .closed) }
  | .goesOn => w

/-- Goes on waiting as `LiveSession.hold` does. -/
def hold (w : Wait α) : Wait α :=
  let (stop, session) := w.session.hold w.event.isSome
  let outcome := stop.map fun
    | .ok () => .ok none
    | .error cause => .error (.io cause)
  { w with session, outcome }

end Wait

/-- Waits in one of the three ways under stimuli. -/
def wait (s : Sessions) (id : Nat) (settle : Wait α → Wait α) (during : List (WaitStimulus α)) :
    Except Fault (Wait α × Sessions) := do
  let w := conduct settle (·.outcome.isSome) Wait.apply during { session := ← s.liveSession id }
  return (w, s.restore w.session)

/-! ## Endings -/

/-- Closes a session and the stream to its client, unless the session has let go of it. -/
def finish (s : Sessions) (id : Nat) : Except Fault (Line × Sessions) := do
  let line ← s.line id
  if line.isDropped then return (line, s)
  let line := { line with isShut := true, isDropped := true }
  return (line, { s with registry := (s.registry.close id).2 }.updateLine id fun _ => line)

/-- Lets go of the stream of a session, which is not closed by that. -/
def drop (s : Sessions) (id : Nat) : Except Fault (Line × Sessions) := do
  let line := { ← s.line id with isDropped := true }
  return (line, s.updateLine id fun _ => line)

/-- Takes a session apart: its handle stays, and the stream is let go. -/
def takeApart (s : Sessions) (id : Nat) : Except Fault (Handle × Line × Sessions) := do
  let (line, s) ← s.drop id
  return (← s.handle id, line, s)

end Sessions

end Socks5.Bench

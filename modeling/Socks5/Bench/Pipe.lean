import Socks5.Bench.Stimulus
import Socks5.Relay.Pipe

/-!
# Scripted pipes

A pipe between two streams in memory, and what a script may do with it. All that can go on does so
after every step, and what has been shown is not shown again.
-/

namespace Socks5.Bench

/-- A pipe under a script: whether somebody listens to its events, what of them and of the bytes
at its sink has been shown, and whether the pipe itself is gone. -/
structure PipeBench where
  pipe : Pipe
  isSilent : Bool
  isDropped : Bool := false
  shownEvents : Nat := 0
  shownBytes : Nat := 0

/-- What is seen of a pipe after a step. -/
structure PipeView where
  events : List PipeEvent
  written : Bytes
  isRunning : Option Bool
  flushes : Nat
  read : Nat
  isShut : Bool
  isDropped : Bool

namespace PipeBench

/-- A pipe between two ends. -/
def new (bufferSize : Option Nat) (isSilent : Bool) (ends : Ends) : PipeBench :=
  { pipe := .new (bufferSize.getD (5 * 1024 * 1024)) ends, isSilent }

/-- Starts the pipe. -/
def start (b : PipeBench) : Bool × PipeBench :=
  let (started, pipe) := b.pipe.start
  (started, { b with pipe := pipe.settle })

/-- Stops the pipe. -/
def stop (b : PipeBench) : Bool × PipeBench :=
  let (stopped, pipe) := b.pipe.stop
  (stopped, { b with pipe })

/-- Closes the pipe. -/
def close (b : PipeBench) : PipeBench := { b with pipe := b.pipe.close }

/-- Lets go of the pipe, whose run ends with it. -/
def drop (b : PipeBench) : PipeBench :=
  { b with pipe := b.pipe.cancel.settle, isDropped := true }

/-- Something happens to the ends of the pipe. -/
def update (b : PipeBench) (change : Ends → Ends) : PipeBench :=
  { b with pipe := (b.pipe.updateEnds change).settle }

/-- Lets bytes, the end or a fault arrive at the source. -/
def feed (b : PipeBench) (arrivals : List Arrival) : PipeBench :=
  b.update fun e => { e with source := e.source.feed arrivals }

/-- Makes the sink take bytes by another rule. -/
def setIntake (b : PipeBench) (rule : Intake) : PipeBench :=
  b.update fun e => { e with sink := { e.sink with intake := rule } }

/-- What is seen of the pipe, and was not seen before. -/
def view (b : PipeBench) : PipeView × PipeBench :=
  let ends := b.pipe.ends?.getD ⟨⟨[], 0⟩, .empty {}⟩
  let events := b.pipe.events
  ({ events := if b.isSilent then [] else events.drop b.shownEvents
     written := ends.sink.since b.shownBytes
     isRunning := if b.isDropped then none else some b.pipe.isRunning
     flushes := ends.sink.flushes
     read := ends.source.consumed
     isShut := b.pipe.released.isSome
     isDropped := b.isDropped || b.pipe.isWithoutEnds },
   { b with shownEvents := events.length, shownBytes := ends.sink.size })

end PipeBench

end Socks5.Bench

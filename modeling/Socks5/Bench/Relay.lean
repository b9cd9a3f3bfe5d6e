import Socks5.Bench.Stimulus
import Socks5.Relay.Coupled

/-!
# Scripted relays

A relay between two streams in memory, and what a script may do to either of them, or to the
session that the relay is part of.
-/

namespace Socks5.Bench

/-- A relay under a script: whether its session is closed, and how much of what was written to
either side has been shown. -/
structure RelayBench where
  relay : Relay
  isClosed : Bool := false
  shownClient : Nat := 0
  shownTarget : Nat := 0

/-- What became of a stream. -/
structure StreamFate where
  isShut : Bool
  isDropped : Bool

/-- What is seen of a relay after a step. -/
structure RelayView where
  toClient : Bytes
  toTarget : Bytes
  isDone : Bool
  client : StreamFate
  target : StreamFate

namespace RelayBench

/-- Lets the relay go on. -/
def settle (b : RelayBench) : RelayBench := { b with relay := b.relay.settle b.isClosed }

/-- A relay between two streams. -/
def new (bufferSize : Nat) (client target : Duplex) : RelayBench :=
  { relay := .start bufferSize client target : RelayBench }.settle

/-- Lets something arrive at a side, and perhaps makes that side take bytes by another rule. -/
def stimulate (b : RelayBench) (side : Side) (arrivals : List Arrival) (rule : Option Intake) :
    RelayBench :=
  { b with relay := b.relay.updateStream side (influence arrivals rule) }.settle

/-- Closes the session. -/
def close (b : RelayBench) : RelayBench := { b with isClosed := true }.settle

/-- What became of a side. -/
def fate (b : RelayBench) (side : Side) : StreamFate where
  isShut := (b.relay.pipe side.writing).released.isSome
  isDropped := b.relay.outward.isWithoutEnds && b.relay.inward.isWithoutEnds

/-- What is seen of the relay, and was not seen before. -/
def view (b : RelayBench) : RelayView × RelayBench :=
  let client := (b.relay.stream .client).sink
  let target := (b.relay.stream .target).sink
  ({ toClient := client.since b.shownClient
     toTarget := target.since b.shownTarget
     isDone := b.relay.outcome?.isSome
     client := b.fate .client
     target := b.fate .target },
   { b with shownClient := client.size, shownTarget := target.size })

end RelayBench

end Socks5.Bench

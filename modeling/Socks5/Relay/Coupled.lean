import Socks5.Relay.Pipe

/-!
# Relays

A relay is two pipes between a client and a target, one for each direction. Both report to one
channel. The relay waits until it hears that a direction has stopped, or until the session is
closed; then it closes both pipes and gathers what they reported meanwhile. The first failure that
was reported is its failure; without one it comes to the numbers of bytes that went either way.
Directions that wait for one stream go on in the order in which they began to wait.
-/

namespace Socks5

/-- A direction of a relay. -/
inductive Direction where
  | outward
  | inward
deriving DecidableEq, Repr

/-- A side of a relay. -/
inductive Side where
  | client
  | target
deriving DecidableEq, Repr

namespace Direction

/-- The other direction. -/
def opposite : Direction → Direction
  | .outward => .inward
  | .inward => .outward

/-- The side that is read in a direction. -/
def source : Direction → Side
  | .outward => .client
  | .inward => .target

/-- The side that is written in a direction. -/
def sink : Direction → Side
  | .outward => .target
  | .inward => .client

end Direction

namespace Side

/-- The direction in which a side is read. -/
def reading : Side → Direction
  | .client => .outward
  | .target => .inward

/-- The direction in which a side is written. -/
def writing : Side → Direction
  | .client => .inward
  | .target => .outward

end Side

/-- How many bytes went either way. -/
structure RelayStats where
  outward : Nat := 0
  inward : Nat := 0
deriving DecidableEq, Repr

namespace RelayStats

/-- Notes the total of a direction. -/
def record (s : RelayStats) (total : Nat) : Direction → RelayStats
  | .outward => { s with outward := total }
  | .inward => { s with inward := total }

end RelayStats

/-- How far a relay has come: it listens, closes its pipes, or is done. -/
inductive RelayStage where
  | listening
  | closing (outward inward : Pipe.CloseCall)
  | done
deriving DecidableEq

/-- A relay: its pipes, of which the one in `front` goes on first if both can, what they have
reported and it has not heard, and what it has heard. -/
structure Relay where
  outward : Pipe
  inward : Pipe
  front : Direction := .outward
  channel : List (Direction × PipeEvent) := []
  stage : RelayStage := .listening
  stats : RelayStats := {}
  failure : Option IoFailure := none
deriving DecidableEq

/-- A step of a relay: a loop goes on or gives up, the relay hears the next report, notices that
the session is closed, goes on closing a pipe, or finishes. -/
inductive RelayTurn where
  | advance (direction : Direction) (loop : Nat)
  | abandon (direction : Direction) (loop : Nat)
  | hear
  | noticeClosed
  | close (direction : Direction)
  | finish
deriving DecidableEq

namespace Relay

/-- The pipe of a direction. -/
def pipe (r : Relay) : Direction → Pipe
  | .outward => r.outward
  | .inward => r.inward

/-- Puts a pipe back after a step; what it reported goes to the channel. -/
def putPipe (r : Relay) (d : Direction) (p : Pipe) : Relay :=
  let news := p.reports.take (p.reports.length - (r.pipe d).reports.length)
  let r := { r with channel := r.channel ++ news.reverse.map fun e => (d, e) }
  match d with
  | .outward => { r with outward := p }
  | .inward => { r with inward := p }

/-- The relay of a client and a target, with both directions started. -/
def start (bufferSize : Nat) (client target : Duplex) : Relay :=
  let out := Pipe.new bufferSize ⟨client.source, target.sink⟩
  let back := Pipe.new bufferSize ⟨target.source, client.sink⟩
  let r : Relay := { outward := out, inward := back }
  (r.putPipe .outward out.start.2).putPipe .inward back.start.2

/-- Takes note of a report. -/
def note (r : Relay) : Direction × PipeEvent → Relay
  | (d, .stopped total) => { r with stats := r.stats.record total d }
  | (_, .failed cause) => { r with failure := r.failure.orElse fun _ => some cause }
  | _ => r

/-- Both pipes are to be closed now. -/
def beginClosing (r : Relay) : Relay :=
  { r with stage := .closing (.stopping .begun) (.stopping .begun) }

/-- Hears the next report. The first direction that has stopped brings the relay down. -/
def hear (r : Relay) : Option Relay :=
  match r.stage, r.channel with
  | .listening, (d, event) :: rest =>
    let r := { r with channel := rest }.note (d, event)
    match event with
    | .stopped _ => some r.beginClosing
    | _ => some r
  | _, _ => none

/-- Goes on closing the pipe of a direction. -/
def closePipe (r : Relay) (d : Direction) : Option Relay :=
  match r.stage with
  | .closing out back =>
    match d with
    | .outward => (r.outward.closeStep out).map fun (p, call) =>
      { r.putPipe .outward p with stage := .closing call back }
    | .inward => (r.inward.closeStep back).map fun (p, call) =>
      { r.putPipe .inward p with stage := .closing out call }
  | _ => none

/-- Gathers what was reported on the way out, once both pipes are closed. -/
def finish (r : Relay) : Option Relay :=
  match r.stage with
  | .closing .returned .returned =>
    some { r.channel.foldl note r with channel := [], stage := .done }
  | _ => none

/-- Takes a step, if it can be taken. Whether the session is closed is known from outside. -/
def step (r : Relay) (isClosed : Bool) : RelayTurn → Option Relay
  | .advance d loop => ((r.pipe d).advance loop).map (r.putPipe d)
  | .abandon d loop => ((r.pipe d).abandon loop).map (r.putPipe d)
  | .hear => r.hear
  | .noticeClosed => if isClosed && r.stage = .listening then some r.beginClosing else none
  | .close d => r.closePipe d
  | .finish => r.finish

/-- What a relay comes to. -/
def outcome? (r : Relay) : Option (Except Failure RelayStats) :=
  match r.stage with
  | .done => some (match r.failure with
    | some cause => .error (.relay cause)
    | none => .ok r.stats)
  | _ => none

/-! ## The streams -/

/-- The stream of a side, put together from what the two pipes have of it. -/
def stream (r : Relay) (side : Side) : Duplex where
  source := ((r.pipe side.reading).ends?.map (·.source)).getD { arrivals := [] }
  sink := ((r.pipe side.writing).ends?.map (·.sink)).getD (.empty {})

/-- The side that the loop of a direction waits for. -/
def awaited? (r : Relay) (d : Direction) : Option Side :=
  (r.pipe d).loops.head?.map fun l => match l.phase with
    | .reading => d.source
    | .writing _ _ | .flushing _ => d.sink

/-- Wakes those who wait for a side. Who is woken alone waits anew, behind the other one. -/
def wake (r : Relay) (side : Side) : Relay :=
  match decide (r.awaited? .outward = some side), decide (r.awaited? .inward = some side) with
  | true, false => { r with front := .inward }
  | false, true => { r with front := .outward }
  | _, _ => r

/-- Something happens to the stream of a side. -/
def updateStream (r : Relay) (side : Side) (change : Duplex → Duplex) : Relay :=
  let r := r.wake side
  let d := change (r.stream side)
  let put (r : Relay) (direction : Direction) (change : Ends → Ends) : Relay :=
    r.putPipe direction ((r.pipe direction).updateEnds change)
  put (put r side.reading fun e => { e with source := d.source }) side.writing fun e =>
    { e with sink := d.sink }

/-! ## Letting everything go on -/

/-- Lets the loop of a direction go on as far as it can. -/
def settlePipe (r : Relay) (d : Direction) : Relay := r.putPipe d (r.pipe d).settle

/-- Lets the loops of both directions go on as far as they can, the one in front first. -/
def settlePipes (r : Relay) : Relay :=
  (r.settlePipe r.front).settlePipe r.front.opposite

/-- Hears all that was reported, until that brings the relay down. -/
def hearAll : (reports : Nat) → Relay → Relay
  | 0, r => r
  | n + 1, r =>
    match r.hear with
    | none => r
    | some r => hearAll n r

/-- Closes both pipes step by step, and lets the loops go on between the steps. -/
def closeAll : (steps : Nat) → Relay → Relay
  | 0, r => r
  | n + 1, r =>
    let r := (r.closePipe .outward).getD r
    let r := (r.closePipe .inward).getD r
    closeAll n r.settlePipes

/-- Lets everything go on as far as it can. -/
def settle (isClosed : Bool) (r : Relay) : Relay :=
  let r := r.settlePipes
  let r := hearAll r.channel.length r
  -- a direction that has stopped is heard of before the session is looked at
  let r := (r.step isClosed .noticeClosed).getD r
  match r.stage with
  | .closing _ _ =>
    let r := closeAll 5 r
    r.finish.getD r
  | _ => r

end Relay

end Socks5

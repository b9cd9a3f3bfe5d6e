import Socks5.Stream.Duplex

/-!
# Pipes

A pipe copies what it reads at one end to its other end. Each run of a pipe is a loop of its own:
it takes the two ends out of the pipe, reads a chunk, writes all of it, flushes, and begins again,
until the source ends, something fails or the run is cancelled; then it puts the ends back. A pipe
can be started and stopped many times, and closed once. A run whose buffer is larger than any can
be is over before it has begun, and nobody puts the ends back. Bytes are counted without a bound.

Every operation here is a step between two waits. A call of `stop` or `close` that has to wait for
a loop is a value that stands for the rest of the call, so that calls and loops may take their
steps in any order.
-/

namespace Socks5

/-! ## Parts of a pipe -/

/-- The two ends of a pipe. -/
structure Ends where
  source : Source
  sink : Sink
deriving DecidableEq

/-- What a loop is about to do: read, write what is left of a chunk of `size` bytes, or flush
after one. -/
inductive CopyPhase where
  | reading
  | writing (size : Nat) (rest : Bytes)
  | flushing (size : Nat)
deriving DecidableEq

/-- One run of a pipe: the ends that it holds, what it is about to do, how many bytes it has
copied in whole chunks, and whether it was told to give up. -/
structure CopyLoop where
  id : Nat
  ends : Ends
  phase : CopyPhase := .reading
  total : Nat := 0
  isCancelled : Bool := false
deriving DecidableEq

/-- What a pipe reports. -/
inductive PipeEvent where
  | started
  | transferred (size : Nat)
  | failed (cause : IoFailure)
  | stopped (total : Nat)
deriving DecidableEq

/-- A pipe: the ends are in its slot, held by a loop, released for good, or lost. It remembers how
many loops it has spawned, of which the last is the one that it can cancel, the loop whose end
nobody has waited for, and all that it has reported, of which the last is on top. -/
structure Pipe where
  bufferSize : Nat
  slot : Option Ends
  released : Option Ends := none
  isRunning : Bool := false
  loops : List CopyLoop := []
  spawned : Nat := 0
  pending : Option Nat := none
  reports : List PipeEvent := []
deriving DecidableEq

/-! ## Loops -/

namespace CopyLoop

/-- What comes of a step of a loop: nothing as long as it has to wait; it goes on, perhaps with
something to report; or it ends, perhaps because something failed. -/
inductive Progress where
  | waits
  | goesOn (loop : CopyLoop) (report : Option PipeEvent)
  | ends (loop : CopyLoop) (failure : Option IoFailure)

/-- The next step of a loop. -/
def step (bufferSize : Nat) (l : CopyLoop) : Progress :=
  match l.phase with
  | .reading =>
    match l.ends.source.read bufferSize with
    | (none, _) => .waits
    | (some answer, source) =>
      let l := { l with ends := { l.ends with source } }
      match answer with
      | .ok none => .ends l none
      | .error cause => .ends l (some cause)
      | .ok (some piece) =>
        .goesOn { l with phase := .writing piece.bytes.length piece.bytes } none
  | .writing size rest =>
    match l.ends.sink.write rest with
    | (none, _) => .waits
    | (some answer, sink) =>
      let l := { l with ends := { l.ends with sink } }
      match answer with
      | .error cause => .ends l (some cause)
      | .ok count =>
        -- a sink that takes nothing without waiting never will
        if count.val = 0 then .ends l (some .writeZero)
        else
          let rest := rest.drop count.val
          let phase := if rest.isEmpty then .flushing size else .writing size rest
          .goesOn { l with phase } none
  | .flushing size =>
    let (answer, sink) := l.ends.sink.flush
    let l := { l with ends := { l.ends with sink } }
    match answer with
    | .error cause => .ends l (some cause)
    | .ok () =>
      .goesOn { l with phase := .reading, total := l.total + size } (some (.transferred size))

/-- The bytes that a loop has still to deal with. -/
def backlog (l : CopyLoop) : Nat :=
  l.ends.source.pending.length + match l.phase with
    | .reading => 0
    | .writing _ rest => rest.length
    | .flushing _ => 0

end CopyLoop

namespace Pipe

/-- A pipe between two ends that has never run. A buffer holds at least one byte. -/
def new (bufferSize : Nat) (ends : Ends) : Pipe :=
  { bufferSize := max bufferSize 1, slot := some ends }

/-- The largest buffer that there can be. -/
def maxBuffer : Nat := UInt64.size / 2 - 1

/-- All that a pipe has reported, in the order in which it was. -/
def events (p : Pipe) : List PipeEvent := p.reports.reverse

/-- A pipe with something more to report. -/
def report (p : Pipe) (news : List PipeEvent) : Pipe :=
  { p with reports := news.reverseAux p.reports }

@[simp] theorem events_report (p : Pipe) (news : List PipeEvent) :
    (p.report news).events = p.events ++ news := by
  simp [report, events, List.reverseAux_eq]

/-- The loop of an id, as long as it is alive. -/
def loop? (p : Pipe) (id : Nat) : Option CopyLoop := p.loops.find? (·.id = id)

/-- Puts a loop in the place of the one with its id. -/
def putLoop (p : Pipe) (l : CopyLoop) : Pipe :=
  { p with loops := p.loops.map fun k => if k.id = l.id then l else k }

/-- The end of a loop: the ends are back in the slot and the pipe is not running when it is
reported. -/
def finishLoop (p : Pipe) (l : CopyLoop) (failure : Option IoFailure) : Pipe :=
  { p with
    slot := some l.ends
    isRunning := false
    loops := p.loops.filter (·.id ≠ l.id) : Pipe }.report
      ((failure.map .failed).toList ++ [.stopped l.total])

/-- A step of the loop of an id; `none` if there is no such loop or it has to wait. -/
def advance (p : Pipe) (id : Nat) : Option Pipe :=
  match p.loop? id with
  | none => none
  | some l =>
    match l.step p.bufferSize with
    | .waits => none
    | .goesOn l report => some ((p.putLoop l).report report.toList)
    | .ends l failure => some (p.finishLoop l failure)

/-- The loop of an id gives up, if it was told to; what it has read and not written is lost. -/
def abandon (p : Pipe) (id : Nat) : Option Pipe :=
  match p.loop? id with
  | none => none
  | some l => if l.isCancelled then some (p.finishLoop l none) else none

/-! ## Calls -/

/-- Starts a run, unless the pipe is running or its ends are not in the slot. -/
def start (p : Pipe) : Bool × Pipe :=
  if p.isRunning then (false, p)
  else
    match p.slot with
    | none => (false, p)
    | some ends =>
      let id := p.spawned + 1
      -- a loop without a buffer is over at once
      let loops := if p.bufferSize ≤ maxBuffer then p.loops ++ [{ id, ends }] else p.loops
      let started : Pipe :=
        { p with slot := none, isRunning := true, loops, spawned := id, pending := some id }
      (true, started.report [.started])

theorem start_eq_true_iff (p : Pipe) :
    p.start.1 = true ↔ p.isRunning = false ∧ p.slot.isSome := by
  unfold start
  cases p.isRunning <;> cases p.slot <;> simp

/-- A start that does not come about changes nothing. -/
theorem start_eq_self {p : Pipe} (h : p.start.1 = false) : p.start.2 = p := by
  revert h
  unfold start
  split
  · intro _
    rfl
  · split
    · intro _
      rfl
    · intro h
      cases h

/-- Tells the last loop to give up. -/
def cancel (p : Pipe) : Pipe :=
  let tell (l : CopyLoop) : CopyLoop :=
    if l.id = p.spawned then { l with isCancelled := true } else l
  { p with loops := p.loops.map tell }

/-- Whether a loop that somebody waits for is over. -/
def isOver (p : Pipe) : Option Nat → Bool
  | none => true
  | some id => (p.loop? id).isNone

/-- The rest of a call of `stop`. -/
inductive StopCall where
  | begun
  | waiting (loop : Option Nat)
  | returned (wasRunning : Bool)
deriving DecidableEq

/-- The next step of a call of `stop`: it tells the loop to give up, and waits for its end. -/
def stopStep (p : Pipe) : StopCall → Option (Pipe × StopCall)
  | .begun =>
    if p.isRunning then
      some ({ p with isRunning := false, pending := none }.cancel, .waiting p.pending)
    else some (p, .returned false)
  | .waiting loop => if p.isOver loop then some (p, .returned true) else none
  | .returned _ => none

/-- The rest of a call of `close`. -/
inductive CloseCall where
  | stopping (call : StopCall)
  | waiting (loop : Option Nat)
  | returned
deriving DecidableEq

/-- The next step of a call of `close`: it stops the pipe, waits for a loop that ended by itself,
and takes the ends out of the slot to shut them. -/
def closeStep (p : Pipe) : CloseCall → Option (Pipe × CloseCall)
  | .stopping (.returned _) => some ({ p with pending := none }, .waiting p.pending)
  | .stopping call => (p.stopStep call).map fun (p, call) => (p, .stopping call)
  | .waiting loop =>
    if p.isOver loop then
      some ({ p with slot := none, released := p.slot.orElse fun _ => p.released }, .returned)
    else none
  | .returned => none

/-! ## From outside -/

/-- Whether the ends are gone: released, or lost. -/
def isWithoutEnds (p : Pipe) : Bool := p.slot.isNone && p.loops.isEmpty

/-- Something happens to the ends, wherever they are. -/
def updateEnds (change : Ends → Ends) (p : Pipe) : Pipe :=
  { p with
    slot := p.slot.map change
    released := p.released.map change
    loops := p.loops.map fun l => { l with ends := change l.ends } }

/-- The ends, wherever they are. -/
def ends? (p : Pipe) : Option Ends :=
  (p.slot.orElse fun _ => p.released).orElse fun _ => p.loops.head?.map CopyLoop.ends

/-! ## Letting everything go on -/

/-- The first loop that can take a step takes it: one that was told to give up does so, any other
goes on. -/
def nextStep (p : Pipe) : Option Pipe :=
  p.loops.findSome? fun l => (p.abandon l.id).orElse fun _ => p.advance l.id

/-- Lets the loops take up to `steps` steps. -/
def settleWithin : (steps : Nat) → Pipe → Pipe
  | 0, p => p
  | n + 1, p =>
    match p.nextStep with
    | none => p
    | some p => settleWithin n p

/-- More steps than the loops can take without something happening from outside: each chunk takes
a read, a flush and at most one write a byte. -/
def patience (p : Pipe) : Nat := p.loops.foldr (fun l n => 3 * l.backlog + 3 + n) 0

/-- Lets the loops take all the steps that they can. -/
def settle (p : Pipe) : Pipe := settleWithin p.patience p

/-- Lets a call of `close` take up to `steps` steps, and the loops theirs after each of them. -/
def closeWithin : (steps : Nat) → Pipe → CloseCall → Pipe
  | 0, p, _ => p
  | n + 1, p, call =>
    match p.closeStep call with
    | none => p
    | some (p, call) => closeWithin n p.settle call

/-- A whole call of `stop` that only the loops come between. -/
def stop (p : Pipe) : Bool × Pipe :=
  match p.stopStep .begun with
  | some (p, .waiting _) => (true, p.settle)
  | _ => (false, p)

/-- A whole call of `close` that only the loops come between. -/
def close (p : Pipe) : Pipe := closeWithin 5 p (.stopping .begun)

end Pipe

end Socks5

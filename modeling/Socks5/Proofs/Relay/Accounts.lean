import Socks5.Proofs.Relay.Custody

/-!
# The accounts of a run

A run of a pipe begins when the pipe is started and is over when its loop is. In between anything
may happen to the pipe and at its ends. Main statement: what the run has reported, what the sink has
taken, and how far the source was read fit together, in whatever pieces the bytes came and went and
however the run came to its end, if its buffer can be at all (`accounts_iff`).
-/

namespace Socks5

/-- How a run comes to its end: the source has ended or cannot be read, the sink does not take a
chunk or is not flushed after it, or the run was told to give up in one of its phases. -/
inductive RunEnd where
  | drained
  | unreadable (cause : IoFailure)
  | unwritable (cause : IoFailure)
  | gaveUp (phase : CopyPhase)
deriving DecidableEq

namespace RunEnd

/-- The failure that is reported at the end of a run. -/
def failure : RunEnd → Option IoFailure
  | .unreadable cause | .unwritable cause => some cause
  | .drained | .gaveUp _ => none

/-- Whether a run was writing a chunk when it ended. -/
def isWriting : RunEnd → Bool
  | .unwritable _ => true
  | .gaveUp phase => phase ≠ .reading
  | .drained | .unreadable _ => false

end RunEnd

namespace CopyLoop

/-- The size of the chunk that a loop has in hand. -/
def chunk (l : CopyLoop) : Nat :=
  match l.phase with
  | .reading => 0
  | .writing size _ | .flushing size => size

/-- The last step of a loop, by which the ends come back. -/
inductive Over (l : CopyLoop) (bufferSize : Nat) : RunEnd → Ends → Prop where
  | drains {source : Source} (phase : l.phase = .reading)
      (read : l.ends.source.read bufferSize = (some (.ok none), source)) :
      Over l bufferSize .drained { l.ends with source }
  | breaks {cause : IoFailure} {source : Source} (phase : l.phase = .reading)
      (read : l.ends.source.read bufferSize = (some (.error cause), source)) :
      Over l bufferSize (.unreadable cause) { l.ends with source }
  | refuses {size : Nat} {rest : Bytes} {sink : Sink} (phase : l.phase = .writing size rest)
      (write : l.ends.sink.write rest = (some (.ok 0), sink)) :
      Over l bufferSize (.unwritable .writeZero) { l.ends with sink }
  | fails {size : Nat} {rest : Bytes} {cause : IoFailure} {sink : Sink}
      (phase : l.phase = .writing size rest)
      (write : l.ends.sink.write rest = (some (.error cause), sink)) :
      Over l bufferSize (.unwritable cause) { l.ends with sink }
  | sticks {size : Nat} {cause : IoFailure} (phase : l.phase = .flushing size)
      (flush : l.ends.sink.flush.1 = .error cause) :
      Over l bufferSize (.unwritable cause) { l.ends with sink := l.ends.sink.flush.2 }
  | givesUp (told : l.isCancelled = true) : Over l bufferSize (.gaveUp l.phase) l.ends

variable {l l' : CopyLoop} {bufferSize : Nat} {ending : RunEnd} {e : Ends}

/-- A loop that ends by itself has an end of its own. -/
theorem exists_over_of_ends {failure : Option IoFailure}
    (h : l.step bufferSize = .ends l' failure) :
    ∃ ending, Over l bufferSize ending l'.ends ∧ ending.failure = failure ∧
      (ending = .drained ↔ failure = none) := by
  have hstepped := l.stepped bufferSize
  rw [h] at hstepped
  cases hstepped with
  | drains phase read => exact ⟨.drained, .drains phase read, rfl, by simp⟩
  | @breaks cause _ phase read => exact ⟨.unreadable cause, .breaks phase read, rfl, by simp⟩
  | @refuses size rest count sink phase write takes =>
    obtain rfl : count = 0 := Fin.ext takes
    exact ⟨.unwritable .writeZero, .refuses phase write, rfl, by simp⟩
  | @fails _ _ cause _ phase write => exact ⟨.unwritable cause, .fails phase write, rfl, by simp⟩
  | @sticks _ cause phase flush => exact ⟨.unwritable cause, .sticks phase flush, rfl, by simp⟩

/-- A loop that has a chunk in hand at its end was writing it. -/
theorem Over.isWriting (h : Over l bufferSize ending e) (hphase : l.phase ≠ .reading) :
    ending.isWriting = true := by
  cases h with
  | drains phase _ => exact absurd phase hphase
  | breaks phase _ => exact absurd phase hphase
  | refuses => rfl
  | fails => rfl
  | sticks => rfl
  | givesUp => simpa [RunEnd.isWriting] using hphase

end CopyLoop

namespace Pipe

/-! ## Counting -/

/-- What a loop has counted: the chunks that it has reported and the one in hand are what was read
since the ends were at `base`, none of them is empty or larger than the buffer, and those that it
has reported were taken by the sink. -/
structure Tally (base : Ends) (bufferSize : Nat) (sizes : List Nat) (l : CopyLoop) : Prop where
  consumed : l.ends.source.consumed = base.source.consumed + (sizes.sum + l.chunk)
  accepted : base.sink.accepted.length + sizes.sum ≤ l.ends.sink.accepted.length
  pieces : ∀ n ∈ sizes, 1 ≤ n ∧ n ≤ bufferSize
  chunk : l.phase ≠ .reading → 1 ≤ l.chunk
  fits : l.chunk ≤ bufferSize

variable {base : Ends} {bufferSize : Nat} {arrived : List Arrival} {w : Bytes} {sizes : List Nat}
  {l l' : CopyLoop}

theorem tally_start (base : Ends) (bufferSize id : Nat) :
    Tally base bufferSize [] { id, ends := base } :=
  ⟨rfl, Nat.le_refl _, by simp, by simp, Nat.zero_le _⟩

/-- Whether a loop was told to give up, and what arrives, is not counted. -/
theorem Tally.congr (h : Tally base bufferSize sizes l) (hphase : l'.phase = l.phase)
    (hconsumed : l'.ends.source.consumed = l.ends.source.consumed)
    (haccepted : l'.ends.sink.accepted = l.ends.sink.accepted) :
    Tally base bufferSize sizes l' := by
  have hchunk : l'.chunk = l.chunk := by rw [CopyLoop.chunk, CopyLoop.chunk, hphase]
  refine ⟨?_, ?_, h.pieces, ?_, ?_⟩
  · rw [hconsumed, hchunk, h.consumed]
  · rw [haccepted]
    exact h.accepted
  · rw [hphase, hchunk]
    exact h.chunk
  · rw [hchunk]
    exact h.fits

/-- A loop that has nothing left to write was taken all that it has read. -/
theorem Copies.length_accepted (h : Copies base arrived w sizes l) (hnone : l.unwritten = []) :
    l.ends.sink.accepted.length + base.source.consumed =
      base.sink.accepted.length + l.ends.source.consumed := by
  have hreads := h.carries.reads
  rw [hnone, List.append_nil] at hreads
  rw [h.carries.writes, List.length_append, hreads]
  omega

/-- What a run has reported says which chunks it has copied. -/
theorem copying_inj {sizes sizes' : List Nat} :
    copying sizes = copying sizes' ↔ sizes = sizes' := by
  have hinj : ∀ m n, PipeEvent.transferred m = .transferred n → m = n := by simp
  simp [copying, List.map_inj_right hinj]

/-- A loop that goes on keeps count. -/
theorem Tally.goesOn {report : Option PipeEvent} (h : Tally base bufferSize sizes l)
    (hcopies : Copies base arrived w sizes l) (hstep : l.step bufferSize = .goesOn l' report) :
    ∃ w' sizes', Copies base arrived w' sizes' l' ∧ Tally base bufferSize sizes' l' ∧
      copying sizes' = copying sizes ++ report.toList := by
  obtain ⟨w', sizes', hcopies', hreports⟩ := hcopies.goesOn hstep
  refine ⟨w', sizes', hcopies', ?_, hreports⟩
  obtain ⟨hconsumed, haccepted, hpieces, hchunk, hfits⟩ := h
  have hstepped := l.stepped bufferSize
  rw [hstep] at hstepped
  cases hstepped with
  | @reads piece source phase read =>
    obtain rfl : sizes' = sizes := copying_inj.1 (by simpa using hreports)
    have hread := Source.consumed_read bufferSize l.ends.source
    rw [read] at hread
    simp only [CopyLoop.chunk, phase, Source.handed] at hconsumed hread
    constructor
    · simp only [CopyLoop.chunk]
      omega
    · exact haccepted
    · exact hpieces
    · intro _
      exact piece.nonempty
    · exact piece.fits
  | @writes size rest count sink phase write takes =>
    obtain rfl : sizes' = sizes := copying_inj.1 (by simpa using hreports)
    have hwritten := Sink.accepted_write rest l.ends.sink
    rw [write] at hwritten
    have hsame : CopyLoop.chunk { l with
        ends := { l.ends with sink }
        phase := if (rest.drop count.val).isEmpty then .flushing size
          else .writing size (rest.drop count.val) } = l.chunk := by
      simp only [CopyLoop.chunk, phase]
      by_cases hempty : (rest.drop count.val).isEmpty <;> simp [hempty]
    have hphase : l.phase ≠ .reading := by simp [phase]
    constructor
    · rw [hsame]
      exact hconsumed
    · show _ ≤ sink.accepted.length
      rw [hwritten, List.length_append]
      omega
    · exact hpieces
    · intro _
      rw [hsame]
      exact hchunk hphase
    · rw [hsame]
      exact hfits
  | @flushes size phase flush =>
    obtain rfl : sizes' = sizes ++ [size] :=
      copying_inj.1 (hreports.trans (copying_concat sizes size).symm)
    have hphase : l.phase ≠ .reading := by simp [phase]
    have hall := hcopies.length_accepted (by simp [CopyLoop.unwritten, phase])
    simp only [CopyLoop.chunk, phase] at hconsumed hchunk hfits
    constructor
    · simp only [CopyLoop.chunk, List.sum_append, List.sum_singleton]
      omega
    · simp only [List.sum_append, List.sum_singleton, Sink.accepted_flush]
      omega
    · intro n hn
      rcases List.mem_append.1 hn with hn | hn
      · exact hpieces n hn
      · obtain rfl := List.mem_singleton.1 hn
        exact ⟨hchunk (by simp), hfits⟩
    · simp
    · simp [CopyLoop.chunk]

/-! ## The end of a run -/

/-- What has come of a run at its end, when `w` was written and `rest` was read and not written.
What was written is all that was reported, and perhaps a part of the chunk in hand. -/
structure Balance (base : Ends) (arrived : List Arrival) (bufferSize : Nat) (sizes : List Nat)
    (ending : RunEnd) (w rest : Bytes) (e : Ends) : Prop where
  carries : Carries base arrived w rest e
  pieces : ∀ n ∈ sizes, 1 ≤ n ∧ n ≤ bufferSize
  reported : sizes.sum ≤ w.length
  chunk : (w ++ rest).length ≤ sizes.sum + bufferSize
  whole : ending.isWriting = false → (w ++ rest).length = sizes.sum
  drained : ending = .drained → Source.AtEnd e.source.arrivals

variable {ending : RunEnd} {e : Ends}

theorem Tally.balance (h : Tally base bufferSize sizes l) (hcopies : Copies base arrived w sizes l)
    (hover : l.Over bufferSize ending e) (hcarries : Carries base arrived w l.unwritten e)
    (hdrained : ending = .drained → Source.AtEnd e.source.arrivals) :
    Balance base arrived bufferSize sizes ending w l.unwritten e := by
  have haccepted := h.accepted
  have hconsumed := h.consumed
  have hfits := h.fits
  rw [hcopies.carries.writes, List.length_append] at haccepted
  rw [hcopies.carries.reads] at hconsumed
  constructor
  · exact hcarries
  · exact h.pieces
  · omega
  · omega
  · intro hquiet
    by_cases hphase : l.phase = .reading
    · simp only [CopyLoop.chunk, hphase] at hconsumed
      omega
    · simp [hover.isWriting hphase] at hquiet
  · exact hdrained

/-! ## Step by step -/

/-- How far a run has come that began when the pipe was as `p` is, with the ends at `base`. -/
structure Runs (p : Pipe) (base : Ends) (arrived : List Arrival) (sizes : List Nat) (q : Pipe)
    (l : CopyLoop) : Prop where
  place : q.IsAt (.held l)
  id : l.id = p.spawned + 1
  bufferSize : q.bufferSize = p.bufferSize
  events : q.events = p.events ++ copying sizes
  copies : ∃ w, Copies base arrived w sizes l
  tally : Tally base p.bufferSize sizes l

/-- A run that is over has put the ends back and reported all of it. -/
structure Ran (p : Pipe) (base : Ends) (arrived : List Arrival) (sizes : List Nat) (l : CopyLoop)
    (ending : RunEnd) (q : Pipe) (e : Ends) : Prop where
  place : q.IsAt (.slot e)
  ended : l.Over p.bufferSize ending e
  events : q.events = p.events ++ copied sizes ending.failure
  balance : ∃ w rest, Balance base arrived p.bufferSize sizes ending w rest e

variable {p q q' : Pipe} {a : Act}

/-- What changes neither the pipe's report nor what the loop has done keeps a run going. -/
theorem Runs.congr (h : Runs p base arrived sizes q l) (hplace : q'.IsAt (.held l'))
    (hid : l'.id = l.id) (hphase : l'.phase = l.phase) (hends : l'.ends = l.ends)
    (htotal : l'.total = l.total) (hsize : q'.bufferSize = q.bufferSize)
    (hevents : q'.events = q.events) : Runs p base arrived sizes q' l' := by
  obtain ⟨w, hcarries, hsum⟩ := h.copies
  have hunwritten : l'.unwritten = l.unwritten := by
    rw [CopyLoop.unwritten, CopyLoop.unwritten, hphase]
  constructor
  · exact hplace
  · rw [hid, h.id]
  · rw [hsize, h.bufferSize]
  · rw [hevents, h.events]
  · refine ⟨w, ?_, htotal.trans hsum⟩
    rw [hunwritten, hends]
    exact hcarries
  · exact h.tally.congr hphase (by rw [hends]) (by rw [hends])

/-- A loop that is told to give up goes on until it does. -/
theorem Runs.cancel (h : Runs p base arrived sizes q l) :
    ∃ l', Runs p base arrived sizes q.cancel l' := by
  by_cases hlast : l.id = q.spawned
  · refine ⟨{ l with isCancelled := true }, h.congr ⟨?_, ?_, ?_⟩ rfl rfl rfl rfl rfl rfl⟩
    · exact h.place.slot
    · exact h.place.released
    · simp [Pipe.cancel, h.place.loops, Place.loops, hlast]
  · refine ⟨l, h.congr ⟨?_, ?_, ?_⟩ rfl rfl rfl rfl rfl rfl⟩
    · exact h.place.slot
    · exact h.place.released
    · simp [Pipe.cancel, h.place.loops, Place.loops, hlast]

/-- Nothing has to arrive for a run to go on. -/
theorem Runs.goesOn {stopped : Prop} (h : Runs p base arrived sizes q l)
    (hquiet : a.arrivals = []) :
    (∃ l' sizes', Runs p base (arrived ++ a.arrivals) sizes' q l') ∨ stopped := by
  rw [hquiet, List.append_nil]
  exact .inl ⟨l, sizes, h⟩

/-- A step keeps a run going or ends it. -/
theorem Runs.acted (h : Runs p base arrived sizes q l) (hacted : Acted q a q') :
    (∃ l' sizes', Runs p base (arrived ++ a.arrivals) sizes' q' l') ∨
      a.arrivals = [] ∧ ∃ ending e, Ran p base arrived sizes l ending q' e := by
  obtain ⟨w, hcopies⟩ := h.copies
  have hplace := h.place
  cases hacted with
  | stays quiet => exact h.goesOn quiet
  | starts _ slot _ =>
    rw [hplace.slot] at slot
    cases slot
  | loses _ slot _ =>
    rw [hplace.slot] at slot
    cases slot
  | tells quiet _ =>
    have hquiet : Runs p base arrived sizes { q with isRunning := false, pending := none } l :=
      h.congr ⟨hplace.slot, hplace.released, hplace.loops⟩ rfl rfl rfl rfl rfl rfl
    obtain ⟨l', hruns⟩ := hquiet.cancel
    exact hruns.goesOn quiet
  | looks =>
    have hquiet : Runs p base arrived sizes { q with pending := none } l :=
      h.congr ⟨hplace.slot, hplace.released, hplace.loops⟩ rfl rfl rfl rfl rfl rfl
    exact hquiet.goesOn rfl
  | releases =>
    have hreleased : (q.slot.orElse fun _ => q.released) = none := by
      simp [hplace.slot, hplace.released, Place.slot?, Place.released?]
    have hquiet : Runs p base arrived sizes
        { q with slot := none, released := q.slot.orElse fun _ => q.released } l :=
      h.congr ⟨rfl, hreleased, hplace.loops⟩ rfl rfl rfl rfl rfl rfl
    exact hquiet.goesOn rfl
  | drops =>
    obtain ⟨l', hruns⟩ := h.cancel
    exact hruns.goesOn rfl
  | @goesOn k l' report alive step =>
    cases hplace.held_of_loop? alive
    rw [h.bufferSize] at step
    obtain ⟨w', sizes', hcopies', htally, hreports⟩ := h.tally.goesOn hcopies step
    have hid := CopyLoop.id_of_goesOn step
    have hevents : ((q.putLoop l').report report.toList).events = p.events ++ copying sizes' := by
      rw [events_report, events_putLoop, h.events, hreports, List.append_assoc]
    have hruns : Runs p base arrived sizes' ((q.putLoop l').report report.toList) l' :=
      ⟨(hplace.putLoop hid).report _, hid.trans h.id, h.bufferSize, hevents, ⟨w', hcopies'⟩,
        htally⟩
    exact hruns.goesOn rfl
  | @ends k l' failure alive step =>
    right
    cases hplace.held_of_loop? alive
    rw [h.bufferSize] at step
    obtain ⟨htotal, hcarries, hdrained⟩ := hcopies.ends step
    obtain ⟨ending, hover, hfailure, hdrains⟩ := CopyLoop.exists_over_of_ends step
    have hatEnd := fun hending => (hdrained (hdrains.1 hending)).2
    have hbalance := h.tally.balance hcopies hover hcarries hatEnd
    have hevents : (q.finishLoop l' failure).events = p.events ++ copied sizes ending.failure := by
      rw [events_finishLoop, h.events, htotal, hfailure, copied, List.append_assoc]
    exact ⟨rfl, ending, l'.ends, hplace.finishLoop (CopyLoop.id_of_ends step) failure, hover,
      hevents, w, _, hbalance⟩
  | givesUp alive told =>
    right
    cases hplace.held_of_loop? alive
    have hover : l.Over p.bufferSize (.gaveUp l.phase) l.ends := .givesUp told
    have hbalance := h.tally.balance hcopies hover hcopies.carries fun hend => by cases hend
    have hevents : (q.finishLoop l none).events = p.events ++ copied sizes none := by
      rw [events_finishLoop, h.events, hcopies.total, copied, List.append_assoc]
    exact ⟨rfl, .gaveUp l.phase, l.ends, hplace.finishLoop rfl none, hover, hevents, w, _,
      hbalance⟩
  | fed arrivals =>
    left
    exact ⟨_, sizes, hplace.updateEnds _, h.id, h.bufferSize, h.events,
      ⟨w, hcopies.carries.feed arrivals, hcopies.total⟩, h.tally.congr rfl rfl rfl⟩
  | ruled rule =>
    have hruns : Runs p base arrived sizes
        (q.updateEnds fun e => { e with sink := { e.sink with intake := rule } })
        { l with ends := { l.ends with sink := { l.ends.sink with intake := rule } } } :=
      ⟨hplace.updateEnds _, h.id, h.bufferSize, h.events,
        ⟨w, hcopies.carries.setIntake rule, hcopies.total⟩, h.tally.congr rfl rfl rfl⟩
    exact hruns.goesOn rfl

/-- The loop of a run is found as long as it goes on. -/
theorem Runs.loop?_eq (h : Runs p base arrived sizes q l) : q.loop? (p.spawned + 1) = some l := by
  simp [loop?, h.place.loops, Place.loops, h.id]

/-- A run whose loop is alive goes on. -/
theorem Runs.after (h : Runs p base arrived sizes q l) {acts : List Act}
    (halive : ∀ front rest, acts = front ++ rest → (q.after front).loop? (p.spawned + 1) ≠ none) :
    ∃ l' sizes', Runs p base (arrived ++ acts.flatMap Act.arrivals) sizes' (q.after acts) l' := by
  induction acts generalizing q l arrived sizes with
  | nil => exact ⟨l, sizes, by simpa using h⟩
  | cons a acts ih =>
    rcases h.acted (Pipe.acted q a) with ⟨l', sizes', hruns⟩ | ⟨_, ending, e, hran⟩
    · have hrest : ∀ front rest, acts = front ++ rest →
          ((q.act a).after front).loop? (p.spawned + 1) ≠ none := by
        intro front rest hsplit
        exact halive (a :: front) rest (congrArg (a :: ·) hsplit)
      have := ih hruns hrest
      simpa [List.append_assoc] using this
    · have hnone : (q.act a).loop? (p.spawned + 1) = none := by
        simp [loop?, hran.place.loops, Place.loops]
      exact absurd hnone (halive [a] acts rfl)

/-- A run begins with the ends in the hands of its loop. -/
theorem runs_start (hplace : p.IsAt (.slot base)) (hstart : p.start.1 = true)
    (hfits : p.bufferSize ≤ maxBuffer) :
    ∃ l, Runs p base [] [] p.start.2 l := by
  obtain ⟨hstopped, _⟩ := (start_eq_true_iff p).1 hstart
  have heq : p.start.2 =
      ({ p with
        slot := none
        isRunning := true
        loops := p.loops ++ [{ id := p.spawned + 1, ends := base }]
        spawned := p.spawned + 1
        pending := some (p.spawned + 1) } : Pipe).report [.started] := by
    simp [start, hstopped, hplace.slot, Place.slot?, hfits]
  refine ⟨{ id := p.spawned + 1, ends := base }, ?_⟩
  rw [heq]
  constructor
  · exact ⟨rfl, hplace.released, by simp [Pipe.report, hplace.loops, Place.loops]⟩
  · rfl
  · rfl
  · exact events_report _ _
  · exact ⟨[], .refl base, rfl⟩
  · exact tally_start base p.bufferSize _

/-! ## Whole runs -/

/-- A whole run of a pipe that is as `p` is: it is started, and whatever happens then happens as
long as the loop of that run is alive. -/
structure WholeRun (p : Pipe) where
  during : List Act
  started : p.start.1 = true
  alive : ∀ front a rest, during = front ++ a :: rest →
    (p.start.2.after front).loop? (p.spawned + 1) ≠ none
  ended : (p.start.2.after during).loop? (p.spawned + 1) = none

namespace WholeRun

/-- The pipe when the run is over. -/
def last (r : WholeRun p) : Pipe := p.start.2.after r.during

/-- The ends as the run takes them. -/
def taken (r : WholeRun p) : Ends := p.slot.get ((start_eq_true_iff p).1 r.started).2

/-- The ends as the run hands them back. -/
def handed (r : WholeRun p) : Ends := r.last.slot.getD r.taken

/-- The bytes of the source up to its end, as far as they have arrived when the run is over. -/
def stream (r : WholeRun p) : Bytes :=
  Source.streamed (r.taken.source.arrivals ++ r.during.flatMap Act.arrivals)

/-- The bytes that the run has read. -/
def read (r : WholeRun p) : Bytes :=
  r.stream.take (r.handed.source.consumed - r.taken.source.consumed)

/-- The bytes that the sink has taken in the run. -/
def delivered (r : WholeRun p) : Bytes :=
  r.handed.sink.accepted.drop r.taken.sink.accepted.length

/-- The accounts of a run with a buffer of some size that has copied chunks of these sizes. -/
structure Account (r : WholeRun p) (bufferSize : Nat) (sizes : List Nat) (ending : RunEnd) :
    Prop where
  /-- The run has come to its end by a last step of its loop, which hands back the ends. -/
  ended : ∃ l, (p.start.2.after r.during.dropLast).loop? (p.spawned + 1) = some l ∧
    l.Over bufferSize ending r.handed ∧ r.last.slot = some r.handed
  /-- It has reported its beginning, its chunks, at most one failure, and its end with the sum of
  the chunks. -/
  events : r.last.events = p.events ++ copied sizes ending.failure
  /-- No chunk is empty or larger than the buffer. -/
  pieces : ∀ n ∈ sizes, 1 ≤ n ∧ n ≤ bufferSize
  /-- Nothing that the sink had taken is lost. -/
  accepted : r.handed.sink.accepted = r.taken.sink.accepted ++ r.delivered
  /-- The sink has taken the bytes that were reported, and perhaps a front of the bytes that were
  read behind them, if the run ended while it was writing these. -/
  delivered : ∃ extra, r.delivered = r.read.take sizes.sum ++ extra ∧
    extra <+: r.read.drop sizes.sum ∧ (extra ≠ [] → ending.isWriting = true)
  /-- The bytes that were read behind those that were reported are at most a chunk. -/
  chunk : sizes.sum ≤ r.read.length ∧ (r.read.drop sizes.sum).length ≤ bufferSize
  /-- At the end of the source everything was delivered and reported. -/
  drained : ending = .drained → r.delivered = r.stream ∧ sizes.sum = r.stream.length
  /-- Whatever is reported later begins with another run. -/
  next : ∀ acts, ∃ news, (r.last.after acts).events = r.last.events ++ news ∧
    (news = [] ∨ ∃ more, news = .started :: more)

end WholeRun

theorem exists_news_after (p : Pipe) (acts : List Act) :
    ∃ news, (p.after acts).events = p.events ++ news := by
  induction acts generalizing p with
  | nil => exact ⟨[], (List.append_nil _).symm⟩
  | cons a acts ih =>
    obtain ⟨news, hnews, _⟩ := (acted p a).exists_news
    obtain ⟨more, hmore⟩ := ih (p.act a)
    exact ⟨news ++ more, by rw [after_cons, hmore, hnews, List.append_assoc]⟩

/-- A pipe without a loop has nothing to report but the beginning of a run. -/
theorem Acted.quiet_or_started (h : Acted p a q) (hloops : p.loops = []) :
    (q.loops = [] ∧ q.events = p.events) ∨ q.events = p.events ++ [.started] := by
  cases h with
  | stays => exact .inl ⟨hloops, rfl⟩
  | starts => exact .inr (events_report _ _)
  | loses => exact .inr (events_report _ _)
  | tells => exact .inl ⟨by simp [cancel, hloops], rfl⟩
  | looks => exact .inl ⟨hloops, rfl⟩
  | releases => exact .inl ⟨hloops, rfl⟩
  | drops => exact .inl ⟨by simp [cancel, hloops], rfl⟩
  | goesOn alive => simp [loop?, hloops] at alive
  | ends alive => simp [loop?, hloops] at alive
  | givesUp alive => simp [loop?, hloops] at alive
  | fed => exact .inl ⟨by simp [updateEnds, hloops], rfl⟩
  | ruled => exact .inl ⟨by simp [updateEnds, hloops], rfl⟩

theorem exists_news_of_loops (hloops : p.loops = []) (acts : List Act) :
    ∃ news, (p.after acts).events = p.events ++ news ∧
      (news = [] ∨ ∃ more, news = .started :: more) := by
  induction acts generalizing p with
  | nil => exact ⟨[], (List.append_nil _).symm, .inl rfl⟩
  | cons a acts ih =>
    rcases (acted p a).quiet_or_started hloops with ⟨hnone, hsame⟩ | hstarted
    · obtain ⟨news, hnews, hfirst⟩ := ih hnone
      exact ⟨news, by rw [after_cons, hnews, hsame], hfirst⟩
    · obtain ⟨news, hnews⟩ := exists_news_after (p.act a) acts
      refine ⟨.started :: news, ?_, .inr ⟨news, rfl⟩⟩
      rw [after_cons, hnews, hstarted, List.append_assoc]
      rfl

namespace WholeRun

variable {bufferSize : Nat} {sizes : List Nat} {ending : RunEnd}

theorem slot_eq (r : WholeRun p) : p.slot = some r.taken := (Option.some_get _).symm

/-- A balance at the end of a run is its account. -/
theorem account_of_ran {r : WholeRun p} {l : CopyLoop} {e : Ends}
    (hloop : (p.start.2.after r.during.dropLast).loop? (p.spawned + 1) = some l)
    (h : Ran p r.taken (r.during.flatMap Act.arrivals) sizes l ending r.last e) :
    r.Account p.bufferSize sizes ending := by
  obtain ⟨hplace, hover, hevents, w, rest, hbalance⟩ := h
  have hslot : r.last.slot = some e := hplace.slot
  have hhanded : r.handed = e := by rw [handed, hslot, Option.getD_some]
  have hstreamed := hbalance.carries.passes.streamed_eq
  have hreported := hbalance.reported
  have hchunk := hbalance.chunk
  have hread : r.read = w ++ rest := by
    have hcount : e.source.consumed - r.taken.source.consumed = (w ++ rest).length := by
      have := hbalance.carries.reads
      omega
    rw [read, stream, hhanded, hstreamed, hcount, List.take_left]
  have hdelivered : r.delivered = w := by
    rw [delivered, hhanded, hbalance.carries.writes, List.drop_left]
  have htake : (w ++ rest).take sizes.sum = w.take sizes.sum :=
    List.take_append_of_le_length hreported
  have hdrop : (w ++ rest).drop sizes.sum = w.drop sizes.sum ++ rest :=
    List.drop_append_of_le_length hreported
  constructor
  · rw [hhanded]
    exact ⟨l, hloop, hover, hslot⟩
  · exact hevents
  · exact hbalance.pieces
  · rw [hhanded, hdelivered, hbalance.carries.writes]
  · refine ⟨w.drop sizes.sum, ?_, ?_, ?_⟩
    · rw [hdelivered, hread, htake, List.take_append_drop]
    · rw [hread, hdrop]
      exact List.prefix_append _ _
    · intro hextra
      cases hwriting : ending.isWriting with
      | true => rfl
      | false =>
        have hwhole := hbalance.whole hwriting
        rw [List.length_append] at hwhole
        exact absurd (List.drop_eq_nil_of_le (by omega)) hextra
  · rw [List.length_append] at hchunk
    rw [hread, List.length_drop, List.length_append]
    omega
  · intro hdrained
    subst hdrained
    have hwhole := hbalance.whole rfl
    rw [List.length_append] at hwhole
    have hrest : rest = [] := List.eq_nil_of_length_eq_zero (by omega)
    have hend : Source.streamed e.source.arrivals = [] := by
      simpa using (hbalance.drained rfl).streamed_append []
    have hstream : r.stream = w := by rw [stream, hstreamed, hend, hrest]; simp
    rw [hdelivered, hstream]
    exact ⟨rfl, by omega⟩
  · exact exists_news_of_loops hplace.loops

/-- A run whose buffer can be has an account. -/
theorem exists_account (hplace : ∃ place, p.IsAt place) (r : WholeRun p)
    (hfits : p.bufferSize ≤ maxBuffer) : ∃ sizes ending, r.Account p.bufferSize sizes ending := by
  obtain ⟨place, hat⟩ := hplace
  obtain rfl := hat.eq_slot r.slot_eq
  obtain ⟨l, hruns⟩ := runs_start hat r.started hfits
  rcases List.eq_nil_or_concat r.during with hnil | ⟨acts, a, hduring⟩
  · have hover := r.ended
    rw [hnil, after_nil, hruns.loop?_eq] at hover
    cases hover
  · rw [List.concat_eq_append] at hduring
    have halive : ∀ front rest, acts = front ++ rest →
        (p.start.2.after front).loop? (p.spawned + 1) ≠ none := by
      intro front rest hsplit
      cases rest with
      | nil => exact r.alive front a [] (by simpa [hsplit] using hduring)
      | cons b rest => exact r.alive front b (rest ++ [a]) (by simpa [hsplit] using hduring)
    obtain ⟨k, sizes, hlater⟩ := hruns.after halive
    have hlast : r.last = (p.start.2.after acts).act a := by
      rw [last, hduring, after_append]
      rfl
    have hover := r.ended
    rw [← last, hlast] at hover
    rcases hlater.acted (Pipe.acted _ a) with ⟨k', sizes', hmore⟩ | ⟨hquiet, ending, e, hran⟩
    · rw [hmore.loop?_eq] at hover
      cases hover
    · have harrived : r.during.flatMap Act.arrivals = [] ++ acts.flatMap Act.arrivals := by
        simp [hduring, hquiet]
      have hfront : r.during.dropLast = acts := by simp [hduring]
      rw [← harrived, ← hlast] at hran
      have hloop := hlater.loop?_eq
      rw [← hfront] at hloop
      exact ⟨sizes, ending, account_of_ran hloop hran⟩

end WholeRun

/-! ## Coming to an end -/

/-- How far a loop is from its end at most, if nothing more arrives. -/
def effort (l : CopyLoop) : Nat :=
  3 * l.ends.source.pending.length + match l.phase with
    | .reading => 2
    | .writing _ rest => rest.length + 3
    | .flushing _ => 3

theorem effort_of_goesOn {report : Option PipeEvent} (h : l.step bufferSize = .goesOn l' report) :
    effort l' < effort l := by
  have hstepped := l.stepped bufferSize
  rw [h] at hstepped
  cases hstepped with
  | @reads piece source phase read =>
    have hpending := congrArg List.length (Source.handed_append_pending bufferSize l.ends.source)
    have hpiece := piece.nonempty
    rw [read, List.length_append] at hpending
    simp only [Source.handed] at hpending
    simp only [effort, phase]
    omega
  | @writes size rest count sink phase write takes =>
    have hcount := count.isLt
    simp only [effort, phase]
    by_cases hempty : (rest.drop count.val).isEmpty
    · simp only [if_pos hempty]
      omega
    · simp only [if_neg hempty, List.length_drop]
      omega
  | flushes phase flush =>
    simp only [effort, phase]
    omega

/-- Steps that a loop takes by itself. -/
def IsOwn (id : Nat) (acts : List Act) : Prop := ∀ a ∈ acts, a = .advance id ∨ a = .abandon id

/-- A loop can take steps until it is over, or was not told to give up and waits for its ends. -/
theorem IsAt.exists_own (h : p.IsAt (.held l)) :
    ∃ acts, IsOwn l.id acts ∧ ((p.after acts).loop? l.id = none ∨
      ∃ l', (p.after acts).loop? l.id = some l' ∧ l'.isCancelled = false ∧
        l'.step p.bufferSize = .waits) := by
  induction heffort : effort l using Nat.strongRecOn generalizing p l with
  | ind effort ih =>
    subst heffort
    have hloop : p.loop? l.id = some l := by simp [loop?, h.loops, Place.loops]
    have hnone : ∀ (k : CopyLoop) (failure : Option IoFailure), k.id = l.id →
        (p.finishLoop k failure).loop? l.id = none := by
      intro k failure hid
      have hslot := h.finishLoop hid failure
      simp [loop?, hslot.loops, Place.loops]
    cases hstep : l.step p.bufferSize with
    | waits =>
      cases htold : l.isCancelled with
      | false => exact ⟨[], by simp [IsOwn], .inr ⟨l, hloop, htold, hstep⟩⟩
      | true =>
        have hact : p.act (.abandon l.id) = p.finishLoop l none := by
          simp [Pipe.act, Pipe.abandon, hloop, htold]
        refine ⟨[.abandon l.id], by simp [IsOwn], .inl ?_⟩
        rw [after_cons, hact]
        exact hnone l none rfl
    | goesOn l' report =>
      have hid := CopyLoop.id_of_goesOn hstep
      have hact : p.act (.advance l.id) = (p.putLoop l').report report.toList := by
        simp [Pipe.act, Pipe.advance, hloop, hstep]
      have hplace : (p.act (.advance l.id)).IsAt (.held l') := by
        rw [hact]
        exact (h.putLoop hid).report _
      obtain ⟨acts, hown, hcomes⟩ := ih _ (effort_of_goesOn hstep) hplace rfl
      rw [hid] at hown hcomes
      have hsize : (p.act (.advance l.id)).bufferSize = p.bufferSize :=
        (acted p _).bufferSize_eq
      rw [hsize] at hcomes
      refine ⟨.advance l.id :: acts, ?_, hcomes⟩
      intro a ha
      rcases List.mem_cons.1 ha with rfl | ha
      · exact .inl rfl
      · exact hown a ha
    | ends l' failure =>
      have hact : p.act (.advance l.id) = p.finishLoop l' failure := by
        simp [Pipe.act, Pipe.advance, hloop, hstep]
      refine ⟨[.advance l.id], by simp [IsOwn], .inl ?_⟩
      rw [after_cons, hact]
      exact hnone l' failure (CopyLoop.id_of_ends hstep)

/-! ## Runs whose buffer cannot be -/

theorem loop?_start_of_exceeds (hplace : p.IsAt (.slot base)) (hexceeds : maxBuffer < p.bufferSize)
    (id : Nat) : p.start.2.loop? id = none := by
  have hacted := acted_start p
  generalize p.start.2 = q at hacted
  cases hacted with
  | stays => simp [loop?, hplace.loops, Place.loops]
  | starts _ _ fits => omega
  | loses => simp [loop?, Pipe.report, hplace.loops, Place.loops]
  | tells _ running => simp [loop?, cancel, hplace.loops, Place.loops]

namespace WholeRun

/-- Such a run is over as soon as it has begun. -/
theorem during_of_exceeds (hplace : ∃ place, p.IsAt place) (r : WholeRun p)
    (hexceeds : maxBuffer < p.bufferSize) : r.during = [] := by
  obtain ⟨place, hat⟩ := hplace
  obtain rfl := hat.eq_slot r.slot_eq
  cases hduring : r.during with
  | nil => rfl
  | cons a acts => exact absurd (loop?_start_of_exceeds hat hexceeds _) (r.alive [] a acts hduring)

/-- It has no account, since no step of a loop has brought it to its end. -/
theorem not_account_of_exceeds (hplace : ∃ place, p.IsAt place) (r : WholeRun p)
    (hexceeds : maxBuffer < p.bufferSize) {bufferSize : Nat} {sizes : List Nat} {ending : RunEnd} :
    ¬ r.Account bufferSize sizes ending := by
  intro h
  obtain ⟨l, hloop, _⟩ := h.ended
  obtain ⟨place, hat⟩ := hplace
  have hduring := r.during_of_exceeds ⟨place, hat⟩ hexceeds
  obtain rfl := hat.eq_slot r.slot_eq
  rw [hduring, List.dropLast_nil, after_nil, loop?_start_of_exceeds hat hexceeds] at hloop
  cases hloop

end WholeRun

/-! ## Main statement -/

/-- In every life of a pipe, a run has an account exactly if its buffer can be. Two runs that have
drained sources of the same bytes have delivered and counted the same, whatever their buffers and
whatever pieces the bytes came and went in. And a run that is not over comes to its end by steps of
its own loop, unless it was not told to give up and waits for its source or its sink. -/
theorem accounts_iff (bufferSize : Nat) (ends : Ends) (before : List Act)
    (r : WholeRun ((new bufferSize ends).after before)) :
    ((∃ sizes ending, r.Account (max bufferSize 1) sizes ending) ↔ bufferSize ≤ maxBuffer) ∧
    (∀ bufferSize' ends' before' (r' : WholeRun ((new bufferSize' ends').after before')) sizes
      sizes', r.Account (max bufferSize 1) sizes .drained →
      r'.Account (max bufferSize' 1) sizes' .drained → r.stream = r'.stream →
      r.delivered = r'.delivered ∧ sizes.sum = sizes'.sum) ∧
    (∀ acts, ∀ l ∈ ((new bufferSize ends).after acts).loops, ∃ own, IsOwn l.id own ∧
      ((((new bufferSize ends).after acts).after own).loop? l.id = none ∨
        ∃ l', (((new bufferSize ends).after acts).after own).loop? l.id = some l' ∧
          l'.isCancelled = false ∧ l'.step (max bufferSize 1) = .waits)) := by
  have hat := exists_isAt_after (isAt_new bufferSize ends)
  have hsize : ∀ acts, ((new bufferSize ends).after acts).bufferSize = max bufferSize 1 :=
    bufferSize_after _
  have hmax : max bufferSize 1 ≤ maxBuffer ↔ bufferSize ≤ maxBuffer := by
    have hone : 1 ≤ maxBuffer := by decide
    omega
  refine ⟨⟨?_, ?_⟩, ?_, ?_⟩
  · rintro ⟨sizes, ending, haccount⟩
    by_cases hfits : bufferSize ≤ maxBuffer
    · exact hfits
    · have hexceeds : maxBuffer < ((new bufferSize ends).after before).bufferSize := by
        rw [hsize]
        omega
      exact absurd haccount (r.not_account_of_exceeds (hat before) hexceeds)
  · intro hfits
    rw [← hsize before]
    exact r.exists_account (hat before) (by rw [hsize, hmax]; exact hfits)
  · intro bufferSize' ends' before' r' sizes sizes' h h' hstream
    obtain ⟨hdelivered, hsum⟩ := h.drained rfl
    obtain ⟨hdelivered', hsum'⟩ := h'.drained rfl
    rw [hdelivered, hdelivered', hsum, hsum', hstream]
    exact ⟨rfl, rfl⟩
  · intro acts l hl
    obtain ⟨place, hplace⟩ := hat acts
    rw [← hsize acts]
    rw [hplace.loops] at hl
    cases place with
    | held k =>
      obtain rfl := List.mem_singleton.1 hl
      exact hplace.exists_own
    | slot e => cases hl
    | released e => cases hl
    | lost => cases hl

/-! ## Runs of three bytes -/

theorem alive_of_take {id : Nat} {acts : List Act}
    (h : ∀ n < acts.length, ((p.after (acts.take n)).loop? id).isSome) (front : List Act) (a : Act)
    (rest : List Act) (hsplit : acts = front ++ a :: rest) : (p.after front).loop? id ≠ none := by
  have halive := h front.length (by simp [hsplit])
  rw [hsplit, List.take_left] at halive
  exact Option.isSome_iff_ne_none.1 halive

/-- Three bytes go through a buffer of two, and then the source ends. -/
def drainedRun : WholeRun ((new 2 threeBytes).after []) where
  during := .feed [.finish] :: List.replicate 7 (.advance 1)
  started := rfl
  alive := alive_of_take (by decide)
  ended := by decide

theorem accounts_of_drainedRun :
    ((∃ sizes ending, drainedRun.Account (max 2 1) sizes ending) ↔ 2 ≤ maxBuffer) ∧
      drainedRun.last.events =
        [.started, .transferred 2, .transferred 1, .stopped 3] ∧
      drainedRun.delivered = [1, 2, 3] :=
  ⟨(accounts_iff 2 threeBytes [] drainedRun).1, by decide, by decide⟩

/-- The same three bytes, and a buffer that cannot be. -/
def lostRun : WholeRun ((new (maxBuffer + 1) threeBytes).after []) where
  during := []
  started := rfl
  alive := by simp
  ended := by decide

/-- The run has begun and is over. Its end was not reported, and the ends did not come back. -/
theorem no_account_without_buffer :
    lostRun.last.events = [.started] ∧ lostRun.last.slot = none ∧
      ¬ ∃ sizes ending, lostRun.Account (max (maxBuffer + 1) 1) sizes ending := by
  refine ⟨by decide, by decide, ?_⟩
  rintro ⟨sizes, ending, haccount⟩
  have hat := exists_isAt_after (isAt_new (maxBuffer + 1) threeBytes) []
  exact lostRun.not_account_of_exceeds hat (by decide) haccount

end Pipe

end Socks5

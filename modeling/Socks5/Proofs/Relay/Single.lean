import Mathlib.Algebra.GroupWithZero.Nat
import Socks5.Proofs.Relay.Life
import Socks5.Proofs.Stream.Arrivals

/-!
# The only run of a pipe

A pipe of a relay is started once and closed once. Until its loop is over, what it has read is
accepted by the sink or still to be written; then it has reported all that it copied. Main
statement: how far such a run has come, by the call that closes the pipe (`Run`), which every step
of the loop and of the call keeps (`Run.advance`, `Run.abandon`, `Run.close`), as does whatever
happens at the ends (`Run.feed`, `Run.setIntake`).
-/

namespace Socks5

/-! ## Reports -/

namespace PipeEvent

/-- The number of bytes that an event says were copied. -/
def size : PipeEvent → Nat
  | .transferred size => size
  | .started | .failed _ | .stopped _ => 0

/-- The failure that an event tells of. -/
def cause? : PipeEvent → Option IoFailure
  | .failed cause => some cause
  | .started | .transferred _ | .stopped _ => none

/-- The total that an event tells of. -/
def total? : PipeEvent → Option Nat
  | .stopped total => some total
  | .started | .transferred _ | .failed _ => none

end PipeEvent

namespace Pipe

/-- What a run has reported as long as it goes on: that it was started, and the chunks. -/
def copying (sizes : List Nat) : List PipeEvent := .started :: sizes.map .transferred

/-- What a run has reported when it is over: in the end its failure, if there was one, and the sum
of the chunks. -/
def copied (sizes : List Nat) (failure : Option IoFailure) : List PipeEvent :=
  copying sizes ++ ((failure.map .failed).toList ++ [.stopped sizes.sum])

theorem copying_concat (sizes : List Nat) (size : Nat) :
    copying (sizes ++ [size]) = copying sizes ++ [.transferred size] := by
  simp [copying]

theorem sum_size_copying (sizes : List Nat) :
    ((copying sizes).map PipeEvent.size).sum = sizes.sum := by
  simp [copying, Function.comp_def, PipeEvent.size]

theorem sum_size_copied (sizes : List Nat) (failure : Option IoFailure) :
    ((copied sizes failure).map PipeEvent.size).sum = sizes.sum := by
  rw [copied, List.map_append, List.sum_append, sum_size_copying]
  cases failure <;> rfl

/-- The last total that events tell of. -/
def lastTotal (events : List PipeEvent) : Nat := events.foldl (fun n e => e.total?.getD n) 0

theorem lastTotal_copying (sizes : List Nat) : lastTotal (copying sizes) = 0 := by
  show (sizes.map PipeEvent.transferred).foldl (fun n e => e.total?.getD n) 0 = 0
  induction sizes with
  | nil => rfl
  | cons size sizes ih => exact ih

theorem lastTotal_copied (sizes : List Nat) (failure : Option IoFailure) :
    lastTotal (copied sizes failure) = sizes.sum := by
  rw [lastTotal, copied, ← List.append_assoc, List.foldl_append]
  rfl

/-! ## Bytes -/

/-- The bytes `w` have gone from one end to the other since the ends were at `base`, and `rest` was
read and is not written. -/
structure Carries (base : Ends) (arrived : List Arrival) (w rest : Bytes) (e : Ends) : Prop where
  passes : Source.Passes (base.source.arrivals ++ arrived) (w ++ rest) e.source.arrivals
  reads : e.source.consumed = base.source.consumed + (w ++ rest).length
  writes : e.sink.accepted = base.sink.accepted ++ w

variable {base e : Ends} {arrived : List Arrival} {w rest : Bytes}

theorem Carries.refl (base : Ends) : Carries base [] [] [] base := by
  refine ⟨?_, rfl, by rw [List.append_nil]⟩
  rw [List.append_nil]
  exact .refl _

/-- What was carried is the front of what was read. -/
theorem Carries.isPrefix (h : Carries base arrived w rest e) :
    w <+: (Source.streamed (base.source.arrivals ++ arrived)).take
      (e.source.consumed - base.source.consumed) := by
  have hread : (Source.streamed (base.source.arrivals ++ arrived)).take
      (e.source.consumed - base.source.consumed) = w ++ rest := by
    rw [h.passes.streamed_eq]
    exact List.take_left' (by have := h.reads; omega)
  rw [hread]
  exact List.prefix_append w rest

theorem Carries.feed (h : Carries base arrived w rest e) (arrivals : List Arrival) :
    Carries base (arrived ++ arrivals) w rest { e with source := e.source.feed arrivals } := by
  refine ⟨?_, h.reads, h.writes⟩
  rw [← List.append_assoc]
  exact h.passes.append arrivals

theorem Carries.setIntake (h : Carries base arrived w rest e) (rule : Intake) :
    Carries base arrived w rest { e with sink := { e.sink with intake := rule } } :=
  ⟨h.passes, h.reads, h.writes⟩

/-- What is read is carried next. -/
theorem Carries.read (h : Carries base arrived w [] e) (room : Nat) :
    Carries base arrived w (Source.handed (e.source.read room).1)
      { e with source := (e.source.read room).2 } := by
  have hpasses := h.passes.trans (Source.passes_readFrom room e.source.arrivals)
  have hreads := h.reads
  rw [List.append_nil] at hpasses hreads
  refine ⟨hpasses, ?_, h.writes⟩
  rw [Source.consumed_read, hreads, List.length_append, Nat.add_assoc]

/-- What is written has been carried. -/
theorem Carries.write (h : Carries base arrived w rest e) :
    Carries base arrived (w ++ rest.take (Sink.taken (e.sink.write rest).1))
      (rest.drop (Sink.taken (e.sink.write rest).1))
      { e with sink := (e.sink.write rest).2 } := by
  have hall : w ++ rest.take (Sink.taken (e.sink.write rest).1) ++
      rest.drop (Sink.taken (e.sink.write rest).1) = w ++ rest := by
    rw [List.append_assoc, List.take_append_drop]
  refine ⟨?_, ?_, ?_⟩
  · rw [hall]
    exact h.passes
  · rw [hall]
    exact h.reads
  · show (e.sink.write rest).2.accepted = _
    rw [Sink.accepted_write, h.writes, List.append_assoc]

/-! ## Steps of a loop -/

/-- A loop with what it has carried and reported. -/
structure Copies (base : Ends) (arrived : List Arrival) (w : Bytes) (sizes : List Nat)
    (l : CopyLoop) : Prop where
  carries : Carries base arrived w l.unwritten l.ends
  total : l.total = sizes.sum

variable {sizes : List Nat} {l l' : CopyLoop} {bufferSize : Nat}

/-- A loop that goes on has carried what the sink has taken, and has reported each chunk. -/
theorem Copies.goesOn {report : Option PipeEvent} (h : Copies base arrived w sizes l)
    (hstep : l.step bufferSize = .goesOn l' report) :
    ∃ w' sizes', Copies base arrived w' sizes' l' ∧
      copying sizes' = copying sizes ++ report.toList := by
  obtain ⟨hcarries, htotal⟩ := h
  have hstepped := l.stepped bufferSize
  rw [hstep] at hstepped
  cases hstepped with
  | @reads piece source phase read =>
    have hunwritten : l.unwritten = [] := by rw [CopyLoop.unwritten, phase]
    rw [hunwritten] at hcarries
    have hread := hcarries.read bufferSize
    rw [read] at hread
    exact ⟨w, sizes, ⟨hread, htotal⟩, by simp⟩
  | @writes size rest count sink phase write takes =>
    have hunwritten : l.unwritten = rest := by rw [CopyLoop.unwritten, phase]
    rw [hunwritten] at hcarries
    have hwrite := hcarries.write
    rw [write] at hwrite
    refine ⟨w ++ rest.take count.val, sizes, ⟨?_, htotal⟩, by simp⟩
    rw [CopyLoop.unwritten_left]
    exact hwrite
  | @flushes size phase flush =>
    have hunwritten : l.unwritten = [] := by rw [CopyLoop.unwritten, phase]
    rw [hunwritten] at hcarries
    refine ⟨w, sizes ++ [size], ⟨⟨hcarries.passes, hcarries.reads, hcarries.writes⟩, ?_⟩, ?_⟩
    · show l.total + size = _
      rw [htotal, List.sum_append, List.sum_singleton]
    · exact copying_concat sizes size

/-- A loop that ends without being told to and without a failure has carried all that there was. -/
def Drained (failure : Option IoFailure) (rest : Bytes) (e : Ends) : Prop :=
  failure = none → rest = [] ∧ Source.AtEnd e.source.arrivals

theorem drained_some (cause : IoFailure) (rest : Bytes) (e : Ends) :
    Drained (some cause) rest e := by
  intro h
  cases h

/-- The last step of a loop carries nothing. -/
theorem Copies.ends {failure : Option IoFailure} (h : Copies base arrived w sizes l)
    (hstep : l.step bufferSize = .ends l' failure) :
    l'.total = sizes.sum ∧ Carries base arrived w l.unwritten l'.ends ∧
      Drained failure l.unwritten l'.ends := by
  obtain ⟨hcarries, htotal⟩ := h
  have hstepped := l.stepped bufferSize
  rw [hstep] at hstepped
  have hread : ∀ {answer source}, l.phase = .reading →
      l.ends.source.read bufferSize = (answer, source) → Source.handed answer = [] →
      Carries base arrived w l.unwritten { l.ends with source } := by
    intro answer source hphase hread hhanded
    have hunwritten : l.unwritten = [] := by rw [CopyLoop.unwritten, hphase]
    rw [hunwritten] at hcarries ⊢
    have h := hcarries.read bufferSize
    rwa [hread, hhanded] at h
  have hwrite : ∀ {size rest answer sink}, l.phase = .writing size rest →
      l.ends.sink.write rest = (answer, sink) → Sink.taken answer = 0 →
      Carries base arrived w l.unwritten { l.ends with sink } := by
    intro size rest answer sink hphase hwrite htaken
    have hunwritten : l.unwritten = rest := by rw [CopyLoop.unwritten, hphase]
    rw [hunwritten] at hcarries ⊢
    have h := hcarries.write
    rwa [hwrite, htaken, List.take_zero, List.append_nil, List.drop_zero] at h
  cases hstepped with
  | @drains source phase read =>
    refine ⟨htotal, hread phase read rfl, fun _ => ⟨?_, ?_⟩⟩
    · rw [CopyLoop.unwritten, phase]
    · have hsource : Source.readFrom bufferSize l.ends.source.arrivals =
          (some (.ok none), source.arrivals) := by
        rw [Source.read, Prod.mk.injEq] at read
        exact Prod.ext read.1 (congrArg Source.arrivals read.2)
      exact Source.atEnd_of_readFrom hsource
  | breaks phase read => exact ⟨htotal, hread phase read rfl, drained_some _ _ _⟩
  | refuses phase write takes => exact ⟨htotal, hwrite phase write takes, drained_some _ _ _⟩
  | fails phase write => exact ⟨htotal, hwrite phase write rfl, drained_some _ _ _⟩
  | sticks phase flush =>
    exact ⟨htotal, ⟨hcarries.passes, hcarries.reads, hcarries.writes⟩, drained_some _ _ _⟩

/-! ## The run and the call -/

/-- How a call stands to a loop that is alive: it has not told it to give up, or waits for it. -/
inductive Expects (p : Pipe) (l : CopyLoop) : CloseCall → Prop where
  | nothing (running : p.isRunning) (pending : p.pending = some 1)
      (untold : l.isCancelled = false) :
      Expects p l (.stopping .begun)
  | itsEnd (told : l.isCancelled) : Expects p l (.stopping (.waiting (some 1)))

/-- How far the only run of a pipe has come, and the call that closes the pipe. It is number 1. -/
inductive Run (bufferSize : Nat) (base : Ends) (arrived : List Arrival) (p : Pipe) :
    CloseCall → Prop where
  | copies {l : CopyLoop} {w : Bytes} {sizes : List Nat} {call : CloseCall}
      (fits : bufferSize ≤ maxBuffer) (place : p.IsAt (.held l)) (id : l.id = 1)
      (spawned : p.spawned = 1) (books : Copies base arrived w sizes l)
      (reports : p.events = copying sizes) (expects : Expects p l call) :
      Run bufferSize base arrived p call
  | ended {e : Ends} {w rest : Bytes} {sizes : List Nat} {failure : Option IoFailure}
      {call : CloseCall} (fits : bufferSize ≤ maxBuffer) (place : p.IsAt (.slot e))
      (books : Carries base arrived w rest e) (reports : p.events = copied sizes failure)
      (drained : call = .stopping .begun → Drained failure rest e) (more : call ≠ .returned) :
      Run bufferSize base arrived p call
  | shut {e : Ends} {w rest : Bytes} {sizes : List Nat} {failure : Option IoFailure}
      (fits : bufferSize ≤ maxBuffer) (place : p.IsAt (.released e))
      (books : Carries base arrived w rest e) (reports : p.events = copied sizes failure) :
      Run bufferSize base arrived p .returned
  | lost {call : CloseCall} (exceeds : maxBuffer < bufferSize) (place : p.IsAt .lost)
      (reports : p.events = copying []) : Run bufferSize base arrived p call

variable {p q : Pipe} {call call' : CloseCall}

theorem events_putLoop (p : Pipe) (l : CopyLoop) : (p.putLoop l).events = p.events := rfl

theorem events_finishLoop (p : Pipe) (l : CopyLoop) (failure : Option IoFailure) :
    (p.finishLoop l failure).events =
      p.events ++ ((failure.map .failed).toList ++ [.stopped l.total]) := by
  rw [finishLoop, events_report]
  rfl

theorem events_start (bufferSize : Nat) (ends : Ends) :
    (new bufferSize ends).start.2.events = [.started] := events_report _ _

/-- The run of a pipe begins with the ends in the hands of its loop, unless there is no buffer of
that size. -/
theorem run_start (bufferSize : Nat) (base : Ends) :
    Run bufferSize base [] (new bufferSize base).start.2 (.stopping .begun) := by
  by_cases hfits : bufferSize ≤ maxBuffer
  · have hmax : max bufferSize 1 ≤ maxBuffer := Nat.max_le.2 ⟨hfits, by decide⟩
    have hstart : (new bufferSize base).start.2 =
        Pipe.report
          { bufferSize := max bufferSize 1
            slot := none
            isRunning := true
            loops := [{ id := 1, ends := base }]
            spawned := 1
            pending := some 1 } [.started] := by
      simp [start, new, hmax]
    rw [hstart]
    have hbooks : Copies base [] [] [] { id := 1, ends := base } := ⟨.refl base, rfl⟩
    exact .copies hfits ⟨rfl, rfl, rfl⟩ rfl rfl hbooks rfl (.nothing rfl rfl rfl)
  · have hmax : ¬ max bufferSize 1 ≤ maxBuffer := fun h =>
      hfits (Nat.le_trans (Nat.le_max_left bufferSize 1) h)
    have hstart : (new bufferSize base).start.2 =
        Pipe.report
          { bufferSize := max bufferSize 1
            slot := none
            isRunning := true
            spawned := 1
            pending := some 1 } [.started] := by
      simp [start, new, hmax]
    rw [hstart]
    exact .lost (by omega) ⟨rfl, rfl, rfl⟩ rfl

/-- What a step of the call that closes a pipe does. -/
inductive Closes (p : Pipe) : CloseCall → Pipe → CloseCall → Prop where
  | tells (running : p.isRunning) :
      Closes p (.stopping .begun) (Pipe.cancel { p with isRunning := false, pending := none })
        (.stopping (.waiting p.pending))
  | finds (stopped : p.isRunning = false) :
      Closes p (.stopping .begun) p (.stopping (.returned false))
  | joins {loop : Option Nat} (ended : p.isOver loop) :
      Closes p (.stopping (.waiting loop)) p (.stopping (.returned true))
  | looks (wasRunning : Bool) :
      Closes p (.stopping (.returned wasRunning)) { p with pending := none } (.waiting p.pending)
  | releases {loop : Option Nat} (ended : p.isOver loop) :
      Closes p (.waiting loop)
        { p with slot := none, released := p.slot.orElse fun _ => p.released } .returned

theorem closes_of_closeStep (h : p.closeStep call = some (q, call')) : Closes p call q call' := by
  cases call with
  | stopping call =>
    cases call with
    | begun =>
      cases hrunning : p.isRunning with
      | true =>
        simp only [closeStep, stopStep, hrunning, ↓reduceIte, Option.map_some, Option.some.injEq,
          Prod.mk.injEq] at h
        obtain ⟨rfl, rfl⟩ := h
        exact .tells hrunning
      | false =>
        simp only [closeStep, stopStep, hrunning, Bool.false_eq_true, ↓reduceIte, Option.map_some,
          Option.some.injEq, Prod.mk.injEq] at h
        obtain ⟨rfl, rfl⟩ := h
        exact .finds hrunning
    | waiting loop =>
      cases hover : p.isOver loop with
      | true =>
        simp only [closeStep, stopStep, hover, ↓reduceIte, Option.map_some, Option.some.injEq,
          Prod.mk.injEq] at h
        obtain ⟨rfl, rfl⟩ := h
        exact .joins hover
      | false => simp [closeStep, stopStep, hover] at h
    | returned wasRunning =>
      simp only [closeStep, Option.some.injEq, Prod.mk.injEq] at h
      obtain ⟨rfl, rfl⟩ := h
      exact .looks wasRunning
  | waiting loop =>
    cases hover : p.isOver loop with
    | true =>
      simp only [closeStep, hover, ↓reduceIte, Option.some.injEq, Prod.mk.injEq] at h
      obtain ⟨rfl, rfl⟩ := h
      exact .releases hover
    | false => simp [closeStep, hover] at h
  | returned => cases h

/-- A step of a loop adds to what was reported, and releases nothing. -/
theorem frame_advance {loop : Nat} (h : p.advance loop = some q) :
    q.released = p.released ∧ ∃ news, q.events = p.events ++ news := by
  unfold advance at h
  split at h
  · cases h
  · split at h
    · cases h
    · obtain rfl := Option.some.inj h
      exact ⟨rfl, _, events_report _ _⟩
    · obtain rfl := Option.some.inj h
      exact ⟨rfl, _, events_finishLoop _ _ _⟩

theorem frame_abandon {loop : Nat} (h : p.abandon loop = some q) :
    q.released = p.released ∧ ∃ news, q.events = p.events ++ news := by
  unfold abandon at h
  split at h
  · cases h
  · split at h
    · obtain rfl := Option.some.inj h
      exact ⟨rfl, _, events_finishLoop _ _ _⟩
    · cases h

/-- A loop is found as long as it is alive. -/
theorem IsAt.loop?_of_held (h : p.IsAt (.held l)) (hid : l.id = 1) : p.loop? 1 = some l := by
  simp [loop?, h.loops, Place.loops, hid]

/-- A pipe without a loop stays where it is until its ends are released. -/
theorem Closes.isAt {place : Place} (h : Closes p call q call') (hat : p.IsAt place)
    (hloops : place.loops = []) : call' = .returned ∨ q.IsAt place := by
  have hnone : p.loops = [] := hat.loops.trans hloops
  cases h with
  | tells running =>
    exact .inr ⟨hat.slot, hat.released, by simp [cancel, hnone, hloops]⟩
  | finds stopped => exact .inr hat
  | joins ended => exact .inr hat
  | looks wasRunning => exact .inr ⟨hat.slot, hat.released, hat.loops⟩
  | releases ended => exact .inl rfl

theorem Closes.events_eq (h : Closes p call q call') : q.events = p.events := by
  cases h <;> rfl

variable (hrun : Run bufferSize base arrived p call)
include hrun

/-- A step of the loop keeps the run going or ends it. -/
theorem Run.advance {loop : Nat} (h : p.advance loop = some q) :
    Run bufferSize base arrived q call := by
  have hnone : p.loops = [] → False := by
    intro hloops
    simp [Pipe.advance, loop?, hloops] at h
  cases hrun with
  | ended _ place _ _ _ _ => exact (hnone place.loops).elim
  | shut _ place _ _ => exact (hnone place.loops).elim
  | lost _ place _ => exact (hnone place.loops).elim
  | @copies l w sizes _ fits place id spawned books reports expects =>
    rcases place.loop?_eq loop with hloop | ⟨k, ⟨⟩, hk, hloop⟩
    · simp [Pipe.advance, hloop] at h
    · cases hstep : l.step p.bufferSize with
      | waits => simp [Pipe.advance, hloop, hstep] at h
      | goesOn l' report =>
        simp only [Pipe.advance, hloop, hstep, Option.some.injEq] at h
        subst h
        obtain ⟨w', sizes', hbooks, hreports⟩ := books.goesOn hstep
        have hid := CopyLoop.id_of_goesOn hstep
        have htold := CopyLoop.isCancelled_of_goesOn hstep
        refine .copies fits ((place.putLoop hid).report _) (hid.trans id) spawned hbooks ?_ ?_
        · rw [events_report, events_putLoop, reports, hreports]
        · cases expects with
          | nothing running pending untold => exact .nothing running pending (htold.trans untold)
          | itsEnd told => exact .itsEnd (htold.trans told)
      | ends l' failure =>
        simp only [Pipe.advance, hloop, hstep, Option.some.injEq] at h
        subst h
        obtain ⟨htotal, hbooks, hdrained⟩ := books.ends hstep
        have hid := CopyLoop.id_of_ends hstep
        have hreports : (p.finishLoop l' failure).events = copied sizes failure := by
          rw [events_finishLoop, reports, htotal]
          rfl
        refine .ended fits (place.finishLoop hid failure) hbooks hreports (fun _ => hdrained) ?_
        cases expects <;> simp

/-- A loop that gives up ends the run. -/
theorem Run.abandon {loop : Nat} (h : p.abandon loop = some q) :
    Run bufferSize base arrived q call := by
  have hnone : p.loops = [] → False := by
    intro hloops
    simp [Pipe.abandon, loop?, hloops] at h
  cases hrun with
  | ended _ place _ _ _ _ => exact (hnone place.loops).elim
  | shut _ place _ _ => exact (hnone place.loops).elim
  | lost _ place _ => exact (hnone place.loops).elim
  | @copies l w sizes _ fits place id spawned books reports expects =>
    rcases place.loop?_eq loop with hloop | ⟨k, ⟨⟩, hk, hloop⟩
    · simp [Pipe.abandon, hloop] at h
    · cases htold : l.isCancelled with
      | false => simp [Pipe.abandon, hloop, htold] at h
      | true =>
        simp only [Pipe.abandon, hloop, htold, ↓reduceIte, Option.some.injEq] at h
        subst h
        have hreports : (p.finishLoop l none).events = copied sizes none := by
          rw [events_finishLoop, reports, books.total]
          rfl
        refine .ended fits (place.finishLoop rfl none) books.carries hreports ?_ ?_
        · cases expects with
          | nothing _ _ untold => simp [untold] at htold
          | itsEnd _ => simp
        · cases expects <;> simp

/-- A step of the call that closes the pipe keeps what the run has come to. The ends are released
with the last step. -/
theorem Run.close (h : Closes p call q call') : Run bufferSize base arrived q call' := by
  cases hrun with
  | shut _ _ _ _ => cases h
  | @copies l w sizes _ fits place id spawned books reports expects =>
    cases expects with
    | nothing running pending untold =>
      cases h with
      | tells _ =>
        rw [pending]
        have htold : (Pipe.cancel { p with isRunning := false, pending := none }).IsAt
            (.held { l with isCancelled := true }) :=
          ⟨place.slot, place.released, by simp [cancel, place.loops, Place.loops, id, spawned]⟩
        exact .copies fits htold id spawned ⟨books.carries, books.total⟩ reports (.itsEnd rfl)
      | finds stopped => rw [running] at stopped; cases stopped
    | itsEnd told =>
      cases h with
      | joins ended => simp [isOver, place.loop?_of_held id] at ended
  | @ended e w rest sizes failure _ fits place books reports drained more =>
    rw [← h.events_eq] at reports
    cases h with
    | releases _ =>
      refine .shut fits ⟨rfl, ?_, place.loops⟩ books reports
      show p.slot.orElse _ = _
      rw [place.slot]
      rfl
    | tells running =>
      have hat := (Closes.tells running).isAt place rfl
      exact .ended fits (hat.resolve_left (by simp)) books reports (by simp) (by simp)
    | finds stopped => exact .ended fits place books reports (by simp) (by simp)
    | joins ended => exact .ended fits place books reports (by simp) (by simp)
    | looks wasRunning =>
      exact .ended fits ⟨place.slot, place.released, place.loops⟩ books reports (by simp) (by simp)
  | lost exceeds place reports =>
    rw [← h.events_eq] at reports
    refine .lost exceeds ?_ reports
    cases h with
    | releases _ => exact ⟨rfl, by rw [place.slot]; exact place.released, place.loops⟩
    | tells running => exact ((Closes.tells running).isAt place rfl).resolve_left (by simp)
    | finds stopped => exact place
    | joins ended => exact place
    | looks wasRunning => exact ⟨place.slot, place.released, place.loops⟩

/-- What arrives at the source is carried some time, or not any more. -/
theorem Run.feed (arrivals : List Arrival) :
    Run bufferSize base (arrived ++ arrivals)
      (p.updateEnds fun e => { e with source := e.source.feed arrivals }) call := by
  cases hrun with
  | copies fits place id spawned books reports expects =>
    refine .copies fits (place.updateEnds _) id spawned ⟨books.carries.feed arrivals, books.total⟩
      reports ?_
    cases expects with
    | nothing running pending untold => exact .nothing running pending untold
    | itsEnd told => exact .itsEnd told
  | ended fits place books reports drained more =>
    refine .ended fits (place.updateEnds _) (books.feed arrivals) reports ?_ more
    intro hcall hfailure
    obtain ⟨hrest, hend⟩ := drained hcall hfailure
    exact ⟨hrest, hend.append arrivals⟩
  | shut fits place books reports =>
    exact .shut fits (place.updateEnds _) (books.feed arrivals) reports
  | lost exceeds place reports => exact .lost exceeds (place.updateEnds _) reports

/-- So it is with a sink that takes bytes by another rule. -/
theorem Run.setIntake (rule : Intake) :
    Run bufferSize base arrived
      (p.updateEnds fun e => { e with sink := { e.sink with intake := rule } }) call := by
  cases hrun with
  | copies fits place id spawned books reports expects =>
    refine .copies fits (place.updateEnds _) id spawned
      ⟨books.carries.setIntake rule, books.total⟩ reports ?_
    cases expects with
    | nothing running pending untold => exact .nothing running pending untold
    | itsEnd told => exact .itsEnd told
  | ended fits place books reports drained more =>
    exact .ended fits (place.updateEnds _) (books.setIntake rule) reports drained more
  | shut fits place books reports =>
    exact .shut fits (place.updateEnds _) (books.setIntake rule) reports
  | lost exceeds place reports => exact .lost exceeds (place.updateEnds _) reports

/-- At any time the sink has taken a front of what was read, unless the ends are lost. -/
theorem Run.exists_carries (hfits : bufferSize ≤ maxBuffer) :
    ∃ e w rest, p.ends? = some e ∧ Carries base arrived w rest e := by
  cases hrun with
  | copies _ place _ _ books _ _ => exact ⟨_, _, _, place.ends?_eq, books.carries⟩
  | ended _ place books _ _ _ => exact ⟨_, _, _, place.ends?_eq, books⟩
  | shut _ place books _ => exact ⟨_, _, _, place.ends?_eq, books⟩
  | lost exceeds _ _ => omega

/-- Ends that are lost are lost for good. -/
theorem Run.ends?_of_exceeds (hexceeds : maxBuffer < bufferSize) : p.ends? = none := by
  cases hrun with
  | copies fits _ _ _ _ _ _ => omega
  | ended fits _ _ _ _ _ => omega
  | shut fits _ _ _ => omega
  | lost _ place _ => exact place.ends?_eq

/-- The ends have one place. -/
theorem Run.exists_isAt : ∃ place, p.IsAt place := by
  cases hrun with
  | copies _ place _ _ _ _ _ => exact ⟨_, place⟩
  | ended _ place _ _ _ _ => exact ⟨_, place⟩
  | shut _ place _ _ => exact ⟨_, place⟩
  | lost _ place _ => exact ⟨_, place⟩

/-- Where a run that goes on ends in the release of its ends, it does so once. -/
theorem Run.released_close (h : Closes p call q call') :
    q.released.isSome.toNat =
      p.released.isSome.toNat + (p.slot.isSome && q.slot.isNone).toNat := by
  obtain ⟨place, hat⟩ : ∃ place, p.IsAt place := hrun.exists_isAt
  cases h with
  | tells _ => cases hslot : p.slot <;> simp [cancel]
  | finds _ => cases hslot : p.slot <;> simp
  | joins _ => cases hslot : p.slot <;> simp
  | looks _ => cases hslot : p.slot <;> simp
  | releases _ =>
    cases hslot : p.slot with
    | none => simp
    | some e =>
      obtain rfl := hat.eq_slot hslot
      rw [hat.released]
      rfl

/-- What a run has told of is the sum of its chunks, once its call has returned. -/
theorem Run.lastTotal_of_returned (hcall : call = .returned) :
    lastTotal p.events = (p.events.map PipeEvent.size).sum := by
  cases hrun with
  | copies _ _ _ _ _ _ expects => subst hcall; cases expects
  | ended _ _ _ _ _ more => exact absurd hcall more
  | shut _ _ _ reports => rw [reports, lastTotal_copied, sum_size_copied]
  | lost _ _ reports =>
    rw [reports, lastTotal_copying, sum_size_copying]
    rfl

/-- The ends are released when the call has returned, unless they are lost. -/
theorem Run.isSome_released_of_returned (hcall : call = .returned) :
    p.released.isSome = decide (bufferSize ≤ maxBuffer) := by
  cases hrun with
  | copies _ _ _ _ _ _ expects => subst hcall; cases expects
  | ended _ _ _ _ _ more => exact absurd hcall more
  | shut fits place _ _ =>
    rw [place.released, decide_eq_true fits]
    rfl
  | lost exceeds place _ =>
    rw [place.released, decide_eq_false (by omega)]
    rfl

/-- A call that has returned leaves no loop behind. -/
theorem Run.loops_of_returned (hcall : call = .returned) : p.loops = [] := by
  cases hrun with
  | copies _ _ _ _ _ _ expects => subst hcall; cases expects
  | ended _ _ _ _ _ more => exact absurd hcall more
  | shut _ place _ _ => exact place.loops
  | lost _ place _ => exact place.loops


end Pipe

end Socks5

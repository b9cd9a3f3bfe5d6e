import Socks5.Relay.Pipe

/-!
# The life of a pipe

Calls and loops take their steps in any order, and in between something happens at the ends of the
pipe. At all times the two ends are in one place: in the slot, with the one loop that is alive,
released, or lost. Main statements: what one step can do, by the place in which the ends are
(`IsAt.act`), so that they always have one (`exists_isAt_after`); and whole calls are steps in a
row (`exists_after_settle`, `exists_after_stop`, `exists_after_close`).
-/

namespace Socks5

/-! ## Bytes of a chunk -/

/-- What becomes of a byte that a loop has read. -/
inductive Fate where
  | written
  | lost
deriving DecidableEq

namespace CopyLoop

/-- The bytes that a loop has read and not written. -/
def unwritten (l : CopyLoop) : Bytes :=
  match l.phase with
  | .writing _ rest => rest
  | .reading | .flushing _ => []

/-- The bytes that meet their fate in the next step of a loop: those that the sink takes, or, when
it is the last step, those that it does not. -/
def fates (l : CopyLoop) : List (UInt8 × Fate) :=
  match l.phase with
  | .writing _ rest =>
    match (l.ends.sink.write rest).1 with
    | none => []
    | some (.error _) => rest.map (·, .lost)
    | some (.ok count) =>
      if count.val = 0 then rest.map (·, .lost) else (rest.take count.val).map (·, .written)
  | .reading | .flushing _ => []

/-- The bytes that a loop loses when it gives up. -/
def losses (l : CopyLoop) : List (UInt8 × Fate) := l.unwritten.map (·, .lost)

/-- After a write, what was not taken is to be written. -/
theorem unwritten_left (l : CopyLoop) (ends : Ends) (size : Nat) (left : Bytes) :
    CopyLoop.unwritten { l with
      ends
      phase := if left.isEmpty then .flushing size else .writing size left } = left := by
  cases left <;> rfl

/-- What the next step of a loop comes to, by its phase and by what its ends answer. -/
inductive Stepped (l : CopyLoop) (bufferSize : Nat) : Progress → Prop where
  | idles {source : Source} (phase : l.phase = .reading)
      (read : l.ends.source.read bufferSize = (none, source)) : Stepped l bufferSize .waits
  | reads {piece : Stream.Piece bufferSize} {source : Source} (phase : l.phase = .reading)
      (read : l.ends.source.read bufferSize = (some (.ok (some piece)), source)) :
      Stepped l bufferSize
        (.goesOn { l with
          ends := { l.ends with source }
          phase := .writing piece.bytes.length piece.bytes } none)
  | drains {source : Source} (phase : l.phase = .reading)
      (read : l.ends.source.read bufferSize = (some (.ok none), source)) :
      Stepped l bufferSize (.ends { l with ends := { l.ends with source } } none)
  | breaks {cause : IoFailure} {source : Source} (phase : l.phase = .reading)
      (read : l.ends.source.read bufferSize = (some (.error cause), source)) :
      Stepped l bufferSize (.ends { l with ends := { l.ends with source } } (some cause))
  | blocks {size : Nat} {rest : Bytes} {sink : Sink} (phase : l.phase = .writing size rest)
      (write : l.ends.sink.write rest = (none, sink)) : Stepped l bufferSize .waits
  | writes {size : Nat} {rest : Bytes} {count : Fin (rest.length + 1)} {sink : Sink}
      (phase : l.phase = .writing size rest)
      (write : l.ends.sink.write rest = (some (.ok count), sink)) (takes : count.val ≠ 0) :
      Stepped l bufferSize
        (.goesOn { l with
          ends := { l.ends with sink }
          phase := if (rest.drop count.val).isEmpty then .flushing size
            else .writing size (rest.drop count.val) } none)
  | refuses {size : Nat} {rest : Bytes} {count : Fin (rest.length + 1)} {sink : Sink}
      (phase : l.phase = .writing size rest)
      (write : l.ends.sink.write rest = (some (.ok count), sink)) (takes : count.val = 0) :
      Stepped l bufferSize (.ends { l with ends := { l.ends with sink } } (some .writeZero))
  | fails {size : Nat} {rest : Bytes} {cause : IoFailure} {sink : Sink}
      (phase : l.phase = .writing size rest)
      (write : l.ends.sink.write rest = (some (.error cause), sink)) :
      Stepped l bufferSize (.ends { l with ends := { l.ends with sink } } (some cause))
  | flushes {size : Nat} (phase : l.phase = .flushing size)
      (flush : l.ends.sink.flush.1 = .ok ()) :
      Stepped l bufferSize
        (.goesOn { l with
          ends := { l.ends with sink := l.ends.sink.flush.2 }
          phase := .reading
          total := l.total + size } (some (.transferred size)))
  | sticks {size : Nat} {cause : IoFailure} (phase : l.phase = .flushing size)
      (flush : l.ends.sink.flush.1 = .error cause) :
      Stepped l bufferSize
        (.ends { l with ends := { l.ends with sink := l.ends.sink.flush.2 } } (some cause))

theorem stepped (l : CopyLoop) (bufferSize : Nat) : Stepped l bufferSize (l.step bufferSize) := by
  cases hphase : l.phase with
  | reading =>
    rcases hread : l.ends.source.read bufferSize with ⟨_ | _ | _ | piece, source⟩ <;>
      simp only [step, hphase, hread]
    · exact .idles hphase hread
    · rw [← hphase]
      exact .breaks hphase hread
    · rw [← hphase]
      exact .drains hphase hread
    · exact .reads hphase hread
  | writing size rest =>
    rcases hwrite : l.ends.sink.write rest with ⟨_ | _ | count, sink⟩ <;>
      simp only [step, hphase, hwrite]
    · exact .blocks hphase hwrite
    · rw [← hphase]
      exact .fails hphase hwrite
    · by_cases htakes : count.val = 0
      · rw [if_pos htakes, ← hphase]
        exact .refuses hphase hwrite htakes
      · rw [if_neg htakes]
        exact .writes hphase hwrite htakes
  | flushing size =>
    cases hflush : l.ends.sink.flush.1 with
    | error cause =>
      simp only [step, hphase, hflush]
      rw [← hphase]
      exact .sticks hphase hflush
    | ok _ =>
      simp only [step, hphase, hflush]
      exact .flushes hphase hflush

theorem id_of_goesOn {l l' : CopyLoop} {bufferSize : Nat} {report : Option PipeEvent}
    (h : l.step bufferSize = .goesOn l' report) : l'.id = l.id := by
  have hstepped := l.stepped bufferSize
  rw [h] at hstepped
  cases hstepped <;> rfl

theorem isCancelled_of_goesOn {l l' : CopyLoop} {bufferSize : Nat} {report : Option PipeEvent}
    (h : l.step bufferSize = .goesOn l' report) : l'.isCancelled = l.isCancelled := by
  have hstepped := l.stepped bufferSize
  rw [h] at hstepped
  cases hstepped <;> rfl

theorem id_of_ends {l l' : CopyLoop} {bufferSize : Nat} {failure : Option IoFailure}
    (h : l.step bufferSize = .ends l' failure) : l'.id = l.id := by
  have hstepped := l.stepped bufferSize
  rw [h] at hstepped
  cases hstepped <;> rfl

theorem fates_of_waits {l : CopyLoop} {bufferSize : Nat} (h : l.step bufferSize = .waits) :
    l.fates = [] := by
  have hstepped := l.stepped bufferSize
  rw [h] at hstepped
  cases hstepped with
  | idles phase read => rw [fates, phase]
  | blocks phase write => simp only [fates, phase, write]

end CopyLoop

namespace Pipe

open CopyLoop (id_of_goesOn id_of_ends fates_of_waits)

/-! ## Steps -/

/-- What may happen to a pipe at one time: a call takes a step, the pipe is dropped, a loop goes on
or gives up, or something happens at the ends. -/
inductive Act where
  | start
  | stop (call : StopCall)
  | close (call : CloseCall)
  | drop
  | advance (loop : Nat)
  | abandon (loop : Nat)
  | feed (arrivals : List Arrival)
  | setIntake (rule : Intake)

/-- What arrives at the source. -/
def Act.arrivals : Act → List Arrival
  | .feed arrivals => arrivals
  | _ => []

/-- A pipe after something has happened. What would have to wait changes nothing. -/
def act (p : Pipe) : Act → Pipe
  | .start => p.start.2
  | .stop call => ((p.stopStep call).map Prod.fst).getD p
  | .close call => ((p.closeStep call).map Prod.fst).getD p
  | .drop => p.cancel
  | .advance loop => (p.advance loop).getD p
  | .abandon loop => (p.abandon loop).getD p
  | .feed arrivals => p.updateEnds fun e => { e with source := e.source.feed arrivals }
  | .setIntake rule => p.updateEnds fun e => { e with sink := { e.sink with intake := rule } }

/-- The bytes that meet their fate when something happens. -/
def fatesIn (p : Pipe) : Act → List (UInt8 × Fate)
  | .advance loop =>
    match p.loop? loop with
    | none => []
    | some l => l.fates
  | .abandon loop =>
    match p.loop? loop with
    | none => []
    | some l => if l.isCancelled then l.losses else []
  | _ => []

/-- A pipe after a part of its life. -/
def after (p : Pipe) (acts : List Act) : Pipe := acts.foldl act p

/-- The bytes that meet their fate in a part of the life of a pipe. -/
def fates (p : Pipe) : List Act → List (UInt8 × Fate)
  | [] => []
  | a :: acts => p.fatesIn a ++ (p.act a).fates acts

/-- The bytes that were read and have not met their fate. -/
def unwritten (p : Pipe) : Bytes := p.loops.flatMap CopyLoop.unwritten

@[simp] theorem after_nil (p : Pipe) : p.after [] = p := rfl

@[simp] theorem after_cons (p : Pipe) (a : Act) (acts : List Act) :
    p.after (a :: acts) = (p.act a).after acts := rfl

theorem after_append (p : Pipe) (acts acts' : List Act) :
    p.after (acts ++ acts') = (p.after acts).after acts' := List.foldl_append

/-! ## Where the ends are -/

/-- The places in which the ends of a pipe can be. -/
inductive Place where
  | slot (ends : Ends)
  | held (loop : CopyLoop)
  | released (ends : Ends)
  | lost

namespace Place

/-- The ends in the slot. -/
def slot? : Place → Option Ends
  | .slot ends => some ends
  | .held _ | .released _ | .lost => none

/-- The ends that were released. -/
def released? : Place → Option Ends
  | .released ends => some ends
  | .slot _ | .held _ | .lost => none

/-- The loops that are alive. -/
def loops : Place → List CopyLoop
  | .held l => [l]
  | .slot _ | .released _ | .lost => []

/-- The ends, unless they are lost. -/
def ends? : Place → Option Ends
  | .slot ends | .released ends => some ends
  | .held l => some l.ends
  | .lost => none

/-- The bytes that were read and have not met their fate. -/
def unwritten : Place → Bytes
  | .held l => l.unwritten
  | .slot _ | .released _ | .lost => []

/-- A place after something has happened to the ends. -/
def update (change : Ends → Ends) : Place → Place
  | .slot ends => .slot (change ends)
  | .held l => .held { l with ends := change l.ends }
  | .released ends => .released (change ends)
  | .lost => .lost

@[simp] theorem ends?_update (change : Ends → Ends) (place : Place) :
    (place.update change).ends? = place.ends?.map change := by
  cases place <;> rfl

@[simp] theorem unwritten_update (change : Ends → Ends) (place : Place) :
    (place.update change).unwritten = place.unwritten := by
  cases place <;> rfl

end Place

/-- The ends of a pipe are in a place, and nowhere else. -/
structure IsAt (p : Pipe) (place : Place) : Prop where
  slot : p.slot = place.slot?
  released : p.released = place.released?
  loops : p.loops = place.loops

variable {p : Pipe} {place : Place}

theorem IsAt.ends?_eq (h : p.IsAt place) : p.ends? = place.ends? := by
  rw [Pipe.ends?, h.slot, h.released, h.loops]
  cases place <;> rfl

theorem IsAt.unwritten_eq (h : p.IsAt place) : p.unwritten = place.unwritten := by
  rw [Pipe.unwritten, h.loops]
  cases place with
  | held l => exact List.append_nil _
  | slot ends => rfl
  | released ends => rfl
  | lost => rfl

theorem isAt_new (bufferSize : Nat) (ends : Ends) : (new bufferSize ends).IsAt (.slot ends) :=
  ⟨rfl, rfl, rfl⟩

/-- How the ends come from one place to another while something arrives at the source and bytes
meet their fate. -/
inductive Moves : Place → List Arrival → List (UInt8 × Fate) → Place → Prop where
  | stays (place : Place) : Moves place [] [] place
  | taken (ends : Ends) (id : Nat) : Moves (.slot ends) [] [] (.held { id, ends })
  | lost (ends : Ends) : Moves (.slot ends) [] [] .lost
  | told (l : CopyLoop) : Moves (.held l) [] [] (.held { l with isCancelled := true })
  | goesOn {l l' : CopyLoop} {bufferSize : Nat} {report : Option PipeEvent}
      (step : l.step bufferSize = .goesOn l' report) : Moves (.held l) [] l.fates (.held l')
  | ends {l l' : CopyLoop} {bufferSize : Nat} {failure : Option IoFailure}
      (step : l.step bufferSize = .ends l' failure) : Moves (.held l) [] l.fates (.slot l'.ends)
  | givesUp {l : CopyLoop} (told : l.isCancelled) : Moves (.held l) [] l.losses (.slot l.ends)
  | released (ends : Ends) : Moves (.slot ends) [] [] (.released ends)
  | fed (place : Place) (arrivals : List Arrival) :
      Moves place arrivals []
        (place.update fun e => { e with source := e.source.feed arrivals })
  | ruled (place : Place) (rule : Intake) :
      Moves place [] []
        (place.update fun e => { e with sink := { e.sink with intake := rule } })

/-! ## What a step can do -/

/-- A step comes to `q` while something arrives and bytes meet their fate. -/
def Comes (place : Place) (arrivals : List Arrival) (fates : List (UInt8 × Fate)) (q : Pipe) :
    Prop :=
  ∃ place', q.IsAt place' ∧ Moves place arrivals fates place'

theorem IsAt.comes_self (h : p.IsAt place) : Comes place [] [] p := ⟨place, h, .stays place⟩

theorem IsAt.loop?_eq (h : p.IsAt place) (id : Nat) :
    p.loop? id = none ∨ ∃ l, place = .held l ∧ l.id = id ∧ p.loop? id = some l := by
  rw [loop?, h.loops]
  cases place with
  | held l =>
    by_cases hid : l.id = id
    · exact .inr ⟨l, rfl, hid, by simp [Place.loops, hid]⟩
    · exact .inl (by simp [Place.loops, hid])
  | slot ends => exact .inl rfl
  | released ends => exact .inl rfl
  | lost => exact .inl rfl

theorem IsAt.report (h : p.IsAt place) (news : List PipeEvent) : (p.report news).IsAt place :=
  ⟨h.slot, h.released, h.loops⟩

theorem IsAt.putLoop {l l' : CopyLoop} (h : p.IsAt (.held l)) (hid : l'.id = l.id) :
    (p.putLoop l').IsAt (.held l') :=
  ⟨h.slot, h.released, by simp [Pipe.putLoop, h.loops, Place.loops, hid]⟩

theorem IsAt.finishLoop {l l' : CopyLoop} (h : p.IsAt (.held l)) (hid : l'.id = l.id)
    (failure : Option IoFailure) : (p.finishLoop l' failure).IsAt (.slot l'.ends) :=
  ⟨rfl, h.released, by simp [Pipe.finishLoop, Pipe.report, h.loops, Place.loops, hid]⟩

theorem IsAt.updateEnds (h : p.IsAt place) (change : Ends → Ends) :
    (p.updateEnds change).IsAt (place.update change) := by
  constructor
  · show p.slot.map change = _
    rw [h.slot]
    cases place <;> rfl
  · show p.released.map change = _
    rw [h.released]
    cases place <;> rfl
  · show p.loops.map _ = _
    rw [h.loops]
    cases place <;> rfl

/-- What happens to the ends depends on nothing but the ends. -/
theorem IsAt.updateEnds_congr (h : p.IsAt place) {change change' : Ends → Ends}
    (hsame : ∀ e, place.ends? = some e → change e = change' e) :
    p.updateEnds change = p.updateEnds change' := by
  unfold Pipe.updateEnds
  rw [h.slot, h.released, h.loops]
  cases place with
  | slot ends => simp [Place.slot?, Place.released?, Place.loops, hsame ends rfl]
  | held l => simp [Place.slot?, Place.released?, Place.loops, hsame l.ends rfl]
  | released ends => simp [Place.slot?, Place.released?, Place.loops, hsame ends rfl]
  | lost => rfl

theorem updateEnds_id (p : Pipe) : p.updateEnds (fun e => e) = p := by
  simp [Pipe.updateEnds]

theorem IsAt.eq_slot {ends : Ends} (h : p.IsAt place) (hslot : p.slot = some ends) :
    place = .slot ends := by
  rw [h.slot] at hslot
  cases place with
  | slot ends' => exact congrArg Place.slot (Option.some.inj hslot)
  | held l => cases hslot
  | released ends' => cases hslot
  | lost => cases hslot

theorem IsAt.start (h : p.IsAt place) : Comes place [] [] p.start.2 := by
  cases hstart : p.start.1 with
  | false =>
    rw [start_eq_self hstart]
    exact h.comes_self
  | true =>
    obtain ⟨hrunning, hslot⟩ := (start_eq_true_iff p).1 hstart
    obtain ⟨ends, hslot⟩ := Option.isSome_iff_exists.1 hslot
    obtain rfl := h.eq_slot hslot
    by_cases hbuffer : p.bufferSize ≤ maxBuffer
    · refine ⟨.held { id := p.spawned + 1, ends }, ?_, .taken ends _⟩
      simp only [Pipe.start, hrunning, hslot, hbuffer, ↓reduceIte]
      exact ⟨rfl, h.released, by simp [Pipe.report, h.loops, Place.loops]⟩
    · refine ⟨.lost, ?_, .lost ends⟩
      simp only [Pipe.start, hrunning, hslot, hbuffer, ↓reduceIte]
      exact ⟨rfl, h.released, h.loops⟩

theorem IsAt.cancel (h : p.IsAt place) : Comes place [] [] p.cancel := by
  cases place with
  | held l =>
    by_cases hid : l.id = p.spawned
    · exact ⟨.held { l with isCancelled := true },
        ⟨h.slot, h.released, by simp [Pipe.cancel, h.loops, Place.loops, hid]⟩, .told l⟩
    · exact ⟨.held l,
        ⟨h.slot, h.released, by simp [Pipe.cancel, h.loops, Place.loops, hid]⟩, .stays _⟩
  | slot ends =>
    exact ⟨.slot ends, ⟨h.slot, h.released, by simp [Pipe.cancel, h.loops, Place.loops]⟩,
      .stays _⟩
  | released ends =>
    exact ⟨.released ends, ⟨h.slot, h.released, by simp [Pipe.cancel, h.loops, Place.loops]⟩,
      .stays _⟩
  | lost =>
    exact ⟨.lost, ⟨h.slot, h.released, by simp [Pipe.cancel, h.loops, Place.loops]⟩, .stays _⟩

theorem IsAt.stop (h : p.IsAt place) (call : StopCall) :
    Comes place [] [] (((p.stopStep call).map Prod.fst).getD p) := by
  cases call with
  | begun =>
    by_cases hrunning : p.isRunning
    · have hstep : p.stopStep .begun =
          some ({ p with isRunning := false, pending := none }.cancel, .waiting p.pending) :=
        if_pos hrunning
      rw [hstep]
      have h' : IsAt { p with isRunning := false, pending := none } place :=
        ⟨h.slot, h.released, h.loops⟩
      exact h'.cancel
    · have hstep : p.stopStep .begun = some (p, .returned false) := if_neg hrunning
      rw [hstep]
      exact h.comes_self
  | waiting loop =>
    by_cases hover : p.isOver loop
    · have hstep : p.stopStep (.waiting loop) = some (p, .returned true) := if_pos hover
      rw [hstep]
      exact h.comes_self
    · have hstep : p.stopStep (.waiting loop) = none := if_neg hover
      rw [hstep]
      exact h.comes_self
  | returned wasRunning => exact h.comes_self

theorem IsAt.release (h : p.IsAt place) :
    Comes place [] [] { p with slot := none, released := p.slot.orElse fun _ => p.released } := by
  cases hslot : p.slot with
  | none => exact ⟨place, ⟨hslot.symm.trans h.slot, h.released, h.loops⟩, .stays _⟩
  | some ends =>
    obtain rfl := h.eq_slot hslot
    exact ⟨.released ends, ⟨rfl, rfl, h.loops⟩, .released ends⟩

theorem IsAt.close (h : p.IsAt place) (call : CloseCall) :
    Comes place [] [] (((p.closeStep call).map Prod.fst).getD p) := by
  cases call with
  | stopping call =>
    cases call with
    | returned wasRunning => exact ⟨place, ⟨h.slot, h.released, h.loops⟩, .stays _⟩
    | begun =>
      have hstep : (p.closeStep (.stopping .begun)).map Prod.fst =
          (p.stopStep .begun).map Prod.fst := Option.map_map ..
      rw [hstep]
      exact h.stop .begun
    | waiting loop =>
      have hstep : (p.closeStep (.stopping (.waiting loop))).map Prod.fst =
          (p.stopStep (.waiting loop)).map Prod.fst := Option.map_map ..
      rw [hstep]
      exact h.stop (.waiting loop)
  | waiting loop =>
    by_cases hover : p.isOver loop
    · have hstep : p.closeStep (.waiting loop) = some
          ({ p with slot := none, released := p.slot.orElse fun _ => p.released }, .returned) :=
        if_pos hover
      rw [hstep]
      exact h.release
    · have hstep : p.closeStep (.waiting loop) = none := if_neg hover
      rw [hstep]
      exact h.comes_self
  | returned => exact h.comes_self

theorem IsAt.advance (h : p.IsAt place) (loop : Nat) :
    Comes place [] (p.fatesIn (.advance loop)) ((p.advance loop).getD p) := by
  rcases h.loop?_eq loop with hloop | ⟨l, rfl, _, hloop⟩
  · simp only [fatesIn, Pipe.advance, hloop]
    exact h.comes_self
  · cases hstep : l.step p.bufferSize with
    | waits =>
      simp only [fatesIn, Pipe.advance, hloop, hstep, fates_of_waits hstep]
      exact h.comes_self
    | goesOn l' report =>
      simp only [fatesIn, Pipe.advance, hloop, hstep]
      exact ⟨.held l', (h.putLoop (id_of_goesOn hstep)).report _, .goesOn hstep⟩
    | ends l' failure =>
      simp only [fatesIn, Pipe.advance, hloop, hstep]
      exact ⟨.slot l'.ends, h.finishLoop (id_of_ends hstep) failure, .ends hstep⟩

theorem IsAt.abandon (h : p.IsAt place) (loop : Nat) :
    Comes place [] (p.fatesIn (.abandon loop)) ((p.abandon loop).getD p) := by
  rcases h.loop?_eq loop with hloop | ⟨l, rfl, _, hloop⟩
  · simp only [fatesIn, Pipe.abandon, hloop]
    exact h.comes_self
  · by_cases htold : l.isCancelled
    · simp only [fatesIn, Pipe.abandon, hloop, htold, ↓reduceIte]
      exact ⟨.slot l.ends, h.finishLoop rfl none, .givesUp htold⟩
    · simp only [fatesIn, Pipe.abandon, hloop, htold]
      exact h.comes_self

/-- What a step can do, by the place in which the ends are. -/
theorem IsAt.act (h : p.IsAt place) (a : Act) :
    Comes place a.arrivals (p.fatesIn a) (p.act a) := by
  cases a with
  | start => exact h.start
  | stop call => exact h.stop call
  | close call => exact h.close call
  | drop => exact h.cancel
  | advance loop => exact h.advance loop
  | abandon loop => exact h.abandon loop
  | feed arrivals => exact ⟨_, h.updateEnds _, .fed place arrivals⟩
  | setIntake rule => exact ⟨_, h.updateEnds _, .ruled place rule⟩

/-- The ends of a pipe have one place at all times. -/
theorem exists_isAt_after (h : p.IsAt place) (acts : List Act) :
    ∃ place', (p.after acts).IsAt place' := by
  induction acts generalizing p place with
  | nil => exact ⟨place, h⟩
  | cons a acts ih =>
    obtain ⟨place', h', _⟩ := h.act a
    exact ih h'

/-! ## Whole calls -/

/-- Acts of the pipe itself, with nothing from outside between them. -/
def IsInner (acts : List Act) : Prop := ∀ a ∈ acts, a.arrivals = []

/-- The next step of a pipe is one of its loop, which goes on or gives up. -/
theorem advance_or_abandon_of_nextStep {q : Pipe} (h : p.nextStep = some q) :
    ∃ loop, p.advance loop = some q ∨ p.abandon loop = some q := by
  obtain ⟨l, _, hl⟩ := List.exists_of_findSome?_eq_some h
  refine ⟨l.id, ?_⟩
  cases habandon : p.abandon l.id with
  | some q' =>
    rw [habandon] at hl
    exact .inr hl
  | none =>
    rw [habandon] at hl
    exact .inl hl

theorem exists_after_nextStep {q : Pipe} (h : p.nextStep = some q) :
    ∃ acts, IsInner acts ∧ q = p.after acts := by
  obtain ⟨loop, hadvance | habandon⟩ := advance_or_abandon_of_nextStep h
  · exact ⟨[.advance loop], by simp [IsInner, Act.arrivals], by simp [Pipe.act, hadvance]⟩
  · exact ⟨[.abandon loop], by simp [IsInner, Act.arrivals], by simp [Pipe.act, habandon]⟩

theorem exists_after_settleWithin (steps : Nat) (p : Pipe) :
    ∃ acts, IsInner acts ∧ p.settleWithin steps = p.after acts := by
  induction steps generalizing p with
  | zero => exact ⟨[], by simp [IsInner], rfl⟩
  | succ steps ih =>
    rw [settleWithin]
    cases hnext : p.nextStep with
    | none => exact ⟨[], by simp [IsInner], rfl⟩
    | some q =>
      obtain ⟨acts, hacts, rfl⟩ := exists_after_nextStep hnext
      obtain ⟨acts', hacts', hsettle⟩ := ih (p.after acts)
      refine ⟨acts ++ acts', ?_, by rw [after_append, ← hsettle]⟩
      exact List.forall_mem_append.2 ⟨hacts, hacts'⟩

/-- Letting the loops go on is a part of the life of a pipe. -/
theorem exists_after_settle (p : Pipe) : ∃ acts, IsInner acts ∧ p.settle = p.after acts :=
  exists_after_settleWithin p.patience p

/-- So is a call of `stop`. -/
theorem exists_after_stop (p : Pipe) : ∃ acts, IsInner acts ∧ p.stop.2 = p.after acts := by
  by_cases hrunning : p.isRunning
  · have hstep : p.stopStep .begun =
        some ({ p with isRunning := false, pending := none }.cancel, .waiting p.pending) :=
      if_pos hrunning
    obtain ⟨acts, hacts, hsettle⟩ :=
      exists_after_settle { p with isRunning := false, pending := none }.cancel
    refine ⟨.stop .begun :: acts, List.forall_mem_cons.2 ⟨rfl, hacts⟩, ?_⟩
    simp only [stop, after_cons, Pipe.act, hstep, Option.map_some, Option.getD_some, hsettle]
  · have hstep : p.stopStep .begun = some (p, .returned false) := if_neg hrunning
    exact ⟨[], by simp [IsInner], by simp only [stop, hstep, after_nil]⟩

theorem exists_after_closeWithin (steps : Nat) (p : Pipe) (call : CloseCall) :
    ∃ acts, IsInner acts ∧ p.closeWithin steps call = p.after acts := by
  induction steps generalizing p call with
  | zero => exact ⟨[], by simp [IsInner], rfl⟩
  | succ steps ih =>
    rw [closeWithin]
    cases hstep : p.closeStep call with
    | none => exact ⟨[], by simp [IsInner], rfl⟩
    | some next =>
      obtain ⟨q, call'⟩ := next
      obtain ⟨acts, hacts, hsettle⟩ := exists_after_settle q
      obtain ⟨acts', hacts', hclose⟩ := ih q.settle call'
      refine ⟨.close call :: (acts ++ acts'), ?_, ?_⟩
      · exact List.forall_mem_cons.2 ⟨rfl, List.forall_mem_append.2 ⟨hacts, hacts'⟩⟩
      · have hact : p.act (.close call) = q := by simp [Pipe.act, hstep]
        rw [after_cons, hact, after_append, ← hsettle, ← hclose]

/-- So is a call of `close`. -/
theorem exists_after_close (p : Pipe) : ∃ acts, IsInner acts ∧ p.close = p.after acts :=
  exists_after_closeWithin 5 p (.stopping .begun)

end Pipe

end Socks5

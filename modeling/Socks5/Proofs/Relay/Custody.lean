import Socks5.Proofs.Relay.Single

/-!
# Who has the ends of a pipe

Calls of `start`, `stop` and `close` may be under way at the same time, and the loops go on between
their steps. A call that has to wait is a value, and `Act.stop` and `Act.close` take the next step
of a call wherever it stands, so that every way in which any number of calls can take turns is a
list of acts. Main statement: in all of them the ends are with the pipe, with its only loop, or
released, and the pipe runs as long as that loop was not told to give up, unless it was started
with a buffer that cannot be (`lifeCycle_iff`).
-/

namespace Socks5.Pipe

variable {p q : Pipe} {a : Act}

/-! ## Steps by what they change -/

/-- What a step can make of a pipe. -/
inductive Acted (p : Pipe) : Act → Pipe → Prop where
  | stays {a : Act} (quiet : a.arrivals = []) : Acted p a p
  | starts {ends : Ends} (stopped : p.isRunning = false) (slot : p.slot = some ends)
      (fits : p.bufferSize ≤ maxBuffer) :
      Acted p .start
        (({ p with
          slot := none
          isRunning := true
          loops := p.loops ++ [{ id := p.spawned + 1, ends }]
          spawned := p.spawned + 1
          pending := some (p.spawned + 1) } : Pipe).report [.started])
  | loses {ends : Ends} (stopped : p.isRunning = false) (slot : p.slot = some ends)
      (exceeds : maxBuffer < p.bufferSize) :
      Acted p .start
        (({ p with
          slot := none
          isRunning := true
          spawned := p.spawned + 1
          pending := some (p.spawned + 1) } : Pipe).report [.started])
  | tells {a : Act} (quiet : a.arrivals = []) (running : p.isRunning = true) :
      Acted p a (cancel { p with isRunning := false, pending := none })
  | looks (call : CloseCall) : Acted p (.close call) { p with pending := none }
  | releases (call : CloseCall) :
      Acted p (.close call)
        { p with slot := none, released := p.slot.orElse fun _ => p.released }
  | drops : Acted p .drop p.cancel
  | goesOn {l l' : CopyLoop} {report : Option PipeEvent} (alive : p.loop? l.id = some l)
      (step : l.step p.bufferSize = .goesOn l' report) :
      Acted p (.advance l.id) ((p.putLoop l').report report.toList)
  | ends {l l' : CopyLoop} {failure : Option IoFailure} (alive : p.loop? l.id = some l)
      (step : l.step p.bufferSize = .ends l' failure) :
      Acted p (.advance l.id) (p.finishLoop l' failure)
  | givesUp {l : CopyLoop} (alive : p.loop? l.id = some l) (told : l.isCancelled = true) :
      Acted p (.abandon l.id) (p.finishLoop l none)
  | fed (arrivals : List Arrival) :
      Acted p (.feed arrivals) (p.updateEnds fun e => { e with source := e.source.feed arrivals })
  | ruled (rule : Intake) :
      Acted p (.setIntake rule)
        (p.updateEnds fun e => { e with sink := { e.sink with intake := rule } })

theorem acted_start (p : Pipe) : Acted p .start p.start.2 := by
  unfold start
  by_cases hrunning : p.isRunning
  · rw [if_pos hrunning]
    exact .stays rfl
  · rw [if_neg hrunning]
    cases hslot : p.slot with
    | none => exact .stays rfl
    | some ends =>
      have hstopped : p.isRunning = false := Bool.eq_false_iff.2 hrunning
      by_cases hfits : p.bufferSize ≤ maxBuffer
      · simp only [if_pos hfits]
        exact .starts hstopped hslot hfits
      · simp only [if_neg hfits]
        exact .loses hstopped hslot (Nat.lt_of_not_le hfits)

theorem acted_stopStep {call call' : StopCall} (h : p.stopStep call = some (q, call')) :
    Acted p (.stop call) q := by
  cases call with
  | begun =>
    by_cases hrunning : p.isRunning
    · rw [stopStep, if_pos hrunning] at h
      cases h
      exact .tells rfl hrunning
    · rw [stopStep, if_neg hrunning] at h
      cases h
      exact .stays rfl
  | waiting loop =>
    by_cases hover : p.isOver loop
    · rw [stopStep, if_pos hover] at h
      cases h
      exact .stays rfl
    · rw [stopStep, if_neg hover] at h
      cases h
  | returned wasRunning => cases h

theorem acted_closeStep {call call' : CloseCall} (h : p.closeStep call = some (q, call')) :
    Acted p (.close call) q := by
  cases closes_of_closeStep h with
  | tells running => exact .tells rfl running
  | finds stopped => exact .stays rfl
  | joins ended => exact .stays rfl
  | looks wasRunning => exact .looks _
  | releases ended => exact .releases _

theorem id_of_loop? {id : Nat} {l : CopyLoop} (h : p.loop? id = some l) : l.id = id := by
  simpa using List.find?_some h

theorem acted_advance {id : Nat} (h : p.advance id = some q) : Acted p (.advance id) q := by
  unfold advance at h
  cases hloop : p.loop? id with
  | none => simp [hloop] at h
  | some l =>
    obtain rfl := id_of_loop? hloop
    cases hstep : l.step p.bufferSize with
    | waits => simp [hloop, hstep] at h
    | goesOn l' report =>
      simp only [hloop, hstep, Option.some.injEq] at h
      subst h
      exact .goesOn hloop hstep
    | ends l' failure =>
      simp only [hloop, hstep, Option.some.injEq] at h
      subst h
      exact .ends hloop hstep

theorem acted_abandon {id : Nat} (h : p.abandon id = some q) : Acted p (.abandon id) q := by
  unfold abandon at h
  cases hloop : p.loop? id with
  | none => simp [hloop] at h
  | some l =>
    obtain rfl := id_of_loop? hloop
    by_cases htold : l.isCancelled
    · simp only [hloop, if_pos htold, Option.some.injEq] at h
      subst h
      exact .givesUp hloop htold
    · simp [hloop, htold] at h

/-- What cannot take place changes nothing. -/
theorem acted_getD {next : Option Pipe} (hquiet : a.arrivals = [])
    (h : ∀ q, next = some q → Acted p a q) : Acted p a (next.getD p) := by
  cases next with
  | none => exact .stays hquiet
  | some q => exact h q rfl

/-- Every step is one of them. -/
theorem acted (p : Pipe) (a : Act) : Acted p a (p.act a) := by
  cases a with
  | start => exact acted_start p
  | stop call =>
    refine acted_getD rfl fun q hq => ?_
    obtain ⟨next, hstep, rfl⟩ := Option.map_eq_some_iff.1 hq
    exact acted_stopStep hstep
  | close call =>
    refine acted_getD rfl fun q hq => ?_
    obtain ⟨next, hstep, rfl⟩ := Option.map_eq_some_iff.1 hq
    exact acted_closeStep hstep
  | drop => exact .drops
  | advance loop => exact acted_getD rfl fun q hq => acted_advance hq
  | abandon loop => exact acted_getD rfl fun q hq => acted_abandon hq
  | feed arrivals => exact .fed arrivals
  | setIntake rule => exact .ruled rule

/-- A step does nothing to the size of the buffer. -/
theorem Acted.bufferSize_eq (h : Acted p a q) : q.bufferSize = p.bufferSize := by
  cases h <;> rfl

/-- A step adds to what was reported. The news is that a run has begun, or a chunk of it, or that
it is over; in that case the ends are back in the slot and the pipe does not run. -/
theorem Acted.exists_news (h : Acted p a q) :
    ∃ news, q.events = p.events ++ news ∧
      ∀ total, .stopped total ∈ news → q.slot.isSome ∧ q.isRunning = false := by
  have hquiet : ∀ news : List PipeEvent, (∀ total, .stopped total ∉ news) →
      (∀ total, .stopped total ∈ news → q.slot.isSome ∧ q.isRunning = false) :=
    fun news hnone total hmem => absurd hmem (hnone total)
  cases h with
  | stays => exact ⟨[], (List.append_nil _).symm, hquiet _ (by simp)⟩
  | starts => exact ⟨[.started], events_report _ _, hquiet _ (by simp)⟩
  | loses => exact ⟨[.started], events_report _ _, hquiet _ (by simp)⟩
  | tells => exact ⟨[], (List.append_nil _).symm, hquiet _ (by simp)⟩
  | looks => exact ⟨[], (List.append_nil _).symm, hquiet _ (by simp)⟩
  | releases => exact ⟨[], (List.append_nil _).symm, hquiet _ (by simp)⟩
  | drops => exact ⟨[], (List.append_nil _).symm, hquiet _ (by simp)⟩
  | @goesOn l l' report alive step =>
    refine ⟨report.toList, events_report _ _, hquiet _ fun total hmem => ?_⟩
    have hstepped := l.stepped p.bufferSize
    rw [step] at hstepped
    cases hstepped <;> simp at hmem
  | ends => exact ⟨_, events_finishLoop _ _ _, fun _ _ => ⟨rfl, rfl⟩⟩
  | givesUp => exact ⟨_, events_finishLoop _ _ _, fun _ _ => ⟨rfl, rfl⟩⟩
  | fed => exact ⟨[], (List.append_nil _).symm, hquiet _ (by simp)⟩
  | ruled => exact ⟨[], (List.append_nil _).symm, hquiet _ (by simp)⟩

/-! ## How a pipe stands -/

/-- How a pipe stands that was only started, stopped and closed. Without a run the ends are at rest
and the pipe does not run; a loop is the last one that was spawned, and the pipe runs until it is
told to give up; and the ends are lost to the first run whose buffer cannot be. -/
inductive Stands (p : Pipe) : Prop where
  | idle {e : Ends} (place : p.IsAt (.slot e)) (stopped : p.isRunning = false)
      (fits : p.bufferSize ≤ maxBuffer ∨ p.spawned = 0)
  | runs {l : CopyLoop} (place : p.IsAt (.held l)) (last : l.id = p.spawned)
      (running : p.isRunning = !l.isCancelled) (fits : p.bufferSize ≤ maxBuffer)
  | closed {e : Ends} (place : p.IsAt (.released e)) (stopped : p.isRunning = false)
      (fits : p.bufferSize ≤ maxBuffer ∨ p.spawned = 0)
  | lost (place : p.IsAt .lost) (exceeds : maxBuffer < p.bufferSize) (spawned : p.spawned ≠ 0)

theorem stands_new (bufferSize : Nat) (ends : Ends) : Stands (new bufferSize ends) :=
  .idle (isAt_new bufferSize ends) rfl (.inr rfl)

/-- A loop that is found is the one that has the ends. -/
theorem IsAt.held_of_loop? {place : Place} {id : Nat} {l : CopyLoop} (h : p.IsAt place)
    (hloop : p.loop? id = some l) : place = .held l := by
  rcases h.loop?_eq id with hnone | ⟨l', rfl, _, hsome⟩
  · rw [hnone] at hloop
    cases hloop
  · rw [hsome] at hloop
    cases hloop
    rfl

theorem Stands.exists_isAt (h : Stands p) : ∃ place, p.IsAt place := by
  cases h with
  | idle place _ _ => exact ⟨_, place⟩
  | runs place _ _ _ => exact ⟨_, place⟩
  | closed place _ _ => exact ⟨_, place⟩
  | lost place _ _ => exact ⟨_, place⟩

/-- Ends in the slot are at rest. -/
theorem Stands.isAt_of_slot {e : Ends} (h : Stands p) (hslot : p.slot = some e) :
    p.IsAt (.slot e) ∧ p.isRunning = false := by
  obtain ⟨place, hat⟩ := h.exists_isAt
  obtain rfl := hat.eq_slot hslot
  cases h with
  | idle _ stopped _ => exact ⟨hat, stopped⟩
  | runs place _ _ _ =>
    rw [place.slot] at hslot
    cases hslot
  | closed place _ _ =>
    rw [place.slot] at hslot
    cases hslot
  | lost place _ _ =>
    rw [place.slot] at hslot
    cases hslot

/-- A loop that is found has the ends, and is the last one that was spawned. -/
theorem Stands.isAt_of_loop? {id : Nat} {l : CopyLoop} (h : Stands p)
    (hloop : p.loop? id = some l) :
    p.IsAt (.held l) ∧ l.id = p.spawned ∧ p.isRunning = !l.isCancelled ∧
      p.bufferSize ≤ maxBuffer := by
  cases h with
  | idle place _ _ => cases place.held_of_loop? hloop
  | runs place last running fits =>
    cases place.held_of_loop? hloop
    exact ⟨place, last, running, fits⟩
  | closed place _ _ => cases place.held_of_loop? hloop
  | lost place _ _ => cases place.held_of_loop? hloop

/-- A loop that is told to give up has the ends until it does. -/
theorem Stands.tells (h : Stands p) (hrunning : p.isRunning = true) :
    Stands (cancel { p with isRunning := false, pending := none }) := by
  cases h with
  | idle _ stopped _ =>
    rw [stopped] at hrunning
    cases hrunning
  | @runs l place last running fits =>
    refine .runs (l := { l with isCancelled := true }) ⟨place.slot, place.released, ?_⟩ last rfl
      fits
    simp [cancel, place.loops, Place.loops, last]
  | closed _ stopped _ =>
    rw [stopped] at hrunning
    cases hrunning
  | lost place exceeds spawned =>
    refine .lost ⟨place.slot, place.released, ?_⟩ exceeds spawned
    simp [cancel, place.loops, Place.loops]

/-- What the pipe remembers of its last loop says nothing of where the ends are. -/
theorem Stands.looks (h : Stands p) : Stands { p with pending := none } := by
  cases h with
  | idle place stopped fits =>
    exact .idle ⟨place.slot, place.released, place.loops⟩ stopped fits
  | runs place last running fits =>
    exact .runs ⟨place.slot, place.released, place.loops⟩ last running fits
  | closed place stopped fits =>
    exact .closed ⟨place.slot, place.released, place.loops⟩ stopped fits
  | lost place exceeds spawned =>
    exact .lost ⟨place.slot, place.released, place.loops⟩ exceeds spawned

/-- Only ends in the slot are released. -/
theorem Stands.releases (h : Stands p) :
    Stands { p with slot := none, released := p.slot.orElse fun _ => p.released } := by
  cases h with
  | @idle e place stopped fits =>
    refine .closed (e := e) ⟨rfl, ?_, place.loops⟩ stopped fits
    simp [place.slot, Place.slot?, Place.released?]
  | runs place last running fits =>
    refine .runs ⟨rfl, ?_, place.loops⟩ last running fits
    simpa [place.slot, Place.slot?] using place.released
  | closed place stopped fits =>
    refine .closed ⟨rfl, ?_, place.loops⟩ stopped fits
    simpa [place.slot, Place.slot?] using place.released
  | lost place exceeds spawned =>
    refine .lost ⟨rfl, ?_, place.loops⟩ exceeds spawned
    simpa [place.slot, Place.slot?] using place.released

theorem Stands.updateEnds (h : Stands p) (change : Ends → Ends) :
    Stands (p.updateEnds change) := by
  cases h with
  | idle place stopped fits => exact .idle (place.updateEnds change) stopped fits
  | runs place last running fits => exact .runs (place.updateEnds change) last running fits
  | closed place stopped fits => exact .closed (place.updateEnds change) stopped fits
  | lost place exceeds spawned => exact .lost (place.updateEnds change) exceeds spawned

/-- A step keeps how a pipe stands, as long as the pipe is not dropped. -/
theorem Stands.of_acted (h : Stands p) (hacted : Acted p a q) (hkept : a ≠ .drop) : Stands q := by
  cases hacted with
  | stays => exact h
  | @starts e stopped slot fits =>
    obtain ⟨place, _⟩ := h.isAt_of_slot slot
    refine .runs (l := { id := p.spawned + 1, ends := e }) ⟨rfl, place.released, ?_⟩ rfl rfl fits
    simp [Pipe.report, place.loops, Place.loops]
  | loses stopped slot exceeds =>
    obtain ⟨place, _⟩ := h.isAt_of_slot slot
    exact .lost ⟨rfl, place.released, place.loops⟩ exceeds (Nat.succ_ne_zero _)
  | tells _ running => exact h.tells running
  | looks => exact h.looks
  | releases => exact h.releases
  | drops => exact absurd rfl hkept
  | goesOn alive step =>
    obtain ⟨place, last, running, fits⟩ := h.isAt_of_loop? alive
    have hid := CopyLoop.id_of_goesOn step
    refine .runs ((place.putLoop hid).report _) (hid.trans last) ?_ fits
    rw [CopyLoop.isCancelled_of_goesOn step]
    exact running
  | ends alive step =>
    obtain ⟨place, _, _, fits⟩ := h.isAt_of_loop? alive
    exact .idle (place.finishLoop (CopyLoop.id_of_ends step) _) rfl (.inl fits)
  | givesUp alive told =>
    obtain ⟨place, _, _, fits⟩ := h.isAt_of_loop? alive
    exact .idle (place.finishLoop rfl _) rfl (.inl fits)
  | fed arrivals => exact h.updateEnds _
  | ruled rule => exact h.updateEnds _

/-- Every life keeps how a pipe stands, as long as the pipe is not dropped. -/
theorem Stands.after {acts : List Act} (h : Stands p) (hkept : .drop ∉ acts) :
    Stands (p.after acts) := by
  induction acts generalizing p with
  | nil => exact h
  | cons a acts ih =>
    have ha : a ≠ .drop := fun heq => hkept (heq ▸ List.mem_cons_self)
    exact ih (h.of_acted (acted p a) ha) fun hmem => hkept (List.mem_cons_of_mem a hmem)

theorem bufferSize_after (p : Pipe) (acts : List Act) :
    (p.after acts).bufferSize = p.bufferSize := by
  induction acts generalizing p with
  | nil => rfl
  | cons a acts ih => exact (ih (p.act a)).trans (acted p a).bufferSize_eq

/-! ## What is released -/

/-- Ends that are released go nowhere. -/
theorem Moves.exists_released {e : Ends} {arrivals : List Arrival} {fates : List (UInt8 × Fate)}
    {place : Place} (h : Moves (.released e) arrivals fates place) :
    ∃ e', place = .released e' := by
  cases h <;> exact ⟨_, rfl⟩

theorem IsAt.exists_released_after {e : Ends} (h : p.IsAt (.released e)) (acts : List Act) :
    ∃ e', (p.after acts).IsAt (.released e') := by
  induction acts generalizing p e with
  | nil => exact ⟨e, h⟩
  | cons a acts ih =>
    obtain ⟨place, hat, hmoves⟩ := h.act a
    obtain ⟨e', rfl⟩ := hmoves.exists_released
    exact ih hat

/-- A pipe whose ends are not in the slot does not start. -/
theorem start_eq_false_of_slot (h : p.slot = none) : p.start.1 = false := by
  unfold start
  rw [h]
  split <;> rfl

/-! ## The life cycle -/

/-- The life cycle of a pipe, at one time of it and in all that can happen next. -/
structure LifeCycle (p : Pipe) : Prop where
  /-- At most one loop is alive. -/
  single : p.loops.length ≤ 1
  /-- The ends are in exactly one place: in the slot, with the loop that is alive, or released. -/
  place : p.slot.isSome.toNat + p.loops.length + p.released.isSome.toNat = 1
  /-- The pipe runs as long as a loop is alive that was not told to give up. -/
  running_iff : p.isRunning = true ↔ ∃ l ∈ p.loops, l.isCancelled = false
  /-- It can be started when it does not run and the ends are in the slot. -/
  start_iff : p.start.1 = true ↔ p.isRunning = false ∧ p.slot.isSome
  /-- Any other start changes nothing. -/
  start_eq : p.start.1 = false → p.start.2 = p
  /-- When the end of a run is reported, the ends are in the slot and the pipe does not run. -/
  stopped : ∀ a, ∃ news, (p.act a).events = p.events ++ news ∧
    ∀ total, .stopped total ∈ news → (p.act a).slot.isSome ∧ (p.act a).isRunning = false
  /-- Once the ends are released, the pipe is never started again. -/
  closed : p.released.isSome → ∀ acts, (p.after acts).start.1 = false

/-- A place holds one loop at most. -/
theorem IsAt.length_loops_le {place : Place} (h : p.IsAt place) : p.loops.length ≤ 1 := by
  rw [h.loops]
  cases place <;> simp [Place.loops]

/-- Ends that are not lost are in one place. -/
theorem IsAt.count_eq_one {place : Place} (h : p.IsAt place) (hkept : place ≠ .lost) :
    p.slot.isSome.toNat + p.loops.length + p.released.isSome.toNat = 1 := by
  rw [h.slot, h.loops, h.released]
  cases place with
  | lost => exact absurd rfl hkept
  | _ => rfl

/-- A pipe whose ends were released is never started again. -/
theorem IsAt.start_after_eq_false {place : Place} (h : p.IsAt place) (hreleased : p.released.isSome)
    (acts : List Act) : (p.after acts).start.1 = false := by
  rw [h.released] at hreleased
  cases place with
  | released e =>
    obtain ⟨e', hat⟩ := h.exists_released_after acts
    exact start_eq_false_of_slot hat.slot
  | _ => cases hreleased

theorem Stands.running_iff (h : Stands p) (hkept : ¬ p.IsAt .lost) :
    p.isRunning = true ↔ ∃ l ∈ p.loops, l.isCancelled = false := by
  cases h with
  | idle place stopped _ => simp [stopped, place.loops, Place.loops]
  | runs place _ running _ => simp [running, place.loops, Place.loops]
  | closed place stopped _ => simp [stopped, place.loops, Place.loops]
  | lost place _ _ => exact absurd place hkept

/-- A pipe that stands in one of these ways is in its life cycle, unless its ends are lost. -/
theorem Stands.lifeCycle (h : Stands p) (hkept : ¬ p.IsAt .lost) : LifeCycle p := by
  obtain ⟨place, hat⟩ := h.exists_isAt
  constructor
  · exact hat.length_loops_le
  · exact hat.count_eq_one fun hlost => hkept (hlost ▸ hat)
  · exact h.running_iff hkept
  · exact start_eq_true_iff p
  · exact start_eq_self
  · exact fun a => (acted p a).exists_news
  · exact hat.start_after_eq_false

/-- Ends that are lost are in no place. -/
theorem IsAt.not_lifeCycle (h : p.IsAt .lost) : ¬ LifeCycle p := by
  intro hcycle
  have hplace := hcycle.place
  rw [h.slot, h.released, h.loops] at hplace
  cases hplace

/-- However calls of `start`, `stop` and `close` and the loops take turns, a pipe is in its life
cycle at all times, unless a run was started whose buffer cannot be. -/
theorem lifeCycle_iff (bufferSize : Nat) (ends : Ends) {acts : List Act} (hkept : .drop ∉ acts) :
    LifeCycle ((new bufferSize ends).after acts) ↔
      bufferSize ≤ maxBuffer ∨ ((new bufferSize ends).after acts).spawned = 0 := by
  have hstands := (stands_new bufferSize ends).after hkept
  have hbuffer : ((new bufferSize ends).after acts).bufferSize = max bufferSize 1 :=
    bufferSize_after _ acts
  have hmax : max bufferSize 1 ≤ maxBuffer ↔ bufferSize ≤ maxBuffer := by
    have hone : 1 ≤ maxBuffer := by decide
    omega
  rw [← hmax, ← hbuffer]
  generalize (new bufferSize ends).after acts = p at hstands
  constructor
  · intro hcycle
    cases hstands with
    | idle _ _ fits => exact fits
    | runs _ _ _ fits => exact .inl fits
    | closed _ _ fits => exact fits
    | lost place _ _ => exact absurd hcycle place.not_lifeCycle
  · intro hfits
    refine hstands.lifeCycle fun hlost => ?_
    cases hstands with
    | idle place _ _ => cases hlost.slot.symm.trans place.slot
    | runs place _ _ _ => cases hlost.loops.symm.trans place.loops
    | closed place _ _ => cases hlost.released.symm.trans place.released
    | lost _ exceeds spawned => exact hfits.elim (by omega) spawned

/-- The ends of a stream that has brought three bytes. -/
def threeBytes : Ends := ⟨⟨[.piece [1, 2, 3]], 0⟩, .empty {}⟩

/-- A call of `stop` and one of `close` overlap: the run is told to give up by one of them while it
writes, the other one finds it stopped and waits for its end, and a start in between is refused. -/
def overlappingCalls : List Act :=
  [.start, .advance 1, .stop .begun, .close (.stopping .begun), .start, .abandon 1,
    .stop (.waiting (some 1)), .close (.stopping (.returned false)), .close (.waiting none), .start]

theorem lifeCycle_of_overlappingCalls :
    .drop ∉ overlappingCalls ∧ LifeCycle ((new 2 threeBytes).after overlappingCalls) := by
  have hkept : .drop ∉ overlappingCalls := by simp [overlappingCalls]
  have hfits : 2 ≤ maxBuffer := by decide
  exact ⟨hkept, (lifeCycle_iff 2 threeBytes hkept).2 (.inl hfits)⟩

example : ((new 2 threeBytes).after overlappingCalls).events = [.started, .stopped 0] := by decide

/-- A run whose buffer cannot be has begun and is over: the pipe runs without a loop, its ends are
in no place, and no end of the run is ever reported. -/
theorem not_lifeCycle_without_buffer :
    let p := (new (maxBuffer + 1) threeBytes).after [.start]
    p.isRunning = true ∧ p.loops = [] ∧ p.slot = none ∧ p.released = none ∧ ¬ LifeCycle p :=
  ⟨rfl, rfl, rfl, rfl, IsAt.not_lifeCycle ⟨rfl, rfl, rfl⟩⟩

end Socks5.Pipe

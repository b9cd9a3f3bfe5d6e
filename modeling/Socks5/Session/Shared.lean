import Socks5.Session.Registry

/-!
# A registry that is shared

Several tasks work on one registry at the same time. A call that one of them has made is a value
that says how far it has come, and between two of its steps come steps of others. A step is one
access to what the tasks share: the counter, the table of sessions, the flag of a session, its state
or its signal. To look a session up changes nothing, so there is no step for it: what is found is
`Registry.get?` at any time. Main statement: a call with nothing in between does what the registry
does at once (`Registry.create_eq`, `SharedRegistry.exists_sweepSteps`).
-/

namespace Socks5

/-! ## Creating a session -/

namespace Registry

/-- Takes the next id for a session, which nobody knows of yet. -/
def number (r : Registry) (peer localAddr : SocketAddr) : Nat × Registry :=
  (r.handles.length + 1, { r with handles := r.handles ++ [{ peer, localAddr }] })

/-- Registers a session. -/
def enlist (r : Registry) (id : Nat) : Registry := { r with live := r.live ++ [id] }

/-- A session is numbered and then registered. -/
theorem create_eq (r : Registry) (peer localAddr : SocketAddr) :
    r.create peer localAddr =
      let (id, r) := r.number peer localAddr
      (id, r.enlist id) :=
  rfl

end Registry

namespace SharedRegistry

open Registry (Closing)

/-! ## Closing sessions -/

/-- An attempt to close a session. -/
structure Attempt where
  id : Nat
  stage : Closing
deriving DecidableEq

namespace Attempt

/-- An attempt that is about to begin. -/
def on (id : Nat) : Attempt := ⟨id, .started⟩

/-- An attempt takes its next step. -/
def step (r : Registry) (a : Attempt) : Registry × Attempt :=
  let (r, stage) := r.closeStep a.id a.stage
  (r, { a with stage })

/-- Whether an attempt has returned. -/
def isOver (a : Attempt) : Bool :=
  match a.stage with
  | .finished _ => true
  | _ => false

/-- Whether an attempt has returned that it closed the session. -/
def hasWon (a : Attempt) : Bool := a.stage = .finished true

end Attempt

/-- Of several attempts in a row, the first that is not over takes its next step. -/
def sweepStep (r : Registry) : List Attempt → Registry × List Attempt
  | [] => (r, [])
  | a :: rest =>
    if a.isOver then
      let (r, rest) := sweepStep r rest
      (r, a :: rest)
    else
      let (r, a) := a.step r
      (r, a :: rest)

/-- Takes `steps` steps of several attempts in a row. -/
def sweepSteps : (steps : Nat) → Registry → List Attempt → Registry × List Attempt
  | 0, r, attempts => (r, attempts)
  | n + 1, r, attempts =>
    let (r, attempts) := sweepStep r attempts
    sweepSteps n r attempts

/-! ## Calls -/

/-- What a task has called, and how far the call has come. A call that creates a session takes an
id and then registers the session. One that closes all sessions looks at the table, part by part,
and then closes what it has seen, one session after another. -/
inductive Call where
  | create (peer localAddr : SocketAddr)
  | numbered (id : Nat)
  | created (id : Nat)
  | close (attempt : Attempt)
  | look (seen : List Nat)
  | sweep (attempts : List Attempt)
deriving DecidableEq

namespace Call

/-- A call takes its next step. -/
def step (r : Registry) : Call → Registry × Call
  | .create peer localAddr =>
    let (id, r) := r.number peer localAddr
    (r, .numbered id)
  | .numbered id => (r.enlist id, .created id)
  | .created id => (r, .created id)
  | .close a =>
    let (r, a) := a.step r
    (r, .close a)
  | .look seen => (r, .sweep (seen.map Attempt.on))
  | .sweep attempts =>
    let (r, attempts) := sweepStep r attempts
    (r, .sweep attempts)

/-- The id that a call has taken for a new session. -/
def id? : Call → Option Nat
  | .numbered id | .created id => some id
  | _ => none

/-- The session that a call has created. -/
def created? : Call → Option Nat
  | .created id => some id
  | _ => none

/-- The attempts of a call to close sessions. -/
def attempts : Call → List Attempt
  | .close a => [a]
  | .sweep attempts => attempts
  | _ => []

/-- Whether a call to close sessions has returned; any other call counts as one that has. -/
def isOver : Call → Bool
  | .close a => a.isOver
  | .look _ => false
  | .sweep attempts => attempts.all Attempt.isOver
  | _ => true

/-- Whether a call has returned that it closed its session. -/
def isTrueClose : Call → Bool
  | .close a => a.hasWon
  | _ => false

/-- The number that a call to close all sessions has returned: of its attempts that came to
`true`. -/
def count? : Call → Option Nat
  | .sweep attempts =>
    if attempts.all Attempt.isOver then some (attempts.countP Attempt.hasWon) else none
  | _ => none

theorem count?_sweep_eq_some_iff {attempts : List Attempt} {n : Nat} :
    (sweep attempts).count? = some n ↔
      attempts.all Attempt.isOver ∧ attempts.countP Attempt.hasWon = n := by
  rw [count?]
  by_cases hover : attempts.all Attempt.isOver <;> simp [hover]

end Call

end SharedRegistry

/-! ## The registry and its callers -/

/-- A registry, and all calls that have been made on it, the first call first. -/
structure SharedRegistry where
  registry : Registry := {}
  calls : List SharedRegistry.Call := []
deriving DecidableEq

namespace SharedRegistry

/-- What a task does. Only a session that has been created can be named, for nobody has the handle
of another. -/
inductive Move where
  | create (peer localAddr : SocketAddr)
  | close (id : Nat)
  | closeAll
  | enter (id : Nat) (next : SessionState)
  | look (call : Nat) (ids : List Nat)
  | step (call : Nat)
deriving DecidableEq

/-- The sessions that have been created. -/
def created (s : SharedRegistry) : List Nat := s.calls.filterMap Call.created?

/-- A call is made. -/
def begin (c : Call) (s : SharedRegistry) : SharedRegistry := { s with calls := s.calls ++ [c] }

/-- A call goes on. -/
def put (call : Nat) (c : Call) (s : SharedRegistry) : SharedRegistry :=
  { s with calls := s.calls.set call c }

/-- A task does something. A look at a part of the table, whose ids come in any order, finds those
that are registered at that moment. -/
def move (s : SharedRegistry) : Move → SharedRegistry
  | .create peer localAddr => s.begin (.create peer localAddr)
  | .close id => if id ∈ s.created then s.begin (.close (.on id)) else s
  | .closeAll => s.begin (.look [])
  | .enter id next =>
    if id ∈ s.created then { s with registry := s.registry.update id fun h => h.enter next } else s
  | .look call ids =>
    match s.calls[call]? with
    | some (.look seen) => s.put call (.look (seen ++ ids.filter fun id => id ∈ s.registry.live))
    | _ => s
  | .step call =>
    match s.calls[call]? with
    | some c =>
      let (registry, c) := c.step s.registry
      { s.put call c with registry }
    | none => s

/-- Moves one after another, of whichever tasks. -/
def after (s : SharedRegistry) (moves : List Move) : SharedRegistry := moves.foldl move s

/-! ## Sweeps with nothing in between -/

theorem sweepStep_cons_of_isOver {a : Attempt} (h : a.isOver) (r : Registry)
    (rest : List Attempt) :
    sweepStep r (a :: rest) = ((sweepStep r rest).1, a :: (sweepStep r rest).2) := by
  rw [sweepStep, if_pos h]

theorem sweepSteps_cons_of_isOver {a : Attempt} (h : a.isOver) (n : Nat) (r : Registry)
    (rest : List Attempt) :
    sweepSteps n r (a :: rest) = ((sweepSteps n r rest).1, a :: (sweepSteps n r rest).2) := by
  induction n generalizing r rest with
  | zero => rfl
  | succ n ih => simp only [sweepSteps, sweepStep_cons_of_isOver h, ih]

theorem sweepSteps_add (n k : Nat) (r : Registry) (attempts : List Attempt) :
    sweepSteps (n + k) r attempts =
      sweepSteps k (sweepSteps n r attempts).1 (sweepSteps n r attempts).2 := by
  induction n generalizing r attempts with
  | zero => simp [sweepSteps]
  | succ n ih =>
    rw [Nat.add_right_comm]
    exact ih _ _

/-- The first attempt of a sweep closes its session, or finds it closed. -/
theorem exists_sweepSteps_on (id : Nat) (r : Registry) (rest : List Attempt) :
    ∃ n, sweepSteps n r (.on id :: rest) =
      ((r.close id).2, ⟨id, .finished (r.close id).1⟩ :: rest) := by
  rw [Registry.close_eq]
  cases hhandle : r.handle? id with
  | none =>
    refine ⟨1, ?_⟩
    simp [sweepSteps, sweepStep, Attempt.on, Attempt.isOver, Attempt.step, Registry.closeStep,
      hhandle]
  | some h =>
    by_cases hclosed : h.isClosed
    · refine ⟨1, ?_⟩
      simp [sweepSteps, sweepStep, Attempt.on, Attempt.isOver, Attempt.step, Registry.closeStep,
        hhandle, hclosed]
    · refine ⟨4, ?_⟩
      simp only [sweepSteps, sweepStep, Attempt.on, Attempt.isOver, Attempt.step,
        Registry.closeStep, hhandle, hclosed, Bool.false_eq_true, ↓reduceIte,
        Registry.update_update, Registry.live_update]
      rfl

/-- With nothing in between, a sweep closes the sessions that it has seen, and counts those that
were still open. -/
theorem exists_sweepSteps (ids : List Nat) (r : Registry) :
    ∃ n attempts, sweepSteps n r (ids.map Attempt.on) = ((r.closeEach ids).2, attempts) ∧
      (Call.sweep attempts).count? = some (r.closeEach ids).1 := by
  induction ids generalizing r with
  | nil => exact ⟨0, [], rfl, rfl⟩
  | cons id ids ih =>
    obtain ⟨n, hfirst⟩ := exists_sweepSteps_on id r (ids.map Attempt.on)
    obtain ⟨k, attempts, hrest, hcount⟩ := ih (r.close id).2
    refine ⟨n + k, ⟨id, .finished (r.close id).1⟩ :: attempts, ?_, ?_⟩
    · rw [List.map_cons, sweepSteps_add, hfirst, sweepSteps_cons_of_isOver rfl, hrest]
      rfl
    · obtain ⟨hover, hwon⟩ := Call.count?_sweep_eq_some_iff.1 hcount
      refine Call.count?_sweep_eq_some_iff.2 ⟨?_, ?_⟩
      · rw [List.all_cons, hover]
        rfl
      · rw [List.countP_cons, hwon, Registry.closeEach]
        by_cases hclose : (r.close id).1 <;> simp [Attempt.hasWon, hclose]

end SharedRegistry

end Socks5

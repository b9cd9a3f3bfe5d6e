import Socks5.Stream.Basic

/-!
# Where bytes go

The writable side of a stream: it takes bytes up to a limit on all that it ever takes, and has a
way to behave when it is full. Main statement: what a sink has taken only grows, by the bytes that
it says it took (`Sink.accepted_write`).
-/

namespace Socks5

/-- What becomes of a write for which there is no room. -/
inductive WhenFull where
  | wait
  | refuse
  | fail (cause : IoFailure)
deriving DecidableEq

/-- How a sink takes bytes: the most that it takes in all, what it does when that is reached, and
the failure of its flushes. -/
structure Intake where
  limit : Option Nat := none
  whenFull : WhenFull := .wait
  flushFailure : Option IoFailure := none
deriving DecidableEq

/-- The writable side of a stream: the bytes that it has taken, of which the last is on top, how
many they are, and how often it was flushed. -/
structure Sink where
  intake : Intake
  stack : Bytes := []
  size : Nat := 0
  size_eq : size = stack.length := by rfl
  flushes : Nat := 0
deriving DecidableEq

namespace Sink

/-- A sink that has taken nothing so far. -/
def empty (intake : Intake) : Sink := { intake }

/-- The bytes that were taken, in their order. -/
def accepted (s : Sink) : Bytes := s.stack.reverse

/-- Takes bytes, whether there is room for them or not. -/
def accept (bytes : Bytes) (s : Sink) : Sink :=
  { s with
    stack := bytes.reverseAux s.stack
    size := s.size + bytes.length
    size_eq := by rw [List.reverseAux_eq, List.length_append, List.length_reverse, s.size_eq,
      Nat.add_comm] }

@[simp] theorem accepted_accept (bytes : Bytes) (s : Sink) :
    (s.accept bytes).accepted = s.accepted ++ bytes := by
  simp [accept, accepted, List.reverseAux_eq]

/-- The bytes that were taken are counted. -/
theorem length_accepted (s : Sink) : s.accepted.length = s.size := by
  rw [accepted, List.length_reverse, s.size_eq]

/-- The bytes that were taken after the first `count`. -/
def since (s : Sink) (count : Nat) : Bytes := (s.stack.take (s.size - count)).reverse

theorem since_eq (s : Sink) (count : Nat) : s.since count = s.accepted.drop count := by
  rw [since, accepted, List.drop_reverse, s.size_eq]

/-- How many of `size` bytes there is room for. -/
def room (s : Sink) (size : Nat) : Nat :=
  match s.intake.limit with
  | none => size
  | some limit => min size (limit - s.size)

theorem room_le (s : Sink) (size : Nat) : s.room size ≤ size := by
  unfold room; split
  · exact Nat.le_refl size
  · exact Nat.min_le_left _ _

/-- Takes as many bytes as there is room for. -/
def write (bytes : Bytes) (s : Sink) :
    Option (Except IoFailure (Fin (bytes.length + 1))) × Sink :=
  let count := s.room bytes.length
  if count = 0 then
    match s.intake.whenFull with
    | .wait => (none, s)
    | .refuse => (some (.ok 0), s)
    | .fail cause => (some (.error cause), s)
  else
    (some (.ok ⟨count, Nat.lt_succ_of_le (s.room_le _)⟩),
      s.accept (bytes.take count))

/-- Flushes, which never waits. -/
def flush (s : Sink) : Except IoFailure Unit × Sink :=
  (match s.intake.flushFailure with
    | none => .ok ()
    | some cause => .error cause,
   { s with flushes := s.flushes + 1 })

/-- The number of bytes that an answer to a write says were taken. -/
def taken {size : Nat} : Option (Except IoFailure (Fin (size + 1))) → Nat
  | some (.ok count) => count
  | _ => 0

/-- A write adds to what was taken as many bytes as it says. -/
theorem accepted_write (bytes : Bytes) (s : Sink) :
    (s.write bytes).2.accepted = s.accepted ++ bytes.take (taken (s.write bytes).1) := by
  unfold write
  by_cases h : s.room bytes.length = 0
  · cases s.intake.whenFull <;> simp [h, taken]
  · simp [h, taken]

@[simp] theorem flushes_accept (bytes : Bytes) (s : Sink) :
    (s.accept bytes).flushes = s.flushes := rfl

@[simp] theorem flushes_write (bytes : Bytes) (s : Sink) :
    (s.write bytes).2.flushes = s.flushes := by
  unfold write
  by_cases h : s.room bytes.length = 0
  · cases s.intake.whenFull <;> simp [h]
  · simp [h]

@[simp] theorem accepted_flush (s : Sink) : s.flush.2.accepted = s.accepted := rfl

@[simp] theorem flushes_flush (s : Sink) : s.flush.2.flushes = s.flushes + 1 := rfl

end Sink

end Socks5

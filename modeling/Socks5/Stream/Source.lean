import Socks5.Stream.Basic

/-!
# Where bytes come from

The readable side of a stream: pieces that have arrived and not been read, each handed over by
itself, and behind them perhaps the end of the stream or a fault. With nothing at hand a reader
waits. Main statement: a read takes from the front of what is pending what it hands over, and
nothing else (`Source.handed_append_pending`).
-/

namespace Socks5

/-- What arrives on a stream. -/
inductive Arrival where
  | piece (bytes : Bytes)
  | finish
  | fault (cause : IoFailure)
deriving DecidableEq

namespace Arrival

/-- The bytes of an arrival. -/
def bytes : Arrival → Bytes
  | .piece bytes => bytes
  | .finish | .fault _ => []

end Arrival

/-- The readable side of a stream: what has arrived, and how many bytes have been read already. -/
structure Source where
  arrivals : List Arrival
  consumed : Nat := 0
deriving DecidableEq

namespace Source

/-- A source with something more to read. -/
def feed (s : Source) (arrivals : List Arrival) : Source :=
  { s with arrivals := s.arrivals ++ arrivals }

/-- Reads from what has arrived: the bytes of at most one piece, the end, which stays, or a fault,
which is met once. Without anything at hand there is no answer. -/
def readFrom (room : Nat) :
    List Arrival → Option (Except IoFailure (Option (Stream.Piece room))) × List Arrival
  | [] => (none, [])
  | .piece [] :: rest => readFrom room rest
  | .piece (b :: bytes) :: rest =>
    if h : 0 < room then
      (some (.ok (some ⟨(b :: bytes).take room, by rw [List.length_take, List.length_cons]; omega,
          List.length_take_le room _⟩)),
        .piece ((b :: bytes).drop room) :: rest)
    else (none, .piece (b :: bytes) :: rest)
  | .finish :: rest => (some (.ok none), .finish :: rest)
  | .fault cause :: rest => (some (.error cause), rest)

/-- What has arrived without the interruptions in front. They call for nothing but to read on. -/
def resumeFrom : List Arrival → List Arrival
  | [] => []
  | .piece [] :: rest => resumeFrom rest
  | .piece (b :: bytes) :: rest => .piece (b :: bytes) :: rest
  | .finish :: rest => .finish :: rest
  | .fault cause :: rest =>
    if cause.kind = .interrupted then resumeFrom rest else .fault cause :: rest

/-- A source whose reader was interrupted and reads on. -/
def resume (s : Source) : Source := { s with arrivals := resumeFrom s.arrivals }

/-- The bytes that an answer to a read hands over. -/
def handed {room : Nat} : Option (Except IoFailure (Option (Stream.Piece room))) → Bytes
  | some (.ok (some piece)) => piece.bytes
  | _ => []

/-- Reads at most `room` bytes. -/
def read (room : Nat) (s : Source) :
    Option (Except IoFailure (Option (Stream.Piece room))) × Source :=
  let (answer, arrivals) := readFrom room s.arrivals
  (answer, ⟨arrivals, s.consumed + (handed answer).length⟩)

/-- Reads everything up to what is not bytes: the bytes, and what stopped the reading, if anything
did. The end stays, and a fault is met once. -/
def drainFrom : List Arrival → Bytes × Option (Except IoFailure Unit) × List Arrival
  | [] => ([], none, [])
  | .piece bytes :: rest =>
    let (more, stop, left) := drainFrom rest
    (bytes ++ more, stop, left)
  | .finish :: rest => ([], some (.ok ()), .finish :: rest)
  | .fault cause :: rest => ([], some (.error cause), rest)

/-- Reads until the source waits, ends or fails. -/
def drain (s : Source) : Bytes × Option (Except IoFailure Unit) × Source :=
  let (bytes, stop, left) := drainFrom s.arrivals
  (bytes, stop, ⟨left, s.consumed + bytes.length⟩)

/-- The bytes that have arrived and not been read. -/
def pending (s : Source) : Bytes := s.arrivals.flatMap Arrival.bytes

/-! ## Laws -/

@[simp] theorem pending_feed (s : Source) (arrivals : List Arrival) :
    (s.feed arrivals).pending = s.pending ++ arrivals.flatMap Arrival.bytes := by
  simp [pending, feed]

theorem consumed_read (room : Nat) (s : Source) :
    (s.read room).2.consumed = s.consumed + (handed (s.read room).1).length := rfl

theorem handed_append_readFrom (room : Nat) (arrivals : List Arrival) :
    handed (readFrom room arrivals).1 ++ (readFrom room arrivals).2.flatMap Arrival.bytes =
      arrivals.flatMap Arrival.bytes := by
  induction arrivals with
  | nil => rfl
  | cons arrival rest ih =>
    match arrival with
    | .piece [] => simpa [readFrom, Arrival.bytes] using ih
    | .piece (b :: bytes) =>
      by_cases h : 0 < room
      · simp only [readFrom, h, ↓reduceDIte, handed, List.flatMap_cons, Arrival.bytes]
        rw [← List.append_assoc, List.take_append_drop]
      · simp [readFrom, h, handed, Arrival.bytes]
    | .finish => rfl
    | .fault _ => rfl

/-- A read takes what it hands over from the front of what is pending. -/
theorem handed_append_pending (room : Nat) (s : Source) :
    handed (s.read room).1 ++ (s.read room).2.pending = s.pending :=
  handed_append_readFrom room s.arrivals

end Source

end Socks5

import Socks5.Stream.Source

/-!
# What a stream brings

The bytes of a stream are those that arrive before its end, in whatever pieces they come and
whatever faults come in between. Every way of reading takes from their front what it hands over, and
leaves the rest of them behind: `passes_readFrom`, `passes_resumeFrom`, `passes_drainFrom`. To drain
a stream is to read it piece by piece (`read_of_drain`).
-/

namespace Socks5.Source

/-- The bytes that arrive before the end of a stream. -/
def streamed : List Arrival → Bytes
  | [] => []
  | .piece bytes :: rest => bytes ++ streamed rest
  | .finish :: _ => []
  | .fault _ :: rest => streamed rest

/-- The end of a stream comes next. -/
def AtEnd (arrivals : List Arrival) : Prop := arrivals.head? = some .finish

/-- Bytes are passed over from one point of a stream to another, whatever may still arrive. -/
def Passes (before : List Arrival) (bytes : Bytes) (after : List Arrival) : Prop :=
  ∀ more, streamed (before ++ more) = bytes ++ streamed (after ++ more)

variable {arrivals before middle after : List Arrival} {bytes bytes' : Bytes}

@[simp] theorem streamed_piece_append (bytes : Bytes) (rest more : List Arrival) :
    streamed (.piece bytes :: rest ++ more) = bytes ++ streamed (rest ++ more) := rfl

/-- Nothing comes behind the end. -/
theorem AtEnd.streamed_append (h : AtEnd arrivals) (more : List Arrival) :
    streamed (arrivals ++ more) = [] := by
  cases arrivals with
  | nil => cases h
  | cons first rest =>
    obtain rfl : first = .finish := Option.some.inj h
    rfl

theorem AtEnd.append (h : AtEnd arrivals) (more : List Arrival) : AtEnd (arrivals ++ more) := by
  cases arrivals with
  | nil => cases h
  | cons first rest => exact h

namespace Passes

theorem refl (arrivals : List Arrival) : Passes arrivals [] arrivals := fun _ => rfl

theorem trans (h : Passes before bytes middle) (h' : Passes middle bytes' after) :
    Passes before (bytes ++ bytes') after := by
  intro more
  rw [h more, h' more, List.append_assoc]

/-- What arrives meanwhile is left behind. -/
theorem append (h : Passes before bytes after) (more : List Arrival) :
    Passes (before ++ more) bytes (after ++ more) := by
  intro more'
  rw [List.append_assoc, List.append_assoc]
  exact h _

/-- All that was streamed is what was passed over, and what is left. -/
theorem streamed_eq (h : Passes before bytes after) :
    streamed before = bytes ++ streamed after := by
  simpa using h []

/-- What was passed over comes first. -/
theorem isPrefix (h : Passes before bytes after) : bytes <+: streamed before :=
  ⟨_, h.streamed_eq.symm⟩

end Passes

/-! ## Ways of reading -/

theorem passes_readFrom (room : Nat) (arrivals : List Arrival) :
    Passes arrivals (handed (readFrom room arrivals).1) (readFrom room arrivals).2 := by
  induction arrivals with
  | nil => exact .refl []
  | cons arrival rest ih =>
    match arrival with
    | .piece [] => exact ih
    | .piece (b :: bytes) =>
      by_cases hroom : 0 < room
      · intro more
        simp only [readFrom, hroom, ↓reduceDIte, handed, streamed_piece_append]
        rw [← List.append_assoc, List.take_append_drop]
      · simpa only [readFrom, hroom, ↓reduceDIte] using .refl _
    | .finish => exact .refl _
    | .fault cause => exact fun _ => rfl

/-- A reader that is told of the end has come to it. -/
theorem atEnd_of_readFrom {room : Nat} {arrivals left : List Arrival}
    (h : readFrom room arrivals = (some (.ok none), left)) : AtEnd left := by
  induction arrivals with
  | nil => cases h
  | cons arrival rest ih =>
    match arrival with
    | .piece [] => exact ih h
    | .piece (b :: bytes) =>
      by_cases hroom : 0 < room
      · simp only [readFrom, hroom, ↓reduceDIte] at h
        cases h
      · simp only [readFrom, hroom, ↓reduceDIte] at h
        cases h
    | .finish =>
      cases h
      rfl
    | .fault cause => cases h

theorem passes_resumeFrom (arrivals : List Arrival) :
    Passes arrivals [] (resumeFrom arrivals) := by
  fun_induction resumeFrom arrivals with
  | case1 => exact .refl []
  | case2 rest ih => exact ih
  | case3 => exact .refl _
  | case4 => exact .refl _
  | case5 cause rest _ ih => exact ih
  | case6 => exact .refl _

theorem passes_drainFrom (arrivals : List Arrival) :
    Passes arrivals (drainFrom arrivals).1 (drainFrom arrivals).2.2 := by
  induction arrivals with
  | nil => exact .refl []
  | cons arrival rest ih =>
    match arrival with
    | .piece bytes =>
      intro more
      rw [streamed_piece_append, ih more, ← List.append_assoc]
      rfl
    | .finish => exact .refl _
    | .fault cause => exact fun _ => rfl

/-- What is drained up to where the source waits may be read piece by piece. -/
theorem readFrom_of_drainFrom {room : Nat} (hroom : 0 < room) {arrivals left : List Arrival}
    {bytes : Bytes} (hdrain : drainFrom arrivals = (bytes, none, left)) :
    (∃ piece arrivals' rest, readFrom room arrivals = (some (.ok (some piece)), arrivals') ∧
        bytes = piece.bytes ++ rest ∧ drainFrom arrivals' = (rest, none, left)) ∨
      readFrom room arrivals = (none, left) ∧ bytes = [] := by
  induction arrivals generalizing bytes with
  | nil =>
    cases hdrain
    exact .inr ⟨rfl, rfl⟩
  | cons arrival rest ih =>
    match arrival with
    | .finish => cases hdrain
    | .fault cause => cases hdrain
    | .piece [] => exact ih hdrain
    | .piece (b :: bytes) =>
      rcases hrest : drainFrom rest with ⟨more, stop, left'⟩
      simp only [drainFrom, hrest, Prod.mk.injEq] at hdrain
      obtain ⟨rfl, rfl, rfl⟩ := hdrain
      simp only [readFrom, hroom, ↓reduceDIte]
      refine .inl ⟨_, _, (b :: bytes).drop room ++ more, rfl, ?_, ?_⟩
      · rw [← List.append_assoc, List.take_append_drop]
      · simp only [drainFrom, hrest]

theorem read_of_drain {room : Nat} (hroom : 0 < room) {source drained : Source} {bytes : Bytes}
    (hdrain : source.drain = (bytes, none, drained)) :
    (∃ piece middle rest, source.read room = (some (.ok (some piece)), middle) ∧
        bytes = piece.bytes ++ rest ∧ middle.drain = (rest, none, drained)) ∨
      source.read room = (none, drained) ∧ bytes = [] := by
  rcases hfrom : drainFrom source.arrivals with ⟨found, stop, left⟩
  simp only [drain, hfrom, Prod.mk.injEq] at hdrain
  obtain ⟨rfl, rfl, rfl⟩ := hdrain
  rcases readFrom_of_drainFrom hroom hfrom with
    ⟨piece, middle, rest, hread, rfl, hrest⟩ | ⟨hread, rfl⟩
  · refine .inl ⟨piece, ⟨middle, source.consumed + piece.bytes.length⟩, rest, ?_, rfl, ?_⟩
    · simp only [read, hread, handed]
    · simp only [drain, hrest, List.length_append, Nat.add_assoc]
  · exact .inr ⟨by simp [read, hread, handed], rfl⟩

end Socks5.Source

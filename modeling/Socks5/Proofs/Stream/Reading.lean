import Socks5.Task.Dialogue
import Socks5.Stream.Basic

/-!
# Reading messages from a stream

What a reader does on a stream depends on the bytes that have come and on nothing else, in
particular not on the pieces in which they have come. Main statements: a reader on a stream stands
where it would stand over the bytes at hand (`leads_run`), and every message that can be read from
bytes is read from a stream that brings them (`exists_leads_run`).
-/

namespace Socks5

/-! ## Readers over bytes -/

namespace Decoder

variable {α : Type}

@[simp] theorem parse_done (a : α) (bytes : Bytes) :
    parse (.done a) bytes = .finished (.ok a) bytes := rfl

@[simp] theorem parse_fail (e : Failure) (bytes : Bytes) :
    parse (.fail e : Decoder α) bytes = .finished (.error e) bytes := rfl

theorem parse_ask {q : FieldAsk} (next : Octets q.size → Decoder α) (bytes : Bytes) :
    parse (.ask (I := Fields) q next) bytes =
      if h : q.size ≤ bytes.length then
        parse (next (.ofTake q.size bytes h)) (bytes.drop q.size)
      else .lacking q.field := rfl

/-- A field that is at hand is passed over. -/
theorem parse_ask_append {q : FieldAsk} (next : Octets q.size → Decoder α) (octets : Octets q.size)
    (rest : Bytes) :
    parse (.ask (I := Fields) q next) (octets.val ++ rest) = parse (next octets) rest := by
  have hlen : octets.val.length = q.size := octets.property
  have htake : Octets.ofTake q.size (octets.val ++ rest) (by rw [List.length_append]; omega) =
      octets := Subtype.ext (List.take_left' hlen)
  rw [parse_ask, dif_pos (by rw [List.length_append]; omega), htake, List.drop_left' hlen]

theorem parse_ask_of_lt {q : FieldAsk} (next : Octets q.size → Decoder α) {bytes : Bytes}
    (h : bytes.length < q.size) :
    parse (.ask (I := Fields) q next) bytes = .lacking q.field := by
  rw [parse_ask, dif_neg (by omega)]

theorem parse_ask_of_le {q : FieldAsk} (next : Octets q.size → Decoder α) {bytes : Bytes}
    (h : q.size ≤ bytes.length) :
    parse (.ask (I := Fields) q next) bytes =
      parse (next (.ofTake q.size bytes h)) (bytes.drop q.size) := by
  rw [parse_ask, dif_pos h]

/-- Bytes behind those that settle a reading do not change it. -/
theorem parse_append {d : Decoder α} {bytes rest : Bytes} {result : Except Failure α}
    (h : parse d bytes = .finished result rest) (more : Bytes) :
    parse d (bytes ++ more) = .finished result (rest ++ more) := by
  induction d generalizing bytes with
  | done a =>
    cases h
    rfl
  | fail e =>
    cases h
    rfl
  | ask q next ih =>
    by_cases hq : q.size ≤ bytes.length
    · have hq' : q.size ≤ (bytes ++ more).length := by rw [List.length_append]; omega
      have hsame : Octets.ofTake q.size (bytes ++ more) hq' = .ofTake q.size bytes hq :=
        Subtype.ext (List.take_append_of_le_length hq)
      rw [parse_ask_of_le next hq] at h
      rw [parse_ask_of_le next hq', hsame, List.drop_append_of_le_length hq]
      exact ih _ h
    · rw [parse_ask_of_lt next (by omega)] at h
      cases h

/-- A reading takes its bytes from the front. -/
theorem exists_eq_append_of_parse {d : Decoder α} {bytes rest : Bytes}
    {result : Except Failure α} (h : parse d bytes = .finished result rest) :
    ∃ front, bytes = front ++ rest ∧ parse d front = .finished result [] := by
  induction d generalizing bytes with
  | done a =>
    cases h
    exact ⟨[], rfl, rfl⟩
  | fail e =>
    cases h
    exact ⟨[], rfl, rfl⟩
  | ask q next ih =>
    by_cases hq : q.size ≤ bytes.length
    · rw [parse_ask_of_le next hq] at h
      obtain ⟨front, hfront, hparse⟩ := ih _ h
      refine ⟨bytes.take q.size ++ front, ?_, ?_⟩
      · rw [List.append_assoc, ← hfront, List.take_append_drop]
      · rw [← hparse]
        exact parse_ask_append next (.ofTake q.size bytes hq) front
    · rw [parse_ask_of_lt next (by omega)] at h
      cases h

end Decoder

namespace Stream

open Socks5.Task (Leads leads_done_iff leads_fail_iff leads_ask_iff leads_bind_iff)

/-! ## What is heard -/

/-- A piece that fills the room there is. -/
def Piece.filling (b : UInt8) (bytes : Bytes) : Piece (bytes.length + 1) where
  bytes := b :: bytes
  nonempty := Nat.succ_pos _
  fits := Nat.le_refl _

/-- The bytes that an exchange brings. -/
def heardIn : Exchange Streams → Bytes
  | ⟨.read _, .ok (some piece)⟩ => piece.bytes
  | _ => []

/-- The bytes that a dialogue brings. -/
def heard (d : Dialogue Streams) : Bytes := d.flatMap heardIn

@[simp] theorem heard_nil : heard [] = [] := rfl

@[simp] theorem heard_append (d d' : Dialogue Streams) : heard (d ++ d') = heard d ++ heard d' :=
  List.flatMap_append

/-- A question that asks for bytes. -/
def IsRead : Ask → Prop
  | .read _ => True
  | .write _ | .flush => False

/-- A read that brings a piece of the stream. -/
def IsPiece : Exchange Streams → Prop
  | ⟨.read _, .ok (some _)⟩ => True
  | _ => False

/-- The failure of a reader who lacks a field and meets the end or a fault. -/
def failureOf (field : Field) {room : Nat} :
    Except IoFailure (Option (Piece room)) → Option Failure
  | .ok none => some (.incomplete field)
  | .error cause => some (.reading field cause)
  | .ok (some _) => none

/-! ## Fields -/

/-- How far a reader has come with a field of `size` bytes. -/
inductive Gathered (field : Field) (size : Nat) :
    Dialogue Streams → Task Streams (Octets size) → Prop where
  | waits {d : Dialogue Streams} {room : Nat} {next} (pieces : ∀ x ∈ d, IsPiece x)
      (lacks : (heard d).length < size) (hroom : 0 < room) :
      Gathered field size d (.ask (I := Streams) (.read room) next)
  | complete {d : Dialogue Streams} (octets : Octets size) (pieces : ∀ x ∈ d, IsPiece x)
      (all : octets.val = heard d) : Gathered field size d (.done octets)
  | broke {d : Dialogue Streams} {room : Nat} {stop : Except IoFailure (Option (Piece room))}
      {e : Failure} (pieces : ∀ x ∈ d, IsPiece x) (lacks : (heard d).length < size)
      (breaks : failureOf field stop = some e) :
      Gathered field size (d ++ [⟨.read room, stop⟩]) (.fail e)

theorem leads_readWithin {field : Field} {bound size : Nat} {h : size ≤ bound}
    {d : Dialogue Streams} {u : Task Streams (Octets size)}
    (hl : Leads (readWithin field bound size h) d u) : Gathered field size d u := by
  induction bound generalizing size d with
  | zero =>
    obtain rfl : size = 0 := by omega
    rw [readWithin] at hl
    obtain ⟨rfl, rfl⟩ := leads_done_iff.1 hl
    exact .complete .nil (by simp) rfl
  | succ bound ih =>
    cases size with
    | zero =>
      rw [readWithin] at hl
      obtain ⟨rfl, rfl⟩ := leads_done_iff.1 hl
      exact .complete .nil (by simp) rfl
    | succ size =>
      rw [readWithin] at hl
      rcases leads_ask_iff.1 hl with ⟨rfl, rfl⟩ | ⟨a, d', rfl, hl'⟩
      · exact .waits (by simp) (by simp) (by omega)
      · match a with
        | .ok none =>
          obtain ⟨rfl, rfl⟩ := leads_fail_iff.1 hl'
          exact .broke (d := []) (by simp) (by simp) rfl
        | .error cause =>
          obtain ⟨rfl, rfl⟩ := leads_fail_iff.1 hl'
          exact .broke (d := []) (by simp) (by simp) rfl
        | .ok (some piece) =>
          have hfits := piece.fits
          have hpos := piece.nonempty
          rcases leads_bind_iff.1 hl' with ⟨u', hu, rfl⟩ | ⟨rest, d₁, d₂, rfl, h₁, h₂⟩
          · cases ih hu with
            | waits pieces lacks hroom =>
              refine .waits (by simpa [IsPiece] using pieces) ?_ hroom
              simp [heard, heardIn] at lacks ⊢
              omega
            | complete octets pieces all =>
              refine .complete _ (by simpa [IsPiece] using pieces) ?_
              simp [Octets.append, all, heard, heardIn]
            | @broke d' _ _ _ pieces lacks breaks =>
              rw [← List.cons_append]
              refine .broke (by simpa [IsPiece] using pieces) ?_ breaks
              simp [heard, heardIn] at lacks ⊢
              omega
          · obtain ⟨rfl, rfl⟩ := leads_done_iff.1 h₂
            cases ih h₁ with
            | complete octets pieces all =>
              refine .complete _ (by simpa [IsPiece] using pieces) ?_
              simp [Octets.append, all, heard, heardIn]

/-- Bytes that fill a field can come in one piece. -/
theorem exists_leads_readField (q : FieldAsk) (octets : Octets q.size) :
    ∃ d, (∀ x ∈ d, IsPiece x) ∧ heard d = octets.val ∧ Leads (readField q) d (.done octets) := by
  obtain ⟨field, size⟩ := q
  obtain ⟨bytes, hlen⟩ := octets
  cases size with
  | zero =>
    obtain rfl := List.length_eq_zero_iff.1 hlen
    exact ⟨[], by simp, rfl, .refl _⟩
  | succ size =>
    have hlen : bytes.length = size + 1 := hlen
    let piece : Piece (size + 1) := ⟨bytes, by omega, by omega⟩
    refine ⟨[⟨.read (size + 1), .ok (some piece)⟩], by simp [IsPiece], ?_, .step ?_⟩
    · exact List.append_nil bytes
    · have hrest : ∀ (n : Nat) (h : n ≤ size), n = 0 →
          ∃ hn, readWithin field size n h = .done ⟨[], hn⟩ := by
        rintro _ _ rfl
        exact ⟨rfl, by cases size <;> rfl⟩
      obtain ⟨hn, hdone⟩ := hrest (size + 1 - bytes.length) (by omega) (by omega)
      simp only [piece, hdone, Task.done_bind]
      rw [leads_done_iff]
      exact ⟨rfl, congrArg Task.done (Subtype.ext (by simp [Octets.append]))⟩

/-! ## Messages -/

/-- How far a reader has come on a stream: it waits for more of a field, it has settled the
message with the last byte that came, or the stream has broken off. -/
inductive Received {α : Type} (dec : Decoder α) : Dialogue Streams → Task Streams α → Prop where
  | waits {d : Dialogue Streams} {field : Field} {room : Nat} {next}
      (pieces : ∀ x ∈ d, IsPiece x) (lacks : dec.parse (heard d) = .lacking field)
      (hroom : 0 < room) : Received dec d (.ask (I := Streams) (.read room) next)
  | settled {d : Dialogue Streams} {result : Except Failure α} (pieces : ∀ x ∈ d, IsPiece x)
      (reads : dec.parse (heard d) = .finished result []) : Received dec d (.ofExcept result)
  | broke {d : Dialogue Streams} {field : Field} {room : Nat}
      {stop : Except IoFailure (Option (Piece room))} {e : Failure}
      (pieces : ∀ x ∈ d, IsPiece x) (lacks : dec.parse (heard d) = .lacking field)
      (breaks : failureOf field stop = some e) :
      Received dec (d ++ [⟨.read room, stop⟩]) (.fail e)

theorem Received.after {α : Type} {q : FieldAsk} {next : Octets q.size → Decoder α}
    {octets : Octets q.size} {d₁ d₂ : Dialogue Streams} {u : Task Streams α}
    (pieces : ∀ x ∈ d₁, IsPiece x) (all : octets.val = heard d₁)
    (h : Received (next octets) d₂ u) :
    Received (.ask (I := Fields) q next) (d₁ ++ d₂) u := by
  have hparse : ∀ d, Decoder.parse (.ask (I := Fields) q next) (heard (d₁ ++ d)) =
      Decoder.parse (next octets) (heard d) := by
    intro d
    rw [heard_append, ← all]
    exact Decoder.parse_ask_append next octets (heard d)
  have hpieces : ∀ d, (∀ x ∈ d, IsPiece x) → ∀ x ∈ d₁ ++ d, IsPiece x := by
    intro d hd x hx
    rcases List.mem_append.1 hx with hx | hx
    · exact pieces x hx
    · exact hd x hx
  cases h with
  | waits pieces' lacks hroom => exact .waits (hpieces _ pieces') (by rw [hparse, lacks]) hroom
  | settled pieces' reads => exact .settled (hpieces _ pieces') (by rw [hparse, reads])
  | broke pieces' lacks breaks =>
    rw [← List.append_assoc]
    exact .broke (hpieces _ pieces') (by rw [hparse, lacks]) breaks

/-- A reader on a stream stands where it would stand over the bytes that have come. -/
theorem leads_run {α : Type} {dec : Decoder α} {d : Dialogue Streams} {u : Task Streams α}
    (hl : Leads (run dec) d u) : Received dec d u := by
  induction dec generalizing d with
  | done a =>
    obtain ⟨rfl, rfl⟩ := leads_done_iff.1 hl
    exact @Received.settled _ _ [] (.ok a) (by simp) rfl
  | fail e =>
    obtain ⟨rfl, rfl⟩ := leads_fail_iff.1 hl
    exact @Received.settled _ _ [] (.error e) (by simp) rfl
  | ask q next ih =>
    rcases leads_bind_iff.1 hl with ⟨u', hu, rfl⟩ | ⟨octets, d₁, d₂, rfl, h₁, h₂⟩
    · cases leads_readWithin hu with
      | waits pieces lacks hroom =>
        exact .waits pieces (Decoder.parse_ask_of_lt next lacks) hroom
      | complete octets pieces all =>
        rw [← List.append_nil d]
        exact .after pieces all (ih octets (.refl _))
      | broke pieces lacks breaks =>
        exact .broke pieces (Decoder.parse_ask_of_lt next lacks) breaks
    · cases leads_readWithin h₁ with
      | complete octets pieces all => exact .after pieces all (ih octets h₂)

theorem isRead_of_isPiece {x : Exchange Streams} (h : IsPiece x) : IsRead x.question := by
  match x with
  | ⟨.read _, _⟩ => trivial

/-- Reading a message asks for nothing but bytes. -/
theorem Received.isRead {α : Type} {dec : Decoder α} {d : Dialogue Streams} {u : Task Streams α}
    (h : Received dec d u) : ∀ x ∈ d, IsRead x.question := by
  cases h with
  | waits pieces _ _ => exact fun x hx => isRead_of_isPiece (pieces x hx)
  | settled pieces _ => exact fun x hx => isRead_of_isPiece (pieces x hx)
  | broke pieces _ _ =>
    exact List.forall_mem_append.2
      ⟨fun x hx => isRead_of_isPiece (pieces x hx), List.forall_mem_singleton.2 trivial⟩

/-- A message that can be read from bytes is read from a stream that brings them. -/
theorem exists_leads_run {α : Type} {dec : Decoder α} {bytes : Bytes} {result : Except Failure α}
    (h : dec.parse bytes = .finished result []) :
    ∃ d, (∀ x ∈ d, IsPiece x) ∧ heard d = bytes ∧ Leads (run dec) d (.ofExcept result) := by
  induction dec generalizing bytes with
  | done a =>
    cases h
    exact ⟨[], by simp, rfl, .refl _⟩
  | fail e =>
    cases h
    exact ⟨[], by simp, rfl, .refl _⟩
  | ask q next ih =>
    by_cases hq : q.size ≤ bytes.length
    · rw [Decoder.parse_ask_of_le next hq] at h
      obtain ⟨d₁, pieces₁, heard₁, h₁⟩ := exists_leads_readField q (.ofTake q.size bytes hq)
      obtain ⟨d₂, pieces₂, heard₂, h₂⟩ := ih _ h
      refine ⟨d₁ ++ d₂, ?_, ?_, leads_bind_iff.2 (.inr ⟨_, d₁, d₂, rfl, h₁, h₂⟩)⟩
      · intro x hx
        rcases List.mem_append.1 hx with hx | hx
        · exact pieces₁ x hx
        · exact pieces₂ x hx
      · rw [heard_append, heard₁, heard₂]
        exact List.take_append_drop _ _
    · rw [Decoder.parse_ask_of_lt next (by omega)] at h
      cases h

end Stream

end Socks5

import Socks5.Wire.Message

/-!
# Byte streams

What a task may ask of a stream: to read, to write, to flush. A read hands over what is there, a
write takes as much as there is room for, and either may have to wait. On top of these stand the
two operations that the protocol is made of, `Stream.receive` and `Stream.deliver`: a message is
read field by field, in whatever pieces its bytes arrive, and written as a whole, in as many
writes as that takes.
-/

namespace Socks5

namespace Stream

/-! ## Questions -/

/-- What a read hands over: some bytes, and no more than there was room for. -/
structure Piece (room : Nat) where
  bytes : Bytes
  nonempty : 0 < bytes.length
  fits : bytes.length ≤ room
deriving DecidableEq

/-- What may be asked of a stream. -/
inductive Ask where
  | read (room : Nat)
  | write (bytes : Bytes)
  | flush
deriving DecidableEq

/-- A read finds a piece or the end, and a write tells how many bytes were taken. -/
abbrev Answer : Ask → Type
  | .read room => Except IoFailure (Option (Piece room))
  | .write bytes => Except IoFailure (Fin (bytes.length + 1))
  | .flush => Except IoFailure Unit

end Stream

/-- The questions of a stream. -/
def Streams : Interface := ⟨Stream.Ask, Stream.Answer⟩

namespace Stream

/-! ## Reading -/

/-- Reads a field of `size` bytes piece by piece. Every piece brings it forward, so that it takes
at most `bound` of them. -/
def readWithin (field : Field) :
    (bound size : Nat) → size ≤ bound → Task Streams (Octets size)
  | 0, 0, _ => .done .nil
  | _ + 1, 0, _ => .done .nil
  | bound + 1, size + 1, h =>
    .ask (I := Streams) (.read (size + 1)) fun
      | .ok (some piece) =>
        (readWithin field bound (size + 1 - piece.bytes.length)
          (by have := piece.nonempty; omega)).bind fun rest =>
        .done (.append (by have := piece.fits; omega) ⟨piece.bytes, rfl⟩ rest)
      | .ok none => .fail (.incomplete field)
      | .error cause => .fail (.reading field cause)

/-- Reads a field. An empty one is there already. -/
def readField (q : FieldAsk) : Task Streams (Octets q.size) :=
  readWithin q.field q.size q.size (Nat.le_refl q.size)

/-- Reads what a reader asks for from a stream. -/
def run {α : Type} (d : Decoder α) : Task Streams α := d.via readField

/-- Reads a message. -/
def receive (α : Type) [Message α] : Task Streams α := run Message.decoder

/-! ## Writing -/

/-- Writes bytes in at most `bound` steps. A stream that takes none of them is full for good. -/
def writeWithin : (bound : Nat) → (bytes : Bytes) → bytes.length ≤ bound → Task Streams Unit
  | _, [], _ => .done ()
  | bound + 1, b :: rest, h =>
    .ask (I := Streams) (.write (b :: rest)) fun
      | .ok ⟨0, _⟩ => .fail (.io .writeZero)
      | .ok ⟨taken + 1, _⟩ =>
        writeWithin bound (rest.drop taken) (by simp at h ⊢; omega)
      | .error cause => .fail (.io cause)

/-- Writes bytes, all of them. -/
def writeAll (bytes : Bytes) : Task Streams Unit :=
  writeWithin bytes.length bytes (Nat.le_refl _)

/-- Flushes a stream. -/
def flush : Task Streams Unit :=
  .ask (I := Streams) .flush fun
    | .ok () => .done ()
    | .error cause => .fail (.io cause)

/-- Writes what is the written form of something and flushes the stream. Where there is no written
form, the stream is left alone. -/
def send (encoded : Except Failure Bytes) : Task Streams Unit := do
  let bytes ← .ofExcept encoded
  writeAll bytes
  flush

/-- Writes a message and flushes the stream. -/
def deliver {α : Type} [Message α] (message : α) : Task Streams Unit :=
  send (Message.encode message)

end Stream

end Socks5

import Socks5.Task

/-!
# Readers of messages

A reader asks for one field after another, each of a length that the fields before it have
settled, and ends with a value or with a failure. It does not say where its bytes come from:
`Decoder.parse` runs it over the bytes at hand, and a stream hands it the bytes as they arrive.
-/

namespace Socks5

/-- What a reader asks for: a field of so many bytes. -/
structure FieldAsk where
  field : Field
  size : Nat

/-- Readers ask for fields and get bytes of just that length. -/
def Fields : Interface := ⟨FieldAsk, fun q => Octets q.size⟩

/-- A reader of a message of type `α`. -/
abbrev Decoder := Task Fields

namespace Decoder

variable {α : Type}

/-- A field of `n` bytes. -/
def octets (field : Field) (n : Nat) : Decoder (Octets n) :=
  .ask (I := Fields) ⟨field, n⟩ .done

/-- A field of one byte. -/
def byte (field : Field) : Decoder UInt8 :=
  .ask (I := Fields) ⟨field, 1⟩ fun bytes => .done (Octets.byte bytes)

/-- A field of two bytes, the high one first. -/
def word (field : Field) : Decoder UInt16 :=
  .ask (I := Fields) ⟨field, 2⟩ fun bytes => .done (Octets.word bytes)

/-- What a reader comes to over the bytes at hand: it finishes and leaves some of them, or it
lacks bytes of a field. -/
inductive Reading (α : Type) where
  | finished (result : Except Failure α) (rest : Bytes)
  | lacking (field : Field)

/-- Runs a reader over the bytes at hand. -/
def parse : Decoder α → Bytes → Reading α
  | .done a, bytes => .finished (.ok a) bytes
  | .fail e, bytes => .finished (.error e) bytes
  | .ask q next, bytes =>
    if h : q.size ≤ bytes.length then parse (next (.ofTake q.size bytes h)) (bytes.drop q.size)
    else .lacking q.field

end Decoder

end Socks5

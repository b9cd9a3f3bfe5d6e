import Socks5.Bytes

/-!
# UTF-8

Reading bytes as text, and saying where bytes stop being text. A sequence is refused at the first
byte that cannot continue it, so overlong forms, surrogates and values past the last character are
refused at their second byte. Main statement: text is read back from its own bytes and from no
others (`decode_eq_ok_iff`).
-/

namespace Socks5.Text.Utf8

/-- Why bytes are not text: `start` is the length of the longest valid part in front, and `width`
the number of bytes of the bad sequence before the byte that cannot continue it. There is no width
if the bytes end inside a sequence that was valid so far. -/
structure Fault where
  start : Nat
  width : Option Nat
deriving Repr, DecidableEq

namespace Fault

/-- The wording of a fault. -/
def message (f : Fault) : String :=
  match f.width with
  | some n => s!"invalid utf-8 sequence of {n} bytes from index {f.start}"
  | none => s!"incomplete utf-8 byte sequence from index {f.start}"

end Fault

/-- Bounds on one byte, both included. -/
structure Bounds where
  low : UInt8
  high : UInt8

namespace Bounds

/-- Whether a byte keeps within the bounds. -/
def admits (r : Bounds) (b : UInt8) : Bool := r.low ≤ b && b ≤ r.high

/-- The bounds of a continuation byte. -/
def continuation : Bounds := ⟨0x80, 0xBF⟩

end Bounds

/-- The bounds of the bytes that have to follow a first byte, if it can be one. -/
def following? (b : UInt8) : Option (List Bounds) :=
  let more := Bounds.continuation
  if b < 0x80 then some []
  else if b < 0xC2 then none
  else if b < 0xE0 then some [more]
  else if b = 0xE0 then some [⟨0xA0, 0xBF⟩, more]
  else if b = 0xED then some [⟨0x80, 0x9F⟩, more]
  else if b < 0xF0 then some [more, more]
  else if b = 0xF0 then some [⟨0x90, 0xBF⟩, more, more]
  else if b < 0xF4 then some [more, more, more]
  else if b = 0xF4 then some [⟨0x80, 0x8F⟩, more, more]
  else none

/-- The first fault in bytes that stand after `start` bytes of text and `seen` bytes of a
sequence, of which the bytes in `due` are still missing. -/
def faultFrom? (start seen : Nat) (due : List Bounds) : Bytes → Option Fault
  | [] => if due.isEmpty then none else some ⟨start, none⟩
  | b :: rest =>
    match due with
    | bounds :: due =>
      if !bounds.admits b then some ⟨start, some seen⟩
      else if due.isEmpty then faultFrom? (start + seen + 1) 0 [] rest
      else faultFrom? start (seen + 1) due rest
    | [] =>
      match following? b with
      | none => some ⟨start, some 1⟩
      | some [] => faultFrom? (start + 1) 0 [] rest
      | some due => faultFrom? start 1 due rest

/-- The first fault in a byte string. -/
def fault? (bytes : Bytes) : Option Fault := faultFrom? 0 0 [] bytes

/-- The bytes of a text. -/
def encode (s : String) : Bytes := s.toByteArray.data.toList

/-- Reads bytes as text. -/
def decode (bytes : Bytes) : Except Fault String :=
  match String.fromUTF8? ⟨bytes.toArray⟩ with
  | some s => .ok s
  | none => .error ((fault? bytes).getD ⟨0, none⟩)

/-- The number of bytes of a text. -/
def size (s : String) : Nat := s.utf8ByteSize

theorem length_encode (s : String) : (encode s).length = size s := rfl

theorem decode_encode (s : String) : decode (encode s) = .ok s := by
  have h : String.fromUTF8? ⟨(encode s).toArray⟩ = some s := by
    simp [encode, String.fromUTF8?, String.fromUTF8, s.isValidUTF8]
  simp [decode, h]

theorem eq_encode_of_decode {bytes : Bytes} {s : String} (h : decode bytes = .ok s) :
    bytes = encode s := by
  unfold decode at h
  split at h
  next t ht =>
    cases h
    simp only [String.fromUTF8?, Option.dite_none_right_eq_some, Option.some.injEq] at ht
    obtain ⟨_, rfl⟩ := ht
    rfl
  next => cases h

/-- Bytes are read as a text exactly if they are the text's bytes. -/
theorem decode_eq_ok_iff {bytes : Bytes} {s : String} : decode bytes = .ok s ↔ bytes = encode s :=
  ⟨eq_encode_of_decode, fun h => h ▸ decode_encode s⟩

end Socks5.Text.Utf8

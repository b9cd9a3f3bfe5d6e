/-!
# Bytes and fixed-width fields

Everything on the wire is a list of bytes. A field whose length the format fixes is an `Octets n`,
so that a reader of the format never meets a field of another length. Main statement: a word is
its two bytes, the high one first (`Octets.word_ofWord`, `Octets.ofWord_word`).
-/

namespace Socks5

/-- A byte string. -/
abbrev Bytes := List UInt8

/-- A byte string of exactly `n` bytes. -/
abbrev Octets (n : Nat) := { bytes : Bytes // bytes.length = n }

namespace Octets

/-- The empty field. -/
def nil : Octets 0 := ⟨[], rfl⟩

/-- The only byte of a field of one byte. -/
def byte : Octets 1 → UInt8
  | ⟨[b], _⟩ => b

/-- A field of one byte. -/
def ofByte (b : UInt8) : Octets 1 := ⟨[b], rfl⟩

@[simp] theorem byte_ofByte (b : UInt8) : (ofByte b).byte = b := rfl

/-- A field whose first bytes are `front` and whose other bytes are `back`. -/
def append {k m n : Nat} (h : k + m = n) (front : Octets k) (back : Octets m) : Octets n :=
  ⟨front.val ++ back.val, by rw [List.length_append, front.property, back.property, h]⟩

/-- The first `n` bytes of a byte string that has as many. -/
def ofTake (n : Nat) (bytes : Bytes) (h : n ≤ bytes.length) : Octets n :=
  ⟨bytes.take n, by rw [List.length_take, Nat.min_eq_left h]⟩

/-! ## Words -/

/-- The two bytes of a word, the high one first. -/
def ofWord (w : UInt16) : Octets 2 := ⟨[UInt8.ofNat (w.toNat / 256), UInt8.ofNat w.toNat], rfl⟩

/-- The word that two bytes stand for, the high one first. -/
def word : Octets 2 → UInt16
  | ⟨[hi, lo], _⟩ => UInt16.ofNat (hi.toNat * 256 + lo.toNat)

@[simp] theorem word_ofWord (w : UInt16) : (ofWord w).word = w := by
  have hw := w.toNat_lt
  apply UInt16.toNat_inj.mp
  simp only [ofWord, word, UInt16.toNat_ofNat', UInt8.toNat_ofNat']
  omega

@[simp] theorem ofWord_word (bytes : Octets 2) : ofWord bytes.word = bytes := by
  match bytes with
  | ⟨[hi, lo], _⟩ =>
    have hh := hi.toNat_lt
    have hl := lo.toNat_lt
    simp only [ofWord, word, UInt16.toNat_ofNat', Subtype.mk.injEq, List.cons.injEq, and_true]
    constructor <;> apply UInt8.toNat_inj.mp <;> simp only [UInt8.toNat_ofNat'] <;> omega

end Octets

/-- A port number. -/
abbrev Port := UInt16

end Socks5


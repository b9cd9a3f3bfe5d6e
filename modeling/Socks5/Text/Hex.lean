import Socks5.Bytes

/-!
# Hexadecimal text

Bytes as two lower-case digits each, and numbers without leading zeros.
-/

namespace Socks5.Text.Hex

/-- The lower-case digit of a number below sixteen. -/
def digit (n : Nat) : Char := if n < 10 then Char.ofNat (48 + n) else Char.ofNat (87 + n)

/-- The two digits of a byte. -/
def byteDigits (b : UInt8) : List Char := [digit (b.toNat / 16), digit (b.toNat % 16)]

/-- A byte as `ff`. -/
def ofByte (b : UInt8) : String := String.ofList (byteDigits b)

/-- A byte as `0xff`. -/
def prefixed (b : UInt8) : String := "0x" ++ ofByte b

/-- Bytes one after the other, as `00ff`. -/
def ofBytes (bytes : Bytes) : String := String.ofList (bytes.flatMap byteDigits)

/-- Bytes as a bracketed list, as `[00, ff]`. -/
def listing (bytes : Bytes) : String := "[" ++ ", ".intercalate (bytes.map ofByte) ++ "]"

/-- A number in as few digits as it needs. -/
def ofNat (n : Nat) : String := String.ofList (Nat.toDigits 16 n)

/-- The value of a lower-case digit. -/
def digitValue? (c : Char) : Option Nat :=
  if '0' ≤ c ∧ c ≤ '9' then some (c.toNat - 48)
  else if 'a' ≤ c ∧ c ≤ 'f' then some (c.toNat - 87)
  else none

/-- The bytes that a text of digit pairs stands for. -/
def toBytes? : List Char → Option Bytes
  | [] => some []
  | [_] => none
  | hi :: lo :: rest => do
    let h ← digitValue? hi
    let l ← digitValue? lo
    let bytes ← toBytes? rest
    return UInt8.ofNat (16 * h + l) :: bytes

end Socks5.Text.Hex

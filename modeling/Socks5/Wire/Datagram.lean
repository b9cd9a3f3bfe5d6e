import Socks5.Wire.Packet

/-!
# Datagrams of a relay

A datagram between a client and its relay begins with a header: two reserved bytes, a fragment
number and a target. Fragments are not put together, so only the number 0 is read.
-/

namespace Socks5

/-- The header of a datagram. -/
structure DatagramHeader where
  fragment : UInt8
  target : Target
deriving DecidableEq

namespace DatagramHeader

/-- The header of a datagram that is not a fragment. -/
def whole (target : Target) : DatagramHeader := ⟨0, target⟩

/-- The bytes of a header. -/
def encode (h : DatagramHeader) : Except Failure Bytes := do
  let target ← h.target.encode
  return [reserved, reserved, h.fragment] ++ target

/-- Reads the header of a datagram, and its payload behind it. -/
def decode : Bytes → Except Failure (DatagramHeader × Bytes)
  | datagram@(r₀ :: r₁ :: fragment :: _ :: _) => do
    if r₀ ≠ reserved ∨ r₁ ≠ reserved then throw (.malformed .udpReserved)
    if fragment ≠ 0 then throw (.fragmented fragment)
    let (target, size) ← Target.parse datagram 3
    return (⟨fragment, target⟩, datagram.drop (3 + size))
  | _ => .error (.incomplete .udpHeader)

end DatagramHeader

namespace Datagram

/-- A payload behind the header that names its target. -/
def encapsulate (target : Target) (payload : Bytes) : Except Failure Bytes := do
  let header ← (DatagramHeader.whole target).encode
  return header ++ payload

/-- The target and the payload of a datagram. -/
def decapsulate (datagram : Bytes) : Except Failure (Target × Bytes) := do
  let (header, payload) ← DatagramHeader.decode datagram
  return (header.target, payload)

end Datagram

end Socks5

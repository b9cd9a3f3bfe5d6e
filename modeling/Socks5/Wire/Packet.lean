import Socks5.Wire.Address

/-!
# Targets in packets

A packet is at hand as a whole, so a target is read from it by place: each field is cut out of the
packet, if the packet reaches that far, and only then looked at.
-/

namespace Socks5.Target

/-- The field of `size` bytes that stands at a place in a packet. -/
def fieldAt (packet : Bytes) (place size : Nat) (field : Field) : Except Failure (Octets size) :=
  if h : place + size ≤ packet.length then
    .ok (.ofTake size (packet.drop place) (by rw [List.length_drop]; omega))
  else .error (.incomplete field)

/-- The host of a known address type that stands at a place in a packet, and the place behind
it. -/
def parseHost (packet : Bytes) (place : Nat) : AddressType → Except Failure (Host × Nat)
  | .ipv4 => do
    let octets ← fieldAt packet place 4 .ipv4Address
    return (.ip (.v4 ⟨octets⟩), place + 4)
  | .domainName => do
    let size := (← fieldAt packet place 1 .domainLength).byte
    if size = 0 then throw (.malformed .emptyDomain)
    let bytes ← fieldAt packet (place + 1) size.toNat .domainName
    match Text.Utf8.decode bytes.val with
    | .ok name => return (.domain name, place + 1 + size.toNat)
    | .error fault => throw (.malformed (.packetDomainText fault))
  | .ipv6 => do
    let octets ← fieldAt packet place 16 .ipv6Address
    return (.ip (.v6 ⟨octets⟩), place + 16)

/-- The target that stands at a place in a packet, and the number of bytes that it takes there. -/
def parse (packet : Bytes) (start : Nat) : Except Failure (Target × Nat) := do
  let type := (← fieldAt packet start 1 .addressType).byte
  match AddressType.ofByte? type with
  | some type =>
    let (host, place) ← parseHost packet (start + 1) type
    let port := (← fieldAt packet place 2 .port).word
    return (⟨host, port⟩, place + 2 - start)
  | none => throw (.unsupportedAddressType type)

end Socks5.Target

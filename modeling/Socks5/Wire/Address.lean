import Socks5.Wire.Decoder

/-!
# Targets on the wire

A target is its address type, its address and its port. A name is written with its length in
front, which leaves room for 1 to 255 bytes.
-/

namespace Socks5.Target

/-! ## Writing -/

/-- The bytes of a host after its address type. -/
def encodeHost : Host → Except Failure Bytes
  | .ip (.v4 ip) => .ok ip.octets.val
  | .ip (.v6 ip) => .ok ip.octets.val
  | .domain name =>
    let bytes := Text.Utf8.encode name
    if bytes.length = 0 ∨ 255 < bytes.length then .error (.malformed (.domainSize bytes.length))
    else .ok (UInt8.ofNat bytes.length :: bytes)

/-- The bytes of a target. -/
def encode (t : Target) : Except Failure Bytes := do
  let host ← encodeHost t.host
  return t.host.addressType.toByte :: host ++ (Octets.ofWord t.port).val

/-- A target written behind the bytes in a buffer. A target that cannot be written leaves its
address type there. -/
def appendTo (t : Target) (buffer : Bytes) : Bytes × Except Failure Unit :=
  match t.encode with
  | .ok bytes => (buffer ++ bytes, .ok ())
  | .error e => (buffer ++ [t.host.addressType.toByte], .error e)

theorem length_of_encodeHost {t : Target} {bytes : Bytes} (e : encodeHost t.host = .ok bytes) :
    1 + bytes.length + 2 = t.wireSize := by
  unfold wireSize
  split
  next ip h =>
    rw [h] at e
    cases e
    rw [ip.octets.property]
  next ip h =>
    rw [h] at e
    cases e
    rw [ip.octets.property]
  next name h =>
    rw [h, encodeHost] at e
    split at e
    · cases e
    · cases e
      rw [List.length_cons, Text.Utf8.length_encode]
      omega

/-- A target that can be written takes as many bytes as its size says. -/
theorem length_of_encode {t : Target} {bytes : Bytes} (e : t.encode = .ok bytes) :
    bytes.length = t.wireSize := by
  rw [encode] at e
  cases h : encodeHost t.host with
  | error cause =>
    rw [h] at e
    cases e
  | ok host =>
    rw [h] at e
    cases e
    rw [← length_of_encodeHost h, List.length_append, List.length_cons,
      (Octets.ofWord t.port).property]
    omega

/-! ## Reading -/

/-- A name behind its length. -/
def domainDecoder : Decoder Host := do
  let size ← Decoder.byte .domainLength
  if size = 0 then .fail (.malformed .emptyDomain)
  else
    let bytes ← Decoder.octets .domainName size.toNat
    match Text.Utf8.decode bytes.val with
    | .ok name => return .domain name
    | .error fault => .fail (.malformed (.domainText fault))

/-- A host of a known address type. -/
def hostDecoder : AddressType → Decoder Host
  | .ipv4 => return .ip (.v4 ⟨← Decoder.octets .ipv4Address 4⟩)
  | .domainName => domainDecoder
  | .ipv6 => return .ip (.v6 ⟨← Decoder.octets .ipv6Address 16⟩)

/-- A host of a known address type, and a port. -/
def bodyDecoder (type : AddressType) : Decoder Target := do
  let host ← hostDecoder type
  let port ← Decoder.word .port
  return ⟨host, port⟩

/-- A target. -/
def decoder : Decoder Target := do
  let type ← Decoder.byte .addressType
  match AddressType.ofByte? type with
  | some type => bodyDecoder type
  | none => .fail (.unsupportedAddressType type)

end Socks5.Target

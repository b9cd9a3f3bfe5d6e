import Socks5.Proofs.Wire.Forms
import Socks5.Wire.Packet

/-!
# Reading by place

A target in a packet is read by place, one on a stream from the front of what has come. Both are
the same reading: what stands at a place is what a reader comes to over the bytes from there on
(`Target.parse_eq`). So a target is found in a packet exactly where its written form stands
(`Target.parse_eq_ok_iff`).
-/

namespace Socks5

/-- How a failure to read is told of a packet: only the wording for a name that is no text is the
packet's own. -/
def Failure.inPacket : Failure → Failure
  | .malformed (.domainText fault) => .malformed (.packetDomainText fault)
  | e => e

variable {α β : Type} {packet : Bytes} {place : Nat}

/-! ## Readers at a place -/

namespace Decoder

/-- What a reader comes to over the bytes of a packet from a place on, and the place behind what
it has taken. -/
def parseAt (d : Decoder α) (packet : Bytes) (place : Nat) : Except Failure (α × Nat) :=
  match d.parse (packet.drop place) with
  | .finished (.ok a) rest => .ok (a, place + ((packet.drop place).length - rest.length))
  | .finished (.error e) _ => .error e.inPacket
  | .lacking field => .error (.incomplete field)

@[simp] theorem parseAt_done (a : α) : parseAt (.done a) packet place = .ok (a, place) := by
  simp [parseAt]

/-- What is left of the bytes at hand is never longer than they are. -/
theorem length_le_of_parse {d : Decoder α} {bytes rest : Bytes} {result : Except Failure α}
    (h : parse d bytes = .finished result rest) : rest.length ≤ bytes.length := by
  obtain ⟨front, rfl, _⟩ := exists_eq_append_of_parse h
  rw [List.length_append]
  omega

/-- A reader asks a packet for the field that stands at its place. A field of no bytes would be
found past the end as well. -/
theorem parseAt_ask {q : FieldAsk} {next : Octets q.size → Decoder α} (hq : 0 < q.size) :
    parseAt (.ask (I := Fields) q next) packet place = (do
      let octets ← Target.fieldAt packet place q.size q.field
      parseAt (next octets) packet (place + q.size)) := by
  by_cases hfits : place + q.size ≤ packet.length
  · have hlen : q.size ≤ (packet.drop place).length := by
      rw [List.length_drop]
      omega
    have hparse := parse_ask_of_le next hlen
    rw [List.drop_drop] at hparse
    rw [Target.fieldAt, dif_pos hfits]
    simp only [bind, Except.bind, parseAt, hparse]
    cases hrest : parse (next (.ofTake q.size (packet.drop place) hlen))
        (packet.drop (place + q.size)) with
    | lacking field => rfl
    | finished result rest =>
      cases result with
      | error e => rfl
      | ok a =>
        have hle := length_le_of_parse hrest
        rw [List.length_drop] at hle
        simp only [List.length_drop, Except.ok.injEq, Prod.mk.injEq, true_and]
        omega
  · have hparse : parse (.ask (I := Fields) q next) (packet.drop place) = .lacking q.field := by
      refine parse_ask_of_lt next ?_
      rw [List.length_drop]
      omega
    rw [Target.fieldAt, dif_neg hfits, parseAt, hparse]
    rfl

theorem parseAt_octets_bind {field : Field} {n : Nat} {f : Octets n → Decoder α} (hn : 0 < n) :
    parseAt ((octets field n).bind f) packet place = (do
      let octets ← Target.fieldAt packet place n field
      parseAt (f octets) packet (place + n)) :=
  parseAt_ask (q := ⟨field, n⟩) hn

theorem parseAt_byte_bind {field : Field} {f : UInt8 → Decoder α} :
    parseAt ((byte field).bind f) packet place = (do
      let octets ← Target.fieldAt packet place 1 field
      parseAt (f octets.byte) packet (place + 1)) :=
  parseAt_ask (q := ⟨field, 1⟩) Nat.one_pos

theorem parseAt_word_bind {field : Field} {f : UInt16 → Decoder α} :
    parseAt ((word field).bind f) packet place = (do
      let octets ← Target.fieldAt packet place 2 field
      parseAt (f octets.word) packet (place + 2)) :=
  parseAt_ask (q := ⟨field, 2⟩) Nat.two_pos

end Decoder

open Decoder

/-! ## Targets -/

namespace Target

/-- Behind a name a reader goes on at the place behind it. -/
theorem parseAt_domainDecoder_bind {f : Host → Decoder α} :
    parseAt (domainDecoder.bind f) packet place = (do
      let (host, next) ← parseHost packet place .domainName
      parseAt (f host) packet next) := by
  rw [domainDecoder, Task.bind_eq, Task.bind_assoc, parseAt_byte_bind, parseHost]
  cases hsize : fieldAt packet place 1 .domainLength with
  | error e => rfl
  | ok size =>
    simp only [bind, Except.bind]
    by_cases hzero : size.byte = 0
    · simp only [if_pos hzero]
      rfl
    · have hpos : 0 < size.byte.toNat := by
        have hne : size.byte.toNat ≠ 0 := fun h => hzero (UInt8.toNat_inj.1 h)
        omega
      simp only [if_neg hzero, Task.bind_assoc, parseAt_octets_bind hpos]
      cases fieldAt packet (place + 1) size.byte.toNat .domainName with
      | error e => rfl
      | ok bytes =>
        simp only [bind, Except.bind]
        cases Text.Utf8.decode bytes.val with
        | error fault => rfl
        | ok name => rfl

/-- Behind a host a reader goes on at the place behind it. -/
theorem parseAt_hostDecoder_bind {type : AddressType} {f : Host → Decoder α} :
    parseAt ((hostDecoder type).bind f) packet place = (do
      let (host, next) ← parseHost packet place type
      parseAt (f host) packet next) := by
  cases type with
  | ipv4 =>
    rw [hostDecoder, parseHost, Task.bind_eq, Task.bind_assoc, parseAt_octets_bind (by omega)]
    cases fieldAt packet place 4 .ipv4Address <;> rfl
  | ipv6 =>
    rw [hostDecoder, parseHost, Task.bind_eq, Task.bind_assoc, parseAt_octets_bind (by omega)]
    cases fieldAt packet place 16 .ipv6Address <;> rfl
  | domainName => exact parseAt_domainDecoder_bind

/-- A target is read from a packet as it is read from the bytes from its place on. -/
theorem parse_eq (packet : Bytes) (place : Nat) :
    parse packet place = (do
      let (target, next) ← decoder.parseAt packet place
      return (target, next - place)) := by
  rw [parse, decoder, Task.bind_eq, parseAt_byte_bind]
  cases fieldAt packet place 1 .addressType with
  | error e => rfl
  | ok type =>
    simp only [bind, Except.bind]
    cases AddressType.ofByte? type.byte with
    | none => rfl
    | some type =>
      simp only [bodyDecoder, parseAt_hostDecoder_bind, bind, Except.bind]
      cases parseHost packet (place + 1) type with
      | error e => rfl
      | ok found =>
        simp only [parseAt_word_bind]
        cases fieldAt packet found.2 2 .port with
        | error e => rfl
        | ok port =>
          simp only [bind, Except.bind, Task.pure_eq, parseAt_done]

variable {t : Target} {size : Nat}

/-- A target is found exactly where its written form stands. -/
theorem parse_eq_ok_iff :
    parse packet place = .ok (t, size) ↔
      ∃ w rest, t.encode = .ok w ∧ packet.drop place = w ++ rest ∧ size = w.length := by
  rw [parse_eq, parseAt]
  constructor
  · intro h
    cases hparse : decoder.parse (packet.drop place) with
    | lacking field =>
      rw [hparse] at h
      cases h
    | finished result rest =>
      rw [hparse] at h
      cases result with
      | error e => cases h
      | ok target =>
        cases h
        obtain ⟨w, hencode, hbytes⟩ := parse_ok_iff.1 hparse
        refine ⟨w, rest, hencode, hbytes, ?_⟩
        rw [hbytes, List.length_append]
        omega
  · rintro ⟨w, rest, hencode, hbytes, rfl⟩
    have hparse : decoder.parse (packet.drop place) = .finished (.ok t) rest :=
      parse_ok_iff.2 ⟨w, hencode, hbytes⟩
    have hsize : place + ((packet.drop place).length - rest.length) - place = w.length := by
      rw [hbytes, List.length_append]
      omega
    rw [hparse]
    exact congrArg (fun size => Except.ok (t, size)) hsize

end Target

end Socks5

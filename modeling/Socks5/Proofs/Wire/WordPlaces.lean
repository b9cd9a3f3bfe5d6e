import Mathlib.Data.List.Basic
import Socks5.Proofs.Stream.Pieces
import Socks5.Proofs.Wire.Places

/-!
# Places that are machine words

`Target.parse` counts places by natural numbers. A program counts them by machine words: a sum of
two words may be no word, and a place may lie outside of the packet. `Target.parseWords` is the
reading with each of these steps in the open, where a run that adds, subtracts or looks up what
is not there is stuck. Main statements: over a packet whose length is a word it is never stuck and
comes to what `Target.parse` comes to (`Target.parses_parseWords`), which is what a reader comes to
on a stream of the bytes from that place on (`Target.parseWords_agrees`).
-/

namespace Socks5

/-- A run over machine words. It comes to a value or to a failure, unless it is stuck. -/
abbrev WordRun := ExceptT Failure Option

variable {α β : Type} {packet : Bytes}

/-! ## The steps of a run -/

namespace WordRun

/-- A run that cannot go on. -/
def stuck : WordRun α := ExceptT.mk none

/-- The sum of two words. -/
def add (a b : UInt64) : WordRun UInt64 :=
  if a.toNat + b.toNat < UInt64.size then pure (a + b) else stuck

/-- The difference of two words. -/
def sub (a b : UInt64) : WordRun UInt64 :=
  if b.toNat ≤ a.toNat then pure (a - b) else stuck

/-- The byte at a place. -/
def byteAt (bytes : Bytes) (place : Nat) : WordRun UInt8 :=
  match bytes[place]? with
  | some b => pure b
  | none => stuck

/-- The bytes from one place to another. -/
def cut (bytes : Bytes) (start stop : UInt64) : WordRun Bytes :=
  if start.toNat ≤ stop.toNat ∧ stop.toNat ≤ bytes.length then
    pure ((bytes.drop start.toNat).take (stop.toNat - start.toNat))
  else stuck

/-- The bytes of a field and the place behind it. Whether the sum is a word, and whether the packet
reaches that far, is looked at first. -/
def take (packet : Bytes) (place size : UInt64) (field : Field) : WordRun (Bytes × UInt64) :=
  if place.toNat + size.toNat < UInt64.size ∧ (place + size).toNat ≤ packet.length then do
    return (← cut packet place (place + size), place + size)
  else throw (.incomplete field)

/-- Bytes that have to be of some number. -/
def octets (bytes : Bytes) (n : Nat) (field : Field) : WordRun (Octets n) :=
  if h : bytes.length = n then pure ⟨bytes, h⟩ else throw (.incomplete field)

theorem add_eq {a b : UInt64} (h : a.toNat + b.toNat < UInt64.size) :
    ∃ c : UInt64, add a b = pure c ∧ c.toNat = a.toNat + b.toNat := by
  refine ⟨a + b, if_pos h, ?_⟩
  rw [UInt64.toNat_add]
  exact Nat.mod_eq_of_lt h

theorem sub_eq {a b : UInt64} (h : b.toNat ≤ a.toNat) :
    ∃ c : UInt64, sub a b = pure c ∧ c.toNat = a.toNat - b.toNat :=
  ⟨a - b, if_pos h, UInt64.toNat_sub_of_le a b (UInt64.le_iff_toNat_le.2 h)⟩

/-- The byte of a field of one byte. -/
theorem byteAt_byte (bytes : Octets 1) : byteAt bytes.val 0 = pure bytes.byte :=
  match bytes with
  | ⟨[_], _⟩ => rfl

@[simp] theorem octets_eq {n : Nat} (bytes : Octets n) (field : Field) :
    octets bytes.val n field = pure bytes :=
  dif_pos bytes.property

/-- A field is taken as it stands at its place, and nothing is stuck on the way. -/
theorem take_eq (hpacket : packet.length < UInt64.size) (place : UInt64) {size : UInt64} {n : Nat}
    (hsize : size.toNat = n) (field : Field) :
    (∃ (octets : Octets n) (next : UInt64),
      Target.fieldAt packet place.toNat n field = .ok octets ∧
      take packet place size field = pure (octets.val, next) ∧ next.toNat = place.toNat + n) ∨
    (Target.fieldAt packet place.toNat n field = .error (.incomplete field) ∧
      take packet place size field = throw (.incomplete field)) := by
  subst hsize
  by_cases hfits : place.toNat + size.toNat ≤ packet.length
  · left
    have hword : place.toNat + size.toNat < UInt64.size := by omega
    have hnext : (place + size).toNat = place.toNat + size.toNat := by
      rw [UInt64.toNat_add]
      exact Nat.mod_eq_of_lt hword
    have htaken : place.toNat ≤ (place + size).toNat ∧ (place + size).toNat ≤ packet.length := by
      omega
    have hlen : (place + size).toNat - place.toNat = size.toNat := by omega
    refine ⟨_, place + size, dif_pos hfits, ?_, hnext⟩
    rw [take, if_pos ⟨hword, htaken.2⟩, cut, if_pos htaken, hlen]
    rfl
  · right
    refine ⟨dif_neg hfits, if_neg ?_⟩
    rintro ⟨hword, hle⟩
    rw [UInt64.toNat_add, Nat.mod_eq_of_lt hword] at hle
    exact hfits hle

/-- A run comes to the value or the failure of a reading, with a word that is the same number and
not below a bound. -/
inductive Parses (bound : Nat) : WordRun (α × UInt64) → Except Failure (α × Nat) → Prop where
  | value (a : α) {word : UInt64} {n : Nat} (hword : word.toNat = n) (hbound : bound ≤ n) :
      Parses bound (pure (a, word)) (.ok (a, n))
  | failure (e : Failure) : Parses bound (throw e) (.error e)

namespace Parses

/-- What comes behind one run and one reading. -/
theorem bind {bound bound' : Nat} {run : WordRun (α × UInt64)}
    {reading : Except Failure (α × Nat)} {f : α × UInt64 → WordRun (β × UInt64)}
    {g : α × Nat → Except Failure (β × Nat)} (h : Parses bound run reading)
    (hnext : ∀ a (word : UInt64), bound ≤ word.toNat →
      Parses bound' (f (a, word)) (g (a, word.toNat))) :
    Parses bound' (run >>= f) (reading >>= g) := by
  cases h with
  | value a hword hbound =>
    subst hword
    exact hnext a _ hbound
  | failure e => exact .failure e

/-- What comes behind a field. -/
theorem take_bind (hpacket : packet.length < UInt64.size) {place size : UInt64} {n bound : Nat}
    (hsize : size.toNat = n) {field : Field} {f : Bytes × UInt64 → WordRun (β × UInt64)}
    {g : Octets n → Except Failure (β × Nat)}
    (hnext : ∀ (octets : Octets n) (next : UInt64), next.toNat = place.toNat + n →
      Parses bound (f (octets.val, next)) (g octets)) :
    Parses bound (take packet place size field >>= f)
      (Target.fieldAt packet place.toNat n field >>= g) := by
  obtain ⟨octets, next, hfield, htake, hplace⟩ | ⟨hfield, htake⟩ :=
    take_eq hpacket place hsize field
  · rw [hfield, htake]
    exact hnext octets next hplace
  · rw [hfield, htake]
    exact .failure _

end Parses

end WordRun

open WordRun

/-! ## Targets -/

namespace Target

/-- The host of a known address type that stands at a place in a packet, and the place behind
it. -/
def parseHostWords (packet : Bytes) (place : UInt64) : AddressType → WordRun (Host × UInt64)
  | .ipv4 => do
    let (bytes, place) ← take packet place 4 .ipv4Address
    return (.ip (.v4 ⟨← octets bytes 4 .ipv4Address⟩), place)
  | .domainName => do
    let (bytes, place) ← take packet place 1 .domainLength
    let size ← byteAt bytes 0
    if size = 0 then throw (.malformed .emptyDomain)
    let (bytes, place) ← take packet place size.toUInt64 .domainName
    match Text.Utf8.decode bytes with
    | .ok name => return (.domain name, place)
    | .error fault => throw (.malformed (.packetDomainText fault))
  | .ipv6 => do
    let (bytes, place) ← take packet place 16 .ipv6Address
    return (.ip (.v6 ⟨← octets bytes 16 .ipv6Address⟩), place)

/-- The target that stands at a place in a packet, and the number of bytes that it takes there. -/
def parseWords (packet : Bytes) (start : UInt64) : WordRun (Target × UInt64) :=
  match packet[start.toNat]? with
  | none => throw (.incomplete .addressType)
  | some type => do
    let place ← add start 1
    match AddressType.ofByte? type with
    | none => throw (.unsupportedAddressType type)
    | some type =>
      let (host, place) ← parseHostWords packet place type
      let (port, place) ← take packet place 2 .port
      let high ← byteAt port 0
      let low ← byteAt port 1
      return (⟨host, Octets.word ⟨[high, low], rfl⟩⟩, ← sub place start)

/-- A host is read with words as it is with numbers, and the place behind it is not before it. -/
theorem parses_parseHostWords (hpacket : packet.length < UInt64.size) (place : UInt64)
    (type : AddressType) :
    Parses place.toNat (parseHostWords packet place type) (parseHost packet place.toNat type) := by
  cases type with
  | ipv4 =>
    refine .take_bind (n := 4) hpacket rfl fun octets next hnext => ?_
    simp only [octets_eq, pure_bind]
    exact .value _ hnext (Nat.le_add_right _ _)
  | ipv6 =>
    refine .take_bind (n := 16) hpacket rfl fun octets next hnext => ?_
    simp only [octets_eq, pure_bind]
    exact .value _ hnext (Nat.le_add_right _ _)
  | domainName =>
    refine .take_bind (n := 1) hpacket rfl fun length behind hbehind => ?_
    simp only [byteAt_byte, pure_bind]
    by_cases hzero : length.byte = 0
    · simp only [if_pos hzero]
      exact .failure _
    · simp only [if_neg hzero]
      have hbehind : place.toNat + 1 = behind.toNat := hbehind.symm
      rw [hbehind]
      refine .take_bind hpacket (UInt8.toNat_toUInt64 length.byte) fun bytes next hnext => ?_
      cases Text.Utf8.decode bytes.val with
      | error fault => exact .failure _
      | ok name => exact .value _ hnext (by omega)

/-- A field of one byte is the byte at its place. -/
theorem fieldAt_one (packet : Bytes) (place : Nat) (field : Field) :
    fieldAt packet place 1 field =
      match packet[place]? with
      | some b => .ok (.ofByte b)
      | none => .error (.incomplete field) := by
  by_cases hinside : place + 1 ≤ packet.length
  · have htake : (packet.drop place).take 1 = [packet[place]] := by
      rw [List.drop_eq_getElem_cons hinside]
      rfl
    rw [fieldAt, dif_pos hinside, List.getElem?_eq_getElem hinside]
    exact congrArg Except.ok (Subtype.ext htake)
  · rw [fieldAt, dif_neg hinside, List.getElem?_eq_none (Nat.le_of_not_lt hinside)]

/-- A target is read with words as it is with numbers. -/
theorem parses_parseWords (hpacket : packet.length < UInt64.size) (start : UInt64) :
    Parses 0 (parseWords packet start) (parse packet start.toNat) := by
  rw [parseWords, parse, fieldAt_one]
  cases hbyte : packet[start.toNat]? with
  | none => exact .failure _
  | some byte =>
    obtain ⟨hinside, rfl⟩ := List.getElem?_eq_some_iff.1 hbyte
    obtain ⟨place, hadd, hplace⟩ := add_eq (a := start) (b := 1) (by simp; omega)
    have hplace : place.toNat = start.toNat + 1 := hplace
    simp only [hadd, bind, Except.bind, Octets.byte_ofByte]
    cases AddressType.ofByte? packet[start.toNat] with
    | none => exact .failure _
    | some type =>
      have hhost := parses_parseHostWords hpacket place type
      rw [hplace] at hhost
      refine hhost.bind fun host behind hbehind => ?_
      refine .take_bind (n := 2) hpacket rfl fun port next hnext => ?_
      have hnext : next.toNat = behind.toNat + 2 := hnext
      have hsum : next.toNat - start.toNat = behind.toNat + 2 - start.toNat := by rw [hnext]
      obtain ⟨count, hsub, hcount⟩ := sub_eq (a := next) (b := start) (by omega)
      obtain ⟨_, hlen⟩ := port
      obtain ⟨high, low, rfl⟩ := List.length_eq_two.1 hlen
      change Parses 0 (sub next start >>= fun count => _) _
      rw [hsub, pure_bind]
      exact .value _ (hcount.trans hsum) (Nat.zero_le _)

/-! ## Packets and streams -/

open Duplex (attend_eq run_of_finished run_of_lacking_end)

variable {d : Duplex} {portions : List (List Arrival)} {later : List Arrival}

/-- A reader that comes to a value at a place of a packet comes to it on a stream of the bytes from
there on, of which it takes as many. -/
theorem attend_of_parseAt_ok {dec : Decoder α} {place next : Nat} {a : α}
    (hbrings : (d.feed portions.flatten).Brings (packet.drop place) later)
    (h : dec.parseAt packet place = .ok (a, next)) :
    ∃ after, d.attend (Stream.run dec) portions = (.done a, after) ∧
      after.source.consumed = d.source.consumed + (next - place) := by
  rw [attend_eq]
  unfold Decoder.parseAt at h
  cases hparse : dec.parse (packet.drop place) with
  | lacking field =>
    rw [hparse] at h
    cases h
  | finished result rest =>
    rw [hparse] at h
    cases result with
    | error e => cases h
    | ok found =>
      cases h
      obtain ⟨front, left, hfront, _, hrun⟩ := run_of_finished hbrings hparse
      refine ⟨_, hrun, ?_⟩
      have hlen := congrArg List.length hfront
      rw [List.length_append] at hlen
      change d.source.consumed + front.length = _
      omega

/-- A reader that fails at a place of a packet fails as well on a stream of the bytes from there on
that ends behind them. -/
theorem attend_of_parseAt_error {dec : Decoder α} {place : Nat} {e : Failure}
    (hbrings : (d.feed portions.flatten).Brings (packet.drop place) (.finish :: later))
    (h : dec.parseAt packet place = .error e) :
    ∃ cause after, d.attend (Stream.run dec) portions = (.fail cause, after) ∧
      e = cause.inPacket := by
  rw [attend_eq]
  unfold Decoder.parseAt at h
  cases hparse : dec.parse (packet.drop place) with
  | lacking field =>
    rw [hparse] at h
    cases h
    exact ⟨_, _, run_of_lacking_end hbrings hparse, rfl⟩
  | finished result rest =>
    rw [hparse] at h
    cases result with
    | ok found => cases h
    | error cause =>
      cases h
      obtain ⟨front, left, _, _, hrun⟩ := run_of_finished hbrings hparse
      exact ⟨cause, _, hrun, rfl⟩

/-- At any place, also past the end of the packet, a target is read with words, and so never stuck,
as it is read from a stream that brings the bytes from there on, in whatever pieces and whenever,
and ends. Either both come to the same target, and to the same number of bytes for it, which is the
size that the target has on the wire and never more than there are; or both fail, for the same cause
up to the wording for a name that is no text. -/
theorem parseWords_agrees (hpacket : packet.length < UInt64.size) (start : UInt64)
    (hbrings : (d.feed portions.flatten).Brings (packet.drop start.toNat) (.finish :: later)) :
    (∃ t count after, parseWords packet start = pure (t, count) ∧
      parse packet start.toNat = .ok (t, count.toNat) ∧
      d.attend (Stream.run decoder) portions = (.done t, after) ∧
      after.source.consumed = d.source.consumed + count.toNat ∧
      count.toNat = t.wireSize ∧ count.toNat ≤ packet.length - start.toNat) ∨
    (∃ e after, parseWords packet start = throw e.inPacket ∧
      parse packet start.toNat = .error e.inPacket ∧
      d.attend (Stream.run decoder) portions = (.fail e, after)) := by
  have hwords := parses_parseWords hpacket start
  have hplace := parse_eq packet start.toNat
  generalize parseWords packet start = run at hwords ⊢
  generalize hparse : parse packet start.toNat = reading at hwords hplace ⊢
  cases hwords with
  | @value t count n hcount hbound =>
    subst hcount
    left
    obtain ⟨w, rest, hencode, hbytes, hsize⟩ := parse_eq_ok_iff.1 hparse
    have hlen := congrArg List.length hbytes
    rw [List.length_drop, List.length_append] at hlen
    cases hat : decoder.parseAt packet start.toNat with
    | error e =>
      rw [hat] at hplace
      cases hplace
    | ok found =>
      rw [hat] at hplace
      injection hplace with hfound
      obtain ⟨rfl, hnext⟩ := Prod.mk.inj hfound
      obtain ⟨after, hrun, hconsumed⟩ := attend_of_parseAt_ok hbrings hat
      refine ⟨found.1, count, after, rfl, rfl, hrun, ?_, ?_, by omega⟩
      · rw [hconsumed, hnext]
      · rw [hsize, length_of_encode hencode]
  | failure e =>
    right
    cases hat : decoder.parseAt packet start.toNat with
    | ok found =>
      rw [hat] at hplace
      cases hplace
    | error e' =>
      rw [hat] at hplace
      cases hplace
      obtain ⟨cause, after, hrun, rfl⟩ := attend_of_parseAt_error hbrings hat
      exact ⟨cause, after, rfl, rfl, hrun⟩

/-- A packet whose target stands behind three bytes, on a stream in three pieces. -/
theorem parseWords_agrees_of_pieces :
    let packet : Bytes := [0, 0, 0, 1, 8, 8, 4, 4, 0, 53, 42]
    let portions : List (List Arrival) :=
      [[.piece [1, 8, 8]], [], [.piece [4, 4, 0], .piece [53, 42], .finish]]
    let d : Duplex := { source := ⟨[], 0⟩ }
    packet.length < UInt64.size ∧
      (d.feed portions.flatten).Brings (packet.drop (3 : UInt64).toNat) [.finish] ∧
      ((∃ t count after, parseWords packet 3 = pure (t, count) ∧
        parse packet (3 : UInt64).toNat = .ok (t, count.toNat) ∧
        d.attend (Stream.run decoder) portions = (.done t, after) ∧
        after.source.consumed = d.source.consumed + count.toNat ∧
        count.toNat = t.wireSize ∧ count.toNat ≤ packet.length - (3 : UInt64).toNat) ∨
      (∃ e after, parseWords packet 3 = throw e.inPacket ∧
        parse packet (3 : UInt64).toNat = .error e.inPacket ∧
        d.attend (Stream.run decoder) portions = (.fail e, after))) := by
  intro packet portions d
  have hpacket : packet.length < UInt64.size := by decide
  have hbrings : (d.feed portions.flatten).Brings (packet.drop (3 : UInt64).toNat) [.finish] :=
    ⟨[[1, 8, 8], [4, 4, 0], [53, 42]], rfl, rfl⟩
  exact ⟨hpacket, hbrings, parseWords_agrees hpacket 3 hbrings⟩

example : parseWords [3, 2, 0x68, 0x69, 0, 80] 0 = pure (⟨.domain "hi", 80⟩, 6) := by rfl

end Target

end Socks5

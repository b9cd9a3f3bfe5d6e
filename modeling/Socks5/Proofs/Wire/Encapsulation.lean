import Socks5.Proofs.Wire.Datagrams
import Socks5.Proofs.Wire.Places
import Socks5.Proofs.Wire.RoundTrip

/-!
# Datagrams, byte by byte

A datagram has one reading at most, and it is the target and the payload that were put into it:
taking a datagram apart and putting it together undo each other. Everything else is flawed, and
`Datagram.Flawed` lists the flaws. Main statement: `Datagram.decapsulate_inverts_encapsulate`.
-/

namespace Socks5

variable {datagram payload : Bytes} {target : Target}

/-- Bytes begin with every field that they have room for. -/
theorem Octets.exists_eq_append {n : Nat} {bytes : Bytes} (h : n ≤ bytes.length) :
    ∃ (octets : Octets n) (rest : Bytes), bytes = octets.val ++ rest :=
  ⟨.ofTake n bytes h, bytes.drop n, (List.take_append_drop n bytes).symm⟩

/-- A field that is cut out of a packet lies within it. -/
theorem Target.le_length_of_fieldAt {packet : Bytes} {place size : Nat} {field : Field}
    {octets : Octets size} (h : fieldAt packet place size field = .ok octets) :
    place + size ≤ packet.length := by
  rw [fieldAt] at h
  split at h
  next hfits => exact hfits
  · cases h

/-- A header is read only behind two reserved bytes and the fragment number 0, and it is a target
in its written form. -/
theorem DatagramHeader.exists_encode_of_decode {header : DatagramHeader}
    (h : decode datagram = .ok (header, payload)) :
    ∃ w, header.target.encode = .ok w ∧ datagram = [reserved, reserved, 0] ++ w ++ payload := by
  match datagram with
  | [] | [_] | [_, _] | [_, _, _] => cases h
  | r₀ :: r₁ :: fragment :: type :: bytes =>
    by_cases hreserved : r₀ ≠ reserved ∨ r₁ ≠ reserved
    · simp only [decode, if_pos hreserved] at h
      cases h
    · by_cases hfragment : fragment ≠ 0
      · simp only [decode, if_neg hreserved, if_pos hfragment] at h
        cases h
      · simp only [decode, if_neg hreserved, if_neg hfragment] at h
        obtain ⟨⟨target, size⟩, hparse, hheader⟩ := map_eq_ok_iff.1 h
        cases hheader
        obtain ⟨w, rest, hencode, hbytes, rfl⟩ := Target.parse_eq_ok_iff.1 hparse
        obtain rfl : r₀ = reserved := Decidable.not_not.1 fun h => hreserved (.inl h)
        obtain rfl : r₁ = reserved := Decidable.not_not.1 fun h => hreserved (.inr h)
        obtain rfl : fragment = 0 := Decidable.not_not.1 hfragment
        have htail : type :: bytes = w ++ rest := hbytes
        have hpayload : (reserved :: reserved :: 0 :: (w ++ rest)).drop (3 + w.length) = rest := by
          rw [Nat.add_comm]
          exact List.drop_left
        refine ⟨w, hencode, ?_⟩
        rw [htail, hpayload, List.append_assoc]
        rfl

namespace Datagram

/-! ## Putting together and taking apart -/

/-- A datagram is taken apart into what was put into it, and only into that. -/
theorem decapsulate_eq_ok_iff :
    decapsulate datagram = .ok (target, payload) ↔ encapsulate target payload = .ok datagram := by
  refine ⟨fun h => ?_, decapsulate_encapsulate⟩
  obtain ⟨⟨header, rest⟩, hdecode, hresult⟩ := map_eq_ok_iff.1 h
  cases hresult
  exact encapsulate_eq_ok_iff.2 (DatagramHeader.exists_encode_of_decode hdecode)

/-! ## Flaws -/

/-- The bytes that the header of a datagram takes, as far as the datagram tells. -/
def headerSize (datagram : Bytes) : Nat :=
  match datagram[3]?.bind AddressType.ofByte? with
  | some .ipv4 => 3 + (1 + 4 + 2)
  | some .domainName => 3 + (1 + (1 + (datagram[4]?.getD 0).toNat) + 2)
  | some .ipv6 => 3 + (1 + 16 + 2)
  | none => 3 + 1

/-- What may be wrong with a datagram: it is shorter than its header, one of its first three bytes
is not 0, its address type is unknown, or its name is empty or no text. -/
inductive Flawed (datagram : Bytes) : Prop where
  | short (hshort : datagram.length < headerSize datagram)
  | reserved {place : Nat} {b : UInt8} (hplace : place < 3) (hbyte : datagram[place]? = some b)
      (hb : b ≠ 0)
  | unknownType {b : UInt8} (hbyte : datagram[3]? = some b) (hb : AddressType.ofByte? b = none)
  | unnamed (htype : datagram[3]? = some AddressType.domainName.toByte)
      (hsize : datagram[4]? = some 0)
  | notText {size : UInt8} (htype : datagram[3]? = some AddressType.domainName.toByte)
      (hsize : datagram[4]? = some size)
      (htext : ∀ name, (datagram.drop 5).take size.toNat ≠ Text.Utf8.encode name)

/-- Whatever its address type, a header takes at least the byte that tells it. -/
theorem four_le_headerSize (datagram : Bytes) : 4 ≤ headerSize datagram := by
  unfold headerSize
  split <;> omega

/-- A header written for a target says how long it is. -/
theorem headerSize_of_encapsulate (h : encapsulate target payload = .ok datagram) :
    headerSize datagram = 3 + target.wireSize := by
  obtain ⟨w, hencode, rfl⟩ := encapsulate_eq_ok_iff.1 h
  obtain ⟨host, hhost, rfl⟩ := Target.encode_eq_ok_iff.1 hencode
  match hname : target.host with
  | .ip (.v4 ip) => simp [headerSize, Target.wireSize, hname, Host.addressType]
  | .ip (.v6 ip) => simp [headerSize, Target.wireSize, hname, Host.addressType]
  | .domain name =>
    rw [hname] at hhost
    obtain ⟨size, _, hsize, rfl⟩ := Target.encodeHost_domain_eq_ok_iff.1 hhost
    simp [headerSize, Target.wireSize, hname, Host.addressType, hsize, Text.Utf8.length_encode]

/-- What has been put together has no flaw. -/
theorem not_flawed_of_encapsulate (h : encapsulate target payload = .ok datagram) :
    ¬ Flawed datagram := by
  have hheader := headerSize_of_encapsulate h
  obtain ⟨w, hencode, rfl⟩ := encapsulate_eq_ok_iff.1 h
  have hsize := Target.length_of_encode hencode
  obtain ⟨host, hhost, rfl⟩ := Target.encode_eq_ok_iff.1 hencode
  intro hflawed
  cases hflawed with
  | short hshort =>
    rw [hheader, ← hsize] at hshort
    simp only [List.length_append, List.length_cons, List.length_nil] at hshort
    omega
  | @reserved place b hplace hbyte hb =>
    match place, hplace with
    | 0, _ | 1, _ | 2, _ =>
      cases hbyte
      exact hb rfl
  | unknownType hbyte hb =>
    cases hbyte
    rw [AddressType.ofByte?_toByte] at hb
    cases hb
  | unnamed htype hsize =>
    match hname : target.host with
    | .ip (.v4 ip) | .ip (.v6 ip) => simp [hname, Host.addressType, AddressType.toByte] at htype
    | .domain name =>
      rw [hname] at hhost
      obtain ⟨size, hzero, _, rfl⟩ := Target.encodeHost_domain_eq_ok_iff.1 hhost
      cases hsize
      exact hzero rfl
  | notText htype hsize htext =>
    match hname : target.host with
    | .ip (.v4 ip) | .ip (.v6 ip) => simp [hname, Host.addressType, AddressType.toByte] at htype
    | .domain name =>
      rw [hname] at hhost
      obtain ⟨size, _, hlen, rfl⟩ := Target.encodeHost_domain_eq_ok_iff.1 hhost
      cases hsize
      refine htext name ?_
      simp [List.take_left' hlen.symm]

/-- A datagram without a flaw has a host behind its address type, and room for a port. -/
theorem exists_host_of_not_flawed {type : AddressType} {r₀ r₁ fragment : UInt8} {bytes : Bytes}
    (h : ¬ Flawed (r₀ :: r₁ :: fragment :: type.toByte :: bytes)) :
    ∃ host w rest, host.addressType = type ∧ Target.encodeHost host = .ok w ∧
      bytes = w ++ rest ∧ 2 ≤ rest.length := by
  have hlong : headerSize (r₀ :: r₁ :: fragment :: type.toByte :: bytes) ≤ bytes.length + 4 :=
    Nat.le_of_not_lt fun hshort => h (.short hshort)
  cases type with
  | ipv4 =>
    have hlong : 10 ≤ bytes.length + 4 := hlong
    have hroom : 4 ≤ bytes.length := by omega
    obtain ⟨octets, rest, rfl⟩ := Octets.exists_eq_append hroom
    rw [List.length_append, octets.property] at hlong
    exact ⟨.ip (.v4 ⟨octets⟩), octets.val, rest, rfl, rfl, rfl, by omega⟩
  | ipv6 =>
    have hlong : 22 ≤ bytes.length + 4 := hlong
    have hroom : 16 ≤ bytes.length := by omega
    obtain ⟨octets, rest, rfl⟩ := Octets.exists_eq_append hroom
    rw [List.length_append, octets.property] at hlong
    exact ⟨.ip (.v6 ⟨octets⟩), octets.val, rest, rfl, rfl, rfl, by omega⟩
  | domainName =>
    match bytes with
    | [] =>
      have hlong : 7 ≤ 4 := hlong
      omega
    | size :: bytes =>
      have hlong : 3 + (1 + (1 + size.toNat) + 2) ≤ bytes.length + 1 + 4 := hlong
      have hzero : size ≠ 0 := by
        rintro rfl
        exact h (.unnamed rfl rfl)
      have hroom : size.toNat ≤ bytes.length := by omega
      obtain ⟨octets, rest, rfl⟩ := Octets.exists_eq_append hroom
      rw [List.length_append, octets.property] at hlong
      cases hdecode : Text.Utf8.decode octets.val with
      | error fault =>
        refine absurd (.notText rfl rfl fun name htext => ?_) h
        have htake : (octets.val ++ rest).take size.toNat = octets.val :=
          List.take_left' octets.property
        rw [htake.symm.trans htext, Text.Utf8.decode_encode] at hdecode
        cases hdecode
      | ok name =>
        have hname := Text.Utf8.decode_eq_ok_iff.1 hdecode
        refine ⟨.domain name, size :: octets.val, rest, rfl, ?_, rfl, by omega⟩
        refine Target.encodeHost_domain_eq_ok_iff.2 ⟨size, hzero, ?_, by rw [hname]⟩
        rw [← hname, octets.property]

/-- A datagram without a flaw has been put together from a target and a payload. -/
theorem exists_encapsulate_of_not_flawed (h : ¬ Flawed datagram) :
    ∃ target payload, encapsulate target payload = .ok datagram := by
  have hlong : headerSize datagram ≤ datagram.length :=
    Nat.le_of_not_lt fun hshort => h (.short hshort)
  have hfour := four_le_headerSize datagram
  match datagram with
  | [] | [_] | [_, _] | [_, _, _] => simp at hlong; omega
  | r₀ :: r₁ :: fragment :: b :: bytes =>
    have hreserved : r₀ = reserved ∧ r₁ = reserved ∧ fragment = 0 := by
      refine ⟨?_, ?_, ?_⟩ <;> refine Decidable.not_not.1 fun hb => h ?_
      · exact .reserved (by decide : 0 < 3) rfl hb
      · exact .reserved (by decide : 1 < 3) rfl hb
      · exact .reserved (by decide : 2 < 3) rfl hb
    obtain ⟨rfl, rfl, rfl⟩ := hreserved
    cases htype : AddressType.ofByte? b with
    | none => exact absurd (.unknownType rfl htype) h
    | some type =>
      obtain rfl := AddressType.ofByte?_eq_some_iff.1 htype
      obtain ⟨host, w, rest, rfl, hencode, rfl, hrest⟩ := exists_host_of_not_flawed h
      obtain ⟨port, payload, rfl⟩ := Octets.exists_eq_append hrest
      have htarget : (⟨host, port.word⟩ : Target).encode =
          .ok (host.addressType.toByte :: w ++ port.val) :=
        Target.encode_eq_ok_iff.2 ⟨w, hencode, by rw [Octets.ofWord_word]⟩
      exact ⟨_, payload, encapsulate_eq_ok_iff.2 ⟨_, htarget, by simp [reserved]⟩⟩

/-- A datagram is refused exactly if it has a flaw. -/
theorem exists_decapsulate_error_iff :
    (∃ e, decapsulate datagram = .error e) ↔ Flawed datagram := by
  constructor
  · rintro ⟨e, herror⟩
    refine Classical.byContradiction fun hflawed => ?_
    obtain ⟨target, payload, hok⟩ := exists_encapsulate_of_not_flawed hflawed
    rw [decapsulate_encapsulate hok] at herror
    cases herror
  · intro hflawed
    cases hresult : decapsulate datagram with
    | error e => exact ⟨e, rfl⟩
    | ok found => exact absurd hflawed (not_flawed_of_encapsulate (decapsulate_eq_ok_iff.1 hresult))

/-- What is read of a datagram lies within it: the payload is what the header leaves. -/
theorem payload_of_decapsulate (h : decapsulate datagram = .ok (target, payload)) :
    3 + target.wireSize ≤ datagram.length ∧ payload = datagram.drop (3 + target.wireSize) := by
  obtain ⟨w, hencode, rfl⟩ := encapsulate_eq_ok_iff.1 (decapsulate_eq_ok_iff.1 h)
  rw [← Target.length_of_encode hencode]
  constructor
  · simp only [List.length_append, List.length_cons, List.length_nil]
    omega
  · have hheader : ([reserved, reserved, 0] ++ w).length = 3 + w.length := by
      simp only [List.length_append, List.length_cons, List.length_nil]
    exact (List.drop_left' hheader).symm

/-- Taking a datagram apart and putting it together undo each other. So no two datagrams have the
same target and payload, exactly the flawed ones are refused, and nothing outside a datagram is
read: every field lies within it, and its payload begins within it. -/
theorem decapsulate_inverts_encapsulate (datagram : Bytes) :
    (∀ target payload,
      decapsulate datagram = .ok (target, payload) ↔ encapsulate target payload = .ok datagram) ∧
    (∀ other target payload, decapsulate datagram = .ok (target, payload) →
      decapsulate other = .ok (target, payload) → datagram = other) ∧
    ((∃ e, decapsulate datagram = .error e) ↔ Flawed datagram) ∧
    (∀ place size field octets, Target.fieldAt datagram place size field = .ok octets →
      place + size ≤ datagram.length) ∧
    (∀ target payload, decapsulate datagram = .ok (target, payload) →
      3 + target.wireSize ≤ datagram.length ∧ payload = datagram.drop (3 + target.wireSize)) := by
  refine ⟨fun target payload => decapsulate_eq_ok_iff, ?_, exists_decapsulate_error_iff,
    fun place size field octets => Target.le_length_of_fieldAt,
    fun target payload => payload_of_decapsulate⟩
  intro other target payload h h'
  have hsame := (decapsulate_eq_ok_iff.1 h).symm.trans (decapsulate_eq_ok_iff.1 h')
  exact Except.ok.inj hsame

/-- A payload that looks like a header, behind a header with a name. With another length in front of
the name the same bytes are flawed. -/
theorem decapsulate_inverts_encapsulate_headerLike :
    decapsulate [0, 0, 0, 3, 1, 97, 0, 53, 0, 0, 0, 1] =
      .ok (⟨.domain "a", 53⟩, [0, 0, 0, 1]) ∧
    3 + (⟨.domain "a", 53⟩ : Target).wireSize ≤ 12 ∧
    ∃ e, decapsulate [0, 0, 0, 3, 6, 97, 0, 53, 0, 0, 0, 1] = .error e := by
  have hname : decapsulate [0, 0, 0, 3, 1, 97, 0, 53, 0, 0, 0, 1] =
      .ok (⟨.domain "a", 53⟩, [0, 0, 0, 1]) :=
    ((decapsulate_inverts_encapsulate _).1 _ _).2 rfl
  refine ⟨hname, ((decapsulate_inverts_encapsulate _).2.2.2.2 _ _ hname).1, ?_⟩
  exact (decapsulate_inverts_encapsulate _).2.2.1.2 (.short (by decide))

end Datagram

end Socks5

import Socks5.Wire.Datagram

/-!
# Datagrams and their headers

A packet is read by place, so a target that was written into it is found again whatever stands in
front of it and behind it. Main statement: what was encapsulated is decapsulated
(`Datagram.decapsulate_encapsulate`).
-/

namespace Socks5

namespace Target

/-- A field is cut out of a packet where it stands. -/
theorem fieldAt_append {n place : Nat} (field : Field) {front : Bytes} (octets : Octets n)
    (back : Bytes) (h : place = front.length) :
    fieldAt (front ++ octets.val ++ back) place n field = .ok octets := by
  subst h
  have hfits : front.length + n ≤ (front ++ octets.val ++ back).length := by
    simp [octets.property]
  have htake : ((front ++ octets.val ++ back).drop front.length).take n = octets.val := by
    rw [List.append_assoc, List.drop_left, List.take_left' octets.property]
  rw [fieldAt, dif_pos hfits]
  exact congrArg Except.ok (Subtype.ext htake)

theorem byteAt_append {place : Nat} (field : Field) {front : Bytes} (b : UInt8) (back : Bytes)
    (h : place = front.length) :
    fieldAt (front ++ b :: back) place 1 field = .ok (.ofByte b) := by
  have hfield := fieldAt_append field (.ofByte b) back h
  rwa [List.append_assoc] at hfield

variable {front back bytes : Bytes} {place : Nat}

/-- A name is found behind its length. -/
theorem parseHost_domainName_append {name : String}
    (hencode : encodeHost (.domain name) = .ok bytes) (h : place = front.length) :
    parseHost (front ++ bytes ++ back) place .domainName =
      .ok (.domain name, place + bytes.length) := by
  rw [encodeHost] at hencode
  split at hencode
  · cases hencode
  next hsize =>
    cases hencode
    generalize hcount : UInt8.ofNat (Text.Utf8.encode name).length = count
    have hlen : count.toNat = (Text.Utf8.encode name).length := by
      rw [← hcount, UInt8.toNat_ofNat']
      omega
    have hpos : count ≠ 0 := by
      rintro rfl
      exact hsize (.inl hlen.symm)
    have hname : fieldAt (front ++ count :: Text.Utf8.encode name ++ back) (place + 1)
        count.toNat .domainName = .ok ⟨Text.Utf8.encode name, hlen.symm⟩ := by
      rw [List.append_cons]
      exact fieldAt_append _ ⟨_, hlen.symm⟩ back (by simp [h])
    have hbyte : fieldAt (front ++ count :: Text.Utf8.encode name ++ back) place 1 .domainLength =
        .ok (.ofByte count) := by
      rw [List.append_assoc]
      exact byteAt_append _ count _ h
    simp only [parseHost, hbyte, bind, Except.bind, Octets.byte_ofByte, hpos, ↓reduceIte, hname,
      Text.Utf8.decode_encode, pure, Except.pure, hlen, List.length_cons]
    rw [Nat.add_assoc, Nat.add_comm 1]

/-- The host of a target is found where it was written. -/
theorem parseHost_append {host : Host} (hencode : encodeHost host = .ok bytes)
    (h : place = front.length) :
    parseHost (front ++ bytes ++ back) place host.addressType =
      .ok (host, place + bytes.length) := by
  match host with
  | .ip (.v4 ip) =>
    cases hencode
    simp only [parseHost, Host.addressType, fieldAt_append _ ip.octets back h, bind, Except.bind,
      pure, Except.pure, ip.octets.property]
  | .ip (.v6 ip) =>
    cases hencode
    simp only [parseHost, Host.addressType, fieldAt_append _ ip.octets back h, bind, Except.bind,
      pure, Except.pure, ip.octets.property]
  | .domain name => exact parseHost_domainName_append hencode h

/-- So is the target. -/
theorem parse_append {t : Target} (hencode : t.encode = .ok bytes) (h : place = front.length) :
    parse (front ++ bytes ++ back) place = .ok (t, bytes.length) := by
  rw [encode] at hencode
  cases hhost : encodeHost t.host with
  | error e =>
    rw [hhost] at hencode
    cases hencode
  | ok host =>
    rw [hhost] at hencode
    cases hencode
    have htype : fieldAt (front ++ (t.host.addressType.toByte :: host ++
        (Octets.ofWord t.port).val) ++ back) place 1 .addressType =
          .ok (.ofByte t.host.addressType.toByte) := by
      rw [List.append_assoc]
      exact byteAt_append _ _ _ h
    have hparse : parseHost (front ++ (t.host.addressType.toByte :: host ++
        (Octets.ofWord t.port).val) ++ back) (place + 1) t.host.addressType =
          .ok (t.host, place + 1 + host.length) := by
      have hhost : parseHost (front ++ [t.host.addressType.toByte] ++ host ++
          ((Octets.ofWord t.port).val ++ back)) (place + 1) t.host.addressType =
            .ok (t.host, place + 1 + host.length) := parseHost_append hhost (by simp [h])
      simpa using hhost
    have hport : fieldAt (front ++ (t.host.addressType.toByte :: host ++
        (Octets.ofWord t.port).val) ++ back) (place + 1 + host.length) 2 .port =
          .ok (.ofWord t.port) := by
      have hport : fieldAt (front ++ t.host.addressType.toByte :: host ++
          (Octets.ofWord t.port).val ++ back) (place + 1 + host.length) 2 .port =
            .ok (.ofWord t.port) := fieldAt_append .port _ back (by simp [h]; omega)
      simpa using hport
    simp only [parse, htype, bind, Except.bind, Octets.byte_ofByte, AddressType.ofByte?_toByte,
      hparse, hport, Octets.word_ofWord, pure, Except.pure]
    have hsize : place + 1 + host.length + 2 - place =
        (t.host.addressType.toByte :: host ++ (Octets.ofWord t.port).val).length := by
      rw [List.length_append, List.length_cons, (Octets.ofWord t.port).property]
      omega
    rw [hsize]

/-- A target given by its address can be written. -/
theorem exists_encode_ofSocketAddr (a : SocketAddr) :
    ∃ bytes, (ofSocketAddr a).encode = .ok bytes := by
  cases h : a.ip <;>
    simp [encode, ofSocketAddr, h, encodeHost, bind, Except.bind, pure, Except.pure]

end Target

namespace Datagram

/-- A payload stands behind the reserved bytes, the fragment number 0 and its target. -/
theorem encapsulate_eq_ok_iff {target : Target} {payload packet : Bytes} :
    encapsulate target payload = .ok packet ↔
      ∃ bytes, target.encode = .ok bytes ∧
        packet = [reserved, reserved, 0] ++ bytes ++ payload := by
  cases hencode : target.encode with
  | error e =>
    simp [encapsulate, DatagramHeader.encode, DatagramHeader.whole, hencode, bind, Except.bind]
  | ok bytes =>
    simp [encapsulate, DatagramHeader.encode, DatagramHeader.whole, hencode, bind, Except.bind,
      pure, Except.pure, eq_comm]

/-- What was encapsulated is decapsulated. -/
theorem decapsulate_encapsulate {target : Target} {payload packet : Bytes}
    (h : encapsulate target payload = .ok packet) : decapsulate packet = .ok (target, payload) := by
  obtain ⟨bytes, hencode, hpacket⟩ := encapsulate_eq_ok_iff.1 h
  have hparse : Target.parse packet 3 = .ok (target, bytes.length) :=
    hpacket ▸ Target.parse_append hencode rfl
  have hdrop : packet.drop (3 + bytes.length) = payload := by
    rw [hpacket]
    exact List.drop_left' (by simp; omega)
  have hlong : packet = reserved :: reserved :: 0 :: (bytes ++ payload) := by simp [hpacket]
  cases hbytes : bytes ++ payload with
  | nil =>
    have hsize := Target.length_of_encode hencode
    obtain ⟨rfl, rfl⟩ := List.append_eq_nil_iff.1 hbytes
    rw [Target.wireSize] at hsize
    split at hsize <;> simp at hsize
  | cons b rest =>
    rw [hbytes] at hlong
    rw [hlong] at hparse hdrop ⊢
    simp only [decapsulate, DatagramHeader.decode, bind, Except.bind, hparse, hdrop, pure,
      Except.pure]
    simp

/-- A payload from a socket can be encapsulated. -/
theorem exists_encapsulate_ofSocketAddr (a : SocketAddr) (payload : Bytes) :
    ∃ packet, encapsulate (.ofSocketAddr a) payload = .ok packet := by
  obtain ⟨bytes, hencode⟩ := Target.exists_encode_ofSocketAddr a
  exact ⟨_, encapsulate_eq_ok_iff.2 ⟨bytes, hencode, rfl⟩⟩

end Datagram

end Socks5

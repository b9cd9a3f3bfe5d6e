import Socks5.Proofs.Wire.RoundTrip

/-!
# Where a message is cut short

Every byte of a message belongs to a field. A reader that is cut short in the middle of a message
lacks the field of the next byte: it waits for it, or fails for want of it at the end of the stream.
Main statement: what is read depends on the bytes of the stream and not on their pieces, and a
message that is cut short is never read (`MessageKind.settles_or_lacks`).
-/

namespace Socks5

/-! ## The fields of a message -/

/-- The fields of a host behind its address type, one for each byte. -/
def Host.fields : Host → List Field
  | .ip (.v4 _) => .replicate 4 .ipv4Address
  | .ip (.v6 _) => .replicate 16 .ipv6Address
  | .domain name => .domainLength :: .replicate (Text.Utf8.size name) .domainName

/-- The fields of a target behind its address type. -/
def Target.bodyFields (t : Target) : List Field := t.host.fields ++ .replicate 2 .port

/-- The fields of a target, one for each byte. -/
def Target.fields (t : Target) : List Field := .addressType :: t.bodyFields

/-- The fields of a message, one for each byte. Of a request that is refused for the type of its
address there is nothing behind that type. -/
def AnyMessage.fields : AnyMessage → List Field
  | .methodOffer m => [.version, .methodCount] ++ .replicate m.methods.length .methods
  | .methodChoice _ => [.version, .selectedMethod]
  | .login m =>
    [.subnegotiationVersion, .usernameLength] ++
      .replicate (Text.Utf8.size m.username) .username ++
      .passwordLength :: .replicate (Text.Utf8.size m.password) .password
  | .loginReply _ => [.subnegotiationVersion, .status]
  | .request m =>
    [.version, .command, .reserved, .addressType] ++
      if m.rejection = some .addrTypeUnsupported then [] else m.target.bodyFields
  | .reply m => [.version, .reply, .reserved] ++ m.bound.fields
  | .target t => t.fields
  | .datagramHeader _ => []

/-! ## Readers cut short -/

namespace Decoder

variable {α β : Type} {d : Decoder α} {f : α → Decoder β} {bytes w w' rest : Bytes}
  {fs fs' : List Field}

theorem parse_bind_of_lacking {field : Field} (h : parse d bytes = .lacking field) :
    parse (d.bind f) bytes = .lacking field := by
  induction d generalizing bytes with
  | done b => cases h
  | fail e => cases h
  | ask q next ih =>
    by_cases hq : q.size ≤ bytes.length
    · rw [parse_ask_of_le next hq] at h
      exact (parse_ask_of_le (fun octets => (next octets).bind f) hq).trans (ih _ h)
    · have hq : bytes.length < q.size := by omega
      rw [parse_ask_of_lt next hq] at h
      cases h
      exact parse_ask_of_lt (fun octets => (next octets).bind f) hq

/-- The fields of bytes that a reader takes: without one of them it lacks its field. -/
structure Lays (d : Decoder α) (w : Bytes) (fs : List Field) : Prop where
  length : fs.length = w.length
  lacks {k : Nat} {field : Field} : fs[k]? = some field → parse d (w.take k) = .lacking field

namespace Lays

theorem nil (d : Decoder α) : Lays d [] [] := ⟨rfl, nofun⟩

/-- Two readers in a row. -/
theorem bind {a : α} (h : Lays d w fs) (hparse : parse d w = .finished (.ok a) [])
    (h' : Lays (f a) w' fs') : Lays (d.bind f) (w ++ w') (fs ++ fs') where
  length := by simp [h.length, h'.length]
  lacks {k field} hfield := by
    by_cases hk : k < fs.length
    · rw [List.getElem?_append_left hk] at hfield
      have hw : k ≤ w.length := by
        have := h.length
        omega
      rw [List.take_append_of_le_length hw]
      exact parse_bind_of_lacking (h.lacks hfield)
    · rw [List.getElem?_append_right (by omega)] at hfield
      obtain ⟨j, rfl⟩ : ∃ j, k = w.length + j := ⟨k - w.length, by have := h.length; omega⟩
      rw [h.length, Nat.add_sub_cancel_left] at hfield
      rw [List.take_length_add_append]
      have hgone : parse d (w ++ w'.take j) = .finished (.ok a) (w'.take j) :=
        parse_append hparse _
      exact (parse_bind_of_ok hgone).trans (h'.lacks hfield)

/-- A reader, whatever comes behind it. -/
theorem bind_left (h : Lays d w fs) : Lays (d.bind f) w fs :=
  ⟨h.length, fun hfield => parse_bind_of_lacking (h.lacks hfield)⟩

theorem octets {field : Field} {n : Nat} (hlen : w.length = n) :
    Lays (Decoder.octets field n) w (.replicate w.length field) where
  length := List.length_replicate
  lacks {k field'} hfield := by
    obtain ⟨hk, rfl⟩ := List.getElem?_eq_some_iff.1 hfield
    rw [List.length_replicate] at hk
    rw [List.getElem_replicate]
    have hshort : (w.take k).length < n := by
      rw [List.length_take]
      omega
    exact parse_ask_of_lt (q := ⟨field, n⟩) _ hshort

theorem octets_val {field : Field} {n : Nat} (o : Octets n) :
    Lays (Decoder.octets field n) o.val (.replicate n field) := by
  have hlay : Lays (Decoder.octets field n) o.val _ := octets o.property
  rwa [o.property] at hlay

theorem byte {field : Field} (b : UInt8) : Lays (Decoder.byte field) [b] [field] :=
  bind_left (octets_val (.ofByte b))

theorem word {field : Field} (n : UInt16) :
    Lays (Decoder.word field) (Octets.ofWord n).val (.replicate 2 field) :=
  bind_left (octets_val (.ofWord n))

theorem octets_bind {field : Field} {n : Nat} {f : Octets n → Decoder β} {w' : Bytes}
    (hlen : w'.length = n) (h : Lays (f ⟨w', hlen⟩) w fs) :
    Lays ((Decoder.octets field n).bind f) (w' ++ w) (.replicate w'.length field ++ fs) :=
  (octets hlen).bind (parse_octets_ok_iff.2 (List.append_nil _).symm) h

theorem byte_bind {field : Field} {b : UInt8} {f : UInt8 → Decoder β} (h : Lays (f b) w fs) :
    Lays ((Decoder.byte field).bind f) (b :: w) (field :: fs) :=
  (byte b).bind (parse_byte_ok_iff.2 rfl) h

theorem version_bind {f : Unit → Decoder β} (h : Lays (f ()) w fs) :
    Lays (versionDecoder.bind f) (version :: w) (.version :: fs) :=
  (bind_left (byte version)).bind (parse_versionDecoder_ok_iff.2 rfl) h

theorem subnegotiation_bind {f : Unit → Decoder β} (h : Lays (f ()) w fs) :
    Lays (subnegotiationDecoder.bind f) (subnegotiationVersion :: w)
      (.subnegotiationVersion :: fs) :=
  (bind_left (byte subnegotiationVersion)).bind (parse_subnegotiationDecoder_ok_iff.2 rfl) h

end Lays

end Decoder

open Decoder

namespace Target

theorem lays_hostDecoder {host : Host} {w : Bytes} (h : encodeHost host = .ok w) :
    Lays (hostDecoder host.addressType) w host.fields := by
  match host with
  | .ip (.v4 ip) =>
    cases h
    exact .bind_left (.octets_val ip.octets)
  | .ip (.v6 ip) =>
    cases h
    exact .bind_left (.octets_val ip.octets)
  | .domain name =>
    obtain ⟨size, hzero, hlen, rfl⟩ := encodeHost_domain_eq_ok_iff.1 h
    refine .byte_bind ?_
    rw [if_neg hzero]
    exact .bind_left (.octets hlen.symm)

theorem lays_bodyDecoder {t : Target} {w : Bytes} (h : t.encode = .ok w) :
    ∃ body, w = t.host.addressType.toByte :: body ∧
      Lays (bodyDecoder t.host.addressType) body t.bodyFields := by
  obtain ⟨host, hhost, rfl⟩ := encode_eq_ok_iff.1 h
  have hparse : (hostDecoder t.host.addressType).parse host = .finished (.ok t.host) [] :=
    parse_hostDecoder_ok_iff.2 ⟨rfl, host, hhost, (List.append_nil _).symm⟩
  exact ⟨_, rfl, (lays_hostDecoder hhost).bind hparse (Lays.word t.port).bind_left⟩

theorem lays_decoder {t : Target} {w : Bytes} (h : t.encode = .ok w) :
    Lays Target.decoder w t.fields := by
  obtain ⟨body, rfl, hbody⟩ := lays_bodyDecoder h
  refine .byte_bind ?_
  rw [AddressType.ofByte?_toByte]
  exact hbody

end Target

/-- A message is laid out in its fields. -/
theorem AnyMessage.HasForm.lays {m : AnyMessage} {kind : MessageKind} {w : Bytes} (h : m.HasForm w)
    (hkind : m.kind? = some kind) : Lays kind.decoder w m.fields := by
  cases h <;> cases hkind <;> apply Lays.bind_left
  case methodOffer hcount =>
    exact .version_bind (.byte_bind (.bind_left (.octets hcount.symm)))
  case methodChoice => exact .version_bind (.bind_left (.byte _))
  case login husername hpassword =>
    exact .subnegotiation_bind (.byte_bind (.octets_bind husername.symm (.byte_bind
      (.bind_left (.octets hpassword.symm)))))
  case loginReply => exact .subnegotiation_bind (.bind_left (.byte _))
  case unplaced htype =>
    exact .version_bind (.byte_bind (.byte_bind (.bind_left (.byte _))))
  case request command reserved target w hencode =>
    obtain ⟨body, rfl, hbody⟩ := Target.lays_bodyDecoder hencode
    have hrejection : Request.rejectionOf command ≠ some .addrTypeUnsupported := by
      rw [Request.rejectionOf_eq]
      split <;> simp
    rw [fields, if_neg hrejection]
    refine .version_bind (.byte_bind (.byte_bind (.byte_bind ?_)))
    rw [AddressType.ofByte?_toByte]
    exact hbody.bind_left
  case reply m reserved w hencode =>
    refine .version_bind (.byte_bind ?_)
    rw [ReplyCode.ofByte?_toByte]
    exact .byte_bind (.bind_left (Target.lays_decoder hencode))
  case target hencode => exact Target.lays_decoder hencode

/-! ## Streams cut short -/

namespace MessageKind

variable {kind : MessageKind} {s w : Bytes}

/-- On a stream on which more arrives whenever it waits, exactly these bytes have been read, and the
reader waits again. -/
def Waits (kind : MessageKind) (d : Duplex) (portions : List (List Arrival)) (w : Bytes) : Prop :=
  ∃ room next after, d.attend (Stream.run kind.decoder) portions =
    (.ask (I := Streams) (.read room) next, after) ∧ (d.feed portions.flatten).Takes w after

/-- Of every stream that begins with these bytes the same front is read, with the same result, in
whatever pieces the bytes come and whatever comes behind them. -/
def Settles (kind : MessageKind) (s front : Bytes) (result : Except Failure AnyMessage) : Prop :=
  ∀ (d : Duplex) (portions : List (List Arrival)) (more : Bytes) (later : List Arrival),
    (d.feed portions.flatten).Brings (s ++ more) later → kind.Reads d portions front result

/-- Of every stream that brings these bytes and no more, all of them are read, in whatever pieces
they come. The reader waits for more as long as the stream is open, and fails for want of the field
when it ends. -/
def Lacks (kind : MessageKind) (s : Bytes) (field : Field) : Prop :=
  ∀ (d : Duplex) (portions : List (List Arrival)),
    ((d.feed portions.flatten).Brings s [] → kind.Waits d portions s) ∧
    ∀ later, (d.feed portions.flatten).Brings s (.finish :: later) →
      kind.Reads d portions s (.error (.incomplete field))

/-- A stream that brings bytes has them read when all of them are taken. -/
theorem takes_of_brings {d : Duplex} {later : List Arrival} (h : d.Brings s later) :
    d.Takes s (d.past s later) := by
  obtain ⟨pieces, harrivals, rfl⟩ := h
  refine Duplex.takes_past ?_
  rw [harrivals]
  clear harrivals
  induction pieces with
  | nil => exact .refl _
  | cons piece pieces ih =>
    have hpiece := Source.Yields.take piece.length piece (pieces.map .piece ++ later)
    rw [List.take_length, List.drop_length] at hpiece
    exact hpiece.trans (.blank ih)

theorem settles_of_parse {result : Except Failure AnyMessage} {rest : Bytes}
    (h : kind.decoder.parse s = .finished result rest) :
    ∃ front, front <+: s ∧ kind.Settles s front result := by
  obtain ⟨front, rfl, _⟩ := Decoder.exists_eq_append_of_parse h
  refine ⟨front, List.prefix_append _ _, ?_⟩
  intro d portions more later hbrings
  obtain ⟨w, hw, hreads⟩ := reads_of_parse (Decoder.parse_append h more) hbrings
  rw [List.append_assoc] at hw
  rwa [List.append_cancel_right hw]

theorem lacks_of_parse {field : Field} (h : kind.decoder.parse s = .lacking field) :
    kind.Lacks s field := by
  intro d portions
  constructor
  · intro hbrings
    obtain ⟨room, next, hrun⟩ := Duplex.run_of_lacking hbrings h
    exact ⟨room, next, _, (Duplex.attend_eq _ _ _).trans hrun, takes_of_brings hbrings⟩
  · intro later hbrings
    have hrun := Duplex.run_of_lacking_end hbrings h
    exact ⟨_, (Duplex.attend_eq _ _ _).trans hrun, takes_of_brings hbrings⟩

/-- The bytes of a stream either settle what is read, whatever their pieces are and whatever follows
them, or they lack a field. A message that was read lacks, when it is cut short, the field of the
first byte that is gone. -/
theorem settles_or_lacks (kind : MessageKind) :
    (∀ s, (∃ front result, front <+: s ∧ kind.Settles s front result) ∨
      ∃ field, kind.Lacks s field) ∧
    ∀ d portions w m, kind.Reads d portions w (.ok m) → ∀ k < w.length,
      ∃ field, m.fields[k]? = some field ∧ kind.Lacks (w.take k) field := by
  constructor
  · intro s
    cases h : kind.decoder.parse s with
    | finished result rest =>
      obtain ⟨front, hfront, hsettles⟩ := settles_of_parse h
      exact .inl ⟨front, result, hfront, hsettles⟩
    | lacking field => exact .inr ⟨field, lacks_of_parse h⟩
  · intro d portions w m hreads k hk
    obtain ⟨hkind, hform⟩ := hreads.hasForm
    have hlays := hform.lays hkind
    rw [← hlays.length] at hk
    have hfield := List.getElem?_eq_getElem hk
    exact ⟨_, hfield, lacks_of_parse (hlays.lacks hfield)⟩

/-- Between the two bytes of its port a request lacks its port. -/
theorem lacks_within_port : MessageKind.request.Lacks [5, 1, 0, 1, 127, 0, 0, 1, 0] .port := by
  have hreads : MessageKind.request.Reads
      ⟨⟨[.piece [5, 1, 0, 1, 127, 0, 0, 1, 0, 80]], 0⟩, .empty {}⟩ []
      [5, 1, 0, 1, 127, 0, 0, 1, 0, 80]
      (.ok (.request ⟨1, ⟨.ip (.v4 ⟨⟨[127, 0, 0, 1], rfl⟩⟩), 80⟩, none⟩)) :=
    reads_of_hasForm rfl (.request rfl) ⟨[[5, 1, 0, 1, 127, 0, 0, 1, 0, 80]], rfl, rfl⟩
  obtain ⟨field, hfield, hlacks⟩ := (settles_or_lacks .request).2 _ _ _ _ hreads 9 (by decide)
  cases hfield
  exact hlacks

end MessageKind

end Socks5

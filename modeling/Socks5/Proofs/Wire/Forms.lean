import Socks5.Proofs.Wire.Opening
import Socks5.Wire.Any

/-!
# The forms of a message

Which bytes are read as which message. A target, a choice and the answer to a login have one form,
which is their written one; a request and a reply have one for each reserved byte; a login may have
texts that are empty, and of a request with an unknown address type only that much is read. Main
statement: the bytes that are read as a message are its forms (`MessageKind.parse_ok_iff`).
-/

namespace Socks5

variable {bytes rest : Bytes}

/-! ## Code bytes -/

theorem AddressType.ofByte?_eq_some_iff {b : UInt8} {t : AddressType} :
    ofByte? b = some t ↔ b = t.toByte := by
  constructor
  · intro h
    unfold ofByte? at h
    split at h <;> cases h <;> rfl
  · rintro rfl
    exact ofByte?_toByte t

theorem ReplyCode.ofByte?_eq_some_iff {b : UInt8} {c : ReplyCode} :
    ofByte? b = some c ↔ b = c.toByte := by
  constructor
  · intro h
    unfold ofByte? at h
    split at h <;> cases h <;> rfl
  · rintro rfl
    exact ofByte?_toByte c

/-! ## Fields -/

/-- Bytes behind their number, if there are 1 to 255 of them. -/
theorem counted_eq_ok_iff {bytes w : Bytes} {e : Failure} :
    (if bytes.length = 0 ∨ 255 < bytes.length then .error e
      else .ok (UInt8.ofNat bytes.length :: bytes) : Except Failure Bytes) = .ok w ↔
      ∃ size : UInt8, size ≠ 0 ∧ size.toNat = bytes.length ∧ w = size :: bytes := by
  constructor
  · intro h
    split at h
    · cases h
    next hsize =>
      cases h
      have hlen : (UInt8.ofNat bytes.length).toNat = bytes.length := by
        rw [UInt8.toNat_ofNat']
        omega
      refine ⟨_, ?_, hlen, rfl⟩
      intro hzero
      rw [hzero] at hlen
      exact hsize (.inl hlen.symm)
  · rintro ⟨size, hzero, hlen, rfl⟩
    have hlt := size.toNat_lt
    have hpos : size.toNat ≠ 0 := fun h => hzero (UInt8.toNat_inj.1 h)
    rw [if_neg (by omega), ← hlen, UInt8.ofNat_toNat]

/-- The written form of a text of a login. -/
theorem Login.encodeText_eq_ok_iff {s : String} {cause : Malformed} {w : Bytes} :
    encodeText s cause = .ok w ↔
      ∃ size : UInt8, size ≠ 0 ∧ size.toNat = (Text.Utf8.encode s).length ∧
        w = size :: Text.Utf8.encode s :=
  counted_eq_ok_iff

namespace Decoder

variable {α β : Type}

theorem parse_word_ok_iff {field : Field} {w : UInt16} :
    parse (word field) bytes = .finished (.ok w) rest ↔ bytes = (Octets.ofWord w).val ++ rest := by
  have hword : word field = (octets field 2).bind fun bytes => .done (Octets.word bytes) := rfl
  rw [hword, parse_bind_ok_iff]
  constructor
  · rintro ⟨field, mid, hoctets, hdone⟩
    obtain rfl := parse_octets_ok_iff.1 hoctets
    cases hdone
    rw [Octets.ofWord_word]
  · rintro rfl
    exact ⟨.ofWord w, rest, parse_octets_ok_iff.2 rfl, by rw [Octets.word_ofWord, parse_done]⟩

/-- A message that is only named differently is read from the same bytes. -/
theorem parse_map_ok_iff {d : Decoder α} {f : α → β} {b : β} :
    parse (d.bind fun a => .done (f a)) bytes = .finished (.ok b) rest ↔
      ∃ a, b = f a ∧ parse d bytes = .finished (.ok a) rest := by
  rw [parse_bind_ok_iff]
  constructor
  · rintro ⟨a, mid, ha, hdone⟩
    cases hdone
    exact ⟨a, rfl, ha⟩
  · rintro ⟨a, rfl, ha⟩
    exact ⟨a, rest, ha, rfl⟩

end Decoder

open Decoder

/-! ## Targets -/

namespace Target

/-- A name is its length, which is not 0, and its bytes. -/
theorem parse_domainDecoder_ok_iff {host : Host} :
    domainDecoder.parse bytes = .finished (.ok host) rest ↔
      ∃ name, host = .domain name ∧ ∃ size : UInt8, size ≠ 0 ∧
        size.toNat = (Text.Utf8.encode name).length ∧
        bytes = size :: Text.Utf8.encode name ++ rest := by
  simp only [domainDecoder, Task.bind_eq, Task.pure_eq, parse_bind_ok_iff]
  constructor
  · rintro ⟨size, mid, hsize, hbody⟩
    obtain rfl := parse_byte_ok_iff.1 hsize
    by_cases hzero : size = 0
    · rw [if_pos hzero, parse_fail] at hbody
      cases hbody
    · rw [if_neg hzero] at hbody
      obtain ⟨text, mid, htext, hdone⟩ := parse_bind_ok_iff.1 hbody
      obtain rfl := parse_octets_ok_iff.1 htext
      cases hdecode : Text.Utf8.decode text.val with
      | error fault =>
        rw [hdecode] at hdone
        cases hdone
      | ok name =>
        rw [hdecode] at hdone
        cases hdone
        have hname := Text.Utf8.decode_eq_ok_iff.1 hdecode
        exact ⟨name, rfl, size, hzero, by rw [← hname, text.property], by rw [← hname]; rfl⟩
  · rintro ⟨name, rfl, size, hzero, hlen, rfl⟩
    refine ⟨size, _, parse_byte_ok_iff.2 rfl, ?_⟩
    rw [if_neg hzero]
    refine parse_bind_ok_iff.2 ⟨⟨_, hlen.symm⟩, rest, parse_octets_ok_iff.2 rfl, ?_⟩
    simp only [Text.Utf8.decode_encode, parse_done]

/-- The written form of a name. -/
theorem encodeHost_domain_eq_ok_iff {name : String} {w : Bytes} :
    encodeHost (.domain name) = .ok w ↔
      ∃ size : UInt8, size ≠ 0 ∧ size.toNat = (Text.Utf8.encode name).length ∧
        w = size :: Text.Utf8.encode name :=
  counted_eq_ok_iff

theorem parse_hostDecoder_ok_iff {type : AddressType} {host : Host} :
    (hostDecoder type).parse bytes = .finished (.ok host) rest ↔
      host.addressType = type ∧ ∃ w, encodeHost host = .ok w ∧ bytes = w ++ rest := by
  cases type with
  | ipv4 =>
    refine (parse_map_ok_iff (f := fun octets => Host.ip (.v4 ⟨octets⟩))).trans ?_
    constructor
    · rintro ⟨octets, rfl, hread⟩
      exact ⟨rfl, octets.val, rfl, parse_octets_ok_iff.1 hread⟩
    · rintro ⟨htype, w, hencode, rfl⟩
      match host, htype with
      | .ip (.v4 ip), _ =>
        cases hencode
        exact ⟨ip.octets, rfl, parse_octets_ok_iff.2 rfl⟩
  | ipv6 =>
    refine (parse_map_ok_iff (f := fun octets => Host.ip (.v6 ⟨octets⟩))).trans ?_
    constructor
    · rintro ⟨octets, rfl, hread⟩
      exact ⟨rfl, octets.val, rfl, parse_octets_ok_iff.1 hread⟩
    · rintro ⟨htype, w, hencode, rfl⟩
      match host, htype with
      | .ip (.v6 ip), _ =>
        cases hencode
        exact ⟨ip.octets, rfl, parse_octets_ok_iff.2 rfl⟩
  | domainName =>
    refine parse_domainDecoder_ok_iff.trans ?_
    constructor
    · rintro ⟨name, rfl, size, hzero, hlen, rfl⟩
      exact ⟨rfl, _, encodeHost_domain_eq_ok_iff.2 ⟨size, hzero, hlen, rfl⟩, rfl⟩
    · rintro ⟨htype, w, hencode, rfl⟩
      match host, htype with
      | .domain name, _ =>
        obtain ⟨size, hzero, hlen, rfl⟩ := encodeHost_domain_eq_ok_iff.1 hencode
        exact ⟨name, rfl, size, hzero, hlen, rfl⟩

/-- The written form of a target is its address type, its host and its port. -/
theorem encode_eq_ok_iff {t : Target} {w : Bytes} :
    t.encode = .ok w ↔ ∃ host, encodeHost t.host = .ok host ∧
      w = t.host.addressType.toByte :: host ++ (Octets.ofWord t.port).val := by
  rw [encode]
  cases encodeHost t.host with
  | ok host => simp [bind, Except.bind, pure, Except.pure, eq_comm]
  | error e => simp [bind, Except.bind]

/-- Behind its address type the rest of a target is read. -/
theorem parse_bodyDecoder_ok_iff {type : AddressType} {t : Target} :
    (bodyDecoder type).parse bytes = .finished (.ok t) rest ↔
      t.host.addressType = type ∧ ∃ w, t.encode = .ok w ∧ type.toByte :: bytes = w ++ rest := by
  simp only [bodyDecoder, Task.bind_eq, Task.pure_eq, parse_bind_ok_iff, parse_hostDecoder_ok_iff,
    parse_word_ok_iff, parse_done]
  constructor
  · rintro ⟨host, mid, ⟨htype, w, hencode, rfl⟩, port, last, rfl, hdone⟩
    cases hdone
    exact ⟨htype, _, encode_eq_ok_iff.2 ⟨w, hencode, rfl⟩, by simp [htype]⟩
  · rintro ⟨htype, w, hencode, hbytes⟩
    obtain ⟨host, hhost, rfl⟩ := encode_eq_ok_iff.1 hencode
    obtain ⟨_, rfl⟩ := List.cons.inj hbytes
    exact ⟨t.host, _, ⟨htype, host, hhost, List.append_assoc _ _ _⟩, t.port, rest, rfl, rfl⟩

/-- A target is read from its written form and from nothing else. -/
theorem parse_ok_iff {t : Target} :
    Target.decoder.parse bytes = .finished (.ok t) rest ↔
      ∃ w, t.encode = .ok w ∧ bytes = w ++ rest := by
  simp only [decoder, Task.bind_eq, parse_bind_ok_iff, parse_byte_ok_iff]
  constructor
  · rintro ⟨b, mid, rfl, hbody⟩
    cases htype : AddressType.ofByte? b with
    | none =>
      rw [htype] at hbody
      cases hbody
    | some type =>
      rw [htype] at hbody
      obtain ⟨_, hform⟩ := parse_bodyDecoder_ok_iff.1 hbody
      rwa [AddressType.ofByte?_eq_some_iff.1 htype]
  · rintro ⟨w, hencode, rfl⟩
    obtain ⟨host, hhost, rfl⟩ := encode_eq_ok_iff.1 hencode
    refine ⟨t.host.addressType.toByte, _, rfl, ?_⟩
    rw [AddressType.ofByte?_toByte]
    exact parse_bodyDecoder_ok_iff.2 ⟨rfl, _, hencode, rfl⟩

end Target

/-! ## Messages -/

/-- A choice is the version and the method. -/
theorem MethodChoice.parse_ok_iff {m : MethodChoice} :
    MethodChoice.decoder.parse bytes = .finished (.ok m) rest ↔
      bytes = version :: m.method :: rest := by
  simp only [decoder, Task.bind_eq, Task.pure_eq, parse_bind_ok_iff, parse_byte_ok_iff, parse_done]
  constructor
  · rintro ⟨_, _, hversion, method, _, rfl, hdone⟩
    obtain rfl := parse_versionDecoder_ok_iff.1 hversion
    cases hdone
    rfl
  · rintro rfl
    exact ⟨(), _, parse_versionDecoder_ok_iff.2 rfl, m.method, rest, rfl, rfl⟩

/-- The answer to a login is the version of the subnegotiation and the status. -/
theorem LoginReply.parse_ok_iff {m : LoginReply} :
    LoginReply.decoder.parse bytes = .finished (.ok m) rest ↔
      bytes = subnegotiationVersion :: m.status :: rest := by
  simp only [decoder, Task.bind_eq, Task.pure_eq, parse_bind_ok_iff, parse_byte_ok_iff, parse_done]
  constructor
  · rintro ⟨_, _, hversion, status, _, rfl, hdone⟩
    obtain rfl := parse_subnegotiationDecoder_ok_iff.1 hversion
    cases hdone
    rfl
  · rintro rfl
    exact ⟨(), _, parse_subnegotiationDecoder_ok_iff.2 rfl, m.status, rest, rfl, rfl⟩

/-- A request is the version, its command, any reserved byte, and its target. With an unknown
address type it is no more than that. -/
theorem Request.parse_ok_iff {m : Request} :
    Request.decoder.parse bytes = .finished (.ok m) rest ↔
      ∃ reserved : UInt8,
        (∃ type, AddressType.ofByte? type = none ∧
          m = ⟨m.command, .unspecified, some .addrTypeUnsupported⟩ ∧
          bytes = version :: m.command :: reserved :: type :: rest) ∨
        (m = ⟨m.command, m.target, rejectionOf m.command⟩ ∧
          ∃ w, m.target.encode = .ok w ∧
            bytes = version :: m.command :: reserved :: w ++ rest) := by
  simp only [decoder, Task.bind_eq, Task.pure_eq, parse_bind_ok_iff, parse_byte_ok_iff]
  constructor
  · rintro ⟨_, _, hversion, command, _, rfl, reserved, _, rfl, type, mid, rfl, hbody⟩
    obtain rfl := parse_versionDecoder_ok_iff.1 hversion
    refine ⟨reserved, ?_⟩
    cases htype : AddressType.ofByte? type with
    | none =>
      rw [htype] at hbody
      cases hbody
      exact .inl ⟨type, htype, rfl, rfl⟩
    | some known =>
      rw [htype] at hbody
      obtain ⟨target, rfl, htarget⟩ := parse_map_ok_iff.1 hbody
      obtain ⟨_, w, hencode, hw⟩ := Target.parse_bodyDecoder_ok_iff.1 htarget
      rw [← AddressType.ofByte?_eq_some_iff.1 htype] at hw
      exact .inr ⟨rfl, w, hencode, by simp [hw]⟩
  · rintro ⟨reserved, ⟨type, htype, hm, rfl⟩ | ⟨hm, w, hencode, rfl⟩⟩
    · refine ⟨(), _, parse_versionDecoder_ok_iff.2 rfl, m.command, _, rfl, reserved, _, rfl, type,
        rest, rfl, ?_⟩
      rw [htype, hm]
      rfl
    · obtain ⟨host, hhost, rfl⟩ := Target.encode_eq_ok_iff.1 hencode
      refine ⟨(), _, parse_versionDecoder_ok_iff.2 rfl, m.command, _, rfl, reserved, _, rfl,
        m.target.host.addressType.toByte, _, rfl, ?_⟩
      rw [AddressType.ofByte?_toByte]
      exact parse_map_ok_iff.2
        ⟨m.target, hm, Target.parse_bodyDecoder_ok_iff.2 ⟨rfl, _, hencode, rfl⟩⟩

/-- A reply is the version, its code, any reserved byte, and the bound address. -/
theorem Reply.parse_ok_iff {m : Reply} :
    Reply.decoder.parse bytes = .finished (.ok m) rest ↔
      ∃ (reserved : UInt8) (w : Bytes), m.bound.encode = .ok w ∧
        bytes = version :: m.code.toByte :: reserved :: w ++ rest := by
  simp only [decoder, Task.bind_eq, Task.pure_eq, parse_bind_ok_iff, parse_byte_ok_iff]
  constructor
  · rintro ⟨_, _, hversion, byte, _, rfl, hbody⟩
    obtain rfl := parse_versionDecoder_ok_iff.1 hversion
    cases hcode : ReplyCode.ofByte? byte with
    | none =>
      rw [hcode] at hbody
      cases hbody
    | some code =>
      rw [hcode] at hbody
      obtain rfl := ReplyCode.ofByte?_eq_some_iff.1 hcode
      obtain ⟨reserved, mid, hreserved, hbound⟩ := parse_bind_ok_iff.1 hbody
      obtain rfl := parse_byte_ok_iff.1 hreserved
      obtain ⟨bound, rfl, hread⟩ := parse_map_ok_iff.1 hbound
      obtain ⟨w, hencode, rfl⟩ := Target.parse_ok_iff.1 hread
      exact ⟨reserved, w, hencode, rfl⟩
  · rintro ⟨reserved, w, hencode, rfl⟩
    refine ⟨(), _, parse_versionDecoder_ok_iff.2 rfl, m.code.toByte, _, rfl, ?_⟩
    rw [ReplyCode.ofByte?_toByte]
    exact parse_bind_ok_iff.2 ⟨reserved, _, parse_byte_ok_iff.2 rfl,
      parse_map_ok_iff.2 ⟨m.bound, rfl, Target.parse_ok_iff.2 ⟨w, hencode, rfl⟩⟩⟩

/-! ## Messages of any kind -/

/-- The kind of a message that can be read from a stream. -/
def AnyMessage.kind? : AnyMessage → Option MessageKind
  | .methodOffer _ => some .methodOffer
  | .methodChoice _ => some .methodChoice
  | .login _ => some .login
  | .loginReply _ => some .loginReply
  | .request _ => some .request
  | .reply _ => some .reply
  | .target _ => some .target
  | .datagramHeader _ => none

/-- The bytes that are read as a message. -/
inductive AnyMessage.HasForm : AnyMessage → Bytes → Prop where
  | methodOffer {m : MethodOffer} {count : UInt8} (hcount : count.toNat = m.methods.length) :
      HasForm (.methodOffer m) (version :: count :: m.methods)
  | methodChoice {m : MethodChoice} : HasForm (.methodChoice m) [version, m.method]
  | login {m : Login} {usernameSize passwordSize : UInt8}
      (husername : usernameSize.toNat = (Text.Utf8.encode m.username).length)
      (hpassword : passwordSize.toNat = (Text.Utf8.encode m.password).length) :
      HasForm (.login m) (subnegotiationVersion :: usernameSize :: Text.Utf8.encode m.username ++
        passwordSize :: Text.Utf8.encode m.password)
  | loginReply {m : LoginReply} : HasForm (.loginReply m) [subnegotiationVersion, m.status]
  | unplaced {command reserved type : UInt8} (htype : AddressType.ofByte? type = none) :
      HasForm (.request ⟨command, .unspecified, some .addrTypeUnsupported⟩)
        [version, command, reserved, type]
  | request {command reserved : UInt8} {target : Target} {w : Bytes}
      (hencode : target.encode = .ok w) :
      HasForm (.request ⟨command, target, Request.rejectionOf command⟩)
        (version :: command :: reserved :: w)
  | reply {m : Reply} {reserved : UInt8} {w : Bytes} (hencode : m.bound.encode = .ok w) :
      HasForm (.reply m) (version :: m.code.toByte :: reserved :: w)
  | target {t : Target} {w : Bytes} (hencode : t.encode = .ok w) : HasForm (.target t) w

namespace MessageKind

variable {kind : MessageKind} {m : AnyMessage} {w : Bytes}

/-- What is read comes in a form of the message. -/
theorem exists_hasForm_of_parse (h : kind.decoder.parse bytes = .finished (.ok m) rest) :
    m.kind? = some kind ∧ ∃ w, m.HasForm w ∧ bytes = w ++ rest := by
  cases kind with
  | methodOffer =>
    obtain ⟨offer, rfl, hread⟩ := parse_map_ok_iff.1 h
    obtain ⟨count, hcount, rfl⟩ := MethodOffer.parse_ok_iff.1 hread
    exact ⟨rfl, _, .methodOffer hcount, rfl⟩
  | methodChoice =>
    obtain ⟨choice, rfl, hread⟩ := parse_map_ok_iff.1 h
    exact ⟨rfl, _, .methodChoice, MethodChoice.parse_ok_iff.1 hread⟩
  | login =>
    obtain ⟨login, rfl, hread⟩ := parse_map_ok_iff.1 h
    obtain ⟨usernameSize, passwordSize, husername, hpassword, rfl⟩ := Login.parse_ok_iff.1 hread
    exact ⟨rfl, _, .login husername hpassword, rfl⟩
  | loginReply =>
    obtain ⟨answer, rfl, hread⟩ := parse_map_ok_iff.1 h
    exact ⟨rfl, _, .loginReply, LoginReply.parse_ok_iff.1 hread⟩
  | request =>
    obtain ⟨request, rfl, hread⟩ := parse_map_ok_iff.1 h
    obtain ⟨reserved, ⟨type, htype, hm, rfl⟩ | ⟨hm, w, hencode, rfl⟩⟩ :=
      Request.parse_ok_iff.1 hread
    · rw [hm]
      exact ⟨rfl, _, .unplaced htype, rfl⟩
    · rw [hm]
      exact ⟨rfl, _, .request hencode, rfl⟩
  | reply =>
    obtain ⟨reply, rfl, hread⟩ := parse_map_ok_iff.1 h
    obtain ⟨reserved, w, hencode, rfl⟩ := Reply.parse_ok_iff.1 hread
    exact ⟨rfl, _, .reply hencode, rfl⟩
  | target =>
    obtain ⟨target, rfl, hread⟩ := parse_map_ok_iff.1 h
    obtain ⟨w, hencode, rfl⟩ := Target.parse_ok_iff.1 hread
    exact ⟨rfl, w, .target hencode, rfl⟩

/-- Every form of a message is read. -/
theorem parse_of_hasForm (hkind : m.kind? = some kind) (h : m.HasForm w) (rest : Bytes) :
    kind.decoder.parse (w ++ rest) = .finished (.ok m) rest := by
  cases h <;> cases hkind
  case methodOffer hcount =>
    exact parse_map_ok_iff.2 ⟨_, rfl, MethodOffer.parse_ok_iff.2 ⟨_, hcount, rfl⟩⟩
  case methodChoice => exact parse_map_ok_iff.2 ⟨_, rfl, MethodChoice.parse_ok_iff.2 rfl⟩
  case login husername hpassword =>
    exact parse_map_ok_iff.2 ⟨_, rfl, Login.parse_ok_iff.2 ⟨_, _, husername, hpassword, rfl⟩⟩
  case loginReply => exact parse_map_ok_iff.2 ⟨_, rfl, LoginReply.parse_ok_iff.2 rfl⟩
  case unplaced htype =>
    exact parse_map_ok_iff.2 ⟨_, rfl, Request.parse_ok_iff.2 ⟨_, .inl ⟨_, htype, rfl, rfl⟩⟩⟩
  case request hencode =>
    exact parse_map_ok_iff.2 ⟨_, rfl, Request.parse_ok_iff.2 ⟨_, .inr ⟨rfl, _, hencode, rfl⟩⟩⟩
  case reply hencode =>
    exact parse_map_ok_iff.2 ⟨_, rfl, Reply.parse_ok_iff.2 ⟨_, _, hencode, rfl⟩⟩
  case target hencode =>
    exact parse_map_ok_iff.2 ⟨_, rfl, Target.parse_ok_iff.2 ⟨_, hencode, rfl⟩⟩

/-- The bytes that are read as a message are its forms. -/
theorem parse_ok_iff :
    kind.decoder.parse bytes = .finished (.ok m) rest ↔
      m.kind? = some kind ∧ ∃ w, m.HasForm w ∧ bytes = w ++ rest := by
  constructor
  · exact exists_hasForm_of_parse
  · rintro ⟨hkind, w, hform, rfl⟩
    exact parse_of_hasForm hkind hform rest

end MessageKind

end Socks5

import Socks5.Proofs.Stream.Reading

/-!
# What opens a session, byte by byte

Which bytes are read as an offer of methods and which as a login. A reader of a message is taken
apart field by field: it comes to a value over some bytes exactly if they begin with the fields of
that value. Main statements: the bytes of an offer (`MethodOffer.parse_ok_iff`) and those of a login
(`Login.parse_ok_iff`).
-/

namespace Socks5

namespace Decoder

variable {α β : Type} {d : Decoder α} {f : α → Decoder β} {bytes rest : Bytes}

/-- The second of two readers reads what the first one has left. -/
theorem parse_bind_of_ok {a : α} (h : parse d bytes = .finished (.ok a) rest) :
    parse (d.bind f) bytes = parse (f a) rest := by
  induction d generalizing bytes with
  | done b =>
    cases h
    rfl
  | fail e => cases h
  | ask q next ih =>
    by_cases hq : q.size ≤ bytes.length
    · rw [parse_ask_of_le next hq] at h
      exact (parse_ask_of_le (fun octets => (next octets).bind f) hq).trans (ih _ h)
    · rw [parse_ask_of_lt next (by omega)] at h
      cases h

/-- Where the first of two readers fails, both do. -/
theorem parse_bind_of_error {e : Failure} (h : parse d bytes = .finished (.error e) rest) :
    parse (d.bind f) bytes = .finished (.error e) rest := by
  induction d generalizing bytes with
  | done b => cases h
  | fail e =>
    cases h
    rfl
  | ask q next ih =>
    by_cases hq : q.size ≤ bytes.length
    · rw [parse_ask_of_le next hq] at h
      exact (parse_ask_of_le _ hq).trans (ih _ h)
    · rw [parse_ask_of_lt next (by omega)] at h
      cases h

/-- The second of two readers in a row goes on where the first has come to a value. -/
theorem parse_bind_ok_iff {b : β} :
    parse (d.bind f) bytes = .finished (.ok b) rest ↔
      ∃ a mid, parse d bytes = .finished (.ok a) mid ∧
        parse (f a) mid = .finished (.ok b) rest := by
  induction d generalizing bytes with
  | done a =>
    constructor
    · intro h
      exact ⟨a, bytes, rfl, h⟩
    · intro hp
      obtain ⟨_, _, h, h'⟩ := hp
      cases h
      exact h'
  | fail e =>
    constructor
    · intro h
      cases h
    · intro hp
      obtain ⟨_, _, h, _⟩ := hp
      cases h
  | ask q next ih =>
    by_cases hq : q.size ≤ bytes.length
    · have hboth : parse ((Task.ask (I := Fields) q next).bind f) bytes =
          parse ((next (.ofTake q.size bytes hq)).bind f) (bytes.drop q.size) :=
        parse_ask_of_le _ hq
      rw [hboth, parse_ask_of_le next hq]
      exact ih _
    · have hq : bytes.length < q.size := by omega
      have hboth : parse ((Task.ask (I := Fields) q next).bind f) bytes = .lacking q.field :=
        parse_ask_of_lt _ hq
      rw [hboth, parse_ask_of_lt next hq]
      constructor
      · intro h
        cases h
      · intro hp
        obtain ⟨_, _, h, _⟩ := hp
        cases h

theorem parse_octets_ok_iff {field : Field} {n : Nat} {octets : Octets n} :
    parse (Decoder.octets field n) bytes = .finished (.ok octets) rest ↔
      bytes = octets.val ++ rest := by
  constructor
  · intro h
    by_cases hn : n ≤ bytes.length
    · have hread : parse (Decoder.octets field n) bytes =
          .finished (.ok (.ofTake n bytes hn)) (bytes.drop n) :=
        parse_ask_of_le (q := ⟨field, n⟩) _ hn
      rw [hread] at h
      injection h with hvalue hrest
      injection hvalue with hvalue
      rw [← hvalue, ← hrest]
      exact (List.take_append_drop n bytes).symm
    · have hread : parse (Decoder.octets field n) bytes = .lacking field :=
        parse_ask_of_lt (q := ⟨field, n⟩) _ (Nat.lt_of_not_le hn)
      rw [hread] at h
      cases h
  · rintro rfl
    exact parse_ask_append (q := ⟨field, n⟩) _ octets rest

theorem parse_byte_ok_iff {field : Field} {b : UInt8} :
    parse (byte field) bytes = .finished (.ok b) rest ↔ bytes = b :: rest := by
  cases bytes with
  | nil =>
    constructor
    · intro h
      cases h
    · intro h
      cases h
  | cons c bytes =>
    have hone : parse (byte field) (c :: bytes) = .finished (.ok c) bytes :=
      parse_ask_append (q := ⟨field, 1⟩) _ (.ofByte c) bytes
    rw [hone]
    constructor
    · intro h
      injection h with hvalue hrest
      injection hvalue with hvalue
      rw [hvalue, hrest]
    · rintro h
      injection h with hvalue hrest
      rw [hvalue, hrest]

end Decoder

open Decoder

variable {bytes rest : Bytes}

/-- A reader that checks its first byte goes on behind it if it is the right one. -/
theorem parse_check_ok_iff {field : Field} {expected : UInt8} {fault : UInt8 → Failure} :
    parse ((byte field).bind fun b => if b = expected then .done () else .fail (fault b)) bytes =
        .finished (.ok ()) rest ↔ bytes = expected :: rest := by
  rw [parse_bind_ok_iff]
  constructor
  · intro hp
    obtain ⟨b, mid, hbyte, hcheck⟩ := hp
    obtain rfl := parse_byte_ok_iff.1 hbyte
    by_cases hb : b = expected
    · rw [if_pos hb, parse_done] at hcheck
      injection hcheck with _ hrest
      rw [hb, hrest]
    · rw [if_neg hb, parse_fail] at hcheck
      cases hcheck
  · rintro rfl
    exact ⟨expected, rest, parse_byte_ok_iff.2 rfl, by rw [if_pos rfl, parse_done]⟩

theorem parse_versionDecoder_ok_iff :
    versionDecoder.parse bytes = .finished (.ok ()) rest ↔ bytes = version :: rest :=
  parse_check_ok_iff

theorem parse_subnegotiationDecoder_ok_iff :
    subnegotiationDecoder.parse bytes = .finished (.ok ()) rest ↔
      bytes = subnegotiationVersion :: rest :=
  parse_check_ok_iff

/-- An offer is the version, the number of its methods, and the methods. -/
theorem MethodOffer.parse_ok_iff {offer : MethodOffer} :
    MethodOffer.decoder.parse bytes = .finished (.ok offer) rest ↔
      ∃ count : UInt8, count.toNat = offer.methods.length ∧
        bytes = version :: count :: offer.methods ++ rest := by
  simp only [MethodOffer.decoder, Task.bind_eq, Task.pure_eq, parse_bind_ok_iff, parse_done]
  constructor
  · intro hp
    obtain ⟨_, b₁, hversion, count, b₂, hcount, methods, b₃, hmethods, hdone⟩ := hp
    obtain rfl := parse_versionDecoder_ok_iff.1 hversion
    obtain rfl := parse_byte_ok_iff.1 hcount
    obtain rfl := parse_octets_ok_iff.1 hmethods
    injection hdone with hoffer hrest
    injection hoffer with hoffer
    subst hoffer hrest
    exact ⟨count, methods.property.symm, rfl⟩
  · intro hp
    obtain ⟨count, hcount, rfl⟩ := hp
    exact ⟨(), _, parse_versionDecoder_ok_iff.2 rfl, count, _, parse_byte_ok_iff.2 rfl,
      ⟨offer.methods, hcount.symm⟩, rest, parse_octets_ok_iff.2 rfl, rfl⟩

/-- Bytes are taken as a text if they are the text's bytes. -/
theorem Login.parse_textOf_ok_iff {text : Bytes} {cause : Malformed} {s : String} :
    (Login.textOf text cause).parse bytes = .finished (.ok s) rest ↔
      text = Text.Utf8.encode s ∧ bytes = rest := by
  rw [← Text.Utf8.decode_eq_ok_iff]
  unfold Login.textOf
  cases Text.Utf8.decode text with
  | ok t =>
    simp only [Task.pure_eq, parse_done]
    constructor
    · intro h
      cases h
      exact ⟨rfl, rfl⟩
    · intro hp
      obtain ⟨h, rfl⟩ := hp
      cases h
      rfl
  | error fault =>
    constructor
    · intro h
      cases h
    · intro hp
      obtain ⟨h, _⟩ := hp
      cases h

/-- A login is the version of the subnegotiation, the name behind its length, and the password
behind its length. -/
theorem Login.parse_ok_iff {login : Login} :
    Login.decoder.parse bytes = .finished (.ok login) rest ↔
      ∃ usernameSize passwordSize : UInt8,
        usernameSize.toNat = (Text.Utf8.encode login.username).length ∧
        passwordSize.toNat = (Text.Utf8.encode login.password).length ∧
        bytes = subnegotiationVersion :: usernameSize :: Text.Utf8.encode login.username ++
          passwordSize :: Text.Utf8.encode login.password ++ rest := by
  simp only [Login.decoder, Task.bind_eq, Task.pure_eq, parse_bind_ok_iff, parse_done]
  constructor
  · intro hp
    obtain ⟨_, b₁, hversion, usernameSize, b₂, husernameSize, username, b₃, husername,
      passwordSize, b₄, hpasswordSize, password, b₅, hpassword, name, b₆, hname, word, b₇, hword,
      hdone⟩ := hp
    obtain rfl := parse_subnegotiationDecoder_ok_iff.1 hversion
    obtain rfl := parse_byte_ok_iff.1 husernameSize
    obtain rfl := parse_octets_ok_iff.1 husername
    obtain rfl := parse_byte_ok_iff.1 hpasswordSize
    obtain rfl := parse_octets_ok_iff.1 hpassword
    obtain ⟨husername, rfl⟩ := Login.parse_textOf_ok_iff.1 hname
    obtain ⟨hpassword, rfl⟩ := Login.parse_textOf_ok_iff.1 hword
    injection hdone with hlogin hrest
    injection hlogin with hlogin
    subst hlogin hrest
    refine ⟨usernameSize, passwordSize, ?_, ?_, ?_⟩
    · rw [← husername, username.property]
    · rw [← hpassword, password.property]
    · simp [husername, hpassword]
  · intro hp
    obtain ⟨usernameSize, passwordSize, husername, hpassword, rfl⟩ := hp
    exact ⟨(), _, parse_subnegotiationDecoder_ok_iff.2 rfl, usernameSize, _,
      parse_byte_ok_iff.2 rfl, ⟨_, husername.symm⟩, _,
      parse_octets_ok_iff.2 (List.append_assoc _ (passwordSize :: _) rest),
      passwordSize, _, parse_byte_ok_iff.2 rfl, ⟨_, hpassword.symm⟩, rest,
      parse_octets_ok_iff.2 rfl, login.username, rest, Login.parse_textOf_ok_iff.2 ⟨rfl, rfl⟩,
      login.password, rest, Login.parse_textOf_ok_iff.2 ⟨rfl, rfl⟩, rfl⟩

/-! ## Bytes of no message -/

/-- No message can be read from bytes, however they go on. -/
def Unreadable (α : Type) [Message α] (bytes : Bytes) : Prop :=
  ∀ a rest, (Message.decoder (α := α)).parse bytes ≠ .finished (.ok a) rest

end Socks5

import Socks5.Proofs.Stream.Pieces
import Socks5.Proofs.Wire.Forms
import Socks5.Wire.Buffer

/-!
# Writing and reading back

A message that can be written is read back from the bytes that it has put into a buffer, whatever
stands before and behind them and in whatever pieces they come (`AnyMessage.reads_of_encode`). What
was read is written as it came, but for the reserved byte (`MessageKind.encode_of_reads`). The two
kinds of message for which there is no such return are those that have no written form to return
to: a login with an empty text, and a request whose target could not be read.
-/

namespace Socks5

variable {m : AnyMessage} {kind : MessageKind} {w : Bytes}

/-! ## What can be written -/

/-- A text of 1 to 255 bytes. -/
def Text.Utf8.Fits (s : String) : Prop := 1 ≤ size s ∧ size s ≤ 255

/-- An address, or a name that fits. -/
def Host.IsWritable : Host → Prop
  | .ip _ => True
  | .domain name => Text.Utf8.Fits name

/-- At most 255 methods, and texts that fit. -/
def AnyMessage.IsWritable : AnyMessage → Prop
  | .methodOffer m => m.methods.length ≤ 255
  | .methodChoice _ | .loginReply _ => True
  | .login m => Text.Utf8.Fits m.username ∧ Text.Utf8.Fits m.password
  | .request m => m.target.host.IsWritable
  | .reply m => m.bound.host.IsWritable
  | .target t => t.host.IsWritable
  | .datagramHeader h => h.target.host.IsWritable

namespace Text.Utf8

/-- A text can be written behind its length exactly if it fits. -/
theorem exists_counted_iff {s : String} {e : Failure} :
    (∃ w, (if (encode s).length = 0 ∨ 255 < (encode s).length then .error e
      else .ok (UInt8.ofNat (encode s).length :: encode s) : Except Failure Bytes) = .ok w) ↔
      Fits s := by
  rw [length_encode]
  by_cases hsize : size s = 0 ∨ 255 < size s
  · simp only [if_pos hsize, reduceCtorEq, exists_false, false_iff]
    rintro ⟨hpos, hle⟩
    omega
  · simp only [if_neg hsize, Except.ok.injEq, exists_eq', true_iff]
    constructor <;> omega

theorem size_eq_zero_iff {s : String} : size s = 0 ↔ s = "" := String.utf8ByteSize_eq_zero_iff

end Text.Utf8

/-- What is made of a part can be written if the part can. -/
theorem map_eq_ok_iff {α β : Type} {x : Except Failure α} {f : α → β} {b : β} :
    (do let a ← x; return f a) = Except.ok b ↔ ∃ a, x = .ok a ∧ b = f a := by
  cases x <;> simp [bind, Except.bind, pure, Except.pure, eq_comm]

theorem Login.encode_eq_ok_iff {m : Login} :
    m.encode = .ok w ↔ ∃ username password, encodeText m.username .usernameSize = .ok username ∧
      encodeText m.password .passwordSize = .ok password ∧
      w = subnegotiationVersion :: username ++ password := by
  rw [encode]
  cases encodeText m.username .usernameSize with
  | error e => simp [bind, Except.bind]
  | ok username =>
    refine map_eq_ok_iff.trans ?_
    simp

/-- A login that cannot be written is no message of the protocol. -/
theorem Login.kind_of_encode {m : Login} {e : Failure} (h : m.encode = .error e) :
    e.kind = .protocol := by
  have htext : ∀ {s : String} {cause : Malformed} {e : Failure}, encodeText s cause = .error e →
      e.kind = .protocol := by
    intro s cause e h
    dsimp only [encodeText] at h
    split at h
    · cases h
      rfl
    · cases h
  unfold encode at h
  cases husername : encodeText m.username .usernameSize with
  | error e' =>
    rw [husername] at h
    cases h
    exact htext husername
  | ok username =>
    rw [husername] at h
    cases hpassword : encodeText m.password .passwordSize with
    | error e' =>
      rw [hpassword] at h
      cases h
      exact htext hpassword
    | ok password =>
      rw [hpassword] at h
      cases h

theorem Target.exists_encode_iff {t : Target} :
    (∃ w, t.encode = .ok w) ↔ t.host.IsWritable := by
  have hhost : (∃ w, encodeHost t.host = .ok w) ↔ t.host.IsWritable := by
    match t.host with
    | .ip (.v4 ip) => exact iff_of_true ⟨_, rfl⟩ trivial
    | .ip (.v6 ip) => exact iff_of_true ⟨_, rfl⟩ trivial
    | .domain name => exact Text.Utf8.exists_counted_iff
  rw [← hhost]
  constructor
  · rintro ⟨w, hencode⟩
    obtain ⟨host, hencode, _⟩ := encode_eq_ok_iff.1 hencode
    exact ⟨host, hencode⟩
  · rintro ⟨host, hencode⟩
    exact ⟨_, encode_eq_ok_iff.2 ⟨host, hencode, rfl⟩⟩

/-- A message can be written exactly if its parts fit. -/
theorem AnyMessage.exists_encode_iff : (∃ w, m.encode = .ok w) ↔ m.IsWritable := by
  have hmap : ∀ {t : Target} {f : Bytes → Bytes},
      (∃ w, (do let bytes ← t.encode; return f bytes) = Except.ok w) ↔ t.host.IsWritable := by
    intro t f
    rw [← Target.exists_encode_iff]
    simp only [map_eq_ok_iff]
    constructor
    · rintro ⟨_, bytes, hencode, _⟩
      exact ⟨bytes, hencode⟩
    · rintro ⟨bytes, hencode⟩
      exact ⟨_, bytes, hencode, rfl⟩
  cases m with
  | methodOffer m =>
    simp only [encode, MethodOffer.encode, IsWritable]
    by_cases hcount : 255 < m.methods.length <;> simp [hcount]
    omega
  | methodChoice m => exact iff_of_true ⟨_, rfl⟩ trivial
  | login m =>
    simp only [encode, IsWritable, Login.encode_eq_ok_iff]
    constructor
    · rintro ⟨_, username, password, husername, hpassword, _⟩
      exact ⟨Text.Utf8.exists_counted_iff.1 ⟨username, husername⟩,
        Text.Utf8.exists_counted_iff.1 ⟨password, hpassword⟩⟩
    · rintro ⟨husername, hpassword⟩
      obtain ⟨username, husername⟩ := Text.Utf8.exists_counted_iff.2 husername
      obtain ⟨password, hpassword⟩ := Text.Utf8.exists_counted_iff.2 hpassword
      exact ⟨_, username, password, husername, hpassword, rfl⟩
  | loginReply m => exact iff_of_true ⟨_, rfl⟩ trivial
  | request m => exact hmap
  | reply m => exact hmap
  | target t => exact Target.exists_encode_iff
  | datagramHeader h => exact hmap

/-! ## Reading -/

/-- From a stream on which more arrives whenever it waits, exactly these bytes are read, with this
result. -/
def MessageKind.Reads (kind : MessageKind) (d : Duplex) (portions : List (List Arrival)) (w : Bytes)
    (result : Except Failure AnyMessage) : Prop :=
  ∃ after, d.attend (Stream.run kind.decoder) portions = (.ofExcept result, after) ∧
    (d.feed portions.flatten).Takes w after

namespace MessageKind

variable {d : Duplex} {portions : List (List Arrival)}

/-- A reader that comes to a message has taken some bytes. -/
theorem exists_takes {after : Duplex}
    (h : d.attend (Stream.run kind.decoder) portions = (.done m, after)) :
    ∃ w, (d.feed portions.flatten).Takes w after ∧ kind.decoder.parse w = .finished (.ok m) [] := by
  rw [Duplex.attend_eq] at h
  obtain ⟨w, left, hyields, rfl, hparse⟩ := Duplex.exists_of_run_ok h
  exact ⟨w, Duplex.takes_past hyields, hparse⟩

/-- What is taken is a form of the message. -/
theorem Reads.hasForm (h : kind.Reads d portions w (.ok m)) :
    m.kind? = some kind ∧ m.HasForm w := by
  obtain ⟨after, hattend, htakes⟩ := h
  obtain ⟨w', htakes', hparse⟩ := exists_takes hattend
  obtain rfl := htakes.unique htakes'
  obtain ⟨hkind, w', hform, hw⟩ := parse_ok_iff.1 hparse
  rw [hw, List.append_nil]
  exact ⟨hkind, hform⟩

/-- Bytes that settle a reading are read, in whatever pieces they come and whatever follows. -/
theorem reads_of_parse {bytes rest : Bytes} {later : List Arrival}
    {result : Except Failure AnyMessage} (hparse : kind.decoder.parse bytes = .finished result rest)
    (hbrings : (d.feed portions.flatten).Brings bytes later) :
    ∃ w, bytes = w ++ rest ∧ kind.Reads d portions w result := by
  obtain ⟨w, left, hbytes, hyields, hrun⟩ := Duplex.run_of_finished hbrings hparse
  exact ⟨w, hbytes, _, (Duplex.attend_eq _ _ _).trans hrun, Duplex.takes_past hyields⟩

/-- Every form of a message is read, whatever follows. -/
theorem reads_of_hasForm {r : Bytes} {later : List Arrival} (hkind : m.kind? = some kind)
    (hform : m.HasForm w) (hbrings : (d.feed portions.flatten).Brings (w ++ r) later) :
    kind.Reads d portions w (.ok m) := by
  obtain ⟨front, hfront, hreads⟩ := reads_of_parse (parse_of_hasForm hkind hform r) hbrings
  rwa [List.append_cancel_right hfront]

end MessageKind

/-! ## What was written -/

namespace AnyMessage

/-- What is read of what a message is written as. A request is marked on reading if its command is
none of the three. -/
def asRead : AnyMessage → AnyMessage
  | .request m => .request
      ⟨m.command, m.target, if m.command ∈ [1, 2, 3] then none else some .commandNotSupported⟩
  | m => m

theorem kind?_asRead (m : AnyMessage) : m.asRead.kind? = m.kind? := by cases m <;> rfl

end AnyMessage

theorem Request.rejectionOf_eq (command : UInt8) :
    rejectionOf command = if command ∈ [1, 2, 3] then none else some .commandNotSupported := by
  by_cases h : command ∈ [1, 2, 3]
  · rw [if_pos h]
    simp only [List.mem_cons, List.not_mem_nil, or_false] at h
    rcases h with rfl | rfl | rfl <;> rfl
  · have hnone : Command.ofByte? command = none := by
      unfold Command.ofByte?
      split <;> simp_all
    rw [if_neg h, rejectionOf, hnone]

/-- What is written is a form of what is read. -/
theorem AnyMessage.hasForm_of_encode (hkind : m.kind? = some kind) (h : m.encode = .ok w) :
    m.asRead.HasForm w := by
  cases m with
  | methodOffer m =>
    rw [encode, MethodOffer.encode] at h
    split at h
    · cases h
    next hcount =>
      cases h
      refine .methodOffer ?_
      rw [UInt8.toNat_ofNat']
      omega
  | methodChoice m =>
    cases h
    exact .methodChoice
  | login m =>
    obtain ⟨username, password, husername, hpassword, rfl⟩ := Login.encode_eq_ok_iff.1 h
    obtain ⟨_, _, husernameSize, rfl⟩ := Login.encodeText_eq_ok_iff.1 husername
    obtain ⟨_, _, hpasswordSize, rfl⟩ := Login.encodeText_eq_ok_iff.1 hpassword
    exact .login husernameSize hpasswordSize
  | loginReply m =>
    cases h
    exact .loginReply
  | request m =>
    obtain ⟨target, htarget, rfl⟩ := map_eq_ok_iff.1 h
    rw [asRead, ← Request.rejectionOf_eq]
    exact .request htarget
  | reply m =>
    obtain ⟨bound, hbound, rfl⟩ := map_eq_ok_iff.1 h
    exact .reply hbound
  | target t => exact .target h
  | datagramHeader h => cases hkind

/-- A login is read back from its bytes, whatever stands behind them. -/
theorem Login.parse_of_encode {m : Login} (h : m.encode = .ok w) (rest : Bytes) :
    Login.decoder.parse (w ++ rest) = .finished (.ok m) rest := by
  have hparse : MessageKind.login.decoder.parse (w ++ rest) = .finished (.ok (.login m)) rest :=
    MessageKind.parse_of_hasForm rfl (AnyMessage.hasForm_of_encode (m := .login m) rfl h) rest
  obtain ⟨_, hm, hread⟩ := Decoder.parse_map_ok_iff.1 hparse
  cases hm
  exact hread

theorem Reply.parse_of_encode {m : Reply} (h : m.encode = .ok w) (rest : Bytes) :
    Reply.decoder.parse (w ++ rest) = .finished (.ok m) rest := by
  have hparse : MessageKind.reply.decoder.parse (w ++ rest) = .finished (.ok (.reply m)) rest :=
    MessageKind.parse_of_hasForm rfl (AnyMessage.hasForm_of_encode (m := .reply m) rfl h) rest
  obtain ⟨_, hm, hread⟩ := Decoder.parse_map_ok_iff.1 hparse
  cases hm
  exact hread

/-- So is a request for a known command. -/
theorem Request.parse_of_encode {command : Command} {target : Target}
    (h : (Request.of command target).encode = .ok w) (rest : Bytes) :
    Request.decoder.parse (w ++ rest) = .finished (.ok (Request.of command target)) rest := by
  have hform := AnyMessage.hasForm_of_encode (m := .request (.of command target)) rfl h
  have hread :
      (AnyMessage.request (.of command target)).asRead = .request (.of command target) := by
    cases command <;> rfl
  rw [hread] at hform
  have hparse : MessageKind.request.decoder.parse (w ++ rest) =
      .finished (.ok (.request (.of command target))) rest :=
    MessageKind.parse_of_hasForm rfl hform rest
  obtain ⟨_, hm, hread⟩ := Decoder.parse_map_ok_iff.1 hparse
  cases hm
  exact hread

/-- What is written is read back, whatever stands before it in the buffer and comes behind it on the
stream, and in whatever pieces. Nothing is written of what does not fit. -/
theorem AnyMessage.reads_of_encode (hkind : m.kind? = some kind) :
    ((∃ w, m.encode = .ok w) ↔ m.IsWritable) ∧
    (∀ e buffer, m.encode = .error e → (m.write.into buffer).1 = .error e) ∧
    ∀ w, m.encode = .ok w →
      (∀ buffer, m.write.into buffer = (.ok (), buffer ++ w)) ∧
      ∀ (d : Duplex) (portions : List (List Arrival)) (r : Bytes) (later : List Arrival),
        (d.feed portions.flatten).Brings (w ++ r) later →
          kind.Reads d portions w (.ok m.asRead) := by
  refine ⟨exists_encode_iff, ?_, ?_⟩
  · intro e buffer hencode
    rw [into_write, hencode]
  · intro w hencode
    constructor
    · intro buffer
      rw [into_write, hencode]
    · intro d portions r later hbrings
      have hform := hasForm_of_encode hkind hencode
      exact MessageKind.reads_of_hasForm ((kind?_asRead m).trans hkind) hform hbrings

/-- A request in three pieces, with a byte behind it. Its command is not known, which is noted on
reading. -/
theorem AnyMessage.reads_of_encode_unknown_command :
    MessageKind.request.Reads ⟨⟨[.piece [5, 9]], 0⟩, .empty {}⟩
      [[.piece [0, 3, 1, 97]], [.piece [0, 80, 170], .finish]] [5, 9, 0, 3, 1, 97, 0, 80]
      (.ok (.request ⟨9, ⟨.domain "a", 80⟩, some .commandNotSupported⟩)) :=
  ((reads_of_encode (m := .request ⟨9, ⟨.domain "a", 80⟩, none⟩) rfl).2.2 _ rfl).2 _ _ [170]
    [.finish] ⟨[[5, 9], [0, 3, 1, 97], [0, 80, 170]], rfl, rfl⟩

/-! ## What was read -/

/-- The bytes of a message with its reserved byte, if it has one, set to 0. -/
def MessageKind.clear : MessageKind → Bytes → Bytes
  | .request, w | .reply, w => w.set 2 0
  | _, w => w

namespace AnyMessage

/-- A login with an empty text. -/
def IsTextless : AnyMessage → Prop
  | .login m => m.username = "" ∨ m.password = ""
  | _ => False

/-- A request that is refused for the type of its address. -/
def IsUnplaced : AnyMessage → Prop
  | .request m => m.rejection = some .addrTypeUnsupported
  | _ => False

/-- A message is written as it was read, but for the reserved byte. -/
theorem HasForm.encode_eq (h : m.HasForm w) (hkind : m.kind? = some kind) (htext : ¬ m.IsTextless)
    (hplace : ¬ m.IsUnplaced) : m.encode = .ok (kind.clear w) := by
  cases h with
  | @methodOffer m count hcount =>
    cases hkind
    have hlt := count.toNat_lt
    rw [encode, MethodOffer.encode, if_neg (by omega), ← hcount, UInt8.ofNat_toNat]
    rfl
  | methodChoice =>
    cases hkind
    rfl
  | @login m usernameSize passwordSize husername hpassword =>
    cases hkind
    have hne : ∀ {size : UInt8} {s : String}, size.toNat = (Text.Utf8.encode s).length → s ≠ "" →
        size ≠ 0 := by
      rintro size s hsize hs rfl
      exact hs (Text.Utf8.size_eq_zero_iff.1 hsize.symm)
    obtain ⟨hu, hp⟩ := not_or.1 htext
    exact Login.encode_eq_ok_iff.2 ⟨_, _,
      Login.encodeText_eq_ok_iff.2 ⟨usernameSize, hne husername hu, husername, rfl⟩,
      Login.encodeText_eq_ok_iff.2 ⟨passwordSize, hne hpassword hp, hpassword, rfl⟩, rfl⟩
  | loginReply =>
    cases hkind
    rfl
  | unplaced => exact absurd rfl hplace
  | request hencode =>
    cases hkind
    exact map_eq_ok_iff.2 ⟨_, hencode, rfl⟩
  | reply hencode =>
    cases hkind
    exact map_eq_ok_iff.2 ⟨_, hencode, rfl⟩
  | target hencode =>
    cases hkind
    exact hencode

theorem exists_error_of_isTextless (h : m.IsTextless) : ∃ e, m.encode = .error e := by
  cases hencode : m.encode with
  | error e => exact ⟨e, rfl⟩
  | ok w =>
    have hwritable := exists_encode_iff.1 ⟨w, hencode⟩
    match m, h with
    | .login m, .inl hempty =>
      have := Text.Utf8.size_eq_zero_iff.2 hempty
      have := hwritable.1.1
      omega
    | .login m, .inr hempty =>
      have := Text.Utf8.size_eq_zero_iff.2 hempty
      have := hwritable.2.1
      omega

/-- A request is refused for the type of its address exactly if that is unknown. -/
theorem HasForm.isUnplaced_iff (h : m.HasForm w) (hkind : m.kind? = some kind) :
    m.IsUnplaced ↔
      kind = .request ∧ ∃ type, w[3]? = some type ∧ AddressType.ofByte? type = none := by
  cases h with
  | unplaced htype =>
    cases hkind
    exact iff_of_true rfl ⟨rfl, _, rfl, htype⟩
  | @request command reserved target bytes hencode =>
    cases hkind
    refine iff_of_false ?_ ?_
    · rw [IsUnplaced, Request.rejectionOf_eq]
      split <;> simp
    · rintro ⟨_, type, htype, hnone⟩
      obtain ⟨host, _, rfl⟩ := Target.encode_eq_ok_iff.1 hencode
      cases htype
      rw [AddressType.ofByte?_toByte] at hnone
      cases hnone
  | _ =>
    cases hkind
    exact iff_of_false id (fun hp => by cases hp.1)

theorem HasForm.eq_of_isUnplaced (h : m.HasForm w) (hplace : m.IsUnplaced) :
    ∃ command reserved type, w = [version, command, reserved, type] ∧
      m = .request ⟨command, .unspecified, some .addrTypeUnsupported⟩ := by
  cases h with
  | unplaced => exact ⟨_, _, _, rfl, rfl⟩
  | request =>
    rw [IsUnplaced, Request.rejectionOf_eq] at hplace
    split at hplace <;> cases hplace
  | _ => cases hplace

end AnyMessage

/-- The written form of a login whose texts have these lengths, also if they are empty. -/
def Login.form (m : Login) (usernameSize passwordSize : UInt8) : Bytes :=
  subnegotiationVersion :: usernameSize :: Text.Utf8.encode m.username ++
    passwordSize :: Text.Utf8.encode m.password

/-- What is read from a stream, and what is written of it. -/
structure MessageKind.WritesBack (kind : MessageKind) : Prop where
  /-- A reader that comes to a message has taken some bytes. -/
  takes {d : Duplex} {portions : List (List Arrival)} {m : AnyMessage} {after : Duplex} :
    d.attend (Stream.run kind.decoder) portions = (.done m, after) →
      ∃ w, (d.feed portions.flatten).Takes w after
  /-- They are written as they came, with 0 for the reserved byte. -/
  encode_eq {d : Duplex} {portions : List (List Arrival)} {w : Bytes} {m : AnyMessage} :
    kind.Reads d portions w (.ok m) → ¬ m.IsTextless → ¬ m.IsUnplaced →
      m.encode = .ok (kind.clear w)
  /-- But for the reserved byte, a message comes in one form only. -/
  clear_eq {d d' : Duplex} {portions portions' : List (List Arrival)} {w w' : Bytes}
      {m : AnyMessage} :
    kind.Reads d portions w (.ok m) → kind.Reads d' portions' w' (.ok m) →
      ¬ m.IsTextless → ¬ m.IsUnplaced → kind.clear w = kind.clear w'
  /-- A login with an empty text is read. -/
  reads_textless {d : Duplex} {portions : List (List Arrival)} {m : Login}
      {usernameSize passwordSize : UInt8} {r : Bytes} {later : List Arrival} :
    usernameSize.toNat = Text.Utf8.size m.username →
      passwordSize.toNat = Text.Utf8.size m.password →
        (d.feed portions.flatten).Brings (m.form usernameSize passwordSize ++ r) later →
          MessageKind.login.Reads d portions (m.form usernameSize passwordSize) (.ok (.login m))
  /-- It cannot be written. -/
  error_of_textless {m : AnyMessage} : m.IsTextless → ∃ e, m.encode = .error e
  /-- The requests that are refused for the type of their address are those in which it is
  unknown. -/
  isUnplaced_iff {d : Duplex} {portions : List (List Arrival)} {w : Bytes} {m : AnyMessage} :
    kind.Reads d portions w (.ok m) → (m.IsUnplaced ↔
      kind = .request ∧ ∃ type, w[3]? = some type ∧ AddressType.ofByte? type = none)
  /-- Four bytes are read of such a request, and nothing is known of its target. -/
  eq_of_unplaced {d : Duplex} {portions : List (List Arrival)} {w : Bytes} {m : AnyMessage} :
    kind.Reads d portions w (.ok m) → m.IsUnplaced →
      ∃ command reserved type, w = [version, command, reserved, type] ∧
        m = .request ⟨command, ⟨.ip (.v4 .unspecified), 0⟩, some .addrTypeUnsupported⟩
  /-- It is read whatever its command is. -/
  reads_unplaced {d : Duplex} {portions : List (List Arrival)} {command reserved type : UInt8}
      {r : Bytes} {later : List Arrival} :
    AddressType.ofByte? type = none →
      (d.feed portions.flatten).Brings ([version, command, reserved, type] ++ r) later →
        MessageKind.request.Reads d portions [version, command, reserved, type]
          (.ok (.request ⟨command, ⟨.ip (.v4 .unspecified), 0⟩, some .addrTypeUnsupported⟩))

/-- What is read from a stream is written as it came, with 0 for the reserved byte. There are two
exceptions, and both are read: a login with an empty text cannot be written, and of a request with
an unknown address type four bytes are read, which do not say its target. -/
theorem MessageKind.encode_of_reads (kind : MessageKind) : kind.WritesBack where
  takes hattend := by
    obtain ⟨w, htakes, _⟩ := exists_takes hattend
    exact ⟨w, htakes⟩
  encode_eq hreads htext hplace := by
    obtain ⟨hkind, hform⟩ := hreads.hasForm
    exact hform.encode_eq hkind htext hplace
  clear_eq hreads hreads' htext hplace := by
    obtain ⟨hkind, hform⟩ := hreads.hasForm
    obtain ⟨_, hform'⟩ := hreads'.hasForm
    have hencode := hform.encode_eq hkind htext hplace
    rw [hform'.encode_eq hkind htext hplace] at hencode
    exact (Except.ok.inj hencode).symm
  reads_textless husername hpassword hbrings :=
    reads_of_hasForm rfl (.login husername hpassword) hbrings
  error_of_textless := AnyMessage.exists_error_of_isTextless
  isUnplaced_iff hreads := by
    obtain ⟨hkind, hform⟩ := hreads.hasForm
    exact hform.isUnplaced_iff hkind
  eq_of_unplaced hreads hplace := hreads.hasForm.2.eq_of_isUnplaced hplace
  reads_unplaced htype hbrings := reads_of_hasForm rfl (.unplaced htype) hbrings

/-- A request in two pieces, with a reserved byte that is not 0. -/
theorem MessageKind.encode_of_reads_reserved :
    MessageKind.request.Reads ⟨⟨[.piece [5, 1, 7], .piece [3, 1, 97, 0, 80, 9]], 0⟩, .empty {}⟩ []
      [5, 1, 7, 3, 1, 97, 0, 80] (.ok (.request ⟨1, ⟨.domain "a", 80⟩, none⟩)) ∧
    AnyMessage.encode (.request ⟨1, ⟨.domain "a", 80⟩, none⟩) =
      .ok [5, 1, 0, 3, 1, 97, 0, 80] := by
  have hreads : MessageKind.request.Reads
      ⟨⟨[.piece [5, 1, 7], .piece [3, 1, 97, 0, 80, 9]], 0⟩, .empty {}⟩ []
      [5, 1, 7, 3, 1, 97, 0, 80] (.ok (.request ⟨1, ⟨.domain "a", 80⟩, none⟩)) :=
    reads_of_hasForm rfl (.request rfl)
      ⟨[[5, 1, 7], [3, 1, 97, 0, 80, 9]], rfl, rfl⟩
  exact ⟨hreads, (encode_of_reads .request).encode_eq hreads id nofun⟩

end Socks5

import Socks5.Wire.Any

/-!
# Writing into a buffer

A message is written behind what a buffer holds, field by field. One that cannot be written leaves
there what comes before its fault. Main statement: what is put into a buffer is the bytes of the
message (`AnyMessage.into_write`), which are therefore what it puts into an empty one
(`AnyMessage.encode_eq`).
-/

namespace Socks5

/-- Writes into a buffer, up to what cannot be written. -/
abbrev Writer := ExceptT Failure (StateM Bytes)

namespace Writer

variable {α β : Type}

/-- Puts bytes at the end of the buffer. -/
def put (bytes : Bytes) : Writer Unit := modify (· ++ bytes)

/-- Writes into a buffer: what comes of it, and the buffer afterwards. -/
def into (w : Writer α) (buffer : Bytes) : Except Failure α × Bytes := w.run.run buffer

@[simp] theorem into_put (bytes buffer : Bytes) :
    (put bytes).into buffer = (.ok (), buffer ++ bytes) := rfl

@[simp] theorem into_throw (e : Failure) (buffer : Bytes) :
    (throw e : Writer α).into buffer = (.error e, buffer) := rfl

@[simp] theorem into_liftExcept (e : Except Failure α) (buffer : Bytes) :
    (liftM e : Writer α).into buffer = (e, buffer) := rfl

/-- One part after another. -/
@[simp] theorem into_bind (w : Writer α) (f : α → Writer β) (buffer : Bytes) :
    (w >>= f).into buffer =
      match w.into buffer with
      | (.ok a, buffer) => (f a).into buffer
      | (.error e, buffer) => (.error e, buffer) := by
  rcases h : w.into buffer with ⟨_ | a, after⟩
  · simp only [into] at h ⊢
    rw [ExceptT.run_bind, StateT.run_bind, h]
    rfl
  · simp only [into] at h ⊢
    rw [ExceptT.run_bind, StateT.run_bind, h]
    rfl

end Writer

open Writer (put)

/-! ## Targets -/

/-- Writes a host behind its address type. -/
def Host.write : Host → Writer Unit
  | .ip (.v4 address) => put address.octets.val
  | .ip (.v6 address) => put address.octets.val
  | .domain name => do
    let bytes := Text.Utf8.encode name
    if bytes.length = 0 ∨ 255 < bytes.length then throw (.malformed (.domainSize bytes.length))
    put [UInt8.ofNat bytes.length]
    put bytes

/-- Writes a target. -/
def Target.write (t : Target) : Writer Unit := do
  put [t.host.addressType.toByte]
  t.host.write
  put (Octets.ofWord t.port).val

/-- A host is put into the buffer as a whole or not at all. -/
theorem Host.into_write (host : Host) (buffer : Bytes) :
    host.write.into buffer =
      match Target.encodeHost host with
      | .ok bytes => (.ok (), buffer ++ bytes)
      | .error e => (.error e, buffer) := by
  match host with
  | .ip (.v4 _) => rfl
  | .ip (.v6 _) => rfl
  | .domain name =>
    by_cases hsize : (Text.Utf8.encode name).length = 0 ∨ 255 < (Text.Utf8.encode name).length
    · simp only [write, Target.encodeHost, if_pos hsize, Writer.into_bind, Writer.into_throw]
    · simp only [write, Target.encodeHost, if_neg hsize, Writer.into_bind, Writer.into_put,
        List.append_assoc, List.singleton_append]

/-- A target that cannot be written leaves its address type behind. -/
theorem Target.into_write (t : Target) (buffer : Bytes) :
    t.write.into buffer = ((t.appendTo buffer).2, (t.appendTo buffer).1) := by
  simp only [write, Writer.into_bind, Writer.into_put, Host.into_write, appendTo, encode]
  cases Target.encodeHost t.host with
  | ok bytes => simp [bind, Except.bind, pure, Except.pure]
  | error e => rfl

/-! ## Messages -/

/-- Writes an offer. -/
def MethodOffer.write (m : MethodOffer) : Writer Unit := do
  if 255 < m.methods.length then throw (.malformed .tooManyMethods)
  put [version, UInt8.ofNat m.methods.length]
  put m.methods

/-- Writes a choice. -/
def MethodChoice.write (m : MethodChoice) : Writer Unit := put [version, m.method]

/-- Writes a login. Both texts are measured before anything is written. -/
def Login.write (m : Login) : Writer Unit := do
  let username ← liftM (encodeText m.username .usernameSize)
  let password ← liftM (encodeText m.password .passwordSize)
  put [subnegotiationVersion]
  put username
  put password

/-- Writes the answer to a login. -/
def LoginReply.write (m : LoginReply) : Writer Unit := put [subnegotiationVersion, m.status]

/-- Writes a request. -/
def Request.write (m : Request) : Writer Unit := do
  put [version, m.command, reserved]
  m.target.write

/-- Writes a reply. -/
def Reply.write (m : Reply) : Writer Unit := do
  put [version, m.code.toByte, reserved]
  m.bound.write

/-- Writes the header of a datagram. -/
def DatagramHeader.write (h : DatagramHeader) : Writer Unit := do
  put [reserved, reserved, h.fragment]
  h.target.write

namespace AnyMessage

/-- Writes a message. -/
def write : AnyMessage → Writer Unit
  | .methodOffer m => m.write
  | .methodChoice m => m.write
  | .login m => m.write
  | .loginReply m => m.write
  | .request m => m.write
  | .reply m => m.write
  | .target m => m.write
  | .datagramHeader m => m.write

/-- What a message that cannot be written leaves behind: of a target, what comes before the
address. -/
def stub : AnyMessage → Bytes
  | .methodOffer _ | .methodChoice _ | .login _ | .loginReply _ => []
  | .request m => [version, m.command, reserved, m.target.host.addressType.toByte]
  | .reply m => [version, m.code.toByte, reserved, m.bound.host.addressType.toByte]
  | .target t => [t.host.addressType.toByte]
  | .datagramHeader h => [reserved, reserved, h.fragment, h.target.host.addressType.toByte]

/-- What stands in front of a target is written in any case. -/
theorem into_put_target (front : Bytes) (t : Target) (buffer : Bytes) :
    (do put front; t.write : Writer Unit).into buffer =
      match (do let bytes ← t.encode; return front ++ bytes : Except Failure Bytes) with
      | .ok bytes => (.ok (), buffer ++ bytes)
      | .error e => (.error e, buffer ++ (front ++ [t.host.addressType.toByte])) := by
  rw [Writer.into_bind, Writer.into_put]
  show t.write.into (buffer ++ front) = _
  rw [Target.into_write, Target.appendTo]
  cases t.encode <;> simp [bind, Except.bind, pure, Except.pure]

/-- A message is put into the buffer as a whole, or else its stub. -/
theorem into_write (m : AnyMessage) (buffer : Bytes) :
    m.write.into buffer =
      match m.encode with
      | .ok bytes => (.ok (), buffer ++ bytes)
      | .error e => (.error e, buffer ++ m.stub) := by
  cases m with
  | methodOffer m =>
    by_cases hcount : 255 < m.methods.length <;>
      simp [write, MethodOffer.write, encode, MethodOffer.encode, stub, hcount]
  | methodChoice m => rfl
  | login m =>
    simp only [write, Login.write, encode, Login.encode, Writer.into_bind, Writer.into_liftExcept]
    cases Login.encodeText m.username .usernameSize with
    | error e => simp [bind, Except.bind, stub]
    | ok username =>
      cases Login.encodeText m.password .passwordSize <;>
        simp [bind, Except.bind, pure, Except.pure, stub]
  | loginReply m => rfl
  | request m => exact into_put_target _ m.target buffer
  | reply m => exact into_put_target _ m.bound buffer
  | target t =>
    refine (Target.into_write t buffer).trans ?_
    rw [Target.appendTo]
    cases h : t.encode <;> simp [encode, stub, h]
  | datagramHeader h => exact into_put_target _ h.target buffer

/-- The bytes of a message are what it puts into an empty buffer. -/
theorem encode_eq (m : AnyMessage) :
    m.encode = match m.write.into [] with
      | (.ok (), bytes) => .ok bytes
      | (.error e, _) => .error e := by
  rw [into_write]
  cases m.encode <;> simp

end AnyMessage

end Socks5

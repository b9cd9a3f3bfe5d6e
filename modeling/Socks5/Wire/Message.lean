import Socks5.Wire.Address

/-!
# Messages

The messages of a session, each with its written form and its reader. The offer of methods and the
choice among them open a session; a login and its answer settle a password; a request names a
command and its target, and a reply tells what became of it.
-/

namespace Socks5

/-- Reads the version that opens a message. -/
def versionDecoder : Decoder Unit := do
  let byte ← Decoder.byte .version
  if byte = version then return () else .fail (.unsupportedVersion byte)

/-- Reads the version that opens a message of the password subnegotiation. -/
def subnegotiationDecoder : Decoder Unit := do
  let byte ← Decoder.byte .subnegotiationVersion
  if byte = subnegotiationVersion then return () else .fail (.malformed (.subnegotiation byte))

/-! ## Choosing a method -/

/-- The methods that a client offers, in the order of its preference. -/
structure MethodOffer where
  methods : List MethodId
deriving DecidableEq

namespace MethodOffer

/-- The bytes of an offer. -/
def encode (m : MethodOffer) : Except Failure Bytes :=
  if 255 < m.methods.length then .error (.malformed .tooManyMethods)
  else .ok (version :: UInt8.ofNat m.methods.length :: m.methods)

/-- Reads an offer. -/
def decoder : Decoder MethodOffer := do
  versionDecoder
  let count ← Decoder.byte .methodCount
  let methods ← Decoder.octets .methods count.toNat
  return ⟨methods.val⟩

end MethodOffer

/-- The method that a server chooses. -/
structure MethodChoice where
  method : MethodId
deriving DecidableEq

namespace MethodChoice

/-- Whether a method was chosen at all. -/
def isAcceptable (m : MethodChoice) : Bool := m.method ≠ .noAcceptable

/-- The bytes of a choice. -/
def encode (m : MethodChoice) : Except Failure Bytes := .ok [version, m.method]

/-- Reads a choice. -/
def decoder : Decoder MethodChoice := do
  versionDecoder
  return ⟨← Decoder.byte .selectedMethod⟩

end MethodChoice

/-! ## Logging in -/

/-- A username and a password. -/
structure Login where
  username : String
  password : String
deriving DecidableEq

namespace Login

/-- A text behind the length of its bytes, if it has 1 to 255 of them. -/
def encodeText (s : String) (cause : Malformed) : Except Failure Bytes :=
  let bytes := Text.Utf8.encode s
  if bytes.length = 0 ∨ 255 < bytes.length then .error (.malformed cause)
  else .ok (UInt8.ofNat bytes.length :: bytes)

/-- The bytes of a login. -/
def encode (m : Login) : Except Failure Bytes := do
  let username ← encodeText m.username .usernameSize
  let password ← encodeText m.password .passwordSize
  return subnegotiationVersion :: username ++ password

/-- Takes bytes as text. -/
def textOf (bytes : Bytes) (cause : Malformed) : Decoder String :=
  match Text.Utf8.decode bytes with
  | .ok s => return s
  | .error _ => .fail (.malformed cause)

/-- Reads a login. Its bytes are taken as text only after all of them have been read. -/
def decoder : Decoder Login := do
  subnegotiationDecoder
  let usernameSize ← Decoder.byte .usernameLength
  let username ← Decoder.octets .username usernameSize.toNat
  let passwordSize ← Decoder.byte .passwordLength
  let password ← Decoder.octets .password passwordSize.toNat
  return ⟨← textOf username.val .usernameText, ← textOf password.val .passwordText⟩

/-- A login as it is shown in logs: the password stays hidden. -/
def shown (m : Login) : String :=
  s!"UserPassRequest \x7b username: {Text.Quoted.encode m.username}, .. \x7d"

end Login

/-- The answer to a login. -/
structure LoginReply where
  status : UInt8
deriving DecidableEq

namespace LoginReply

/-- The answer that lets a client in. -/
def accepted : LoginReply := ⟨0⟩

/-- The answer that turns a client away. -/
def denied : LoginReply := ⟨1⟩

/-- Whether an answer lets the client in. -/
def isAccepted (m : LoginReply) : Bool := m.status = 0

/-- The bytes of an answer. -/
def encode (m : LoginReply) : Except Failure Bytes := .ok [subnegotiationVersion, m.status]

/-- Reads an answer. -/
def decoder : Decoder LoginReply := do
  subnegotiationDecoder
  return ⟨← Decoder.byte .status⟩

end LoginReply

/-! ## Commands -/

/-- A command and its target. A request that can be read but not served carries the code of the
reply that refuses it. -/
structure Request where
  command : UInt8
  target : Target
  rejection : Option ReplyCode
deriving DecidableEq

namespace Request

/-- A request for a known command. -/
def of (command : Command) (target : Target) : Request := ⟨command.toByte, target, none⟩

/-- The command of a request, if it is known. -/
def command? (m : Request) : Option Command := Command.ofByte? m.command

/-- Whether a request can be served. -/
def isValid (m : Request) : Bool := m.rejection.isNone

/-- The bytes of a request. -/
def encode (m : Request) : Except Failure Bytes := do
  let target ← m.target.encode
  return [version, m.command, reserved] ++ target

/-- The code that refuses an unknown command. -/
def rejectionOf (command : UInt8) : Option ReplyCode :=
  match Command.ofByte? command with
  | some _ => none
  | none => some .commandNotSupported

/-- Reads a request. Behind an unknown address type nothing can be read, since its length is not
known. -/
def decoder : Decoder Request := do
  versionDecoder
  let command ← Decoder.byte .command
  let _ ← Decoder.byte .reserved
  let type ← Decoder.byte .addressType
  match AddressType.ofByte? type with
  | none => return ⟨command, .unspecified, some .addrTypeUnsupported⟩
  | some type =>
    let target ← Target.bodyDecoder type
    return ⟨command, target, rejectionOf command⟩

end Request

/-- What became of a command, and the address that goes with it. -/
structure Reply where
  code : ReplyCode
  bound : Target
deriving DecidableEq

namespace Reply

/-- The reply to a command that is carried out at an address. -/
def success (bound : SocketAddr) : Reply := ⟨.succeeded, .ofSocketAddr bound⟩

/-- The reply to a command that is not carried out. -/
def failure (code : ReplyCode) : Reply := ⟨code, .unspecified⟩

/-- The bytes of a reply. -/
def encode (m : Reply) : Except Failure Bytes := do
  let bound ← m.bound.encode
  return [version, m.code.toByte, reserved] ++ bound

/-- Reads a reply. -/
def decoder : Decoder Reply := do
  versionDecoder
  let byte ← Decoder.byte .reply
  match ReplyCode.ofByte? byte with
  | none => .fail (.malformed (.replyCode byte))
  | some code =>
    let _ ← Decoder.byte .reserved
    let bound ← Target.decoder
    return ⟨code, bound⟩

end Reply

/-! ## Messages in general -/

/-- A message has a written form, if it can be written at all, and a reader. -/
class Message (α : Type) where
  encode : α → Except Failure Bytes
  decoder : Decoder α

instance : Message MethodOffer := ⟨MethodOffer.encode, MethodOffer.decoder⟩
instance : Message MethodChoice := ⟨MethodChoice.encode, MethodChoice.decoder⟩
instance : Message Login := ⟨Login.encode, Login.decoder⟩
instance : Message LoginReply := ⟨LoginReply.encode, LoginReply.decoder⟩
instance : Message Request := ⟨Request.encode, Request.decoder⟩
instance : Message Reply := ⟨Reply.encode, Reply.decoder⟩
instance : Message Target := ⟨Target.encode, Target.decoder⟩

end Socks5

/-!
# Code bytes

The bytes that stand for something on the wire: address types, authentication methods, commands
and reply codes. Each kind has its byte, its name and the reading of a byte.
-/

namespace Socks5

/-- The protocol version that opens every message but those of the password subnegotiation. -/
def version : UInt8 := 5

/-- The version of the username and password subnegotiation. -/
def subnegotiationVersion : UInt8 := 1

/-- The value of a reserved byte. -/
def reserved : UInt8 := 0

/-! ## Address types -/

/-- How an address is written. -/
inductive AddressType where
  | ipv4
  | domainName
  | ipv6
deriving DecidableEq, Repr

namespace AddressType

/-- The byte of an address type. -/
def toByte : AddressType → UInt8
  | .ipv4 => 1
  | .domainName => 3
  | .ipv6 => 4

/-- The address type of a byte. -/
def ofByte? : UInt8 → Option AddressType
  | 1 => some .ipv4
  | 3 => some .domainName
  | 4 => some .ipv6
  | _ => none

/-- The name of an address type. -/
def name : AddressType → String
  | .ipv4 => "IPv4"
  | .domainName => "DomainName"
  | .ipv6 => "IPv6"

@[simp] theorem ofByte?_toByte (t : AddressType) : ofByte? t.toByte = some t := by cases t <;> rfl

end AddressType

/-! ## Authentication methods -/

/-- The byte that identifies an authentication method. -/
abbrev MethodId := UInt8

namespace MethodId

/-- No authentication at all. -/
def noAuth : MethodId := 0

/-- Username and password. -/
def userPass : MethodId := 2

/-- The answer to an offer without an acceptable method. -/
def noAcceptable : MethodId := 255

/-- The name of a method id with a fixed meaning. -/
def name? : MethodId → Option String
  | 0 => some "NoAuth"
  | 1 => some "Gssapi"
  | 2 => some "UserPass"
  | 255 => some "NoAcceptable"
  | _ => none

end MethodId

/-! ## Commands -/

/-- What a client asks for. -/
inductive Command where
  | connect
  | bind
  | udpAssociate
deriving DecidableEq, Repr

namespace Command

/-- The byte of a command. -/
def toByte : Command → UInt8
  | .connect => 1
  | .bind => 2
  | .udpAssociate => 3

/-- The command of a byte. -/
def ofByte? : UInt8 → Option Command
  | 1 => some .connect
  | 2 => some .bind
  | 3 => some .udpAssociate
  | _ => none

/-- The name of a command. -/
def name : Command → String
  | .connect => "Connect"
  | .bind => "Bind"
  | .udpAssociate => "UdpAssociate"

@[simp] theorem ofByte?_toByte (c : Command) : ofByte? c.toByte = some c := by cases c <;> rfl

end Command

/-! ## Reply codes -/

/-- The outcome that a command reply announces. -/
inductive ReplyCode where
  | succeeded
  | serverFailure
  | connectionNotAllowed
  | networkUnreachable
  | hostUnreachable
  | connectionRefused
  | ttlExpired
  | commandNotSupported
  | addrTypeUnsupported
deriving DecidableEq, Repr

namespace ReplyCode

/-- The byte of a reply code. -/
def toByte : ReplyCode → UInt8
  | .succeeded => 0
  | .serverFailure => 1
  | .connectionNotAllowed => 2
  | .networkUnreachable => 3
  | .hostUnreachable => 4
  | .connectionRefused => 5
  | .ttlExpired => 6
  | .commandNotSupported => 7
  | .addrTypeUnsupported => 8

/-- The reply code of a byte. -/
def ofByte? : UInt8 → Option ReplyCode
  | 0 => some .succeeded
  | 1 => some .serverFailure
  | 2 => some .connectionNotAllowed
  | 3 => some .networkUnreachable
  | 4 => some .hostUnreachable
  | 5 => some .connectionRefused
  | 6 => some .ttlExpired
  | 7 => some .commandNotSupported
  | 8 => some .addrTypeUnsupported
  | _ => none

/-- The name of a reply code. -/
def name : ReplyCode → String
  | .succeeded => "Succeeded"
  | .serverFailure => "ServerFailure"
  | .connectionNotAllowed => "ConnectionNotAllowed"
  | .networkUnreachable => "NetworkUnreachable"
  | .hostUnreachable => "HostUnreachable"
  | .connectionRefused => "ConnectionRefused"
  | .ttlExpired => "TtlExpired"
  | .commandNotSupported => "CommandNotSupported"
  | .addrTypeUnsupported => "AddrTypeUnsupported"

@[simp] theorem ofByte?_toByte (c : ReplyCode) : ofByte? c.toByte = some c := by cases c <;> rfl

end ReplyCode

end Socks5

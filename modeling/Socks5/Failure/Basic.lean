import Socks5.Failure.Io
import Socks5.Target
import Socks5.Text.Quoted

/-!
# Failures of a session

Why a message, a command or a session fails, as causes. The kind of a failure decides how it is
logged, its reply code what the client is told, and `Failure.message` alone holds its wording.
-/

namespace Socks5

/-! ## Fields of messages -/

/-- A field of a message, as it is named when a stream ends before the field is complete. -/
inductive Field where
  | version
  | methodCount
  | methods
  | selectedMethod
  | subnegotiationVersion
  | usernameLength
  | username
  | passwordLength
  | password
  | status
  | command
  | reserved
  | addressType
  | ipv4Address
  | domainLength
  | domainName
  | ipv6Address
  | port
  | reply
  | udpHeader
  | called (name : String)
deriving DecidableEq, Repr

namespace Field

/-- The name of a field. -/
def name : Field → String
  | .version => "version"
  | .methodCount => "method count"
  | .methods => "methods"
  | .selectedMethod => "selected method"
  | .subnegotiationVersion => "subnegotiation version"
  | .usernameLength => "username length"
  | .username => "username"
  | .passwordLength => "password length"
  | .password => "password"
  | .status => "status"
  | .command => "command"
  | .reserved => "reserved"
  | .addressType => "address type"
  | .ipv4Address => "IPv4 address"
  | .domainLength => "domain length"
  | .domainName => "domain name"
  | .ipv6Address => "IPv6 address"
  | .port => "port"
  | .reply => "reply"
  | .udpHeader => "UDP header"
  | .called name => name

end Field

/-! ## Causes -/

/-- What is wrong with a message that is complete. -/
inductive Malformed where
  | tooManyMethods
  | subnegotiation (byte : UInt8)
  | usernameSize
  | passwordSize
  | usernameText
  | passwordText
  | emptyDomain
  | domainSize (size : Nat)
  | domainText (fault : Text.Utf8.Fault)
  | packetDomainText (fault : Text.Utf8.Fault)
  | replyCode (byte : UInt8)
  | udpReserved
  | methodNotOffered (id : MethodId)
  | relayByName (bound : Target)
  | other (text : String)
deriving DecidableEq

namespace Malformed

/-- The wording of a cause. -/
def message : Malformed → String
  | .tooManyMethods => "at most 255 methods can be offered"
  | .subnegotiation byte =>
    s!"invalid username/password subnegotiation version: {Text.Hex.prefixed byte}"
  | .usernameSize => "username must be 1-255 bytes"
  | .passwordSize => "password must be 1-255 bytes"
  | .usernameText => "username is not valid UTF-8"
  | .passwordText => "password is not valid UTF-8"
  | .emptyDomain => "domain length cannot be 0"
  | .domainSize size => s!"domain name must be 1-255 bytes, got {size}"
  | .domainText fault => s!"domain name is not UTF-8: {fault.message}"
  | .packetDomainText fault => s!"invalid domain: {fault.message}"
  | .replyCode byte => s!"unassigned reply code {Text.Hex.prefixed byte}"
  | .udpReserved => "UDP header reserved bytes must be zero"
  | .methodNotOffered id => s!"proxy selected method {Text.Hex.prefixed id} that was not offered"
  | .relayByName bound => s!"UDP relay announced as domain {bound.text}"
  | .other text => text

end Malformed

/-- Why an authentication does not come about. -/
inductive Denial where
  | refused (user reason : String)
  | credentialsMissing
  | credentialsRejected (status : UInt8)
  | other (text : String)
deriving DecidableEq

namespace Denial

/-- The wording of a cause. -/
def message : Denial → String
  | .refused user reason => s!"user {Text.Quoted.encode user}: {reason}"
  | .credentialsMissing => "username/password selected but no credentials set"
  | .credentialsRejected status =>
    s!"proxy rejected credentials (status {Text.Hex.prefixed status})"
  | .other text => text

end Denial

/-! ## Failures -/

/-- The kinds of failure that a log tells apart. -/
inductive FailureKind where
  | protocol
  | authentication
  | network
  | relay
  | resource
  | closed
deriving DecidableEq, Repr

namespace FailureKind

/-- The name of a kind. -/
def name : FailureKind → String
  | .protocol => "Protocol"
  | .authentication => "Authentication"
  | .network => "Network"
  | .relay => "Relay"
  | .resource => "Resource"
  | .closed => "Closed"

end FailureKind

/-- Why a message cannot be read or written, a command not be carried out, or a session ends. -/
inductive Failure where
  | incomplete (field : Field)
  | unsupportedVersion (byte : UInt8)
  | unsupportedAddressType (byte : UInt8)
  | fragmented (fragment : UInt8)
  | malformed (cause : Malformed)
  | rejected (code : ReplyCode)
  | authentication (cause : Denial)
  | noAcceptableMethods
  | network (code : ReplyCode) (cause : IoFailure)
  | relay (cause : IoFailure)
  | resource (cause : IoFailure)
  | aborted (reason : String)
  | closed
  | io (cause : IoFailure)
deriving DecidableEq

namespace Failure

/-- The kind of a failure. -/
def kind : Failure → FailureKind
  | .incomplete _ | .unsupportedVersion _ | .unsupportedAddressType _ | .fragmented _
  | .malformed _ | .io _ => .protocol
  | .rejected .commandNotSupported | .rejected .addrTypeUnsupported => .protocol
  | .rejected .serverFailure => .resource
  | .rejected _ => .network
  | .authentication _ | .noAcceptableMethods => .authentication
  | .network _ _ => .network
  | .relay _ => .relay
  | .resource _ => .resource
  | .aborted _ | .closed => .closed

/-- The reply code that describes a failure best. -/
def replyCode : Failure → ReplyCode
  | .unsupportedAddressType _ => .addrTypeUnsupported
  | .rejected code => code
  | .network code _ => code
  | _ => .serverFailure

/-- The wording of a failure. -/
def message : Failure → String
  | .incomplete field => s!"incomplete message: stream closed while reading {field.name}"
  | .unsupportedVersion byte => s!"unsupported SOCKS version: {Text.Hex.prefixed byte}"
  | .unsupportedAddressType byte => s!"unsupported address type: {Text.Hex.prefixed byte}"
  | .fragmented fragment => s!"UDP fragmentation not supported (frag={fragment.toNat})"
  | .malformed cause => s!"protocol error: {cause.message}"
  | .rejected code => s!"request rejected: {code.name}"
  | .authentication cause => s!"authentication failed: {cause.message}"
  | .noAcceptableMethods => "no acceptable authentication methods"
  | .network code cause => s!"network error ({code.name}): {cause.text}"
  | .relay cause => s!"relay error: {cause.text}"
  | .resource cause => s!"resource error: {cause.text}"
  | .aborted reason => s!"session aborted: {reason}"
  | .closed => "session closed"
  | .io cause => s!"I/O error: {cause.text}"

/-- The failure of an attempt to reach a target, with the reply code that fits its cause. -/
def unreached (cause : IoFailure) : Failure := .network cause.kind.replyCode cause

/-- The failure to read a field: a stream that breaks off in the midst of a message leaves it
incomplete, whatever the host says of it otherwise. -/
def reading (field : Field) (cause : IoFailure) : Failure :=
  if cause.kind = .unexpectedEof then .incomplete field else .io cause

end Failure

end Socks5

import Socks5.Wire.Code

/-!
# Failures of the host

What goes wrong below the protocol: a stream breaks, a connection is refused, a port is taken.
Such a failure has a kind, from which the protocol picks its reply code, and a text of its own.
-/

namespace Socks5

/-- The kind of a failure of the host. -/
inductive IoKind where
  | notFound
  | permissionDenied
  | connectionRefused
  | connectionReset
  | hostUnreachable
  | networkUnreachable
  | connectionAborted
  | notConnected
  | addrInUse
  | addrNotAvailable
  | networkDown
  | brokenPipe
  | alreadyExists
  | wouldBlock
  | invalidInput
  | invalidData
  | timedOut
  | writeZero
  | interrupted
  | unsupported
  | unexpectedEof
  | outOfMemory
  | notADirectory
  | isADirectory
  | directoryNotEmpty
  | readOnlyFilesystem
  | staleNetworkFileHandle
  | storageFull
  | notSeekable
  | quotaExceeded
  | fileTooLarge
  | resourceBusy
  | executableFileBusy
  | deadlock
  | crossesDevices
  | tooManyLinks
  | invalidFilename
  | argumentListTooLong
  | other
  | uncategorized
deriving DecidableEq, Repr

namespace IoKind

/-- Every kind of failure. -/
def all : List IoKind := [.notFound, .permissionDenied, .connectionRefused, .connectionReset,
  .hostUnreachable, .networkUnreachable, .connectionAborted, .notConnected, .addrInUse,
  .addrNotAvailable, .networkDown, .brokenPipe, .alreadyExists, .wouldBlock, .invalidInput,
  .invalidData, .timedOut, .writeZero, .interrupted, .unsupported, .unexpectedEof, .outOfMemory,
  .notADirectory, .isADirectory, .directoryNotEmpty, .readOnlyFilesystem, .staleNetworkFileHandle,
  .storageFull, .notSeekable, .quotaExceeded, .fileTooLarge, .resourceBusy, .executableFileBusy,
  .deadlock, .crossesDevices, .tooManyLinks, .invalidFilename, .argumentListTooLong, .other,
  .uncategorized]

/-- The name of a kind. -/
def name : IoKind → String
  | .notFound => "NotFound"
  | .permissionDenied => "PermissionDenied"
  | .connectionRefused => "ConnectionRefused"
  | .connectionReset => "ConnectionReset"
  | .hostUnreachable => "HostUnreachable"
  | .networkUnreachable => "NetworkUnreachable"
  | .connectionAborted => "ConnectionAborted"
  | .notConnected => "NotConnected"
  | .addrInUse => "AddrInUse"
  | .addrNotAvailable => "AddrNotAvailable"
  | .networkDown => "NetworkDown"
  | .brokenPipe => "BrokenPipe"
  | .alreadyExists => "AlreadyExists"
  | .wouldBlock => "WouldBlock"
  | .invalidInput => "InvalidInput"
  | .invalidData => "InvalidData"
  | .timedOut => "TimedOut"
  | .writeZero => "WriteZero"
  | .interrupted => "Interrupted"
  | .unsupported => "Unsupported"
  | .unexpectedEof => "UnexpectedEof"
  | .outOfMemory => "OutOfMemory"
  | .notADirectory => "NotADirectory"
  | .isADirectory => "IsADirectory"
  | .directoryNotEmpty => "DirectoryNotEmpty"
  | .readOnlyFilesystem => "ReadOnlyFilesystem"
  | .staleNetworkFileHandle => "StaleNetworkFileHandle"
  | .storageFull => "StorageFull"
  | .notSeekable => "NotSeekable"
  | .quotaExceeded => "QuotaExceeded"
  | .fileTooLarge => "FileTooLarge"
  | .resourceBusy => "ResourceBusy"
  | .executableFileBusy => "ExecutableFileBusy"
  | .deadlock => "Deadlock"
  | .crossesDevices => "CrossesDevices"
  | .tooManyLinks => "TooManyLinks"
  | .invalidFilename => "InvalidFilename"
  | .argumentListTooLong => "ArgumentListTooLong"
  | .other => "Other"
  | .uncategorized => "Uncategorized"

/-- The kind that has a name. -/
def ofName? (name : String) : Option IoKind := all.find? (·.name = name)

/-- The reply code that tells a client of a failure to reach its target. -/
def replyCode : IoKind → ReplyCode
  | .connectionRefused => .connectionRefused
  | .timedOut => .ttlExpired
  | .networkUnreachable => .networkUnreachable
  | .hostUnreachable => .hostUnreachable
  | .notFound => .hostUnreachable
  | .permissionDenied => .connectionNotAllowed
  | _ => .serverFailure

end IoKind

/-- A failure of the host. -/
structure IoFailure where
  kind : IoKind
  text : String
deriving DecidableEq, Repr

namespace IoFailure

/-- A stream takes no more bytes. -/
def writeZero : IoFailure := ⟨.writeZero, "write zero"⟩

/-- Nobody listens at an address. -/
def connectionRefused : IoFailure := ⟨.connectionRefused, "Connection refused (os error 111)"⟩

/-- No route leads to an address. -/
def networkUnreachable : IoFailure :=
  ⟨.networkUnreachable, "Network is unreachable (os error 101)"⟩

/-- A port is taken. -/
def addrInUse : IoFailure := ⟨.addrInUse, "Address already in use (os error 98)"⟩

/-- An address is not one of this host's. -/
def addrNotAvailable : IoFailure :=
  ⟨.addrNotAvailable, "Cannot assign requested address (os error 99)"⟩

/-- A socket cannot reach addresses of another family. -/
def familyUnsupported : IoFailure :=
  ⟨.uncategorized, "Address family not supported by protocol (os error 97)"⟩

/-- An address cannot be sent to. -/
def invalidArgument : IoFailure := ⟨.invalidInput, "Invalid argument (os error 22)"⟩

/-- A zone is not one of this host's. -/
def noSuchDevice : IoFailure := ⟨.uncategorized, "No such device (os error 19)"⟩

/-- A datagram does not fit. -/
def messageTooLong : IoFailure := ⟨.uncategorized, "Message too long (os error 90)"⟩

/-- A socket has no other end. -/
def notConnected : IoFailure :=
  ⟨.notConnected, "Transport endpoint is not connected (os error 107)"⟩

/-- A name holds a NUL character, which no name can. -/
def nulInName : IoFailure := ⟨.invalidInput, "file name contained an unexpected NUL byte"⟩

/-- A text is no name that could be looked up. -/
def unknownName : IoFailure :=
  ⟨.uncategorized, "failed to lookup address information: Name or service not known"⟩

/-- Nobody can be asked about a name. -/
def lookupFailed : IoFailure :=
  ⟨.uncategorized,
    "failed to lookup address information: Temporary failure in name resolution"⟩

/-- A name has no address. -/
def noAddress (name : String) : IoFailure := ⟨.notFound, s!"no address found for {name}"⟩

end IoFailure

end Socks5

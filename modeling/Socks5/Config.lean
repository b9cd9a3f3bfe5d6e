import Socks5.Ip.Basic
import Socks5.Text.Duration

/-!
# Configuration

The tunables of a server's sessions.
-/

namespace Socks5

/-- What a session has to know beyond its client: how long a command may take, how many bytes a
pipe copies at once, and the address on which sockets are opened for the client. -/
structure Config where
  timeout : Option Duration := none
  bufferSize : Nat := 5 * 1024 * 1024
  bindIp : Option Ip := none
deriving DecidableEq

namespace Config

/-- With another buffer size; a buffer holds at least one byte. -/
def withBufferSize (c : Config) (size : Nat) : Config := { c with bufferSize := max size 1 }

end Config

end Socks5

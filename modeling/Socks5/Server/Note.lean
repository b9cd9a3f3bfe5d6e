import Socks5.Failure.Io
import Socks5.Ip.Basic
import Socks5.Log

/-!
# What a server has to say to a log
-/

namespace Socks5

/-- What a server has to say to a log. -/
inductive ServerNote where
  | listening (address : SocketAddr)
  | supported (methods : List MethodId)
  | newClient (peer : SocketAddr)
  | unprepared (peer : SocketAddr) (cause : IoFailure)
  | stopped (closed : Nat)
deriving DecidableEq

/-- The wording of a note. -/
def ServerNote.line : ServerNote → LogLine
  | .listening address => ⟨.info, s!"SOCKS5 proxy listening on {address.text}"⟩
  | .supported methods => ⟨.info, s!"supported methods: {Text.Hex.listing methods}"⟩
  | .newClient peer => ⟨.info, s!"new client: {peer.text}"⟩
  | .unprepared peer cause =>
    ⟨.warn, s!"transport setup failed for {peer.text}: {cause.text}"⟩
  | .stopped closed => ⟨.info, s!"SOCKS5 proxy stopped, {closed} sessions closed"⟩

end Socks5

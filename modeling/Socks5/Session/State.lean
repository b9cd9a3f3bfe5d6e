/-!
# States of a session
-/

namespace Socks5

/-- Where a session stands. -/
inductive SessionState where
  | negotiating
  | authenticating
  | awaitingCommand
  | connecting
  | bindListening
  | bindRelaying
  | udpAssociated
  | relaying
  | closed
deriving DecidableEq, Repr

namespace SessionState

/-- Every state. -/
def all : List SessionState := [.negotiating, .authenticating, .awaitingCommand, .connecting,
  .bindListening, .bindRelaying, .udpAssociated, .relaying, .closed]

/-- The name of a state. -/
def name : SessionState → String
  | .negotiating => "Negotiating"
  | .authenticating => "Authenticating"
  | .awaitingCommand => "AwaitingCommand"
  | .connecting => "Connecting"
  | .bindListening => "BindListening"
  | .bindRelaying => "BindRelaying"
  | .udpAssociated => "UdpAssociated"
  | .relaying => "Relaying"
  | .closed => "Closed"

/-- The state that has a name. -/
def ofName? (name : String) : Option SessionState := all.find? (·.name = name)

/-- A state as it is displayed. -/
def label : SessionState → String
  | .negotiating => "NEGOTIATING"
  | .authenticating => "AUTHENTICATING"
  | .awaitingCommand => "AWAITING_COMMAND"
  | .connecting => "CONNECTING"
  | .bindListening => "BIND_LISTENING"
  | .bindRelaying => "BIND_RELAYING"
  | .udpAssociated => "UDP_ASSOCIATED"
  | .relaying => "RELAYING"
  | .closed => "CLOSED"

/-- The state after a move to `next`: a closed session stays closed. -/
def moved (current next : SessionState) : SessionState :=
  if current = .closed then .closed else next

@[simp] theorem moved_closed (next : SessionState) : closed.moved next = .closed := rfl

end SessionState

end Socks5

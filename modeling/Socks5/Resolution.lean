import Socks5.Failure.Io
import Socks5.HostName
import Socks5.Ip.Literal
import Socks5.Target

/-!
# From targets to addresses

A target is reached at a socket address. One that is given by name has to be looked up, unless its
name is the text of an address, which stands for that address, also if it is a loose one. Looking up
fails for one of three causes: no name holds a NUL character, not every text is a name, and there
may be nobody to ask.
-/

namespace Socks5

/-- Finds the addresses of a name, for a port. -/
abbrev Lookup := (name : String) → Port → Except IoFailure (List SocketAddr)

namespace Lookup

/-- The text of an address stands for that address, a text that can be no name fails, and any
other name is looked up. -/
def literalOr (lookup : Lookup) : Lookup := fun name port =>
  match Ip.ofLooseText? name with
  | some (ip, zone) => .ok [{ ip, port, zone }]
  | none =>
    if name.contains '\x00' then .error .nulInName
    else if HostName.isValid name.toList then lookup name port
    else .error .unknownName

/-- Knows one name, that of this host itself, and otherwise only texts of addresses. -/
def literals : Lookup := literalOr fun name port =>
  if name.toLower = "localhost" then .ok [{ ip := .v4 .localhost, port }]
  else .error .lookupFailed

end Lookup

namespace Target

/-- Every socket address of a target, in the order of the lookup. There is at least one. -/
def resolveAll (lookup : Lookup) (t : Target) : Except IoFailure (List SocketAddr) :=
  match t.host with
  | .ip ip => .ok [{ ip, port := t.port }]
  | .domain name => do
    match ← lookup name t.port with
    | [] => .error (.noAddress t.text)
    | found => return found

/-- The first socket address of a target. -/
def resolve (lookup : Lookup) (t : Target) : Except IoFailure SocketAddr :=
  match t.host with
  | .ip ip => .ok { ip, port := t.port }
  | .domain name => do
    match ← lookup name t.port with
    | [] => .error (.noAddress name)
    | address :: _ => return address

end Target

end Socks5

import Socks5.Ip.Basic
import Socks5.Text.Utf8
import Socks5.Wire.Code

/-!
# Targets

What a command names: a host, by address or by domain name, and a port.
-/

namespace Socks5

/-- A host, by its address or by its name. -/
inductive Host where
  | ip (address : Ip)
  | domain (name : String)
deriving DecidableEq

namespace Host

/-- How a host is written on the wire. -/
def addressType : Host → AddressType
  | .ip (.v4 _) => .ipv4
  | .ip (.v6 _) => .ipv6
  | .domain _ => .domainName

/-- The address of a host that is not given by name. -/
def ip? : Host → Option Ip
  | .ip a => some a
  | .domain _ => none

end Host

/-- A host and a port on it. -/
structure Target where
  host : Host
  port : Port
deriving DecidableEq

namespace Target

/-- The target that a socket address is, whatever its zone. -/
def ofSocketAddr (a : SocketAddr) : Target := ⟨.ip a.ip, a.port⟩

/-- The all-zero address that a failure reply carries. -/
def unspecified : Target := ⟨.ip (.v4 .unspecified), 0⟩

/-- The socket address of a target that is not given by name. -/
def socketAddr? (t : Target) : Option SocketAddr := t.host.ip?.map fun ip => { ip, port := t.port }

/-- The text of a target; a name stands as it is. -/
def text (t : Target) : String :=
  match t.host with
  | .ip ip => { ip, port := t.port : SocketAddr }.text
  | .domain name => s!"{name}:{t.port.toNat}"

/-- The number of bytes that a target takes on the wire, for a name also if it is too long to be
written. -/
def wireSize (t : Target) : Nat :=
  match t.host with
  | .ip (.v4 _) => 1 + 4 + 2
  | .ip (.v6 _) => 1 + 16 + 2
  | .domain name => 1 + (1 + Text.Utf8.size name) + 2

/-- The target that the socket address of a target is, is that target. -/
theorem ofSocketAddr_of_socketAddr? {t : Target} {a : SocketAddr} (h : t.socketAddr? = some a) :
    ofSocketAddr a = t := by
  obtain ⟨host, port⟩ := t
  cases host with
  | ip ip =>
    cases h
    rfl
  | domain name => cases h

end Target

end Socks5

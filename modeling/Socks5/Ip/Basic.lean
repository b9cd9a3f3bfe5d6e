import Socks5.Bytes
import Socks5.Text.Hex

/-!
# Internet addresses

IPv4 and IPv6 addresses, zones, socket addresses, and their text. IPv6 text is the short form:
groups without leading zeros, the first longest run of two or more zero groups left out, and an
IPv4-mapped address with its last part as dotted decimals.
-/

namespace Socks5

/-! ## IPv4 -/

/-- An IPv4 address, by its four bytes. -/
structure Ipv4 where
  octets : Octets 4
deriving DecidableEq

namespace Ipv4

/-- The address of four bytes. -/
def ofBytes (a b c d : UInt8) : Ipv4 := ⟨[a, b, c, d], rfl⟩

/-- Decimal bytes with points between them. -/
def text (ip : Ipv4) : String :=
  ".".intercalate (ip.octets.val.map fun b => toString b.toNat)

/-- The address of no host in particular. -/
def unspecified : Ipv4 := ofBytes 0 0 0 0

/-- The address of this host itself. -/
def localhost : Ipv4 := ofBytes 127 0 0 1

/-- Every address that begins with 127 leads back to this host. -/
def isLoopback (ip : Ipv4) : Bool := ip.octets.val.head? = some 127

end Ipv4

/-! ## IPv6 -/

/-- An IPv6 address, by its sixteen bytes. -/
structure Ipv6 where
  octets : Octets 16
deriving DecidableEq

namespace Ipv6

/-- The values of the byte pairs of a byte string. -/
def pairs : Bytes → List Nat
  | hi :: lo :: rest => (hi.toNat * 256 + lo.toNat) :: pairs rest
  | _ => []

/-- The eight groups of an address. -/
def groups (ip : Ipv6) : List Nat := pairs ip.octets.val

/-- The IPv4 address inside an IPv4-mapped one. -/
def mapped? (ip : Ipv6) : Option Ipv4 :=
  match ip.octets with
  | ⟨[0, 0, 0, 0, 0, 0, 0, 0, 0, 0, 0xFF, 0xFF, a, b, c, d], _⟩ => some (.ofBytes a b c d)
  | _ => none

/-- Whether an address is one of a single link, which is not known by the address alone. -/
def isLinkLocal (ip : Ipv6) : Bool :=
  match ip.octets.val with
  | 0xFE :: b :: _ => b &&& 0xC0 = 0x80
  | _ => false

/-- How far a multicast address reaches, from 0 to 15; no other address has a scope. -/
def multicastScope? (ip : Ipv6) : Option Nat :=
  match ip.octets.val with
  | 0xFF :: b :: _ => some (b &&& 0x0F).toNat
  | _ => none

/-- Whether an address has a meaning only within one link or one host. -/
def isWithinLink (ip : Ipv6) : Bool :=
  ip.isLinkLocal || ip.multicastScope?.any fun scope => scope = 1 || scope = 2

/-- How many groups in a row are zero from a place on. -/
def zerosFrom (groups : List Nat) (start : Nat) : Nat :=
  ((groups.drop start).takeWhile (· = 0)).length

/-- The first place from which the most groups in a row are zero. -/
def longestZeros (groups : List Nat) : Nat :=
  (List.range groups.length).foldl
    (fun best i => if zerosFrom groups best < zerosFrom groups i then i else best) 0

/-- Groups with colons between them. -/
def joined (groups : List Nat) : String := ":".intercalate (groups.map Text.Hex.ofNat)

/-- Groups with a double colon in place of the first longest run of zeros. -/
def shortened (groups : List Nat) : String :=
  let start := longestZeros groups
  let run := zerosFrom groups start
  if 1 < run then joined (groups.take start) ++ "::" ++ joined (groups.drop (start + run))
  else joined groups

/-- The text of an address. -/
def text (ip : Ipv6) : String :=
  match ip.mapped? with
  | some inner => "::ffff:" ++ inner.text
  | none => shortened ip.groups

/-- The address of no host in particular. -/
def unspecified : Ipv6 := ⟨List.replicate 16 0, rfl⟩

/-- The address of this host itself. -/
def localhost : Ipv6 := ⟨List.replicate 15 0 ++ [1], rfl⟩

end Ipv6

/-! ## Either kind -/

/-- An internet address. -/
inductive Ip where
  | v4 (ip : Ipv4)
  | v6 (ip : Ipv6)
deriving DecidableEq

namespace Ip

/-- The text of an address. -/
def text : Ip → String
  | .v4 ip => ip.text
  | .v6 ip => ip.text

/-- An address without the form of an IPv4-mapped one, which is the IPv4 address inside. -/
def unmapped : Ip → Ip
  | .v4 ip => .v4 ip
  | .v6 ip => match ip.mapped? with
    | some inner => .v4 inner
    | none => .v6 ip

/-- Whether an address names no host in particular. -/
def isUnspecified : Ip → Bool
  | .v4 ip => ip = .unspecified
  | .v6 ip => ip = .unspecified

/-- Whether an address leads back to this host. An IPv4-mapped address does not. -/
def isLoopback : Ip → Bool
  | .v4 ip => ip.isLoopback
  | .v6 ip => ip = .localhost

end Ip

/-- The number of a zone: the links and the host itself are zones, and 0 is none of them. -/
abbrev Zone := UInt32

/-- The zone of this host itself. -/
def Zone.own : Zone := 1

/-- An internet address with a port. An IPv6 address may be meant within a zone. -/
structure SocketAddr where
  ip : Ip
  port : Port
  zone : Zone := 0
deriving DecidableEq

namespace SocketAddr

/-- The address of no socket in particular. -/
def unspecified : SocketAddr := { ip := .v4 .unspecified, port := 0 }

/-- The text of a socket address; an IPv6 address stands in brackets, with its zone if it has
one. -/
def text (a : SocketAddr) : String :=
  match a.ip with
  | .v4 ip => s!"{ip.text}:{a.port.toNat}"
  | .v6 ip =>
    let zone := if a.zone = 0 then "" else s!"%{a.zone.toNat}"
    s!"[{ip.text}{zone}]:{a.port.toNat}"

end SocketAddr

end Socks5

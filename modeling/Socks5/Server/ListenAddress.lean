import Socks5.Resolution

/-!
# Where a server listens

The text that says where to listen is a host and a port with a colon between them. The last colon
counts, as an IPv6 address has colons of its own; such an address may stand in brackets, with the
number of its zone. Brackets are part of the written form of a socket address, which has no sign
before its port; in front of a signed port they are part of the host.
-/

namespace Socks5

namespace ListenAddress

/-- No colon separates a host from a port. -/
def noPort : IoFailure := ⟨.invalidInput, "invalid socket address"⟩

/-- What stands for the port is none. -/
def badPort : IoFailure := ⟨.invalidInput, "invalid port value"⟩

/-- A host has no address at all. -/
def noHost : IoFailure := ⟨.invalidInput, "could not resolve to any address"⟩

/-- A text cut at the last occurrence of a character. -/
def cutLast? (mark : Char) : List Char → Option (List Char × List Char)
  | [] => none
  | c :: rest =>
    match cutLast? mark rest with
    | some (front, back) => some (c :: front, back)
    | none => if c = mark then some ([], rest) else none

/-- A number without the plus sign that may stand before it. -/
def unsigned : List Char → List Char
  | '+' :: digits => digits
  | digits => digits

/-- The port that a text writes in decimal digits. -/
def port? (text : List Char) : Option Port :=
  let digits := unsigned text
  if digits.isEmpty then none
  else match Ip.Literal.number? 10 digits with
    | some n => if n < 65536 then some (UInt16.ofNat n) else none
    | none => none

/-- The IPv6 address that a text writes in brackets, and its zone. -/
def bracketed? : List Char → Option (Ipv6 × Zone)
  | '[' :: rest =>
    if rest.getLast? = some ']' then
      Ip.Literal.zonedIpv6? (fun _ zone => Ip.Literal.zoneNumber? zone) rest.dropLast
    else none
  | _ => none

/-- The socket addresses that a text names, in the order in which they are tried. -/
def parse (lookup : Lookup) (text : String) : Except IoFailure (List SocketAddr) :=
  match cutLast? ':' text.toList with
  | none => .error noPort
  | some (host, portText) =>
    match port? portText with
    | none => .error badPort
    | some port =>
      match if portText.head? = some '+' then none else bracketed? host with
      | some (ip, zone) => .ok [{ ip := .v6 ip, port, zone }]
      | none => lookup (String.ofList host) port

end ListenAddress

end Socks5

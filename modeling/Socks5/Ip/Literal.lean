import Socks5.Ip.Basic

/-!
# Reading addresses

The texts that stand for an internet address. An IPv4 address is four decimals below 256 without
leading zeros. An IPv6 address is eight groups of one to four hexadecimal digits, of which the
last two may be written as an IPv4 address, and one run of one or more zero groups may be a double
colon.

Where names are looked up, more texts are taken for addresses (`Ip.ofLooseText?`): an IPv4 address
is one to four numbers in decimal, octal or hexadecimal, each a byte but the last, which fills what
is left; and an IPv6 address may be followed by its zone, as a number or by name.
-/

namespace Socks5.Ip.Literal

/-- A text cut at every occurrence of a character. -/
def cutAll (mark : Char) : List Char → List (List Char)
  | [] => [[]]
  | c :: rest =>
    if c = mark then [] :: cutAll mark rest
    else match cutAll mark rest with
      | piece :: pieces => (c :: piece) :: pieces
      | [] => [[c]]

/-- The parts of a text before and after its first double colon. -/
def cutDouble? : List Char → Option (List Char × List Char)
  | ':' :: ':' :: rest => some ([], rest)
  | c :: rest => (cutDouble? rest).map fun (front, back) => (c :: front, back)
  | [] => none

/-- The value of a digit in a base. -/
def digitValue? (base : Nat) (c : Char) : Option Nat :=
  let value? :=
    if '0' ≤ c ∧ c ≤ '9' then some (c.toNat - 48)
    else if 'a' ≤ c ∧ c ≤ 'f' then some (c.toNat - 87)
    else if 'A' ≤ c ∧ c ≤ 'F' then some (c.toNat - 55)
    else none
  value?.filter (· < base)

/-- The number that digits write. -/
def number? (base : Nat) (digits : List Char) : Option Nat :=
  digits.foldlM (fun n c => (digitValue? base c).map (base * n + ·)) 0

/-- The byte that one to three decimal digits write, without a leading zero. -/
def byte? (digits : List Char) : Option UInt8 :=
  -- a leading zero could be taken for the mark of another base
  if digits.isEmpty || 3 < digits.length then none
  else if digits.head? = some '0' && 1 < digits.length then none
  else match number? 10 digits with
    | some n => if n < 256 then some (UInt8.ofNat n) else none
    | none => none

/-- The address that four decimals write. -/
def ipv4? (s : List Char) : Option Ipv4 :=
  match (cutAll '.' s).map byte? with
  | [some a, some b, some c, some d] => some (.ofBytes a b c d)
  | _ => none

/-- The two bytes that one to four hexadecimal digits write. -/
def group? (digits : List Char) : Option (Octets 2) :=
  if digits.isEmpty || 4 < digits.length then none
  else (number? 16 digits).map fun n => Octets.ofWord (UInt16.ofNat n)

/-- The bytes of groups without an IPv4 part. -/
def groups? (pieces : List (List Char)) : Option Bytes :=
  (pieces.mapM group?).map fun gs => gs.flatMap (·.val)

/-- The bytes of groups of which the last two may be written as an IPv4 address. -/
def groupsWithIpv4? (pieces : List (List Char)) : Option Bytes :=
  match pieces.getLast?.bind ipv4? with
  | some ip => (groups? pieces.dropLast).map (· ++ ip.octets.val)
  | none => groups? pieces

/-- The groups between colons; an empty text has none. -/
def piecesOf (s : List Char) : List (List Char) := if s.isEmpty then [] else cutAll ':' s

/-- The address that groups write. -/
def ipv6? (s : List Char) : Option Ipv6 :=
  match cutDouble? s with
  | none =>
    match groupsWithIpv4? (cutAll ':' s) with
    | some bytes => if h : bytes.length = 16 then some ⟨bytes, h⟩ else none
    | none => none
  | some (front, back) =>
    match groups? (piecesOf front), groupsWithIpv4? (piecesOf back) with
    | some head, some tail =>
      if h : head.length + tail.length ≤ 14 then
        some ⟨head ++ List.replicate (16 - (head.length + tail.length)) 0 ++ tail, by
          simp only [List.length_append, List.length_replicate]; omega⟩
      else none
    | _, _ => none

end Literal

/-- The address that a text writes. -/
def ofText? (s : String) : Option Ip :=
  match Literal.ipv4? s.toList with
  | some ip => some (.v4 ip)
  | none => (Literal.ipv6? s.toList).map .v6

/-! ## Looser texts -/

namespace Literal

/-- The number that a text writes: in octal after a zero, in hexadecimal after `0x`, and otherwise
in decimal. -/
def anyNumber? : List Char → Option Nat
  | [] => none
  | '0' :: x :: digits =>
    if x = 'x' || x = 'X' then if digits.isEmpty then none else number? 16 digits
    else number? 8 (x :: digits)
  | digits => number? 10 digits

/-- The bytes of numbers of which each but the last is a byte, and the last fills the rest. -/
def fill? : (size : Nat) → List Nat → Option (Octets size)
  | 0, _ => none
  | _, [] => none
  | size + 1, [last] =>
    if last < 256 ^ (size + 1) then
      some ⟨(List.range (size + 1)).map fun i => UInt8.ofNat (last / 256 ^ (size - i)), by simp⟩
    else none
  | size + 1, n :: rest =>
    if n < 256 then
      (fill? size rest).map (.append (Nat.add_comm 1 size) (.ofByte (UInt8.ofNat n)))
    else none

/-- The IPv4 address that one to four numbers write. -/
def looseIpv4? (s : List Char) : Option Ipv4 := do
  return ⟨← fill? 4 (← (cutAll '.' s).mapM anyNumber?)⟩

/-- The zone that a number in decimal digits is. -/
def zoneNumber? (digits : List Char) : Option Zone :=
  if digits.isEmpty then none
  else match number? 10 digits with
    | some n => if n < UInt32.size then some (UInt32.ofNat n) else none
    | none => none

/-- The zone of a name. Only where an address has no meaning outside of a zone are names looked
at. -/
def zoneName? (ip : Ipv6) (name : List Char) : Option Zone :=
  if ip.isWithinLink && name = "lo".toList then some .own else none

/-- The IPv6 address and the zone that a text writes. -/
def zonedIpv6? (zone? : Ipv6 → List Char → Option Zone) (s : List Char) : Option (Ipv6 × Zone) :=
  match cutAll '%' s with
  | [address] => (ipv6? address).map (·, 0)
  | [address, zone] => do
    let ip ← ipv6? address
    return (ip, ← zone? ip zone)
  | _ => none

end Literal

/-- The address that a text writes, loosely, and its zone. -/
def ofLooseText? (s : String) : Option (Ip × Zone) :=
  let zone? (ip : Ipv6) (zone : List Char) : Option Zone :=
    (Literal.zoneName? ip zone).or (Literal.zoneNumber? zone)
  match (Literal.ipv4? s.toList).or (Literal.looseIpv4? s.toList) with
  | some ip => some (.v4 ip, 0)
  | none => (Literal.zonedIpv6? zone? s.toList).map fun (ip, zone) => (.v6 ip, zone)

end Socks5.Ip

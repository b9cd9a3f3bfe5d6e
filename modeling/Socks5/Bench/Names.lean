import Socks5.Bench.Numbering
import Socks5.Target
import Socks5.Text.Hex

/-!
# Names for sockets

A script calls its sockets by names. Each is on a port of its own, and what is shown has the name in
place of the port.
-/

namespace Socks5.Bench

/-- A part of a byte string of a script: bytes, or the port of a socket. -/
inductive Fragment where
  | bytes (bytes : Bytes)
  | portOf (name : String)

/-- A port of a script: a number, or the port of a socket. -/
inductive PortRef where
  | number (port : Port)
  | portOf (name : String)

/-- The ports of a script: the first that is given out, how many have been, and the names of
ports. -/
structure Names where
  firstPort : Nat
  given : Nat := 0
  named : List (String × Port) := []

namespace Names

/-- Gives a port to a name, which had another one perhaps. -/
def put (n : Names) (port : Port) (name : String) : Names :=
  { n with named := (name, port) :: n.named.filter (·.1 ≠ name) }

/-- Gives a port to a name, unless the port has a name. -/
def call (n : Names) (port : Port) (name : String) : Names :=
  if n.named.any (·.2 = port) then n else n.put port name

/-- Gives a port of its own to a name. -/
def assign (n : Names) (name : String) : Port × Names :=
  let port := Numbering.port n.firstPort n.given
  (port, { n.put port name with given := n.given + 1 })

/-- The port of a name; a name that was not given yet has none. -/
def port (n : Names) (name : String) : Port := (n.named.lookup name).getD 0

/-- The earlier of two names in alphabetical order, if there are two. -/
def earlier (a : Option String) (b : String) : Option String :=
  match a with
  | none => some b
  | some a => some (if b < a then b else a)

/-- The name of a port: of several, the first in alphabetical order. -/
def name? (n : Names) (port : Nat) : Option String :=
  ((n.named.filter (·.2.toNat = port)).map (·.1)).foldl earlier none

/-- The bytes of fragments. -/
def bytes (n : Names) (fragments : List Fragment) : Bytes :=
  fragments.flatMap fun
    | .bytes bytes => bytes
    | .portOf name => (Octets.ofWord (n.port name)).val

/-- The port that is referred to. -/
def resolve (n : Names) : PortRef → Port
  | .number port => port
  | .portOf name => n.port name

/-! ## What is shown -/

/-- A port number at the start of a text, if a name stands for it: the name, and how many digits
it takes. -/
def leadingName? (n : Names) (text : List Char) : Option (String × Nat) :=
  let digits (port : Port) : List Char := (toString port.toNat).toList
  let fits := n.named.filter fun (_, port) => (digits port).isPrefixOf text
  ((fits.map (·.1)).foldl earlier none).map fun name => (name, (digits (n.port name)).length)

/-- A text with names in place of ports, where `skip` characters belong to a port already
replaced. -/
def inChars (n : Names) : (skip : Nat) → List Char → List Char
  | _, [] => []
  | skip + 1, _ :: rest => inChars n skip rest
  | 0, c :: rest =>
    if c = ':' then
      match n.leadingName? rest with
      | some (name, size) => ":<".toList ++ name.toList ++ ">".toList ++ inChars n size rest
      | none => c :: inChars n 0 rest
    else c :: inChars n 0 rest

/-- A text with names in place of ports. -/
def inText (n : Names) (text : String) : String := String.ofList (n.inChars 0 text.toList)

/-- The digits of bytes with a name in place of the last two. -/
def withLastNamed (front : Bytes) (name : String) : String := Text.Hex.ofBytes front ++ s!"<{name}>"

end Names

end Socks5.Bench

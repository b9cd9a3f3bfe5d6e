import Socks5.Bytes

/-!
# Numbers of ports

The sockets of a script may be on any ports, as what is shown has their names in place of the
numbers. Only by chance does a script write such a number itself, and then the name would stand in
for what is no port. A number of chance in one numbering is none in the next, so a script is
performed under one numbering after the other until two in a row show the same.
-/

namespace Socks5.Bench

/-- Where the ports of a script begin: those of its own sockets, and those of its host. -/
structure Numbering where
  own : Nat
  host : Nat

namespace Numbering

/-- How many numberings are tried at most. -/
def count : Nat := 4096

/-- The numberings. All ports have five digits, and their first byte continues a UTF-8 sequence, as
it does for most ports that systems give out; so what is shown does not hang on which text the bytes
of a port would be. -/
def nth (n : Nat) : Numbering := ⟨0x8000 + n, 0xb000 + n⟩

/-- The port of a number. -/
def port (first index : Nat) : Port := UInt16.ofNat (first + index)

variable {α : Type}

/-- What is shown, given what was shown under the numbering before, as soon as both are the same or
`left` further numberings have been tried. -/
def steadyFrom (same : α → α → Bool) (perform : Numbering → α) : (left n : Nat) → (seen : α) → α
  | 0, _, seen => seen
  | left + 1, n, seen =>
    let next := perform (nth n)
    if same seen next then next else steadyFrom same perform left (n + 1) next

/-- What is shown whatever the numbering. -/
def steady (same : α → α → Bool) (perform : Numbering → α) : α :=
  steadyFrom same perform (count - 1) 1 (perform (nth 0))

end Numbering

end Socks5.Bench

import Socks5.Ip.Literal

/-!
# Host names

The texts that are names of hosts: labels with points between them, and perhaps one behind the
last. A label has letters, digits, hyphens and underscores of ASCII, at least one and at most 63 of
them, and a name does not begin with a hyphen. A point alone is the name of the root.
-/

namespace Socks5.HostName

/-- The most characters that a label has. -/
def maxLabel : Nat := 63

/-- The most characters that a name has, without a point at its end. -/
def maxLength : Nat := 253

/-- Whether a character may stand in a label. -/
def isLabelChar (c : Char) : Bool := c.isAlphanum || c = '-' || c = '_'

/-- Whether characters are a label. -/
def isLabel (label : List Char) : Bool :=
  !label.isEmpty && label.length ≤ maxLabel && label.all isLabelChar

/-- A name without a point at its end. -/
def withoutRoot (name : List Char) : List Char :=
  if name.getLast? = some '.' then name.dropLast else name

/-- Whether a text is the name of a host. -/
def isValid (name : List Char) : Bool :=
  name = ['.'] ||
    (name.head? ≠ some '-' && (withoutRoot name).length ≤ maxLength &&
      (Ip.Literal.cutAll '.' (withoutRoot name)).all isLabel)

end Socks5.HostName

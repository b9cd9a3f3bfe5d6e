/-!
# Spans of time

A span is a number of milliseconds. It is written in the largest of seconds and milliseconds of
which it holds at least one, with as many decimals as it needs; the empty span is `0ns`.
-/

namespace Socks5

/-- A span of time. -/
structure Duration where
  milliseconds : Nat
deriving Repr, DecidableEq

namespace Duration

/-- The decimals of a fraction in thousandths, without trailing zeros. -/
def decimals (thousandths : Nat) : List Char :=
  let digits := [thousandths / 100 % 10, thousandths / 10 % 10, thousandths % 10]
  ((digits.reverse.dropWhile (· = 0)).reverse).map Nat.digitChar

/-- The wording of a span. -/
def text (d : Duration) : String :=
  let ms := d.milliseconds
  if ms = 0 then "0ns"
  else if ms < 1000 then s!"{ms}ms"
  else match decimals (ms % 1000) with
    | [] => s!"{ms / 1000}s"
    | ds => s!"{ms / 1000}.{String.ofList ds}s"

end Duration

end Socks5

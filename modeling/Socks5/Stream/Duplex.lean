import Socks5.Stream.Sink
import Socks5.Stream.Source

/-!
# Streams in memory

A stream with both its sides at hand answers the questions of a task. A read that is interrupted is
taken up again, so that no task hears of it.
-/

namespace Socks5

/-- A stream, by its two sides. -/
structure Duplex where
  source : Source
  sink : Sink := .empty {}
deriving DecidableEq

namespace Duplex

/-- What a stream answers; `none` as long as the one who asks has to wait. -/
def answer : (q : Stream.Ask) → Duplex → Option (Stream.Answer q) × Duplex
  | .read room, d =>
    let (a, source) := d.source.resume.read room
    (a, { d with source })
  | .write bytes, d =>
    let (a, sink) := d.sink.write bytes
    (a, { d with sink })
  | .flush, d =>
    let (a, sink) := d.sink.flush
    (some a, { d with sink })

/-- Runs a task over a stream until it ends or waits. -/
def run {α : Type} (t : Task Streams α) (d : Duplex) : Task Streams α × Duplex :=
  t.settle (I := Streams) answer d

end Duplex

end Socks5

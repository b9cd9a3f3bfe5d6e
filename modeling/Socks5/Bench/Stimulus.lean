import Socks5.Stream.Duplex

/-!
# Stimuli

What a script does to the streams that it has set up. After every stimulus whatever can go on does
so.
-/

namespace Socks5.Bench

/-- Something that is done to a stream from outside, where something arrives or the rule by which
it takes bytes changes, or to the session at its other end. -/
inductive Stimulus where
  | arrive (arrivals : List Arrival)
  | intake (rule : Intake)
  | close
deriving DecidableEq

/-- Lets bytes, the end or a fault arrive. -/
def feed (arrivals : List Arrival) (d : Duplex) : Duplex :=
  { d with source := d.source.feed arrivals }

/-- Makes a stream take bytes by another rule. -/
def setIntake (rule : Intake) (d : Duplex) : Duplex :=
  { d with sink := { d.sink with intake := rule } }

/-- Lets something arrive, and perhaps makes the stream take bytes by another rule. -/
def influence (arrivals : List Arrival) (rule : Option Intake) (d : Duplex) : Duplex :=
  match rule with
  | none => feed arrivals d
  | some rule => setIntake rule (feed arrivals d)

/-- Lets work go on under stimuli: as far as it gets, and then on after each stimulus, until it is
over. The stimuli that are left then are not used. -/
def conduct {σ τ : Type} (settle : σ → σ) (isOver : σ → Bool) (apply : τ → σ → σ) :
    List τ → σ → σ
  | [], s => settle s
  | stimulus :: rest, s =>
    let s := settle s
    if isOver s then s else conduct settle isOver apply rest (apply stimulus s)

end Socks5.Bench

import Socks5.Auth.Method
import Socks5.Session.Registry
import Socks5.Stream.Duplex

/-!
# Sessions over streams in memory

A session whose client is a stream in memory. It answers what is asked on the channel of the
session: the stream as long as the session is open, collaborators as they have decided.
-/

namespace Socks5

/-- A session, the registry that it is part of, and the stream to its client. -/
structure LiveSession where
  id : Nat
  registry : Registry
  stream : Duplex
deriving DecidableEq

namespace LiveSession

/-- A session that is alone in its registry. -/
def alone (peer localAddr : SocketAddr) (stream : Duplex) : LiveSession :=
  let (id, registry) := Registry.create {} peer localAddr
  { id, registry, stream }

/-- Whether the session has been closed, so that none of its waits goes on. -/
def isSignalled (s : LiveSession) : Bool :=
  ((s.registry.handle? s.id).map Handle.isSignalled).getD true

/-- Closes the session. -/
def close (s : LiveSession) : LiveSession := { s with registry := (s.registry.close s.id).2 }

/-- What is answered on the channel of the session; `none` as long as the session has to wait. -/
def answer : (q : Channel.Ask) → LiveSession → Option (Channel.Answer q) × LiveSession
  | .stream q, s =>
    if s.isSignalled then (some none, s)
    else
      let (a, stream) := s.stream.answer q
      (a.map some, { s with stream })
  | .consult verdict, s => (verdict, s)
  | .close, s => (some (), s.close)

/-- Runs work on the channel of the session until it ends or waits. -/
def run {α : Type} (t : Task Channels α) (s : LiveSession) : Task Channels α × LiveSession :=
  t.settle (I := Channels) answer s

/-! ## Waiting for something else -/

/-- What a session notices of its client while it waits for something else: the bytes that the
client sent, and whether the client has ended or failed. -/
def listen (s : LiveSession) : Bytes × Option (Except IoFailure Unit) × LiveSession :=
  let (bytes, stop, source) := s.stream.source.drain
  (bytes, stop, { s with stream := { s.stream with source } })

/-- Waits for an event as long as the session is open, and leaves the client alone. -/
def untilClosed {α : Type} (closed : α) (event : Option α) (s : LiveSession) : Option α :=
  if s.isSignalled then some closed else event

/-- How a wait stands in which the client is watched: the event has come, the session is closed,
the client has ended or failed, or the wait goes on. -/
inductive Watched (α : Type) where
  | comes (event : α)
  | closed
  | clientGone
  | goesOn

/-- Waits for an event, and hears meanwhile what the client sends. -/
def watch {α : Type} (event : Option α) (s : LiveSession) : Watched α × Bytes × LiveSession :=
  if s.isSignalled then (.closed, [], s)
  else
    match event with
    | some event => (.comes event, [], s)
    | none =>
      match s.listen with
      | (bytes, none, s) => (.goesOn, bytes, s)
      | (bytes, some _, s) => (.clientGone, bytes, s)

theorem watch_of_isSignalled {α : Type} {s : LiveSession} (h : s.isSignalled)
    (event : Option α) : s.watch event = (.closed, [], s) := if_pos h

/-- A wait ends with the closing of the session, else with its event, and else with the end of the
client; or it goes on. -/
theorem watch_cases {α : Type} (event : Option α) (s : LiveSession) :
    (s.isSignalled ∧ s.watch event = (.closed, [], s)) ∨
      (∃ a, event = some a ∧ s.watch event = (.comes a, [], s)) ∨
      (∃ bytes stop s', event = none ∧ s.listen = (bytes, some stop, s') ∧
        s.watch event = (.clientGone, bytes, s')) ∨
      ∃ bytes s', event = none ∧ s.listen = (bytes, none, s') ∧
        s.watch event = (.goesOn, bytes, s') := by
  by_cases h : s.isSignalled
  · exact .inl ⟨h, watch_of_isSignalled h event⟩
  · cases event with
    | some a => exact .inr (.inl ⟨a, rfl, if_neg h⟩)
    | none =>
      have hwatch : s.watch (none : Option α) =
          match s.listen with
          | (bytes, none, s) => (.goesOn, bytes, s)
          | (bytes, some _, s) => (.clientGone, bytes, s) := if_neg h
      rcases hlisten : s.listen with ⟨bytes, _ | stop, s'⟩
      · rw [hlisten] at hwatch
        exact .inr (.inr (.inr ⟨bytes, s', rfl, rfl, hwatch⟩))
      · rw [hlisten] at hwatch
        exact .inr (.inr (.inl ⟨bytes, stop, s', rfl, rfl, hwatch⟩))

/-- Waits until anything ends the wait: that it is over, the closing of the session, or the end of
the client. What the client sends is lost, and only a failing client is a failure. -/
def hold (isOver : Bool) (s : LiveSession) : Option (Except IoFailure Unit) × LiveSession :=
  if s.isSignalled || isOver then (some (.ok ()), s)
  else
    let (_, stop, s) := s.listen
    (stop, s)

end LiveSession

end Socks5

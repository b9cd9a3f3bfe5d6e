import Socks5.Proofs.Stream.Reading
import Socks5.Proofs.Stream.Writing
import Socks5.Proofs.Terms
import Socks5.Session.Serving

/-!
# What passes between a session and its client

The part of a session's dialogue that its client takes part in: the bytes that the session reads
from its client, and those that it writes and flushes. Main statement: work on the client's stream
goes on as on any stream until the session is found closed (`leads_onStream`).
-/

namespace Socks5

namespace Hosting

/-- An exchange on the channel of a session. -/
def onChannel (x : Exchange Channels) : Exchange Hostings := ⟨.channel x.question, x.answer⟩

/-- An exchange on the stream of the client, with the session open. -/
def onClient (x : Exchange Streams) : Exchange Hostings :=
  ⟨.channel (.stream x.question), some x.answer⟩

/-- A byte of the client is read by itself. -/
def readByte (b : UInt8) : Exchange Hostings :=
  onClient ⟨.read 1, .ok (some ⟨[b], Nat.one_pos, Nat.le_refl 1⟩)⟩

/-- A question to the stream of the client for which the session is found closed. -/
def foundClosed (q : Stream.Ask) : Exchange Hostings := ⟨.channel (.stream q), none⟩

/-- The exchange on the stream of the client that an exchange is. -/
def onClient? : Exchange Hostings → Option (Exchange Streams)
  | ⟨.channel (.stream q), some a⟩ => some ⟨q, a⟩
  | _ => none

/-- The exchanges on the stream of the client. -/
def clientSide (d : Dialogue Hostings) : Dialogue Streams := d.filterMap onClient?

/-- The bytes that a session has read from its client. -/
def heard (d : Dialogue Hostings) : Bytes := Stream.heard (clientSide d)

/-- The bytes that a session has written to its client. -/
def told (d : Dialogue Hostings) : Bytes := Stream.taken (clientSide d)

/-- The bytes that a session has written to its client and not flushed. -/
def unflushed (d : Dialogue Hostings) : Bytes := Stream.unflushed (clientSide d)

theorem eq_onClient_of_onClient? {x : Exchange Hostings} {y : Exchange Streams}
    (h : onClient? x = some y) : x = onClient y := by
  unfold onClient? at h
  split at h
  · cases h
    rfl
  · cases h

@[simp] theorem clientSide_nil : clientSide [] = [] := rfl

@[simp] theorem clientSide_append (d d' : Dialogue Hostings) :
    clientSide (d ++ d') = clientSide d ++ clientSide d' := List.filterMap_append

@[simp] theorem clientSide_onClient (d : Dialogue Streams) : clientSide (d.map onClient) = d := by
  induction d with
  | nil => rfl
  | cons x d ih => exact congrArg (x :: ·) ih

@[simp] theorem heard_nil : heard [] = [] := rfl

@[simp] theorem told_nil : told [] = [] := rfl

@[simp] theorem unflushed_nil : unflushed [] = [] := rfl

@[simp] theorem heard_append (d d' : Dialogue Hostings) :
    heard (d ++ d') = heard d ++ heard d' := by
  simp [heard]

@[simp] theorem told_append (d d' : Dialogue Hostings) : told (d ++ d') = told d ++ told d' := by
  simp [told]

@[simp] theorem heard_onClient (d : Dialogue Streams) :
    heard (d.map onClient) = Stream.heard d := by
  simp [heard]

@[simp] theorem told_onClient (d : Dialogue Streams) :
    told (d.map onClient) = Stream.taken d := by
  simp [told]

end Hosting

namespace Serving

open Socks5.Task (Leads leads_done_iff leads_fail_iff leads_ask_iff)
open Hosting (onClient foundClosed)

variable {α β : Type}

/-! ## The channel -/

/-- Work on the channel is a dialogue on the channel. -/
theorem leads_onChannel_iff {t : Task Channels α} {d : Dialogue Hostings} {u : Task Hostings α} :
    Leads (onChannel t) d u ↔
      ∃ d₀ u₀, Leads t d₀ u₀ ∧ d = d₀.map Hosting.onChannel ∧ u = onChannel u₀ := by
  constructor
  · intro h
    induction t generalizing d with
    | done a =>
      obtain ⟨rfl, rfl⟩ := leads_done_iff.1 h
      exact ⟨[], _, .refl _, rfl, rfl⟩
    | fail e =>
      obtain ⟨rfl, rfl⟩ := leads_fail_iff.1 h
      exact ⟨[], _, .refl _, rfl, rfl⟩
    | ask q next ih =>
      rcases leads_ask_iff.1 h with ⟨rfl, rfl⟩ | ⟨a, d', rfl, h'⟩
      · exact ⟨[], _, .refl _, rfl, rfl⟩
      · obtain ⟨d₀, u₀, h₀, rfl, rfl⟩ := ih a h'
        exact ⟨⟨q, a⟩ :: d₀, u₀, .step h₀, rfl, rfl⟩
  · intro hp
    obtain ⟨d₀, u₀, h₀, rfl, rfl⟩ := hp
    induction h₀ with
    | refl => exact .refl _
    | step _ ih => exact .step ih

/-- Two tasks in a row on the channel are two tasks in a row. -/
theorem onChannel_bind (t : Task Channels α) (f : α → Task Channels β) :
    onChannel (t.bind f) = (onChannel t).bind fun a => onChannel (f a) :=
  Task.via_bind _ t f

@[simp] theorem onChannel_ofExcept (r : Except Failure α) :
    onChannel (.ofExcept r) = .ofExcept r := by
  cases r <;> rfl

theorem eq_ofExcept_of_onChannel {t : Task Channels α} {r : Except Failure α}
    (h : onChannel t = .ofExcept r) : t = .ofExcept r := by
  cases t with
  | done a =>
    obtain rfl := Task.ofExcept_injective (r := .ok a) h
    rfl
  | fail e =>
    obtain rfl := Task.ofExcept_injective (r := .error e) h
    rfl
  | ask q next =>
    cases r with
    | ok a => cases h
    | error e => cases h

/-- Work on the channel ends where the work itself does, and as it does. -/
theorem leads_onChannel_ofExcept_iff {t : Task Channels α} {d : Dialogue Hostings}
    {r : Except Failure α} :
    Leads (onChannel t) d (.ofExcept r) ↔
      ∃ d₀, Leads t d₀ (.ofExcept r) ∧ d = d₀.map Hosting.onChannel := by
  rw [leads_onChannel_iff]
  constructor
  · intro hp
    obtain ⟨d₀, u₀, h₀, rfl, hu⟩ := hp
    exact ⟨d₀, eq_ofExcept_of_onChannel hu.symm ▸ h₀, rfl⟩
  · intro hp
    obtain ⟨d₀, h₀, rfl⟩ := hp
    exact ⟨d₀, _, h₀, rfl, (onChannel_ofExcept r).symm⟩

/-! ## The client's stream -/

/-- Works on the stream of the client as long as the session is open. -/
def onStream (t : Task Streams α) : Task Hostings α := onChannel (Channel.whileOpen t)

theorem receive_eq [Message α] : receive α = onStream (Stream.receive α) := rfl

theorem deliver_eq [Message α] (message : α) :
    deliver message = onStream (Stream.send (Message.encode message)) := rfl

/-- Work on the client's stream goes on as on any stream, until the session is found closed. -/
theorem leads_onStream {t : Task Streams α} {d : Dialogue Hostings} {u : Task Hostings α}
    (h : Leads (onStream t) d u) :
    (∃ d₀ u₀, Leads t d₀ u₀ ∧ d = d₀.map onClient ∧ u = onStream u₀) ∨
      ∃ d₀ q next, Leads t d₀ (.ask (I := Streams) q next) ∧
        d = d₀.map onClient ++ [foundClosed q] ∧ u = .fail .closed := by
  induction t generalizing d with
  | done a =>
    obtain ⟨rfl, rfl⟩ := leads_done_iff.1 h
    exact .inl ⟨[], _, .refl _, rfl, rfl⟩
  | fail e =>
    obtain ⟨rfl, rfl⟩ := leads_fail_iff.1 h
    exact .inl ⟨[], _, .refl _, rfl, rfl⟩
  | ask q next ih =>
    rcases leads_ask_iff.1 h with ⟨rfl, rfl⟩ | ⟨a, d', rfl, h'⟩
    · exact .inl ⟨[], _, .refl _, rfl, rfl⟩
    · cases a with
      | none =>
        obtain ⟨rfl, rfl⟩ := leads_fail_iff.1 h'
        exact .inr ⟨[], q, next, .refl _, rfl, rfl⟩
      | some a =>
        rcases ih a h' with ⟨d₀, u₀, h₀, rfl, rfl⟩ | ⟨d₀, q', next', h₀, rfl, rfl⟩
        · exact .inl ⟨⟨q, a⟩ :: d₀, u₀, .step h₀, rfl, rfl⟩
        · exact .inr ⟨⟨q, a⟩ :: d₀, q', next', .step h₀, rfl, rfl⟩

/-- As long as the session is open, the client's stream is worked on. -/
theorem leads_onStream_of_leads {t u : Task Streams α} {d : Dialogue Streams} (h : Leads t d u) :
    Leads (onStream t) (d.map onClient) (onStream u) := by
  induction h with
  | refl => exact .refl _
  | step _ ih => exact .step ih

end Serving

end Socks5

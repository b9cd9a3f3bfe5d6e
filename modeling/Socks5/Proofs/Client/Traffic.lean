import Socks5.Client.Call
import Socks5.Proofs.Stream.Writing
import Socks5.Proofs.Terms

/-!
# What passes between a client and its proxy

The part of a call's dialogue that the proxy takes part in: the bytes that a client writes to it,
and those that it reads. Work on the stream is a dialogue with the stream, so that a message which
is delivered has been said in front (`leads_deliver`), and one that is received comes of just the
bytes that were heard (`leads_receive`).
-/

namespace Socks5.Call

open Socks5.Task (Leads leads_done_iff leads_fail_iff leads_ask_iff)

variable {α β : Type}

/-! ## Both directions -/

/-- An exchange on the stream to the proxy. -/
def onProxy (x : Exchange Streams) : Exchange Calls := ⟨.stream x.question, x.answer⟩

/-- The exchange on the stream to the proxy that an exchange is. -/
def onProxy? : Exchange Calls → Option (Exchange Streams)
  | ⟨.stream q, a⟩ => some ⟨q, a⟩
  | _ => none

/-- The exchanges on the stream to the proxy. -/
def proxySide (d : Dialogue Calls) : Dialogue Streams := d.filterMap onProxy?

/-- The bytes that a client has read from the proxy. -/
def heard (d : Dialogue Calls) : Bytes := Stream.heard (proxySide d)

/-- The bytes that a client has written to the proxy. -/
def told (d : Dialogue Calls) : Bytes := Stream.taken (proxySide d)

@[simp] theorem proxySide_append (d d' : Dialogue Calls) :
    proxySide (d ++ d') = proxySide d ++ proxySide d' := List.filterMap_append

@[simp] theorem proxySide_onProxy (d : Dialogue Streams) : proxySide (d.map onProxy) = d := by
  induction d with
  | nil => rfl
  | cons x d ih => exact congrArg (x :: ·) ih

@[simp] theorem heard_nil : heard [] = [] := rfl

@[simp] theorem told_nil : told [] = [] := rfl

@[simp] theorem heard_append (d d' : Dialogue Calls) : heard (d ++ d') = heard d ++ heard d' := by
  simp [heard]

@[simp] theorem told_append (d d' : Dialogue Calls) : told (d ++ d') = told d ++ told d' := by
  simp [told]

@[simp] theorem heard_onProxy (d : Dialogue Streams) :
    heard (d.map onProxy) = Stream.heard d := by
  simp [heard]

@[simp] theorem told_onProxy (d : Dialogue Streams) : told (d.map onProxy) = Stream.taken d := by
  simp [told]

/-- What is asked of the host of the client is no matter of the proxy. -/
theorem onProxy?_of_ne_stream {x : Exchange Calls} (h : ∀ q, x.question ≠ .stream q) :
    onProxy? x = none := by
  obtain ⟨q, a⟩ := x
  cases q with
  | stream q => exact absurd rfl (h q)
  | _ => rfl

theorem heard_concat {x : Exchange Calls} (h : onProxy? x = none) (d : Dialogue Calls) :
    heard (d ++ [x]) = heard d := by
  rw [heard_append, heard, heard, proxySide, proxySide, List.filterMap_cons_none h]
  exact List.append_nil _

theorem told_concat {x : Exchange Calls} (h : onProxy? x = none) (d : Dialogue Calls) :
    told (d ++ [x]) = told d := by
  rw [told_append, told, told, proxySide, proxySide, List.filterMap_cons_none h]
  exact List.append_nil _

/-! ## Work on the stream -/

/-- Work on the stream to the proxy is a dialogue with that stream. -/
theorem leads_onStream_iff {t : Task Streams α} {d : Dialogue Calls} {u : Task Calls α} :
    Leads (onStream t) d u ↔ ∃ d₀ u₀, Leads t d₀ u₀ ∧ d = d₀.map onProxy ∧ u = onStream u₀ := by
  constructor
  · intro h
    induction t generalizing d with
    | done a =>
      obtain ⟨rfl, rfl⟩ := leads_done_iff.1 h
      exact ⟨[], _, .refl _, rfl, rfl⟩
    | fail e =>
      obtain ⟨rfl, rfl⟩ := leads_fail_iff.1 h
      exact ⟨[], _, .refl _, rfl, rfl⟩
    | ask q next ih =>
      rcases leads_ask_iff.1 h with ⟨rfl, rfl⟩ | ⟨a, d', rfl, h'⟩
      · exact ⟨[], _, .refl _, rfl, rfl⟩
      · obtain ⟨d₀, u₀, h₀, rfl, rfl⟩ := ih a h'
        exact ⟨⟨q, a⟩ :: d₀, u₀, .step h₀, rfl, rfl⟩
  · intro hp
    obtain ⟨d₀, u₀, h₀, rfl, rfl⟩ := hp
    induction h₀ with
    | refl => exact .refl _
    | step _ ih => exact .step ih

/-- Two tasks in a row on the stream are two tasks in a row. -/
theorem onStream_bind (t : Task Streams α) (f : α → Task Streams β) :
    onStream (t.bind f) = (onStream t).bind fun a => onStream (f a) :=
  Task.via_bind _ t f

@[simp] theorem onStream_ofExcept (r : Except Failure α) :
    onStream (.ofExcept r) = .ofExcept r := by
  cases r <;> rfl

/-! ## Messages -/

/-- How far the bytes of a message have been said. -/
structure Delivered (bytes : Bytes) (d : Dialogue Calls) (u : Task Calls Unit) : Prop where
  deaf : heard d = []
  front : told d <+: bytes
  whole : u = .done () → told d = bytes

theorem leads_deliver [Message α] {message : α} {bytes : Bytes} {d : Dialogue Calls}
    {u : Task Calls Unit} (hencode : Message.encode message = .ok bytes)
    (h : Leads (onStream (Stream.deliver message)) d u) : Delivered bytes d u := by
  rw [Stream.deliver, hencode] at h
  obtain ⟨d₀, u₀, h₀, rfl, rfl⟩ := leads_onStream_iff.1 h
  have hsent := Stream.leads_send h₀
  refine ⟨?_, ?_, ?_⟩
  · rw [heard_onProxy, Stream.heard_of_not_isRead hsent.not_isRead]
  · rw [told_onProxy]
    exact hsent.taken_isPrefix
  · intro hu
    rw [told_onProxy]
    cases hsent with
    | @complete d₁ _ all =>
      rw [Stream.taken_append, all]
      exact List.append_nil bytes
    | _ => cases hu

/-- A message without a written form is not said at all. -/
theorem deliver_of_error [Message α] {message : α} {e : Failure}
    (hencode : Message.encode message = .error e) :
    onStream (Stream.deliver message) = .fail e := by
  rw [Stream.deliver, hencode]
  rfl

/-- How far a message has been read. -/
structure Received (dec : Decoder α) (d : Dialogue Calls) (u : Task Calls α) : Prop where
  mute : told d = []
  value : ∀ a, u = .done a → dec.parse (heard d) = .finished (.ok a) []

theorem leads_receive [Message α] {d : Dialogue Calls} {u : Task Calls α}
    (h : Leads (onStream (Stream.receive α)) d u) :
    Received (Message.decoder (α := α)) d u := by
  obtain ⟨d₀, u₀, h₀, rfl, rfl⟩ := leads_onStream_iff.1 h
  have hreceived := Stream.leads_run h₀
  refine ⟨?_, ?_⟩
  · rw [told_onProxy, Stream.taken_of_isRead hreceived.isRead]
  · intro a hu
    rw [heard_onProxy]
    cases hreceived with
    | @settled _ result _ reads =>
      cases result with
      | ok b =>
        cases hu
        exact reads
      | error e => cases hu
    | _ => cases hu

end Socks5.Call

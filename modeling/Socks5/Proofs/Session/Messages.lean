import Socks5.Proofs.Session.Stages

/-!
# Messages of a session

What a session reads and writes while it receives a message, and while it delivers one. Everything
else that it asks leaves what was said to the client as it is. Main statements: a message that is
being delivered has been said in front, and all of it is out when the delivery has come to its end
(`leads_deliver`); a message that is received comes of just the bytes that were heard
(`leads_receive`).
-/

namespace Socks5

namespace Hosting

/-- An exchange in which nothing is written to the client. -/
def IsMute (x : Exchange Hostings) : Prop := ∀ y, onClient? x = some y → Stream.IsRead y.question

/-- An exchange in which nothing is read from the client. -/
def IsDeaf (x : Exchange Hostings) : Prop := ∀ y, onClient? x = some y → ¬ Stream.IsRead y.question

variable {d d' : Dialogue Hostings}

theorem clientSide_cons (x : Exchange Hostings) (d : Dialogue Hostings) :
    clientSide (x :: d) = (onClient? x).toList ++ clientSide d := by
  rw [clientSide, List.filterMap_cons]
  cases onClient? x <;> rfl

theorem heard_singleton (x : Exchange Hostings) :
    heard [x] = (onClient? x).toList.flatMap Stream.heardIn := by
  rw [heard, clientSide_cons, clientSide_nil, List.append_nil]
  rfl

theorem told_singleton (x : Exchange Hostings) :
    told [x] = (onClient? x).toList.flatMap Stream.takenIn := by
  rw [told, clientSide_cons, clientSide_nil, List.append_nil]
  rfl

theorem unflushed_append (d d' : Dialogue Hostings) :
    unflushed (d ++ d') = (clientSide d').foldl Stream.unflushedIn (unflushed d) := by
  simp [unflushed, Stream.unflushed]

theorem told_of_isMute (h : ∀ x ∈ d, IsMute x) : told d = [] := by
  induction d with
  | nil => rfl
  | cons x d ih =>
    obtain ⟨hx, hd⟩ := List.forall_mem_cons.1 h
    have ih : Stream.taken (clientSide d) = [] := ih hd
    show Stream.taken (clientSide (x :: d)) = []
    rw [clientSide_cons, Stream.taken_append, ih, List.append_nil]
    cases hy : onClient? x with
    | none => rfl
    | some y =>
      match y, hx y hy with
      | ⟨.read _, _⟩, _ => rfl

theorem unflushed_append_of_isMute (h : ∀ x ∈ d', IsMute x) :
    unflushed (d ++ d') = unflushed d := by
  induction d' generalizing d with
  | nil => rw [List.append_nil]
  | cons x d' ih =>
    obtain ⟨hx, hd'⟩ := List.forall_mem_cons.1 h
    have hone : unflushed (d ++ [x]) = unflushed d := by
      rw [unflushed_append, clientSide_cons]
      cases hy : onClient? x with
      | none => rfl
      | some y =>
        match y, hx y hy with
        | ⟨.read _, _⟩, _ => rfl
    rw [List.append_cons, ih hd', hone]

theorem heard_of_isDeaf (h : ∀ x ∈ d, IsDeaf x) : heard d = [] := by
  induction d with
  | nil => rfl
  | cons x d ih =>
    obtain ⟨hx, hd⟩ := List.forall_mem_cons.1 h
    have ih : Stream.heard (clientSide d) = [] := ih hd
    show Stream.heard (clientSide (x :: d)) = []
    rw [clientSide_cons, Stream.heard_append, ih, List.append_nil]
    cases hy : onClient? x with
    | none => rfl
    | some y =>
      match y, hx y hy with
      | ⟨.write _, _⟩, _ => rfl
      | ⟨.flush, _⟩, _ => rfl
      | ⟨.read _, _⟩, hread => exact (hread trivial).elim

theorem isMute_onClient {x : Exchange Streams} (h : Stream.IsRead x.question) :
    IsMute (onClient x) := by
  intro _ hp
  obtain ⟨⟩ := hp
  exact h

theorem isDeaf_onClient {x : Exchange Streams} (h : ¬ Stream.IsRead x.question) :
    IsDeaf (onClient x) := by
  intro _ hp
  obtain ⟨⟩ := hp
  exact h

theorem isMute_foundClosed (q : Stream.Ask) : IsMute (foundClosed q) := by
  intro y hy
  cases hy

theorem isDeaf_foundClosed (q : Stream.Ask) : IsDeaf (foundClosed q) := by
  intro y hy
  cases hy

end Hosting

namespace Serving

open Socks5.Task (Leads)
open Hosting (onClient foundClosed IsMute IsDeaf isMute_onClient isDeaf_onClient)
open Hosting (told heard unflushed)

/-! ## Delivering -/

/-- How far the bytes of a message have been said. -/
structure Delivered (bytes : Bytes) (d : Dialogue Hostings) (u : Task Hostings Unit) : Prop where
  deaf : ∀ x ∈ d, IsDeaf x
  stream : ∀ x ∈ d, OfStream x.question
  front : told d <+: bytes
  next : ∀ q next, u = .ask (I := Hostings) q next → OfStream q
  whole : u = .done () → told d = bytes ∧ ∀ past, unflushed (past ++ d) = []

theorem leads_deliver {α : Type} [Message α] {message : α} {bytes : Bytes}
    {d : Dialogue Hostings} {u : Task Hostings Unit} (hencode : Message.encode message = .ok bytes)
    (h : Leads (deliver message) d u) : Delivered bytes d u := by
  rw [deliver_eq, hencode] at h
  have hdeaf : ∀ {d₀ : Dialogue Streams} {u₀ : Task Streams Unit}, Stream.Sent bytes d₀ u₀ →
      ∀ x ∈ d₀.map onClient, IsDeaf x := by
    intro d₀ u₀ hsent x hx
    obtain ⟨y, hy, rfl⟩ := List.mem_map.1 hx
    exact isDeaf_onClient (hsent.not_isRead y hy)
  rcases leads_onStream h with ⟨d₀, u₀, h₀, rfl, rfl⟩ | ⟨d₀, q, next, h₀, rfl, rfl⟩
  · have hsent := Stream.leads_send h₀
    refine ⟨hdeaf hsent, (asksOnly_onStream _).of_mem h, ?_, ?_, ?_⟩
    · rw [Hosting.told_onClient]
      exact hsent.taken_isPrefix
    · intro q next hu
      cases hsent with
      | writes _ _ _ =>
        cases hu
        trivial
      | flushes _ _ =>
        cases hu
        trivial
      | complete _ _ => cases hu
      | broke _ _ _ _ => cases hu
      | stuck _ _ => cases hu
    · intro hu
      cases hsent with
      | writes _ _ _ => cases hu
      | flushes _ _ => cases hu
      | broke _ _ _ _ => cases hu
      | stuck _ _ => cases hu
      | @complete d₀ _ all =>
        refine ⟨?_, fun past => ?_⟩
        · rw [Hosting.told_onClient, Stream.taken_append, all]
          simp [Stream.taken, Stream.takenIn]
        · rw [Hosting.unflushed_append, Hosting.clientSide_onClient, List.foldl_append]
          rfl
  · have hsent := Stream.leads_send h₀
    refine ⟨?_, (asksOnly_onStream _).of_mem h, ?_, ?_, ?_⟩
    · exact List.forall_mem_append.2
        ⟨hdeaf hsent, List.forall_mem_singleton.2 (Hosting.isDeaf_foundClosed q)⟩
    · rw [Hosting.told_append, Hosting.told_onClient]
      show Stream.taken d₀ ++ [] <+: bytes
      rw [List.append_nil]
      exact hsent.taken_isPrefix
    · intro q next hu
      cases hu
    · intro hu
      cases hu

/-! ## Receiving -/

/-- How far a message has been read. -/
structure Receives {α : Type} (dec : Decoder α) (d : Dialogue Hostings) (u : Task Hostings α) :
    Prop where
  mute : ∀ x ∈ d, IsMute x
  stream : ∀ x ∈ d, OfStream x.question
  next : ∀ q next, u = .ask (I := Hostings) q next → OfStream q
  value : ∀ a, u = .done a → dec.parse (heard d) = .finished (.ok a) []

theorem leads_receive {α : Type} [Message α] {d : Dialogue Hostings} {u : Task Hostings α}
    (h : Leads (receive α) d u) : Receives (Message.decoder (α := α)) d u := by
  rw [receive_eq] at h
  have hmute : ∀ {d₀ : Dialogue Streams} {u₀ : Task Streams α},
      Stream.Received (Message.decoder (α := α)) d₀ u₀ → ∀ x ∈ d₀.map onClient, IsMute x := by
    intro d₀ u₀ hreceived x hx
    obtain ⟨y, hy, rfl⟩ := List.mem_map.1 hx
    exact isMute_onClient (hreceived.isRead y hy)
  rcases leads_onStream h with ⟨d₀, u₀, h₀, rfl, rfl⟩ | ⟨d₀, q, next, h₀, rfl, rfl⟩
  · have hreceived := Stream.leads_run h₀
    refine ⟨hmute hreceived, (asksOnly_onStream _).of_mem h, ?_, ?_⟩
    · intro q next hu
      cases hreceived with
      | waits _ _ _ =>
        cases hu
        trivial
      | @settled _ result _ _ => cases result <;> cases hu
      | broke _ _ _ => cases hu
    · intro a hu
      rw [Hosting.heard_onClient]
      cases hreceived with
      | waits _ _ _ => cases hu
      | broke _ _ _ => cases hu
      | @settled _ result _ reads =>
        cases result with
        | ok b =>
          cases hu
          exact reads
        | error e => cases hu
  · refine ⟨?_, (asksOnly_onStream _).of_mem h, ?_, ?_⟩
    · exact List.forall_mem_append.2
        ⟨hmute (Stream.leads_run h₀), List.forall_mem_singleton.2 (Hosting.isMute_foundClosed q)⟩
    · intro q next hu
      cases hu
    · intro a hu
      cases hu

end Serving

end Socks5

import Socks5.Proofs.Session.Gate
import Socks5.Proofs.Session.Messages
import Socks5.Proofs.Stream.Feed

/-!
# A session that is fed

Surroundings that do what a client may rely on: the stream brings given bytes in pieces of any
size, and takes whatever is written; nobody closes the session or vetoes it, and a collaborator is
heard with the verdict that it has come to. Main statements: a message comes of a feed exactly if
its bytes lead the feed (`Stage.receive_bind`), and every message gets through to the client
(`Stage.deliver_bind`).
-/

namespace Socks5

namespace Feed

/-- What is answered to a session: it is not vetoed and not closed, and a verdict is heard once
there is one. -/
def Allows (feed : Feed) (past : Dialogue Hostings) : (q : Hosting.Ask) → Hosting.Answer q → Prop
  | .vetSession, reason => reason = none
  | .channel (.stream q), some answer => feed.Brings (Hosting.heard past) ⟨q, answer⟩
  | .channel (.stream _), none => False
  | .channel (.consult verdict), answer => verdict = some answer
  | _, _ => True

/-- The terms of a session that is fed. -/
def terms (feed : Feed) : Terms Hostings where
  allows past x := feed.Allows past x.question x.answer
  permits _ _ := True

variable {feed : Feed}

/-- An exchange on the stream of the client is one with a stream that is fed. -/
theorem honoured_onClient {past : Dialogue Hostings} {d : Dialogue Streams} :
    feed.terms.Honoured past (d.map Hosting.onClient) ↔
      (feed.streamTerms (Hosting.heard past)).Honoured [] d := by
  refine Terms.honoured_map_iff fun d x => ?_
  show feed.Brings (Hosting.heard (past ++ d.map Hosting.onClient)) x ↔
    feed.Brings (Hosting.heard past ++ Stream.heard d) x
  rw [Hosting.heard_append, Hosting.heard_onClient]

end Feed

namespace Serving

open Socks5.Task (Leads honoured_reaching)
open Hosting (told heard)

variable {α β : Type} {feed : Feed} {aim : Dialogue Hostings → Prop}
  {past : Dialogue Hostings} {w rest bytes : Bytes}

/-! ## Stages -/

/-- A session that is fed has said `w` and has `rest` before it. -/
structure Fed (feed : Feed) (past : Dialogue Hostings) (w rest : Bytes) : Prop where
  told : told past = w
  heard : heard past ++ rest = feed.bytes

/-- A session that has not got past the gate. -/
structure Stage (feed : Feed) (past : Dialogue Hostings) (w rest : Bytes) : Prop extends
    Fed feed past w rest where
  front : ∀ x ∈ past, ¬ BehindGate x.question

theorem stage_nil (feed : Feed) : Stage feed [] [] feed.bytes := ⟨⟨rfl, rfl⟩, by simp⟩

theorem not_behindGate_of_ofStream {q : Hosting.Ask} (h : OfStream q) : ¬ BehindGate q := by
  obtain ⟨p, rfl⟩ := exists_of_ofStream h
  exact id

/-- What is exchanged with the client leaves the session in front of the gate. -/
theorem Stage.append {d : Dialogue Hostings} {w' rest' : Bytes} (h : Stage feed past w rest)
    (hstream : ∀ x ∈ d, OfStream x.question) (hfed : Fed feed (past ++ d) w' rest') :
    Stage feed (past ++ d) w' rest' :=
  ⟨hfed, List.forall_mem_append.2
    ⟨h.front, fun x hx => not_behindGate_of_ofStream (hstream x hx)⟩⟩

/-- What is asked of others changes nothing between a session and its client. -/
theorem Fed.concat (h : Fed feed past w rest) {x : Exchange Hostings}
    (hx : Hosting.onClient? x = none) : Fed feed (past ++ [x]) w rest := by
  refine ⟨?_, ?_⟩
  · rw [Hosting.told_append, Hosting.told_singleton, hx, h.told]
    exact List.append_nil w
  · rw [Hosting.heard_append, Hosting.heard_singleton, hx, List.append_assoc]
    exact h.heard

/-- What is asked in front of the gate leaves the session there. -/
theorem Stage.concat (h : Stage feed past w rest) {x : Exchange Hostings}
    (hx : Hosting.onClient? x = none) (hfront : ¬ BehindGate x.question) :
    Stage feed (past ++ [x]) w rest :=
  ⟨h.toFed.concat hx, List.forall_mem_append.2 ⟨h.front, List.forall_mem_singleton.2 hfront⟩⟩

/-- Work that comes to one of some cases when it is fed. -/
def Resolves (feed : Feed) (case : Dialogue Hostings → Option (Except Failure α) → Prop)
    (past : Dialogue Hostings) (t : Task Hostings α) : Prop :=
  t.Resolves feed.terms case past

/-- A message comes of a feed exactly if its bytes lead the feed. -/
theorem Fed.keeps_receive [Message α] (h : Fed feed past w rest)
    (hunread : Unreadable α rest → ∀ d rest', (∀ x ∈ d, OfStream x.question) →
      Fed feed (past ++ d) w rest' → aim (past ++ d)) :
    (receive α).Keeps (feed.terms.reaching aim) past fun p r =>
      ∃ d rest', p = past ++ d ∧ (∀ x ∈ d, OfStream x.question) ∧ Fed feed p w rest' ∧
        (∀ a, r = .ok a → (Message.decoder (α := α)).parse rest = .finished (.ok a) rest') ∧
        ∀ e, r = .error e → Unreadable α rest := by
  intro d u hl hd
  rw [honoured_reaching] at hd
  have hreceives := leads_receive hl
  rw [receive_eq] at hl
  rcases leads_onStream hl with ⟨d₀, u₀, h₀, rfl, rfl⟩ | ⟨d₀, q, next, h₀, rfl, rfl⟩
  · obtain ⟨rest', hrest, hfared⟩ :=
      Stream.leads_run_fed h₀ (Feed.honoured_onClient.1 hd) h.heard
    have hfed : Fed feed (past ++ d₀.map Hosting.onClient) w rest' := by
      refine ⟨?_, ?_⟩
      · rw [Hosting.told_append, Hosting.told_of_isMute hreceives.mute, List.append_nil, h.told]
      · rw [Hosting.heard_append, Hosting.heard_onClient, List.append_assoc, ← hrest, h.heard]
    cases hfared with
    | @reads a parse =>
      refine ⟨_, rest', rfl, hreceives.stream, hfed, ?_, ?_⟩
      · intro b hb
        cases hb
        exact parse
      · intro e he
        cases he
    | fails unread _ =>
      refine ⟨_, rest', rfl, hreceives.stream, hfed, ?_, fun _ _ => unread⟩
      intro a ha
      cases ha
    | @waits q next unread =>
      intro hnone
      refine hunread (unread ?_) _ _ hreceives.stream hfed
      intro answer hanswer
      have hbrings : feed.Brings (Hosting.heard (past ++ d₀.map Hosting.onClient)) ⟨q, answer⟩ := by
        rw [Hosting.heard_append, Hosting.heard_onClient]
        exact hanswer
      exact hnone (some answer) hbrings
  · rw [Terms.honoured_append] at hd
    exact hd.2.1.elim

/-- A message that is fed, and what comes after it. -/
theorem Stage.receive_bind [Message β] {f : β → Task Hostings α}
    {case : Dialogue Hostings → Option (Except Failure α) → Prop} (h : Stage feed past w rest)
    (hunread : Unreadable β rest → ∀ p rest' r, (∀ a, r ≠ some (.ok a)) → Stage feed p w rest' →
      case p r)
    (hnext : ∀ p b rest', (Message.decoder (α := β)).parse rest = .finished (.ok b) rest' →
      Stage feed p w rest' → Resolves feed case p (f b)) :
    Resolves feed case past ((receive β).bind f) := by
  have hreceive : (receive β).Keeps (feed.terms.reaching fun p => case p none) past _ :=
    h.toFed.keeps_receive fun hunreadable d rest' hstream hfed =>
      hunread hunreadable _ rest' none nofun (h.append hstream hfed)
  refine hreceive.bind ?_ ?_
  · intro p b hb
    obtain ⟨d, rest', rfl, hstream, hfed, hparse, _⟩ := hb
    exact hnext _ b rest' (hparse b rfl) (h.append hstream hfed)
  · intro p e he
    obtain ⟨d, rest', rfl, hstream, hfed, _, hunreadable⟩ := he
    exact hunread (hunreadable e rfl) _ rest' (some (.error e)) nofun (h.append hstream hfed)

/-- Every message gets through. -/
theorem Fed.keeps_deliver [Message α] {message : α} (h : Fed feed past w rest)
    (hencode : Message.encode message = .ok bytes) :
    (deliver message).Keeps (feed.terms.reaching aim) past fun p r =>
      r = .ok () ∧ ∃ d, p = past ++ d ∧ (∀ x ∈ d, OfStream x.question) ∧
        Fed feed p (w ++ bytes) rest := by
  intro d u hl hd
  rw [honoured_reaching] at hd
  have hdelivered := leads_deliver hencode hl
  rw [deliver_eq, hencode] at hl
  rcases leads_onStream hl with ⟨d₀, u₀, h₀, rfl, rfl⟩ | ⟨d₀, q, next, h₀, rfl, rfl⟩
  · have hheard : Hosting.heard (past ++ d₀.map Hosting.onClient) = Hosting.heard past := by
      rw [Hosting.heard_append, Hosting.heard_of_isDeaf hdelivered.deaf, List.append_nil]
    rcases Stream.leads_send_fed h₀ (Feed.honoured_onClient.1 hd) with
      ⟨rfl, htaken⟩ | ⟨q, next, rfl, answer, hanswer⟩
    · refine ⟨rfl, _, rfl, hdelivered.stream, ?_, ?_⟩
      · rw [Hosting.told_append, Hosting.told_onClient, h.told, htaken]
      · rw [hheard, h.heard]
    · intro hnone
      have hbrings : feed.Brings (Hosting.heard (past ++ d₀.map Hosting.onClient)) ⟨q, answer⟩ := by
        rw [Hosting.heard_append, Hosting.heard_onClient]
        exact hanswer
      exact absurd hbrings (hnone (some answer))
  · rw [Terms.honoured_append] at hd
    exact hd.2.1.elim

/-- A message that gets through, and what comes after it. -/
theorem Stage.deliver_bind [Message β] {message : β} {f : Unit → Task Hostings α}
    {case : Dialogue Hostings → Option (Except Failure α) → Prop} (h : Stage feed past w rest)
    (hencode : Message.encode message = .ok bytes)
    (hnext : ∀ p, Stage feed p (w ++ bytes) rest → Resolves feed case p (f ())) :
    Resolves feed case past ((deliver message).bind f) := by
  refine (h.toFed.keeps_deliver hencode).bind ?_ ?_
  · intro p _ hp
    obtain ⟨_, d, rfl, hstream, hfed⟩ := hp
    exact hnext _ (h.append hstream hfed)
  · intro p e hp
    cases hp.1

/-- What is asked of others, and what comes after the answer, if there is one. -/
theorem Stage.ask_bind {q : Hosting.Ask} {f : Hosting.Answer q → Task Hostings α}
    {case : Dialogue Hostings → Option (Except Failure α) → Prop} (h : Stage feed past w rest)
    (hstream : ¬ OfStream q) (hfront : ¬ BehindGate q)
    (hnone : (∀ a, ¬ feed.Allows past q a) → case past none)
    (hnext : ∀ a, feed.Allows past q a → Stage feed (past ++ [⟨q, a⟩]) w rest →
      Resolves feed case (past ++ [⟨q, a⟩]) (f a)) :
    Resolves feed case past ((ask q).bind f) := by
  refine Task.keeps_ask.2 ⟨hnone, fun a ha => hnext a ha (h.concat ?_ hfront)⟩
  cases hy : Hosting.onClient? ⟨q, a⟩ with
  | none => rfl
  | some y =>
    cases Hosting.eq_onClient_of_onClient? hy
    exact absurd trivial hstream

/-- What is asked of others and has an answer. -/
theorem Stage.pass_bind {q : Hosting.Ask} {f : Hosting.Answer q → Task Hostings α}
    {case : Dialogue Hostings → Option (Except Failure α) → Prop} (h : Stage feed past w rest)
    (hstream : ¬ OfStream q) (hfront : ¬ BehindGate q)
    (hanswer : ∃ a, feed.Allows past q a)
    (hnext : ∀ a, feed.Allows past q a → Stage feed (past ++ [⟨q, a⟩]) w rest →
      Resolves feed case (past ++ [⟨q, a⟩]) (f a)) :
    Resolves feed case past ((ask q).bind f) :=
  h.ask_bind hstream hfront (fun hnone => absurd hanswer (not_exists.2 hnone)) hnext

end Serving

end Socks5

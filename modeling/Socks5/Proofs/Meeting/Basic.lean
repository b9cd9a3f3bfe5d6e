import Mathlib.Order.GameAdd
import Mathlib.Logic.Relation
import Socks5.Proofs.Client.Feed
import Socks5.Proofs.Session.Answers

/-!
# A call meets a session

A call of a client and a session of a proxy at the two ends of a stream. Each is fed with what the
other one has said so far, in pieces of any size, and with the end of the stream once the other one
is over; nothing disturbs the session, and the hosts of both answer as they like. Main statements:
every meeting comes to rest, whatever the order of its steps (`wellFounded_step`), and at every
point of it both sides have gone through dialogues in which they were fed by each other
(`holds_of_comesTo`).
-/

namespace Socks5

namespace Feed

variable {feed feed' : Feed}

/-- What is answered on a call while the feed may go on is answered also when it has gone on. -/
theorem honoured_calls_mono {past d : Dialogue Calls} (h : (Call.fedTerms feed).Honoured past d)
    (hopen : feed.ending = none) (hbytes : feed.bytes <+: feed'.bytes) :
    (Call.fedTerms feed').Honoured past d := by
  refine h.mono fun past x hx => ?_
  match x with
  | ⟨.stream _, _⟩ => exact Brings.mono hx hopen hbytes
  | ⟨.dial _, _⟩ => exact hx
  | ⟨.lookup _ _, _⟩ => trivial
  | ⟨.localAddr, _⟩ => trivial
  | ⟨.openSocket _, _⟩ => trivial

theorem Allows.mono {past : Dialogue Hostings} {q : Hosting.Ask} {a : Hosting.Answer q}
    (h : feed.Allows past q a) (hopen : feed.ending = none) (hbytes : feed.bytes <+: feed'.bytes) :
    feed'.Allows past q a := by
  match q, a with
  | .channel (.stream _), some _ => exact Brings.mono h hopen hbytes
  | .channel (.stream _), none => exact h
  | .channel (.consult _), _ => exact h
  | .channel .close, _ => trivial
  | .vetSession, _ => exact h
  | .vetRequest _, _ | .enter _, _ | .note _, _ | .identify _, _ | .farewell, _ | .lookup _ _ _, _
  | .connect _ _, _ | .localAddr, _ | .listen _, _ | .awaitPeer _, _ | .dropListener, _
  | .peer _, _ | .associate _ _, _ | .startForwarding, _ | .stopForwarding, _ | .hold, _
  | .relay _, _ => trivial

theorem Calm.mono {x : Exchange Hostings} (h : feed.Calm x) (hopen : feed.ending = none) :
    feed'.Calm x := by
  match x with
  | ⟨.awaitPeer _, .clientGone⟩ => exact absurd hopen h
  | ⟨.awaitPeer _, .closed⟩ | ⟨.lookup _ _ _, .closed⟩ | ⟨.connect _ _, .closed⟩ => exact h
  | ⟨.vetRequest _, _⟩ => exact h
  | ⟨.awaitPeer _, .arrived _ _⟩ | ⟨.awaitPeer _, .failed _⟩ | ⟨.awaitPeer _, .expired _ _⟩
  | ⟨.lookup _ _ _, .value _⟩ | ⟨.lookup _ _ _, .expired _ _⟩ | ⟨.connect _ _, .value _⟩
  | ⟨.connect _ _, .expired _ _⟩ | ⟨.channel _, _⟩ | ⟨.vetSession, _⟩ | ⟨.enter _, _⟩
  | ⟨.note _, _⟩ | ⟨.identify _, _⟩ | ⟨.farewell, _⟩ | ⟨.localAddr, _⟩ | ⟨.listen _, _⟩
  | ⟨.dropListener, _⟩ | ⟨.peer _, _⟩ | ⟨.associate _ _, _⟩ | ⟨.startForwarding, _⟩
  | ⟨.stopForwarding, _⟩ | ⟨.hold, _⟩ | ⟨.relay _, _⟩ => trivial

/-- What is answered to a session while the feed may go on is answered also when it has gone on. -/
theorem honoured_calm_mono {past d : Dialogue Hostings} (h : feed.calmTerms.Honoured past d)
    (hopen : feed.ending = none) (hbytes : feed.bytes <+: feed'.bytes) :
    feed'.calmTerms.Honoured past d :=
  h.mono fun _ _ hx => ⟨hx.1.mono hopen hbytes, hx.2.mono hopen⟩

end Feed

/-- A call and a session, with what each has gone through. -/
structure Meeting (α : Type) where
  calls : Dialogue Calls
  call : Task Calls α
  serves : Dialogue Hostings
  session : Task Hostings Unit

namespace Meeting

open Socks5.Task (Leads)

variable {α : Type} {m m' : Meeting α} {t : Task Calls α} {s : Serving.Setting}

/-- What the session says to the client. A side that is over has let go of the stream. -/
def toClient (m : Meeting α) : Feed :=
  ⟨Hosting.told m.serves, m.session.outcome?.map fun _ => .ok ()⟩

/-- What the client says to the session. -/
def toServer (m : Meeting α) : Feed :=
  ⟨Call.told m.calls, m.call.outcome?.map fun _ => .ok ()⟩

/-- One of the two gets an answer to what it asks. -/
inductive Step : Meeting α → Meeting α → Prop where
  | call {m : Meeting α} {q : Call.Ask} {next : Call.Answer q → Task Calls α} {a : Call.Answer q}
      (asks : m.call = .ask (I := Calls) q next) (allows : Call.Allows m.toClient m.calls q a) :
      Step m { m with calls := m.calls ++ [⟨q, a⟩], call := next a }
  | session {m : Meeting α} {q : Hosting.Ask} {next : Hosting.Answer q → Task Hostings Unit}
      {a : Hosting.Answer q} (asks : m.session = .ask (I := Hostings) q next)
      (allows : m.toServer.calmTerms.allows m.serves ⟨q, a⟩) :
      Step m { m with serves := m.serves ++ [⟨q, a⟩], session := next a }

/-- A call and a session before anything was said. -/
def start (t : Task Calls α) (s : Serving.Setting) : Meeting α := ⟨[], t, [], Serving.run s⟩

/-- What a call and a session may come to, whatever the order in which they go on. -/
def ComesTo (t : Task Calls α) (s : Serving.Setting) (m : Meeting α) : Prop :=
  Relation.ReflTransGen Step (start t s) m

/-- Neither side goes on. -/
def AtRest (m : Meeting α) : Prop := ∀ m', ¬ Step m m'

/-! ## Coming to rest -/

/-- No meeting goes on for ever. -/
theorem wellFounded_step : WellFounded fun m' m : Meeting α => Step m m' := by
  -- one of the two tasks gets smaller in every step, and the other one stays as it is
  have hboth : WellFounded (Prod.GameAdd (Task.GoesOn (I := Calls) (α := α))
      (Task.GoesOn (I := Hostings) (α := Unit))) :=
    Task.wellFounded_goesOn.prod_gameAdd Task.wellFounded_goesOn
  refine Subrelation.wf ?_ (InvImage.wf (fun m : Meeting α => (m.call, m.session)) hboth)
  intro m' m h
  cases h with
  | call asks _ => exact .fst ⟨_, _, _, asks, rfl⟩
  | session asks _ => exact .snd ⟨_, _, _, asks, rfl⟩

/-- Every meeting can go on until it is at rest. -/
theorem exists_atRest (m : Meeting α) : ∃ m', Relation.ReflTransGen Step m m' ∧ m'.AtRest := by
  induction m using wellFounded_step.induction with
  | _ m ih =>
    by_cases hrest : m.AtRest
    · exact ⟨m, .refl, hrest⟩
    · obtain ⟨m₁, hstep⟩ : ∃ m₁, Step m m₁ := by simpa [AtRest] using hrest
      obtain ⟨m', hm', hatRest⟩ := ih m₁ hstep
      exact ⟨m', .head hstep hm', hatRest⟩

/-- At rest the call waits for nothing that could still come. -/
theorem AtRest.call (h : m.AtRest) : m.call.Settled (Call.fedTerms m.toClient) m.calls :=
  fun _ _ asks _ allows => h _ (.call asks allows)

theorem AtRest.session (h : m.AtRest) : m.session.Settled m.toServer.calmTerms m.serves :=
  fun _ _ asks _ allows => h _ (.session asks allows)

/-! ## Both dialogues -/

theorem toClient_ending_eq_none {q : Hosting.Ask} {next}
    (h : m.session = .ask (I := Hostings) q next) : m.toClient.ending = none := by
  simp [toClient, h, Task.outcome?]

theorem toServer_ending_eq_none {q : Call.Ask} {next} (h : m.call = .ask (I := Calls) q next) :
    m.toServer.ending = none := by
  simp [toServer, h, Task.outcome?]

/-- What holds at every point of a meeting. -/
structure Holds (t : Task Calls α) (s : Serving.Setting) (m : Meeting α) : Prop where
  calls : Leads t m.calls m.call
  serves : Leads (Serving.run s) m.serves m.session
  heeds : (Call.fedTerms m.toClient).Honoured [] m.calls
  calm : m.toServer.calmTerms.Honoured [] m.serves
  /-- A client that the session finds gone was over while the session was still there. -/
  leaves : ∀ before limit after, m.serves = before ++ ⟨.awaitPeer limit, .clientGone⟩ :: after →
    m.call.outcome? ≠ none ∧ (Call.fedTerms ⟨Hosting.told before, none⟩).Honoured [] m.calls

theorem holds_start (t : Task Calls α) (s : Serving.Setting) : Holds t s (start t s) := by
  refine ⟨.refl _, .refl _, trivial, trivial, ?_⟩
  intro before limit after hsplit
  simp [start] at hsplit

/-- A step of one side feeds the other side with more, and leaves its own feed as it is. -/
theorem Holds.step (h : Holds t s m) (hstep : Step m m') : Holds t s m' := by
  cases hstep with
  | @call q next a asks allows =>
    have hcall : Leads m.call [⟨q, a⟩] (next a) := by
      rw [asks]
      exact .step (.refl _)
    refine ⟨h.calls.trans hcall, h.serves, Terms.honoured_append.2 ⟨h.heeds, allows, trivial⟩, ?_,
      ?_⟩
    · refine Feed.honoured_calm_mono h.calm (toServer_ending_eq_none asks) ?_
      show Call.told m.calls <+: Call.told (m.calls ++ [⟨q, a⟩])
      rw [Call.told_append]
      exact List.prefix_append _ _
    · -- a call that still asks something has not been found gone
      intro before limit after hsplit
      obtain ⟨hover, _⟩ := h.leaves before limit after hsplit
      rw [asks] at hover
      exact absurd rfl hover
  | @session q next a asks allows =>
    have hsession : Leads m.session [⟨q, a⟩] (next a) := by
      rw [asks]
      exact .step (.refl _)
    have hopen := toClient_ending_eq_none asks
    refine ⟨h.calls, h.serves.trans hsession, ?_,
      Terms.honoured_append.2 ⟨h.calm, allows, trivial⟩, ?_⟩
    · refine Feed.honoured_calls_mono h.heeds hopen ?_
      show Hosting.told m.serves <+: Hosting.told (m.serves ++ [⟨q, a⟩])
      rw [Hosting.told_append]
      exact List.prefix_append _ _
    · intro before limit after hsplit
      rcases List.eq_nil_or_concat after with rfl | ⟨after', x, rfl⟩
      · -- the client is found gone in this step
        obtain ⟨rfl, hlast⟩ := List.append_inj' hsplit rfl
        cases hlast
        have hgone : m.toServer.ending ≠ none := allows.2
        have hfeed : m.toClient = ⟨Hosting.told m.serves, none⟩ := by
          rw [← hopen]
          rfl
        refine ⟨?_, hfeed ▸ h.heeds⟩
        intro hover
        exact hgone (by simp [toServer, hover])
      · rw [List.concat_eq_append, ← List.cons_append, ← List.append_assoc] at hsplit
        obtain ⟨hserves, _⟩ := List.append_inj' hsplit rfl
        exact h.leaves before limit after' hserves

/-- Both sides go through dialogues in which each is fed by the other. -/
theorem holds_of_comesTo (h : ComesTo t s m) : Holds t s m := by
  induction h with
  | refl => exact holds_start t s
  | tail _ hstep ih => exact ih.step hstep

end Meeting

end Socks5

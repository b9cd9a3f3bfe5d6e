import Socks5.Proofs.Session.Commands
import Socks5.Proofs.Session.Gate

/-!
# What a session asks when

A session reads from its client until it has the request, and no further. Then at most one
connection becomes its own; what the client has sent while that was awaited is written to it, whole
and in order, before anything is relayed. Main statement: every session keeps to these terms,
whatever it is answered (`conducts_run`).
-/

namespace Socks5

namespace Hosting

/-! ## The connection in a dialogue -/

/-- A connection becomes the one of the session. -/
def Joins : Exchange Hostings → Prop
  | ⟨.connect _ _, .value (.ok _)⟩ => True
  | ⟨.awaitPeer _, .arrived _ _⟩ => True
  | _ => False

/-- What has to do with the connection of a session, or keeps it waiting for its client. -/
def Engages : Ask → Prop
  | .awaitPeer _ | .hold | .peer _ | .relay _ => True
  | _ => False

/-- An exchange on the stream of the connection. -/
def onPeer (x : Exchange Streams) : Exchange Hostings := ⟨.peer x.question, x.answer⟩

/-- The bytes that the client has sent while a connection was awaited. -/
def earlyIn : Exchange Hostings → Bytes
  | ⟨.awaitPeer _, .arrived _ early⟩ => early
  | _ => []

/-- The bytes that are written to the connection. -/
def carriedIn : Exchange Hostings → Bytes
  | ⟨.peer q, a⟩ => Stream.takenIn ⟨q, a⟩
  | _ => []

/-- The bytes that the client has sent while a connection was awaited. -/
def early (d : Dialogue Hostings) : Bytes := d.flatMap earlyIn

/-- The bytes that are written to the connection before anything is relayed. -/
def carried (d : Dialogue Hostings) : Bytes := d.flatMap carriedIn

/-- A connection has become the one of the session. -/
def Joined (d : Dialogue Hostings) : Prop := ∃ x ∈ d, Joins x

/-- Nothing has been asked of a connection yet, and none has been awaited. -/
def Plain (d : Dialogue Hostings) : Prop := ∀ x ∈ d, ¬ Joins x ∧ ¬ Engages x.question

/-- What a session may ask as long as it has no connection to look for. -/
def IsPreliminary : Ask → Prop
  | .connect _ _ => False
  | q => ¬ Engages q

/-- What may be asked at any time, and changes nothing for the client's bytes. -/
def IsFree : Ask → Prop
  | .channel (.stream (.read _)) => False
  | q => IsPreliminary q

variable {d d' : Dialogue Hostings} {x : Exchange Hostings}

@[simp] theorem early_append (d d' : Dialogue Hostings) : early (d ++ d') = early d ++ early d' :=
  List.flatMap_append

@[simp] theorem carried_append (d d' : Dialogue Hostings) :
    carried (d ++ d') = carried d ++ carried d' := List.flatMap_append

theorem Joined.append (h : Joined d) (d' : Dialogue Hostings) : Joined (d ++ d') := by
  obtain ⟨x, hx, hjoins⟩ := h
  exact ⟨x, List.mem_append_left d' hx, hjoins⟩

theorem joined_append_iff {d' : Dialogue Hostings} : Joined (d ++ d') ↔ Joined d ∨ Joined d' := by
  simp [Joined, or_and_right, exists_or]

theorem joined_concat_iff : Joined (d ++ [x]) ↔ Joined d ∨ Joins x := by
  rw [joined_append_iff]
  simp [Joined]

theorem plain_concat_iff : Plain (d ++ [x]) ↔ Plain d ∧ ¬ Joins x ∧ ¬ Engages x.question := by
  rw [Plain, List.forall_mem_append, List.forall_mem_singleton]
  exact Iff.rfl

theorem Plain.not_joined (h : Plain d) : ¬ Joined d := by
  intro hp
  obtain ⟨x, hx, hjoins⟩ := hp
  exact (h x hx).1 hjoins

/-- Bytes that were sent early come with a connection. -/
theorem earlyIn_of_not_joins (h : ¬ Joins x) : earlyIn x = [] := by
  unfold earlyIn
  split
  · exact absurd trivial h
  · rfl

/-- Nothing is written but to a connection. -/
theorem carriedIn_of_not_engages (h : ¬ Engages x.question) : carriedIn x = [] := by
  unfold carriedIn
  split
  · exact absurd trivial h
  · rfl

theorem Plain.early_eq_nil (h : Plain d) : early d = [] :=
  List.flatMap_eq_nil_iff.2 fun x hx => earlyIn_of_not_joins (h x hx).1

theorem Plain.carried_eq_nil (h : Plain d) : carried d = [] :=
  List.flatMap_eq_nil_iff.2 fun x hx => carriedIn_of_not_engages (h x hx).2

theorem not_engages_of_isPreliminary {q : Ask} (h : IsPreliminary q) : ¬ Engages q := by
  unfold IsPreliminary at h
  split at h
  · exact h.elim
  · exact h

theorem not_joins_of_isPreliminary (h : IsPreliminary x.question) : ¬ Joins x := by
  intro hjoins
  unfold Joins at hjoins
  split at hjoins
  · exact h
  · exact h trivial
  · exact hjoins

theorem isPreliminary_of_isFree {q : Ask} (h : IsFree q) : IsPreliminary q := by
  unfold IsFree at h
  split at h
  · exact h.elim
  · exact h

theorem not_engages_of_isFree {q : Ask} (h : IsFree q) : ¬ Engages q :=
  not_engages_of_isPreliminary (isPreliminary_of_isFree h)

theorem not_joins_of_isFree (h : IsFree x.question) : ¬ Joins x :=
  not_joins_of_isPreliminary (isPreliminary_of_isFree h)

theorem heard_of_isFree (h : IsFree x.question) : heard [x] = [] := by
  refine heard_of_isDeaf (List.forall_mem_singleton.2 fun y hy hread => ?_)
  cases eq_onClient_of_onClient? hy
  match y, hread with
  | ⟨.read _, _⟩, _ => exact h

end Hosting

namespace Serving

open Socks5.Task (Leads)
open Hosting (Joins Joined Plain Engages IsPreliminary IsFree heard early carried)

variable {α β : Type} {methods : MethodRegistry} {past d : Dialogue Hostings} {w e : Bytes}

/-! ## Terms -/

/-- The bytes with which a client comes to be served: an offer, what the method that is chosen for
it reads until it has come to a verdict, and a request. -/
inductive Introduction (methods : MethodRegistry) : Bytes → Prop where
  | mk {offer : MethodOffer} {request : Request} {verdict : Verdict} {o q : Bytes}
      {d : Dialogue Channels} (offers : MethodOffer.decoder.parse o = .finished (.ok offer) [])
      (proves : Leads (serverFor methods offer.methods) d (.done verdict))
      (requests : Request.decoder.parse q = .finished (.ok request) []) :
      Introduction methods (o ++ heard (d.map Hosting.onChannel) ++ q)

/-- What holds of a dialogue at all times: once there is a connection, the client has been heard
with its introduction and no further, and what was written to the connection is the front of what
the client had sent in the meantime. -/
def Ordered (methods : MethodRegistry) (past : Dialogue Hostings) : Prop :=
  Joined past → Introduction methods (heard past) ∧ carried past <+: early past

/-- When a question may be asked. -/
def Timely (past : Dialogue Hostings) : Hosting.Ask → Prop
  | .channel (.stream (.read _)) | .connect _ _ | .awaitPeer _ | .hold => Plain past
  | .peer (.write bytes) => Joined past ∧ carried past ++ bytes = early past
  | .peer _ => False
  | .relay _ => Joined past ∧ carried past = early past
  | _ => True

/-- The terms on which a session reads from its client and writes to a connection. -/
def conduct (methods : MethodRegistry) : Terms Hostings where
  permits past q := Ordered methods past ∧ Timely past q

/-- Work that keeps to these terms. -/
def Conducts (methods : MethodRegistry) (past : Dialogue Hostings) (t : Task Hostings α) : Prop :=
  t.Keeps (conduct methods) past fun p _ => Ordered methods p

theorem ordered_of_plain (h : Plain past) : Ordered methods past := fun hj => absurd hj h.not_joined

theorem timely_of_isFree {q : Hosting.Ask} (h : IsFree q) : Timely past q := by
  cases q with
  | channel c =>
    match c with
    | .stream (.read _) => exact h.elim
    | .stream (.write _) => trivial
    | .stream .flush => trivial
    | .consult _ => trivial
    | .close => trivial
  | connect _ _ => exact h.elim
  | awaitPeer _ => exact absurd trivial h
  | hold => exact absurd trivial h
  | peer _ => exact absurd trivial h
  | relay _ => exact absurd trivial h
  | _ => trivial

/-- What holds of a dialogue still does when something was asked that is free. -/
structure Steady (methods : MethodRegistry) (P : Dialogue Hostings → Prop) : Prop where
  concat : ∀ {p x}, P p → IsFree x.question → P (p ++ [x])
  ordered : ∀ {p}, P p → Ordered methods p

/-- Work that asks only what is free keeps the terms. -/
theorem Steady.keeps {P : Dialogue Hostings → Prop} (hP : Steady methods P) (h : P past)
    {t : Task Hostings α} (ht : t.AsksOnly IsFree) :
    t.Keeps (conduct methods) past fun p _ => P p := by
  induction t generalizing past with
  | done a => exact Task.keeps_done.2 h
  | fail e => exact Task.keeps_fail.2 h
  | ask q next ih =>
    refine Task.keeps_ask.2 ⟨⟨hP.ordered h, timely_of_isFree ht.1⟩, fun a _ => ?_⟩
    exact ih a (hP.concat h ht.1) (ht.2 a)

/-- Free work, and what comes after it. -/
theorem Steady.bind {P : Dialogue Hostings → Prop} (hP : Steady methods P) (h : P past)
    {t : Task Hostings β} {f : β → Task Hostings α} (ht : t.AsksOnly IsFree)
    (hnext : ∀ p b, P p → Conducts methods p (f b)) : Conducts methods past (t.bind f) :=
  (hP.keeps h ht).bind (fun p b hp => hnext p b hp) fun _ _ hp => hP.ordered hp

theorem Steady.conducts {P : Dialogue Hostings → Prop} (hP : Steady methods P) (h : P past)
    {t : Task Hostings α} (ht : t.AsksOnly IsFree) : Conducts methods past t :=
  (hP.keeps h ht).weaken fun _ _ hp => hP.ordered hp

/-- A connection is there; `e` was sent early, and `w` of it is written. -/
structure Linked (methods : MethodRegistry) (e w : Bytes) (past : Dialogue Hostings) : Prop where
  joined : Joined past
  introduced : Introduction methods (heard past)
  sent : early past = e
  taken : carried past = w
  front : w <+: e

/-- The client has introduced itself, and nothing has come of it yet. -/
structure Ready (methods : MethodRegistry) (past : Dialogue Hostings) : Prop where
  plain : Plain past
  introduced : Introduction methods (heard past)

theorem heard_concat_of_isFree {x : Exchange Hostings} (h : IsFree x.question) :
    heard (past ++ [x]) = heard past := by
  rw [Hosting.heard_append, Hosting.heard_of_isFree h, List.append_nil]

theorem steady_ready (methods : MethodRegistry) : Steady methods (Ready methods) where
  concat h hx := by
    refine ⟨Hosting.plain_concat_iff.2 ⟨h.plain, Hosting.not_joins_of_isFree hx,
      Hosting.not_engages_of_isFree hx⟩, ?_⟩
    rw [heard_concat_of_isFree hx]
    exact h.introduced
  ordered h := ordered_of_plain h.plain

theorem steady_linked (methods : MethodRegistry) (e w : Bytes) :
    Steady methods (Linked methods e w) where
  concat {p x} h hx := by
    have hearly : Hosting.early [x] = [] := by
      simp [Hosting.early, Hosting.earlyIn_of_not_joins (Hosting.not_joins_of_isFree hx)]
    have hcarried : Hosting.carried [x] = [] := by
      simp [Hosting.carried, Hosting.carriedIn_of_not_engages (Hosting.not_engages_of_isFree hx)]
    refine ⟨h.joined.append [x], ?_, ?_, ?_, h.front⟩
    · rw [heard_concat_of_isFree hx]
      exact h.introduced
    · rw [Hosting.early_append, hearly, List.append_nil, h.sent]
    · rw [Hosting.carried_append, hcarried, List.append_nil, h.taken]
  ordered h _ := by
    refine ⟨h.introduced, ?_⟩
    rw [h.sent, h.taken]
    exact h.front

theorem steady_unjoined (methods : MethodRegistry) : Steady methods fun p => ¬ Joined p where
  concat h hx := by
    rw [Hosting.joined_concat_iff, not_or]
    exact ⟨h, Hosting.not_joins_of_isFree hx⟩
  ordered h hj := absurd hj h

theorem steady_ordered (methods : MethodRegistry) : Steady methods (Ordered methods) where
  concat {p x} h hx := by
    intro hj
    rw [Hosting.joined_concat_iff] at hj
    obtain ⟨hintroduced, hfront⟩ := h (hj.resolve_right (Hosting.not_joins_of_isFree hx))
    rw [heard_concat_of_isFree hx, Hosting.early_append, Hosting.carried_append]
    refine ⟨hintroduced, ?_⟩
    have hcarried : Hosting.carried [x] = [] := by
      simp [Hosting.carried, Hosting.carriedIn_of_not_engages (Hosting.not_engages_of_isFree hx)]
    rw [hcarried, List.append_nil]
    exact hfront.trans (List.prefix_append _ _)
  ordered h := h

/-! ## Relaying -/

/-- Work on the connection is a dialogue on its stream. -/
theorem leads_onPeer {t : Task Streams α} {d : Dialogue Hostings} {u : Task Hostings α}
    (h : Leads (onPeer t) d u) :
    ∃ d₀ u₀, Leads t d₀ u₀ ∧ d = d₀.map Hosting.onPeer ∧ u = onPeer u₀ := by
  induction t generalizing d with
  | done a =>
    obtain ⟨rfl, rfl⟩ := Task.leads_done_iff.1 h
    exact ⟨[], _, .refl _, rfl, rfl⟩
  | fail e =>
    obtain ⟨rfl, rfl⟩ := Task.leads_fail_iff.1 h
    exact ⟨[], _, .refl _, rfl, rfl⟩
  | ask q next ih =>
    rcases Task.leads_ask_iff.1 h with ⟨rfl, rfl⟩ | ⟨a, d', rfl, h'⟩
    · exact ⟨[], _, .refl _, rfl, rfl⟩
    · obtain ⟨d₀, u₀, h₀, rfl, rfl⟩ := ih a h'
      exact ⟨⟨q, a⟩ :: d₀, u₀, .step h₀, rfl, rfl⟩

/-- What is written to the connection is carried. -/
theorem Linked.append {d₀ : Dialogue Streams} (h : Linked methods e [] past)
    (hfront : Stream.taken d₀ <+: e) :
    Linked methods e (Stream.taken d₀) (past ++ d₀.map Hosting.onPeer) := by
  obtain ⟨hheard, hearly, hcarried⟩ : heard (d₀.map Hosting.onPeer) = [] ∧
      early (d₀.map Hosting.onPeer) = [] ∧ carried (d₀.map Hosting.onPeer) = Stream.taken d₀ := by
    clear hfront
    induction d₀ with
    | nil => exact ⟨rfl, rfl, rfl⟩
    | cons x d₀ ih => exact ⟨ih.1, ih.2.1, congrArg (Stream.takenIn x ++ ·) ih.2.2⟩
  refine ⟨h.joined.append _, ?_, ?_, ?_, hfront⟩
  · rw [Hosting.heard_append, hheard, List.append_nil]
    exact h.introduced
  · rw [Hosting.early_append, hearly, List.append_nil, h.sent]
  · rw [Hosting.carried_append, hcarried, h.taken, List.nil_append]

/-- Bytes are handed over to the connection as they are, and what comes after them. -/
theorem conducts_handOver_bind (h : Linked methods e [] past) {f : Unit → Task Hostings α}
    (hnext : ∀ p, Linked methods e e p → Conducts methods p (f ())) :
    Conducts methods past ((handOver e).bind f) := by
  have hwrite : (onPeer (Stream.writeAll e)).Keeps (conduct methods) past fun p r =>
      Ordered methods p ∧ (r = .ok () → Linked methods e e p) := by
    intro d u hl _
    obtain ⟨d₀, u₀, h₀, rfl, rfl⟩ := leads_onPeer hl
    cases Stream.leads_writeWithin h₀ with
    | @waits _ rest next takings split more =>
      have hlinked := h.append ⟨rest, split⟩
      refine ⟨(steady_linked methods e _).ordered hlinked, hlinked.joined, ?_⟩
      rw [hlinked.taken, hlinked.sent, split]
    | complete takings all =>
      have hfront : Stream.taken d₀ <+: e := ⟨[], by rw [all, List.append_nil]⟩
      have hlinked := h.append hfront
      exact ⟨(steady_linked methods e _).ordered hlinked, fun _ => all ▸ hlinked⟩
    | @broke d₁ rest stop cause takings split more breaks =>
      have htaken : Stream.taken (d₁ ++ [⟨.write rest, stop⟩]) = Stream.taken d₁ := by
        rw [Stream.taken_append, Stream.taken, Stream.taken, List.flatMap_singleton,
          Stream.takenIn_of_causeOf breaks, List.append_nil]
      have hfront : Stream.taken (d₁ ++ [⟨.write rest, stop⟩]) <+: e :=
        ⟨rest, by rw [htaken, split]⟩
      have hlinked := h.append hfront
      exact ⟨(steady_linked methods e _).ordered hlinked, fun hok => by cases hok⟩
  unfold handOver
  simp only [Task.bind_eq, Task.bind_assoc]
  refine hwrite.attempt_bind fun p outcome hp => ?_
  obtain ⟨hordered, hlinked⟩ := hp
  cases outcome with
  | ok _ => exact hnext p (hlinked rfl)
  | error failure => cases failure <;> exact Task.keeps_fail.2 hordered

theorem conducts_relay (s : Setting) (h : Linked methods e e past) :
    Conducts methods past (relay s) := by
  have htimely : Timely past (.relay s.config.bufferSize) :=
    ⟨h.joined, h.taken.trans h.sent.symm⟩
  refine Task.keeps_ask.2 ⟨⟨(steady_linked methods e e).ordered h, htimely⟩, fun outcome _ => ?_⟩
  have hrelayed : Linked methods e e (past ++ [⟨.relay s.config.bufferSize, outcome⟩]) := by
    refine ⟨h.joined.append _, ?_, ?_, ?_, h.front⟩
    · rw [Hosting.heard_append]
      exact (List.append_nil _).symm ▸ h.introduced
    · rw [Hosting.early_append, h.sent]
      exact List.append_nil e
    · rw [Hosting.carried_append, h.taken]
      exact List.append_nil e
  cases outcome with
  | ok stats => exact (steady_linked methods e e).conducts hrelayed (asksOnly_ask id)
  | error failure => exact Task.keeps_fail.2 ((steady_linked methods e e).ordered hrelayed)

/-! ## Commands -/

theorem asksOnly_writeWithin (bound : Nat) (bytes : Bytes) (h : bytes.length ≤ bound) :
    (Stream.writeWithin bound bytes h).AsksOnly fun q => ¬ Stream.IsRead q := by
  induction bound generalizing bytes with
  | zero =>
    cases bytes with
    | nil => trivial
    | cons b bytes => cases h
  | succ bound ih =>
    cases bytes with
    | nil => trivial
    | cons b bytes =>
      refine ⟨id, fun answer => ?_⟩
      match answer with
      | .error cause => trivial
      | .ok ⟨0, _⟩ => trivial
      | .ok ⟨taken + 1, _⟩ => exact ih _ _

/-- To write a message, nothing is read. -/
theorem asksOnly_send (encoded : Except Failure Bytes) :
    (Stream.send encoded).AsksOnly fun q => ¬ Stream.IsRead q := by
  cases encoded with
  | error e => trivial
  | ok bytes =>
    have hflush : Stream.flush.AsksOnly fun q => ¬ Stream.IsRead q := by
      refine ⟨id, fun answer => ?_⟩
      match answer with
      | .ok () => trivial
      | .error cause => trivial
    exact (asksOnly_writeWithin _ bytes (Nat.le_refl _)).bind fun _ => hflush

theorem isFree_stream {q : Stream.Ask} (h : ¬ Stream.IsRead q) : IsFree (.channel (.stream q)) := by
  cases q with
  | read room => exact absurd trivial h
  | write bytes => exact id
  | flush => exact id

theorem asksOnly_deliver [Message β] (message : β) : (deliver message).AsksOnly IsFree := by
  have hstream : ∀ {t : Task Streams Unit}, t.AsksOnly (fun q => ¬ Stream.IsRead q) →
      (onStream t).AsksOnly IsFree := by
    intro t ht
    induction t with
    | done a => trivial
    | fail e => trivial
    | ask q next ih =>
      refine ⟨isFree_stream ht.1, fun answer => ?_⟩
      cases answer with
      | none => trivial
      | some a => exact ih a (ht.2 a)
  exact hstream (asksOnly_send (Message.encode message))

/-- An attempt to connect that fails changes nothing for the client's bytes. -/
theorem Ready.concat {x : Exchange Hostings} (h : Ready methods past)
    (hx : ∃ limit address, x.question = .connect limit address) (hjoins : ¬ Joins x) :
    Ready methods (past ++ [x]) := by
  obtain ⟨limit, address, hq⟩ := hx
  obtain ⟨_, a⟩ := x
  obtain rfl : _ = Hosting.Ask.connect limit address := hq
  refine ⟨Hosting.plain_concat_iff.2 ⟨h.plain, hjoins, id⟩, ?_⟩
  rw [Hosting.heard_append]
  exact (List.append_nil _).symm ▸ h.introduced

/-- The first address that accepts makes a connection the one of the session. -/
theorem keeps_connectFirst (h : Ready methods past) (limit : Option Duration) (target : Target)
    (last : Option IoFailure) (addresses : List SocketAddr) :
    (connectFirst limit target last addresses).Keeps (conduct methods) past fun p r =>
      (r = .ok () → Linked methods [] [] p) ∧ ∀ e, r = .error e → Ready methods p := by
  induction addresses generalizing past last with
  | nil => exact Task.keeps_fail.2 ⟨nofun, fun _ _ => h⟩
  | cons address rest ih =>
    refine Task.keeps_ask.2 ⟨⟨ordered_of_plain h.plain, h.plain⟩, fun answer _ => ?_⟩
    cases answer with
    | expired after hlimit =>
      exact Task.keeps_fail.2 ⟨nofun, fun _ _ => h.concat ⟨limit, address, rfl⟩ id⟩
    | closed => exact Task.keeps_fail.2 ⟨nofun, fun _ _ => h.concat ⟨limit, address, rfl⟩ id⟩
    | value outcome =>
      cases outcome with
      | ok _ =>
        have hjoined : Joined (past ++ [⟨.connect limit address, .value (.ok ())⟩]) :=
          Hosting.joined_concat_iff.2 (.inr trivial)
        refine Task.keeps_done.2 ⟨fun _ => ⟨hjoined, ?_, ?_, ?_, ?_⟩, fun _ herr => by cases herr⟩
        · rw [Hosting.heard_append]
          exact (List.append_nil _).symm ▸ h.introduced
        · rw [Hosting.early_append, h.plain.early_eq_nil]
          rfl
        · rw [Hosting.carried_append, h.plain.carried_eq_nil]
          rfl
        · exact List.prefix_rfl
      | error cause =>
        have hready := h.concat (x := ⟨.connect limit address, .value (.error cause)⟩)
          ⟨limit, address, rfl⟩ id
        have hnote : (note (.unreached address cause)).AsksOnly IsFree := asksOnly_ask id
        refine ((steady_ready methods).keeps hready hnote).bind (fun p _ hp => ih hp _) ?_
        exact fun p e hp => ⟨nofun, fun _ _ => hp⟩

theorem conducts_connect (s : Setting) (target : Target) (h : Ready methods past) :
    Conducts methods past (connect s target) := by
  unfold connect
  simp only [Task.bind_eq]
  refine (steady_ready methods).bind h (asksOnly_ask id) fun p _ h => ?_
  refine (steady_ready methods).bind h (asksOnly_ask id) fun p _ h => ?_
  have hattempt : ((addresses s.config.timeout target).bind fun found =>
      connectFirst s.config.timeout target none found).Keeps (conduct methods) p fun p r =>
        (r = .ok () → Linked methods [] [] p) ∧ ∀ e, r = .error e → Ready methods p :=
    ((steady_ready methods).keeps h (asksOnly_addresses (fun _ _ _ => id) _ _)).bind
      (fun p found hp => keeps_connectFirst hp _ _ _ _) fun p e hp => ⟨nofun, fun _ _ => hp⟩
  refine hattempt.attempt_bind fun p outcome hp => ?_
  obtain ⟨hlinked, hready⟩ := hp
  have hsteady := steady_linked methods [] []
  cases outcome with
  | error e =>
    exact (steady_ready methods).conducts (hready e rfl) (asksOnly_reject asksOnly_deliver e)
  | ok _ =>
    refine hsteady.bind (hlinked rfl) (asksOnly_ask id) fun p answer h => ?_
    refine hsteady.bind h (asksOnly_obtain asksOnly_deliver answer) fun p bound h => ?_
    refine hsteady.bind h (asksOnly_deliver _) fun p _ h => ?_
    refine hsteady.bind h (asksOnly_ask id) fun p _ h => ?_
    exact conducts_relay s h

/-- A wait that ends without a connection is the end of the session. -/
theorem conducts_inbound_bind (h : ¬ Joined past) {limit : Option Duration}
    {answer : Hosting.Inbound limit} {f : SocketAddr × Bytes → Task Hostings α}
    (hanswer : ∀ peer early, answer ≠ .arrived peer early) :
    Conducts methods past ((inbound answer).bind f) := by
  have hreject : ∀ e, Conducts methods past ((reject e : Task Hostings _).bind f) := by
    intro e
    rw [reject_bind]
    exact (steady_unjoined methods).conducts h (asksOnly_reject asksOnly_deliver e)
  cases answer with
  | arrived peer early => exact absurd rfl (hanswer peer early)
  | failed cause => exact hreject _
  | expired after hlimit => exact hreject _
  | clientGone =>
    refine (steady_unjoined methods).conducts h ?_
    exact ⟨id, fun _ => trivial⟩
  | closed => exact (steady_unjoined methods).conducts (t := .fail .closed) h trivial

/-- A connection has come in. -/
theorem Ready.linked_of_arrived (h : Ready methods past) {limit : Option Duration}
    (peer : SocketAddr) (e : Bytes) :
    Linked methods e [] (past ++ [⟨.awaitPeer limit, .arrived peer e⟩]) := by
  refine ⟨Hosting.joined_concat_iff.2 (.inr trivial), ?_, ?_, ?_, List.nil_prefix⟩
  · rw [Hosting.heard_append]
    exact (List.append_nil _).symm ▸ h.introduced
  · rw [Hosting.early_append, h.plain.early_eq_nil]
    exact List.append_nil e
  · rw [Hosting.carried_append, h.plain.carried_eq_nil]
    rfl

/-- What was sent early goes first to a connection that has come in. -/
theorem conducts_arrived (s : Setting) {peer : SocketAddr} (h : Linked methods e [] past) :
    Conducts methods past ((ask .dropListener).bind fun _ =>
      (inbound (.arrived peer e : Hosting.Inbound s.config.timeout)).bind fun x =>
        (note (.accepted x.1)).bind fun _ => (deliver (Reply.success x.1)).bind fun _ =>
          if !x.2.isEmpty then
            (note .forwardingEarly).bind fun _ => (handOver x.2).bind fun _ =>
              (enter .bindRelaying).bind fun _ => relay s
          else (enter .bindRelaying).bind fun _ => relay s) := by
  have hsteady := steady_linked methods e []
  refine hsteady.bind h (asksOnly_ask id) fun p _ h => ?_
  refine hsteady.bind (t := note (.accepted peer)) h (asksOnly_ask id) fun p _ h => ?_
  refine hsteady.bind h (asksOnly_deliver _) fun p _ h => ?_
  have hrelay : ∀ p, Linked methods e e p →
      Conducts methods p ((enter .bindRelaying).bind fun _ => relay s) := fun p h =>
    (steady_linked methods e e).bind h (asksOnly_ask id) fun p _ h => conducts_relay s h
  cases e with
  | nil => exact hrelay p h
  | cons b e =>
    refine hsteady.bind h (asksOnly_ask id) fun p _ h => ?_
    exact conducts_handOver_bind h hrelay

theorem conducts_bind (s : Setting) (target : Target) (h : Ready methods past) :
    Conducts methods past (bind s target) := by
  unfold bind
  simp only [Task.bind_eq]
  have hsteady := steady_ready methods
  refine hsteady.bind h (asksOnly_ask id) fun p _ h => ?_
  refine hsteady.bind h (asksOnly_ask id) fun p answer h => ?_
  refine hsteady.bind h (asksOnly_obtain asksOnly_deliver answer) fun p address h => ?_
  refine (hsteady.keeps h (asksOnly_deliver _)).attempt_bind fun p outcome h => ?_
  cases outcome with
  | error e => exact hsteady.bind h (asksOnly_ask id) fun p _ h => hsteady.conducts h trivial
  | ok _ =>
    refine hsteady.bind h (asksOnly_ask id) fun p _ h => ?_
    refine Task.keeps_ask.2 ⟨⟨ordered_of_plain h.plain, h.plain⟩, fun answer _ => ?_⟩
    by_cases harrived : ∃ peer early, answer = .arrived peer early
    · obtain ⟨peer, e, rfl⟩ := harrived
      exact conducts_arrived s (h.linked_of_arrived peer e)
    · -- without a connection there is nothing left but to let go of the listener and fail
      have hnone : ¬ Joined (p ++ [⟨.awaitPeer s.config.timeout, answer⟩]) := by
        rw [Hosting.joined_concat_iff, not_or]
        refine ⟨h.plain.not_joined, fun hjoins => ?_⟩
        cases answer with
        | arrived peer e => exact harrived ⟨peer, e, rfl⟩
        | _ => exact hjoins
      refine (steady_unjoined methods).bind (t := ask .dropListener) hnone (asksOnly_ask id)
        fun p _ h => ?_
      exact conducts_inbound_bind h fun peer e heq => harrived ⟨peer, e, heq⟩

theorem conducts_associate (s : Setting) (target : Target) (h : Ready methods past) :
    Conducts methods past (associate s target) := by
  unfold associate
  simp only [Task.bind_eq]
  have hsteady := steady_ready methods
  refine hsteady.bind h (asksOnly_ask id) fun p answer h => ?_
  refine hsteady.bind h (asksOnly_obtain asksOnly_deliver answer) fun p address h => ?_
  refine hsteady.bind h (asksOnly_deliver _) fun p _ h => ?_
  refine hsteady.bind h (asksOnly_ask id) fun p _ h => ?_
  refine hsteady.bind h (asksOnly_ask id) fun p _ h => ?_
  refine Task.keeps_ask.2 ⟨⟨ordered_of_plain h.plain, h.plain⟩, fun held _ => ?_⟩
  have hnone : ¬ Joined (p ++ [⟨.hold, held⟩]) := by
    rw [Hosting.joined_concat_iff, not_or]
    exact ⟨h.plain.not_joined, id⟩
  refine (steady_unjoined methods).bind (t := ask .stopForwarding) hnone (asksOnly_ask id)
    fun p _ h => ?_
  refine (steady_unjoined methods).bind h (asksOnly_ask id) fun p _ h => ?_
  cases held <;> exact (steady_unjoined methods).conducts h trivial

theorem conducts_carryOut (s : Setting) (request : Request) (h : Ready methods past) :
    Conducts methods past (carryOut s request) := by
  unfold carryOut
  have hreject : ∀ e, Conducts methods past (reject e : Task Hostings Unit) := fun e =>
    (steady_ready methods).conducts h (asksOnly_reject asksOnly_deliver e)
  cases request.rejection with
  | some code => exact hreject _
  | none =>
    cases request.command? with
    | none => exact hreject _
    | some command =>
      cases command with
      | connect => exact conducts_connect s request.target h
      | bind => exact conducts_bind s request.target h
      | udpAssociate => exact conducts_associate s request.target h

/-! ## The introduction -/

theorem isPreliminary_of_ofChannel {q : Hosting.Ask} (h : OfChannel q) : IsPreliminary q := by
  cases q with
  | channel c => exact id
  | _ => exact h.elim

theorem isPreliminary_of_ofChoice {q : Hosting.Ask} (h : OfChoice q) : IsPreliminary q := by
  cases q with
  | enter _ | note _ | channel _ => exact id
  | _ => exact h.elim

theorem timely_of_isPreliminary {q : Hosting.Ask} (h : IsPreliminary q) (hplain : Plain past) :
    Timely past q := by
  by_cases hfree : IsFree q
  · exact timely_of_isFree hfree
  · unfold IsFree at hfree
    split at hfree
    · exact hplain
    · exact absurd h hfree

/-- Preliminary work may read from the client, and leaves no connection behind. -/
theorem keeps_preliminary (h : Plain past) {t : Task Hostings α} (ht : t.AsksOnly IsPreliminary) :
    t.Keeps (conduct methods) past fun p r =>
      ∃ d, p = past ++ d ∧ Leads t d (.ofExcept r) ∧ Plain p := by
  have hplain : ∀ {d : Dialogue Hostings}, (∀ x ∈ d, IsPreliminary x.question) →
      Plain (past ++ d) := by
    intro d hd
    refine List.forall_mem_append.2 ⟨h, fun x hx => ?_⟩
    have hkind := hd x hx
    exact ⟨Hosting.not_joins_of_isPreliminary hkind, Hosting.not_engages_of_isPreliminary hkind⟩
  refine (ht.keeps fun d q hd hq => ?_).weaken ?_
  · exact ⟨ordered_of_plain (hplain hd), timely_of_isPreliminary hq (hplain hd)⟩
  · intro p r hp
    obtain ⟨d, rfl, hd, hl⟩ := hp
    exact ⟨d, rfl, hl, hplain hd⟩

/-- Preliminary work, and what comes after it. -/
theorem conducts_preliminary_bind (h : Plain past) {t : Task Hostings β}
    {f : β → Task Hostings α} (ht : t.AsksOnly IsPreliminary)
    (hnext : ∀ d b, Leads t d (.done b) → Plain (past ++ d) → Conducts methods (past ++ d) (f b)) :
    Conducts methods past (t.bind f) := by
  refine (keeps_preliminary h ht).bind ?_ ?_
  · intro p b hp
    obtain ⟨d, rfl, hl, hplain⟩ := hp
    exact hnext d b hl hplain
  · intro p e hp
    obtain ⟨d, rfl, hl, hplain⟩ := hp
    exact ordered_of_plain hplain

theorem steady_plain (methods : MethodRegistry) (bytes : Bytes) :
    Steady methods fun p => Plain p ∧ heard p = bytes where
  concat h hx := by
    refine ⟨Hosting.plain_concat_iff.2 ⟨h.1, Hosting.not_joins_of_isFree hx,
      Hosting.not_engages_of_isFree hx⟩, ?_⟩
    rw [heard_concat_of_isFree hx, h.2]
  ordered h := ordered_of_plain h.1

/-- The request is the last that is read. -/
theorem conducts_obey (s : Setting) (h : Plain past)
    (hintroduces : ∀ q request, Request.decoder.parse q = .finished (.ok request) [] →
      Introduction methods (heard past ++ q)) : Conducts methods past (obey s) := by
  refine (steady_plain methods (heard past)).bind ⟨h, rfl⟩ (asksOnly_ask id) fun p _ hp => ?_
  obtain ⟨h, hheard⟩ := hp
  rw [← hheard] at hintroduces
  have hreceive : (receive Request).AsksOnly IsPreliminary :=
    (asksOnly_onChannel _).mono fun _ => isPreliminary_of_ofChannel
  refine conducts_preliminary_bind h hreceive fun d request hl hplain => ?_
  have hready : Ready methods (p ++ d) := by
    refine ⟨hplain, ?_⟩
    rw [Hosting.heard_append]
    exact hintroduces _ request ((leads_receive hl).value request rfl)
  refine (steady_ready methods).bind hready (asksOnly_ask id) fun p veto h => ?_
  cases veto with
  | some reason => exact (steady_ready methods).conducts (t := .fail (.aborted reason)) h trivial
  | none => exact conducts_carryOut s request h

theorem asksOnly_welcome_free (verdict : Verdict) : (welcome verdict).AsksOnly IsFree := by
  match verdict with
  | .admitted (some user) => exact .bind (asksOnly_ask id) fun _ => asksOnly_ask id
  | .admitted none => trivial
  | .refused _ => trivial

theorem conducts_authenticate (s : Setting) {offer : MethodOffer} (h : Plain past)
    (hoffers : MethodOffer.decoder.parse (heard past) = .finished (.ok offer) []) :
    Conducts s.methods past (authenticate s offer) := by
  refine (steady_plain s.methods (heard past)).bind ⟨h, rfl⟩ (asksOnly_ask id) fun p _ hp => ?_
  obtain ⟨h, hheard⟩ := hp
  rw [← hheard] at hoffers
  have hserver : (onChannel (serverFor s.methods offer.methods)).AsksOnly IsPreliminary :=
    (asksOnly_onChannel _).mono fun _ => isPreliminary_of_ofChannel
  refine conducts_preliminary_bind h hserver fun d verdict hl hplain => ?_
  obtain ⟨d₀, hproves, rfl⟩ := (leads_onChannel_ofExcept_iff (r := .ok verdict)).1 hl
  refine (steady_plain s.methods _).bind ⟨hplain, rfl⟩ (asksOnly_welcome_free verdict)
    fun p' _ hp => ?_
  obtain ⟨h, hheard'⟩ := hp
  refine conducts_obey s h fun q request hrequests => ?_
  rw [hheard', Hosting.heard_append]
  exact .mk hoffers hproves hrequests

theorem conducts_serve (s : Setting) (h : Plain past) (hheard : heard past = []) :
    Conducts s.methods past (serve s) := by
  rw [serve_eq]
  have hchoose : (choose s.methods).AsksOnly IsPreliminary :=
    (asksOnly_choose s.methods).mono fun _ => isPreliminary_of_ofChoice
  refine conducts_preliminary_bind h hchoose fun d offer hl hplain => ?_
  refine conducts_authenticate s hplain ?_
  obtain ⟨dr, dw, rfl, hr, hw⟩ := leads_choose_done_iff.1 hl
  have hanswer : heard dw = [] := by
    have hencode : Message.encode (MethodChoice.mk (s.methods.select offer.methods)) =
        .ok [version, s.methods.select offer.methods] := rfl
    exact Hosting.heard_of_isDeaf (leads_deliver hencode hw).deaf
  rw [Hosting.heard_append, hheard, List.nil_append, Hosting.heard_append]
  show MethodOffer.decoder.parse (heard dr ++ heard dw) = _
  rw [hanswer, List.append_nil]
  exact (leads_receive hr).value offer rfl

/-- Whatever it is answered, a session keeps to the terms. -/
theorem conducts_run (s : Setting) : Conducts s.methods [] (run s) := by
  rw [run_eq]
  have hplain : Plain ([] : Dialogue Hostings) := by simp [Plain]
  have hfinish : ∀ outcome, (finish outcome).AsksOnly IsFree := fun outcome =>
    .bind (asksOnly_ask id) fun _ => .bind (asksOnly_ask (q := .channel .close) id) fun _ =>
      asksOnly_ask id
  refine (steady_plain s.methods []).bind ⟨hplain, rfl⟩ (asksOnly_ask id) fun p veto hp => ?_
  cases veto with
  | some reason => exact (steady_plain s.methods []).conducts hp (hfinish _)
  | none =>
    refine (conducts_serve s hp.1 hp.2).attempt_bind fun p outcome hordered => ?_
    exact (steady_ordered s.methods).conducts hordered (hfinish outcome)

end Serving

end Socks5

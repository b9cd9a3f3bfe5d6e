import Socks5.Proofs.Relay.Delivery
import Socks5.Proofs.Session.Course
import Socks5.Proofs.Session.Introduction

/-!
# Conservation of the client's bytes

The stream of a client changes hands: messages are read from it, bytes that come while a connection
is awaited are gathered, these are written to the connection, and the rest is relayed. At all times
what has arrived is accounted for: it was heard, gathered, passed on, or is still to be read
(`Accounts.course`). Main statement: in every course of a session that has a connection, the stream
of the client is its introduction and what comes after it, and of the latter the connection has
taken the front, or all when the end of the client has ended the relay (`conserved_course`).
-/

namespace Socks5.LiveHost

open Hosting (IsFree Engages Joins Joined Plain heard carried)
open Serving (Timely Ordered Introduction)
open Source (Passes streamed)

variable {total : List Arrival} {past past' : Dialogue Hostings} {w w' : Wires}
  {t : Task Hostings Unit} {h : LiveHost}

/-! ## Accounts -/

/-- A relay that was started when the client had been heard and what came early had been written to
the connection. -/
inductive Underway (total : List Arrival) (past : Dialogue Hostings) : Relay → Prop where
  | mk {bufferSize : Nat} {client target : Duplex} (acts : List Relay.Act) (before : List Arrival)
      (arrives : total = before ++ Relay.arrivedAt .client acts)
      (passes : Passes before (heard past ++ Hosting.early past) client.source.arrivals)
      (accepts : target.sink.accepted = Hosting.early past) :
      Underway total past ((Relay.start bufferSize client target).after acts)

/-- As long as there is no connection to look for, the client has been heard and no further; while
one is awaited, what the client sends is gathered; and while the session is held it is let go. -/
def Attends (total : List Arrival) (past : Dialogue Hostings) (w : Wires) :
    Task Hostings Unit → Prop
  | .ask (.awaitPeer _) _ => Passes total (heard past ++ w.early) w.source.arrivals
  | .ask .hold _ => True
  | _ => w.early = [] ∧ Passes total (heard past) w.source.arrivals

/-- What has arrived from the client is accounted for by what was said and by what the host holds.
Nothing has been written to a connection before it is the one of the session. -/
structure Accounts (total : List Arrival) (past : Dialogue Hostings) (t : Task Hostings Unit)
    (w : Wires) : Prop where
  attends : Plain past → Attends total past w t
  carries : ∀ link, w.link = some link → w.relay = none →
    link.stream.sink.accepted = carried past ∧
      Passes total (heard past ++ Hosting.early past) w.source.arrivals
  relays : ∀ r, w.relay = some r → Underway total past r
  queued : ∀ peer stream, .ok (peer, stream) ∈ w.queue → stream.sink.accepted = []
  dialled : ∀ address link, w.network.dial address = some (.ok link) →
    link.stream.sink.accepted = []

theorem attends_of_passes (hearly : w.early = [])
    (hpasses : Passes total (heard past) w.source.arrivals) (t : Task Hostings Unit) :
    Attends total past w t := by
  unfold Attends
  split
  · rw [hearly, List.append_nil]
    exact hpasses
  · trivial
  · exact ⟨hearly, hpasses⟩

/-- Until a connection is awaited or the session is held, nothing is gathered. -/
theorem Attends.passes {q : Hosting.Ask} {next : Hosting.Answer q → Task Hostings Unit}
    (h : Attends total past w (.ask q next)) (hq : ¬ Engages q) :
    w.early = [] ∧ Passes total (heard past) w.source.arrivals := by
  cases q with
  | awaitPeer limit => exact absurd trivial hq
  | hold => exact absurd trivial hq
  | _ => exact h

theorem Underway.congr {r : Relay} (h : Underway total past r) (hheard : heard past' = heard past)
    (hearly : Hosting.early past' = Hosting.early past) : Underway total past' r := by
  cases h with
  | mk acts before arrives passes accepts =>
    refine .mk _ _ arrives ?_ (accepts.trans hearly.symm)
    rw [hheard, hearly]
    exact passes

/-- Connections that may still come have taken nothing. -/
def IsFresh (w : Wires) : Prop :=
  (∀ peer stream, .ok (peer, stream) ∈ w.queue → stream.sink.accepted = []) ∧
    ∀ address link, w.network.dial address = some (.ok link) → link.stream.sink.accepted = []

/-- Without a connection there is only the client to account for. -/
theorem accounts_of_unlinked (hlink : w.link = none) (hrelay : w.relay = none)
    (hattends : Plain past → Attends total past w t) (hfresh : IsFresh w) :
    Accounts total past t w where
  attends := hattends
  carries link hsome := by
    rw [hlink] at hsome
    cases hsome
  relays r hsome := by
    rw [hrelay] at hsome
    cases hsome
  queued := hfresh.1
  dialled := hfresh.2

theorem Accounts.isFresh (h : Accounts total past t w) : IsFresh w := ⟨h.queued, h.dialled⟩

theorem early_exchanged {q : Hosting.Ask} {a : Option (Hosting.Answer q)} (h : Unjoined q a) :
    Hosting.early (exchanged q a) = [] := by
  cases a with
  | none => rfl
  | some b =>
    have hearly := Hosting.earlyIn_of_not_joins (x := ⟨q, b⟩) (h b rfl)
    rw [exchanged_some, Hosting.early, List.flatMap_singleton, hearly]

theorem carried_exchanged {q : Hosting.Ask} (h : ¬ Engages q) (a : Option (Hosting.Answer q)) :
    carried (exchanged q a) = [] := by
  cases a with
  | none => rfl
  | some b =>
    have hcarried := Hosting.carriedIn_of_not_engages (x := ⟨q, b⟩) h
    rw [exchanged_some, carried, List.flatMap_singleton, hcarried]

/-- What is written to the connection is carried. -/
theorem carried_exchanged_write (bytes : Bytes)
    (a : Option (Except IoFailure (Fin (bytes.length + 1)))) :
    carried (exchanged (.peer (.write bytes)) a) = bytes.take (Sink.taken a) := by
  match a with
  | none => rfl
  | some (.error _) => rfl
  | some (.ok count) => exact List.append_nil _

/-- Of all that is engaged with a connection, nothing is heard. -/
theorem heard_exchanged_of_engages {q : Hosting.Ask} (h : Engages q)
    (a : Option (Hosting.Answer q)) : heard (exchanged q a) = [] := by
  cases a with
  | none => rfl
  | some b =>
    cases q with
    | awaitPeer limit => rfl
    | hold => rfl
    | peer q => rfl
    | relay bufferSize => rfl
    | _ => exact h.elim

/-- A connection that becomes the one of the session has taken nothing. -/
theorem accounts_of_joins {x : Exchange Hostings} {link : Link} (hplain : Plain past)
    (hjoins : Joins x) (hlink : w.link = some link) (haccepted : link.stream.sink.accepted = [])
    (hrelay : w.relay = none)
    (hpasses : Passes total (heard past ++ Hosting.earlyIn x) w.source.arrivals)
    (hfresh : IsFresh w) : Accounts total (past ++ [x]) t w := by
  obtain ⟨hheard, hcarried⟩ : heard [x] = [] ∧ carried [x] = [] := by
    unfold Joins at hjoins
    split at hjoins
    · exact ⟨rfl, rfl⟩
    · exact ⟨rfl, rfl⟩
    · exact hjoins.elim
  have hearly : Hosting.early [x] = Hosting.earlyIn x := List.append_nil _
  refine ⟨fun hplain => ?_, fun link' hlink' _ => ?_, fun r hr => ?_, hfresh.1, hfresh.2⟩
  · exact absurd (Hosting.joined_concat_iff.2 (.inr hjoins)) hplain.not_joined
  · obtain rfl := Option.some.inj (hlink.symm.trans hlink')
    rw [Hosting.carried_append, hplain.carried_eq_nil, hcarried, Hosting.heard_append, hheard,
      Hosting.early_append, hplain.early_eq_nil, hearly, List.append_nil, List.append_nil,
      List.nil_append]
    exact ⟨haccepted, hpasses⟩
  · rw [hrelay] at hr
    cases hr

/-- What is free changes nothing in the accounts. -/
theorem Accounts.free {q : Hosting.Ask} {next : Hosting.Answer q → Task Hostings Unit}
    {a : Option (Hosting.Answer q)} (h : Accounts total past (.ask q next) w) (hq : IsFree q)
    (t : Task Hostings Unit) : Accounts total (past ++ exchanged q a) t w := by
  have hengages : ¬ Engages q := Hosting.not_engages_of_isFree hq
  have hheard : heard (past ++ exchanged q a) = heard past := by
    cases a with
    | none => simp
    | some b => rw [exchanged_some, Serving.heard_concat_of_isFree hq]
  have hearly : Hosting.early (past ++ exchanged q a) = Hosting.early past := by
    rw [Hosting.early_append, early_exchanged fun b _ => Hosting.not_joins_of_isFree hq,
      List.append_nil]
  have hcarried : carried (past ++ exchanged q a) = carried past := by
    rw [Hosting.carried_append, carried_exchanged hengages, List.append_nil]
  refine ⟨fun hplain => ?_, fun link hlink hrelay => ?_, fun r hr => ?_, h.queued, h.dialled⟩
  · have hplain : Plain past := fun x hx => hplain x (List.mem_append_left _ hx)
    obtain ⟨hearly, hpasses⟩ := (h.attends hplain).passes hengages
    rw [← hheard] at hpasses
    exact attends_of_passes hearly hpasses t
  · rw [hheard, hearly, hcarried]
    exact h.carries link hlink hrelay
  · exact (h.relays r hr).congr hheard hearly

/-- Of all that is engaged with a connection and does not look for one, nothing is heard, early or
late. -/
theorem heard_early_exchanged {q : Hosting.Ask} (hq : Engages q) {a : Option (Hosting.Answer q)}
    (ha : Unjoined q a) (past : Dialogue Hostings) :
    heard (past ++ exchanged q a) = heard past ∧
      Hosting.early (past ++ exchanged q a) = Hosting.early past := by
  constructor
  · rw [Hosting.heard_append, heard_exchanged_of_engages hq, List.append_nil]
  · rw [Hosting.early_append, early_exchanged ha, List.append_nil]

/-- What the connection takes of a write is carried. -/
theorem Accounts.writes {bytes : Bytes} {link : Link} {stream : Duplex} {t' : Task Hostings Unit}
    {a : Option (Except IoFailure (Fin (bytes.length + 1)))} (h : Accounts total past t w)
    (hjoined : Joined past) (hlinked : w.link = some link)
    (hanswers : link.stream.answer (.write bytes) = (a, stream)) :
    Accounts total (past ++ exchanged (.peer (.write bytes)) a) t'
      { w with link := some { link with stream } } := by
  have hunjoined : Unjoined (.peer (.write bytes)) a := fun _ _ => id
  obtain ⟨hheard, hearly⟩ := heard_early_exchanged (by trivial) hunjoined past
  refine ⟨fun hplain => ?_, fun link' hlink hrelay => ?_, fun r hr => ?_, h.queued, h.dialled⟩
  · exact absurd (hjoined.append _) hplain.not_joined
  · obtain rfl := Option.some.inj hlink
    obtain ⟨haccepted, hpasses⟩ := h.carries link hlinked hrelay
    rw [hheard, hearly, Hosting.carried_append, carried_exchanged_write]
    refine ⟨?_, hpasses⟩
    rw [Duplex.answer, Prod.mk.injEq] at hanswers
    obtain ⟨rfl, rfl⟩ := hanswers
    rw [← haccepted]
    exact Sink.accepted_write bytes link.stream.sink
  · exact (h.relays r hr).congr hheard hearly

/-- When a relay starts, all that came early has been written, so that it takes up where that
ends. -/
theorem Accounts.starts {bufferSize : Nat} {link : Link} {sink : Sink} {t' : Task Hostings Unit}
    (h : Accounts total past t w) (hjoined : Joined past)
    (hall : carried past = Hosting.early past) (hlinked : w.link = some link)
    (hfresh : w.relay = none) :
    Accounts total past t'
      { w with relay := some (.start bufferSize ⟨w.source, sink⟩ link.stream) } := by
  obtain ⟨haccepted, hpasses⟩ := h.carries link hlinked hfresh
  refine ⟨fun hplain => absurd hjoined hplain.not_joined, fun link _ hrelay => ?_,
    fun r hr => ?_, h.queued, h.dialled⟩
  · cases hrelay
  · obtain rfl := Option.some.inj hr
    exact .mk [] total (List.append_nil total).symm hpasses (haccepted.trans hall)

/-- To be told what has become of the relay changes nothing. -/
theorem Accounts.tells {bufferSize : Nat} {r : Relay} {t' : Task Hostings Unit}
    (h : Accounts total past t w) (hjoined : Joined past) (hrelays : w.relay = some r) :
    Accounts total (past ++ exchanged (.relay bufferSize) r.outcome?) t' w := by
  have hunjoined : Unjoined (.relay bufferSize) r.outcome? := fun _ _ => id
  obtain ⟨hheard, hearly⟩ := heard_early_exchanged (by trivial) hunjoined past
  refine ⟨fun hplain => ?_, fun link hlink hrelay => ?_, fun r' hr => ?_, h.queued, h.dialled⟩
  · exact absurd (hjoined.append _) hplain.not_joined
  · rw [hrelays] at hrelay
    cases hrelay
  · exact (h.relays r' hr).congr hheard hearly

/-- Dealing with a question that is asked in time keeps the accounts. -/
theorem Accounts.dealt {q : Hosting.Ask} {next : Hosting.Answer q → Task Hostings Unit}
    {a : Option (Hosting.Answer q)} (h : Accounts total past (.ask q next) w)
    (hwired : Wired past w) (htimely : Timely past q) (hdealt : Dealt w q a w') :
    Accounts total (past ++ exchanged q a) (a.elim (.ask q next) next) w' := by
  -- Whatever reads from the client or looks for a connection is asked in time only while there is
  -- no connection; what is engaged with the connection, only when there is one.
  have halone : Plain past → w.link = none ∧ w.relay = none := fun hplain =>
    hwired.alone hplain.not_joined
  cases hdealt with
  | leaves free => exact h.free free _
  | lets =>
    have hfree := h.free (a := some ()) (id : IsFree .dropListener) (next ())
    refine ⟨hfree.attends, hfree.carries, hfree.relays, fun _ _ hqueued => ?_, hfree.dialled⟩
    cases hqueued
  | @reads room a source passes =>
    have hplain : Plain past := htimely
    obtain ⟨hlink, hrelay⟩ := halone hplain
    refine accounts_of_unlinked hlink hrelay (fun _ => ?_) h.isFresh
    obtain ⟨hearly, hpasses⟩ := (h.attends hplain).passes id
    refine attends_of_passes (w := { w with source }) hearly ?_ _
    rw [Hosting.heard_append]
    exact hpasses.trans passes
  | @misses limit address a unjoined =>
    have hplain : Plain past := htimely
    obtain ⟨hlink, hrelay⟩ := halone hplain
    refine accounts_of_unlinked hlink hrelay (fun _ => ?_) h.isFresh
    obtain ⟨hearly, hpasses⟩ := (h.attends hplain).passes id
    have hheard : heard (exchanged (.connect limit address) a) = [] := by cases a <;> rfl
    refine attends_of_passes hearly ?_ _
    rw [Hosting.heard_append, hheard, List.append_nil]
    exact hpasses
  | @dials limit address link dial =>
    have hplain : Plain past := htimely
    obtain ⟨_, hpasses⟩ := (h.attends hplain).passes id
    refine accounts_of_joins hplain trivial rfl (h.dialled address link dial) (halone hplain).2 ?_
      h.isFresh
    rw [show Hosting.earlyIn ⟨.connect limit address, .value (.ok ())⟩ = [] from rfl,
      List.append_nil]
    exact hpasses
  | @gathers limit bytes source passes =>
    have hplain : Plain past := htimely
    obtain ⟨hlink, hrelay⟩ := halone hplain
    refine accounts_of_unlinked hlink hrelay (fun _ => ?_) h.isFresh
    show Passes total (heard (past ++ []) ++ (w.early ++ bytes)) source.arrivals
    rw [List.append_nil, ← List.append_assoc]
    exact (h.attends hplain).trans passes
  | @accepts limit peer stream localAddr queue queued =>
    have hplain : Plain past := htimely
    have hmem : ∀ inbound, inbound ∈ queue → inbound ∈ w.queue := fun inbound hinbound => by
      rw [queued]
      exact List.mem_cons_of_mem _ hinbound
    have hfresh : stream.sink.accepted = [] := by
      refine h.queued peer stream ?_
      rw [queued]
      exact List.mem_cons_self
    exact accounts_of_joins hplain trivial rfl hfresh (halone hplain).2 (h.attends hplain)
      ⟨fun peer stream hqueued => h.queued peer stream (hmem _ hqueued), h.dialled⟩
  | @givesUp limit a source early queue unjoined queued =>
    have hplain : Plain past := htimely
    obtain ⟨hlink, hrelay⟩ := halone hplain
    refine accounts_of_unlinked hlink hrelay (fun hplain => ?_)
      ⟨fun peer stream hqueued => h.queued peer stream (queued hqueued), h.dialled⟩
    exact absurd trivial (Hosting.plain_concat_iff.1 hplain).2.2
  | @holds a source =>
    have hplain : Plain past := htimely
    obtain ⟨hlink, hrelay⟩ := halone hplain
    refine accounts_of_unlinked hlink hrelay (fun hplain => ?_) h.isFresh
    cases a with
    | none => trivial
    | some b => exact absurd trivial (Hosting.plain_concat_iff.1 hplain).2.2
  | @writes q link a stream linked answers =>
    cases q with
    | read room => exact htimely.elim
    | flush => exact htimely.elim
    | write bytes => exact h.writes htimely.1 linked answers
  | @starts bufferSize link sink linked fresh =>
    obtain ⟨hjoined, hall⟩ : Joined past ∧ carried past = Hosting.early past := htimely
    rw [exchanged_none, List.append_nil]
    exact h.starts hjoined hall linked fresh
  | tells linked relays => exact h.tells htimely.1 relays
  | lacks engages unlinked =>
    rw [exchanged_none, List.append_nil]
    exact h

/-- What happens keeps the accounts, and adds to them what arrives. -/
theorem Accounts.happened {arrived : List Arrival} (h : Accounts total past t w)
    (hwired : Wired past w) (hhappened : Happened w arrived w') :
    Accounts (total ++ arrived) past t w' := by
  cases hhappened with
  | leaves =>
    rw [List.append_nil]
    exact h
  | feeds _ unrelayed =>
    refine ⟨fun hplain => ?_, fun link hlink hrelay => ?_, fun r hr => ?_, h.queued, h.dialled⟩
    · have hattends := h.attends hplain
      unfold Attends at hattends ⊢
      split at hattends
      · exact hattends.append _
      · trivial
      · exact ⟨hattends.1, hattends.2.append _⟩
    · obtain ⟨haccepted, hpasses⟩ := h.carries link hlink hrelay
      exact ⟨haccepted, hpasses.append _⟩
    · rw [unrelayed] at hr
      cases hr
  | @acts r relays a =>
    refine ⟨fun hplain => ?_, fun link _ hrelay => ?_, fun r' hr => ?_, h.queued, h.dialled⟩
    · have hnone := (hwired.alone hplain.not_joined).2
      rw [relays] at hnone
      cases hnone
    · cases hrelay
    · obtain rfl := Option.some.inj hr
      cases h.relays r relays with
      | @mk bufferSize client target acts before arrives passes accepts =>
        have hafter : ((Relay.start bufferSize client target).after acts).act a =
            (Relay.start bufferSize client target).after (acts ++ [a]) :=
          (Relay.after_append _ acts [a]).symm
        rw [hafter]
        refine .mk _ before ?_ passes accepts
        rw [arrives, List.append_assoc, Relay.arrivedAt, Relay.arrivedAt, List.flatMap_append,
          List.flatMap_singleton]
  | @changes link link' linked accepts =>
    rw [List.append_nil]
    refine ⟨h.attends, fun link'' hlink hrelay => ?_, h.relays, h.queued, h.dialled⟩
    obtain rfl := Option.some.inj hlink
    rw [accepts]
    exact h.carries link linked hrelay
  | @queues inbound fresh =>
    rw [List.append_nil]
    refine ⟨h.attends, h.carries, h.relays, fun peer stream hqueued => ?_, h.dialled⟩
    rcases List.mem_append.1 hqueued with hqueued | hqueued
    · exact h.queued peer stream hqueued
    · exact fresh peer stream (List.mem_singleton.1 hqueued).symm

/-- At the beginning nothing has been said, and all that has arrived is still to be read. -/
theorem accounts_of_isNew (hnew : h.IsNew)
    (hdials : ∀ address link, h.network.dial address = some (.ok link) →
      link.stream.sink.accepted = []) (t : Task Hostings Unit) :
    Accounts h.session.stream.source.arrivals [] t h.wires := by
  refine accounts_of_unlinked hnew.link hnew.relay
    (fun _ => attends_of_passes hnew.early (.refl _) t) ⟨fun peer stream hqueued => ?_, hdials⟩
  have hqueued : .ok (peer, stream) ∈ h.queue := hqueued
  rw [hnew.queue] at hqueued
  cases hqueued

/-- At all times the client's bytes are accounted for. -/
theorem Accounts.course {methods : MethodRegistry} (haccounts : Accounts total past t h.wires)
    (hwired : Wired past h.wires) (hconducts : Serving.Conducts methods past t)
    (moves : List Move) :
    Accounts (total ++ sentIn moves) (past ++ said (t, h) moves) (course (t, h) moves).1
      (course (t, h) moves).2.wires := by
  -- A move is dealt with or something happens: the first adds to `past`, the second to `total`.
  induction moves generalizing t h past total with
  | nil => simpa [said, sentIn] using haccounts
  | cons m moves ih =>
    have hmoved := moved_move t h m
    rw [course_cons, said, sentIn, List.flatMap_cons, ← List.append_assoc, ← List.append_assoc]
    generalize move (t, h) m = s, saidIn (t, h) m = d at hmoved ⊢
    obtain ⟨t', h'⟩ := s
    have hconducts' := hconducts.leads hmoved.leads
      (Terms.honoured_of_allows (fun _ _ => trivial) past d)
    rcases hmoved.wires with ⟨q, next, a, rfl, rfl, rfl, hsilent, hdealt⟩ | ⟨rfl, rfl, hhappened⟩
    · have htimely : Timely past q := (Task.keeps_ask.1 hconducts).1.2
      rw [hsilent, List.append_nil]
      exact ih (haccounts.dealt hwired htimely hdealt) (hwired.dealt hdealt) hconducts'
    · rw [List.append_nil] at hconducts' ⊢
      exact ih (haccounts.happened hwired hhappened) (hwired.happened hhappened) hconducts'

/-! ## What the connection has taken -/

/-- The relay of a session comes to its end because that of the client has: it hears, while it
listens, that the direction from the client has stopped. -/
def EndedByClient (s : Task Hostings Unit × LiveHost) (moves : List Move) : Prop :=
  ∃ before after r, moves = before ++ .turn .hear :: after ∧
    (course s before).2.relay = some r ∧ r.HearsStop .outward

/-- A relay under way has passed on the front of what comes behind what was heard. -/
theorem Underway.exists_rest {r : Relay} (h : Underway total past r) :
    ∃ rest, streamed total = heard past ++ rest ∧ (r.stream .target).sink.accepted <+: rest := by
  cases h with
  | @mk bufferSize client target acts before arrives passes accepts =>
    have hcoupled := Relay.coupled_after bufferSize client target acts
    have hpasses := passes.append (Relay.arrivedAt .client acts)
    refine ⟨Hosting.early past ++
      streamed (client.source.arrivals ++ Relay.arrivedAt .client acts), ?_, ?_⟩
    · rw [arrives, hpasses.streamed_eq, List.append_assoc]
    · by_cases hfits : bufferSize ≤ Pipe.maxBuffer
      · obtain ⟨w, haccepted, hfront⟩ :=
          Relay.accepted_after bufferSize client target acts .outward hfits
        have haccepted : (((Relay.start bufferSize client target).after acts).stream
            .target).sink.accepted = target.sink.accepted ++ w := haccepted
        rw [haccepted, accepts]
        exact List.prefix_append_right_inj _ |>.2 (hfront.trans (List.take_prefix _ _))
      · rw [hcoupled.accepted_of_exceeds .target (by omega)]
        exact List.nil_prefix

/-- A relay that is about to hear of the end of the client, and of no failure, has passed on all
that comes behind what was heard, whatever may still arrive. -/
theorem Underway.streamed_eq_of_hearsStop {r : Relay} (h : Underway total past r)
    (hstops : r.HearsStop .outward) (hfaultless : r.IsFaultless) (more : List Arrival) :
    streamed (total ++ more) = heard past ++ (r.stream .target).sink.accepted := by
  cases h with
  | @mk bufferSize client target acts before arrives passes accepts =>
    obtain ⟨w, haccepted, hstreamed⟩ :=
      (Relay.coupled_after bufferSize client target acts).delivered_of_stopped hstops hfaultless
    have haccepted : (((Relay.start bufferSize client target).after acts).stream
        .target).sink.accepted = target.sink.accepted ++ w := haccepted
    have hrest :
        streamed (client.source.arrivals ++ (Relay.arrivedAt .client acts ++ more)) = w := by
      rw [← List.append_assoc]
      exact hstreamed more
    rw [arrives, List.append_assoc, passes, hrest, haccepted, accepts, List.append_assoc]

/-- What it has passed on then is all that it passes on. -/
theorem Underway.accepted_eq_of_hearsStop {r : Relay} {acts : List Relay.Act} {more : List Arrival}
    {rest : Bytes} (h : Underway total past r) (hstops : r.HearsStop .outward)
    (hfaultless : (r.after acts).IsFaultless) (hpast : heard past <+: heard past')
    (hstreamed : streamed (total ++ more) = heard past' ++ rest)
    (hrest : ((r.after acts).stream .target).sink.accepted <+: rest) :
    ((r.after acts).stream .target).sink.accepted = rest := by
  obtain ⟨hfaultless, hkept⟩ : r.IsFaultless ∧ (r.stream .target).sink.accepted <+:
      ((r.after acts).stream .target).sink.accepted := by
    cases h with
    | @mk bufferSize client target before _ _ _ _ =>
      have hcoupled := Relay.coupled_after bufferSize client target before
      exact ⟨hcoupled.isFaultless_of_after hfaultless,
        hcoupled.accepted_isPrefix_after acts .target⟩
  have hall := h.streamed_eq_of_hearsStop hstops hfaultless more
  rw [hstreamed] at hall
  -- The sink has only grown since, and never beyond `rest`, so that the lengths decide.
  have hlength := congrArg List.length hall
  rw [List.length_append, List.length_append] at hlength
  refine hrest.eq_of_length_le ?_
  have := hpast.length_le
  have := hkept.length_le
  omega

/-- Of the stream of its client a session with a connection has heard the front, and the connection
has taken the front of the rest. -/
theorem Accounts.exists_rest {methods : MethodRegistry} (haccounts : Accounts total past t h.wires)
    (hordered : Ordered methods past) (hjoined : Joined past) {peer : Duplex}
    (hpeer : h.peer? = some peer) :
    ∃ rest, streamed total = heard past ++ rest ∧ peer.sink.accepted <+: rest := by
  unfold LiveHost.peer? at hpeer
  cases hrelay : h.relay with
  | some r =>
    rw [hrelay] at hpeer
    obtain rfl := Option.some.inj hpeer
    exact (haccounts.relays r hrelay).exists_rest
  | none =>
    rw [hrelay] at hpeer
    obtain ⟨link, hlink, rfl⟩ :=
      Option.map_eq_some_iff.1 (hpeer : h.link.map (·.stream) = some peer)
    obtain ⟨haccepted, hpasses⟩ := haccounts.carries link hlink hrelay
    refine ⟨Hosting.early past ++ streamed h.session.stream.source.arrivals, ?_, ?_⟩
    · rw [hpasses.streamed_eq, List.append_assoc]
      rfl
    · rw [haccepted]
      exact (hordered hjoined).2.trans (List.prefix_append _ _)

/-- In every course of a session, as soon as it has a connection the stream of its client is an
introduction and what comes behind it, and the connection has taken the front of the latter. It has
taken all of it when the end of the client has ended the relay, and no pipe has told of a failure.
The introduction is what the session has heard; where the methods delimit what they read, it is the
only one that the stream begins with. -/
theorem conserved_course (s : Serving.Setting) (hnew : h.IsNew)
    (hdials : ∀ address link, h.network.dial address = some (.ok link) →
      link.stream.sink.accepted = []) (moves : List Move) {peer : Duplex}
    (hpeer : (course (Serving.run s, h) moves).2.peer? = some peer) :
    let sent := streamed (h.session.stream.source.arrivals ++ sentIn moves)
    ∃ H D, sent = H ++ D ∧ H = heard (said (Serving.run s, h) moves) ∧
      Introduction s.methods H ∧ peer.sink.accepted <+: D ∧
      (EndedByClient (Serving.run s, h) moves →
        (∀ r, (course (Serving.run s, h) moves).2.relay = some r → r.IsFaultless) →
        peer.sink.accepted = D) ∧
      (Serving.IsDelimited s.methods → ∀ H' D', sent = H' ++ D' → Introduction s.methods H' →
        H' = H ∧ D' = D) := by
  intro sent
  have hconducts := Serving.conducts_run s
  -- For every course, since what the relay heard last is read off a part of this one.
  have haccounts : ∀ moves, Accounts (h.session.stream.source.arrivals ++ sentIn moves)
      (said (Serving.run s, h) moves) (course (Serving.run s, h) moves).1
      (course (Serving.run s, h) moves).2.wires :=
    fun moves => (accounts_of_isNew hnew hdials _).course hnew.wired hconducts moves
  have hjoined : Joined (said (Serving.run s, h) moves) :=
    (wired_course (t := Serving.run s) hnew.wired moves).joined_of_peer? hpeer
  have hordered := (conduct_course s h moves).1
  obtain ⟨D, hsent, hfront⟩ := (haccounts moves).exists_rest hordered hjoined hpeer
  have hintroduced := (hordered hjoined).1
  refine ⟨_, D, hsent, rfl, hintroduced, hfront, fun hended hfaultless => ?_,
    fun hdelimited H' D' hsent' hintroduced' => ?_⟩
  · obtain ⟨before, after, r, rfl, hrelay, hstops⟩ := hended
    obtain ⟨acts, hacts⟩ := exists_relay_course (t := (course (Serving.run s, h) before).1) hrelay
      (.turn .hear :: after)
    have hafter : (course (Serving.run s, h) (before ++ .turn .hear :: after)).2.relay =
        some (r.after acts) := by
      rw [course_append]
      exact hacts
    have hstream : peer = (r.after acts).stream .target := by
      rw [LiveHost.peer?, hafter] at hpeer
      exact (Option.some.inj hpeer).symm
    have hpast : heard (said (Serving.run s, h) before) <+:
        heard (said (Serving.run s, h) (before ++ .turn .hear :: after)) := by
      rw [said_append, Hosting.heard_append]
      exact List.prefix_append _ _
    have hstreamed : streamed (h.session.stream.source.arrivals ++ sentIn before ++
        sentIn (.turn .hear :: after)) =
          heard (said (Serving.run s, h) (before ++ .turn .hear :: after)) ++ D := by
      rw [← hsent, List.append_assoc, sentIn, sentIn, ← List.flatMap_append]
      rfl
    rw [hstream] at hfront ⊢
    exact ((haccounts before).relays r hrelay).accepted_eq_of_hearsStop hstops
      (hfaultless _ hafter) hpast hstreamed hfront
  · exact hintroduced'.eq_of_append hdelimited hintroduced (hsent'.symm.trans hsent)

/-- An offer, and a request to connect. -/
def eagerIntroduction : Bytes := [0x05, 0x01, 0x00, 0x05, 0x01, 0x00, 0x01, 127, 0, 0, 1, 0, 80]

/-- A client that sends a byte for the target together with its introduction, and ends; whoever is
dialled accepts. -/
def eagerHost : LiveHost where
  session := .alone .unspecified .unspecified
    { source := ⟨[.piece (eagerIntroduction ++ [0x2a]), .finish], 0⟩ }
  network :=
    { lookup := fun _ _ => .ok []
      dial := fun _ => some (.ok ⟨{ source := ⟨[], 0⟩ }, .ok .unspecified⟩)
      openSocket := fun _ _ _ => .error .notConnected }

/-- The host deals with everything up to the relay, which copies the byte, finds the end, and is
about to hear of it. -/
def eagerMoves : List Move :=
  .replicate 26 .deal ++ .replicate 4 (.turn (.advance .outward 1)) ++ .replicate 3 (.turn .hear)

/-- The target gets that byte, and nothing of what comes before it. -/
theorem conserved_course_eagerHost :
    ∃ peer, (course (Serving.run openSetting, eagerHost) (eagerMoves ++ [.turn .hear])).2.peer? =
        some peer ∧ peer.sink.accepted = [0x2a] ∧
      Introduction openSetting.methods eagerIntroduction := by
  have hdials : ∀ address link, eagerHost.network.dial address = some (.ok link) →
      link.stream.sink.accepted = [] := by
    intro address link hdial
    cases hdial
    rfl
  obtain ⟨peer, hpeer⟩ : ∃ peer, (course (Serving.run openSetting, eagerHost)
      (eagerMoves ++ [.turn .hear])).2.peer? = some peer := ⟨_, rfl⟩
  obtain ⟨H, D, hsent, hheard, hintroduced, _, hall, _⟩ :=
    conserved_course openSetting ⟨rfl, rfl, rfl, rfl⟩ hdials _ hpeer
  obtain rfl : H = eagerIntroduction := hheard
  have hsent : eagerIntroduction ++ [0x2a] = eagerIntroduction ++ D := hsent
  obtain rfl : [0x2a] = D := List.append_cancel_left hsent
  refine ⟨peer, hpeer, hall ⟨eagerMoves, [], _, rfl, rfl, rfl, 1, rfl⟩ ?_, hintroduced⟩
  intro r hr
  have hevents : (course (Serving.run openSetting, eagerHost)
      (eagerMoves ++ [.turn .hear])).2.relay.map (fun r => (r.outward.events, r.inward.events)) =
        some ([.started, .transferred 1, .stopped 1], [.started]) := rfl
  rw [hr] at hevents
  obtain ⟨hout, hback⟩ := Prod.mk.inj (Option.some.inj hevents)
  intro d
  cases d with
  | outward =>
    show ∀ e ∈ r.outward.events, e.cause? = none
    rw [hout]
    decide
  | inward =>
    show ∀ e ∈ r.inward.events, e.cause? = none
    rw [hback]
    decide

end Socks5.LiveHost

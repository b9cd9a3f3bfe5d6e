import Mathlib.Data.List.Basic
import Socks5.Proofs.Relay.Settling
import Socks5.Proofs.Session.Conduct
import Socks5.Session.LiveHost

/-!
# The course of a session

A session over a host in memory goes on step by step, and between its steps anything may happen: to
the stream of its client, to its connection, at its listener, and to the session itself. A relay
takes its steps one at a time. Main statements: serving a session is such a course
(`exists_own_serve`), what a move does to what the host holds of the client's stream and of the
connection (`dealt_reply`, `happened_happen`), and that a session which has a connection has one at
its host, whose relay lives the life of a relay (`wired_course`).
-/

namespace Socks5

/-! ## Moves -/

/-- What may happen to a host from outside. -/
inductive Happening where
  | feed (arrivals : List Arrival)
  | setIntake (rule : Intake)
  | feedPeer (arrivals : List Arrival)
  | setPeerIntake (rule : Intake)
  | arrive (peer : SocketAddr) (arrivals : List Arrival) (rule : Intake)
  | failToAccept (cause : IoFailure)
  | receive (source : SocketAddr) (datagram : Bytes)
  | wait (milliseconds : Nat)
  | close

/-- A move in the course of a session: the host deals with what is asked, the relay takes a step, or
something happens. -/
inductive Move where
  | deal
  | turn (turn : RelayTurn)
  | happen (event : Happening)

/-- What arrives from the client when something happens. -/
def Happening.arrivals : Happening → List Arrival
  | .feed arrivals => arrivals
  | _ => []

/-- What arrives from the client with a move. -/
def Move.arrivals : Move → List Arrival
  | .happen event => event.arrivals
  | .deal | .turn _ => []

/-- What arrives from the client in the course of a session. -/
def sentIn (moves : List Move) : List Arrival := moves.flatMap Move.arrivals

/-- A question with its answer, if there is one. -/
def exchanged (q : Hosting.Ask) : Option (Hosting.Answer q) → Dialogue Hostings
  | none => []
  | some a => [⟨q, a⟩]

@[simp] theorem exchanged_none (q : Hosting.Ask) : exchanged q none = [] := rfl

@[simp] theorem exchanged_some {q : Hosting.Ask} (a : Hosting.Answer q) :
    exchanged q (some a) = [⟨q, a⟩] := rfl

namespace LiveHost

/-- A host after something has happened. -/
def happen (h : LiveHost) : Happening → LiveHost
  | .feed arrivals => h.updateClient fun d => { d with source := d.source.feed arrivals }
  | .setIntake rule => h.updateClient fun d => { d with sink := { d.sink with intake := rule } }
  | .feedPeer arrivals => h.updatePeer fun d => { d with source := d.source.feed arrivals }
  | .setPeerIntake rule => h.updatePeer fun d => { d with sink := { d.sink with intake := rule } }
  | .arrive peer arrivals rule => h.arrive peer ⟨⟨arrivals, 0⟩, .empty rule⟩
  | .failToAccept cause =>
    if h.listener.isSome then { h with queue := h.queue ++ [.error cause] } else h
  | .receive source datagram => (h.receive source datagram).2
  | .wait milliseconds => h.wait milliseconds
  | .close => h.close.2

/-- What the host does about a question at one time. A relay is only started, and its outcome is
told when there is one. -/
def reply : (q : Hosting.Ask) → LiveHost → Option (Hosting.Answer q) × LiveHost
  | .relay bufferSize, h =>
    match h.link, h.relay with
    | none, _ => (none, h)
    | some link, none =>
      (none, { h with relay := some (.start bufferSize h.session.stream link.stream) })
    | some _, some r => (r.outcome?, h)
  | q, h => h.answer q

/-- A move. -/
def move : Task Hostings Unit × LiveHost → Move → Task Hostings Unit × LiveHost
  | (.ask q next, h), .deal =>
    match h.reply q with
    | (some a, h) => (next a, h)
    | (none, h) => (.ask q next, h)
  | (t, h), .deal => (t, h)
  | (t, h), .turn turn =>
    (t, { h with relay := h.relay.map (·.act (.turn h.session.isSignalled turn)) })
  | (t, h), .happen event => (t, h.happen event)

/-- What is said with a move. -/
def saidIn : Task Hostings Unit × LiveHost → Move → Dialogue Hostings
  | (.ask q _, h), .deal => exchanged q (h.reply q).1
  | _, _ => []

/-- The course of a session. -/
def course (s : Task Hostings Unit × LiveHost) (moves : List Move) :
    Task Hostings Unit × LiveHost := moves.foldl move s

/-- What is said in the course of a session. -/
def said (s : Task Hostings Unit × LiveHost) : List Move → Dialogue Hostings
  | [] => []
  | m :: moves => saidIn s m ++ said (move s m) moves

variable {s : Task Hostings Unit × LiveHost} {t : Task Hostings Unit} {h : LiveHost}

@[simp] theorem course_nil (s : Task Hostings Unit × LiveHost) : course s [] = s := rfl

@[simp] theorem course_cons (s : Task Hostings Unit × LiveHost) (m : Move) (moves : List Move) :
    course s (m :: moves) = course (move s m) moves := rfl

theorem course_append (s : Task Hostings Unit × LiveHost) (moves moves' : List Move) :
    course s (moves ++ moves') = course (course s moves) moves' := List.foldl_append

theorem said_append (s : Task Hostings Unit × LiveHost) (moves moves' : List Move) :
    said s (moves ++ moves') = said s moves ++ said (course s moves) moves' := by
  induction moves generalizing s with
  | nil => rfl
  | cons m moves ih => simp [said, ih]

/-- What a move can do: the host deals with a question, the relay takes a step or something happens;
work that is over stays so. -/
inductive Moved (t : Task Hostings Unit) (h : LiveHost) :
    Move → Dialogue Hostings → Task Hostings Unit × LiveHost → Prop where
  | dealt {q : Hosting.Ask} {next : Hosting.Answer q → Task Hostings Unit}
      {a : Option (Hosting.Answer q)} {h' : LiveHost} (asks : t = .ask q next)
      (reply : h.reply q = (a, h')) : Moved t h .deal (exchanged q a) (a.elim t next, h')
  | rests (ended : t.outcome?.isSome) : Moved t h .deal [] (t, h)
  | turned (turn : RelayTurn) :
      Moved t h (.turn turn) []
        (t, { h with relay := h.relay.map (·.act (.turn h.session.isSignalled turn)) })
  | happened (event : Happening) : Moved t h (.happen event) [] (t, h.happen event)

theorem moved_move (t : Task Hostings Unit) (h : LiveHost) (m : Move) :
    Moved t h m (saidIn (t, h) m) (move (t, h) m) := by
  cases m with
  | turn turn => cases t <;> exact .turned turn
  | happen event => cases t <;> exact .happened event
  | deal =>
    cases t with
    | done a => exact .rests rfl
    | fail e => exact .rests rfl
    | ask q next =>
      rcases hreply : h.reply q with ⟨_ | a, h'⟩
      · simp only [saidIn, move, hreply]
        exact .dealt rfl hreply
      · simp only [saidIn, move, hreply]
        exact .dealt rfl hreply

theorem Moved.leads {m : Move} {d : Dialogue Hostings} (hmoved : Moved t h m d s) :
    Task.Leads t d s.1 := by
  cases hmoved with
  | @dealt q next a h' asks reply =>
    rw [asks]
    cases a with
    | none => exact .refl _
    | some a => exact .step (.refl _)
  | rests ended => exact .refl _
  | turned turn => exact .refl _
  | happened event => exact .refl _

/-- What is said in its course is a dialogue of the session. -/
theorem leads_course (t : Task Hostings Unit) (h : LiveHost) (moves : List Move) :
    Task.Leads t (said (t, h) moves) (course (t, h) moves).1 := by
  induction moves generalizing t h with
  | nil => exact .refl _
  | cons m moves ih => exact (moved_move t h m).leads.trans (ih _ _)

/-! ## Steps of its own -/

/-- A step that a session takes by itself: nothing has to happen for it. -/
def IsOwn : Move → Prop
  | .deal | .turn _ => True
  | .happen _ => False

theorem move_deal {q : Hosting.Ask} (next : Hosting.Answer q → Task Hostings Unit)
    {a : Option (Hosting.Answer q)} {h' : LiveHost} (hreply : h.reply q = (a, h')) :
    move (.ask q next, h) .deal = (a.elim (.ask q next) next, h') ∧
      saidIn (.ask q next, h) .deal = exchanged q a := by
  cases a with
  | none => simp only [move, saidIn, hreply, Option.elim_none, and_self]
  | some a => simp only [move, saidIn, hreply, Option.elim_some, and_self]

theorem isOwn_map_turn (ts : List RelayTurn) : ∀ m ∈ ts.map Move.turn, IsOwn m := by
  intro m hm
  obtain ⟨turn, _, rfl⟩ := List.mem_map.1 hm
  trivial

theorem course_turns (t : Task Hostings Unit) (h : LiveHost) (ts : List RelayTurn) :
    course (t, h) (ts.map .turn) =
        (t, { h with relay := h.relay.map (·.after (Relay.turns h.session.isSignalled ts)) }) ∧
      said (t, h) (ts.map .turn) = [] := by
  induction ts generalizing h with
  | nil =>
    refine ⟨?_, rfl⟩
    show (t, h) = (t, { h with relay := h.relay.map fun r => r })
    rw [Option.map_id']
  | cons turn ts ih =>
    have hmove : move (t, h) (.turn turn) =
        (t, { h with relay := h.relay.map (·.act (.turn h.session.isSignalled turn)) }) := by
      cases t <;> rfl
    have hsaid : saidIn (t, h) (.turn turn) = [] := by cases t <;> rfl
    obtain ⟨hcourse, hnone⟩ := ih
      { h with relay := h.relay.map (·.act (.turn h.session.isSignalled turn)) }
    constructor
    · rw [List.map_cons, course_cons, hmove, hcourse]
      cases h.relay <;> rfl
    · rw [List.map_cons, said, hmove, hsaid, hnone]
      rfl

/-- A relay goes on step by step for as long as it can, and then its outcome is asked for. -/
theorem exists_own_relayOn {bufferSize : Nat} {link : Link} {r : Relay}
    (next : Hosting.Answer (.relay bufferSize) → Task Hostings Unit) (hlink : h.link = some link)
    (hrelay : h.relay = some r) :
    ∃ own, (∀ m ∈ own, IsOwn m) ∧ course (.ask (.relay bufferSize) next, h) own =
      ((h.relayOn bufferSize).1.elim (.ask (.relay bufferSize) next) next,
        (h.relayOn bufferSize).2) := by
  obtain ⟨ts, hts⟩ := Relay.exists_turns_settle h.session.isSignalled r
  have hrelayOn : h.relayOn bufferSize = ((r.settle h.session.isSignalled).outcome?,
      { h with relay := some (r.settle h.session.isSignalled) }) := by
    simp [relayOn, hlink, hrelay]
  have hturns := (course_turns (.ask (.relay bufferSize) next) h ts).1
  rw [hrelay, Option.map_some, ← hts] at hturns
  refine ⟨ts.map .turn ++ [.deal], ?_, ?_⟩
  · exact List.forall_mem_append.2 ⟨isOwn_map_turn ts, List.forall_mem_singleton.2 trivial⟩
  · rw [course_append, hturns, hrelayOn]
    exact (move_deal next (by simp [reply, hlink])).1

/-- What a host answers at once, it answers after steps of its own. -/
theorem exists_own_answer {q : Hosting.Ask} (next : Hosting.Answer q → Task Hostings Unit)
    (h : LiveHost) :
    ∃ own, (∀ m ∈ own, IsOwn m) ∧ course (.ask q next, h) own =
      ((h.answer q).1.elim (.ask q next) next, (h.answer q).2) := by
  have hdeal : h.reply q = h.answer q →
      ∃ own, (∀ m ∈ own, IsOwn m) ∧ course (.ask q next, h) own =
        ((h.answer q).1.elim (.ask q next) next, (h.answer q).2) := fun hreply =>
    ⟨[.deal], List.forall_mem_singleton.2 trivial, (move_deal next hreply).1⟩
  -- Only to the question for the relay does the host reply otherwise than it answers.
  cases q with
  | relay bufferSize =>
    cases hlink : h.link with
    | none => exact hdeal (by simp [reply, answer, relayOn, hlink])
    | some link =>
      cases hrelay : h.relay with
      | some r => exact exists_own_relayOn next hlink hrelay
      | none =>
        let started : LiveHost :=
          { h with relay := some (.start bufferSize h.session.stream link.stream) }
        have hstarted : h.reply (.relay bufferSize) = (none, started) := by
          simp [reply, hlink, hrelay, started]
        have hrelayOn : h.answer (.relay bufferSize) = started.relayOn bufferSize := by
          simp [answer, relayOn, hlink, hrelay, started]
        obtain ⟨own, hown, hcourse⟩ := exists_own_relayOn (h := started) next hlink rfl
        refine ⟨.deal :: own, List.forall_mem_cons.2 ⟨trivial, hown⟩, ?_⟩
        rw [course_cons, (move_deal next hstarted).1, hrelayOn]
        exact hcourse
  | _ => exact hdeal rfl

/-- What serving a session comes to, until it is over or has to wait, is where steps of its own
lead. -/
theorem exists_own_serve (t : Task Hostings Unit) (h : LiveHost) :
    ∃ own, (∀ m ∈ own, IsOwn m) ∧ course (t, h) own = h.serve t := by
  induction t generalizing h with
  | done a => exact ⟨[], by simp, rfl⟩
  | fail e => exact ⟨[], by simp, rfl⟩
  | ask q next ih =>
    obtain ⟨own, hown, hcourse⟩ := exists_own_answer next h
    have hserve := Task.settle_ask (I := Hostings) answer q next h
    rcases hanswer : h.answer q with ⟨_ | a, h'⟩
    · rw [hanswer] at hcourse hserve
      exact ⟨own, hown, hcourse.trans hserve.symm⟩
    · rw [hanswer] at hcourse hserve
      obtain ⟨own', hown', hrest⟩ := ih a h'
      refine ⟨own ++ own', List.forall_mem_append.2 ⟨hown, hown'⟩, ?_⟩
      rw [course_append, hcourse]
      exact hrest.trans hserve.symm

/-! ## What a host holds -/

/-- What a host holds of the stream of the client and of the connection, and where connections come
from. -/
structure Wires where
  source : Source
  link : Option Link
  relay : Option Relay
  early : Bytes
  queue : List (Except IoFailure (SocketAddr × Duplex))
  network : Network

/-- What a host holds. -/
def wires (h : LiveHost) : Wires :=
  ⟨h.session.stream.source, h.link, h.relay, h.early, h.queue, h.network⟩

open Hosting (IsFree Engages Joins Joined heard)

/-- No connection becomes the one of the session with an answer. -/
def Unjoined (q : Hosting.Ask) (a : Option (Hosting.Answer q)) : Prop :=
  ∀ b, a = some b → ¬ Joins ⟨q, b⟩

theorem unjoined_none (q : Hosting.Ask) : Unjoined q none := nofun

theorem unjoined_some {q : Hosting.Ask} {a : Hosting.Answer q} (h : ¬ Joins ⟨q, a⟩) :
    Unjoined q (some a) := by
  intro b hb
  cases hb
  exact h

/-- What the host does about a question, by what it comes to for what the host holds. -/
inductive Dealt (w : Wires) : (q : Hosting.Ask) → Option (Hosting.Answer q) → Wires → Prop where
  | leaves {q : Hosting.Ask} {a : Option (Hosting.Answer q)} (free : IsFree q) : Dealt w q a w
  | lets : Dealt w .dropListener (some ()) { w with queue := [] }
  | reads {room : Nat} {a : Option (Hosting.Answer (.channel (.stream (.read room))))}
      (source : Source)
      (passes : Source.Passes w.source.arrivals (heard (exchanged _ a)) source.arrivals) :
      Dealt w (.channel (.stream (.read room))) a { w with source }
  | misses {limit : Option Duration} {address : SocketAddr}
      {a : Option (Hosting.Answer (.connect limit address))}
      (unjoined : Unjoined _ a) : Dealt w (.connect limit address) a w
  | dials {limit : Option Duration} {address : SocketAddr} {link : Link}
      (dial : w.network.dial address = some (.ok link)) :
      Dealt w (.connect limit address) (some (.value (.ok ()))) { w with link := some link }
  | gathers {limit : Option Duration} {bytes : Bytes} {source : Source}
      (passes : Source.Passes w.source.arrivals bytes source.arrivals) :
      Dealt w (.awaitPeer limit) none { w with source, early := w.early ++ bytes }
  | accepts {limit : Option Duration} {peer : SocketAddr} {stream : Duplex}
      {localAddr : Except IoFailure SocketAddr}
      {queue : List (Except IoFailure (SocketAddr × Duplex))}
      (queued : w.queue = .ok (peer, stream) :: queue) :
      Dealt w (.awaitPeer limit) (some (.arrived peer w.early))
        { w with link := some ⟨stream, localAddr⟩, queue }
  | givesUp {limit : Option Duration} {a : Hosting.Inbound limit} {source : Source} {early : Bytes}
      {queue : List (Except IoFailure (SocketAddr × Duplex))}
      (unjoined : Unjoined (.awaitPeer limit) (some a)) (queued : queue ⊆ w.queue) :
      Dealt w (.awaitPeer limit) (some a) { w with source, early, queue }
  | holds {a : Option (Except IoFailure Unit)} {source : Source} :
      Dealt w .hold a { w with source }
  | writes {q : Stream.Ask} {link : Link} {a : Option (Stream.Answer q)} {stream : Duplex}
      (linked : w.link = some link) (answers : link.stream.answer q = (a, stream)) :
      Dealt w (.peer q) a { w with link := some { link with stream } }
  | starts {bufferSize : Nat} {link : Link} {sink : Sink} (linked : w.link = some link)
      (fresh : w.relay = none) :
      Dealt w (.relay bufferSize) none
        { w with relay := some (.start bufferSize ⟨w.source, sink⟩ link.stream) }
  | tells {bufferSize : Nat} {r : Relay} (linked : w.link.isSome) (relays : w.relay = some r) :
      Dealt w (.relay bufferSize) r.outcome? w
  | lacks {q : Hosting.Ask} (engages : Engages q) (unlinked : w.link = none) : Dealt w q none w

theorem heard_exchanged_read {room : Nat}
    (a : Option (Except IoFailure (Option (Stream.Piece room)))) :
    heard (exchanged (.channel (.stream (.read room))) (a.map some)) = Source.handed a := by
  match a with
  | none => rfl
  | some (.error _) => rfl
  | some (.ok none) => rfl
  | some (.ok (some piece)) => exact List.append_nil piece.bytes

theorem dealt_read (h : LiveHost) (room : Nat) :
    Dealt h.wires (.channel (.stream (.read room)))
      (h.reply (.channel (.stream (.read room)))).1
      (h.reply (.channel (.stream (.read room)))).2.wires := by
  cases hsignalled : h.session.isSignalled with
  | true =>
    have hreply : h.reply (.channel (.stream (.read room))) = (some none, h) := by
      simp [reply, answer, LiveSession.answer, hsignalled]
    rw [hreply]
    exact .reads h.session.stream.source (.refl _)
  | false =>
    have hreply : h.reply (.channel (.stream (.read room))) =
        ((h.session.stream.source.resume.read room).1.map some, { h with
          session := { h.session with stream := { h.session.stream with
            source := (h.session.stream.source.resume.read room).2 } } }) := by
      simp [reply, answer, LiveSession.answer, hsignalled, Duplex.answer]
    rw [hreply]
    refine .reads _ ?_
    rw [heard_exchanged_read]
    exact (Source.passes_resumeFrom _).trans (Source.passes_readFrom room _)

theorem dealt_connect (h : LiveHost) (limit : Option Duration) (address : SocketAddr) :
    Dealt h.wires (.connect limit address) (h.dial limit address).1
      (h.dial limit address).2.wires := by
  unfold LiveHost.dial
  split
  · exact .misses (unjoined_some id)
  · cases hdial : h.network.dial address with
    | none =>
      simp only [LiveHost.timed, hdial]
      split
      · exact .misses (unjoined_some id)
      · exact .misses (unjoined_none _)
    | some outcome =>
      cases outcome with
      | error cause =>
        simp only [LiveHost.timed, hdial]
        exact .misses (unjoined_some id)
      | ok link =>
        simp only [LiveHost.timed, hdial]
        exact .dials hdial

theorem dealt_awaitPeer (h : LiveHost) (limit : Option Duration) :
    Dealt h.wires (.awaitPeer limit) (h.awaitPeer limit).1 (h.awaitPeer limit).2.wires := by
  have hsame : h.queue ⊆ h.wires.queue := List.Subset.refl h.queue
  rcases h.session.watch_cases h.queue.head? with ⟨-, hwatch⟩ | ⟨first, hfirst, hwatch⟩ |
    ⟨bytes, stop, session, -, hlisten, hwatch⟩ | ⟨bytes, session, -, hlisten, hwatch⟩
  · simp only [LiveHost.awaitPeer, hwatch]
    exact .givesUp (unjoined_some id) hsame
  · rcases first with cause | ⟨peer, stream⟩
    · simp only [LiveHost.awaitPeer, hwatch]
      exact .givesUp nofun fun _ => List.mem_of_mem_tail
    · simp only [LiveHost.awaitPeer, hwatch]
      exact .accepts (List.eq_cons_of_mem_head? hfirst)
  · simp only [LiveSession.listen, Prod.mk.injEq] at hlisten
    obtain ⟨-, -, rfl⟩ := hlisten
    simp only [LiveHost.awaitPeer, hwatch]
    exact .givesUp (unjoined_some id) hsame
  · have hpasses := Source.passes_drainFrom h.session.stream.source.arrivals
    simp only [LiveSession.listen, Source.drain, Prod.mk.injEq] at hlisten
    obtain ⟨rfl, -, rfl⟩ := hlisten
    simp only [LiveHost.awaitPeer, hwatch, LiveHost.timed]
    split
    · exact .givesUp (unjoined_some id) hsame
    · exact .gathers hpasses

theorem dealt_hold (h : LiveHost) : Dealt h.wires .hold h.hold.1 h.hold.2.wires := by
  unfold LiveHost.hold LiveSession.hold
  split <;> exact .holds

theorem dealt_peer (h : LiveHost) (q : Stream.Ask) :
    Dealt h.wires (.peer q) (h.onLink q).1 (h.onLink q).2.wires := by
  unfold LiveHost.onLink
  split
  next hlink => exact .lacks trivial hlink
  next link hlink => exact .writes hlink rfl

theorem dealt_relay (h : LiveHost) (bufferSize : Nat) :
    Dealt h.wires (.relay bufferSize) (h.reply (.relay bufferSize)).1
      (h.reply (.relay bufferSize)).2.wires := by
  cases hlink : h.link with
  | none =>
    have hreply : h.reply (.relay bufferSize) = (none, h) := by simp [reply, hlink]
    rw [hreply]
    exact .lacks trivial hlink
  | some link =>
    cases hrelay : h.relay with
    | none =>
      have hreply : h.reply (.relay bufferSize) =
          (none, { h with relay := some (.start bufferSize h.session.stream link.stream) }) := by
        simp [reply, hlink, hrelay]
      rw [hreply]
      exact .starts hlink hrelay
    | some r =>
      have hreply : h.reply (.relay bufferSize) = (r.outcome?, h) := by
        simp [reply, hlink, hrelay]
      rw [hreply]
      exact .tells (Option.isSome_of_eq_some hlink) hrelay

/-- What is asked of the stream of the client, other than to read, does not touch its source. -/
theorem source_answer {q : Stream.Ask} (hq : ¬ Stream.IsRead q) (s : LiveSession) :
    (s.answer (.stream q)).2.stream.source = s.stream.source := by
  cases hsignalled : s.isSignalled with
  | true => simp [LiveSession.answer, hsignalled]
  | false =>
    cases q with
    | read room => exact absurd trivial hq
    | write bytes => simp [LiveSession.answer, hsignalled, Duplex.answer]
    | flush => simp [LiveSession.answer, hsignalled, Duplex.answer]

/-- What dealing with a question comes to. -/
theorem dealt_reply (h : LiveHost) (q : Hosting.Ask) :
    Dealt h.wires q (h.reply q).1 (h.reply q).2.wires := by
  have hstream : ∀ q, ¬ Stream.IsRead q →
      Dealt h.wires (.channel (.stream q)) (h.reply (.channel (.stream q))).1
        (h.reply (.channel (.stream q))).2.wires := by
    intro q hq
    have hwires : (h.reply (.channel (.stream q))).2.wires = h.wires := by
      show ({ h.wires with source := (h.session.answer (.stream q)).2.stream.source } : Wires) = _
      rw [source_answer hq]
      rfl
    rw [hwires]
    exact .leaves (Serving.isFree_stream hq)
  cases q with
  | channel c =>
    cases c with
    | consult verdict => exact .leaves id
    | close => exact .leaves id
    | stream q =>
      cases q with
      | read room => exact dealt_read h room
      | write bytes => exact hstream _ id
      | flush => exact hstream _ id
  | enter state =>
    have hwires : (h.enter state).wires = h.wires := by
      unfold LiveHost.enter
      simp only
      split <;> rfl
    show Dealt h.wires (.enter state) (some ()) (h.enter state).wires
    rw [hwires]
    exact .leaves id
  | dropListener => exact .lets
  | connect limit address => exact dealt_connect h limit address
  | awaitPeer limit => exact dealt_awaitPeer h limit
  | hold => exact dealt_hold h
  | peer q => exact dealt_peer h q
  | relay bufferSize => exact dealt_relay h bufferSize
  | _ => exact .leaves id

/-- What happens to a host, by what arrives from the client and by what it comes to for what the
host holds. -/
inductive Happened (w : Wires) : List Arrival → Wires → Prop where
  | leaves : Happened w [] w
  | feeds (arrivals : List Arrival) (unrelayed : w.relay = none) :
      Happened w arrivals { w with source := w.source.feed arrivals }
  | acts {r : Relay} (relays : w.relay = some r) (a : Relay.Act) :
      Happened w (a.arrivals .client) { w with relay := some (r.act a) }
  | changes {link link' : Link} (linked : w.link = some link)
      (accepts : link'.stream.sink.accepted = link.stream.sink.accepted) :
      Happened w [] { w with link := some link' }
  | queues {inbound : Except IoFailure (SocketAddr × Duplex)}
      (fresh : ∀ peer stream, inbound = .ok (peer, stream) → stream.sink.accepted = []) :
      Happened w [] { w with queue := w.queue ++ [inbound] }

/-- Something happens to the stream of the connection that takes nothing from its sink. -/
theorem happened_updatePeer (h : LiveHost) {change : Duplex → Duplex} {a : Relay.Act}
    (silent : a.arrivals .client = []) (acts : ∀ r : Relay, r.updateStream .target change = r.act a)
    (accepts : ∀ d, (change d).sink.accepted = d.sink.accepted) :
    Happened h.wires [] (h.updatePeer change).wires := by
  unfold LiveHost.updatePeer
  split
  next r hrelay =>
    rw [acts, ← silent]
    exact .acts hrelay a
  next hrelay =>
    cases hlink : h.link with
    | none =>
      have hwires : LiveHost.wires { h with
          link := Option.map (fun link : Link => { link with stream := change link.stream })
            none } = h.wires := by
        simp [wires, hlink]
      rw [hwires]
      exact .leaves
    | some link => exact .changes hlink (accepts link.stream)

/-- What it comes to when something happens. -/
theorem happened_happen (h : LiveHost) (event : Happening) :
    Happened h.wires event.arrivals (h.happen event).wires := by
  cases event with
  | feed arrivals =>
    show Happened h.wires _ (h.updateClient _).wires
    unfold LiveHost.updateClient
    split
    next r hrelay => exact .acts hrelay (.feed .client arrivals)
    next hrelay => exact .feeds arrivals hrelay
  | setIntake rule =>
    show Happened h.wires _ (h.updateClient _).wires
    unfold LiveHost.updateClient
    split
    next r hrelay => exact .acts hrelay (.setIntake .client rule)
    next hrelay => exact .leaves
  | feedPeer arrivals =>
    exact happened_updatePeer h (a := .feed .target arrivals) rfl (fun _ => rfl) fun _ => rfl
  | setPeerIntake rule =>
    exact happened_updatePeer h (a := .setIntake .target rule) rfl (fun _ => rfl) fun _ => rfl
  | arrive peer arrivals rule =>
    show Happened h.wires _ (h.arrive _ _).wires
    unfold LiveHost.arrive
    split
    · refine .queues ?_
      intro peer stream hqueued
      cases hqueued
      rfl
    · exact .leaves
  | failToAccept cause =>
    cases hlistener : h.listener.isSome with
    | true =>
      simp only [LiveHost.happen, hlistener, ↓reduceIte]
      have hfresh : ∀ peer stream, (.error cause : Except IoFailure (SocketAddr × Duplex)) =
          .ok (peer, stream) → stream.sink.accepted = [] := fun _ _ heq => by cases heq
      exact .queues hfresh
    | false =>
      simp only [LiveHost.happen, hlistener, Bool.false_eq_true, ↓reduceIte]
      exact .leaves
  | receive source datagram =>
    show Happened h.wires _ (h.receive source datagram).2.wires
    unfold LiveHost.receive
    split
    · exact .leaves
    · exact .leaves
  | wait milliseconds => exact .leaves
  | close =>
    rcases hclose : h.session.registry.close h.session.id with ⟨won, registry⟩
    simp only [LiveHost.happen, LiveHost.close, hclose]
    exact .leaves

/-- What a move does to what the host holds: the host deals with a question, or something
happens. -/
theorem Moved.wires {m : Move} {d : Dialogue Hostings} (hmoved : Moved t h m d s) :
    (∃ q next a, t = .ask q next ∧ d = exchanged q a ∧ s.1 = a.elim t next ∧ m.arrivals = [] ∧
      Dealt h.wires q a s.2.wires) ∨
    d = [] ∧ s.1 = t ∧ Happened h.wires m.arrivals s.2.wires := by
  cases hmoved with
  | @dealt q next a h' asks reply =>
    have hdealt := dealt_reply h q
    rw [reply] at hdealt
    exact .inl ⟨q, next, a, asks, rfl, rfl, rfl, hdealt⟩
  | rests ended => exact .inr ⟨rfl, rfl, .leaves⟩
  | happened event => exact .inr ⟨rfl, rfl, happened_happen h event⟩
  | turned turn =>
    refine .inr ⟨rfl, rfl, ?_⟩
    cases hrelay : h.relay with
    | none =>
      have hwires : LiveHost.wires { h with
          relay := (none : Option Relay).map (·.act (.turn h.session.isSignalled turn)) } =
            h.wires := by
        simp [LiveHost.wires, hrelay]
      rw [hwires]
      exact .leaves
    | some r => exact .acts hrelay (.turn h.session.isSignalled turn)

/-! ## Sessions with a connection -/

variable {past : Dialogue Hostings} {w w' : Wires}

theorem not_joined_exchanged {q : Hosting.Ask} {a : Option (Hosting.Answer q)}
    (h : Unjoined q a) : ¬ Joined (exchanged q a) := by
  intro hjoined
  cases a with
  | none =>
    obtain ⟨x, hx, _⟩ := hjoined
    cases hx
  | some b =>
    obtain ⟨x, hx, hjoins⟩ := hjoined
    obtain rfl := List.mem_singleton.1 hx
    exact h b rfl hjoins

/-- A connection comes when the host dials or accepts one, and stays. -/
theorem Dealt.link {q : Hosting.Ask} {a : Option (Hosting.Answer q)} (h : Dealt w q a w') :
    w'.link.isSome ∧ Joined (exchanged q a) ∨
      Unjoined q a ∧ (w.link = none → w'.link = none) ∧ (w.link.isSome → w'.link.isSome) := by
  cases h with
  | leaves free =>
    exact .inr ⟨fun b _ => Hosting.not_joins_of_isFree free, id, id⟩
  | dials dial => exact .inl ⟨rfl, _, List.mem_singleton_self _, trivial⟩
  | accepts queued => exact .inl ⟨rfl, _, List.mem_singleton_self _, trivial⟩
  | misses unjoined => exact .inr ⟨unjoined, id, id⟩
  | givesUp unjoined queued => exact .inr ⟨unjoined, id, id⟩
  | lets => exact .inr ⟨fun _ _ => id, id, id⟩
  | reads source passes => exact .inr ⟨fun _ _ => id, id, id⟩
  | gathers passes => exact .inr ⟨unjoined_none _, id, id⟩
  | holds => exact .inr ⟨fun _ _ => id, id, id⟩
  | writes linked answers =>
    refine .inr ⟨fun _ _ => id, fun hnone => ?_, fun _ => rfl⟩
    rw [linked] at hnone
    cases hnone
  | starts linked fresh => exact .inr ⟨unjoined_none _, id, id⟩
  | tells linked relays => exact .inr ⟨fun _ _ => id, id, id⟩
  | lacks engages unlinked => exact .inr ⟨unjoined_none _, id, id⟩

/-- A relay is started on a connection, and not touched by any other question. -/
theorem Dealt.relay {q : Hosting.Ask} {a : Option (Hosting.Answer q)} (h : Dealt w q a w') :
    w'.relay = w.relay ∨ w.relay = none ∧ w.link.isSome ∧
      ∃ bufferSize client target, w'.relay = some (.start bufferSize client target) := by
  cases h with
  | starts linked fresh => exact .inr ⟨fresh, Option.isSome_of_eq_some linked, _, _, _, rfl⟩
  | _ => exact .inl rfl

theorem Dealt.relay_of_some {q : Hosting.Ask} {a : Option (Hosting.Answer q)} {r : Relay}
    (h : Dealt w q a w') (hr : w.relay = some r) : w'.relay = w.relay := by
  rcases h.relay with hsame | ⟨hnone, _⟩
  · exact hsame
  · rw [hr] at hnone
    cases hnone

/-- What happens to a host makes no connection and no relay, and a relay goes on. -/
theorem Happened.relay {arrived : List Arrival} (h : Happened w arrived w') :
    w'.relay = w.relay ∨ ∃ r a, w.relay = some r ∧ w'.relay = some (r.act a) := by
  cases h with
  | acts relays a => exact .inr ⟨_, a, relays, rfl⟩
  | _ => exact .inl rfl

/-- A session that has a connection has one at its host. Its relay was started, and has lived the
life of a relay since. -/
structure Wired (past : Dialogue Hostings) (w : Wires) : Prop where
  alone : ¬ Joined past → w.link = none ∧ w.relay = none
  linked : Joined past → w.link.isSome
  relays : ∀ r, w.relay = some r →
    ∃ bufferSize client target acts, r = (Relay.start bufferSize client target).after acts

theorem Wired.dealt (h : Wired past w) {q : Hosting.Ask} {a : Option (Hosting.Answer q)}
    (hdealt : Dealt w q a w') : Wired (past ++ exchanged q a) w' := by
  obtain ⟨alone, linked, relays⟩ := h
  refine ⟨fun hnone => ?_, fun hjoined => ?_, fun r hr => ?_⟩
  · rw [Hosting.joined_append_iff, not_or] at hnone
    obtain ⟨hlink, hrelay⟩ := alone hnone.1
    -- No relay is started without a connection.
    have hunlinked : w.link.isSome ≠ true := by rw [hlink]; exact nofun
    constructor
    · rcases hdealt.link with ⟨_, hjoined⟩ | ⟨_, hkeeps, _⟩
      · exact absurd hjoined hnone.2
      · exact hkeeps hlink
    · rcases hdealt.relay with hsame | ⟨_, hlinked, _⟩
      · exact hsame.trans hrelay
      · exact absurd hlinked hunlinked
  · rcases hdealt.link with ⟨hlinked, _⟩ | ⟨hunjoined, _, hkeeps⟩
    · exact hlinked
    · rcases Hosting.joined_append_iff.1 hjoined with hjoined | hjoined
      · exact hkeeps (linked hjoined)
      · exact absurd hjoined (not_joined_exchanged hunjoined)
  · rcases hdealt.relay with hsame | ⟨_, _, bufferSize, client, target, hstart⟩
    · exact relays r (hsame ▸ hr)
    · rw [hstart] at hr
      cases hr
      exact ⟨bufferSize, client, target, [], rfl⟩

theorem Wired.happened {arrived : List Arrival} (h : Wired past w)
    (hhappened : Happened w arrived w') : Wired past w' := by
  obtain ⟨alone, linked, relays⟩ := h
  cases hhappened with
  | leaves => exact ⟨alone, linked, relays⟩
  | feeds arrivals unrelayed => exact ⟨alone, linked, relays⟩
  | queues fresh => exact ⟨alone, linked, relays⟩
  | changes hlinked accepts =>
    refine ⟨fun hnone => ?_, fun _ => rfl, relays⟩
    have hlink := (alone hnone).1
    rw [hlinked] at hlink
    cases hlink
  | acts hrelays a =>
    refine ⟨fun hnone => ?_, linked, fun r hr => ?_⟩
    · have hrelay := (alone hnone).2
      rw [hrelays] at hrelay
      cases hrelay
    · cases hr
      obtain ⟨bufferSize, client, target, acts, rfl⟩ := relays _ hrelays
      exact ⟨bufferSize, client, target, acts ++ [a], (Relay.after_append _ acts [a]).symm⟩

/-- A connection at the host is one that the session has heard of. -/
theorem Wired.joined_of_peer? {h : LiveHost} {peer : Duplex} (hwired : Wired past h.wires)
    (hpeer : h.peer? = some peer) : Joined past := by
  by_cases hjoined : Joined past
  · exact hjoined
  · have hlink : h.link = none := (hwired.alone hjoined).1
    have hrelay : h.relay = none := (hwired.alone hjoined).2
    rw [LiveHost.peer?, hlink, hrelay] at hpeer
    cases hpeer

theorem wired_course {t : Task Hostings Unit} {h : LiveHost} (hwired : Wired past h.wires)
    (moves : List Move) :
    Wired (past ++ said (t, h) moves) (course (t, h) moves).2.wires := by
  induction moves generalizing t h past with
  | nil => simpa [said] using hwired
  | cons m moves ih =>
    rw [said, ← List.append_assoc]
    refine ih ?_
    rcases (moved_move t h m).wires with ⟨q, next, a, _, hd, _, _, hdealt⟩ | ⟨hd, _, hhappened⟩
    · rw [hd]
      exact hwired.dealt hdealt
    · rw [hd, List.append_nil]
      exact hwired.happened hhappened

/-- A relay goes on for as long as the session does, and is not replaced. -/
theorem exists_relay_course {t : Task Hostings Unit} {h : LiveHost} {r : Relay}
    (hrelay : h.relay = some r) (moves : List Move) :
    ∃ acts, (course (t, h) moves).2.relay = some (r.after acts) := by
  induction moves generalizing t h r with
  | nil => exact ⟨[], hrelay⟩
  | cons m moves ih =>
    have hmoved := moved_move t h m
    rw [course_cons]
    generalize move (t, h) m = s at hmoved ⊢
    obtain ⟨t', h'⟩ := s
    obtain ⟨acts, hacts⟩ : ∃ acts, h'.relay = some (r.after acts) := by
      rcases hmoved.wires with ⟨q, next, a, _, _, _, _, hdealt⟩ | ⟨_, _, hhappened⟩
      · exact ⟨[], (hdealt.relay_of_some hrelay).trans hrelay⟩
      · rcases hhappened.relay with hsame | ⟨r', a, hr', hact⟩
        · exact ⟨[], hsame.trans hrelay⟩
        · obtain rfl := Option.some.inj (hr'.symm.trans hrelay)
          exact ⟨[a], hact⟩
    obtain ⟨acts', hacts'⟩ := ih hacts
    exact ⟨acts ++ acts', hacts'.trans (congrArg some (Relay.after_append r acts acts').symm)⟩

/-- In its course a session keeps to the terms on which it reads and writes. -/
theorem conduct_course (s : Serving.Setting) (h : LiveHost) (moves : List Move) :
    let past := said (Serving.run s, h) moves
    Serving.Ordered s.methods past ∧
      ∀ q next, (course (Serving.run s, h) moves).1 = .ask q next → Serving.Timely past q := by
  intro past
  -- Terms that allow every answer are honoured by every host.
  have hstands := (Serving.conducts_run s).stands (leads_course (Serving.run s) h moves)
    (Terms.honoured_of_allows (fun _ _ => trivial) _ _)
  generalize (course (Serving.run s, h) moves).1 = t at hstands ⊢
  cases t with
  | done a =>
    refine ⟨hstands, fun q next heq => ?_⟩
    cases heq
  | fail e =>
    refine ⟨hstands, fun q next heq => ?_⟩
    cases heq
  | ask q next =>
    refine ⟨hstands.1, fun q' next' heq => ?_⟩
    cases heq
    exact hstands.2

/-- A host with which a session begins: there is no connection and no relay, nothing has been sent
early, and nobody is at the listener. -/
structure IsNew (h : LiveHost) : Prop where
  link : h.link = none
  relay : h.relay = none
  early : h.early = []
  queue : h.queue = []

theorem IsNew.wired {h : LiveHost} (hnew : h.IsNew) : Wired [] h.wires where
  alone _ := ⟨hnew.link, hnew.relay⟩
  linked hjoined := absurd hjoined (by simp [Hosting.Joined])
  relays r hr := by
    have hnone : h.relay = some r := hr
    rw [hnew.relay] at hnone
    cases hnone

/-- A server that lets everybody in. -/
def openSetting : Serving.Setting := ⟨.ofList [.noAuth], {}, .unspecified, .unspecified⟩

end LiveHost

end Socks5

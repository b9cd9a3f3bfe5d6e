import Socks5.Proofs.Session.LifeCourse

/-!
# Races for a connection

While a session waits for a connection to come in, several things may be ready at once: a
connection, a failure of the listener, the end of the time, bytes of the client or its end, and the
closing of the session. A host in memory looks for them in one order; in a race whatever is ready
may win. Main statements: every course of a session is a race (`exists_races_course`); and in a race
the listener, the connection and the relay of the host are what the ledger of the dialogue and the
connections that were accepted make of them (`kept_races`).
-/

namespace Socks5

/-! ## The ledger of a dialogue -/

namespace Hosting

/-- What a dialogue comes to for a session that awaits a connection: the messages to the client
that were begun, and whether the last question goes on with one; the address that is listened on;
how the waits for a connection have ended; and whether it was heard or asked that the session is
closed. -/
structure Ledger where
  begun : List Bytes := []
  isWriting : Bool := false
  listener : Option SocketAddr := none
  waits : List ((limit : Option Duration) × Inbound limit) := []
  isClosed : Bool := false

/-- A write to the client of which something is taken, so that the next one goes on with it. -/
def goesOn : Exchange Hostings → Bool
  | ⟨.channel (.stream (.write _)), some (.ok count)⟩ => 0 < count.val
  | _ => false

namespace Ledger

/-- A question is put. A write begins a message, unless it goes on with the one before it. -/
def put (l : Ledger) : Ask → Ledger
  | .channel (.stream (.write bytes)) =>
    if l.isWriting then l else { l with begun := l.begun ++ [bytes] }
  | _ => l

/-- A question is answered. -/
def learn (l : Ledger) : Exchange Hostings → Ledger
  | ⟨.listen _, address⟩ => { l with listener := address.toOption }
  | ⟨.dropListener, _⟩ => { l with listener := none }
  | ⟨.awaitPeer limit, .closed⟩ =>
    { l with waits := l.waits ++ [⟨limit, .closed⟩], isClosed := true }
  | ⟨.awaitPeer limit, a⟩ => { l with waits := l.waits ++ [⟨limit, a⟩] }
  | ⟨.channel .close, _⟩ => { l with isClosed := true }
  | _ => l

/-- A question is put and answered. -/
def enter (l : Ledger) (x : Exchange Hostings) : Ledger :=
  { (l.put x.question).learn x with isWriting := goesOn x }

/-- A task has put its question. -/
def wait {α : Type} (l : Ledger) : Task Hostings α → Ledger
  | .ask q _ => l.put q
  | .done _ | .fail _ => l

variable (l : Ledger) (q : Ask)

@[simp] theorem listener_put : (l.put q).listener = l.listener := by
  unfold put
  split
  · split <;> rfl
  · rfl

@[simp] theorem waits_put : (l.put q).waits = l.waits := by
  unfold put
  split
  · split <;> rfl
  · rfl

@[simp] theorem isClosed_put : (l.put q).isClosed = l.isClosed := by
  unfold put
  split
  · split <;> rfl
  · rfl

/-- A wait is over. -/
theorem enter_awaitPeer {limit : Option Duration} (a : Inbound limit) :
    ∃ closed, l.enter ⟨.awaitPeer limit, a⟩ = { l with
        isWriting := false, waits := l.waits ++ [⟨limit, a⟩], isClosed := closed } ∧
      (a = .closed → closed = true) ∧ (a ≠ .closed → closed = l.isClosed) := by
  cases a with
  | closed => exact ⟨true, rfl, fun _ => rfl, fun h => absurd rfl h⟩
  | _ => exact ⟨l.isClosed, rfl, nofun, fun _ => rfl⟩

end Ledger

/-- The ledger of a dialogue. -/
def ledger (d : Dialogue Hostings) : Ledger := d.foldl Ledger.enter {}

@[simp] theorem ledger_nil : ledger [] = {} := rfl

@[simp] theorem ledger_concat (d : Dialogue Hostings) (x : Exchange Hostings) :
    ledger (d ++ [x]) = (ledger d).enter x := by
  simp [ledger]

theorem ledger_append (d d' : Dialogue Hostings) :
    ledger (d ++ d') = d'.foldl Ledger.enter (ledger d) := List.foldl_append

/-- Who has come in with the end of a wait. -/
def arrived? : (limit : Option Duration) × Inbound limit → Option SocketAddr
  | ⟨_, .arrived peer _⟩ => some peer
  | _ => none

end Hosting

/-! ## Races -/

/-- A connection that comes in: where from, and its stream. -/
abbrev Inward := SocketAddr × Duplex

namespace Registry

variable {r : Registry} {id : Nat}

/-- A session is known to a registry that is tidy, and what ends its waits has closed it. -/
structure InOrder (r : Registry) (id : Nat) : Prop where
  tidy : r.Tidy
  known : (r.handle? id).isSome
  aware : ∀ handle, r.handle? id = some handle → handle.isSignalled → handle.isClosed

/-- A change that closes nothing and wakes nobody keeps the session as open as it is. -/
theorem InOrder.update (h : r.InOrder id) {change : Handle → Handle}
    (htidy : (r.update id change).Tidy)
    (hflag : ∀ handle, (change handle).isClosed = handle.isClosed)
    (hsignal : ∀ handle, (change handle).isSignalled = handle.isSignalled) :
    (r.update id change).InOrder id ∧ ((r.update id change).IsOpen id → r.IsOpen id) := by
  refine ⟨⟨htidy, isSome_update.trans h.known, fun handle hhandle => ?_⟩,
    (isOpen_update_iff hflag).1⟩
  rw [handle?_update, if_pos rfl] at hhandle
  obtain ⟨before, hbefore, rfl⟩ := Option.map_eq_some_iff.1 hhandle
  rw [hflag, hsignal]
  exact h.aware before hbefore

theorem InOrder.close (h : r.InOrder id) : (r.close id).2.InOrder id := by
  refine ⟨h.tidy.close id, isSome_close.trans h.known, fun handle hhandle _ => ?_⟩
  by_cases hopen : handle.isClosed
  · exact hopen
  · have hclosed : (r.close id).2.IsOpen id := ⟨handle, hhandle, by simpa using hopen⟩
    exact absurd rfl (isOpen_close_iff.1 hclosed).2

theorem not_isOpen_close (r : Registry) (id : Nat) : ¬ (r.close id).2.IsOpen id :=
  fun hopen => (isOpen_close_iff.1 hopen).2 rfl

/-- What the session asks keeps it in order, and does not open it again. -/
theorem InOrder.served (h : r.InOrder id) (q : Hosting.Ask) :
    (r.served id q).InOrder id ∧ ((r.served id q).IsOpen id → r.IsOpen id) := by
  cases q with
  | enter next => exact h.update (h.tidy.enter id next) (fun _ => rfl) fun _ => rfl
  | identify user =>
    exact h.update (h.tidy.setAttribute id Handle.userKey user) (fun _ => rfl) fun _ => rfl
  | channel c =>
    cases c with
    | close => exact ⟨h.close, fun hopen => (isOpen_close_iff.1 hopen).1⟩
    | _ => exact ⟨h, fun hopen => hopen⟩
  | _ => exact ⟨h, fun hopen => hopen⟩

end Registry

namespace LiveHost

open Hosting (Ledger ledger arrived?)

/-- What may come of a wait for a connection. Whatever is ready may end it: a connection that has
come in, a failure of the listener, the time, the end of the client's stream or its failure, and the
closing of the session. Otherwise it goes on, while what the client sends is kept. Along come the
connections that are accepted. -/
inductive Awaits (h : LiveHost) (limit : Option Duration) :
    Option (Hosting.Inbound limit) → List Inward → LiveHost → Prop where
  | accepts {peer : SocketAddr} {stream : Duplex} {queue : List (Except IoFailure Inward)}
      (queued : h.queue = .ok (peer, stream) :: queue) :
      Awaits h limit (some (.arrived peer h.early)) [(peer, stream)] { h with
        queue, link := some ⟨stream, (h.listener.map .ok).getD (.error .notConnected)⟩ }
  | fails {cause : IoFailure} {queue : List (Except IoFailure Inward)}
      (queued : h.queue = .error cause :: queue) :
      Awaits h limit (some (.failed cause)) [] { h with queue }
  | counts : Awaits h limit none [] h.timed
  | expires {after : Duration} {within : limit = some after}
      (late : h.expired? limit = some ⟨after, within⟩) :
      Awaits h limit (some (.expired after within)) [] h
  | hears {room : Nat} {got : Option (Stream.Piece room)} {source : Source}
      (reads : h.session.stream.source.read room =
        (got.map fun piece => .ok (some piece), source)) :
      Awaits h limit none [] { h with
        session := { h.session with stream := { h.session.stream with source } }
        early := h.early ++ (got.map (·.bytes)).getD [] }
  | loses {bytes : Bytes} {stop : Except IoFailure Unit} {session : LiveSession}
      (ends : h.session.listen = (bytes, some stop, session)) :
      Awaits h limit (some .clientGone) [] { h with session }
  | closes (signalled : h.session.isSignalled) : Awaits h limit (some .closed) [] h

/-- A step of a race: a move that does not settle a wait for a connection, or what comes of such a
wait. -/
inductive Raced :
    Task Hostings Unit × LiveHost → Dialogue Hostings → List Inward →
      Task Hostings Unit × LiveHost → Prop where
  | moves {t : Task Hostings Unit} {h : LiveHost} (m : Move)
      (other : m = .deal → ∀ limit next, t ≠ .ask (.awaitPeer limit) next) :
      Raced (t, h) (saidIn (t, h) m) [] (move (t, h) m)
  | awaits {limit : Option Duration} {next : Hosting.Inbound limit → Task Hostings Unit}
      {h h' : LiveHost} {a : Option (Hosting.Inbound limit)} {accepted : List Inward}
      (comes : Awaits h limit a accepted h') :
      Raced (.ask (.awaitPeer limit) next, h) (exchanged (.awaitPeer limit) a) accepted
        (a.elim (.ask (.awaitPeer limit) next) next, h')

/-- A race, with what is said and the connections that are accepted in it. -/
inductive Races (s : Task Hostings Unit × LiveHost) :
    Dialogue Hostings → List Inward → Task Hostings Unit × LiveHost → Prop where
  | start : Races s [] [] s
  | step {d d' : Dialogue Hostings} {accepted accepted' : List Inward}
      {s' s'' : Task Hostings Unit × LiveHost} (past : Races s d accepted s')
      (raced : Raced s' d' accepted' s'') : Races s (d ++ d') (accepted ++ accepted') s''

variable {s s' s'' : Task Hostings Unit × LiveHost} {t : Task Hostings Unit} {h h' : LiveHost}
  {d d' : Dialogue Hostings} {accepted accepted' : List Inward} {limit : Option Duration}
  {a : Option (Hosting.Inbound limit)} {next : Hosting.Inbound limit → Task Hostings Unit}

theorem Raced.leads (h : Raced s d accepted s') : Task.Leads s.1 d s'.1 := by
  cases h with
  | @moves t h m other => exact (moved_move t h m).leads
  | @awaits limit next h h' a accepted comes =>
    cases a with
    | none => exact .refl _
    | some a => exact .step (.refl _)

/-- What is said in a race is a dialogue of the session. -/
theorem Races.leads (h : Races s d accepted s') : Task.Leads s.1 d s'.1 := by
  induction h with
  | start => exact .refl _
  | step past raced ih => exact ih.trans raced.leads

theorem Raced.races (h : Raced s d accepted s') : Races s d accepted s' := by
  simpa using Races.step .start h

theorem Races.trans (h : Races s d accepted s') (h' : Races s' d' accepted' s'') :
    Races s (d ++ d') (accepted ++ accepted') s'' := by
  induction h' with
  | start => simpa using h
  | step past raced ih =>
    rw [← List.append_assoc, ← List.append_assoc]
    exact ih.step raced

/-! ## The order of a host in memory -/

/-- A session hears of its client all that has arrived, piece by piece. -/
theorem races_listen {bytes : Bytes} {session : LiveSession}
    (hlisten : h.session.listen = (bytes, none, session)) :
    Races (.ask (.awaitPeer limit) next, h) [] []
      (.ask (.awaitPeer limit) next, { h with session, early := h.early ++ bytes }) := by
  induction hlength : bytes.length using Nat.strongRecOn generalizing h bytes session with
  | ind n ih =>
    rcases hdrain : h.session.stream.source.drain with ⟨drained, stop, source⟩
    simp only [LiveSession.listen, hdrain, Prod.mk.injEq] at hlisten
    obtain ⟨rfl, rfl, rfl⟩ := hlisten
    rcases Source.read_of_drain (Nat.succ_pos 511) hdrain with
      ⟨piece, middle, rest, hread, rfl, hrest⟩ | ⟨hread, rfl⟩
    · -- a piece is handed over, and less is left to be heard
      have hreads : h.session.stream.source.read 512 =
          ((some piece).map fun piece => .ok (some piece), middle) := hread
      have hless : rest.length < n := by
        have := piece.nonempty
        rw [List.length_append] at hlength
        omega
      let heard : LiveHost := { h with
        session := { h.session with stream := { h.session.stream with source := middle } }
        early := h.early ++ piece.bytes }
      have hlistens : heard.session.listen =
          (rest, none, { h.session with stream := { h.session.stream with source } }) := by
        simp [heard, LiveSession.listen, hrest]
      rw [← List.append_assoc]
      exact (Raced.awaits (.hears hreads)).races.trans (ih rest.length hless hlistens rfl)
    · have hreads : h.session.stream.source.read 512 =
          ((none : Option (Stream.Piece 512)).map fun piece => .ok (some piece), source) := hread
      exact (Raced.awaits (.hears hreads)).races

/-- A host in memory settles a wait for a connection as it may be settled in a race. -/
theorem exists_races_awaitPeer (h : LiveHost) (limit : Option Duration)
    (next : Hosting.Inbound limit → Task Hostings Unit) :
    ∃ accepted, Races (.ask (.awaitPeer limit) next, h)
      (exchanged (.awaitPeer limit) (h.awaitPeer limit).1) accepted
      ((h.awaitPeer limit).1.elim (.ask (.awaitPeer limit) next) next, (h.awaitPeer limit).2) := by
  rcases h.session.watch_cases h.queue.head? with ⟨hsignalled, hwatch⟩ |
    ⟨first, hfirst, hwatch⟩ | ⟨bytes, stop, session, -, hlisten, hwatch⟩ |
    ⟨bytes, session, -, hlisten, hwatch⟩
  · simp only [LiveHost.awaitPeer, hwatch]
    exact ⟨[], (Raced.awaits (.closes hsignalled)).races⟩
  · have hqueue := List.eq_cons_of_mem_head? hfirst
    rcases first with cause | ⟨peer, stream⟩
    · simp only [LiveHost.awaitPeer, hwatch]
      exact ⟨[], (Raced.awaits (.fails hqueue)).races⟩
    · simp only [LiveHost.awaitPeer, hwatch]
      exact ⟨_, (Raced.awaits (.accepts hqueue)).races⟩
  · simp only [LiveHost.awaitPeer, hwatch]
    exact ⟨[], (Raced.awaits (.loses hlisten)).races⟩
  · -- the time is counted behind what was heard, and may be over by then
    have hwaits : Races (.ask (.awaitPeer limit) next, h) [] []
        (.ask (.awaitPeer limit) next, { h.timed with session, early := h.early ++ bytes }) :=
      (races_listen hlisten).trans (Raced.awaits .counts).races
    simp only [LiveHost.awaitPeer, hwatch]
    split
    next after within hlate =>
      exact ⟨[], hwaits.trans (Raced.awaits (.expires hlate)).races⟩
    next => exact ⟨[], hwaits⟩

/-- Every course of a session is a race. -/
theorem exists_races_course (t : Task Hostings Unit) (h : LiveHost) (moves : List Move) :
    ∃ accepted, Races (t, h) (said (t, h) moves) accepted (course (t, h) moves) := by
  induction moves generalizing t h with
  | nil => exact ⟨[], .start⟩
  | cons m moves ih =>
    obtain ⟨first, hfirst⟩ : ∃ accepted, Races (t, h) (saidIn (t, h) m) accepted
        (move (t, h) m) := by
      by_cases hwaits : m = .deal ∧ ∃ limit next, t = .ask (.awaitPeer limit) next
      · obtain ⟨rfl, limit, next, rfl⟩ := hwaits
        have hreply : h.reply (.awaitPeer limit) =
            ((h.awaitPeer limit).1, (h.awaitPeer limit).2) := rfl
        obtain ⟨hmove, hsaid⟩ := move_deal next hreply
        rw [hmove, hsaid]
        exact exists_races_awaitPeer h limit next
      · refine ⟨[], (Raced.moves m ?_).races⟩
        intro hdeal limit next hasks
        exact hwaits ⟨hdeal, limit, next, hasks⟩
    obtain ⟨rest, hrest⟩ := ih (move (t, h) m).1 (move (t, h) m).2
    exact ⟨first ++ rest, hfirst.trans hrest⟩

/-! ## The books of a host -/

/-- A stream has become of another one: it was read and written, more has arrived, or what it takes
has changed. -/
inductive Stems (origin : Duplex) : Duplex → Prop where
  | refl : Stems origin origin
  | answers {d : Duplex} (stems : Stems origin d) (q : Stream.Ask) : Stems origin (d.answer q).2
  | feeds {d : Duplex} (stems : Stems origin d) (arrivals : List Arrival) :
      Stems origin { d with source := d.source.feed arrivals }
  | changes {d : Duplex} (stems : Stems origin d) (rule : Intake) :
      Stems origin { d with sink := { d.sink with intake := rule } }

/-- The stream of one of the connections that were accepted, as it has become. -/
def IsAccepted (accepted : List Inward) (d : Duplex) : Prop :=
  ∃ inward ∈ accepted, Stems inward.2 d

/-- A relay that was started on a connection that was accepted, and has lived since. -/
def IsRelayOf (accepted : List Inward) (r : Relay) : Prop :=
  ∃ bufferSize client target acts,
    IsAccepted accepted target ∧ r = (Relay.start bufferSize client target).after acts

/-- In a race a host keeps to what was said and to the connections that were accepted: the session
is closed if that was heard or asked; the listener is the one that is listened on; who has come in
was accepted; and the connection and the relay are of a connection that was accepted. -/
structure Kept (past : Dialogue Hostings) (accepted : List Inward) (h : LiveHost) : Prop where
  order : h.session.registry.InOrder h.session.id
  closed : (ledger past).isClosed → ¬ h.session.registry.IsOpen h.session.id
  listener : h.listener = (ledger past).listener
  arrived : accepted.map Prod.fst = (ledger past).waits.filterMap arrived?
  linked : ∀ link, h.link = some link → IsAccepted accepted link.stream
  relayed : ∀ r, h.relay = some r → IsRelayOf accepted r

variable {past : Dialogue Hostings} {q : Hosting.Ask} {host host' : LiveHost}

theorem IsAccepted.append {d : Duplex} (h : IsAccepted accepted d) (more : List Inward) :
    IsAccepted (accepted ++ more) d := by
  obtain ⟨inward, hmem, hstems⟩ := h
  exact ⟨inward, List.mem_append_left more hmem, hstems⟩

theorem IsRelayOf.append {r : Relay} (h : IsRelayOf accepted r) (more : List Inward) :
    IsRelayOf (accepted ++ more) r := by
  obtain ⟨bufferSize, client, target, acts, htarget, hr⟩ := h
  exact ⟨bufferSize, client, target, acts, htarget.append more, hr⟩

theorem IsRelayOf.act {r : Relay} (h : IsRelayOf accepted r) (a : Relay.Act) :
    IsRelayOf accepted (r.act a) := by
  obtain ⟨bufferSize, client, target, acts, htarget, rfl⟩ := h
  exact ⟨bufferSize, client, target, acts ++ [a], htarget, (Relay.after_append _ acts [a]).symm⟩

/-- What is asked in the course of a race, other than to wait for a connection or to dial. -/
def IsPlain : Hosting.Ask → Prop
  | .awaitPeer _ | .connect _ _ => False
  | _ => True

/-- Two hosts that differ in nothing that is kept to. -/
structure Agree (host host' : LiveHost) : Prop where
  id : host'.session.id = host.session.id
  registry : host'.session.registry = host.session.registry
  listener : host'.listener = host.listener
  link : host'.link = host.link
  relay : host'.relay = host.relay

theorem Kept.congr (h : Kept past accepted host) (agree : Agree host host') :
    Kept past accepted host' := by
  obtain ⟨id, registry, listener, link, relay⟩ := agree
  refine ⟨?_, ?_, listener.trans h.listener, h.arrived, ?_, ?_⟩
  · rw [id, registry]
    exact h.order
  · rw [id, registry]
    exact h.closed
  · rw [link]
    exact h.linked
  · rw [relay]
    exact h.relayed

/-! ### Dealing with a question -/

theorem ledger_exchanged (past : Dialogue Hostings) (q : Hosting.Ask)
    (a : Option (Hosting.Answer q)) :
    ledger (past ++ exchanged q a) =
      a.elim (ledger past) fun b => (ledger past).enter ⟨q, b⟩ := by
  cases a with
  | none => simp
  | some b => simp

theorem waits_exchanged (past : Dialogue Hostings) (hplain : IsPlain q)
    (a : Option (Hosting.Answer q)) :
    (ledger (past ++ exchanged q a)).waits = (ledger past).waits := by
  rw [ledger_exchanged]
  cases a with
  | none => rfl
  | some b =>
    cases q with
    | awaitPeer limit => exact hplain.elim
    | channel c => cases c <;> simp [Ledger.enter, Ledger.learn]
    | _ => simp [Ledger.enter, Ledger.learn]

theorem listener_reply (h : LiveHost) (hplain : IsPlain q)
    (hlistener : h.listener = (ledger past).listener) :
    (h.reply q).2.listener = (ledger (past ++ exchanged q (h.reply q).1)).listener := by
  rw [ledger_exchanged]
  have hother : (∀ b, ((ledger past).enter ⟨q, b⟩).listener = (ledger past).listener) →
      (h.reply q).2.listener = h.listener →
      (h.reply q).2.listener = ((h.reply q).1.elim (ledger past)
        fun b => (ledger past).enter ⟨q, b⟩).listener := by
    intro hlearn hreply
    rw [hreply, hlistener]
    cases (h.reply q).1 with
    | none => rfl
    | some b => exact (hlearn b).symm
  cases q with
  | awaitPeer limit => exact hplain.elim
  | connect limit address => exact hplain.elim
  | listen ip => rfl
  | dropListener => rfl
  | channel c => exact hother (fun b => by cases c <;> simp [Ledger.enter, Ledger.learn]) rfl
  | enter state =>
    refine hother (fun b => by simp [Ledger.enter, Ledger.learn]) ?_
    show (h.enter state).listener = h.listener
    unfold LiveHost.enter
    dsimp only
    split <;> rfl
  | peer p =>
    refine hother (fun b => by simp [Ledger.enter, Ledger.learn]) ?_
    show (h.onLink p).2.listener = h.listener
    unfold LiveHost.onLink
    split <;> rfl
  | relay bufferSize =>
    refine hother (fun b => by simp [Ledger.enter, Ledger.learn]) ?_
    rw [reply]
    split <;> rfl
  | _ => exact hother (fun b => by simp [Ledger.enter, Ledger.learn]) rfl

theorem closed_reply (horder : h.session.registry.InOrder h.session.id) (hplain : IsPlain q)
    (hclosed : (ledger past).isClosed → ¬ h.session.registry.IsOpen h.session.id) :
    (ledger (past ++ exchanged q (h.reply q).1)).isClosed →
      ¬ (h.reply q).2.session.registry.IsOpen (h.reply q).2.session.id := by
  obtain ⟨hid, hregistry⟩ := h.registry_reply q
  rw [hid, hregistry, ledger_exchanged]
  have hother : (∀ b, ((ledger past).enter ⟨q, b⟩).isClosed = (ledger past).isClosed) →
      ((h.reply q).1.elim (ledger past) fun b => (ledger past).enter ⟨q, b⟩).isClosed →
      ¬ (h.session.registry.served h.session.id q).IsOpen h.session.id := by
    intro hlearn hended hopen
    refine hclosed ?_ ((horder.served q).2 hopen)
    cases hreply : (h.reply q).1 with
    | none => rwa [hreply] at hended
    | some b =>
      rw [hreply] at hended
      exact (hlearn b).symm.trans hended
  cases q with
  | awaitPeer limit => exact hplain.elim
  | channel c =>
    cases c with
    | close => exact fun _ => Registry.not_isOpen_close _ _
    | _ => exact hother fun b => by simp [Ledger.enter, Ledger.learn]
  | _ => exact hother fun b => by simp [Ledger.enter, Ledger.learn]

/-- The connection of a host was accepted, unless it comes with the end of a wait or of a dial. -/
theorem linked_dealt {w w' : Wires} {a : Option (Hosting.Answer q)} (hplain : IsPlain q)
    (hlinked : ∀ link, w.link = some link → IsAccepted accepted link.stream)
    (hdealt : Dealt w q a w') : ∀ link, w'.link = some link → IsAccepted accepted link.stream := by
  cases hdealt with
  | dials dial => exact hplain.elim
  | accepts queued => exact hplain.elim
  | @writes p link a stream linked answers =>
    intro link' hlink'
    cases hlink'
    obtain ⟨inward, hmem, hstems⟩ := hlinked link linked
    have hanswers := hstems.answers p
    rw [answers] at hanswers
    exact ⟨inward, hmem, hanswers⟩
  | _ => exact hlinked

/-- A relay is started on the connection of its host. -/
theorem relayed_dealt {w w' : Wires} {a : Option (Hosting.Answer q)}
    (hlinked : ∀ link, w.link = some link → IsAccepted accepted link.stream)
    (hrelayed : ∀ r, w.relay = some r → IsRelayOf accepted r)
    (hdealt : Dealt w q a w') : ∀ r, w'.relay = some r → IsRelayOf accepted r := by
  cases hdealt with
  | starts linked fresh =>
    intro r hr
    cases hr
    exact ⟨_, _, _, [], hlinked _ linked, rfl⟩
  | _ => exact hrelayed

theorem Kept.dealt (h : Kept past accepted host) (hplain : IsPlain q) :
    Kept (past ++ exchanged q (host.reply q).1) accepted (host.reply q).2 := by
  obtain ⟨hid, hregistry⟩ := host.registry_reply q
  have hdealt := dealt_reply host q
  refine ⟨?_, closed_reply h.order hplain h.closed, listener_reply host hplain h.listener, ?_,
    linked_dealt hplain h.linked hdealt, relayed_dealt h.linked h.relayed hdealt⟩
  · rw [hid, hregistry]
    exact (h.order.served q).1
  · rw [waits_exchanged past hplain]
    exact h.arrived

/-! ### Waiting for a connection -/

/-- A session that is woken has been closed. -/
theorem not_isOpen_of_isSignalled {session : LiveSession}
    (horder : session.registry.InOrder session.id) (hsignalled : session.isSignalled) :
    ¬ session.registry.IsOpen session.id := by
  rintro ⟨handle, hhandle, hopen⟩
  have hwoken : handle.isSignalled := by simpa [LiveSession.isSignalled, hhandle] using hsignalled
  rw [horder.aware handle hhandle hwoken] at hopen
  cases hopen

/-- A wait that has ended without a connection. -/
theorem Kept.ends (h : Kept past accepted host) {a : Hosting.Inbound limit}
    (hnobody : arrived? ⟨limit, a⟩ = none)
    (hcloses : a = .closed → ¬ host.session.registry.IsOpen host.session.id) :
    Kept (past ++ [⟨.awaitPeer limit, a⟩]) accepted host := by
  obtain ⟨order, closed, listener, arrived, linked, relayed⟩ := h
  obtain ⟨closed', henter, hclosed, hopen⟩ := (ledger past).enter_awaitPeer a
  refine ⟨order, fun hended => ?_, ?_, ?_, linked, relayed⟩
  · by_cases ha : a = .closed
    · exact hcloses ha
    · rw [Hosting.ledger_concat, henter] at hended
      exact closed ((hopen ha).symm.trans hended)
  · rw [Hosting.ledger_concat, henter]
    exact listener
  · rw [Hosting.ledger_concat, henter]
    simp [arrived, hnobody]

/-- What comes of a wait is kept to. -/
theorem Kept.awaits (h : Kept past accepted host) (comes : Awaits host limit a accepted' host') :
    Kept (past ++ exchanged (.awaitPeer limit) a) (accepted ++ accepted') host' := by
  cases comes with
  | @accepts peer stream queue queued =>
    obtain ⟨order, closed, listener, arrived, linked, relayed⟩ := h
    rw [exchanged_some]
    refine ⟨order, ?_, ?_, ?_, ?_, ?_⟩
    · simpa [Ledger.enter, Ledger.learn] using closed
    · simpa [Ledger.enter, Ledger.learn] using listener
    · obtain ⟨closed', henter, -⟩ := (ledger past).enter_awaitPeer (.arrived peer host.early)
      rw [Hosting.ledger_concat, henter, List.map_append, List.filterMap_append, arrived]
      rfl
    · intro link hlink
      cases hlink
      exact ⟨(peer, stream), by simp, .refl⟩
    · intro r hr
      exact (relayed r hr).append _
  | @fails cause queue queued =>
    rw [List.append_nil]
    exact (h.ends (a := .failed cause) rfl fun heq => by cases heq).congr ⟨rfl, rfl, rfl, rfl, rfl⟩
  | expires late =>
    rw [List.append_nil]
    exact h.ends rfl fun heq => by cases heq
  | closes signalled =>
    rw [List.append_nil]
    exact h.ends rfl fun _ => not_isOpen_of_isSignalled h.order signalled
  | loses ends =>
    rcases hdrain : host.session.stream.source.drain with ⟨bytes, stop, source⟩
    simp only [LiveSession.listen, hdrain, Prod.mk.injEq] at ends
    obtain ⟨-, -, rfl⟩ := ends
    rw [List.append_nil]
    exact (h.ends (a := .clientGone) rfl fun heq => by cases heq).congr ⟨rfl, rfl, rfl, rfl, rfl⟩
  | counts =>
    rw [exchanged_none, List.append_nil, List.append_nil]
    exact h.congr ⟨rfl, rfl, rfl, rfl, rfl⟩
  | hears reads =>
    rw [exchanged_none, List.append_nil, List.append_nil]
    exact h.congr ⟨rfl, rfl, rfl, rfl, rfl⟩

/-! ### What happens meanwhile -/

/-- What happens changes a connection in its stream alone, and that in the way of a stream. -/
theorem link_happen (host : LiveHost) (event : Happening) :
    ∃ change : Duplex → Duplex, (∀ origin d, Stems origin d → Stems origin (change d)) ∧
      (host.happen event).link =
        host.link.map fun link => { link with stream := change link.stream } := by
  -- Once there is a relay, what the peer does happens to the stream of the relay.
  have hpeer : ∀ change : Duplex → Duplex, (∀ origin d, Stems origin d → Stems origin (change d)) →
      ∃ change' : Duplex → Duplex, (∀ origin d, Stems origin d → Stems origin (change' d)) ∧
        (host.updatePeer change).link =
          host.link.map fun link => { link with stream := change' link.stream } := by
    intro change hstems
    unfold LiveHost.updatePeer
    split
    · exact ⟨id, fun _ _ hstems => hstems, Option.map_id'.symm⟩
    · exact ⟨change, hstems, rfl⟩
  have hother : (host.happen event).link = host.link →
      ∃ change : Duplex → Duplex, (∀ origin d, Stems origin d → Stems origin (change d)) ∧
        (host.happen event).link =
          host.link.map fun link => { link with stream := change link.stream } :=
    fun hsame => ⟨id, fun _ _ hstems => hstems, hsame.trans Option.map_id'.symm⟩
  cases event with
  | feedPeer arrivals => exact hpeer _ fun _ _ hstems => hstems.feeds arrivals
  | setPeerIntake rule => exact hpeer _ fun _ _ hstems => hstems.changes rule
  | feed arrivals =>
    refine hother ?_
    simp only [LiveHost.happen, LiveHost.updateClient]
    split <;> rfl
  | setIntake rule =>
    refine hother ?_
    simp only [LiveHost.happen, LiveHost.updateClient]
    split <;> rfl
  | arrive peer arrivals rule =>
    refine hother ?_
    simp only [LiveHost.happen, LiveHost.arrive]
    split <;> rfl
  | failToAccept cause =>
    refine hother ?_
    simp only [LiveHost.happen]
    split <;> rfl
  | receive source datagram =>
    refine hother ?_
    simp only [LiveHost.happen, LiveHost.receive]
    split <;> rfl
  | wait milliseconds => exact hother rfl
  | close => exact hother rfl

theorem linked_happen (event : Happening)
    (hlinked : ∀ link, host.link = some link → IsAccepted accepted link.stream) :
    ∀ link, (host.happen event).link = some link → IsAccepted accepted link.stream := by
  intro link hlink
  obtain ⟨change, hstems, hchanged⟩ := host.link_happen event
  rw [hchanged] at hlink
  obtain ⟨before, hbefore, rfl⟩ := Option.map_eq_some_iff.1 hlink
  obtain ⟨inward, hmem, hinward⟩ := hlinked before hbefore
  exact ⟨inward, hmem, hstems _ _ hinward⟩

/-- Nothing that happens opens a listener or lets go of one. -/
theorem listener_happen (host : LiveHost) (event : Happening) :
    (host.happen event).listener = host.listener := by
  cases event with
  | wait milliseconds => rfl
  | close => rfl
  | feed arrivals =>
    simp only [LiveHost.happen, LiveHost.updateClient]
    split <;> rfl
  | setIntake rule =>
    simp only [LiveHost.happen, LiveHost.updateClient]
    split <;> rfl
  | feedPeer arrivals =>
    simp only [LiveHost.happen, LiveHost.updatePeer]
    split <;> rfl
  | setPeerIntake rule =>
    simp only [LiveHost.happen, LiveHost.updatePeer]
    split <;> rfl
  | arrive peer arrivals rule =>
    simp only [LiveHost.happen, LiveHost.arrive]
    split <;> rfl
  | failToAccept cause =>
    simp only [LiveHost.happen]
    split <;> rfl
  | receive source datagram =>
    simp only [LiveHost.happen, LiveHost.receive]
    split <;> rfl

theorem Kept.happened (h : Kept past accepted host) (event : Happening) :
    Kept past accepted (host.happen event) := by
  obtain ⟨order, closed, listener, arrived, linked, relayed⟩ := h
  obtain ⟨hid, hregistry⟩ := host.registry_happen event
  refine ⟨?_, ?_, (listener_happen host event).trans listener, arrived,
    linked_happen event linked, ?_⟩
  · rw [hid]
    rcases hregistry with hsame | hclose
    · rw [hsame]
      exact order
    · rw [hclose]
      exact order.close
  · rw [hid]
    rcases hregistry with hsame | hclose
    · rw [hsame]
      exact closed
    · rw [hclose]
      exact fun _ => Registry.not_isOpen_close _ _
  · intro r hr
    rcases (happened_happen host event).relay with hsame | ⟨before, act, hbefore, hact⟩
    · exact relayed r (hsame.symm.trans hr)
    · have hr : some r = some (before.act act) := hr.symm.trans hact
      cases hr
      exact (relayed before hbefore).act act

theorem Kept.turned (h : Kept past accepted host) (turn : RelayTurn) :
    Kept past accepted
      { host with relay := host.relay.map (·.act (.turn host.session.isSignalled turn)) } := by
  obtain ⟨order, closed, listener, arrived, linked, relayed⟩ := h
  refine ⟨order, closed, listener, arrived, linked, fun r hr => ?_⟩
  obtain ⟨before, hbefore, rfl⟩ := Option.map_eq_some_iff.1 hr
  exact (relayed before hbefore).act _

/-! ### The whole race -/

/-- A session asks everything but to dial. -/
def IsUndialled : Hosting.Ask → Prop
  | .connect _ _ => False
  | _ => True

/-- What a host keeps to holds on, step by step, as long as the session does not dial. -/
theorem Kept.raced (h : Kept past accepted host) (hasks : t.AsksOnly IsUndialled)
    (raced : Raced (t, host) d accepted' s) : Kept (past ++ d) (accepted ++ accepted') s.2 := by
  cases raced with
  | @awaits limit next h h' a accepted' comes => exact h.awaits comes
  | @moves t h m other =>
    rw [List.append_nil]
    have hmoved := moved_move t host m
    generalize saidIn (t, host) m = d at hmoved ⊢
    generalize move (t, host) m = s at hmoved ⊢
    cases hmoved with
    | @dealt q next a h' asks reply =>
      subst asks
      have hplain : IsPlain q := by
        cases q with
        | awaitPeer limit => exact absurd rfl (other rfl limit next)
        | connect limit address => exact hasks.1.elim
        | _ => trivial
      have hdealt := h.dealt hplain
      rwa [reply] at hdealt
    | rests ended => simpa using h
    | turned turn => simpa using h.turned turn
    | happened event => simpa using h.happened event

/-- A host with which the wait for a connection begins: it has none, and no listener either. -/
structure IsIdle (h : LiveHost) : Prop where
  order : h.session.registry.InOrder h.session.id
  link : h.link = none
  relay : h.relay = none
  listener : h.listener = none

theorem IsIdle.kept (h : IsIdle host) : Kept [] [] host where
  order := h.order
  closed hclosed := by cases hclosed
  listener := h.listener
  arrived := rfl
  linked link hlink := by
    rw [h.link] at hlink
    cases hlink
  relayed r hr := by
    rw [h.relay] at hr
    cases hr

/-- What a host keeps to in a race of a session that does not dial. -/
theorem kept_races (hidle : IsIdle host) (hasks : t.AsksOnly IsUndialled)
    (hraces : Races (t, host) d accepted s) : Kept d accepted s.2 := by
  induction hraces with
  | start => exact hidle.kept
  | step past raced ih => exact ih.raced (hasks.leads past.leads) raced

end LiveHost

end Socks5

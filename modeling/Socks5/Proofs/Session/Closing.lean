import Socks5.Proofs.Relay.Closing
import Socks5.Proofs.Session.Course
import Socks5.Server.Basic

/-!
# Sessions that are closed

When a session is closed, what it waits for is given up: what is asked of its client, a connection
that is dialled or awaited, a session that is held, and its relay, which is brought down. Two waits
are not given up: for the verdict of a collaborator, and for a connection to take what its client
has sent early. Main statement: after the closing, the steps of the session's own answer whatever it
asks but for these two, and lead to its end or to one of them (`answered_iff_not_hangs`). Neither is
out of reach (`stuck_after_close`).
-/

namespace Socks5

/-! ## What stays closed -/

namespace LiveSession

variable {s : LiveSession}

theorem isSignalled_update (change : Handle → Handle)
    (hchange : ∀ handle, (change handle).isSignalled = handle.isSignalled) :
    LiveSession.isSignalled { s with registry := s.registry.update s.id change } =
      s.isSignalled := by
  simp [isSignalled, Registry.handle?_update, Function.comp_def, hchange]

/-- A session that has been closed stays so when it closes itself. -/
theorem isSignalled_close (h : s.isSignalled) : s.close.isSignalled := by
  rw [close, isSignalled, Registry.close_eq]
  cases hhandle : s.registry.handle? s.id with
  | none => simp [hhandle]
  | some handle =>
    cases hclosed : handle.isClosed with
    | true => simpa [isSignalled, hhandle, hclosed] using h
    | false =>
      have hlive : ∀ live, Registry.handle?
          { s.registry.update s.id Handle.closed with live } s.id = some handle.closed := by
        intro live
        show (s.registry.update s.id Handle.closed).handle? s.id = _
        rw [Registry.handle?_update, if_pos rfl, hhandle]
        rfl
      simp only [hclosed, Bool.false_eq_true, ↓reduceIte, hlive, Option.map_some]
      rfl

end LiveSession

namespace LiveHost

open Hosting (Joined)
open Serving (Timely)

variable {past : Dialogue Hostings} {t : Task Hostings Unit} {h : LiveHost}

/-- What is asked does not open a session again that has been closed. -/
theorem isSignalled_reply (hsignalled : h.session.isSignalled) (q : Hosting.Ask) :
    (h.reply q).2.session.isSignalled := by
  cases q with
  | channel c =>
    cases c with
    | stream q => simp [reply, answer, LiveSession.answer, hsignalled]
    | consult verdict => exact hsignalled
    | close => exact LiveSession.isSignalled_close hsignalled
  | enter state =>
    show (h.enter state).session.isSignalled
    rw [session_enter]
    exact (LiveSession.isSignalled_update (·.enter state) fun _ => rfl).trans hsignalled
  | identify user =>
    show (h.updateHandle (·.setAttribute Handle.userKey user)).session.isSignalled
    exact (LiveSession.isSignalled_update (·.setAttribute Handle.userKey user)
      fun _ => rfl).trans hsignalled
  | connect limit address =>
    show (h.dial limit address).2.session.isSignalled
    rw [LiveHost.dial, if_pos hsignalled]
    exact hsignalled
  | awaitPeer limit =>
    show (h.awaitPeer limit).2.session.isSignalled
    rw [LiveHost.awaitPeer, LiveSession.watch_of_isSignalled hsignalled]
    exact hsignalled
  | hold =>
    show h.hold.2.session.isSignalled
    rw [LiveHost.hold, LiveSession.hold, if_pos (by rw [hsignalled, Bool.true_or])]
    exact hsignalled
  | peer q =>
    show (h.onLink q).2.session.isSignalled
    unfold LiveHost.onLink
    split <;> exact hsignalled
  | relay bufferSize =>
    cases hlink : h.link with
    | none => simpa [reply, hlink] using hsignalled
    | some link =>
      cases hrelay : h.relay with
      | none => simpa [reply, hlink, hrelay] using hsignalled
      | some r => simpa [reply, hlink, hrelay] using hsignalled
  | _ => exact hsignalled

/-! ## What is answered -/

/-- What a session waits for whatever becomes of it: a collaborator that gives no verdict, and a
connection that does not take what is written to it. -/
inductive Hangs (h : LiveHost) : Hosting.Ask → Prop where
  | consult : Hangs h (.channel (.consult none))
  | write {link : Link} {bytes : Bytes} (linked : h.link = some link)
      (full : (link.stream.sink.write bytes).1 = none) : Hangs h (.peer (.write bytes))

/-- Whatever else is asked of the host of a closed session is answered, with the outcome of the
relay as soon as there is one. -/
theorem isSome_reply {q : Hosting.Ask} (hsignalled : h.session.isSignalled)
    (hwired : Wired past h.wires) (htimely : Timely past q) (hhangs : ¬ Hangs h q)
    (hrelay : ∀ bufferSize, q = .relay bufferSize → ∃ r, h.relay = some r ∧ r.outcome?.isSome) :
    (h.reply q).1.isSome := by
  cases q with
  | channel c =>
    cases c with
    | stream q => simp [reply, answer, LiveSession.answer, hsignalled]
    | consult verdict =>
      cases verdict with
      | none => exact absurd .consult hhangs
      | some verdict => rfl
    | close => rfl
  | lookup limit name port =>
    simp [reply, answer, LiveSession.untilClosed, hsignalled]
  | connect limit address =>
    show (h.dial limit address).1.isSome
    rw [LiveHost.dial, if_pos hsignalled]
    rfl
  | awaitPeer limit =>
    show (h.awaitPeer limit).1.isSome
    rw [LiveHost.awaitPeer, LiveSession.watch_of_isSignalled hsignalled]
    rfl
  | hold =>
    show h.hold.1.isSome
    rw [LiveHost.hold, LiveSession.hold, if_pos (by rw [hsignalled, Bool.true_or])]
    rfl
  | peer q =>
    cases q with
    | read room => exact htimely.elim
    | flush => exact htimely.elim
    | write bytes =>
      obtain ⟨link, hlink⟩ := Option.isSome_iff_exists.1 (hwired.linked htimely.1)
      have hlink : h.link = some link := hlink
      show (h.onLink (.write bytes)).1.isSome
      rw [LiveHost.onLink, hlink]
      exact Option.isSome_iff_ne_none.2 fun hnone => hhangs (.write hlink hnone)
  | relay bufferSize =>
    obtain ⟨r, hr, houtcome⟩ := hrelay bufferSize rfl
    obtain ⟨link, hlink⟩ := Option.isSome_iff_exists.1 (hwired.linked htimely.1)
    have hlink : h.link = some link := hlink
    simpa [reply, hlink, hr] using houtcome
  | _ => rfl

/-! ## Steps of its own -/

variable {q : Hosting.Ask} {next : Hosting.Answer q → Task Hostings Unit}

/-- The steps of its own do not open a session again that has been closed. -/
theorem isSignalled_course {own : List Move} (hown : ∀ m ∈ own, IsOwn m)
    (hsignalled : h.session.isSignalled) : (course (t, h) own).2.session.isSignalled := by
  induction own generalizing t h with
  | nil => exact hsignalled
  | cons m own ih =>
    have hmoved := moved_move t h m
    rw [course_cons]
    generalize saidIn (t, h) m = d at hmoved
    generalize move (t, h) m = s at hmoved ⊢
    obtain ⟨t', h'⟩ := s
    refine ih (List.forall_mem_cons.1 hown).2 ?_
    cases hmoved with
    | @dealt q next a h' asks hreply =>
      have hkept := isSignalled_reply hsignalled q
      rwa [hreply] at hkept
    | rests ended => exact hsignalled
    | turned turn => exact hsignalled
    | happened event => exact (List.forall_mem_cons.1 hown).1.elim

/-- The relay of a closed session can be brought to its outcome, whether it has been started or
not. -/
theorem exists_outcome {bufferSize : Nat}
    (next : Hosting.Answer (.relay bufferSize) → Task Hostings Unit)
    (hsignalled : h.session.isSignalled) (hwired : Wired past h.wires) (hjoined : Joined past) :
    ∃ own r, (∀ m ∈ own, IsOwn m) ∧ said (.ask (.relay bufferSize) next, h) own = [] ∧
      course (.ask (.relay bufferSize) next, h) own =
        (.ask (.relay bufferSize) next, { h with relay := some r }) ∧ r.outcome?.isSome := by
  obtain ⟨link, hlink⟩ := Option.isSome_iff_exists.1 (hwired.linked hjoined)
  have hlink : h.link = some link := hlink
  cases hrelay : h.relay with
  | some r =>
    obtain ⟨bufferSize', client, target, acts, rfl⟩ := hwired.relays r hrelay
    obtain ⟨ts, hts⟩ := (Relay.coupled_after bufferSize' client target acts).exists_outcome
    obtain ⟨hcourse, hsaid⟩ := course_turns (.ask (.relay bufferSize) next) h ts
    rw [hrelay, hsignalled] at hcourse
    exact ⟨_, _, isOwn_map_turn ts, hsaid, hcourse, hts⟩
  | none =>
    -- Asking starts the relay and is not answered yet; the turns are those of the new relay.
    let r : Relay := .start bufferSize h.session.stream link.stream
    have hreply : h.reply (.relay bufferSize) = (none, { h with relay := some r }) := by
      simp [reply, hlink, hrelay, r]
    obtain ⟨ts, hts⟩ :=
      (Relay.coupled_start bufferSize h.session.stream link.stream).exists_outcome
    obtain ⟨hcourse, hsaid⟩ :=
      course_turns (.ask (.relay bufferSize) next) { h with relay := some r } ts
    rw [hsignalled] at hcourse
    obtain ⟨hmove, hnone⟩ := move_deal next hreply
    refine ⟨.deal :: ts.map .turn, _, List.forall_mem_cons.2 ⟨trivial, isOwn_map_turn ts⟩, ?_,
      (congrArg (course · _) hmove).trans hcourse, hts⟩
    rw [said, hnone, hmove]
    exact hsaid

/-- By its own steps a closed session comes to the answer to whatever it asks, unless that hangs. -/
theorem exists_answer (next : Hosting.Answer q → Task Hostings Unit)
    (hsignalled : h.session.isSignalled) (hwired : Wired past h.wires)
    (htimely : Timely past q) (hhangs : ¬ Hangs h q) :
    ∃ own a, (∀ m ∈ own, IsOwn m) ∧ said (.ask q next, h) own = [⟨q, a⟩] ∧
      (course (.ask q next, h) own).1 = next a := by
  have hdeal : ∀ h' : LiveHost, (h'.reply q).1.isSome →
      ∃ a, saidIn (.ask q next, h') .deal = [⟨q, a⟩] ∧
        (move (.ask q next, h') .deal).1 = next a := by
    intro h' hsome
    obtain ⟨a, ha⟩ := Option.isSome_iff_exists.1 hsome
    obtain ⟨hmove, hsaid⟩ := move_deal next (Prod.ext ha rfl)
    exact ⟨a, hsaid, congrArg Prod.fst hmove⟩
  by_cases hrelay : ∃ bufferSize, q = .relay bufferSize
  · -- Only the relay is not answered at once: its turns come first.
    obtain ⟨bufferSize, rfl⟩ := hrelay
    obtain ⟨own, r, hown, hsaid, hcourse, houtcome⟩ :=
      exists_outcome next hsignalled hwired htimely.1
    obtain ⟨link, hlink⟩ := Option.isSome_iff_exists.1 (hwired.linked htimely.1)
    have hlink : h.link = some link := hlink
    obtain ⟨a, hsaid', hnext⟩ := hdeal { h with relay := some r } (by simpa [reply, hlink])
    refine ⟨own ++ [.deal], a, ?_, ?_, ?_⟩
    · exact List.forall_mem_append.2 ⟨hown, List.forall_mem_singleton.2 trivial⟩
    · rw [said_append, hsaid, hcourse]
      simpa [said] using hsaid'
    · rw [course_append, hcourse]
      exact hnext
  · obtain ⟨a, hsaid, hnext⟩ := hdeal h <| isSome_reply hsignalled hwired htimely hhangs
      fun bufferSize heq => absurd ⟨bufferSize, heq⟩ hrelay
    refine ⟨[.deal], a, List.forall_mem_singleton.2 trivial, ?_, hnext⟩
    simpa [said] using hsaid

/-- What hangs is not answered, and goes on hanging. -/
theorem Hangs.reply (hhangs : Hangs h q) : (h.reply q).1 = none ∧ Hangs (h.reply q).2 q := by
  cases hhangs with
  | consult => exact ⟨rfl, .consult⟩
  | @write link bytes linked full =>
    have hsink : (link.stream.sink.write bytes).2 = link.stream.sink := by
      unfold Sink.write at full ⊢
      simp only at full ⊢
      split at full
      · cases hfull : link.stream.sink.intake.whenFull <;> simp_all
      · cases full
    have hreply : h.reply (.peer (.write bytes)) = (none, { h with link := some link }) := by
      show h.onLink (.write bytes) = _
      rw [LiveHost.onLink, linked]
      simp only [Duplex.answer, full, hsink]
    rw [hreply]
    exact ⟨rfl, .write rfl full⟩

/-- No steps of its own take a session on from a question that hangs. -/
theorem Hangs.course (hhangs : Hangs h q) {own : List Move} (hown : ∀ m ∈ own, IsOwn m) :
    said (.ask q next, h) own = [] ∧
      ∃ h', course (.ask q next, h) own = (.ask q next, h') ∧ Hangs h' q := by
  induction own generalizing h with
  | nil => exact ⟨rfl, h, rfl, hhangs⟩
  | cons m own ih =>
    obtain ⟨hfirst, hrest⟩ := List.forall_mem_cons.1 hown
    cases m with
    | happen event => exact hfirst.elim
    | deal =>
      -- A write that is not taken is held again, so the host is not the one it was.
      obtain ⟨hnone, hkept⟩ := hhangs.reply
      obtain ⟨hmove, hnothing⟩ := move_deal next (Prod.ext hnone rfl)
      obtain ⟨hsaid, h', hcourse, hhangs'⟩ := ih hkept hrest
      refine ⟨?_, h', ?_, hhangs'⟩
      · rw [said, hnothing, hmove]
        exact hsaid
      · rw [course_cons, hmove]
        exact hcourse
    | turn turn =>
      have hkept : Hangs { h with relay := h.relay.map (·.act (.turn h.session.isSignalled turn)) }
          q := by
        cases hhangs with
        | consult => exact .consult
        | write linked full => exact .write linked full
      obtain ⟨hsaid, h', hcourse, hhangs'⟩ := ih hkept hrest
      exact ⟨hsaid, h', hcourse, hhangs'⟩

/-! ## Where its own steps lead a closed session -/

/-- A session waits for an answer that its own steps never come to. -/
def IsParked (s : Task Hostings Unit × LiveHost) : Prop := ∃ q next, s.1 = .ask q next ∧ Hangs s.2 q

/-- Serving a session never fails: the outcome is told to the log. -/
theorem failsOnly_run (s : Serving.Setting) :
    (Serving.run s).FailsOnly (I := Hostings) fun _ => False := by
  have hfinish : ∀ outcome, (Serving.finish outcome).FailsOnly (I := Hostings) fun _ => False :=
    fun outcome => .bind (Serving.failsOnly_ask _) fun _ =>
      .bind (Serving.failsOnly_ask (.channel .close)) fun _ => Serving.failsOnly_ask _
  rw [Serving.run_eq]
  refine .bind (Serving.failsOnly_ask _) fun verdict => ?_
  cases verdict with
  | some reason => exact hfinish _
  | none => exact .bind (.attempt _) hfinish

/-- A session that has been closed is over after steps of its own, or parked. -/
theorem exists_own_end (s : Serving.Setting) {h₀ : LiveHost} (hnew : h₀.IsNew) {moves : List Move}
    (hcourse : course (Serving.run s, h₀) moves = (t, h)) (hsignalled : h.session.isSignalled) :
    ∃ own, (∀ m ∈ own, IsOwn m) ∧
      ((course (t, h) own).1 = .done () ∨ IsParked (course (t, h) own)) := by
  -- The induction is on the work that is left. `moves` grows with each answer, so that what holds
  -- of every course of the session holds where the answer leaves it.
  induction t generalizing h moves with
  | done a => exact ⟨[], by simp, .inl rfl⟩
  | fail e =>
    have hleads := leads_course (Serving.run s) h₀ moves
    rw [hcourse] at hleads
    exact ((failsOnly_run s).of_leads hleads).elim
  | ask q next ih =>
    by_cases hhangs : Hangs h q
    · exact ⟨[], by simp, .inr ⟨q, next, rfl, hhangs⟩⟩
    · have hwired := wired_course (t := Serving.run s) hnew.wired moves
      have htimely := (conduct_course s h₀ moves).2 q next (by rw [hcourse])
      rw [hcourse] at hwired
      obtain ⟨own, a, hown, _, hnext⟩ := exists_answer next hsignalled hwired htimely hhangs
      have hkept : (course (.ask q next, h) own).2.session.isSignalled :=
        isSignalled_course hown hsignalled
      have hcourse' : course (Serving.run s, h₀) (moves ++ own) =
          (next a, (course (.ask q next, h) own).2) := by
        rw [course_append, hcourse]
        exact Prod.ext hnext rfl
      obtain ⟨own', hown', hend⟩ := ih a hcourse' hkept
      refine ⟨own ++ own', List.forall_mem_append.2 ⟨hown, hown'⟩, ?_⟩
      rw [course_append]
      rwa [← hnext] at hend

/-- In every state of a session that has been closed, the steps of its own answer what it asks
unless that hangs, and only then; and they lead to its end, or to where it is parked. -/
theorem answered_iff_not_hangs (s : Serving.Setting) (hnew : h.IsNew) (moves : List Move)
    (hsignalled : (course (Serving.run s, h) moves).2.session.isSignalled) :
    let state := course (Serving.run s, h) moves
    (∀ q next, state.1 = .ask q next →
      ((∃ own, (∀ m ∈ own, IsOwn m) ∧ said state own ≠ []) ↔ ¬ Hangs state.2 q)) ∧
    ∃ own, (∀ m ∈ own, IsOwn m) ∧
      ((course state own).1 = .done () ∨ IsParked (course state own)) := by
  intro state
  refine ⟨fun q next hasks => ?_, exists_own_end s hnew rfl hsignalled⟩
  have hstate : state = (.ask q next, state.2) := Prod.ext hasks rfl
  constructor
  · rintro ⟨own, hown, hsaid⟩ hhangs
    rw [hstate] at hsaid
    exact hsaid (hhangs.course hown).1
  · intro hhangs
    have hwired := wired_course (t := Serving.run s) hnew.wired moves
    have htimely := (conduct_course s h moves).2 q next hasks
    obtain ⟨own, a, hown, hsaid, _⟩ := exists_answer next hsignalled hwired htimely hhangs
    refine ⟨own, hown, ?_⟩
    rw [hstate, hsaid]
    exact List.cons_ne_nil _ _

/-- A client that asks for a connection to be waited for, and sends a byte for it ahead. -/
def hastyHost : LiveHost where
  session := .alone .unspecified .unspecified
    { source :=
        ⟨[.piece [0x05, 0x01, 0x00, 0x05, 0x02, 0x00, 0x01, 127, 0, 0, 1, 0, 80, 0x2a]], 0⟩ }
  network :=
    { lookup := fun _ _ => .ok []
      dial := fun _ => none
      openSocket := fun _ _ _ => .ok .unspecified }

/-- A session that is closed while it waits for the connection is not parked. -/
theorem answered_iff_not_hangs_hastyHost :
    let state := course (Serving.run openSetting, hastyHost)
      (.replicate 23 .deal ++ [.happen .close])
    (∃ own, (∀ m ∈ own, IsOwn m) ∧ said state own ≠ []) ∧
      ∃ own, (∀ m ∈ own, IsOwn m) ∧
        ((course state own).1 = .done () ∨ IsParked (course state own)) := by
  intro state
  obtain ⟨hanswered, hends⟩ := answered_iff_not_hangs openSetting (h := hastyHost)
    ⟨rfl, rfl, rfl, rfl⟩ (.replicate 23 .deal ++ [.happen .close]) rfl
  refine ⟨(hanswered (.awaitPeer none) _ rfl).2 ?_, hends⟩
  intro hhangs
  cases hhangs

/-- A closed session that no steps of its own take on. -/
def IsStuck (s : Task Hostings Unit × LiveHost) : Prop :=
  s.2.session.isSignalled ∧ s.1.outcome? = none ∧
    ∀ own, (∀ m ∈ own, IsOwn m) → said s own = [] ∧ (course s own).1.outcome? = none

theorem IsParked.isStuck {s : Task Hostings Unit × LiveHost} (hparked : IsParked s)
    (hsignalled : s.2.session.isSignalled) : IsStuck s := by
  obtain ⟨t, h⟩ := s
  obtain ⟨q, next, rfl, hhangs⟩ := hparked
  refine ⟨hsignalled, rfl, fun own hown => ?_⟩
  obtain ⟨hsaid, h', hcourse, _⟩ := hhangs.course hown
  refine ⟨hsaid, ?_⟩
  rw [hcourse]
  rfl

/-- The connection comes in and takes nothing of the byte that was sent ahead; then the session is
closed. -/
def hastyMoves : List Move :=
  .replicate 23 .deal ++ .happen (.arrive .unspecified [] { limit := some 0 }) ::
    .replicate 6 .deal ++ [.happen .close]

/-- A server whose authenticator never decides. -/
def silentSetting : Serving.Setting :=
  { openSetting with methods := Server.methodsFor (some fun _ => none) }

/-- A client that logs in. -/
def loginHost : LiveHost :=
  { hastyHost with
    session := .alone .unspecified .unspecified
      { source := ⟨[.piece [0x05, 0x01, 0x02, 0x01, 1, 0x75, 1, 0x70]], 0⟩ } }

/-- A closed session may be stuck: with a connection that does not take what was sent ahead, and
with an authenticator that does not decide. -/
theorem stuck_after_close :
    IsStuck (course (Serving.run openSetting, hastyHost) hastyMoves) ∧
      IsStuck (course (Serving.run silentSetting, loginHost)
        (.replicate 14 .deal ++ [.happen .close])) :=
  ⟨IsParked.isStuck ⟨.peer (.write [0x2a]), _, rfl, .write rfl rfl⟩ rfl,
    IsParked.isStuck ⟨.channel (.consult none), _, rfl, .consult⟩ rfl⟩

end LiveHost

end Socks5

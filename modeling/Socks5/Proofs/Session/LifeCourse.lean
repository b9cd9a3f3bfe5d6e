import Socks5.Proofs.Session.Course
import Socks5.Proofs.Session.LifeCycle

/-!
# Lives of sessions over hosts in memory

The host of a session keeps the registry that the session is part of. What the host does about a
question does to the registry what the question is to do, and from outside only the closing of the
session touches it. Main statement: the course of a session over a host in memory is a life of the
session (`exists_life_course`).
-/

namespace Socks5.LiveHost

variable {t : Task Hostings Unit} {h : LiveHost}

theorem session_dial (h : LiveHost) (limit : Option Duration) (address : SocketAddr) :
    (h.dial limit address).2.session = h.session := by
  unfold dial
  split
  · rfl
  · simp only
    split
    · rfl
    · rfl
    · split <;> rfl

/-- To wait for a peer is at most to look for the end of the client's stream. -/
theorem session_awaitPeer (h : LiveHost) (limit : Option Duration) :
    (h.awaitPeer limit).2.session = h.session ∨
      (h.awaitPeer limit).2.session = h.session.listen.2.2 := by
  rcases h.session.watch_cases h.queue.head? with ⟨-, hwatch⟩ | ⟨event, -, hwatch⟩ |
    ⟨bytes, stop, session, -, hlisten, hwatch⟩ | ⟨bytes, session, -, hlisten, hwatch⟩
  · simp only [awaitPeer, hwatch, true_or]
  · cases event <;> simp only [awaitPeer, hwatch, true_or]
  · simp only [awaitPeer, hwatch, hlisten, or_true]
  · simp only [awaitPeer, hwatch, hlisten]
    split <;> exact .inr rfl

/-- What a session asks its client's stream is no matter for its registry. -/
theorem registry_stream (s : LiveSession) (q : Stream.Ask) :
    (s.answer (.stream q)).2.id = s.id ∧ (s.answer (.stream q)).2.registry = s.registry := by
  rw [LiveSession.answer]
  split <;> exact ⟨rfl, rfl⟩

/-- Dealing with a question does to the registry what the question is to do. -/
theorem registry_reply (h : LiveHost) (q : Hosting.Ask) :
    (h.reply q).2.session.id = h.session.id ∧
      (h.reply q).2.session.registry = h.session.registry.served h.session.id q := by
  cases q with
  | channel c =>
    cases c with
    | consult verdict => exact ⟨rfl, rfl⟩
    | close => exact ⟨rfl, rfl⟩
    | stream q => exact registry_stream h.session q
  | enter next =>
    show (h.enter next).session.id = _ ∧ (h.enter next).session.registry = _
    rw [session_enter]
    exact ⟨rfl, rfl⟩
  | connect limit address =>
    show (h.dial limit address).2.session.id = _ ∧ (h.dial limit address).2.session.registry = _
    rw [session_dial]
    exact ⟨rfl, rfl⟩
  | awaitPeer limit =>
    show (h.awaitPeer limit).2.session.id = _ ∧ (h.awaitPeer limit).2.session.registry = _
    rcases h.session_awaitPeer limit with hsession | hsession
    · rw [hsession]
      exact ⟨rfl, rfl⟩
    · rw [hsession]
      exact ⟨rfl, rfl⟩
  | hold =>
    show h.hold.2.session.id = _ ∧ h.hold.2.session.registry = _
    unfold LiveHost.hold LiveSession.hold
    split <;> exact ⟨rfl, rfl⟩
  | peer q =>
    show (h.onLink q).2.session.id = _ ∧ (h.onLink q).2.session.registry = _
    unfold LiveHost.onLink
    split <;> exact ⟨rfl, rfl⟩
  | relay bufferSize =>
    rw [reply]
    split <;> exact ⟨rfl, rfl⟩
  | _ => exact ⟨rfl, rfl⟩

/-- What is not answered does nothing to the registry. -/
theorem served_of_unanswered {q : Hosting.Ask} (hreply : (h.reply q).1 = none) (id : Nat)
    (r : Registry) : r.served id q = r := by
  cases q with
  | enter next => cases hreply
  | identify user => cases hreply
  | channel c =>
    cases c with
    | close => cases hreply
    | _ => rfl
  | _ => rfl

theorem session_updatePeer (h : LiveHost) (change : Duplex → Duplex) :
    (h.updatePeer change).session = h.session := by
  unfold updatePeer
  split <;> rfl

theorem registry_updateClient (h : LiveHost) (change : Duplex → Duplex) :
    (h.updateClient change).session.id = h.session.id ∧
      (h.updateClient change).session.registry = h.session.registry := by
  unfold updateClient
  split <;> exact ⟨rfl, rfl⟩

/-- What happens to a host from outside closes the session, or does nothing to the registry. -/
theorem registry_happen (h : LiveHost) (event : Happening) :
    (h.happen event).session.id = h.session.id ∧
      ((h.happen event).session.registry = h.session.registry ∨
        (h.happen event).session.registry = (h.session.registry.close h.session.id).2) := by
  have hkept : ∀ h' : LiveHost, h'.session = h.session → h'.session.id = h.session.id ∧
      (h'.session.registry = h.session.registry ∨
        h'.session.registry = (h.session.registry.close h.session.id).2) := by
    intro h' hsession
    rw [hsession]
    exact ⟨rfl, .inl rfl⟩
  cases event with
  | close => exact ⟨rfl, .inr rfl⟩
  | feed arrivals =>
    obtain ⟨hid, hregistry⟩ :=
      h.registry_updateClient fun d => { d with source := d.source.feed arrivals }
    exact ⟨hid, .inl hregistry⟩
  | setIntake rule =>
    obtain ⟨hid, hregistry⟩ :=
      h.registry_updateClient fun d => { d with sink := { d.sink with intake := rule } }
    exact ⟨hid, .inl hregistry⟩
  | feedPeer arrivals => exact hkept _ (h.session_updatePeer _)
  | setPeerIntake rule => exact hkept _ (h.session_updatePeer _)
  | arrive peer arrivals rule =>
    refine hkept _ ?_
    show (h.arrive peer _).session = h.session
    unfold arrive
    split <;> rfl
  | failToAccept cause =>
    refine hkept _ ?_
    show (if h.listener.isSome then { h with queue := h.queue ++ [.error cause] }
      else h).session = _
    split <;> rfl
  | receive source datagram =>
    refine hkept _ ?_
    show (h.receive source datagram).2.session = h.session
    unfold receive
    split <;> rfl
  | wait milliseconds => exact hkept _ rfl

/-- A move is something that happens in the life of the session, or nothing. -/
theorem exists_life_move (t : Task Hostings Unit) (h : LiveHost) (m : Move) :
    ∃ life, LifeEvent.said life = saidIn (t, h) m ∧
      (move (t, h) m).2.session.id = h.session.id ∧
      (move (t, h) m).2.session.registry = h.session.registry.lived h.session.id life := by
  have hmoved := moved_move t h m
  generalize saidIn (t, h) m = d at hmoved ⊢
  generalize move (t, h) m = s at hmoved ⊢
  cases hmoved with
  | @dealt q next a h' asks reply =>
    have hreply := h.registry_reply q
    rw [reply] at hreply
    cases a with
    | some a => exact ⟨[.asked ⟨q, a⟩], rfl, hreply⟩
    | none =>
      rw [served_of_unanswered (by rw [reply])] at hreply
      exact ⟨[], rfl, hreply⟩
  | rests ended => exact ⟨[], rfl, rfl, rfl⟩
  | turned turn => exact ⟨[], rfl, rfl, rfl⟩
  | happened event =>
    obtain ⟨hid, hregistry | hregistry⟩ := h.registry_happen event
    · exact ⟨[], rfl, hid, hregistry⟩
    · exact ⟨[.closed h.session.id], rfl, hid, hregistry⟩

/-- The course of a session over a host in memory is a life of it. -/
theorem exists_life_course (t : Task Hostings Unit) (h : LiveHost) (moves : List Move) :
    ∃ life, LifeEvent.said life = said (t, h) moves ∧
      (course (t, h) moves).2.session.id = h.session.id ∧
      (course (t, h) moves).2.session.registry = h.session.registry.lived h.session.id life := by
  induction moves generalizing t h with
  | nil => exact ⟨[], rfl, rfl, rfl⟩
  | cons m moves ih =>
    obtain ⟨first, hfirst, hid, hregistry⟩ := exists_life_move t h m
    obtain ⟨rest, hrest, hid', hregistry'⟩ := ih (move (t, h) m).1 (move (t, h) m).2
    refine ⟨first ++ rest, ?_, hid'.trans hid, ?_⟩
    · rw [LifeEvent.said_append, hfirst, hrest]
      rfl
    · rw [Registry.lived_append, ← hregistry, ← hid]
      exact hregistry'

end Socks5.LiveHost

import Socks5.Proofs.Session.Registry
import Socks5.Server.Live

/-!
# Shutting down

A sweep closes the sessions that it has seen in the registry, and a session that is registered too
late to be seen is closed by the check that comes before it is served. The order matters on either
side: a sweep says that the server is shut down before it looks, and a session is registered before
it is checked. The invariant (`Ordered`) says which open sessions each sweep still owes: all that
belong to a connection past its check. Main statement: after a sweep has finished, every session
has been closed or waits for the check that closes it, whatever happens in whichever order
(`no_session_survives`).
-/

namespace Socks5


/-! ## What a sweep owes -/

namespace ConnectionStage

/-- The session of a connection, once its check is over. -/
def checked? : ConnectionStage → Option Nat
  | .preparing | .unprepared | .prepared | .registered _ => none
  | .turnedAway id | .cleared id | .serving id | .served id => some id

theorem session?_of_checked? {stage : ConnectionStage} {id : Nat} (h : stage.checked? = some id) :
    stage.session? = some id := by
  cases stage <;> simp_all [session?, checked?]

theorem eq_registered_or_checked {stage : ConnectionStage} {id : Nat}
    (h : stage.session? = some id) : stage = .registered id ∨ stage.checked? = some id := by
  cases stage <;> simp_all [session?, checked?]

end ConnectionStage

namespace Sweep

/-- The sessions that a sweep has yet to close. Until it looks that is whatever there is; then it is
what it is due to see, and at last what it has seen and not reached. -/
def Owes : Sweep → Nat → Prop
  | .started, _ | .signalled, _ => True
  | .looking due _, id => id ∈ due
  | .closing left _, id => id ∈ left
  | .finished _, _ => False

/-- Whether a sweep has said that the server is shut down. -/
def HasSignalled : Sweep → Prop
  | .started => False
  | _ => True

theorem owes_of_not_hasSignalled {w : Sweep} (h : ¬ w.HasSignalled) (id : Nat) : w.Owes id := by
  cases w with
  | started => trivial
  | _ => exact absurd trivial h

end Sweep

namespace LiveServer

variable {s : LiveServer} {i j id : Nat}

/-! ## Connections and their sessions -/

/-- How far the work on a connection has come, if there is such a connection. -/
def stage? (s : LiveServer) (i : Nat) : Option ConnectionStage := s.connections[i]?.map (·.stage)

/-- The session of a connection. -/
def session? (s : LiveServer) (i : Nat) : Option Nat := (s.stage? i).bind (·.session?)

/-- The session of a connection whose check is over. -/
def checked? (s : LiveServer) (i : Nat) : Option Nat := (s.stage? i).bind (·.checked?)

theorem stage?_eq {c : Connection} (h : s.connections[i]? = some c) :
    s.stage? i = some c.stage := by
  rw [stage?, h]
  rfl

theorem stage?_advance (s : LiveServer) (i j : Nat) (stage : ConnectionStage) :
    (s.advance i stage).stage? j =
      if j = i then (s.stage? i).map fun _ => stage else s.stage? j := by
  simp only [stage?, advance, List.getElem?_modify]
  by_cases h : j = i
  · subst h
    simp [Function.comp_def]
  · simp [h, Ne.symm h]

/-- A connection that goes on has the session of its new stage. No other connection changes. -/
theorem session?_advance {before : ConnectionStage} (h : s.stage? i = some before)
    (stage : ConnectionStage) (j : Nat) :
    (s.advance i stage).session? j = if j = i then stage.session? else s.session? j := by
  rw [session?, stage?_advance, h]
  by_cases hj : j = i
  · simp [hj]
  · simp [hj, session?]

theorem checked?_advance {before : ConnectionStage} (h : s.stage? i = some before)
    (stage : ConnectionStage) (j : Nat) :
    (s.advance i stage).checked? j = if j = i then stage.checked? else s.checked? j := by
  rw [checked?, stage?_advance, h]
  by_cases hj : j = i
  · simp [hj]
  · simp [hj, checked?]

/-- A new connection is the last one. -/
theorem stage?_concat (s : LiveServer) (c : Connection) (j : Nat) :
    stage? { s with connections := s.connections ++ [c] } j =
      if j = s.connections.length then some c.stage else s.stage? j := by
  simp only [stage?, List.getElem?_append]
  rcases Nat.lt_trichotomy j s.connections.length with hj | rfl | hj
  · rw [if_pos hj, if_neg (Nat.ne_of_lt hj)]
  · simp
  · have hrest : s.connections[j]? = none := List.getElem?_eq_none (Nat.le_of_lt hj)
    have hlast : [c][j - s.connections.length]? = none :=
      List.getElem?_eq_none (Nat.sub_pos_of_lt hj)
    rw [if_neg (Nat.not_lt.2 (Nat.le_of_lt hj)), if_neg (Nat.ne_of_gt hj), hrest, hlast]

theorem stage?_length (s : LiveServer) : s.stage? s.connections.length = none := by
  simp [stage?]

theorem session?_of_checked? (h : s.checked? j = some id) : s.session? j = some id := by
  obtain ⟨stage, hstage, hchecked⟩ := Option.bind_eq_some_iff.1 h
  rw [session?, hstage]
  exact stage.session?_of_checked? hchecked

theorem stage?_of_session? (h : s.session? j = some id) :
    s.stage? j = some (.registered id) ∨ s.checked? j = some id := by
  obtain ⟨stage, hstage, hsession⟩ := Option.bind_eq_some_iff.1 h
  rw [checked?, hstage]
  rcases stage.eq_registered_or_checked hsession with rfl | hchecked
  · exact .inl rfl
  · exact .inr hchecked

theorem sweeps_sweepStep (s : LiveServer) (w : Sweep) : (s.sweepStep w).1.sweeps = s.sweeps := by
  cases w with
  | closing left closed => cases left <;> rfl
  | _ => rfl

/-! ## The invariant -/

/-- Every open session belongs to a connection, a sweep looks only after it has shut the server
down, and it owes all open sessions whose check is over. -/
structure Ordered (s : LiveServer) : Prop where
  tidy : s.registry.Tidy
  owned : ∀ id, s.registry.IsOpen id → ∃ j, s.session? j = some id
  known : ∀ j id, s.session? j = some id → (s.registry.handle? id).isSome
  signalled : ∀ w ∈ s.sweeps, w.HasSignalled → s.isShutDown
  owing : ∀ w ∈ s.sweeps, ∀ j id, s.checked? j = some id → s.registry.IsOpen id → w.Owes id

namespace Ordered

theorem congr {s' : LiveServer} (h : s.Ordered) (hregistry : s'.registry = s.registry)
    (hconnections : s'.connections = s.connections) (hshut : s'.isShutDown = s.isShutDown)
    (hsweeps : s'.sweeps = s.sweeps) : s'.Ordered := by
  cases s
  cases s'
  cases hregistry
  cases hconnections
  cases hshut
  cases hsweeps
  exact ⟨h.tidy, h.owned, h.known, h.signalled, h.owing⟩

/-- A registry that has lost open sessions, and no others. -/
theorem withRegistry {r : Registry} (h : s.Ordered) (htidy : r.Tidy)
    (hopen : ∀ id, r.IsOpen id → s.registry.IsOpen id)
    (hknown : ∀ id, (r.handle? id).isSome = (s.registry.handle? id).isSome) :
    Ordered { s with registry := r } where
  tidy := htidy
  owned id hid := h.owned id (hopen id hid)
  known j id hsession := (hknown id).trans (h.known j id hsession)
  signalled := h.signalled
  owing w hw j id hchecked hid := h.owing w hw j id hchecked (hopen id hid)

theorem close (h : s.Ordered) (id : Nat) : Ordered { s with registry := (s.registry.close id).2 } :=
  h.withRegistry (h.tidy.close id) (fun _ hopen => (Registry.isOpen_close_iff.1 hopen).1)
    fun _ => Registry.isSome_close

/-- A connection goes on with its session. A check that is over only now is no matter if the session
is closed, or if no sweep has shut the server down. -/
theorem advance {before after : ConnectionStage} (h : s.Ordered)
    (hbefore : s.stage? i = some before) (hsession : after.session? = before.session?)
    (hchecked : ∀ id, after.checked? = some id → before.checked? = some id ∨
      ¬ s.registry.IsOpen id ∨ s.isShutDown = false) :
    Ordered (s.advance i after) := by
  have hsession' : ∀ j, (s.advance i after).session? j = s.session? j := by
    intro j
    rw [session?_advance hbefore]
    by_cases hj : j = i
    · rw [if_pos hj, hsession, hj, session?, hbefore]
      rfl
    · rw [if_neg hj]
  refine ⟨h.tidy, fun id hid => ?_, fun j id hid => ?_, h.signalled, ?_⟩
  · obtain ⟨j, hj⟩ := h.owned id hid
    exact ⟨j, (hsession' j).trans hj⟩
  · rw [hsession'] at hid
    exact h.known j id hid
  · intro w hw j id hid hopen
    rw [checked?_advance hbefore] at hid
    by_cases hj : j = i
    · rw [if_pos hj] at hid
      rcases hchecked id hid with hbefore' | hclosed | hshut
      · refine h.owing w hw i id ?_ hopen
        rw [checked?, hbefore]
        exact hbefore'
      · exact absurd hopen hclosed
      · refine w.owes_of_not_hasSignalled (fun hsignalled => ?_) id
        have hshut' := h.signalled w hw hsignalled
        rw [hshut] at hshut'
        cases hshut'
    · rw [if_neg hj] at hid
      exact h.owing w hw j id hid hopen

/-- A connection comes in. -/
theorem concat {c : Connection} (h : s.Ordered) (hc : c.stage = .preparing) :
    Ordered { s with connections := s.connections ++ [c] } := by
  have hstage : ∀ {α : Type} (view : ConnectionStage → Option α), view .preparing = none → ∀ j,
      (stage? { s with connections := s.connections ++ [c] } j).bind view =
        (s.stage? j).bind view := by
    intro α view hview j
    rw [stage?_concat]
    by_cases hj : j = s.connections.length
    · rw [if_pos hj, hc, hj, stage?_length]
      exact hview
    · rw [if_neg hj]
  have hsession := hstage (·.session?) rfl
  have hchecked := hstage (·.checked?) rfl
  refine ⟨h.tidy, fun id hopen => ?_, fun j id hid => ?_, h.signalled, fun w hw j id hid => ?_⟩
  · obtain ⟨j, hj⟩ := h.owned id hopen
    exact ⟨j, (hsession j).trans hj⟩
  · exact h.known j id ((hsession j).symm.trans hid)
  · exact h.owing w hw j id ((hchecked j).symm.trans hid)

theorem connect (h : s.Ordered) (peer localAddr : SocketAddr) :
    (s.connect peer localAddr).Ordered := by
  unfold LiveServer.connect
  split
  · exact (h.concat rfl).congr rfl rfl rfl rfl
  · exact h

/-- A new session belongs to the connection that it was made of, and to no other. -/
theorem register (h : s.Ordered) (i : Nat) : (s.register i).Ordered := by
  unfold LiveServer.register
  split
  case h_2 => exact h
  case h_1 peer localAddr hconnection =>
    have hbefore : s.stage? i = some .prepared := stage?_eq hconnection
    have hnone : s.session? i = none := by
      rw [session?, hbefore]
      rfl
    have hsession := session?_advance hbefore (.registered (s.registry.create peer localAddr).1)
    have hchecked := checked?_advance hbefore (.registered (s.registry.create peer localAddr).1)
    refine ⟨h.tidy.create peer localAddr, fun id hopen => ?_, fun j id hid => ?_, h.signalled,
      fun w hw j id hid hopen => ?_⟩
    · rcases Registry.isOpen_create_iff.1 hopen with rfl | hopen
      · exact ⟨i, (hsession i).trans (if_pos rfl)⟩
      · obtain ⟨j, hj⟩ := h.owned id hopen
        have hji : j ≠ i := by
          rintro rfl
          rw [hnone] at hj
          cases hj
        exact ⟨j, (hsession j).trans ((if_neg hji).trans hj)⟩
    · have hid := (hsession j).symm.trans hid
      refine Registry.isSome_create_iff.2 ?_
      split at hid
      · exact .inl (Option.some.inj hid).symm
      · exact .inr (h.known j id hid)
    · have hid := (hchecked j).symm.trans hid
      split at hid
      · cases hid
      · rcases Registry.isOpen_create_iff.1 hopen with rfl | hopen
        · -- nobody had this session before it was created
          have hknown := h.known j _ (session?_of_checked? hid)
          rw [Registry.handle?_new] at hknown
          cases hknown
        · exact h.owing w hw j id hid hopen

theorem prepare (h : s.Ordered) (i : Nat) (outcome : Except IoFailure Unit) :
    (s.prepare i outcome).Ordered := by
  unfold LiveServer.prepare
  split
  case h_2 => exact h
  case h_1 peer _ hconnection =>
    cases outcome with
    | ok => exact h.advance (stage?_eq hconnection) rfl fun _ hid => by cases hid
    | error cause =>
      have hadvance : (s.advance i .unprepared).Ordered :=
        h.advance (stage?_eq hconnection) rfl fun _ hid => by cases hid
      exact hadvance.congr rfl rfl rfl rfl

/-- On a server that is shut down a session that is checked is closed. On any other no sweep has
looked yet. -/
theorem check (h : s.Ordered) (i : Nat) : (s.check i).Ordered := by
  unfold LiveServer.check
  split
  case h_2 => exact h
  case h_1 _ _ id hconnection =>
    have hbefore : s.stage? i = some (.registered id) := stage?_eq hconnection
    split
    case isTrue hshut =>
      refine (h.close id).advance hbefore rfl fun other hother => .inr (.inl fun hopen => ?_)
      exact (Registry.isOpen_close_iff.1 hopen).2 (Option.some.inj hother).symm
    case isFalse hshut =>
      exact h.advance hbefore rfl fun _ _ => .inr (.inr (by simpa using hshut))

theorem serve (h : s.Ordered) (i : Nat) : (s.serve i).Ordered := by
  unfold LiveServer.serve
  split
  · rename_i hconnection
    exact h.advance (stage?_eq hconnection) rfl fun _ hid => .inl hid
  · exact h

theorem enter (h : s.Ordered) (i : Nat) (next : SessionState) : (s.enter i next).Ordered := by
  unfold LiveServer.enter
  split
  · rename_i id hconnection
    have hchange : ∀ handle : Handle, (handle.enter next).isClosed = handle.isClosed :=
      fun _ => rfl
    exact h.withRegistry (h.tidy.enter id next) (fun _ => (Registry.isOpen_update_iff hchange).1)
      fun _ => Registry.isSome_update
  · exact h

theorem finish (h : s.Ordered) (i : Nat) : (s.finish i).Ordered := by
  unfold LiveServer.finish
  split
  · rename_i id hconnection
    exact (h.close id).advance (stage?_eq hconnection) rfl fun _ hid => .inl hid
  · exact h

theorem retire (h : s.Ordered) : s.retire.Ordered := by
  unfold LiveServer.retire
  split
  · obtain ⟨htidy, hopen, hknown⟩ := Registry.closeEach_spec s.registry.live h.tidy
    exact (h.withRegistry htidy hopen hknown).congr rfl rfl rfl rfl
  · exact h

theorem accept (h : s.Ordered) (methods : List MethodId) : (s.accept methods).Ordered := by
  unfold LiveServer.accept
  split
  · exact h.congr rfl rfl rfl rfl
  · exact h

theorem bind (h : s.Ordered) (opened : Except IoFailure SocketAddr) :
    (s.bind opened).2.Ordered := by
  unfold LiveServer.bind
  split
  · exact h.congr rfl rfl rfl rfl
  · exact h
  · exact h

/-! ### Sweeping -/

/-- A sweep that begins owes everything. -/
theorem shutDown (h : s.Ordered) : Ordered { s with sweeps := s.sweeps ++ [.started] } := by
  have hcases : ∀ w ∈ s.sweeps ++ [.started], w ∈ s.sweeps ∨ w = .started := by simp
  refine ⟨h.tidy, h.owned, h.known, fun w hw hsignalled => ?_, fun w hw j id hid hopen => ?_⟩
  · rcases hcases w hw with hw | rfl
    · exact h.signalled w hw hsignalled
    · exact hsignalled.elim
  · rcases hcases w hw with hw | rfl
    · exact h.owing w hw j id hid hopen
    · trivial

/-- A sweep goes on, on a server that is shut down, and owes what is still open. -/
theorem putSweep {w : Sweep} (h : s.Ordered) (index : Nat) (hshut : s.isShutDown)
    (howes : ∀ j id, s.checked? j = some id → s.registry.IsOpen id → w.Owes id) :
    Ordered { s with sweeps := s.sweeps.set index w } := by
  refine ⟨h.tidy, h.owned, h.known, fun _ _ _ => hshut, fun w' hw' j id hid hopen => ?_⟩
  rcases List.mem_or_eq_of_mem_set hw' with hw' | rfl
  · exact h.owing w' hw' j id hid hopen
  · exact howes j id hid hopen

theorem look (h : s.Ordered) {index : Nat} {due seen : List Nat}
    (hindex : s.sweeps[index]? = some (.looking due seen)) (seen' : List Nat) :
    Ordered { s with sweeps := s.sweeps.set index (.looking due seen') } := by
  have hmem : Sweep.looking due seen ∈ s.sweeps := List.mem_of_getElem? hindex
  have howes := h.owing _ hmem
  exact h.putSweep index (h.signalled _ hmem trivial) howes

/-- What a sweep is due to see and still open is registered when it has looked. -/
theorem sweep (h : s.Ordered) {index : Nat} {w : Sweep} (hindex : s.sweeps[index]? = some w) :
    Ordered { (s.sweepStep w).1 with sweeps := s.sweeps.set index (s.sweepStep w).2 } := by
  have hmem : w ∈ s.sweeps := List.mem_of_getElem? hindex
  have hshut : w ≠ .started → s.isShutDown := by
    intro hw
    refine h.signalled w hmem ?_
    cases w with
    | started => exact absurd rfl hw
    | _ => trivial
  cases w with
  | started =>
    have hsignalled : Ordered { s with isShutDown := true } :=
      ⟨h.tidy, h.owned, h.known, fun _ _ _ => rfl, h.owing⟩
    exact hsignalled.putSweep index rfl fun _ _ _ _ => trivial
  | signalled =>
    exact h.putSweep index (hshut (by simp)) fun j id _ hopen => h.tidy.mem_live hopen
  | looking due seen =>
    refine h.putSweep index (hshut (by simp)) fun j id hid hopen => ?_
    have hdue : id ∈ due := h.owing _ hmem j id hid hopen
    by_cases hseen : id ∈ seen
    · exact List.mem_append_left _ hseen
    · refine List.mem_append_right _ (List.mem_filter.2 ⟨hdue, ?_⟩)
      simp [h.tidy.mem_live hopen, hseen]
  | closing left closed =>
    cases left with
    | nil =>
      refine h.putSweep index (hshut (by simp)) fun j id hid hopen => ?_
      exact absurd (h.owing _ hmem j id hid hopen) List.not_mem_nil
    | cons first rest =>
      refine (h.close first).putSweep index (hshut (by simp)) fun j id hid hopen => ?_
      obtain ⟨hopen, hne⟩ := Registry.isOpen_close_iff.1 hopen
      exact (List.mem_cons.1 (h.owing _ hmem j id hid hopen)).resolve_left hne
  | finished closed => exact h.putSweep index (hshut (by simp)) (h.owing _ hmem)

/-! ### Events -/

theorem step (h : s.Ordered) (e : Event) : (s.step e).Ordered := by
  cases e with
  | bind opened => exact h.bind opened
  | accept methods => exact h.accept methods
  | retire => exact h.retire
  | connect peer localAddr => exact h.connect peer localAddr
  | prepare i outcome => exact h.prepare i outcome
  | register i => exact h.register i
  | check i => exact h.check i
  | serve i => exact h.serve i
  | enter i next => exact h.enter i next
  | finish i => exact h.finish i
  | close id => exact h.close id
  | shutDown => exact h.shutDown
  | look index ids =>
    rw [LiveServer.step]
    split
    · rename_i hindex
      exact h.look hindex _
    · exact h
  | sweep index =>
    rw [LiveServer.step]
    split
    · exact h
    · rename_i hindex
      simpa only [sweeps_sweepStep] using h.sweep hindex

theorem run (h : s.Ordered) (events : List Event) : (s.run events).Ordered := by
  induction events generalizing s with
  | nil => exact h
  | cons e rest ih => exact ih (h.step e)

end Ordered

theorem ordered_new : Ordered {} where
  tidy := Registry.tidy_new
  owned id hopen := by
    have hknown := hopen.isSome
    cases id <;> simp [Registry.handle?] at hknown
  known j id hid := by simp [session?, stage?] at hid
  signalled w hw := by simp at hw
  owing w hw := by simp at hw

/-! ## No session survives -/

/-- What a finished sweep leaves behind. -/
structure IsSwept (s : LiveServer) : Prop where
  /-- Every session ever created has been closed, or waits for its check. -/
  closed : ∀ id, (s.registry.handle? id).isSome →
    s.registry.HasClosed id ∨ ∃ j, s.stage? j = some (.registered id)
  /-- The check closes a session, which is not served. -/
  turned : ∀ j id, s.stage? j = some (.registered id) →
    (s.check j).stage? j = some (.turnedAway id) ∧ (s.check j).registry.HasClosed id
  /-- What is being served, or will be, has been closed. -/
  checked : ∀ j id, s.checked? j = some id → s.registry.HasClosed id

theorem Ordered.isSwept {closed : Nat} (h : s.Ordered) (hsweep : .finished closed ∈ s.sweeps) :
    s.IsSwept := by
  have hshut : s.isShutDown := h.signalled _ hsweep trivial
  have hchecked : ∀ j id, s.checked? j = some id → ¬ s.registry.IsOpen id :=
    fun j id hid hopen => h.owing _ hsweep j id hid hopen
  refine ⟨fun id hknown => ?_, fun j id hid => ?_, fun j id hid => ?_⟩
  · by_cases hopen : s.registry.IsOpen id
    · obtain ⟨j, hj⟩ := h.owned id hopen
      refine .inr ⟨j, (stage?_of_session? hj).resolve_right fun hid => ?_⟩
      exact hchecked j id hid hopen
    · exact .inl (h.tidy.hasClosed hknown hopen)
  · obtain ⟨⟨peer, localAddr, stage⟩, hconnection, hstage⟩ := Option.map_eq_some_iff.1 hid
    cases hstage
    have hturned : s.check j =
        { s.advance j (.turnedAway id) with registry := (s.registry.close id).2 } := by
      rw [LiveServer.check, hconnection]
      exact if_pos hshut
    have hstage : (s.check j).stage? j = (s.advance j (.turnedAway id)).stage? j := by
      rw [hturned]
      rfl
    refine ⟨?_, (h.check j).tidy.hasClosed ?_ fun hopen => ?_⟩
    · rw [hstage, stage?_advance, if_pos rfl, hid]
      rfl
    · rw [hturned]
      refine Registry.isSome_close.trans (h.known j id ?_)
      rw [session?, hid]
      rfl
    · rw [hturned] at hopen
      exact (Registry.isOpen_close_iff.1 hopen).2 rfl
  · exact h.tidy.hasClosed (h.known j id (session?_of_checked? hid)) (hchecked j id hid)

theorem stage?_advance_cases (s : LiveServer) (i j : Nat) (stage : ConnectionStage) :
    (s.advance i stage).stage? j = s.stage? j ∨ (s.advance i stage).stage? j = some stage := by
  rw [stage?_advance]
  by_cases hj : j = i
  · subst hj
    cases hstage : s.stage? j with
    | none => exact .inl (by simp)
    | some before => exact .inr (by simp)
  · exact .inl (if_neg hj)

/-! ## Afterwards -/

/-- What lasts on a server that is shut down: no session passes the check, and a sweep that has
finished stays so. -/
structure Lasts (s s' : LiveServer) : Prop where
  cleared : ∀ j id, s'.stage? j = some (.cleared id) → s.stage? j = some (.cleared id)
  finished : ∀ (i closed : Nat), s.sweeps[i]? = some (Sweep.finished closed) →
    s'.sweeps[i]? = some (Sweep.finished closed)

namespace Lasts

variable {s' s'' : LiveServer}

theorem refl (s : LiveServer) : s.Lasts s := ⟨fun _ _ h => h, fun _ _ h => h⟩

theorem trans (h : s.Lasts s') (h' : s'.Lasts s'') : s.Lasts s'' :=
  ⟨fun j id hcleared => h.cleared j id (h'.cleared j id hcleared),
    fun i closed hfinished => h'.finished i closed (h.finished i closed hfinished)⟩

/-- Neither the connections nor the sweeps are concerned. -/
theorem of_eq (hconnections : s'.connections = s.connections) (hsweeps : s'.sweeps = s.sweeps) :
    s.Lasts s' := by
  refine ⟨fun j id h => ?_, fun i closed h => by rwa [hsweeps]⟩
  rwa [stage?, hconnections] at h

theorem advance (s : LiveServer) (i : Nat) {stage : ConnectionStage}
    (hstage : ∀ id, stage ≠ .cleared id) : s.Lasts (s.advance i stage) := by
  refine ⟨fun j id h => ?_, fun _ _ h => h⟩
  rcases s.stage?_advance_cases i j stage with hsame | hnew
  · exact hsame.symm.trans h
  · rw [hnew] at h
    exact absurd (Option.some.inj h) (hstage id)

theorem connect (s : LiveServer) (peer localAddr : SocketAddr) :
    s.Lasts (s.connect peer localAddr) := by
  unfold LiveServer.connect
  split
  · refine ⟨fun j id h => ?_, fun _ _ h => h⟩
    change stage? { s with connections := s.connections ++ [{ peer, localAddr }] } j = _ at h
    rw [stage?_concat] at h
    split at h
    · cases h
    · exact h
  · exact refl s

theorem prepare (s : LiveServer) (i : Nat) (outcome : Except IoFailure Unit) :
    s.Lasts (s.prepare i outcome) := by
  unfold LiveServer.prepare
  split
  · cases outcome with
    | ok => exact advance s i (by simp)
    | error cause => exact (advance s i (by simp)).trans (of_eq rfl rfl)
  · exact refl s

theorem register (s : LiveServer) (i : Nat) : s.Lasts (s.register i) := by
  unfold LiveServer.register
  split
  · exact (advance s i (by simp)).trans (of_eq rfl rfl)
  · exact refl s

theorem check (hshut : s.isShutDown) (i : Nat) : s.Lasts (s.check i) := by
  unfold LiveServer.check
  split
  · rw [if_pos hshut]
    exact (advance s i (by simp)).trans (of_eq rfl rfl)
  · exact refl s

theorem serve (s : LiveServer) (i : Nat) : s.Lasts (s.serve i) := by
  unfold LiveServer.serve
  split
  · exact advance s i (by simp)
  · exact refl s

theorem finish (s : LiveServer) (i : Nat) : s.Lasts (s.finish i) := by
  unfold LiveServer.finish
  split
  · exact (advance s i (by simp)).trans (of_eq rfl rfl)
  · exact refl s

/-- A sweep that goes on had not finished, or stays where it is. -/
theorem putSweep {w w' : Sweep} {index : Nat} (hindex : s.sweeps[index]? = some w)
    (hw : ∀ closed, w = .finished closed → w' = w) (hconnections : s'.connections = s.connections)
    (hsweeps : s'.sweeps = s.sweeps.set index w') : s.Lasts s' := by
  refine ⟨fun j id h => ?_, fun i closed h => ?_⟩
  · rwa [stage?, hconnections] at h
  · rw [hsweeps]
    by_cases hi : index = i
    · subst hi
      rw [hindex] at h
      have hsame := hw closed (Option.some.inj h)
      rw [List.getElem?_set_self (List.getElem?_eq_some_iff.1 hindex).1, hsame, h]
    · rwa [List.getElem?_set_ne hi]

theorem sweep {w : Sweep} {index : Nat} (hindex : s.sweeps[index]? = some w) :
    s.Lasts { (s.sweepStep w).1 with sweeps := s.sweeps.set index (s.sweepStep w).2 } := by
  refine putSweep hindex ?_ ?_ rfl
  · rintro closed rfl
    rfl
  · cases w with
    | closing left closed => cases left <;> rfl
    | _ => rfl

theorem step (hshut : s.isShutDown) (e : Event) : s.Lasts (s.step e) := by
  cases e with
  | bind opened =>
    rw [LiveServer.step]
    unfold LiveServer.bind
    split <;> exact of_eq rfl rfl
  | accept methods =>
    rw [LiveServer.step, accept]
    split <;> exact of_eq rfl rfl
  | retire =>
    rw [LiveServer.step, retire]
    split <;> exact of_eq rfl rfl
  | connect peer localAddr => exact connect s peer localAddr
  | prepare i outcome => exact prepare s i outcome
  | register i => exact register s i
  | check i => exact check hshut i
  | serve i => exact serve s i
  | enter i next =>
    rw [LiveServer.step, enter]
    split <;> exact of_eq rfl rfl
  | finish i => exact finish s i
  | close id => exact of_eq rfl rfl
  | shutDown =>
    refine ⟨fun _ _ h => h, fun i closed h => ?_⟩
    exact (List.getElem?_append_left (List.getElem?_eq_some_iff.1 h).1).trans h
  | look index ids =>
    rw [LiveServer.step]
    split
    · rename_i hindex
      exact putSweep hindex (fun _ h => by cases h) rfl rfl
    · exact refl s
  | sweep index =>
    rw [LiveServer.step]
    split
    · exact refl s
    · rename_i hindex
      simpa only [sweeps_sweepStep] using sweep hindex

theorem run {i closed : Nat} (h : s.Ordered) (hfinished : s.sweeps[i]? = some (.finished closed))
    (events : List Event) : s.Lasts (s.run events) := by
  induction events generalizing s with
  | nil => exact refl s
  | cons e rest ih =>
    have hshut : s.isShutDown := h.signalled _ (List.mem_of_getElem? hfinished) trivial
    have hstep : s.Lasts (s.step e) := step hshut e
    exact hstep.trans (ih (h.step e) (hstep.finished i closed hfinished))

end Lasts

/-- After a sweep has finished, whatever had happened before and happens afterwards, in whichever
order: every session ever created has been closed, or waits for the check that closes it; and no
session passes the check any more. -/
theorem no_session_survives {events : List Event} {i closed : Nat}
    (hsweep : (run {} events).sweeps[i]? = some (.finished closed)) (later : List Event) :
    (run {} (events ++ later)).IsSwept ∧
      ∀ j id, (run {} (events ++ later)).stage? j = some (.cleared id) →
        (run {} events).stage? j = some (.cleared id) := by
  have hbefore : (run {} events).Ordered := ordered_new.run events
  have hlasts := Lasts.run hbefore hsweep later
  have hfinished := hlasts.finished i closed hsweep
  have hsplit : run {} (events ++ later) = (run {} events).run later := List.foldl_append
  rw [hsplit]
  exact ⟨(hbefore.run later).isSwept (List.mem_of_getElem? hfinished), hlasts.cleared⟩

/-- A session is being served when the server is shut down, and another is registered only after
the sweep has looked. -/
def lateSession : List Event :=
  [.bind (.ok .unspecified), .accept [.noAuth], .connect .unspecified .unspecified,
    .prepare 0 (.ok ()), .register 0, .check 0, .serve 0, .connect .unspecified .unspecified,
    .shutDown, .sweep 0, .sweep 0, .look 0 [1], .prepare 1 (.ok ()), .sweep 0, .register 1,
    .sweep 0, .enter 0 .relaying, .sweep 0]

/-- The sweep closes the one session, and the check the other. -/
theorem no_lateSession_survives :
    (run {} lateSession).stage? 1 = some (.registered 2) ∧
      (run {} (lateSession ++ [.check 1])).stage? 1 = some (.turnedAway 2) ∧
      (run {} (lateSession ++ [.check 1])).IsSwept := by
  have hsweep : (run {} lateSession).sweeps[0]? = some (.finished 1) := by decide
  exact ⟨by decide, by decide, (no_session_survives hsweep [.check 1]).1⟩

end LiveServer

end Socks5

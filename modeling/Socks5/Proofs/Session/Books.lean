import Socks5.Session.Shared
import Mathlib.Data.List.Perm.Basic

/-!
# The books of a session

Whatever tasks create, close and move sessions at the same time, and however the steps of their
calls come between one another, what the calls have to do with one session adds up with what the
registry holds of it. The calls leave marks, and the invariant of a session counts them (`Sound`).
Main statement: every move keeps the books of every session (`isSound_after`).
-/

namespace Socks5

/-! ## Handles -/

namespace Registry

variable {r : Registry} {id : Nat}

/-- A number that was not given out has no handle. -/
theorem handle?_succ_length (r : Registry) : r.handle? (r.handles.length + 1) = none := by
  simp [handle?]

theorem handle?_number (r : Registry) (peer localAddr : SocketAddr) (id : Nat) :
    (r.number peer localAddr).2.handle? id =
      if id = r.handles.length + 1 then some { peer, localAddr } else r.handle? id :=
  r.handle?_create peer localAddr id

theorem le_length_of_isSome (h : (r.handle? id).isSome) : id ≤ r.handles.length := by
  unfold handle? at h
  split at h
  · cases h
  · obtain ⟨handle, hhandle⟩ := Option.isSome_iff_exists.1 h
    obtain ⟨hlt, _⟩ := List.getElem?_eq_some_iff.1 hhandle
    omega

/-- A step of an attempt to close a session changes its handle, though not back from the final
state, or removes the session, or does nothing. -/
theorem closeStep_cases (r : Registry) (id : Nat) (stage : Closing) :
    (r.closeStep id stage).1 = r ∨
      (∃ change : Handle → Handle, (∀ h, h.state = .closed → (change h).state = .closed) ∧
        (r.closeStep id stage).1 = r.update id change) ∨
      (r.closeStep id stage).1 = { r with live := r.live.erase id } := by
  cases stage with
  | started =>
    rw [closeStep]
    split
    · exact .inl rfl
    · split
      · exact .inl rfl
      · refine .inr (.inl ⟨_, ?_, rfl⟩)
        exact fun _ hstate => hstate
  | flagged => exact .inr (.inl ⟨_, fun _ _ => rfl, rfl⟩)
  | settled =>
    refine .inr (.inl ⟨_, ?_, rfl⟩)
    exact fun _ hstate => hstate
  | signalled => exact .inr (.inr rfl)
  | finished won => exact .inl rfl

/-- An attempt to close another session leaves a session alone. -/
theorem closeStep_of_ne {other : Nat} (h : id ≠ other) (stage : Closing) :
    (r.closeStep other stage).1.handle? id = r.handle? id ∧
      (r.closeStep other stage).1.live.count id = r.live.count id := by
  rcases r.closeStep_cases other stage with hr | ⟨change, _, hr⟩ | hr <;> rw [hr]
  · exact ⟨rfl, rfl⟩
  · rw [handle?_update, if_neg h, live_update]
    exact ⟨rfl, rfl⟩
  · exact ⟨rfl, List.count_erase_of_ne h⟩

end Registry

namespace SharedRegistry

open Registry (Closing)

/-! ## The marks of a session -/

/-- What a call has to do with a session: it has taken its id, has created it, has seen it in the
table, or attempts to close it. -/
inductive Mark where
  | numbered
  | created
  | seen
  | attempt (stage : Closing)
deriving DecidableEq

namespace Mark

/-- An attempt that has raised the flag and has not returned. -/
def isMidway : Mark → Bool
  | .attempt .flagged | .attempt .settled | .attempt .signalled => true
  | _ => false

/-- An attempt that has returned `true`. -/
def hasWon : Mark → Bool
  | .attempt (.finished true) => true
  | _ => false

/-- An attempt that has written the state. -/
def hasSettled : Mark → Bool
  | .attempt .settled | .attempt .signalled | .attempt (.finished true) => true
  | _ => false

/-- A call that has the handle of a session which it need not have created. -/
def isAware : Mark → Bool
  | .seen | .attempt _ => true
  | _ => false

end Mark

/-- What a call has to do with one session is a mark of that session and of no other. -/
def Mark.of (m : Mark) (other id : Nat) : List Mark := if other = id then [m] else []

@[simp] theorem Mark.of_self (m : Mark) (id : Nat) : m.of id id = [m] := if_pos rfl

theorem Mark.of_of_ne (m : Mark) {other id : Nat} (h : other ≠ id) : m.of other id = [] := if_neg h

theorem Mark.mem_of_iff {m m' : Mark} {other id : Nat} :
    m' ∈ m.of other id ↔ other = id ∧ m' = m := by
  by_cases h : other = id <;> simp [Mark.of, h]

/-- The marks of a call. -/
def Call.marks (id : Nat) : Call → List Mark
  | .create _ _ => []
  | .numbered other => Mark.numbered.of other id
  | .created other => Mark.created.of other id
  | .close a => (Mark.attempt a.stage).of a.id id
  | .look seen => seen.flatMap fun other => Mark.seen.of other id
  | .sweep attempts => attempts.flatMap fun a => (Mark.attempt a.stage).of a.id id

/-- The marks of all calls. -/
def marks (s : SharedRegistry) (id : Nat) : List Mark := s.calls.flatMap (Call.marks id)

/-! ## The books of one session -/

/-- What holds between the handle of a session, the number of its entries in the table, and the
marks of the calls. -/
structure Sound (handle : Option Handle) (entries : Nat) (marks : List Mark) : Prop where
  /-- One call has taken the id, if there is a handle. -/
  placed : marks.count .numbered + marks.count .created = if handle.isSome then 1 else 0
  /-- A session that was created is registered until an attempt to close it has won. -/
  listed : entries + marks.countP Mark.hasWon = marks.count .created
  /-- The flag is up if one attempt has raised it. -/
  owned : marks.countP Mark.isMidway + marks.countP Mark.hasWon =
    if handle.any (·.isClosed) then 1 else 0
  /-- Only a session that was created is known to others. -/
  known : ∀ m ∈ marks, m.isAware → .created ∈ marks
  /-- An attempt has lost only to another. -/
  lost : .attempt (.finished false) ∈ marks → handle.any (·.isClosed)
  /-- The state of a closed session is the final one. -/
  settled : ∀ m ∈ marks, m.hasSettled → handle.any (·.state = .closed)

namespace Sound

variable {handle : Option Handle} {entries : Nat} {marks marks' base : List Mark} {r : Registry}
  {id : Nat}

theorem perm (h : Sound handle entries marks) (hperm : marks'.Perm marks) :
    Sound handle entries marks' := by
  obtain ⟨placed, listed, owned, known, lost, settled⟩ := h
  constructor <;> simpa only [hperm.count_eq, hperm.countP_eq, hperm.mem_iff]

theorem exists_handle (h : Sound handle entries marks) (hcreated : .created ∈ marks) :
    ∃ found, handle = some found := by
  have hcount := List.count_pos_iff.2 hcreated
  have hplaced := h.placed
  cases handle with
  | none =>
    simp only [Option.isSome_none, Bool.false_eq_true, ↓reduceIte] at hplaced
    omega
  | some found => exact ⟨found, rfl⟩

/-- The flag is up while an attempt is midway. -/
theorem isClosed_of_midway {found : Handle} (h : Sound (some found) entries marks)
    (hmid : 0 < marks.countP Mark.isMidway) : found.isClosed := by
  by_contra hopen
  have howned := h.owned
  rw [Option.any_some, if_neg hopen] at howned
  omega

/-- A step of an attempt to close the session. -/
theorem closeStep {stage : Closing}
    (h : Sound (r.handle? id) (r.live.count id) (.attempt stage :: base)) :
    Sound ((r.closeStep id stage).1.handle? id) ((r.closeStep id stage).1.live.count id)
      (.attempt (r.closeStep id stage).2 :: base) := by
  have hcreated : Mark.created ∈ base := by
    simpa using h.known _ (List.mem_cons_self ..) rfl
  have hknown : ∀ stage, ∀ m ∈ Mark.attempt stage :: base, m.isAware →
      .created ∈ Mark.attempt stage :: base :=
    fun _ _ _ _ => List.mem_cons_of_mem _ hcreated
  obtain ⟨found, hfound⟩ := h.exists_handle (List.mem_cons_of_mem _ hcreated)
  have hchanged : ∀ change, (r.update id change).handle? id = some (change found) := by
    intro change
    rw [Registry.handle?_update, if_pos rfl, hfound]
    rfl
  rw [hfound] at h
  cases stage with
  | started =>
    have hsettled : ∀ m ∈ base, m.hasSettled → (some found).any (·.state = .closed) :=
      fun m hm => h.settled m (List.mem_cons_of_mem _ hm)
    by_cases hclosed : found.isClosed
    · simp only [Registry.closeStep, hfound, if_pos hclosed]
      exact ⟨h.placed, h.listed, h.owned, hknown _, fun _ => hclosed,
        List.forall_mem_cons.2 ⟨by rintro ⟨⟩, hsettled⟩⟩
    · simp only [Registry.closeStep, hfound, if_neg hclosed, hchanged, Registry.live_update]
      refine ⟨h.placed, h.listed, ?_, hknown _, fun _ => rfl,
        List.forall_mem_cons.2 ⟨by rintro ⟨⟩, hsettled⟩⟩
      have hnone : base.countP Mark.isMidway + base.countP Mark.hasWon = 0 := by
        have howned := h.owned
        rwa [Option.any_some, if_neg hclosed] at howned
      have hone : (Mark.attempt .flagged :: base).countP Mark.isMidway =
          base.countP Mark.isMidway + 1 := List.countP_cons_of_pos rfl
      show _ + base.countP Mark.hasWon = 1
      omega
  | flagged =>
    have hclosed := h.isClosed_of_midway (List.countP_pos_iff.2 ⟨_, List.mem_cons_self .., rfl⟩)
    simp only [Registry.closeStep, hchanged, Registry.live_update]
    exact ⟨h.placed, h.listed, h.owned, hknown _, fun _ => hclosed, fun _ _ _ => rfl⟩
  | settled =>
    have hclosed := h.isClosed_of_midway (List.countP_pos_iff.2 ⟨_, List.mem_cons_self .., rfl⟩)
    have hstate := h.settled _ (List.mem_cons_self ..) rfl
    simp only [Registry.closeStep, hchanged, Registry.live_update]
    exact ⟨h.placed, h.listed, h.owned, hknown _, fun _ => hclosed, fun _ _ _ => hstate⟩
  | signalled =>
    have hclosed := h.isClosed_of_midway (List.countP_pos_iff.2 ⟨_, List.mem_cons_self .., rfl⟩)
    have hstate := h.settled _ (List.mem_cons_self ..) rfl
    have hsame : Registry.handle? { r with live := r.live.erase id } id = some found := hfound
    have howned := h.owned
    have hlisted : r.live.count id + base.countP Mark.hasWon = base.count .created := h.listed
    have hpos := List.count_pos_iff.2 hcreated
    rw [Option.any_some, if_pos hclosed, List.countP_cons_of_pos rfl,
      List.countP_cons_of_neg (by decide)] at howned
    have hwon : (Mark.attempt (.finished true) :: base).countP Mark.hasWon =
        base.countP Mark.hasWon + 1 := List.countP_cons_of_pos rfl
    simp only [Registry.closeStep, hsame]
    refine ⟨h.placed, ?_, ?_, hknown _, fun _ => hclosed, fun _ _ _ => hstate⟩
    · -- no other attempt has won, so the session is still in the table
      rw [List.count_erase_self, hwon]
      show _ = base.count .created
      omega
    · rw [Option.any_some, if_pos hclosed, hwon]
      show base.countP Mark.isMidway + _ = 1
      omega
  | finished won =>
    rw [← hfound] at h
    exact h

/-- A session gets its id and its handle. -/
theorem number {found : Handle} (h : Sound none entries marks) (hopen : ¬ found.isClosed) :
    Sound (some found) entries (.numbered :: marks) where
  placed := by
    have hplaced : marks.count .numbered + marks.count .created = 0 := h.placed
    rw [List.count_cons_self, List.count_cons_of_ne (by decide)]
    show _ = 1
    omega
  listed := h.listed
  owned := by
    rw [Option.any_some, if_neg hopen]
    exact h.owned
  known := by
    intro m hm haware
    rcases List.mem_cons.1 hm with rfl | hm
    · cases haware
    · exact List.mem_cons_of_mem _ (h.known m hm haware)
  lost hlost := by
    cases h.lost ((List.mem_cons.1 hlost).resolve_left nofun)
  settled := by
    intro m hm hsettled
    rcases List.mem_cons.1 hm with rfl | hm
    · cases hsettled
    · cases h.settled m hm hsettled

/-- A session is registered. -/
theorem enlist (h : Sound handle entries (.numbered :: base)) :
    Sound handle (entries + 1) (.created :: base) where
  placed := by
    have hplaced := h.placed
    rw [List.count_cons_self, List.count_cons_of_ne (by decide)] at hplaced
    rw [List.count_cons_self, List.count_cons_of_ne (by decide)]
    omega
  listed := by
    have hlisted : entries + base.countP Mark.hasWon = base.count .created := h.listed
    rw [List.count_cons_self]
    show entries + 1 + base.countP Mark.hasWon = _
    omega
  owned := h.owned
  known _ _ _ := List.mem_cons_self ..
  lost hlost := h.lost (List.mem_cons_of_mem _ ((List.mem_cons.1 hlost).resolve_left nofun))
  settled := by
    intro m hm hsettled
    rcases List.mem_cons.1 hm with rfl | hm
    · cases hsettled
    · exact h.settled m (List.mem_cons_of_mem _ hm) hsettled

/-- A call comes to know a session that was created, or begins to close it. -/
theorem know {m : Mark} (h : Sound handle entries marks) (hm : m = .seen ∨ m = .attempt .started)
    (hcreated : .created ∈ marks) : Sound handle entries (m :: marks) := by
  have hknown : ∀ other ∈ m :: marks, other.isAware → .created ∈ m :: marks :=
    fun _ _ _ => List.mem_cons_of_mem _ hcreated
  rcases hm with rfl | rfl
  · exact ⟨h.placed, h.listed, h.owned, hknown,
      fun hlost => h.lost ((List.mem_cons.1 hlost).resolve_left nofun),
      List.forall_mem_cons.2 ⟨nofun, h.settled⟩⟩
  · exact ⟨h.placed, h.listed, h.owned, hknown,
      fun hlost => h.lost ((List.mem_cons.1 hlost).resolve_left nofun),
      List.forall_mem_cons.2 ⟨nofun, h.settled⟩⟩

/-- A sweep begins to close what it has seen. -/
theorem begin (h : Sound handle entries (.seen :: base)) :
    Sound handle entries (.attempt .started :: base) where
  placed := h.placed
  listed := h.listed
  owned := h.owned
  known _ _ _ := by
    have hcreated := h.known _ (List.mem_cons_self ..) rfl
    exact List.mem_cons_of_mem _ ((List.mem_cons.1 hcreated).resolve_left nofun)
  lost hlost := h.lost (List.mem_cons_of_mem _ ((List.mem_cons.1 hlost).resolve_left nofun))
  settled := List.forall_mem_cons.2
    ⟨nofun, fun m hm => h.settled m (List.mem_cons_of_mem _ hm)⟩

/-- A session moves on, unless it is closed. -/
theorem enter (h : Sound handle entries marks) (next : SessionState) :
    Sound (handle.map (·.enter next)) entries marks := by
  cases handle with
  | none => exact h
  | some found =>
    refine ⟨h.placed, h.listed, h.owned, h.known, h.lost, ?_⟩
    intro m hm hsettled
    have hstate : found.state = .closed := of_decide_eq_true (h.settled m hm hsettled)
    simp [Handle.enter, hstate]

end Sound

/-! ## The books of every session -/

/-- The books of every session are kept. -/
def IsSound (s : SharedRegistry) : Prop :=
  ∀ id, Sound (s.registry.handle? id) (s.registry.live.count id) (s.marks id)

variable {s : SharedRegistry} {r : Registry} {id : Nat} {base : List Mark}

theorem Attempt.sound_step {a : Attempt}
    (h : Sound (r.handle? id) (r.live.count id) ((Mark.attempt a.stage).of a.id id ++ base)) :
    Sound ((a.step r).1.handle? id) ((a.step r).1.live.count id)
      ((Mark.attempt (a.step r).2.stage).of a.id id ++ base) := by
  by_cases hid : a.id = id
  · subst hid
    rw [Mark.of_self] at h ⊢
    exact h.closeStep
  · obtain ⟨hhandle, hlive⟩ := Registry.closeStep_of_ne (r := r) (Ne.symm hid) a.stage
    rw [Mark.of_of_ne _ hid] at h ⊢
    simp only [step, hhandle, hlive]
    exact h

/-- A sweep whose attempts are all over does nothing more; any other takes a step of one of
them. -/
theorem sweepStep_cases (r : Registry) (attempts : List Attempt) :
    attempts.all Attempt.isOver ∧ sweepStep r attempts = (r, attempts) ∨
      ∃ front a rest, attempts = front ++ a :: rest ∧ ¬ a.isOver ∧
        sweepStep r attempts = ((a.step r).1, front ++ (a.step r).2 :: rest) := by
  induction attempts with
  | nil => exact .inl ⟨rfl, rfl⟩
  | cons a attempts ih =>
    by_cases hover : a.isOver
    · rw [sweepStep_cons_of_isOver hover]
      rcases ih with ⟨hall, hstep⟩ | ⟨front, next, rest, rfl, hnext, hstep⟩
      · refine .inl ⟨?_, by rw [hstep]⟩
        rw [List.all_cons, hover, hall]
        rfl
      · exact .inr ⟨a :: front, next, rest, rfl, hnext, by rw [hstep]; rfl⟩
    · refine .inr ⟨[], a, attempts, rfl, hover, ?_⟩
      rw [sweepStep, if_neg hover]
      rfl

theorem sound_sweepStep {attempts : List Attempt}
    (h : Sound (r.handle? id) (r.live.count id) ((Call.sweep attempts).marks id ++ base)) :
    Sound ((sweepStep r attempts).1.handle? id) ((sweepStep r attempts).1.live.count id)
      ((Call.sweep (sweepStep r attempts).2).marks id ++ base) := by
  -- the attempt that takes the step, in front of all other marks
  have hfront : ∀ (front rest : List Attempt) (a : Attempt),
      ((Call.sweep (front ++ a :: rest)).marks id ++ base).Perm
        ((Mark.attempt a.stage).of a.id id ++
          ((Call.sweep front).marks id ++ ((Call.sweep rest).marks id ++ base))) := by
    intro front rest a
    simp only [Call.marks, List.flatMap_append, List.flatMap_cons, List.append_assoc]
    exact List.perm_append_comm_assoc ..
  rcases sweepStep_cases r attempts with ⟨_, hstep⟩ | ⟨front, a, rest, rfl, _, hstep⟩ <;> rw [hstep]
  · exact h
  · exact (Attempt.sound_step (h.perm (hfront ..).symm)).perm (hfront ..)

/-- What a sweep has seen it begins to close. -/
theorem sound_sweep {handle : Option Handle} {entries : Nat} {seen : List Nat}
    (h : Sound handle entries ((Call.look seen).marks id ++ base)) :
    Sound handle entries ((Call.sweep (seen.map Attempt.on)).marks id ++ base) := by
  induction seen generalizing base with
  | nil => exact h
  | cons other seen ih =>
    rw [Call.marks, List.flatMap_cons, List.append_assoc] at h
    rw [List.map_cons, Call.marks, List.flatMap_cons, List.append_assoc]
    have hrest := (ih (h.perm (List.perm_append_comm_assoc ..))).perm
      (List.perm_append_comm_assoc ..)
    by_cases hid : other = id
    · subst hid
      rw [Mark.of_self] at hrest
      rw [Attempt.on, Mark.of_self]
      exact hrest.begin
    · rw [Mark.of_of_ne _ hid] at hrest
      rw [Attempt.on, Mark.of_of_ne _ hid]
      exact hrest

/-- A step of a call keeps the books of a session. -/
theorem Call.sound_step {c : Call}
    (h : Sound (r.handle? id) (r.live.count id) (c.marks id ++ base)) :
    Sound ((c.step r).1.handle? id) ((c.step r).1.live.count id)
      ((c.step r).2.marks id ++ base) := by
  cases c with
  | create peer localAddr =>
    simp only [step, marks, List.nil_append] at h ⊢
    rw [Registry.handle?_number, Registry.number]
    by_cases hid : id = r.handles.length + 1
    · subst hid
      rw [Registry.handle?_succ_length] at h
      rw [if_pos rfl, Mark.of_self]
      exact h.number (by rintro ⟨⟩)
    · rw [if_neg hid, Mark.of_of_ne _ (Ne.symm hid)]
      exact h
  | numbered other =>
    simp only [step, marks, Registry.enlist, List.count_append] at h ⊢
    by_cases hid : other = id
    · subst hid
      rw [Mark.of_self] at h ⊢
      rw [List.count_singleton_self]
      exact h.enlist
    · rw [Mark.of_of_ne _ hid] at h ⊢
      rw [List.count_singleton, if_neg (by simpa using hid)]
      exact h
  | created other => exact h
  | close a => exact Attempt.sound_step h
  | look seen => exact sound_sweep h
  | sweep attempts => exact sound_sweepStep h

/-- A look at the table finds sessions that were created. -/
theorem sound_look {handle : Option Handle} {entries : Nat} {marks : List Mark} {found : List Nat}
    (h : Sound handle entries marks) (hfound : id ∈ found → .created ∈ marks) :
    Sound handle entries ((Call.look found).marks id ++ marks) := by
  induction found with
  | nil => exact h
  | cons other found ih =>
    have hrest := ih fun hmem => hfound (List.mem_cons_of_mem _ hmem)
    rw [Call.marks, List.flatMap_cons, List.append_assoc]
    by_cases hid : other = id
    · subst hid
      rw [Mark.of_self]
      exact hrest.know (.inl rfl) (List.mem_append_right _ (hfound (List.mem_cons_self ..)))
    · rw [Mark.of_of_ne _ hid]
      exact hrest

/-! ## Every move -/

/-- What a move comes to. -/
inductive Moved (s : SharedRegistry) : Move → SharedRegistry → Prop where
  | creating {peer localAddr : SocketAddr} :
      Moved s (.create peer localAddr) (s.begin (.create peer localAddr))
  | closing {id : Nat} (hcreated : id ∈ s.created) : Moved s (.close id) (s.begin (.close (.on id)))
  | sweeping : Moved s .closeAll (s.begin (.look []))
  | entered {id : Nat} {next : SessionState} : Moved s (.enter id next)
      { s with registry := s.registry.update id fun h => h.enter next }
  | looked {i : Nat} {ids seen : List Nat} (hcall : s.calls[i]? = some (.look seen)) :
      Moved s (.look i ids) (s.put i (.look (seen ++ ids.filter fun id => id ∈ s.registry.live)))
  | stepped {i : Nat} {c : Call} (hcall : s.calls[i]? = some c) :
      Moved s (.step i) { s.put i (c.step s.registry).2 with registry := (c.step s.registry).1 }
  | idle {m : Move} (hidle : ∀ i c, m = .step i → s.calls[i]? ≠ some c) : Moved s m s

theorem moved_move (s : SharedRegistry) (m : Move) : Moved s m (s.move m) := by
  cases m with
  | create peer localAddr => exact .creating
  | close id =>
    rw [move]
    split
    next hcreated => exact .closing hcreated
    · exact .idle nofun
  | closeAll => exact .sweeping
  | enter id next =>
    rw [move]
    split
    · exact .entered
    · exact .idle nofun
  | look i ids =>
    rw [move]
    split
    next seen hcall => exact .looked hcall
    · exact .idle nofun
  | step i =>
    rw [move]
    split
    next c hcall => exact .stepped hcall
    next hnone =>
      refine .idle fun j c hj hcall => ?_
      cases hj
      rw [hnone] at hcall
      cases hcall

/-- A call among the others. -/
theorem exists_base {i : Nat} {c : Call} (h : s.calls[i]? = some c) (id : Nat) :
    ∃ base, (s.marks id).Perm (c.marks id ++ base) ∧
      ∀ c', ((s.put i c').marks id).Perm (c'.marks id ++ base) := by
  obtain ⟨hlt, rfl⟩ := List.getElem?_eq_some_iff.1 h
  have hperm : ∀ c', ((s.put i c').marks id).Perm (c'.marks id ++
      ((s.calls.take i).flatMap (Call.marks id) ++
        (s.calls.drop (i + 1)).flatMap (Call.marks id))) := by
    intro c'
    rw [marks, put, List.set_eq_take_append_cons_drop, if_pos hlt, List.flatMap_append,
      List.flatMap_cons]
    exact List.perm_append_comm_assoc ..
  refine ⟨_, ?_, hperm⟩
  have hself := hperm s.calls[i]
  rwa [put, List.set_getElem_self] at hself

theorem created_mem_marks_iff : .created ∈ s.marks id ↔ id ∈ s.created := by
  simp only [marks, created, List.mem_flatMap, List.mem_filterMap]
  refine exists_congr fun c => and_congr_right fun _ => ?_
  cases c <;> simp [Call.marks, Call.created?, Mark.mem_of_iff]

theorem marks_begin (c : Call) : (s.begin c).marks id = s.marks id ++ c.marks id := by
  simp [marks, SharedRegistry.begin]

/-- Every move keeps the books. -/
theorem IsSound.move (h : s.IsSound) (m : Move) : (s.move m).IsSound := by
  intro id
  have hmoved := s.moved_move m
  generalize s.move m = s' at hmoved
  cases hmoved with
  | creating =>
    show Sound _ _ ((s.begin _).marks id)
    rw [marks_begin, Call.marks, List.append_nil]
    exact h id
  | @closing other hcreated =>
    show Sound _ _ ((s.begin _).marks id)
    rw [marks_begin]
    by_cases hid : other = id
    · subst hid
      rw [Call.marks, Attempt.on, Mark.of_self]
      exact ((h other).know (.inr rfl) (created_mem_marks_iff.2 hcreated)).perm
        List.perm_append_comm
    · rw [Call.marks, Attempt.on, Mark.of_of_ne _ hid, List.append_nil]
      exact h id
  | sweeping =>
    show Sound _ _ ((s.begin _).marks id)
    rw [marks_begin]
    exact (h id).perm (by simp [Call.marks])
  | @entered other next =>
    show Sound ((s.registry.update _ _).handle? id) ((s.registry.update _ _).live.count id) _
    rw [Registry.handle?_update, Registry.live_update]
    by_cases hid : id = other
    · subst hid
      rw [if_pos rfl]
      exact (h id).enter next
    · rw [if_neg hid]
      exact h id
  | @looked i ids seen hcall =>
    obtain ⟨base, hbefore, hafter⟩ := exists_base hcall id
    have hsound := (h id).perm hbefore.symm
    have hfound : id ∈ ids.filter (fun id => id ∈ s.registry.live) →
        .created ∈ (Call.look seen).marks id ++ base := by
      intro hmem
      have hlive := List.count_pos_iff.2 (of_decide_eq_true (List.mem_filter.1 hmem).2)
      have hlisted := hsound.listed
      exact List.count_pos_iff.1 (by omega)
    refine (sound_look hsound hfound).perm ((hafter _).trans ?_)
    rw [Call.marks, List.flatMap_append, List.append_assoc]
    exact List.perm_append_comm_assoc ..
  | @stepped i c hcall =>
    obtain ⟨base, hbefore, hafter⟩ := exists_base hcall id
    have hsound := (h id).perm hbefore.symm
    exact (Call.sound_step hsound).perm (hafter _)
  | idle => exact h id

theorem isSound_new : IsSound {} := by
  intro id
  have hnone : ({} : Registry).handle? id = none := by
    unfold Registry.handle?
    split <;> rfl
  show Sound (({} : Registry).handle? id) 0 []
  rw [hnone]
  exact ⟨rfl, rfl, rfl, nofun, nofun, nofun⟩

theorem after_cons (s : SharedRegistry) (m : Move) (moves : List Move) :
    s.after (m :: moves) = (s.move m).after moves := rfl

theorem isSound_after (moves : List Move) (h : s.IsSound) : (s.after moves).IsSound := by
  induction moves generalizing s with
  | nil => exact h
  | cons m moves ih => exact ih (h.move m)

end SharedRegistry

end Socks5

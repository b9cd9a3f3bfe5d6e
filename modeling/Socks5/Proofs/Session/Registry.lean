import Socks5.Session.Registry
import Mathlib.Data.List.Nodup

/-!
# Open and closed sessions

Between two steps a registry is tidy: the sessions that are registered are those that are open, and
every other session has been closed for good. To create a session, to move one on and to close one
keeps it so, and what each of them makes of the open sessions is an equivalence
(`isOpen_create_iff`, `isOpen_update_iff`, `isOpen_close_iff`).
-/

namespace Socks5

namespace Registry

variable {r : Registry} {id other : Nat}

/-- A session was created and has not been closed. -/
def IsOpen (r : Registry) (id : Nat) : Prop := ∃ h, r.handle? id = some h ∧ h.isClosed = false

/-- A session has been closed: it is in its final state for good, what waits for its end has been
woken, and it is not registered any more. -/
structure HasClosed (r : Registry) (id : Nat) : Prop where
  handle : ∃ h, r.handle? id = some h ∧ h.isClosed ∧ h.state = .closed ∧ h.isSignalled
  removed : id ∉ r.live

/-- The registry between two steps: the sessions that are registered are those that are open, and
all others have been closed. -/
structure Tidy (r : Registry) : Prop where
  settled : ∀ id, (r.handle? id).isSome → r.IsOpen id ∧ id ∈ r.live ∨ r.HasClosed id
  known : ∀ id ∈ r.live, (r.handle? id).isSome
  nodup : r.live.Nodup

theorem IsOpen.isSome (h : r.IsOpen id) : (r.handle? id).isSome := by
  obtain ⟨handle, hhandle, -⟩ := h
  rw [hhandle]
  rfl

theorem HasClosed.not_isOpen (h : r.HasClosed id) : ¬ r.IsOpen id := by
  rintro ⟨handle, hhandle, hopen⟩
  obtain ⟨other, hother, hclosed, -, -⟩ := h.handle
  rw [hhandle] at hother
  cases hother
  rw [hopen] at hclosed
  cases hclosed

theorem Tidy.mem_live (h : r.Tidy) (hopen : r.IsOpen id) : id ∈ r.live := by
  rcases h.settled id hopen.isSome with ⟨-, hlive⟩ | hclosed
  · exact hlive
  · exact absurd hopen hclosed.not_isOpen

theorem Tidy.hasClosed (h : r.Tidy) (hknown : (r.handle? id).isSome) (hopen : ¬ r.IsOpen id) :
    r.HasClosed id := by
  rcases h.settled id hknown with ⟨hopen', -⟩ | hclosed
  · exact absurd hopen' hopen
  · exact hclosed

theorem tidy_new : Tidy {} where
  settled id hknown := by
    cases id <;> simp [handle?] at hknown
  known id hmem := by cases hmem
  nodup := List.nodup_nil

/-! ### Creating a session -/

theorem handle?_new (r : Registry) (peer localAddr : SocketAddr) :
    r.handle? (r.create peer localAddr).1 = none := by
  simp [handle?, create]

theorem isOpen_create_iff {peer localAddr : SocketAddr} :
    (r.create peer localAddr).2.IsOpen id ↔ id = (r.create peer localAddr).1 ∨ r.IsOpen id := by
  simp only [IsOpen, handle?_create]
  by_cases hid : id = (r.create peer localAddr).1
  · simp [hid]
  · simp [hid]

theorem isSome_create_iff {peer localAddr : SocketAddr} :
    ((r.create peer localAddr).2.handle? id).isSome ↔
      id = (r.create peer localAddr).1 ∨ (r.handle? id).isSome := by
  rw [handle?_create]
  by_cases hid : id = (r.create peer localAddr).1 <;> simp [hid]

theorem Tidy.create (h : r.Tidy) (peer localAddr : SocketAddr) :
    (r.create peer localAddr).2.Tidy := by
  have hlive : (r.create peer localAddr).2.live = r.live ++ [(r.create peer localAddr).1] := rfl
  have hfresh : (r.create peer localAddr).1 ∉ r.live := by
    intro hmem
    have hknown := h.known _ hmem
    rw [handle?_new] at hknown
    cases hknown
  refine ⟨fun id hknown => ?_, fun id hmem => ?_, ?_⟩
  · by_cases hid : id = (r.create peer localAddr).1
    · refine .inl ⟨isOpen_create_iff.2 (.inl hid), ?_⟩
      rw [hlive, hid]
      exact List.mem_append_right _ (List.mem_singleton_self _)
    · have hold := (isSome_create_iff.1 hknown).resolve_left hid
      rcases h.settled id hold with ⟨hopen, hmem⟩ | ⟨hhandle, hremoved⟩
      · refine .inl ⟨isOpen_create_iff.2 (.inr hopen), ?_⟩
        rw [hlive]
        exact List.mem_append_left _ hmem
      · refine .inr ⟨?_, ?_⟩
        · rwa [handle?_create, if_neg hid]
        · simp [hlive, hremoved, hid]
  · rw [hlive, List.mem_append, List.mem_singleton] at hmem
    exact isSome_create_iff.2 (hmem.symm.imp_right (h.known id))
  · rw [hlive]
    exact List.nodup_append_comm.1 (List.nodup_cons.2 ⟨hfresh, h.nodup⟩)

/-! ### Moving a session on -/

theorem isSome_update {change : Handle → Handle} :
    ((r.update other change).handle? id).isSome = (r.handle? id).isSome := by
  rw [handle?_update]
  by_cases hid : id = other
  · subst hid
    rw [if_pos rfl, Option.isSome_map]
  · rw [if_neg hid]

theorem isOpen_update_iff {change : Handle → Handle}
    (hchange : ∀ h, (change h).isClosed = h.isClosed) :
    (r.update other change).IsOpen id ↔ r.IsOpen id := by
  unfold IsOpen
  rw [handle?_update]
  by_cases hid : id = other
  · subst hid
    simp [hchange]
  · rw [if_neg hid]

/-- A change that leaves a closed session closed keeps the registry tidy. -/
theorem Tidy.update (h : r.Tidy) (id : Nat) {change : Handle → Handle}
    (hflag : ∀ handle, (change handle).isClosed = handle.isClosed)
    (hstate : ∀ handle, handle.state = .closed → (change handle).state = .closed)
    (hsignal : ∀ handle, (change handle).isSignalled = handle.isSignalled) :
    (r.update id change).Tidy := by
  refine ⟨fun other hknown => ?_, fun other hmem => ?_, ?_⟩
  · rw [isSome_update] at hknown
    rcases h.settled other hknown with ⟨hopen, hmem⟩ | ⟨⟨handle, hhandle, hclosed⟩, hremoved⟩
    · exact .inl ⟨(isOpen_update_iff hflag).2 hopen, by rwa [live_update]⟩
    · refine .inr ⟨?_, by rwa [live_update]⟩
      rw [handle?_update]
      by_cases hid : other = id
      · subst hid
        rw [if_pos rfl, hhandle]
        obtain ⟨hup, hfinal, hwoken⟩ := hclosed
        exact ⟨_, rfl, (hflag handle).trans hup, hstate handle hfinal,
          (hsignal handle).trans hwoken⟩
      · rw [if_neg hid]
        exact ⟨handle, hhandle, hclosed⟩
  · rw [isSome_update]
    rw [live_update] at hmem
    exact h.known other hmem
  · rw [live_update]
    exact h.nodup

theorem Tidy.enter (h : r.Tidy) (id : Nat) (next : SessionState) :
    (r.update id fun h => h.enter next).Tidy := by
  refine h.update id (fun _ => rfl) (fun handle hclosed => ?_) fun _ => rfl
  rw [Handle.enter, hclosed]
  rfl

theorem Tidy.setAttribute (h : r.Tidy) (id : Nat) (key value : String) :
    (r.update id fun h => h.setAttribute key value).Tidy :=
  h.update id (fun _ => rfl) (fun _ hclosed => hclosed) fun _ => rfl

/-! ### Closing a session -/

/-- To close a session that is not open changes nothing. -/
theorem close_of_not_isOpen (h : ¬ r.IsOpen id) : (r.close id).2 = r := by
  rw [close_eq]
  cases hhandle : r.handle? id with
  | none => rfl
  | some handle =>
    have hclosed : handle.isClosed := by
      by_contra hopen
      exact h ⟨handle, hhandle, by simpa using hopen⟩
    simp [hclosed]

theorem close_of_isOpen (h : r.IsOpen id) :
    (r.close id).2 = { r.update id Handle.closed with live := r.live.erase id } := by
  obtain ⟨handle, hhandle, hopen⟩ := h
  simp [close_eq, hhandle, hopen]

theorem handle?_close_of_isOpen (h : r.IsOpen id) (other : Nat) :
    (r.close id).2.handle? other =
      if other = id then (r.handle? id).map Handle.closed else r.handle? other := by
  rw [close_of_isOpen h]
  exact handle?_update r id other Handle.closed

theorem isSome_close : ((r.close other).2.handle? id).isSome = (r.handle? id).isSome := by
  by_cases hopen : r.IsOpen other
  · rw [close_of_isOpen hopen]
    exact isSome_update
  · rw [close_of_not_isOpen hopen]

theorem isOpen_close_iff : (r.close other).2.IsOpen id ↔ r.IsOpen id ∧ id ≠ other := by
  by_cases hopen : r.IsOpen other
  · unfold IsOpen
    rw [handle?_close_of_isOpen hopen]
    by_cases hid : id = other
    · simp [hid, Handle.closed]
    · simp [hid]
  · rw [close_of_not_isOpen hopen]
    refine ⟨fun h => ⟨h, ?_⟩, And.left⟩
    rintro rfl
    exact hopen h

theorem Tidy.close (h : r.Tidy) (id : Nat) : (r.close id).2.Tidy := by
  by_cases hopen : r.IsOpen id
  · have hlive : (r.close id).2.live = r.live.erase id := by rw [close_of_isOpen hopen]
    refine ⟨fun other hknown => ?_, fun other hmem => ?_, ?_⟩
    · by_cases hid : other = id
      · subst hid
        refine .inr ⟨?_, by rw [hlive]; exact h.nodup.not_mem_erase⟩
        obtain ⟨handle, hhandle⟩ := Option.isSome_iff_exists.1 hopen.isSome
        rw [handle?_close_of_isOpen hopen, if_pos rfl, hhandle]
        exact ⟨_, rfl, rfl, rfl, rfl⟩
      · have hsame : (r.close id).2.handle? other = r.handle? other := by
          rw [handle?_close_of_isOpen hopen, if_neg hid]
        rw [hsame] at hknown
        rcases h.settled other hknown with ⟨hother, hmem⟩ | ⟨hclosed, hremoved⟩
        · refine .inl ⟨isOpen_close_iff.2 ⟨hother, hid⟩, ?_⟩
          rw [hlive]
          exact (List.mem_erase_of_ne hid).2 hmem
        · refine .inr ⟨by rwa [hsame], fun hmem => hremoved ?_⟩
          rw [hlive] at hmem
          exact List.mem_of_mem_erase hmem
    · rw [hlive] at hmem
      exact isSome_close.trans (h.known other (List.mem_of_mem_erase hmem))
    · rw [hlive]
      exact h.nodup.erase id
  · rwa [close_of_not_isOpen hopen]

/-- What closing sessions does to the others: it opens none, forgets none, and leaves no more open
than it should. -/
theorem closeEach_spec (ids : List Nat) (h : r.Tidy) :
    (closeEach ids r).2.Tidy ∧
      (∀ id, (closeEach ids r).2.IsOpen id → r.IsOpen id) ∧
      ∀ id, ((closeEach ids r).2.handle? id).isSome = (r.handle? id).isSome := by
  induction ids generalizing r with
  | nil => exact ⟨h, fun _ hopen => hopen, fun _ => rfl⟩
  | cons first rest ih =>
    obtain ⟨htidy, hopen, hknown⟩ := ih (h.close first)
    exact ⟨htidy, fun id hid => (isOpen_close_iff.1 (hopen id hid)).1,
      fun id => (hknown id).trans isSome_close⟩

end Registry

end Socks5

import Socks5.Ip.Basic
import Socks5.Session.State

/-!
# The sessions of a server

A session's handle says who is at its ends, where it stands and whether it has been closed. The
registry numbers the sessions in the order in which they are created, keeps the handle of each for
whoever holds on to it, and lists those that are alive. Closing a session takes four steps, which
other work may come between; `Registry.close` takes them in a row. Numbers do not run out.
-/

namespace Socks5

/-- What is known of a session outside of its own work. -/
structure Handle where
  peer : SocketAddr
  localAddr : SocketAddr
  state : SessionState := .negotiating
  isClosed : Bool := false
  isSignalled : Bool := false
  attributes : List (String × String) := []
deriving DecidableEq

namespace Handle

/-- The attribute of a session under which the name of its user is kept. -/
def userKey : String := "user"

/-- Moves a session on; nothing moves a closed one. -/
def enter (h : Handle) (next : SessionState) : Handle := { h with state := h.state.moved next }

/-- A session that has been closed. -/
def closed (h : Handle) : Handle :=
  { h with isClosed := true, state := .closed, isSignalled := true }

/-- An attribute of a session. -/
def attribute? (h : Handle) (key : String) : Option String := h.attributes.lookup key

/-- A session without an attribute. -/
def removeAttribute (h : Handle) (key : String) : Handle :=
  { h with attributes := h.attributes.filter (·.1 ≠ key) }

/-- A session with an attribute. -/
def setAttribute (h : Handle) (key value : String) : Handle :=
  { h with attributes := (key, value) :: (h.removeAttribute key).attributes }

theorem lookup_filter_ne {key other : String} (h : other ≠ key)
    (entries : List (String × String)) :
    (entries.filter (·.1 ≠ key)).lookup other = entries.lookup other := by
  induction entries with
  | nil => rfl
  | cons entry rest ih =>
    obtain ⟨k, v⟩ := entry
    by_cases hk : k = key
    · have hne : (other == k) = false := by simpa [hk] using h
      rw [List.filter_cons_of_neg (by simp [hk]), ih, List.lookup_cons, hne]
    · rw [List.filter_cons_of_pos (by simp [hk]), List.lookup_cons, List.lookup_cons, ih]

/-- An attribute that is set has its new value, and no other attribute changes. -/
theorem attribute?_setAttribute (h : Handle) (key value other : String) :
    (h.setAttribute key value).attribute? other =
      if other = key then some value else h.attribute? other := by
  by_cases he : other = key
  · simp [attribute?, setAttribute, he]
  · have hne : (other == key) = false := by simpa using he
    rw [attribute?, setAttribute, List.lookup_cons, hne, removeAttribute, if_neg he]
    exact lookup_filter_ne he h.attributes

/-- A handle as it is shown. -/
def shown (h : Handle) (id : Nat) : String :=
  s!"SessionHandle \x7b id: {id}, peer_addr: {h.peer.text}, state: {h.state.name} \x7d"

end Handle

/-- The sessions of a server: the handle of every session ever created, the first session first,
and the ids of those that are registered. -/
structure Registry where
  handles : List Handle := []
  live : List Nat := []
deriving DecidableEq

namespace Registry

/-- The handle of a session, alive or not. Ids count from 1. -/
def handle? (r : Registry) (id : Nat) : Option Handle :=
  if id = 0 then none else r.handles[id - 1]?

/-- The handle of a session that is registered. -/
def get? (r : Registry) (id : Nat) : Option Handle :=
  if id ∈ r.live then r.handle? id else none

/-- The number of sessions that are registered. -/
def size (r : Registry) : Nat := r.live.length

/-- Creates a session, under an id that no session had before. -/
def create (r : Registry) (peer localAddr : SocketAddr) : Nat × Registry :=
  let id := r.handles.length + 1
  (id, { handles := r.handles ++ [{ peer, localAddr }], live := r.live ++ [id] })

/-- Changes the handle of a session. -/
def update (r : Registry) (id : Nat) (change : Handle → Handle) : Registry :=
  if id = 0 then r else { r with handles := r.handles.modify (id - 1) change }

/-- The handle of a new session is the one that it was created with, and no other changes. -/
theorem handle?_create (r : Registry) (peer localAddr : SocketAddr) (id : Nat) :
    (r.create peer localAddr).2.handle? id =
      if id = (r.create peer localAddr).1 then some { peer, localAddr } else r.handle? id := by
  rcases id with _ | i
  · simp [handle?, create]
  · simp only [handle?, create, Nat.add_one_ne_zero, ↓reduceIte, Nat.add_one_sub_one,
      Nat.add_right_cancel_iff]
    rcases Nat.lt_trichotomy i r.handles.length with h | h | h
    · rw [List.getElem?_append_left h, if_neg (Nat.ne_of_lt h)]
    · simp [h]
    · have hn : i ≠ r.handles.length := Nat.ne_of_gt h
      rw [if_neg hn, List.getElem?_eq_none (by simp; omega), List.getElem?_eq_none (by omega)]

/-- A change of a session's handle changes no other. -/
theorem handle?_update (r : Registry) (id other : Nat) (change : Handle → Handle) :
    (r.update id change).handle? other =
      if other = id then (r.handle? id).map change else r.handle? other := by
  rcases id with _ | i
  · by_cases h : other = 0 <;> simp [update, handle?, h]
  · rcases other with _ | j
    · simp [handle?]
    · simp only [update, handle?, Nat.add_one_ne_zero, ↓reduceIte, Nat.add_one_sub_one,
        Nat.add_right_cancel_iff, List.getElem?_modify]
      by_cases h : j = i
      · simp [h]
      · simp [h, Ne.symm h]

@[simp] theorem live_update (r : Registry) (id : Nat) (change : Handle → Handle) :
    (r.update id change).live = r.live := by
  unfold update
  split <;> rfl

theorem update_update (r : Registry) (id : Nat) (f g : Handle → Handle) :
    (r.update id f).update id g = r.update id (g ∘ f) := by
  by_cases h : id = 0
  · simp [update, h]
  · simp [update, h, List.modify_modify_eq]

/-! ## Closing -/

/-- How far an attempt to close a session has come. -/
inductive Closing where
  | started
  | flagged
  | settled
  | signalled
  | finished (won : Bool)
deriving DecidableEq, Repr

/-- The next step of an attempt to close a session: the flag, for which attempts compete; the
final state; the signal that ends every wait of the session; and the removal. -/
def closeStep (id : Nat) (r : Registry) : Closing → Registry × Closing
  | .started =>
    match r.handle? id with
    | none => (r, .finished false)
    | some h =>
      if h.isClosed then (r, .finished false)
      else (r.update id fun h => { h with isClosed := true }, .flagged)
  | .flagged => (r.update id fun h => { h with state := .closed }, .settled)
  | .settled => (r.update id fun h => { h with isSignalled := true }, .signalled)
  | .signalled => ({ r with live := r.live.erase id }, .finished true)
  | .finished won => (r, .finished won)

/-- Takes `steps` steps of an attempt to close a session. -/
def closeSteps (id : Nat) : (steps : Nat) → Registry → Closing → Registry × Closing
  | 0, r, c => (r, c)
  | n + 1, r, c =>
    let (r, c) := closeStep id r c
    closeSteps id n r c

/-- Closes a session, and tells whether it was this attempt that closed it. -/
def close (r : Registry) (id : Nat) : Bool × Registry :=
  let (r, c) := closeSteps id 4 r .started
  (c = .finished true, r)

/-- Closing a session in a row of steps closes it at once, unless it was closed before. -/
theorem close_eq (r : Registry) (id : Nat) :
    r.close id =
      match r.handle? id with
      | some h =>
        if h.isClosed then (false, r)
        else (true, { r.update id Handle.closed with live := r.live.erase id })
      | none => (false, r) := by
  cases h : r.handle? id with
  | none => simp [close, closeSteps, closeStep, h]
  | some handle =>
    by_cases hc : handle.isClosed
    · simp [close, closeSteps, closeStep, h, hc]
    · have first : closeStep id r .started =
          (r.update id fun h => { h with isClosed := true }, .flagged) := by
        simp [closeStep, h, hc]
      rw [close, closeSteps, first]
      simp only [closeSteps, closeStep, update_update, live_update, hc, decide_true]
      rfl

/-- Closes the sessions of a list, and counts those that were still open. -/
def closeEach : List Nat → Registry → Nat × Registry
  | [], r => (0, r)
  | id :: rest, r =>
    let (won, r) := r.close id
    let (count, r) := closeEach rest r
    (if won then count + 1 else count, r)

/-- Closes every session that is registered at the outset, and counts those that it closed. -/
def closeAll (r : Registry) : Nat × Registry := closeEach r.live r

end Registry

end Socks5

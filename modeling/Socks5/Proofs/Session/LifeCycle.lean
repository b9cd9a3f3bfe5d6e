import Socks5.Proofs.Session.Order
import Socks5.Proofs.Session.Registry
import Socks5.Proofs.Session.ReplyGrammar

/-!
# The life of a session

A session is created, served and closed. While it is served, others create and close sessions of the
same registry, this one among them. Main statement: whatever the session is answered and whatever
others do between its questions, its states form a path from the first to the last, its hooks are
called in order, and when its serving is over it has been closed (`life_cycle`).
-/

namespace Socks5

namespace SessionState

/-- The graph of states: one follows on the other, or the session is closed. Nothing leads away from
the last state. -/
def Edge (here next : SessionState) : Prop :=
  Follows here next ∨ here ≠ .closed ∧ next = .closed

theorem not_edge_closed (next : SessionState) : ¬ Edge .closed next := by
  rintro (h | ⟨h, -⟩)
  · cases h
  · exact h rfl

end SessionState

/-! ## A registry while a session is served -/

/-- What happens while a session is served: it asks something and is answered, or somebody creates
another session or closes one. -/
inductive LifeEvent where
  | asked (x : Exchange Hostings)
  | created (peer localAddr : SocketAddr)
  | closed (id : Nat)

namespace LifeEvent

/-- What a session was asked and answered. -/
def exchange? : LifeEvent → Option (Exchange Hostings)
  | .asked x => some x
  | _ => none

/-- What was asked in a life. -/
def said (life : List LifeEvent) : Dialogue Hostings := life.filterMap exchange?

theorem said_cons (e : LifeEvent) (life : List LifeEvent) :
    said (e :: life) = e.exchange?.toList ++ said life := by
  cases e <;> rfl

theorem said_append (life later : List LifeEvent) :
    said (life ++ later) = said life ++ said later :=
  List.filterMap_append

end LifeEvent

namespace Registry

open Serving (place Orderly)
open SessionState (Edge)
open LifeEvent (said said_cons said_append)

variable {r r' : Registry} {id : Nat} {d : Dialogue Hostings} {e : LifeEvent}
  {life : List LifeEvent}

/-- The state of a session. -/
def state? (r : Registry) (id : Nat) : Option SessionState := (r.handle? id).map (·.state)

/-- What a question of a session does to its registry. -/
def served (id : Nat) (r : Registry) : Hosting.Ask → Registry
  | .enter next => r.update id fun h => h.enter next
  | .identify user => r.update id fun h => h.setAttribute Handle.userKey user
  | .channel .close => (r.close id).2
  | _ => r

/-- What happens to a registry while a session of it is served. -/
def happened (id : Nat) (r : Registry) : LifeEvent → Registry
  | .asked x => r.served id x.question
  | .created peer localAddr => (r.create peer localAddr).2
  | .closed other => (r.close other).2

/-- What becomes of a registry while a session of it is served. -/
def lived (id : Nat) (r : Registry) (life : List LifeEvent) : Registry :=
  life.foldl (happened id) r

/-- The states of a session, in the order of what happens while it is served. -/
def states (id : Nat) (r : Registry) : List LifeEvent → List (Option SessionState)
  | [] => [r.state? id]
  | e :: life => r.state? id :: (r.happened id e).states id life

theorem lived_append (id : Nat) (r : Registry) (life later : List LifeEvent) :
    r.lived id (life ++ later) = (r.lived id life).lived id later :=
  List.foldl_append

/-! ## Where a session stands -/

/-- A session that has asked `d` is in the state that it has asked for last, unless it has been
closed. -/
structure Stands (id : Nat) (d : Dialogue Hostings) (r : Registry) : Prop where
  tidy : r.Tidy
  known : (r.handle? id).isSome
  going : place d ≠ .closed
  state : r.IsOpen id → r.state? id = some (place d)

/-- The state of a session goes along an edge of the graph, if it changes. -/
def Moves (id : Nat) (r r' : Registry) : Prop :=
  ∃ here next, r.state? id = some here ∧ r'.state? id = some next ∧ (next = here ∨ Edge here next)

theorem HasClosed.state?_eq (h : r.HasClosed id) : r.state? id = some .closed := by
  obtain ⟨handle, hhandle, -, hstate, -⟩ := h.handle
  rw [state?, hhandle, ← hstate]
  rfl

namespace Stands

theorem hasClosed (h : Stands id d r) (hopen : ¬ r.IsOpen id) : r.HasClosed id :=
  h.tidy.hasClosed h.known hopen

/-- As long as the session does not move on, it stays where it stands or is closed. -/
theorem fades (h : Stands id d r) (htidy : r'.Tidy) (hknown : (r'.handle? id).isSome)
    (hopen : r'.IsOpen id → r.IsOpen id ∧ r'.state? id = r.state? id) :
    Stands id d r' ∧ Moves id r r' := by
  have hstands : Stands id d r' :=
    ⟨htidy, hknown, h.going, fun ho => (hopen ho).2.trans (h.state (hopen ho).1)⟩
  refine ⟨hstands, ?_⟩
  by_cases ho' : r'.IsOpen id
  · exact ⟨_, _, h.state (hopen ho').1, hstands.state ho', .inl rfl⟩
  have hclosed := (hstands.hasClosed ho').state?_eq
  by_cases ho : r.IsOpen id
  · exact ⟨_, _, h.state ho, hclosed, .inr (.inr ⟨h.going, rfl⟩)⟩
  · exact ⟨_, _, (h.hasClosed ho).state?_eq, hclosed, .inl rfl⟩

theorem create (h : Stands id d r) (peer localAddr : SocketAddr) :
    Stands id d (r.create peer localAddr).2 ∧ Moves id r (r.create peer localAddr).2 := by
  have hid : id ≠ (r.create peer localAddr).1 := by
    rintro rfl
    have hknown := h.known
    rw [handle?_new] at hknown
    cases hknown
  have hsame : (r.create peer localAddr).2.handle? id = r.handle? id := by
    rw [handle?_create, if_neg hid]
  refine h.fades (h.tidy.create peer localAddr) (by rw [hsame]; exact h.known) fun ho => ⟨?_, ?_⟩
  · exact (isOpen_create_iff.1 ho).resolve_left hid
  · rw [state?, hsame, state?]

theorem close (h : Stands id d r) (other : Nat) :
    Stands id d (r.close other).2 ∧ Moves id r (r.close other).2 := by
  refine h.fades (h.tidy.close other) (isSome_close.trans h.known) fun ho => ?_
  obtain ⟨hopen, hid⟩ := isOpen_close_iff.1 ho
  refine ⟨hopen, ?_⟩
  by_cases hother : r.IsOpen other
  · rw [state?, handle?_close_of_isOpen hother, if_neg hid, state?]
  · rw [close_of_not_isOpen hother]

theorem identify (h : Stands id d r) (user : String) :
    let r' := r.update id fun h => h.setAttribute Handle.userKey user
    Stands id d r' ∧ Moves id r r' := by
  refine h.fades (h.tidy.setAttribute id _ user) (isSome_update.trans h.known) fun ho => ?_
  have hflag : ∀ handle : Handle,
      (handle.setAttribute Handle.userKey user).isClosed = handle.isClosed := fun _ => rfl
  refine ⟨(isOpen_update_iff hflag).1 ho, ?_⟩
  rw [state?, handle?_update, if_pos rfl, state?, Option.map_map]
  rfl

theorem enter (h : Stands id d r) {next : SessionState} {a : Unit}
    (hnext : next = place d ∨ SessionState.Follows (place d) next) :
    let r' := r.update id fun h => h.enter next
    Stands id (d ++ [⟨.enter next, a⟩]) r' ∧ Moves id r r' := by
  intro r'
  have hflag : ∀ handle : Handle, (handle.enter next).isClosed = handle.isClosed := fun _ => rfl
  have hstate : r'.state? id = (r.state? id).map (·.moved next) := by
    rw [state?, handle?_update, if_pos rfl, state?, Option.map_map, Option.map_map]
    rfl
  have hopened : r.IsOpen id → r'.state? id = some next := by
    intro ho
    rw [hstate, h.state ho, Option.map_some, SessionState.moved, if_neg h.going]
  have hplace : place (d ++ [⟨.enter next, a⟩]) = next := by rw [Serving.place_concat]; rfl
  refine ⟨⟨h.tidy.enter id next, isSome_update.trans h.known, ?_, fun ho => ?_⟩, ?_⟩
  · rw [hplace]
    rcases hnext with rfl | hfollows
    · exact h.going
    · exact hfollows.ne_closed
  · rw [hplace]
    exact hopened ((isOpen_update_iff hflag).1 ho)
  · by_cases ho : r.IsOpen id
    · exact ⟨_, _, h.state ho, hopened ho, hnext.imp_right .inl⟩
    · have hclosed := (h.hasClosed ho).state?_eq
      refine ⟨_, .closed, hclosed, ?_, .inl rfl⟩
      rw [hstate, hclosed]
      rfl

/-- To ask anything but to be moved on is no matter for where a session stands. -/
theorem say (h : Stands id d r) {x : Exchange Hostings} (hx : ∀ next, x.question ≠ .enter next) :
    Stands id (d ++ [x]) r := by
  have hplace : place (d ++ [x]) = place d := by
    rw [Serving.place_concat]
    obtain ⟨q, a⟩ := x
    cases q with
    | enter next => exact absurd rfl (hx next)
    | _ => rfl
  refine ⟨h.tidy, h.known, ?_, ?_⟩
  · rw [hplace]
    exact h.going
  · rw [hplace]
    exact h.state

/-- What a session asks in order moves it along the graph. -/
theorem served (h : Stands id d r) (x : Exchange Hostings) (horderly : Orderly d x.question) :
    Stands id (d ++ [x]) (r.served id x.question) ∧ Moves id r (r.served id x.question) := by
  have hsay : ∀ {r'}, (∀ next, x.question ≠ .enter next) → Stands id d r' ∧ Moves id r r' →
      Stands id (d ++ [x]) r' ∧ Moves id r r' := fun hx hr => ⟨hr.1.say hx, hr.2⟩
  have hstay : Stands id d r ∧ Moves id r r := h.fades h.tidy h.known fun ho => ⟨ho, rfl⟩
  obtain ⟨q, a⟩ := x
  cases q with
  | enter next => exact h.enter (horderly.follows next rfl)
  | identify user => exact hsay (fun _ => nofun) (h.identify user)
  | channel c =>
    cases c with
    | close => exact hsay (fun _ => nofun) (h.close id)
    | _ => exact hsay (fun _ => nofun) hstay
  | _ => exact hsay (fun _ => nofun) hstay

/-- Whatever happens moves the session along the graph, if what it asks is in order. -/
theorem happened (h : Stands id d r)
    (horderly : ∀ x, e.exchange? = some x → Orderly d x.question) :
    Stands id (d ++ e.exchange?.toList) (r.happened id e) ∧ Moves id r (r.happened id e) := by
  cases e with
  | asked x => exact h.served x (horderly x rfl)
  | created peer localAddr =>
    have hnone : (LifeEvent.created peer localAddr).exchange? = none := rfl
    simpa [hnone, Registry.happened] using h.create peer localAddr
  | closed other =>
    have hnone : (LifeEvent.closed other).exchange? = none := rfl
    simpa [hnone, Registry.happened] using h.close other

theorem hasClosed_of_state? (h : Stands id d r) (hstate : r.state? id = some .closed) :
    r.HasClosed id := by
  refine h.hasClosed fun ho => h.going ?_
  rw [h.state ho] at hstate
  exact Option.some.inj hstate

/-- Nothing leads away from the last state. -/
theorem hasClosed_of_moves (h : Stands id d r') (hmoves : Moves id r r')
    (hclosed : r.HasClosed id) : r'.HasClosed id := by
  obtain ⟨here, next, hhere, hnext, hmove⟩ := hmoves
  rw [hclosed.state?_eq] at hhere
  cases hhere
  rcases hmove with rfl | hedge
  · exact h.hasClosed_of_state? hnext
  · exact absurd hedge (SessionState.not_edge_closed next)

theorem exists_state? (h : Stands id d r) : ∃ here, r.state? id = some here := by
  obtain ⟨handle, hhandle⟩ := Option.isSome_iff_exists.1 h.known
  exact ⟨handle.state, by rw [state?, hhandle]; rfl⟩

/-- Questions in order after what was said before. -/
def OrderlyAfter (d : Dialogue Hostings) (life : List LifeEvent) : Prop :=
  ∀ before x after, said life = before ++ x :: after → Orderly (d ++ before) x.question

theorem OrderlyAfter.head (h : OrderlyAfter d (e :: life)) :
    ∀ x, e.exchange? = some x → Orderly d x.question := by
  intro x hx
  have hsaid : said (e :: life) = [] ++ x :: said life := by
    rw [said_cons, hx]
    rfl
  simpa using h [] x (said life) hsaid

theorem OrderlyAfter.tail (h : OrderlyAfter d (e :: life)) :
    OrderlyAfter (d ++ e.exchange?.toList) life := by
  intro before x after hsaid
  rw [List.append_assoc]
  refine h (e.exchange?.toList ++ before) x after ?_
  rw [said_cons, hsaid, List.append_assoc]

theorem OrderlyAfter.front {later : List LifeEvent} (h : OrderlyAfter d (life ++ later)) :
    OrderlyAfter d life := by
  intro before x after hsaid
  refine h before x (after ++ said later) ?_
  rw [said_append, hsaid, List.append_assoc]
  rfl

theorem lived (h : Stands id d r) (horderly : OrderlyAfter d life) :
    Stands id (d ++ said life) (r.lived id life) := by
  induction life generalizing d r with
  | nil => simpa [said, Registry.lived] using h
  | cons e life ih =>
    rw [said_cons, ← List.append_assoc]
    exact ih (h.happened horderly.head).1 horderly.tail

/-- A life is a path of the graph, if everything that is asked in it is in order. -/
theorem exists_path (h : Stands id d r) (horderly : OrderlyAfter d life) :
    ∃ path : List SessionState, r.states id life = path.map some ∧ path.head? = r.state? id ∧
      path.IsChain fun here next => next = here ∨ Edge here next := by
  induction life generalizing d r with
  | nil =>
    obtain ⟨here, hhere⟩ := h.exists_state?
    refine ⟨[here], ?_, hhere.symm, .singleton here⟩
    rw [states, hhere]
    rfl
  | cons e life ih =>
    obtain ⟨hstands, here, next, hhere, hnext, hmove⟩ := h.happened horderly.head
    obtain ⟨path, hpath, hhead, hchain⟩ := ih hstands horderly.tail
    rw [hnext] at hhead
    obtain ⟨rest, rfl⟩ := List.head?_eq_some_iff.1 hhead
    refine ⟨here :: next :: rest, ?_, hhere.symm, List.isChain_cons_cons.2 ⟨hmove, hchain⟩⟩
    rw [states, hpath, hhere]
    rfl

/-- A session that has been closed stays so, whatever happens. -/
theorem hasClosed_lived (h : Stands id d r) (horderly : OrderlyAfter d life)
    (hclosed : r.HasClosed id) : (r.lived id life).HasClosed id := by
  induction life generalizing d r with
  | nil => exact hclosed
  | cons e life ih =>
    obtain ⟨hstands, hmoves⟩ := h.happened horderly.head
    exact ih hstands horderly.tail (hstands.hasClosed_of_moves hmoves hclosed)

/-- A session that has closed itself has been closed. -/
theorem hasClosed_of_mem (h : Stands id d r) (horderly : OrderlyAfter d life)
    (hclose : ⟨.channel .close, ()⟩ ∈ said life) : (r.lived id life).HasClosed id := by
  induction life generalizing d r with
  | nil => cases hclose
  | cons e life ih =>
    obtain ⟨hstands, -⟩ := h.happened horderly.head
    rw [said_cons, List.mem_append, Option.mem_toList] at hclose
    rcases hclose with hfirst | hrest
    · refine hstands.hasClosed_lived horderly.tail (hstands.hasClosed fun ho => ?_)
      cases e with
      | asked x =>
        cases hfirst
        exact (isOpen_close_iff.1 ho).2 rfl
      | created peer localAddr => cases hfirst
      | closed other => cases hfirst
    · exact ih hstands horderly.tail hrest

end Stands

theorem stands_create (hr : r.Tidy) (peer localAddr : SocketAddr) :
    Stands (r.create peer localAddr).1 [] (r.create peer localAddr).2 := by
  have hhandle : (r.create peer localAddr).2.handle? (r.create peer localAddr).1 =
      some { peer, localAddr } := by rw [handle?_create, if_pos rfl]
  refine ⟨hr.create peer localAddr, by rw [hhandle]; rfl, nofun, fun _ => ?_⟩
  rw [state?, hhandle]
  rfl

end Registry

namespace Serving

open SessionState (Edge)
open LifeEvent (said said_cons said_append)
open Socks5.Task (Leads)

/-- The life cycle of a session that is served. -/
structure LifeCycle (id : Nat) (r : Registry) (life : List LifeEvent) (t : Task Hostings Unit) :
    Prop where
  /-- Its states form a path from the first one on. -/
  path : ∃ path : List SessionState, r.states id life = path.map some ∧
    path.head? = some .negotiating ∧ path.IsChain fun here next => next = here ∨ Edge here next
  /-- When its serving is over, it has been closed. -/
  ended : ∀ outcome, t.outcome? = some outcome →
    outcome = .ok () ∧ (r.lived id life).HasClosed id
  /-- It is vetted once, and before anything else. -/
  vetted : ∀ before x after, said life = before ++ x :: after →
    (x.question = .vetSession ↔ before = [])
  /-- At most one request is vetted, as it was read. -/
  request : ∀ before request veto after,
    said life = before ++ ⟨.vetRequest request, veto⟩ :: after →
      (∀ x ∈ before ++ after, ∀ other, x.question ≠ .vetRequest other) ∧
      ∃ front dr, before = front ++ dr ∧ Leads (receive Request) dr (.done request)
  /-- It takes its leave once, after it was closed and after anything else. -/
  farewell : ∀ before x after, life = before ++ .asked x :: after → x.question = .farewell →
    (r.lived id before).HasClosed id ∧ said after = [] ∧
      ∀ y ∈ said before, y.question ≠ .farewell
  /-- When its serving is over, it has taken its leave. -/
  parted : ∀ outcome, t.outcome? = some outcome → ∃ x ∈ said life, x.question = .farewell

/-- Whatever a session is answered, and whatever others do to its registry in the meantime. -/
theorem life_cycle {s : Setting} {r : Registry} (hr : r.Tidy) {life : List LifeEvent}
    {t : Task Hostings Unit} (h : Leads (run s) (said life) t) :
    LifeCycle (r.create s.peer s.localAddr).1 (r.create s.peer s.localAddr).2 life t := by
  have hstands := Registry.stands_create hr s.peer s.localAddr
  have horderly : Registry.Stands.OrderlyAfter [] life := by
    intro before x after hsaid
    rw [hsaid] at h
    exact orderly_of_leads h
  refine ⟨?_, ?_, ?_, ?_, ?_, ?_⟩
  · obtain ⟨path, hpath, hhead, hchain⟩ := hstands.exists_path horderly
    have hopen : Registry.IsOpen (r.create s.peer s.localAddr).2 (r.create s.peer s.localAddr).1 :=
      Registry.isOpen_create_iff.2 (.inl rfl)
    exact ⟨path, hpath, hhead.trans (hstands.state hopen), hchain⟩
  · intro outcome houtcome
    obtain ⟨rfl, before, hsaid, -⟩ := farewelled_of_over h houtcome
    refine ⟨rfl, hstands.hasClosed_of_mem horderly ?_⟩
    rw [hsaid]
    simp
  · intro before x after hsaid
    exact (horderly before x after hsaid).first.symm
  · intro before request veto after hsaid
    rw [hsaid] at h
    exact once_of_leads h
  · rintro before x after rfl hx
    rw [said_append, said_cons] at h
    have hfarewell : Orderly (said before) x.question := orderly_of_leads h
    obtain ⟨front, hclose⟩ := hfarewell.closed hx
    refine ⟨hstands.hasClosed_of_mem horderly.front ?_, eq_nil_of_farewell h hx, hfarewell.last⟩
    rw [hclose]
    simp
  · intro outcome houtcome
    obtain ⟨-, before, hsaid, -⟩ := farewelled_of_over h houtcome
    refine ⟨⟨.farewell, ()⟩, ?_, rfl⟩
    rw [hsaid]
    simp

/-- A client asks for a target, and its session is closed by somebody else while that is dialled. -/
def closedMidway : List LifeEvent :=
  let asked (q : Hosting.Ask) (a : Hosting.Answer q) : LifeEvent := .asked ⟨q, a⟩
  let piece (b : UInt8) : LifeEvent := .asked (Hosting.readByte b)
  [asked .vetSession none, asked (.enter .negotiating) (), piece 0x05, piece 0x01, piece 0x00,
    asked (.note (.offered [0x00] 0x00 "NO AUTHENTICATION REQUIRED")) (),
    .asked (Hosting.onClient ⟨.write [0x05, 0x00], .ok (.last _)⟩),
    .asked (Hosting.onClient ⟨.flush, .ok ()⟩),
    asked (.enter .authenticating) (), asked (.enter .awaitingCommand) (),
    piece 0x05, piece 0x01, piece 0x00, piece 0x01,
    .asked (Hosting.onClient ⟨.read 4, .ok (some (.filling 127 [0, 0, 1]))⟩),
    .asked (Hosting.onClient ⟨.read 2, .ok (some (.filling 0 [80]))⟩),
    asked (.vetRequest (.of .connect ownTarget)) none, .created .unspecified .unspecified,
    asked (.enter .connecting) (), asked (.note (.connecting ownTarget)) (), .closed 1,
    asked (.connect none ⟨.v4 .localhost, 80, 0⟩) .closed,
    asked (.note (.ended (.error .closed))) (), asked (.channel .close) (), asked .farewell ()]

theorem life_cycle_closedMidway :
    Leads (run openSetting) (said closedMidway) (.done ()) ∧
      LifeCycle 1 (Registry.create {} .unspecified .unspecified).2 closedMidway (.done ()) := by
  have h : Leads (run openSetting) (said closedMidway) (.done ()) :=
    .step <| .step <| .step <| .step <| .step <| .step <| .step <| .step <| .step <| .step <|
      .step <| .step <| .step <| .step <| .step <| .step <| .step <| .step <| .step <| .step <|
      .step <| .step <| .step <| .refl _
  exact ⟨h, life_cycle (s := openSetting) Registry.tidy_new h⟩

end Serving

end Socks5

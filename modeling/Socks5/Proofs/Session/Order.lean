import Socks5.Proofs.Session.Commands

/-!
# The order of a session

A session is vetted first and takes its leave last, its request is vetted as it was read and only
once, and the states that it asks for follow on one another along a graph. Main statement: so it is
with every question of a session, whatever it is answered (`keeps_run`).
-/

namespace Socks5

namespace SessionState

/-- Which state follows on which in the course of a session. -/
inductive Follows : SessionState → SessionState → Prop where
  | authenticate : Follows .negotiating .authenticating
  | await : Follows .authenticating .awaitingCommand
  | connect : Follows .awaitingCommand .connecting
  | relay : Follows .connecting .relaying
  | listen : Follows .awaitingCommand .bindListening
  | relayBound : Follows .bindListening .bindRelaying
  | associate : Follows .awaitingCommand .udpAssociated

theorem Follows.ne_closed {here next : SessionState} (h : Follows here next) : next ≠ .closed := by
  cases h <;> exact nofun

end SessionState

namespace Serving

open SessionState (Follows)
open Socks5.Task (Leads)

variable {α β : Type} {past : Dialogue Hostings} {here next : SessionState}

/-! ## Where a session stands -/

/-- Where a session stands after a question. -/
def reached (here : SessionState) : Hosting.Ask → SessionState
  | .enter next => next
  | _ => here

/-- The state that a session has asked for last. -/
def place (d : Dialogue Hostings) : SessionState :=
  d.foldl (fun here x => reached here x.question) .negotiating

@[simp] theorem place_nil : place [] = .negotiating := rfl

@[simp] theorem place_concat (d : Dialogue Hostings) (x : Exchange Hostings) :
    place (d ++ [x]) = reached (place d) x.question := by
  simp [place]

/-- What is asked between the states and the hooks of a session. -/
def IsRoutine : Hosting.Ask → Prop
  | .enter _ | .vetSession | .vetRequest _ | .farewell => False
  | _ => True

theorem IsRoutine.reached_eq {q : Hosting.Ask} (h : IsRoutine q) : reached here q = here := by
  cases q with
  | enter next => exact h.elim
  | _ => rfl

theorem isRoutine_of_ofStream {q : Hosting.Ask} (h : OfStream q) : IsRoutine q := by
  obtain ⟨p, rfl⟩ := exists_of_ofStream h
  trivial

theorem isRoutine_of_ofCopying {q : Hosting.Ask} (h : OfCopying q) : IsRoutine q := by
  cases q with
  | note _ | peer _ | relay _ => trivial
  | _ => exact h.elim

theorem asksOnly_receive_routine (α : Type) [Message α] : (receive α).AsksOnly IsRoutine :=
  (asksOnly_onStream _).mono fun _ => isRoutine_of_ofStream

theorem asksOnly_deliver_routine [Message α] (message : α) :
    (deliver message).AsksOnly IsRoutine :=
  (asksOnly_onStream _).mono fun _ => isRoutine_of_ofStream

theorem asksOnly_onChannel_routine (t : Task Channels α) : (onChannel t).AsksOnly IsRoutine := by
  refine (asksOnly_onChannel t).mono fun q hq => ?_
  cases q with
  | channel c => trivial
  | _ => exact hq.elim

theorem asksOnly_inbound_routine {limit : Option Duration} (answer : Hosting.Inbound limit) :
    (inbound answer).AsksOnly IsRoutine := by
  cases answer with
  | arrived peer early => trivial
  | failed cause => exact asksOnly_reject asksOnly_deliver_routine (.unreached cause)
  | expired after _ => exact asksOnly_reject asksOnly_deliver_routine (expiry "bind accept" after)
  | clientGone => exact .bind (asksOnly_onChannel_routine _) fun _ => trivial
  | closed => trivial

/-! ## Questions in order -/

/-- A question in the order of a session, after what was said before: the session is vetted first
and takes its leave last, once it was closed; a request is vetted as it was read, and only once; and
the states follow on one another. -/
structure Orderly (past : Dialogue Hostings) (q : Hosting.Ask) : Prop where
  first : past = [] ↔ q = .vetSession
  last : ∀ x ∈ past, x.question ≠ .farewell
  follows : ∀ next, q = .enter next → next = place past ∨ Follows (place past) next
  once : ∀ request, q = .vetRequest request →
    (∀ x ∈ past, ∀ earlier, x.question ≠ .vetRequest earlier) ∧
      ∃ before dr, past = before ++ dr ∧ Leads (receive Request) dr (.done request)
  closed : q = .farewell → ∃ before, past = before ++ [⟨.channel .close, ()⟩]

/-- The terms on which everything is asked in order. -/
def orderly : Terms Hostings where
  permits := Orderly

/-- A session that was vetted and has not taken its leave stands somewhere. -/
structure Midway (here : SessionState) (past : Dialogue Hostings) : Prop where
  begun : past ≠ []
  ongoing : ∀ x ∈ past, x.question ≠ .farewell
  place : place past = here

namespace Midway

variable {q : Hosting.Ask} {t : Task Hostings α}

theorem concat (h : Midway here past) (hq : q ≠ .farewell) (a : Hosting.Answer q) :
    Midway (reached here q) (past ++ [⟨q, a⟩]) where
  begun := by simp
  ongoing := List.forall_mem_append.2 ⟨h.ongoing, List.forall_mem_singleton.2 hq⟩
  place := by rw [place_concat, h.place]

theorem concat_routine (h : Midway here past) (hq : IsRoutine q) (a : Hosting.Answer q) :
    Midway here (past ++ [⟨q, a⟩]) := by
  have hne : q ≠ .farewell := by
    rintro rfl
    exact hq
  have hconcat := h.concat hne a
  rwa [hq.reached_eq] at hconcat

theorem append_routine (h : Midway here past) {d : Dialogue Hostings}
    (hd : ∀ x ∈ d, IsRoutine x.question) : Midway here (past ++ d) := by
  induction d generalizing past with
  | nil => rwa [List.append_nil]
  | cons x d ih =>
    rw [List.append_cons]
    exact ih (h.concat_routine (hd x List.mem_cons_self) x.answer)
      fun y hy => hd y (List.mem_cons_of_mem _ hy)

theorem orderly_routine (h : Midway here past) (hq : IsRoutine q) : Orderly past q := by
  refine ⟨?_, h.ongoing, ?_, ?_, ?_⟩
  · refine ⟨fun hnil => absurd hnil h.begun, ?_⟩
    rintro rfl
    exact hq.elim
  · rintro next rfl
    exact hq.elim
  · rintro request rfl
    exact hq.elim
  · rintro rfl
    exact hq.elim

theorem orderly_enter (h : Midway here past) (hnext : next = here ∨ Follows here next) :
    Orderly past (.enter next) := by
  refine ⟨⟨fun hnil => absurd hnil h.begun, nofun⟩, h.ongoing, ?_, nofun, nofun⟩
  intro other hother
  cases hother
  rwa [h.place]

/-- Routine work keeps the order, and the session stays where it stands. -/
theorem keeps_routine (h : Midway here past) (ht : t.AsksOnly IsRoutine) :
    t.Keeps orderly past fun p r =>
      ∃ d, p = past ++ d ∧ (∀ x ∈ d, IsRoutine x.question) ∧ Leads t d (.ofExcept r) :=
  ht.keeps fun _ _ hd hq => (h.append_routine hd).orderly_routine hq

end Midway

/-! ## Commands -/

/-- Work in order, from a session that stands somewhere to one that does. -/
def Proceeds (past : Dialogue Hostings) (t : Task Hostings α) : Prop :=
  t.Keeps orderly past fun p _ => ∃ here, Midway here p

namespace Midway

variable {t : Task Hostings β} {f : β → Task Hostings α}

theorem routine_bind (h : Midway here past) (ht : t.AsksOnly IsRoutine)
    (hnext : ∀ p b, Midway here p → Proceeds p (f b)) : Proceeds past (t.bind f) := by
  refine (h.keeps_routine ht).bind ?_ ?_
  · rintro p b ⟨d, rfl, hd, -⟩
    exact hnext _ b (h.append_routine hd)
  · rintro p e ⟨d, rfl, hd, -⟩
    exact ⟨here, h.append_routine hd⟩

theorem routine (h : Midway here past) (ht : t.AsksOnly IsRoutine) : Proceeds past t := by
  refine (h.keeps_routine ht).weaken ?_
  rintro p r ⟨d, rfl, hd, -⟩
  exact ⟨here, h.append_routine hd⟩

theorem enter_bind {f : Unit → Task Hostings α} (h : Midway here past)
    (hnext : next = here ∨ Follows here next)
    (hthen : ∀ p, Midway next p → Proceeds p (f ())) : Proceeds past ((enter next).bind f) :=
  Task.keeps_ask.2 ⟨h.orderly_enter hnext, fun a _ => hthen _ (h.concat (q := .enter next) nofun a)⟩

end Midway

variable {s : Setting} {target : Target}

theorem proceeds_relay (h : Midway here past) (hnext : Follows here next) :
    Proceeds past ((enter next).bind fun _ => relay s) :=
  h.enter_bind (.inr hnext) fun _ h =>
    h.routine ((asksOnly_relay s).mono fun _ => isRoutine_of_ofCopying)

theorem proceeds_connect (h : Midway .awaitingCommand past) : Proceeds past (connect s target) := by
  unfold connect
  simp only [Task.bind_eq]
  refine h.enter_bind (.inr .connect) fun p h => ?_
  refine h.routine_bind (t := note _) (asksOnly_ask trivial) fun p _ h => ?_
  have hattempt : ((addresses s.config.timeout target).bind fun found =>
      connectFirst s.config.timeout target none found).AsksOnly IsRoutine :=
    asksOnly_attempt (fun _ _ _ => trivial) (fun _ _ => trivial) (fun _ => trivial) _ _
  refine h.routine_bind hattempt.attempt fun p outcome h => ?_
  cases outcome with
  | error e => exact h.routine (asksOnly_reject asksOnly_deliver_routine e)
  | ok _ =>
    refine h.routine_bind (asksOnly_ask (q := .localAddr) trivial) fun p answer h => ?_
    refine h.routine_bind (asksOnly_obtain asksOnly_deliver_routine answer) fun p bound h => ?_
    refine h.routine_bind (asksOnly_deliver_routine _) fun p _ h => ?_
    exact proceeds_relay h .relay

theorem proceeds_bind (h : Midway .awaitingCommand past) : Proceeds past (bind s target) := by
  unfold bind
  simp only [Task.bind_eq]
  refine h.enter_bind (.inr .listen) fun p h => ?_
  refine h.routine_bind (asksOnly_ask (q := .listen _) trivial) fun p answer h => ?_
  refine h.routine_bind (asksOnly_obtain asksOnly_deliver_routine answer) fun p address h => ?_
  refine h.routine_bind (asksOnly_deliver_routine _).attempt fun p outcome h => ?_
  cases outcome with
  | error e =>
    exact h.routine (.bind (asksOnly_ask (q := .dropListener) trivial) fun _ => trivial)
  | ok _ =>
    refine h.routine_bind (t := note _) (asksOnly_ask trivial) fun p _ h => ?_
    refine h.routine_bind (asksOnly_ask (q := .awaitPeer _) trivial) fun p answer h => ?_
    refine h.routine_bind (asksOnly_ask (q := .dropListener) trivial) fun p _ h => ?_
    refine h.routine_bind (asksOnly_inbound_routine answer) fun p arrival h => ?_
    refine h.routine_bind (t := note _) (asksOnly_ask trivial) fun p _ h => ?_
    refine h.routine_bind (asksOnly_deliver_routine _) fun p _ h => ?_
    split
    · refine h.routine_bind (t := note _) (asksOnly_ask trivial) fun p _ h => ?_
      refine h.routine_bind ((asksOnly_handOver _).mono fun _ => isRoutine_of_ofCopying)
        fun p _ h => ?_
      exact proceeds_relay h .relayBound
    · exact proceeds_relay h .relayBound

theorem proceeds_associate (h : Midway .awaitingCommand past) :
    Proceeds past (associate s target) := by
  unfold associate
  simp only [Task.bind_eq]
  refine h.routine_bind (asksOnly_ask (q := .associate _ _) trivial) fun p answer h => ?_
  refine h.routine_bind (asksOnly_obtain asksOnly_deliver_routine answer) fun p address h => ?_
  refine h.routine_bind (asksOnly_deliver_routine _) fun p _ h => ?_
  refine h.enter_bind (.inr .associate) fun p h => ?_
  refine h.routine ?_
  refine .bind (asksOnly_ask (q := .startForwarding) trivial) fun _ =>
    .bind (asksOnly_ask (q := .hold) trivial) fun held =>
    .bind (asksOnly_ask (q := .stopForwarding) trivial) fun _ =>
    .bind (asksOnly_ask (q := .note _) trivial) fun _ => ?_
  cases held <;> trivial

theorem proceeds_carryOut (h : Midway .awaitingCommand past) (request : Request) :
    Proceeds past (carryOut s request) := by
  unfold carryOut
  cases request.rejection with
  | some code => exact h.routine (asksOnly_reject asksOnly_deliver_routine _)
  | none =>
    cases request.command? with
    | none => exact h.routine (asksOnly_reject asksOnly_deliver_routine _)
    | some command =>
      cases command with
      | connect => exact proceeds_connect h
      | bind => exact proceeds_bind h
      | udpAssociate => exact proceeds_associate h

/-! ## The whole session -/

/-- No request has been vetted yet. -/
def Unvetted (past : Dialogue Hostings) : Prop :=
  ∀ x ∈ past, ∀ request, x.question ≠ .vetRequest request

theorem Unvetted.append_routine {d : Dialogue Hostings} (h : Unvetted past)
    (hd : ∀ x ∈ d, IsRoutine x.question) : Unvetted (past ++ d) := by
  refine List.forall_mem_append.2 ⟨h, fun x hx request hq => ?_⟩
  have hroutine := hd x hx
  rw [hq] at hroutine
  exact hroutine

/-- A session on its way to the vetting of its request. -/
structure Setout (here : SessionState) (past : Dialogue Hostings) : Prop extends
    Midway here past where
  unvetted : Unvetted past

namespace Setout

theorem routine_bind {t : Task Hostings β} {f : β → Task Hostings α} (h : Setout here past)
    (ht : t.AsksOnly IsRoutine) (hnext : ∀ p b, Setout here p → Proceeds p (f b)) :
    Proceeds past (t.bind f) := by
  refine (h.keeps_routine ht).bind ?_ ?_
  · rintro p b ⟨d, rfl, hd, -⟩
    exact hnext _ b ⟨h.append_routine hd, h.unvetted.append_routine hd⟩
  · rintro p e ⟨d, rfl, hd, -⟩
    exact ⟨here, h.append_routine hd⟩

theorem enter_bind {f : Unit → Task Hostings α} (h : Setout here past)
    (hnext : next = here ∨ Follows here next)
    (hthen : ∀ p, Setout next p → Proceeds p (f ())) : Proceeds past ((enter next).bind f) := by
  refine Task.keeps_ask.2 ⟨h.orderly_enter hnext, fun a _ => hthen _ ⟨?_, ?_⟩⟩
  · exact h.concat (q := .enter next) nofun a
  · exact List.forall_mem_append.2 ⟨h.unvetted, List.forall_mem_singleton.2 fun _ => nofun⟩

end Setout

/-- A request is read, vetted as it was read, and carried out. -/
theorem proceeds_obey (s : Setting) (h : Setout .authenticating past) : Proceeds past (obey s) := by
  unfold obey
  refine h.enter_bind (.inr .await) fun p h => ?_
  refine (h.keeps_routine (asksOnly_receive_routine Request)).bind ?_ ?_
  · rintro _ request ⟨dr, rfl, hdr, hread⟩
    have hmidway := h.append_routine hdr
    have horderly : Orderly (p ++ dr) (.vetRequest request) := by
      refine ⟨⟨fun hnil => absurd hnil hmidway.begun, nofun⟩, hmidway.ongoing, nofun, ?_, nofun⟩
      intro other hother
      cases hother
      exact ⟨h.unvetted.append_routine hdr, _, dr, rfl, hread⟩
    refine Task.keeps_ask.2 ⟨horderly, fun veto _ => ?_⟩
    have hvetted := hmidway.concat (q := .vetRequest request) nofun veto
    cases veto with
    | some reason => exact Task.keeps_fail.2 ⟨_, hvetted⟩
    | none => exact proceeds_carryOut hvetted request
  · rintro p e ⟨d, rfl, hd, -⟩
    exact ⟨_, h.append_routine hd⟩

theorem proceeds_serve (s : Setting) (h : Setout .negotiating past) : Proceeds past (serve s) := by
  have hwelcome : ∀ verdict, (welcome verdict).AsksOnly IsRoutine := by
    intro verdict
    match verdict with
    | .admitted (some user) =>
      exact .bind (t := note _) (asksOnly_ask trivial) fun _ =>
        asksOnly_ask (q := .identify user) trivial
    | .admitted none => trivial
    | .refused _ => trivial
  rw [serve_eq, choose]
  simp only [Task.bind_assoc, Task.done_bind]
  refine h.enter_bind (.inl rfl) fun p h => ?_
  refine h.routine_bind (asksOnly_receive_routine MethodOffer) fun p offer h => ?_
  refine h.routine_bind (t := note _) (asksOnly_ask trivial) fun p _ h => ?_
  refine h.routine_bind (asksOnly_deliver_routine _) fun p _ h => ?_
  unfold authenticate
  refine h.enter_bind (.inr .authenticate) fun p h => ?_
  refine h.routine_bind (asksOnly_onChannel_routine _) fun p verdict h => ?_
  exact h.routine_bind (hwelcome verdict) fun p _ h => proceeds_obey s h

/-- What a session has asked when it is over. -/
def Farewelled (past : Dialogue Hostings) : Prop :=
  ∃ before, past = before ++ [⟨.channel .close, ()⟩, ⟨.farewell, ()⟩] ∧
    ∀ x ∈ before, x.question ≠ .farewell

theorem keeps_finish (h : Midway here past) (outcome : Except Failure Unit) :
    (finish outcome).Keeps orderly past fun p r => r = .ok () ∧ Farewelled p := by
  refine Task.keeps_ask.2 ⟨h.orderly_routine trivial, fun a _ => ?_⟩
  have hnoted := h.concat_routine (q := .note (.ended outcome)) trivial a
  refine Task.keeps_ask.2 ⟨hnoted.orderly_routine (q := .channel .close) trivial, fun b _ => ?_⟩
  have hclosed := hnoted.concat_routine (q := .channel .close) trivial b
  refine Task.keeps_ask.2 ⟨?_, fun _ _ => Task.keeps_done.2 ?_⟩
  · exact ⟨⟨fun hnil => absurd hnil hclosed.begun, nofun⟩, hclosed.ongoing, nofun, nofun,
      fun _ => ⟨_, rfl⟩⟩
  · exact ⟨rfl, past ++ [⟨.note (.ended outcome), a⟩], List.append_assoc _ _ _, hnoted.ongoing⟩

/-- Everything that a session asks is in order. It does not fail, and when it is over it has taken
its leave. -/
theorem keeps_run (s : Setting) :
    (run s).Keeps orderly [] fun p r => r = .ok () ∧ Farewelled p := by
  have hfirst : Orderly [] .vetSession :=
    ⟨⟨fun _ => rfl, fun _ => rfl⟩, fun _ hx => absurd hx List.not_mem_nil, nofun, nofun, nofun⟩
  rw [run_eq]
  refine Task.keeps_ask.2 ⟨hfirst, fun veto _ => ?_⟩
  have hbegun : Setout .negotiating [⟨.vetSession, veto⟩] := by
    refine ⟨⟨nofun, ?_, rfl⟩, ?_⟩
    · exact List.forall_mem_singleton.2 nofun
    · exact List.forall_mem_singleton.2 fun _ => nofun
  cases veto with
  | some reason => exact keeps_finish hbegun.toMidway _
  | none =>
    refine (proceeds_serve s hbegun).attempt_bind fun p outcome hp => ?_
    obtain ⟨here, hmidway⟩ := hp
    exact keeps_finish hmidway outcome

/-- Every question of a session is in order after what was said before it. -/
theorem orderly_of_leads {s : Setting} {before after : Dialogue Hostings} {x : Exchange Hostings}
    {t : Task Hostings Unit} (h : Leads (run s) (before ++ x :: after) t) :
    Orderly before x.question := by
  obtain ⟨u, hu, hrest⟩ := h.split
  cases hrest with
  | step _ => exact (keeps_run s).stands hu (Terms.honoured_of_allows (fun _ _ => trivial) [] _)

/-- A session that is over has not failed, and has taken its leave. -/
theorem farewelled_of_over {s : Setting} {d : Dialogue Hostings} {t : Task Hostings Unit}
    {outcome : Except Failure Unit} (h : Leads (run s) d t) (hover : t.outcome? = some outcome) :
    outcome = .ok () ∧ Farewelled d := by
  rw [Task.outcome?_eq_some_iff] at hover
  subst hover
  have hend := (keeps_run s).stands h (Terms.honoured_of_allows (fun _ _ => trivial) [] _)
  cases outcome with
  | ok a => exact hend
  | error e => exact hend

/-- The request that is vetted is the only one, before and after. -/
theorem once_of_leads {s : Setting} {before after : Dialogue Hostings} {request : Request}
    {veto : Option String} {t : Task Hostings Unit}
    (h : Leads (run s) (before ++ ⟨.vetRequest request, veto⟩ :: after) t) :
    (∀ x ∈ before ++ after, ∀ other, x.question ≠ .vetRequest other) ∧
      ∃ front dr, before = front ++ dr ∧ Leads (receive Request) dr (.done request) := by
  obtain ⟨hbefore, hread⟩ := (orderly_of_leads h).once request rfl
  refine ⟨List.forall_mem_append.2 ⟨hbefore, fun x hx other hother => ?_⟩, hread⟩
  -- a later one would have this one before it
  obtain ⟨between, rest, rfl⟩ := List.append_of_mem hx
  have hsplit : before ++ ⟨.vetRequest request, veto⟩ :: (between ++ x :: rest) =
      before ++ ⟨.vetRequest request, veto⟩ :: between ++ x :: rest := by simp
  rw [hsplit] at h
  obtain ⟨hnone, _⟩ := (orderly_of_leads h).once other hother
  exact hnone ⟨.vetRequest request, veto⟩ (by simp) request rfl

/-- Nothing is asked after the leave. -/
theorem eq_nil_of_farewell {s : Setting} {before after : Dialogue Hostings}
    {x : Exchange Hostings} {t : Task Hostings Unit} (h : Leads (run s) (before ++ x :: after) t)
    (hx : x.question = .farewell) : after = [] := by
  cases after with
  | nil => rfl
  | cons y rest =>
    have hsplit : before ++ x :: y :: rest = before ++ [x] ++ y :: rest := by simp
    rw [hsplit] at h
    exact absurd hx ((orderly_of_leads h).last x (by simp))

end Serving

end Socks5

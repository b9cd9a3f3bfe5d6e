import Socks5.Proofs.Auth.Selection
import Socks5.Proofs.Session.Feed
import Socks5.Proofs.Session.Order

/-!
# How far a session gets with its client

A session whose methods are to let everybody in and to check a login, with an authenticator that
comes to a verdict on every login. How far it gets with a client whose offer it could read is a
matter of the bytes that it is fed (`resolves_letIn`). Main statement: a fed session that has come
to rest has chosen a method, and waits for its client, has failed, or carries out a request
(`served_of_settled`).
-/

namespace Socks5

namespace Serving

open Socks5.Task (Leads)
open Hosting (told heard)

variable {α : Type} {feed : Feed} {past d : Dialogue Hostings} {w rest : Bytes}

/-! ## Up to the request -/

/-- Reads a request and has it vetted. -/
def summon : Task Hostings Request :=
  (enter .awaitingCommand).bind fun _ =>
  (receive Request).bind fun request =>
  (ask (.vetRequest request)).bind fun
    | some reason => .fail (.aborted reason)
    | none => .done request

/-- Runs the method that was chosen for an offer, and reads a request. -/
def letIn (s : Setting) (offer : MethodOffer) : Task Hostings Request :=
  (onChannel (serverFor s.methods offer.methods)).bind fun verdict =>
  (welcome verdict).bind fun _ => summon

theorem obey_eq (s : Setting) : obey s = summon.bind (carryOut s) := by
  unfold obey summon
  simp only [Task.bind_assoc]
  refine congrArg (Task.bind (enter .awaitingCommand)) (funext fun _ => ?_)
  refine congrArg (Task.bind (receive Request)) (funext fun request => ?_)
  refine congrArg (Task.bind (ask (.vetRequest request))) (funext fun verdict => ?_)
  cases verdict <;> rfl

theorem authenticate_eq (s : Setting) (offer : MethodOffer) :
    authenticate s offer =
      (enter .authenticating).bind fun _ => (letIn s offer).bind (carryOut s) := by
  unfold authenticate letIn
  simp only [Task.bind_assoc, obey_eq]
  rfl

/-- An authenticator that comes to a verdict on every login. -/
def deciding (verdict : Login → Verdict) : Authenticator := fun login => some (verdict login)

/-- One of two methods: to let everybody in, or to check a login. -/
def IsPlain (verdict : Login → Verdict) (m : Method) : Prop :=
  m = .noAuth ∨ m = .userPass (some (deciding verdict)) none

variable {s : Setting} {selected : MethodId} {verdict : Login → Verdict} {offer : MethodOffer}
  {methods : List Method}

/-- What lets a client in, and what it has sent beyond that. -/
inductive Welcomed (selected : MethodId) (verdict : Login → Verdict) (rest : Bytes) :
    Bytes → Bytes → Prop where
  | anonymous (selects : selected = .noAuth) :
      Welcomed selected verdict rest [0x05, 0x00] rest
  | admitted {login : Login} {user : Option String} {rest' : Bytes}
      (selects : selected = .userPass)
      (presents : Login.decoder.parse rest = .finished (.ok login) rest')
      (admits : verdict login = .admitted user) :
      Welcomed selected verdict rest [0x05, 0x02, 0x01, 0x00] rest'

/-- How far a session gets from the choice of a method to a request, `rest` being what its client
sends after the offer: no method was acceptable; there is no login to be read, or it is refused;
the client is let in, and there is no request to be read, or it is vetoed; or it may be carried
out. -/
inductive Summoned (selected : MethodId) (verdict : Login → Verdict) (feed : Feed) (rest : Bytes)
    (d : Dialogue Hostings) : Option (Except Failure Request) → Prop where
  | unacceptable (selects : selected = .noAcceptable) (told : told d = [0x05, 0xFF])
      (front : ∀ x ∈ d, ¬ BehindGate x.question) :
      Summoned selected verdict feed rest d (some (.error .noAcceptableMethods))
  | unproven {result : Option (Except Failure Request)} (selects : selected = .userPass)
      (unread : Unreadable Login rest) (told : told d = [0x05, 0x02])
      (front : ∀ x ∈ d, ¬ BehindGate x.question)
      (unsettled : ∀ request, result ≠ some (.ok request)) :
      Summoned selected verdict feed rest d result
  | denied {login : Login} {rest' : Bytes} {reason : String} (selects : selected = .userPass)
      (presents : Login.decoder.parse rest = .finished (.ok login) rest')
      (refuses : verdict login = .refused reason) (told : told d = [0x05, 0x02, 0x01, 0x01])
      (front : ∀ x ∈ d, ¬ BehindGate x.question) :
      Summoned selected verdict feed rest d
        (some (.error (.authentication (.refused login.username reason))))
  | idle {w rest' : Bytes} {result : Option (Except Failure Request)}
      (welcomed : Welcomed selected verdict rest w rest') (unread : Unreadable Request rest')
      (told : told d = w) (awaits : ⟨.enter .awaitingCommand, ()⟩ ∈ d)
      (unsettled : ∀ request, result ≠ some (.ok request)) :
      Summoned selected verdict feed rest d result
  | vetoed {request : Request} {reason : String}
      (vetoes : ⟨.vetRequest request, some reason⟩ ∈ d) :
      Summoned selected verdict feed rest d (some (.error (.aborted reason)))
  | asked {w rest' rest'' : Bytes} {request : Request} {before : Dialogue Hostings}
      (welcomed : Welcomed selected verdict rest w rest')
      (asks : Request.decoder.parse rest' = .finished (.ok request) rest'')
      (fed : Fed feed d w rest'') (awaits : ⟨.enter .awaitingCommand, ()⟩ ∈ d)
      (split : d = before ++ [⟨.vetRequest request, none⟩]) (unvetted : Unvetted before) :
      Summoned selected verdict feed rest d (some (.ok request))

theorem unvetted_of_front (h : ∀ x ∈ d, ¬ BehindGate x.question) : Unvetted d := by
  intro x hx request hq
  have hfront := h x hx
  rw [hq] at hfront
  exact hfront trivial

/-- A client that was let in is asked for a request. -/
theorem resolves_summon {rest' : Bytes} (welcomed : Welcomed selected verdict rest w rest')
    (h : Fed feed past w rest') (hunvetted : Unvetted past) :
    summon.Resolves feed.terms (Summoned selected verdict feed rest) past := by
  refine Task.keeps_ask.2 ⟨fun hnone => absurd trivial (hnone ()), fun _ _ => ?_⟩
  let here := past ++ [⟨.enter .awaitingCommand, ()⟩]
  have hawaits : ∀ p, (⟨.enter .awaitingCommand, ()⟩ : Exchange Hostings) ∈ here ++ p := by
    intro p
    simp [here]
  have hfed : Fed feed here w rest' := h.concat rfl
  have hunvetted : Unvetted here :=
    List.forall_mem_append.2 ⟨hunvetted, List.forall_mem_singleton.2 nofun⟩
  refine (hfed.keeps_receive fun hunread d rest'' _ hfed => ?_).bind ?_ ?_
  · exact .idle welcomed hunread hfed.told (hawaits d) nofun
  · rintro p request ⟨d, rest'', rfl, hstream, hfed, hparse, _⟩
    have hunvetted : Unvetted (here ++ d) :=
      hunvetted.append_routine fun x hx => isRoutine_of_ofStream (hstream x hx)
    refine Task.keeps_ask.2 ⟨fun hnone => absurd trivial (hnone none), fun veto _ => ?_⟩
    cases veto with
    | some reason =>
      exact Task.keeps_fail.2 (.vetoed (List.mem_append_right _ (List.mem_singleton.2 rfl)))
    | none =>
      exact Task.keeps_done.2 (.asked welcomed (hparse request rfl) (hfed.concat rfl)
        (List.mem_append_left _ (hawaits d)) rfl hunvetted)
  · rintro p e ⟨d, rest'', rfl, _, hfed, _, hunread⟩
    exact .idle welcomed (hunread e rfl) hfed.told (hawaits d) nofun

/-- A login that is fed comes to what is decided on it. -/
theorem resolves_checkLogin (selects : selected = .userPass)
    (h : Stage feed past [0x05, 0x02] rest) :
    ((onChannel (Method.checkLogin (deciding verdict))).bind fun v =>
      (welcome v).bind fun _ => summon).Resolves feed.terms
        (Summoned selected verdict feed rest) past := by
  rw [onChannel_checkLogin]
  simp only [Task.bind_assoc]
  refine h.receive_bind ?_ fun p login rest' hparse h => ?_
  · intro hunread p rest' result hunsettled h
    exact .unproven selects hunread h.told h.front hunsettled
  refine h.ask_bind (q := .channel (.consult (deciding verdict login))) id id ?_ fun v hv h => ?_
  · intro hnone
    exact absurd rfl (hnone (verdict login))
  obtain rfl : verdict login = v := Option.some.inj hv
  cases hverdict : verdict login with
  | refused reason =>
    rw [hverdict] at h
    have hencode : Message.encode (LoginReply.ofVerdict (.refused reason)) = .ok [0x01, 0x01] := rfl
    refine h.deliver_bind hencode fun p h => ?_
    exact Task.keeps_fail.2 (.denied selects hparse hverdict h.told h.front)
  | admitted user =>
    rw [hverdict] at h
    have hencode : Message.encode (LoginReply.ofVerdict (.admitted user)) = .ok [0x01, 0x00] := rfl
    refine h.deliver_bind hencode fun p hstage => ?_
    have hwelcomed : Welcomed selected verdict rest [0x05, 0x02, 0x01, 0x00] rest' :=
      .admitted selects hparse hverdict
    cases user with
    | none => exact resolves_summon hwelcomed hstage.toFed (unvetted_of_front hstage.front)
    | some user =>
      refine hstage.pass_bind (q := .note (.authenticated user)) id id ⟨(), trivial⟩ fun _ _ h => ?_
      refine Task.keeps_ask.2 ⟨fun hnone => absurd trivial (hnone ()), fun _ _ => ?_⟩
      refine resolves_summon hwelcomed (h.toFed.concat rfl) ?_
      exact List.forall_mem_append.2
        ⟨unvetted_of_front h.front, List.forall_mem_singleton.2 nofun⟩

/-- How far a session gets with a client for which it has chosen a method is a matter of the bytes
that it is fed. -/
theorem resolves_letIn (hs : s.methods = .ofList methods)
    (hmethods : ∀ m ∈ methods, IsPlain verdict m)
    (h : Stage feed past [0x05, s.methods.select offer.methods] rest) :
    (letIn s offer).Resolves feed.terms
      (Summoned (s.methods.select offer.methods) verdict feed rest) past := by
  have hids : ∀ m ∈ methods, m.id ≠ .noAcceptable := by
    intro m hm
    rcases hmethods m hm with rfl | rfl
    · exact nofun
    · exact nofun
  unfold letIn serverFor
  rcases MethodRegistry.select_ofList_cases hids offer.methods with
    ⟨m, hm, hselect, hresolve⟩ | ⟨hselect, hresolve⟩
  · rw [hs] at h ⊢
    rw [hresolve]
    rw [hselect] at h ⊢
    rcases hmethods m hm with rfl | rfl
    · exact resolves_summon (.anonymous rfl) h.toFed (unvetted_of_front h.front)
    · exact resolves_checkLogin rfl h
  · rw [hs] at h ⊢
    rw [hresolve]
    rw [hselect] at h ⊢
    refine h.pass_bind (q := .channel .close) id id ⟨(), trivial⟩ fun _ _ h => ?_
    exact Task.keeps_fail.2 (.unacceptable rfl h.told h.front)

/-! ## A session at rest -/

/-- A method is chosen for the offer that leads the feed. -/
theorem resolves_choose (h : Stage feed past [] feed.bytes) (methods : MethodRegistry) :
    (choose methods).Resolves feed.terms (fun p result =>
      (Unreadable MethodOffer feed.bytes ∧ ∀ offer, result ≠ some (.ok offer)) ∨
        ∃ offer rest, result = some (.ok offer) ∧
          MethodOffer.decoder.parse feed.bytes = .finished (.ok offer) rest ∧
          Stage feed p [0x05, methods.select offer.methods] rest) past := by
  unfold choose
  refine h.pass_bind (q := .enter .negotiating) id id ⟨(), trivial⟩ fun _ _ h => ?_
  refine h.receive_bind ?_ fun p offer rest hparse h => ?_
  · intro hunread p rest' result hunsettled _
    exact .inl ⟨hunread, hunsettled⟩
  refine h.pass_bind (q := .note _) id id ⟨(), trivial⟩ fun _ _ h => ?_
  have hencode : Message.encode (MethodChoice.mk (methods.select offer.methods)) =
      .ok [0x05, methods.select offer.methods] := rfl
  refine h.deliver_bind hencode fun p h => ?_
  exact Task.keeps_done.2 (.inr ⟨offer, rest, rfl, hparse, h⟩)

/-- A session goes on after every question that does not wait for its client. -/
theorem not_settled_ask {q : Hosting.Ask} {next : Hosting.Answer q → Task Hostings α}
    {a : Hosting.Answer q} (ha : feed.Allows past q a) :
    ¬ (Task.ask (I := Hostings) q next).Settled feed.terms past :=
  fun hsettled => hsettled q next rfl a ha

/-- A session at rest whose client's offer could be read has chosen a method for it. -/
theorem chosen_of_settled {t : Task Hostings Unit} (h : Leads (run s) d t)
    (hd : feed.terms.Honoured [] d) (hsettled : t.Settled feed.terms d)
    (hoffer : MethodOffer.decoder.parse feed.bytes = .finished (.ok offer) rest) :
    ∃ front back, d = front ++ back ∧ Chosen s.methods offer.methods front ∧
      Stage feed front [0x05, s.methods.select offer.methods] rest ∧
      Leads (((letIn s offer).bind (carryOut s)).attempt.bind finish) back t := by
  have hstage : Stage feed [⟨.vetSession, none⟩] [] feed.bytes :=
    (stage_nil feed).concat rfl id
  have hread : ¬ Unreadable MethodOffer feed.bytes := fun hunread => hunread offer rest hoffer
  cases leads_run h with
  | start =>
    rw [run_eq] at hsettled
    exact absurd hsettled (not_settled_ask (q := .vetSession) (a := none) rfl)
  | vetoed ends => cases hd.1
  | @choosing d u chooses =>
    cases u with
    | done offer' =>
      exact absurd hsettled (not_settled_ask (q := .enter .authenticating) (a := ()) trivial)
    | fail e =>
      exact absurd hsettled (not_settled_ask (q := .note _) (a := ()) trivial)
    | ask q next =>
      -- it waits for its client, who has said all of its offer
      have hcase := (resolves_choose hstage s.methods).of_settled chooses hd.2
        hsettled.of_bind.of_attempt.of_bind
      rcases hcase with ⟨hunread, _⟩ | ⟨_, _, hnone, _⟩
      · exact absurd hunread hread
      · cases hnone
  | @unchosen e d₁ d₂ _ chooses ends =>
    have hd₁ := (Terms.honoured_append.1 hd.2).1
    have hcase := (resolves_choose hstage s.methods).of_settled chooses hd₁
      (Task.settled_fail e)
    rcases hcase with ⟨hunread, _⟩ | ⟨_, _, herror, _⟩
    · exact absurd hunread hread
    · cases herror
  | @chosen offer' d₁ d₂ _ chooses goesOn =>
    have hd₁ := (Terms.honoured_append.1 hd.2).1
    have hcase := (resolves_choose hstage s.methods).of_settled chooses hd₁
      (Task.settled_done offer')
    rcases hcase with ⟨_, hnot⟩ | ⟨_, rest', heq, hparse, hstage⟩
    · exact absurd rfl (hnot offer')
    cases heq
    rw [hoffer] at hparse
    cases hparse
    rw [authenticate_eq] at goesOn
    rcases leads_ask_bind goesOn with ⟨_, rfl⟩ | ⟨_, d', rfl, hletIn⟩
    · exact absurd hsettled (not_settled_ask (q := .enter .authenticating) (a := ()) trivial)
    · exact ⟨_, d', List.append_cons _ _ _, chosen_of_leads chooses, hstage.concat rfl id, hletIn⟩

/-- How a session stands that has come to rest: it waits for its client, it has failed before a
request was read, or a request is carried out. -/
inductive Served (s : Setting) (selected : MethodId) (verdict : Login → Verdict) (feed : Feed)
    (rest : Bytes) (d : Dialogue Hostings) (t : Task Hostings Unit) : Prop where
  | waits (summoned : Summoned selected verdict feed rest d none) :
      Served s selected verdict feed rest d t
  | failed {e : Failure} {before after : Dialogue Hostings} (split : d = before ++ after)
      (summoned : Summoned selected verdict feed rest before (some (.error e)))
      (ends : Leads (finish (.error e)) after t) : Served s selected verdict feed rest d t
  | obeys {request : Request} {before after : Dialogue Hostings} (split : d = before ++ after)
      (summoned : Summoned selected verdict feed rest before (some (.ok request)))
      (carries : Leads ((carryOut s request).attempt.bind finish) after t) :
      Served s selected verdict feed rest d t

theorem served_of_settled {t : Task Hostings Unit} (hs : s.methods = .ofList methods)
    (hmethods : ∀ m ∈ methods, IsPlain verdict m) (h : Leads (run s) d t)
    (hd : feed.terms.Honoured [] d) (hsettled : t.Settled feed.terms d)
    (hoffer : MethodOffer.decoder.parse feed.bytes = .finished (.ok offer) rest) :
    (∃ front back, d = front ++ back ∧ Chosen s.methods offer.methods front) ∧
      Served s (s.methods.select offer.methods) verdict feed rest d t := by
  obtain ⟨front, back, rfl, hchosen, hstage, hback⟩ := chosen_of_settled h hd hsettled hoffer
  refine ⟨⟨front, back, rfl, hchosen⟩, ?_⟩
  have hresolves := resolves_letIn hs hmethods hstage
  have hd := (Terms.honoured_append.1 hd).2
  rcases Task.leads_bind_attempt_bind hback with
    ⟨u, hu, rfl⟩ | ⟨e, d₁, d₂, rfl, h₁, h₂⟩ | ⟨request, d₁, d₂, rfl, h₁, h₂⟩
  · have hcase := hresolves.of_settled hu hd hsettled.of_bind.of_attempt.of_bind
    cases u with
    | done request => exact .obeys (List.append_nil _).symm hcase (.refl _)
    | fail e => exact .failed (List.append_nil _).symm hcase (.refl _)
    | ask q next => exact .waits hcase
  · have hd₁ := (Terms.honoured_append.1 hd).1
    have hcase := hresolves.of_settled h₁ hd₁ (Task.settled_fail e)
    exact .failed (List.append_assoc front d₁ d₂).symm hcase h₂
  · have hd₁ := (Terms.honoured_append.1 hd).1
    have hcase := hresolves.of_settled h₁ hd₁ (Task.settled_done request)
    exact .obeys (List.append_assoc front d₁ d₂).symm hcase h₂

/-- A session that ends and has come to rest is over. -/
theorem over_of_finish {outcome : Except Failure Unit} {t : Task Hostings Unit}
    (h : Leads (finish outcome) d t) (hsettled : t.Settled feed.terms (past ++ d)) :
    t = .done () ∧ ⟨.note (.ended outcome), ()⟩ ∈ d ∧ told d = [] := by
  rcases leads_ask_bind h with ⟨_, rfl⟩ | ⟨_, d₁, rfl, h₁⟩
  · exact absurd hsettled (not_settled_ask (q := .note _) (a := ()) trivial)
  rcases leads_ask_bind (q := .channel .close) h₁ with ⟨_, rfl⟩ | ⟨_, d₂, rfl, h₂⟩
  · exact absurd hsettled (not_settled_ask (q := .channel .close) (a := ()) trivial)
  rcases leads_ask_bind (f := .done) h₂ with ⟨_, rfl⟩ | ⟨_, d₃, rfl, h₃⟩
  · exact absurd hsettled (not_settled_ask (q := .farewell) (a := ()) trivial)
  obtain ⟨rfl, rfl⟩ := Task.leads_done_iff.1 h₃
  exact ⟨rfl, List.mem_cons_self, rfl⟩

end Serving

end Socks5

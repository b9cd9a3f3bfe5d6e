import Socks5.Proofs.Session.Replies

/-!
# Answering a request

Carrying out a command keeps to the words of the session, whatever the host answers: every path
says one reply, or two for a connection that was awaited, and copies nothing before they are out.
Main statement: so it is with every request that was read and not vetoed (`speaks_carryOut`).
-/

namespace Socks5.Serving

open Socks5.Task (Leads)

variable {α β : Type} {past : Dialogue Hostings} {w bytes : Bytes}

/-! ## Questions that say nothing -/

/-- What is asked without a word to the client, and without a veto. -/
def IsPassive : Hosting.Ask → Prop
  | .channel (.stream _) | .vetSession | .vetRequest _ => False
  | _ => True

/-- What is asked without a word, and without copying anything. -/
def IsAside (q : Hosting.Ask) : Prop := IsPassive q ∧ ¬ CopiesData q

theorem isIdle_of_isPassive {q : Hosting.Ask} (h : IsPassive q) (a : Hosting.Answer q) :
    IsIdle ⟨q, a⟩ := by
  refine ⟨?_, ?_⟩
  · intro y hy
    cases Hosting.eq_onClient_of_onClient? hy
    exact h.elim
  · rintro (reason | ⟨request, reason⟩)
    · exact h
    · exact h

/-- What is asked to copy bytes to a connection, or between it and the client. -/
def OfCopying : Hosting.Ask → Prop
  | .note _ | .peer _ | .relay _ => True
  | _ => False

/-- What is asked to relay. -/
def OfRelay : Hosting.Ask → Prop
  | .enter _ | .note _ | .peer _ | .relay _ => True
  | _ => False

/-- What is asked to forward datagrams. -/
def OfForwarding : Hosting.Ask → Prop
  | .enter _ | .note _ | .startForwarding | .hold | .stopForwarding => True
  | _ => False

theorem ofRelay_of_ofCopying {q : Hosting.Ask} (h : OfCopying q) : OfRelay q := by
  cases q with
  | note _ | peer _ | relay _ => trivial
  | _ => exact h.elim

theorem isPassive_of_ofRelay {q : Hosting.Ask} (h : OfRelay q) : IsPassive q := by
  cases q with
  | enter _ | note _ | peer _ | relay _ => trivial
  | _ => exact h.elim

theorem isPassive_of_ofForwarding {q : Hosting.Ask} (h : OfForwarding q) : IsPassive q := by
  cases q with
  | enter _ | note _ | startForwarding | hold | stopForwarding => trivial
  | _ => exact h.elim

theorem eq_of_ofForwarding {q : Hosting.Ask} (h : OfForwarding q) (hcopies : CopiesData q) :
    q = .startForwarding := by
  cases q with
  | startForwarding => rfl
  | relay _ | peer _ => exact h.elim
  | _ => exact hcopies.elim

theorem isAside_of_ofEnding {q : Hosting.Ask} (h : OfEnding q) : IsAside q := by
  cases q with
  | note _ | farewell => exact ⟨trivial, id⟩
  | channel c =>
    cases c with
    | close => exact ⟨trivial, id⟩
    | _ => exact h.elim
  | _ => exact h.elim

theorem asksOnly_inTime {kind : Hosting.Ask → Prop} {limit : Option Duration} (what : String)
    (answer : Hosting.Timed limit α) : (inTime what answer).AsksOnly kind := by
  cases answer <;> trivial

/-- Addresses are dialled, and it is noted of each that it was not reached. -/
theorem asksOnly_connectFirst {kind : Hosting.Ask → Prop}
    (hconnect : ∀ limit address, kind (.connect limit address)) (hnote : ∀ n, kind (.note n))
    (limit : Option Duration) (target : Target) (last : Option IoFailure)
    (addresses : List SocketAddr) : (connectFirst limit target last addresses).AsksOnly kind := by
  induction addresses generalizing last with
  | nil => trivial
  | cons address rest ih =>
    refine .bind (asksOnly_ask (hconnect _ _)) fun answer =>
      .bind (asksOnly_inTime "connect" answer) fun outcome => ?_
    cases outcome with
    | ok _ => trivial
    | error cause => exact .bind (asksOnly_ask (hnote _)) fun _ => ih _

/-- Only names are looked up for the addresses of a target. -/
theorem asksOnly_addresses {kind : Hosting.Ask → Prop}
    (hkind : ∀ limit name port, kind (.lookup limit name port)) (limit : Option Duration)
    (target : Target) : (addresses limit target).AsksOnly kind := by
  unfold addresses
  cases target.host with
  | ip a =>
    dsimp only
    refine .bind trivial fun found => ?_
    cases target.resolveAll fun _ _ => found <;> trivial
  | domain name =>
    dsimp only
    refine .bind (asksOnly_ask (hkind _ _ _)) fun answer =>
      .bind (asksOnly_inTime "connect" answer) fun found => ?_
    cases target.resolveAll fun _ _ => found <;> trivial

/-- What is asked until a target is reached, or cannot be. -/
theorem asksOnly_attempt {kind : Hosting.Ask → Prop}
    (hlookup : ∀ limit name port, kind (.lookup limit name port))
    (hconnect : ∀ limit address, kind (.connect limit address)) (hnote : ∀ n, kind (.note n))
    (limit : Option Duration) (target : Target) :
    ((addresses limit target).bind fun found =>
      connectFirst limit target none found).AsksOnly kind :=
  .bind (asksOnly_addresses hlookup limit target) fun found =>
    asksOnly_connectFirst hconnect hnote limit target none found

theorem asksOnly_welcome (verdict : Verdict) : (welcome verdict).AsksOnly IsAside := by
  match verdict with
  | .admitted (some user) =>
    exact .bind (asksOnly_ask ⟨trivial, id⟩) fun _ => asksOnly_ask ⟨trivial, id⟩
  | .admitted none => trivial
  | .refused _ => trivial

theorem asksOnly_onPeer (t : Task Streams α) : (onPeer t).AsksOnly OfCopying := by
  induction t with
  | done a => trivial
  | fail e => trivial
  | ask q next ih => exact ⟨trivial, ih⟩

theorem asksOnly_handOver (bytes : Bytes) : (handOver bytes).AsksOnly OfCopying := by
  refine .bind (asksOnly_onPeer _).attempt fun outcome => ?_
  match outcome with
  | .ok _ => trivial
  | .error e => cases e <;> trivial

theorem asksOnly_relay (s : Setting) : (relay s).AsksOnly OfCopying := by
  refine .bind (asksOnly_ask trivial) fun outcome => ?_
  cases outcome with
  | ok stats => exact asksOnly_ask trivial
  | error e => trivial

/-- A failure is told with a reply, and with nothing else. -/
theorem asksOnly_reject {kind : Hosting.Ask → Prop}
    (hkind : ∀ reply : Reply, (deliver reply).AsksOnly kind) (e : Failure) :
    (reject e : Task Hostings α).AsksOnly kind := by
  unfold reject
  split
  · trivial
  · exact .bind (hkind _) fun _ => trivial

theorem asksOnly_obtain {kind : Hosting.Ask → Prop}
    (hkind : ∀ reply : Reply, (deliver reply).AsksOnly kind) (answer : Except IoFailure α) :
    (obtain answer).AsksOnly kind := by
  cases answer with
  | ok a => trivial
  | error cause => exact asksOnly_reject hkind (.resource cause)

/-! ## Failures that are told -/

/-- A failure of which the client is not told as of a success. -/
def IsTold (e : Failure) : Prop := e.replyCode ≠ .succeeded

theorem isTold_unreached (cause : IoFailure) : IsTold (.unreached cause) := by
  show cause.kind.replyCode ≠ .succeeded
  cases cause.kind <;> exact nofun

theorem failsOnly_inTime {limit : Option Duration} (what : String)
    (answer : Hosting.Timed limit α) : (inTime what answer).FailsOnly IsTold := by
  cases answer with
  | value a => trivial
  | expired after h => exact nofun
  | closed => exact nofun

theorem failsOnly_ask {kind : Failure → Prop} (q : Hosting.Ask) :
    (ask q).FailsOnly (I := Hostings) kind := fun _ => trivial

theorem failsOnly_connectFirst (limit : Option Duration) (target : Target)
    (last : Option IoFailure) (addresses : List SocketAddr) :
    (connectFirst limit target last addresses).FailsOnly IsTold := by
  induction addresses generalizing last with
  | nil => exact isTold_unreached _
  | cons address rest ih =>
    refine .bind (failsOnly_ask _) fun answer =>
      .bind (failsOnly_inTime "connect" answer) fun outcome => ?_
    cases outcome with
    | ok _ => trivial
    | error cause => exact .bind (failsOnly_ask _) fun _ => ih _

theorem failsOnly_addresses (limit : Option Duration) (target : Target) :
    (addresses limit target).FailsOnly IsTold := by
  have htold : ∀ cause, IsTold (.network .hostUnreachable cause) := fun _ => nofun
  unfold addresses
  cases target.host with
  | ip a =>
    dsimp only
    refine .bind trivial fun found => ?_
    cases target.resolveAll fun _ _ => found with
    | ok addresses => trivial
    | error cause => exact htold cause
  | domain name =>
    dsimp only
    refine .bind (failsOnly_ask _) fun answer =>
      .bind (failsOnly_inTime "connect" answer) fun found => ?_
    cases target.resolveAll fun _ _ => found with
    | ok addresses => trivial
    | error cause => exact htold cause

/-! ## Answering a request -/

/-- Work that keeps to the words of the session. -/
def Speaks (past : Dialogue Hostings) (t : Task Hostings α) : Prop :=
  t.Keeps replyTerms past fun p _ => Spoken p

/-- A request is being answered: a client that was let in with `w` has heard nothing of it, or that
its command awaits a connection, in `bytes`. -/
structure Answering (past : Dialogue Hostings) (request : Request) (w bytes : Bytes) : Prop where
  handshake : Handshake past w
  vetted : ⟨.vetRequest request, none⟩ ∈ past
  begun : bytes = [] ∨ Success past .bind bytes
  poised : Poised past (w ++ bytes)

namespace Answering

variable {request : Request}

theorem word (h : Answering past request w bytes) : Word past (w ++ bytes) := by
  rcases h.begun with rfl | hsuccess
  · rw [List.append_nil]
    exact .greeting h.handshake
  · exact .answered h.handshake (.success hsuccess)

theorem spoken (h : Answering past request w bytes) : Spoken past :=
  h.poised.spoken h.word.front

theorem concat (h : Answering past request w bytes) {x : Exchange Hostings} (hx : IsIdle x) :
    Answering (past ++ [x]) request w bytes := by
  have hsub : past ⊆ past ++ [x] := List.subset_append_left past [x]
  exact ⟨h.handshake.mono hsub, hsub h.vetted, h.begun.imp_right fun hs => hs.mono hsub,
    h.poised.concat hx⟩

theorem append (h : Answering past request w bytes) {d' : Dialogue Hostings}
    (hd' : ∀ x ∈ d', IsIdle x) : Answering (past ++ d') request w bytes := by
  have hsub : past ⊆ past ++ d' := List.subset_append_left past d'
  exact ⟨h.handshake.mono hsub, hsub h.vetted, h.begun.imp_right fun hs => hs.mono hsub,
    h.poised.append hd'⟩

end Answering

variable {request : Request}

theorem exists_encode_success (a : SocketAddr) :
    ∃ bytes, (Reply.success a).encode = .ok bytes := by
  obtain ⟨ip, port, zone⟩ := a
  cases ip <;> exact ⟨_, rfl⟩

/-- A client that is told of a failure is told the code of it, and an address of nothing. -/
theorem encode_failure (code : ReplyCode) :
    (Reply.failure code).encode = .ok ([version, code.toByte, reserved, AddressType.ipv4.toByte] ++
      [0, 0, 0, 0] ++ [0, 0]) := by
  have hport : (Octets.ofWord (0 : Port)).val = [0, 0] := by decide
  rw [← hport]
  rfl

theorem speaks_fail (h : Spoken past) (e : Failure) :
    Speaks past (.fail e : Task Hostings α) := Task.keeps_fail.2 h

/-- What is asked aside does not change how a request is being answered. -/
theorem Answering.ask_bind (h : Answering past request w bytes) {q : Hosting.Ask}
    {f : Hosting.Answer q → Task Hostings α} (hq : IsAside q)
    (hnext : ∀ a, Answering (past ++ [⟨q, a⟩]) request w bytes → Speaks (past ++ [⟨q, a⟩]) (f a)) :
    Speaks past ((ask q).bind f) :=
  keeps_ask_bind h.spoken hq.2 fun a => hnext a (h.concat (isIdle_of_isPassive hq.1 a))

/-- Work that says nothing keeps to the words, as long as it copies only what it may. -/
theorem speaks_of_isPassive {kind : Hosting.Ask → Prop} {t : Task Hostings α} (h : Spoken past)
    (hkind : t.AsksOnly kind) (hpassive : ∀ q, kind q → IsPassive q)
    (hready : ∀ q, kind q → CopiesData q → ReadyFor past q) : Speaks past t := by
  have hidle : ∀ q, kind q → ∀ a, IsIdle ⟨q, a⟩ := fun q hq => isIdle_of_isPassive (hpassive q hq)
  refine (keeps_of_isIdle h hkind hidle hready).weaken ?_
  intro p r hp
  obtain ⟨d', rfl, hd', _⟩ := hp
  exact h.append hd'

/-- A message that continues a word, and what comes after it. -/
theorem speaks_deliver_bind [Message β] {message : β} {f : Unit → Task Hostings α}
    (h : Poised past w) (hencode : Message.encode message = .ok bytes)
    (hw : Front past (w ++ bytes))
    (hnext : ∀ p, past ⊆ p → Poised p (w ++ bytes) → Speaks p (f ())) :
    Speaks past ((deliver message).bind f) := by
  refine (keeps_deliver h hencode hw).bind ?_ ?_
  · intro p _ hp
    obtain ⟨_, hsub, hpoised⟩ := hp
    exact hnext p hsub (hpoised rfl)
  · intro p e hp
    obtain ⟨hspoken, _⟩ := hp
    exact hspoken

/-- A message that continues a word, and what comes after it or after the failure to say it. -/
theorem speaks_deliver_attempt_bind [Message β] {message : β}
    {f : Except Failure Unit → Task Hostings α} (h : Poised past w)
    (hencode : Message.encode message = .ok bytes) (hw : Front past (w ++ bytes))
    (hok : ∀ p, past ⊆ p → Poised p (w ++ bytes) → Speaks p (f (.ok ())))
    (herr : ∀ p e, Spoken p → Speaks p (f (.error e))) :
    Speaks past ((deliver message).attempt.bind f) := by
  refine (keeps_deliver h hencode hw).attempt_bind ?_
  intro p outcome hp
  obtain ⟨hspoken, hsub, hpoised⟩ := hp
  cases outcome with
  | ok _ => exact hok p hsub (hpoised rfl)
  | error e => exact herr p e hspoken

/-- A client is told of a failure. -/
theorem speaks_reject (h : Answering past request w bytes) {e : Failure} (he : IsTold e) :
    Speaks past (reject e : Task Hostings α) := by
  unfold reject
  by_cases hclosed : e = .closed
  · rw [if_pos hclosed]
    exact speaks_fail h.spoken e
  · rw [if_neg hclosed]
    -- the reply is the first one, or the second one after the success of the first
    obtain ⟨bytes', hencode, hrefusal⟩ : ∃ bytes', (Reply.failure e.replyCode).encode = .ok bytes' ∧
        Refusal past bytes' := ⟨_, encode_failure _, .refused h.vetted he⟩
    have hword : Word past (w ++ bytes ++ bytes') := by
      rcases h.begun with hnil | hsuccess
      · rw [hnil, List.append_nil]
        exact .answered h.handshake (.refusal hrefusal)
      · rw [List.append_assoc]
        exact .answered h.handshake (.late hsuccess hrefusal)
    exact speaks_deliver_bind h.poised hencode hword.front fun p hsub hpoised =>
      speaks_fail (hpoised.spoken (hword.mono hsub).front) e

/-- Nothing comes after a failure that the client is told of. -/
theorem reject_bind (e : Failure) (f : β → Task Hostings α) :
    (reject e : Task Hostings β).bind f = reject e := by
  unfold reject
  by_cases hclosed : e = .closed
  · rw [if_pos hclosed, if_pos hclosed, Task.fail_bind]
  · rw [if_neg hclosed, if_neg hclosed, Task.bind_eq, Task.bind_assoc]
    rfl

theorem speaks_reject_bind (h : Answering past request w bytes) {e : Failure} (he : IsTold e)
    (f : β → Task Hostings α) : Speaks past ((reject e : Task Hostings β).bind f) := by
  rw [reject_bind]
  exact speaks_reject h he

theorem speaks_obtain_bind (h : Answering past request w bytes) {answer : Except IoFailure β}
    {f : β → Task Hostings α} (hnext : ∀ a, answer = .ok a → Speaks past (f a)) :
    Speaks past ((obtain answer).bind f) := by
  cases answer with
  | ok a => exact hnext a rfl
  | error cause => exact speaks_reject_bind (e := .resource cause) h nofun f

theorem speaks_inbound_bind (h : Answering past request w bytes) {limit : Option Duration}
    {answer : Hosting.Inbound limit} {f : SocketAddr × Bytes → Task Hostings α}
    (hnext : ∀ peer early, answer = .arrived peer early → Speaks past (f (peer, early))) :
    Speaks past ((inbound answer).bind f) := by
  cases answer with
  | arrived peer early => exact hnext peer early rfl
  | failed cause => exact speaks_reject_bind h (isTold_unreached cause) f
  | expired after hlimit => exact speaks_reject_bind (e := expiry "bind accept" after) h nofun f
  | clientGone =>
    exact h.ask_bind (q := .channel .close) ⟨trivial, id⟩ fun _ h => speaks_fail h.spoken .closed
  | closed => exact speaks_fail h.spoken .closed

/-! ## Commands -/

/-- What is copied for CONNECT and BIND is copied by relaying. -/
theorem speaks_relaying (h : Spoken past) {t : Task Hostings α} (hkind : t.AsksOnly OfRelay)
    (hready : ∀ q, q ≠ .startForwarding → ReadyFor past q) : Speaks past t := by
  refine speaks_of_isPassive h hkind (fun q => isPassive_of_ofRelay) fun q hq _ => hready q ?_
  rintro rfl
  exact hq

theorem Answering.word_success {command : Command} (h : Answering past request w [])
    (hsuccess : Success past command bytes) : Word past (w ++ [] ++ bytes) := by
  rw [List.append_nil]
  exact .answered h.handshake (.success hsuccess)

/-- A client is told of a success, and what that grants follows. -/
theorem speaks_success_bind {command : Command} {a : SocketAddr} {f : Unit → Task Hostings α}
    (h : Answering past request w []) (hsuccess : Success past command bytes)
    (hencode : (Reply.success a).encode = .ok bytes)
    (hnext : ∀ p, past ⊆ p → Poised p (w ++ bytes) → Spoken p → Speaks p (f ())) :
    Speaks past ((deliver (Reply.success a)).bind f) := by
  have hword := h.word_success hsuccess
  refine speaks_deliver_bind h.poised hencode hword.front fun p hsub hpoised => ?_
  have hspoken := hpoised.spoken (hword.mono hsub).front
  rw [List.append_nil] at hpoised
  exact hnext p hsub hpoised hspoken

/-- Addresses are dialled until one accepts: success is a connection. -/
theorem hasReached_of_connectFirst {limit : Option Duration} {target : Target}
    {last : Option IoFailure} {addresses : List SocketAddr} {d : Dialogue Hostings}
    (h : Leads (connectFirst limit target last addresses) d (.done ())) : HasReached d := by
  induction addresses generalizing last d with
  | nil =>
    obtain ⟨-, hfails⟩ := Task.leads_fail_iff.1 h
    cases hfails
  | cons address rest ih =>
    obtain ⟨answer, d₁, d', rfl, hask, h'⟩ := Task.leads_bind_done_iff.1 h
    obtain rfl := leads_ask_done_iff.1 hask
    cases answer with
    | closed => cases (Task.leads_fail_iff.1 h').2
    | expired after hlimit => cases (Task.leads_fail_iff.1 h').2
    | value outcome =>
      cases outcome with
      | ok _ => exact ⟨limit, address, List.mem_cons_self⟩
      | error cause =>
        obtain ⟨⟨⟩, _, d'', rfl, _, h''⟩ :=
          (Task.leads_bind_done_iff (t := note (.unreached address cause))).1 h'
        exact (ih h'').mono (by simp [← List.append_assoc])

/-- The attempt to connect says nothing. It succeeds only with a connection, and fails only in ways
that the client can be told. -/
theorem keeps_attempt (h : Answering past request w []) (limit : Option Duration)
    (target : Target) :
    ((addresses limit target).bind fun found =>
        connectFirst limit target none found).Keeps replyTerms past
      fun p r => Answering p request w [] ∧ (r = .ok () → HasReached p) ∧
        ∀ e, r = .error e → IsTold e := by
  have hasks : ((addresses limit target).bind fun found =>
      connectFirst limit target none found).AsksOnly IsAside :=
    asksOnly_attempt (fun _ _ _ => ⟨trivial, id⟩) (fun _ _ => ⟨trivial, id⟩)
      (fun _ => ⟨trivial, id⟩) limit target
  have hfails := Task.FailsOnly.bind (failsOnly_addresses limit target) fun found =>
    failsOnly_connectFirst limit target none found
  refine (keeps_of_isIdle h.spoken hasks (fun q hq => isIdle_of_isPassive hq.1)
    fun q hq hcopies => absurd hcopies hq.2).weaken ?_
  intro p r hp
  obtain ⟨d', rfl, hd', hl⟩ := hp
  refine ⟨h.append hd', ?_, ?_⟩
  · rintro rfl
    obtain ⟨_, d₁, d₂, rfl, _, hdialled⟩ := Task.leads_bind_done_iff.1 hl
    exact (hasReached_of_connectFirst hdialled).mono (by simp [← List.append_assoc])
  · rintro e rfl
    exact hfails.of_leads hl

theorem speaks_connect (s : Setting) (target : Target)
    (h : Answering past request w []) (hcommand : request.command? = some .connect) :
    Speaks past (connect s target) := by
  unfold connect
  simp only [Task.bind_eq]
  refine h.ask_bind (q := .enter .connecting) ⟨trivial, id⟩ fun _ h => ?_
  refine h.ask_bind (q := .note _) ⟨trivial, id⟩ fun _ h => ?_
  refine (keeps_attempt h s.config.timeout target).attempt_bind ?_
  intro p outcome hp
  obtain ⟨h, hreached, htold⟩ := hp
  cases outcome with
  | error e => exact speaks_reject h (htold e rfl)
  | ok _ =>
    replace hreached := hreached rfl
    refine h.ask_bind (q := .localAddr) ⟨trivial, id⟩ fun answer h => ?_
    refine speaks_obtain_bind h ?_
    intro bound hanswer
    subst hanswer
    obtain ⟨bytes, hencode⟩ := exists_encode_success bound
    have hsuccess : Success (p ++ [⟨.localAddr, .ok bound⟩]) .connect bytes :=
      .connected ⟨request, h.vetted, hcommand⟩
        (hreached.mono (List.subset_append_left p [⟨.localAddr, .ok bound⟩])) (by simp) hencode
    refine speaks_success_bind h hsuccess hencode fun p hsub hpoised hspoken => ?_
    refine speaks_relaying hspoken (.bind (asksOnly_ask trivial) fun _ =>
      (asksOnly_relay s).mono fun _ => ofRelay_of_ofCopying) fun q hq => ?_
    exact ⟨w, bytes, h.handshake.mono hsub, .connected hq (hsuccess.mono hsub), hpoised.told,
      hpoised.flushed⟩

/-- The second reply to a command that awaits a connection, and what it grants. -/
theorem speaks_arrival_bind {peer : SocketAddr} {bytes' : Bytes} {t : Task Hostings α}
    (h : Answering past request w bytes) (hsuccess : Success past .bind bytes)
    (harrival : Arrival past bytes') (hencode : (Reply.success peer).encode = .ok bytes')
    (hasks : t.AsksOnly OfRelay) :
    Speaks past ((deliver (Reply.success peer)).bind fun _ => t) := by
  have hword : Word past (w ++ bytes ++ bytes') := by
    rw [List.append_assoc]
    exact .answered h.handshake (.arrival hsuccess harrival)
  refine speaks_deliver_bind h.poised hencode hword.front fun p hsub hpoised => ?_
  refine speaks_relaying (hpoised.spoken (hword.mono hsub).front) hasks fun q hq => ?_
  refine ⟨w, bytes ++ bytes', h.handshake.mono hsub,
    .accepted hq (hsuccess.mono hsub) (harrival.mono hsub), ?_, hpoised.flushed⟩
  rw [hpoised.told, List.append_assoc]

theorem asksOnly_relayEarly (s : Setting) (early : Bytes) :
    (if !early.isEmpty then
      (note .forwardingEarly).bind fun _ => (handOver early).bind fun _ =>
        (enter .bindRelaying).bind fun _ => relay s
    else (enter .bindRelaying).bind fun _ => relay s).AsksOnly OfRelay := by
  have hrelay : ((enter .bindRelaying).bind fun _ => relay s).AsksOnly OfRelay :=
    .bind (asksOnly_ask trivial) fun _ =>
      (asksOnly_relay s).mono fun _ => ofRelay_of_ofCopying
  cases early with
  | nil => exact hrelay
  | cons b early =>
    exact .bind (asksOnly_ask trivial) fun _ =>
      .bind ((asksOnly_handOver _).mono fun _ => ofRelay_of_ofCopying) fun _ => hrelay

theorem speaks_bind (s : Setting) (target : Target)
    (h : Answering past request w []) (hcommand : request.command? = some .bind) :
    Speaks past (bind s target) := by
  unfold bind
  simp only [Task.bind_eq]
  refine h.ask_bind (q := .enter .bindListening) ⟨trivial, id⟩ fun _ h => ?_
  refine h.ask_bind (q := .listen _) ⟨trivial, id⟩ fun answer h => ?_
  refine speaks_obtain_bind h ?_
  rintro address rfl
  obtain ⟨bytes, hencode⟩ := exists_encode_success address
  have hsuccess := Success.listening ⟨request, h.vetted, hcommand⟩
    (List.mem_append_right _ (List.mem_singleton.2 rfl)) hencode
  -- the first reply may fail to get out; then the listener is let go of without another word
  refine speaks_deliver_attempt_bind h.poised hencode (h.word_success hsuccess).front
    (fun p hsub hpoised => ?_) fun p e hspoken => ?_
  · rw [List.append_nil] at hpoised
    replace hsuccess := hsuccess.mono hsub
    replace h : Answering p request w bytes :=
      ⟨h.handshake.mono hsub, hsub h.vetted, .inr hsuccess, hpoised⟩
    refine h.ask_bind (q := .note _) ⟨trivial, id⟩ fun _ h => ?_
    refine h.ask_bind (q := .awaitPeer _) ⟨trivial, id⟩ fun answer h => ?_
    refine h.ask_bind (q := .dropListener) ⟨trivial, id⟩ fun _ h => ?_
    refine speaks_inbound_bind h ?_
    rintro peer early rfl
    refine h.ask_bind (q := .note _) ⟨trivial, id⟩ fun _ h => ?_
    obtain ⟨bytes', hencode'⟩ := exists_encode_success peer
    have harrival : Arrival (p ++ [⟨.awaitPeer s.config.timeout, .arrived peer early⟩]) bytes' :=
      .arrived (List.mem_append_right p (List.mem_singleton.2 rfl)) hencode'
    exact speaks_arrival_bind h (hsuccess.mono (by simp)) (harrival.mono (by simp)) hencode'
      (asksOnly_relayEarly s early)
  · refine keeps_ask_bind hspoken id fun _ => speaks_fail ?_ e
    exact hspoken.append
      (List.forall_mem_singleton.2 (isIdle_of_isPassive (q := .dropListener) trivial _))

theorem speaks_associate (s : Setting) (target : Target)
    (h : Answering past request w []) (hcommand : request.command? = some .udpAssociate) :
    Speaks past (associate s target) := by
  unfold associate
  simp only [Task.bind_eq]
  refine h.ask_bind (q := .associate _ _) ⟨trivial, id⟩ fun answer h => ?_
  refine speaks_obtain_bind h ?_
  rintro address rfl
  obtain ⟨bytes, hencode⟩ := exists_encode_success address
  have hsuccess := Success.associated ⟨request, h.vetted, hcommand⟩
    (List.mem_append_right _ (List.mem_singleton.2 rfl)) hencode
  refine speaks_success_bind h hsuccess hencode fun p hsub hpoised hspoken => ?_
  refine speaks_of_isPassive hspoken ?_ (fun q => isPassive_of_ofForwarding) ?_
  · refine .bind (asksOnly_ask trivial) fun _ => .bind (asksOnly_ask trivial) fun _ =>
      .bind (asksOnly_ask trivial) fun held => .bind (asksOnly_ask trivial) fun _ =>
      .bind (asksOnly_ask trivial) fun _ => ?_
    cases held <;> trivial
  · intro q hq hcopies
    obtain rfl := eq_of_ofForwarding hq hcopies
    exact ⟨w, bytes, h.handshake.mono hsub, .associated (hsuccess.mono hsub), hpoised.told,
      hpoised.flushed⟩

/-- A request that could be read is refused with a code that tells of a failure. -/
theorem isTold_of_parse {bytes rest : Bytes} {request : Request} {code : ReplyCode}
    (h : Request.decoder.parse bytes = .finished (.ok request) rest)
    (hcode : request.rejection = some code) : IsTold (.rejected code) := by
  -- a request is refused for its address type or for its command, each with a code of its own
  simp only [Request.decoder, Task.bind_eq, Task.pure_eq, Decoder.parse_bind_ok_iff] at h
  obtain ⟨_, b₁, _, command, b₂, _, _, b₃, _, type, b₄, _, h⟩ := h
  cases htype : AddressType.ofByte? type with
  | none =>
    rw [htype] at h
    cases h
    cases hcode
    exact nofun
  | some type =>
    simp only [htype, Decoder.parse_bind_ok_iff] at h
    obtain ⟨target, b₅, _, h⟩ := h
    cases h
    have hcode : Request.rejectionOf command = some code := hcode
    unfold Request.rejectionOf at hcode
    cases hcommand : Command.ofByte? command with
    | none =>
      rw [hcommand] at hcode
      cases hcode
      exact nofun
    | some c =>
      rw [hcommand] at hcode
      cases hcode

theorem speaks_carryOut (s : Setting) (h : Answering past request w [])
    (hrejection : ∀ code, request.rejection = some code → IsTold (.rejected code)) :
    Speaks past (carryOut s request) := by
  unfold carryOut
  cases hcode : request.rejection with
  | some code => exact speaks_reject h (hrejection code hcode)
  | none =>
    cases hcommand : request.command? with
    | none => exact speaks_reject h nofun
    | some command =>
      cases command with
      | connect => exact speaks_connect s request.target h hcommand
      | bind => exact speaks_bind s request.target h hcommand
      | udpAssociate => exact speaks_associate s request.target h hcommand

end Socks5.Serving

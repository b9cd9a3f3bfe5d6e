import Socks5.Proofs.Session.Served

/-!
# What a request is answered with

A session that nothing disturbs carries out a request to its end: no hook vetoes it, nobody closes
the session, and the client is gone only where its stream has ended. Main statements: it gives the
client one reply to CONNECT (`performs_connect`) and one or two to BIND (`performs_bind`), whatever
the host answers; and how it stands at rest is a matter of the bytes that it is fed
(`hosted_of_settled`).
-/

namespace Socks5

namespace Feed

/-- An exchange in which nothing disturbs a session. -/
def Calm (feed : Feed) : Exchange Hostings → Prop
  | ⟨.vetRequest _, reason⟩ => reason = none
  | ⟨.lookup _ _ _, .closed⟩ | ⟨.connect _ _, .closed⟩ | ⟨.awaitPeer _, .closed⟩ => False
  | ⟨.awaitPeer _, .clientGone⟩ => feed.ending ≠ none
  | _ => True

/-- The terms of a session that is fed and that nothing disturbs. -/
def calmTerms (feed : Feed) : Terms Hostings where
  allows past x := feed.Allows past x.question x.answer ∧ feed.Calm x
  permits _ _ := True

variable {feed : Feed} {past d : Dialogue Hostings}

/-- Every question that has an answer has a calm one. -/
theorem exists_calm {q : Hosting.Ask} {a : Hosting.Answer q} (h : feed.Allows past q a) :
    ∃ a, feed.calmTerms.allows past ⟨q, a⟩ := by
  cases q with
  | vetRequest request => exact ⟨none, trivial, rfl⟩
  | lookup limit name port => exact ⟨.value (.ok []), trivial, trivial⟩
  | connect limit address => exact ⟨.value (.ok ()), trivial, trivial⟩
  | awaitPeer limit => exact ⟨.arrived .unspecified [], trivial, trivial⟩
  | channel c => exact ⟨a, h, trivial⟩
  | vetSession => exact ⟨a, h, trivial⟩
  | enter _ | note _ | identify _ | farewell | localAddr | listen _ | dropListener | peer _
  | associate _ _ | startForwarding | stopForwarding | hold | relay _ => exact ⟨a, h, trivial⟩

/-- No exchange of a calm dialogue disturbs the session. -/
theorem calm_of_mem {x : Exchange Hostings} (h : feed.calmTerms.Honoured past d) (hx : x ∈ d) :
    feed.Calm x := by
  induction d generalizing past with
  | nil => cases hx
  | cons y d ih =>
    rcases List.mem_cons.1 hx with rfl | hx
    · exact h.1.2
    · exact ih h.2 hx

theorem honoured_of_calm (h : feed.calmTerms.Honoured past d) : feed.terms.Honoured past d := by
  induction d generalizing past with
  | nil => trivial
  | cons x d ih => exact ⟨h.1.1, ih h.2⟩

end Feed

namespace Task

variable {α : Type} {feed : Feed} {past : Dialogue Hostings} {t : Task Hostings α}

/-- What holds of work that is fed holds of it if nothing disturbs it. -/
theorem Keeps.calm {aim : Dialogue Hostings → Prop}
    {ending : Dialogue Hostings → Except Failure α → Prop}
    (h : t.Keeps (feed.terms.reaching aim) past ending) :
    t.Keeps (feed.calmTerms.reaching aim) past ending := by
  intro d u hl hd
  rw [honoured_reaching] at hd
  have hstands := h hl (honoured_reaching.2 (Feed.honoured_of_calm hd))
  cases u with
  | done a => exact hstands
  | fail e => exact hstands
  | ask q next =>
    refine fun hnone => hstands fun a ha => ?_
    obtain ⟨a', ha'⟩ := Feed.exists_calm ha
    exact hnone a' ha'

/-- What rests while nothing disturbs it rests. -/
theorem Settled.of_calm (h : t.Settled feed.calmTerms past) : t.Settled feed.terms past := by
  rintro q next rfl a ha
  obtain ⟨a', ha'⟩ := Feed.exists_calm ha
  exact h q next rfl a' ha'

end Task

namespace Serving

open Socks5.Task (Leads honoured_reaching)
open Hosting (told heard)

variable {α β : Type} {feed : Feed} {past d : Dialogue Hostings} {w rest bytes : Bytes}
  {aim : Dialogue Hostings → Prop} {ending : Dialogue Hostings → Except Failure α → Prop}

/-! ## Questions that nothing disturbs -/

/-- Work that comes to an end as it should if nothing disturbs it. -/
def Performs (feed : Feed) (ending : Dialogue Hostings → Except Failure α → Prop)
    (past : Dialogue Hostings) (t : Task Hostings α) : Prop :=
  t.Keeps (feed.calmTerms.reaching fun _ => False) past ending

theorem Fed.append (h : Fed feed past w rest) (hd : ∀ x ∈ d, Hosting.onClient? x = none) :
    Fed feed (past ++ d) w rest := by
  induction d generalizing past with
  | nil => rwa [List.append_nil]
  | cons x d ih =>
    rw [List.append_cons]
    exact ih (h.concat (hd x List.mem_cons_self)) fun y hy => hd y (List.mem_cons_of_mem x hy)

theorem onClient?_of_isPassive {x : Exchange Hostings} (h : IsPassive x.question) :
    Hosting.onClient? x = none := by
  cases hy : Hosting.onClient? x with
  | none => rfl
  | some y =>
    cases Hosting.eq_onClient_of_onClient? hy
    exact h.elim

/-- What is asked of the host, and what comes after its answer. -/
theorem Fed.ask_bind {q : Hosting.Ask} {f : Hosting.Answer q → Task Hostings α}
    {a : Hosting.Answer q} (h : Fed feed past w rest) (hq : IsPassive q) (ha : feed.Allows past q a)
    (hnext : ∀ a, feed.Calm ⟨q, a⟩ → Fed feed (past ++ [⟨q, a⟩]) w rest →
      Performs feed ending (past ++ [⟨q, a⟩]) (f a)) :
    Performs feed ending past ((ask q).bind f) := by
  refine Task.keeps_ask.2 ⟨fun hnone => ?_, fun a ha => ?_⟩
  · obtain ⟨a', ha'⟩ := Feed.exists_calm ha
    exact absurd ha' (hnone a')
  · exact hnext a ha.2 (h.concat (onClient?_of_isPassive (x := ⟨q, a⟩) hq))

/-- A message gets through, and what comes after it. -/
theorem Fed.deliver_bind [Message β] {message : β} {f : Unit → Task Hostings α}
    (h : Fed feed past w rest) (hencode : Message.encode message = .ok bytes)
    (hnext : ∀ d, Fed feed (past ++ d) (w ++ bytes) rest →
      Performs feed ending (past ++ d) (f ())) :
    Performs feed ending past ((deliver message).bind f) := by
  refine (h.keeps_deliver hencode).calm.bind ?_ ?_
  · rintro p _ ⟨_, d, rfl, _, hfed⟩
    exact hnext d hfed
  · rintro p e ⟨hok, _⟩
    cases hok

theorem Fed.deliver_attempt_bind [Message β] {message : β}
    {f : Except Failure Unit → Task Hostings α} (h : Fed feed past w rest)
    (hencode : Message.encode message = .ok bytes)
    (hnext : ∀ d, Fed feed (past ++ d) (w ++ bytes) rest →
      Performs feed ending (past ++ d) (f (.ok ()))) :
    Performs feed ending past ((deliver message).attempt.bind f) := by
  refine (h.keeps_deliver hencode).calm.attempt_bind ?_
  rintro p _ ⟨rfl, d, rfl, _, hfed⟩
  exact hnext d hfed

/-- Whatever relaying comes to, the client is told nothing more. -/
theorem Fed.relays {t : Task Hostings α} (h : Fed feed past w rest) (ht : t.AsksOnly OfRelay)
    (hend : ∀ d r, Fed feed (past ++ d) w rest → ending (past ++ d) r) :
    Performs feed ending past t := by
  have hanswer : ∀ {p : Dialogue Hostings} {q}, OfRelay q → ∃ a, feed.Allows p q a := by
    intro p q hq
    match q with
    | .enter _ => exact ⟨(), trivial⟩
    | .note _ => exact ⟨(), trivial⟩
    | .peer (.read _) => exact ⟨.ok none, trivial⟩
    | .peer (.write _) => exact ⟨.ok 0, trivial⟩
    | .peer .flush => exact ⟨.ok (), trivial⟩
    | .relay _ => exact ⟨.error .closed, trivial⟩
  refine (ht.keeps fun d q _ hq hnone => ?_).weaken ?_
  · obtain ⟨a, ha⟩ := hanswer (p := past ++ d) hq
    obtain ⟨a', ha'⟩ := Feed.exists_calm ha
    exact hnone a' ha'
  · rintro p r ⟨d, rfl, hd, _⟩
    exact hend d r (h.append fun x hx => onClient?_of_isPassive (isPassive_of_ofRelay (hd x hx)))

/-! ## Replies -/

/-- The bytes of some replies. -/
inductive Spells : List Reply → Bytes → Prop where
  | nil : Spells [] []
  | cons {reply : Reply} {replies : List Reply} {w w' : Bytes} (encode : reply.encode = .ok w)
      (spells : Spells replies w') : Spells (reply :: replies) (w ++ w')

theorem spells_singleton {reply : Reply} (h : reply.encode = .ok bytes) :
    Spells [reply] bytes := by
  have hspells : Spells [reply] (bytes ++ []) := .cons h .nil
  rwa [List.append_nil] at hspells

theorem Spells.concat {replies : List Reply} {reply : Reply} {w' : Bytes} (h : Spells replies w)
    (hencode : reply.encode = .ok w') : Spells (replies ++ [reply]) (w ++ w') := by
  induction h with
  | nil => exact spells_singleton hencode
  | cons encode _ ih =>
    rw [List.append_assoc]
    exact .cons encode ih

/-- How a command is answered that comes to an outcome: with its failure; with the address that the
host has given for it; and for BIND with a second reply, about the peer that has come or about the
failure to wait for it, unless the client is gone. -/
inductive Answered (d : Dialogue Hostings) (outcome : Except Failure Unit) :
    Command → List Reply → Prop where
  | refused {command : Command} {e : Failure} (fails : outcome = .error e) (told : IsTold e) :
      Answered d outcome command [.failure e.replyCode]
  | connected {a : SocketAddr} (reaches : HasReached d) (given : ⟨.localAddr, .ok a⟩ ∈ d) :
      Answered d outcome .connect [.success a]
  | accepted {ip : Ip} {limit : Option Duration} {a peer : SocketAddr} {early : Bytes}
      (given : ⟨.listen ip, .ok a⟩ ∈ d) (comes : ⟨.awaitPeer limit, .arrived peer early⟩ ∈ d) :
      Answered d outcome .bind [.success a, .success peer]
  | missed {ip : Ip} {a : SocketAddr} {e : Failure} (given : ⟨.listen ip, .ok a⟩ ∈ d)
      (fails : outcome = .error e) (told : IsTold e) :
      Answered d outcome .bind [.success a, .failure e.replyCode]
  | abandoned {ip : Ip} {limit : Option Duration} {a : SocketAddr}
      {before after : Dialogue Hostings}
      (given : ⟨.listen ip, .ok a⟩ ∈ d)
      (split : d = before ++ ⟨.awaitPeer limit, .clientGone⟩ :: after)
      (silent : Hosting.told before = Hosting.told d) : Answered d outcome .bind [.success a]

/-- A command is carried out, and the client, who had been told `w`, is told of it. -/
def Performed (command : Command) (w : Bytes) (d : Dialogue Hostings)
    (outcome : Except Failure Unit) : Prop :=
  ∃ replies bytes, Spells replies bytes ∧ told d = w ++ bytes ∧ Answered d outcome command replies

/-- A failure that is no end of the session is told to the client. -/
theorem Fed.rejects {e : Failure} (h : Fed feed past w rest) (hopen : e ≠ .closed)
    (hend : ∀ d bytes, (Reply.failure e.replyCode).encode = .ok bytes →
      Fed feed (past ++ d) (w ++ bytes) rest → ending (past ++ d) (.error e)) :
    Performs feed ending past (reject e) := by
  unfold reject
  rw [if_neg hopen]
  have hencode := encode_failure e.replyCode
  exact h.deliver_bind hencode fun d hfed => Task.keeps_fail.2 (hend d _ hencode hfed)

/-- A failure is told with the first reply. -/
theorem Fed.refuses {e : Failure} {command : Command} (h : Fed feed past w rest)
    (hopen : e ≠ .closed) (htold : IsTold e) (f : β → Task Hostings Unit) :
    Performs feed (Performed command w) past ((reject e).bind f) := by
  rw [reject_bind]
  refine h.rejects hopen fun d bytes hencode hfed => ?_
  exact ⟨_, bytes, spells_singleton hencode, hfed.told, .refused rfl htold⟩

/-! ## CONNECT -/

/-- A failure that the client is told of. -/
def IsUtterable (e : Failure) : Prop := e ≠ .closed ∧ IsTold e

theorem isUtterable_unreached (cause : IoFailure) : IsUtterable (.unreached cause) :=
  ⟨nofun, isTold_unreached cause⟩

/-- What comes of an attempt to reach a target leaves the client untold: there is a connection, or a
failure to tell it of. -/
inductive Attempted (feed : Feed) (w rest : Bytes) (p : Dialogue Hostings) :
    Except Failure Unit → Prop where
  | reached (fed : Fed feed p w rest) (reaches : HasReached p) : Attempted feed w rest p (.ok ())
  | missed {e : Failure} (fed : Fed feed p w rest) (utterable : IsUtterable e) :
      Attempted feed w rest p (.error e)

/-- A question in time has an answer, or its time is over. -/
theorem Fed.inTime_bind {limit : Option Duration} {answer : Hosting.Timed limit β} {what : String}
    {f : β → Task Hostings Unit} (h : Fed feed past w rest) (hopen : answer ≠ .closed)
    (hnext : ∀ b, answer = .value b → Performs feed (Attempted feed w rest) past (f b)) :
    Performs feed (Attempted feed w rest) past ((inTime what answer).bind f) := by
  cases answer with
  | value b => exact hnext b rfl
  | expired after hlimit => exact Task.keeps_fail.2 (.missed h ⟨nofun, nofun⟩)
  | closed => exact absurd rfl hopen

theorem performs_connectFirst (limit : Option Duration) (target : Target) (last : Option IoFailure)
    (addresses : List SocketAddr) (h : Fed feed past w rest) :
    Performs feed (Attempted feed w rest) past (connectFirst limit target last addresses) := by
  induction addresses generalizing last past with
  | nil => exact Task.keeps_fail.2 (.missed h (isUtterable_unreached _))
  | cons address others ih =>
    refine h.ask_bind (q := .connect limit address) trivial (a := .closed) trivial
      fun answer hcalm h => ?_
    have hopen : answer ≠ .closed := by
      rintro rfl
      exact hcalm
    refine h.inTime_bind hopen ?_
    rintro outcome rfl
    cases outcome with
    | ok _ =>
      exact Task.keeps_done.2 (.reached h ⟨_, _, List.mem_append_right past List.mem_cons_self⟩)
    | error cause => exact h.ask_bind (q := .note _) trivial (a := ()) trivial fun _ _ h => ih _ h

theorem performs_attempt (limit : Option Duration) (target : Target) (h : Fed feed past w rest) :
    Performs feed (Attempted feed w rest) past
      ((addresses limit target).bind fun found => connectFirst limit target none found) := by
  have hfound : ∀ {p : Dialogue Hostings} {resolved : Task Hostings (List SocketAddr)},
      (∃ addresses, resolved = .done addresses) ∨
        (∃ cause, resolved = .fail (.network .hostUnreachable cause)) →
      Fed feed p w rest → Performs feed (Attempted feed w rest) p
        (resolved.bind fun found => connectFirst limit target none found) := by
    rintro p _ (⟨addresses, rfl⟩ | ⟨cause, rfl⟩) h
    · exact performs_connectFirst limit target none addresses h
    · exact Task.keeps_fail.2 (.missed h ⟨nofun, nofun⟩)
  unfold addresses
  cases htarget : target.host with
  | ip ip =>
    simp only [Task.bind_eq, Task.pure_eq, Task.done_bind]
    refine hfound ?_ h
    split
    · exact .inl ⟨_, rfl⟩
    · exact .inr ⟨_, rfl⟩
  | domain name =>
    simp only [Task.bind_eq, Task.bind_assoc]
    refine h.ask_bind (q := .lookup limit name target.port) trivial (a := .closed) trivial
      fun answer hcalm h => ?_
    have hopen : answer ≠ .closed := by
      rintro rfl
      exact hcalm
    refine h.inTime_bind hopen fun found _ => hfound ?_ h
    split
    · exact .inl ⟨_, rfl⟩
    · exact .inr ⟨_, rfl⟩

/-- CONNECT is answered with one reply. -/
theorem performs_connect (s : Setting) (target : Target) (h : Fed feed past w rest) :
    Performs feed (Performed .connect w) past (connect s target) := by
  unfold connect
  simp only [Task.bind_eq]
  refine h.ask_bind (q := .enter .connecting) trivial (a := ()) trivial fun _ _ h => ?_
  refine h.ask_bind (q := .note _) trivial (a := ()) trivial fun _ _ h => ?_
  refine (performs_attempt s.config.timeout target h).attempt_bind ?_
  intro p outcome hattempted
  cases hattempted with
  | @missed e h hutterable =>
    obtain ⟨hopen, htold⟩ := hutterable
    have hrefused : Performs feed (Performed .connect w) p ((reject e).bind .done) :=
      h.refuses hopen htold .done
    rwa [Task.bind_done] at hrefused
  | reached h hreaches =>
    refine h.ask_bind (q := .localAddr) trivial (a := .ok .unspecified) trivial fun answer _ h => ?_
    cases answer with
    | error cause => exact h.refuses (e := .resource cause) nofun nofun _
    | ok a =>
      obtain ⟨bytes, hencode⟩ := exists_encode_success a
      refine h.deliver_bind hencode fun d hfed => ?_
      refine hfed.relays (.bind (asksOnly_ask (q := .enter .relaying) trivial) fun _ =>
        (asksOnly_relay s).mono fun _ => ofRelay_of_ofCopying) fun d' r hfed => ?_
      have hconnected : Answered (p ++ [⟨.localAddr, .ok a⟩] ++ d ++ d') r .connect
          [.success a] :=
        .connected (hreaches.mono (by simp)) (by simp)
      exact ⟨_, bytes, spells_singleton hencode, hfed.told, hconnected⟩

/-! ## BIND -/

/-- A client that was told of a failed wait has two replies. -/
theorem Fed.misses {ip : Ip} {a : SocketAddr} {e : Failure} (h : Fed feed past (w ++ bytes) rest)
    (hencode : (Reply.success a).encode = .ok bytes) (hgiven : ⟨.listen ip, .ok a⟩ ∈ past)
    (hopen : e ≠ .closed) (htold : IsTold e) (f : β → Task Hostings Unit) :
    Performs feed (Performed .bind w) past ((reject e).bind f) := by
  rw [reject_bind]
  refine h.rejects hopen fun d bytes' hencode' hfed => ?_
  refine ⟨_, _, (spells_singleton hencode).concat hencode', ?_,
    .missed (List.mem_append_left d hgiven) rfl htold⟩
  rw [hfed.told, List.append_assoc]

/-- A client that has been told where a connection is awaited is told how the wait has ended. -/
theorem performs_wait (s : Setting) (limit : Option Duration) {ip : Ip} {a : SocketAddr}
    (h : Fed feed past (w ++ bytes) rest) (hencode : (Reply.success a).encode = .ok bytes)
    (hgiven : ⟨.listen ip, .ok a⟩ ∈ past) :
    Performs feed (Performed .bind w) past
      ((ask (.awaitPeer limit)).bind fun answer => (ask .dropListener).bind fun _ =>
        (inbound answer).bind fun x => (note (.accepted x.1)).bind fun _ =>
        (deliver (Reply.success x.1)).bind fun _ =>
        if !x.2.isEmpty then
          (note .forwardingEarly).bind fun _ => (handOver x.2).bind fun _ =>
          (enter .bindRelaying).bind fun _ => relay s
        else (enter .bindRelaying).bind fun _ => relay s) := by
  have hwaits := h.told
  refine h.ask_bind (q := .awaitPeer limit) trivial (a := .closed) trivial fun answer hcalm h => ?_
  refine h.ask_bind (q := .dropListener) trivial (a := ()) trivial fun _ _ h => ?_
  have hgiven' : ⟨.listen ip, .ok a⟩ ∈
      past ++ [⟨.awaitPeer limit, answer⟩] ++ [⟨.dropListener, ()⟩] := by
    simp [hgiven]
  cases answer with
  | arrived peer early =>
    refine h.ask_bind (q := .note _) trivial (a := ()) trivial fun _ _ h => ?_
    obtain ⟨bytes', hencode'⟩ := exists_encode_success peer
    refine h.deliver_bind hencode' fun d h => ?_
    refine h.relays (asksOnly_relayEarly s early) fun d' r hfed => ?_
    refine ⟨_, _, (spells_singleton hencode).concat hencode', ?_,
      @Answered.accepted _ _ ip limit a peer early ?_ ?_⟩
    · rw [hfed.told, List.append_assoc]
    · simp [hgiven]
    · simp
  | failed cause =>
    obtain ⟨hopen, htold⟩ := isUtterable_unreached cause
    exact h.misses hencode hgiven' hopen htold _
  | expired after hlimit =>
    exact h.misses (e := expiry "bind accept" after) hencode hgiven' nofun nofun _
  | clientGone =>
    refine h.ask_bind (q := .channel .close) trivial (a := ()) trivial fun _ _ h => ?_
    refine Task.keeps_fail.2 ⟨_, _, spells_singleton hencode, h.told, ?_⟩
    have hsplit : past ++ [⟨.awaitPeer limit, .clientGone⟩] ++ [⟨.dropListener, ()⟩] ++
        [⟨.channel .close, ()⟩] = past ++ ⟨.awaitPeer limit, .clientGone⟩ ::
          ([⟨.dropListener, ()⟩, ⟨.channel .close, ()⟩] : Dialogue Hostings) := by
      simp
    exact .abandoned (List.mem_append_left _ hgiven') hsplit (hwaits.trans h.told.symm)
  | closed => exact hcalm.elim

/-- BIND is answered with one reply, and if that is one of success with a second one. -/
theorem performs_bind (s : Setting) (target : Target) (h : Fed feed past w rest) :
    Performs feed (Performed .bind w) past (bind s target) := by
  unfold bind
  simp only [Task.bind_eq]
  refine h.ask_bind (q := .enter .bindListening) trivial (a := ()) trivial fun _ _ h => ?_
  refine h.ask_bind (q := .listen _) trivial (a := .ok .unspecified) trivial fun answer _ h => ?_
  cases answer with
  | error cause => exact h.refuses (e := .resource cause) nofun nofun _
  | ok a =>
    obtain ⟨bytes, hencode⟩ := exists_encode_success a
    refine h.deliver_attempt_bind hencode fun d h => ?_
    refine h.ask_bind (q := .note _) trivial (a := ()) trivial fun _ _ h => ?_
    have hgiven : (⟨.listen s.bindIp, .ok a⟩ : Exchange Hostings) ∈
        past ++ [⟨.enter .bindListening, ()⟩] ++ [⟨.listen s.bindIp, .ok a⟩] ++ d := by
      simp
    exact performs_wait s _ h hencode (List.mem_append_left _ hgiven)

/-! ## A session at rest -/

/-- A command that has been carried out is answered, and the session is over. -/
theorem performed_of_settled {command : Command} {t v : Task Hostings Unit}
    (h : Performs feed (Performed command w) past t) (hl : Leads (t.attempt.bind finish) d v)
    (hd : feed.calmTerms.Honoured past d) (hsettled : v.Settled feed.calmTerms (past ++ d)) :
    ∃ outcome d₁ d₂, d = d₁ ++ d₂ ∧ Leads t d₁ (.ofExcept outcome) ∧
      Leads (finish outcome) d₂ (.done ()) ∧ v = .done () ∧ told d₂ = [] ∧
      Performed command w (past ++ d₁) outcome := by
  rcases Task.leads_attempt_bind hl with ⟨q, next, hwaits, rfl⟩ | ⟨outcome, d₁, d₂, rfl, h₁, h₂⟩
  · -- a command that nothing disturbs does not wait
    have hstands := h hwaits (honoured_reaching.2 hd)
    exact (hstands (hsettled.of_bind.of_attempt q next rfl)).elim
  have hperformed : Performed command w (past ++ d₁) outcome := by
    have hstands := h h₁ (honoured_reaching.2 (Terms.honoured_append.1 hd).1)
    cases outcome with
    | ok _ => exact hstands
    | error e => exact hstands
  rw [← List.append_assoc] at hsettled
  obtain ⟨rfl, _, htold⟩ := over_of_finish h₂ hsettled.of_calm
  exact ⟨outcome, d₁, d₂, rfl, h₁, h₂, rfl, htold, hperformed⟩

/-- A session has let its client in, and awaits a request. -/
def HasNegotiated (d : Dialogue Hostings) : Prop := ⟨.enter .awaitingCommand, ()⟩ ∈ d

/-- How a session stands with a client that it has let in: there is no request to be read, or one is
carried out. -/
inductive Attends (s : Setting) (feed : Feed) (w rest : Bytes) (d : Dialogue Hostings)
    (t : Task Hostings Unit) : Prop where
  | idle (unread : Unreadable Request rest) (told : told d = w) : Attends s feed w rest d t
  | obeys {request : Request} {rest' : Bytes} {before after : Dialogue Hostings}
      (asks : Request.decoder.parse rest = .finished (.ok request) rest')
      (split : d = before ++ [⟨.vetRequest request, none⟩] ++ after)
      (fed : Fed feed (before ++ [⟨.vetRequest request, none⟩]) w rest')
      (unvetted : Unvetted before)
      (carries : Leads ((carryOut s request).attempt.bind finish) after t) :
      Attends s feed w rest d t

/-- How a session stands that nothing has disturbed and that has come to rest: no method was
acceptable; there is no login to be read, or it was refused; or the client was let in. -/
inductive Hosted (s : Setting) (selected : MethodId) (verdict : Login → Verdict) (feed : Feed)
    (rest : Bytes) (d : Dialogue Hostings) (t : Task Hostings Unit) : Prop where
  | unacceptable (selects : selected = .noAcceptable) (told : told d = [0x05, 0xFF])
      (closed : ¬ HasNegotiated d) (ended : t = .done ())
      (noted : ⟨.note (.ended (.error .noAcceptableMethods)), ()⟩ ∈ d) :
      Hosted s selected verdict feed rest d t
  | unproven (selects : selected = .userPass) (unread : Unreadable Login rest)
      (told : told d = [0x05, 0x02]) : Hosted s selected verdict feed rest d t
  | denied {login : Login} {rest' : Bytes} {reason : String} (selects : selected = .userPass)
      (presents : Login.decoder.parse rest = .finished (.ok login) rest')
      (refuses : verdict login = .refused reason) (told : told d = [0x05, 0x02, 0x01, 0x01])
      (closed : ¬ HasNegotiated d) (ended : t = .done ())
      (noted : ⟨.note (.ended (.error (.authentication (.refused login.username reason)))), ()⟩ ∈
        d) : Hosted s selected verdict feed rest d t
  | admitted {w rest' : Bytes} (welcomed : Welcomed selected verdict rest w rest')
      (negotiated : HasNegotiated d) (attends : Attends s feed w rest' d t) :
      Hosted s selected verdict feed rest d t

theorem not_hasNegotiated {outcome : Except Failure Unit} {t : Task Hostings Unit}
    {before after : Dialogue Hostings} (hfront : ∀ x ∈ before, ¬ BehindGate x.question)
    (hends : Leads (finish outcome) after t) : ¬ HasNegotiated (before ++ after) := by
  intro h
  rcases List.mem_append.1 h with h | h
  · exact hfront _ h trivial
  · exact (asksOnly_finish outcome).of_mem hends _ h

theorem hosted_of_settled {s : Setting} {verdict : Login → Verdict} {methods : List Method}
    {offer : MethodOffer} {t : Task Hostings Unit} (hs : s.methods = .ofList methods)
    (hmethods : ∀ m ∈ methods, IsPlain verdict m) (h : Leads (run s) d t)
    (hd : feed.calmTerms.Honoured [] d) (hsettled : t.Settled feed.calmTerms d)
    (hoffer : MethodOffer.decoder.parse feed.bytes = .finished (.ok offer) rest) :
    (∃ front back, d = front ++ back ∧ Chosen s.methods offer.methods front) ∧
      Hosted s (s.methods.select offer.methods) verdict feed rest d t := by
  obtain ⟨hchosen, hserved⟩ := served_of_settled hs hmethods h (Feed.honoured_of_calm hd)
    hsettled.of_calm hoffer
  refine ⟨hchosen, ?_⟩
  cases hserved with
  | waits summoned =>
    cases summoned with
    | unproven selects unread told => exact .unproven selects unread told
    | idle welcomed unread told awaits => exact .admitted welcomed awaits (.idle unread told)
  | @failed e before after split summoned ends =>
    subst split
    obtain ⟨rfl, hnoted, hsilent⟩ := over_of_finish ends hsettled.of_calm
    have htold : told (before ++ after) = told before := by
      rw [Hosting.told_append, hsilent, List.append_nil]
    have hnoted : ⟨.note (.ended (.error e)), ()⟩ ∈ before ++ after :=
      List.mem_append_right before hnoted
    cases summoned with
    | unacceptable selects told front =>
      exact .unacceptable selects (htold.trans told) (not_hasNegotiated front ends) rfl hnoted
    | unproven selects unread told => exact .unproven selects unread (htold.trans told)
    | denied selects presents refuses told front =>
      exact .denied selects presents refuses (htold.trans told) (not_hasNegotiated front ends) rfl
        hnoted
    | idle welcomed unread told awaits =>
      exact .admitted welcomed (List.mem_append_left after awaits) (.idle unread (htold.trans told))
    | @vetoed request reason vetoes =>
      cases Feed.calm_of_mem hd (List.mem_append_left after vetoes)
  | @obeys request before after split summoned carries =>
    subst split
    cases summoned with
    | unproven _ _ _ _ unsettled => exact absurd rfl (unsettled request)
    | idle _ _ _ _ unsettled => exact absurd rfl (unsettled request)
    | @asked w rest' rest'' _ first welcomed asks fed awaits split unvetted =>
      subst split
      exact .admitted welcomed (List.mem_append_left after awaits)
        (.obeys asks rfl fed unvetted carries)

end Serving

end Socks5

import Socks5.Proofs.Session.Racing

/-!
# One peer

BIND serves one peer. Whatever wins the race for a connection, at most one is accepted; the client
is told of it, or of a failure, with one more reply, for which the listener is let go of first; and
that connection is the one that is relayed. Main statements: BIND keeps its ledger fair whatever it
is answered (`serves_bind`), and so in every race (`onePeer_races`).
-/

namespace Socks5

namespace Serving

open Socks5.Task (Leads leads_done_iff leads_fail_iff leads_ask_iff)
open Hosting (Ledger ledger)

variable {α β : Type} {past d : Dialogue Hostings} {l : Ledger} {bytes : Bytes}

/-! ## What is owed to the client -/

/-- The replies that the end of a wait calls for: of the connection that came in, of the failure to
accept one, or of the time that is over. A client that is gone and a session that is closed are told
nothing. -/
def due : (limit : Option Duration) × Hosting.Inbound limit → List Reply
  | ⟨_, .arrived peer _⟩ => [.success peer]
  | ⟨_, .failed cause⟩ => [.failure (Failure.unreached cause).replyCode]
  | ⟨_, .expired _ _⟩ => [.failure .ttlExpired]
  | ⟨_, .clientGone⟩ | ⟨_, .closed⟩ => []

/-- The messages after the first, with what is to be written of each. -/
def later (l : Ledger) : List (Except Failure Bytes) := l.begun.tail.map .ok

/-- What is owed after the waits of a ledger. -/
def owed (l : Ledger) : List (Except Failure Bytes) := (l.waits.flatMap due).map Reply.encode

/-- What is asked between a wait and the reply to it, and answered on the spot. -/
def IsBrief : Hosting.Ask → Prop
  | .dropListener | .note _ | .channel .close => True
  | _ => False

/-- A ledger as it may stand at any time: there was one wait at most, nothing is said beyond what is
owed, and the listener is let go of before a second message. -/
structure IsFair (l : Ledger) : Prop where
  once : l.waits.length ≤ 1
  within : later l <+: owed l
  released : 2 ≤ l.begun.length → l.listener = none

/-- A ledger with nothing left to say or to close. -/
structure IsEven (l : Ledger) : Prop where
  paid : later l = owed l
  closed : ∀ w ∈ l.waits, due w = [] → l.isClosed

/-- A ledger at the end. -/
structure IsOver (l : Ledger) : Prop where
  fair : IsFair l
  even : IsEven l
  released : l.listener = none

/-- The terms on which a connection is awaited. -/
def peerTerms : Terms Hostings where
  permits past q := IsFair ((ledger past).put q) ∧ (¬ IsBrief q → IsEven ((ledger past).put q))

/-- Work with which a connection is awaited, and that leaves nothing behind. -/
def Serves (past : Dialogue Hostings) (t : Task Hostings α) : Prop :=
  t.Keeps peerTerms past fun p _ => IsOver (ledger p)

/-- A reply shows its code behind the version. -/
theorem exists_rest_of_encode {reply : Reply} (h : reply.encode = .ok bytes) :
    ∃ rest, bytes = version :: reply.code.toByte :: rest := by
  unfold Reply.encode at h
  cases htarget : reply.bound.encode with
  | error e =>
    rw [htarget] at h
    cases h
  | ok bound =>
    rw [htarget] at h
    cases h
    exact ⟨reserved :: bound, rfl⟩

theorem ne_nil_of_encode {reply : Reply} (h : reply.encode = .ok bytes) : bytes ≠ [] := by
  obtain ⟨rest, rfl⟩ := exists_rest_of_encode h
  simp

/-! ### Ledgers of one kind -/

/-- Before the first wait there is one message at most. -/
theorem isFair_of_unwaited (hwaits : l.waits = []) (hbegun : l.begun.length ≤ 1) :
    IsFair l ∧ IsEven l := by
  have hlater : later l = [] := by
    have htail : l.begun.tail = [] := List.length_eq_zero_iff.1 (by simp; omega)
    rw [later, htail, List.map_nil]
  have howed : owed l = [] := by rw [owed, hwaits]; rfl
  refine ⟨⟨by simp [hwaits], ?_, fun h => by omega⟩, ⟨by rw [hlater, howed], by simp [hwaits]⟩⟩
  rw [hlater]
  exact List.nil_prefix

/-- After a wait nothing has been said of it yet. -/
theorem isFair_of_unpaid {w : (limit : Option Duration) × Hosting.Inbound limit}
    (hwaits : l.waits = [w]) (hbegun : l.begun.length ≤ 1) : IsFair l := by
  have htail : l.begun.tail = [] := List.length_eq_zero_iff.1 (by simp; omega)
  refine ⟨by simp [hwaits], ?_, fun h => by omega⟩
  rw [later, htail]
  exact List.nil_prefix

/-- Of a wait of which nothing is to be said, nothing is left to say. -/
theorem isOver_of_gone {w : (limit : Option Duration) × Hosting.Inbound limit}
    (hwaits : l.waits = [w]) (hdue : due w = []) (hbegun : l.begun.length ≤ 1)
    (hclosed : l.isClosed) (hlistener : l.listener = none) : IsOver l := by
  have htail : l.begun.tail = [] := List.length_eq_zero_iff.1 (by simp; omega)
  refine ⟨isFair_of_unpaid hwaits hbegun, ⟨?_, fun _ _ _ => hclosed⟩, hlistener⟩
  simp [later, owed, htail, hwaits, hdue]

/-- A reply is said, and nothing is left to say. -/
theorem isOver_of_paid {w : (limit : Option Duration) × Hosting.Inbound limit} {reply : Reply}
    {first : List Bytes} (hfirst : first.length = 1) (hwaits : l.waits = [w])
    (hdue : due w = [reply]) (hencode : reply.encode = .ok bytes)
    (hbegun : l.begun = first ++ [bytes]) (hlistener : l.listener = none) : IsOver l := by
  obtain ⟨b, rfl⟩ := List.length_eq_one_iff.1 hfirst
  have hpaid : later l = owed l := by simp [later, owed, hbegun, hwaits, hdue, hencode]
  have hwithin : later l <+: owed l := ⟨[], by rw [List.append_nil, hpaid]⟩
  refine ⟨⟨by simp [hwaits], hwithin, fun _ => hlistener⟩, ⟨hpaid, ?_⟩, hlistener⟩
  rw [hwaits]
  intro v hv hnone
  obtain rfl := List.mem_singleton.1 hv
  rw [hdue] at hnone
  cases hnone

/-! ## What is asked -/

/-- To flush begins no message. -/
theorem ledger_flush {u : Task Hostings Unit} (hwriting : l.isWriting)
    (hl : Leads (onStream Stream.flush) d u) :
    ∃ w, (d.foldl Ledger.enter l).wait u =
      { l.put (.channel (.stream (.write []))) with isWriting := w } := by
  have hput : l.put (.channel (.stream (.write []))) = l := by simp [Ledger.put, hwriting]
  rw [hput]
  rcases leads_ask_iff.1 hl with ⟨rfl, rfl⟩ | ⟨a, d', rfl, hl'⟩
  · exact ⟨l.isWriting, rfl⟩
  · rcases a with _ | cause | _
    · obtain ⟨rfl, rfl⟩ := leads_fail_iff.1 hl'
      exact ⟨false, rfl⟩
    · obtain ⟨rfl, rfl⟩ := leads_fail_iff.1 hl'
      exact ⟨false, rfl⟩
    · obtain ⟨rfl, rfl⟩ := leads_done_iff.1 hl'
      exact ⟨false, rfl⟩

/-- A message that is written to the client is begun once. -/
theorem ledger_write {bound : Nat} {rest : Bytes} {hbound : rest.length ≤ bound}
    {u : Task Hostings Unit} (hmore : l.isWriting ∨ rest ≠ [])
    (hl : Leads
      (onStream ((Stream.writeWithin bound rest hbound).bind fun _ => Stream.flush)) d u) :
    ∃ w, (d.foldl Ledger.enter l).wait u =
      { l.put (.channel (.stream (.write rest))) with isWriting := w } := by
  induction bound generalizing rest d l with
  | zero =>
    obtain rfl : rest = [] := List.length_eq_zero_iff.1 (by omega)
    exact ledger_flush (hmore.resolve_right fun h => h rfl) hl
  | succ bound ih =>
    cases rest with
    | nil => exact ledger_flush (hmore.resolve_right fun h => h rfl) hl
    | cons b rest =>
      rw [Stream.writeWithin] at hl
      rcases leads_ask_iff.1 hl with ⟨rfl, rfl⟩ | ⟨a, d', rfl, hl'⟩
      · exact ⟨_, rfl⟩
      · rcases a with _ | cause | ⟨count, hcount⟩
        · obtain ⟨rfl, rfl⟩ := leads_fail_iff.1 hl'
          exact ⟨_, rfl⟩
        · obtain ⟨rfl, rfl⟩ := leads_fail_iff.1 hl'
          exact ⟨_, rfl⟩
        · cases count with
          | zero =>
            obtain ⟨rfl, rfl⟩ := leads_fail_iff.1 hl'
            exact ⟨_, rfl⟩
          | succ count =>
            -- what is left goes on with the message that was begun
            have hgoes : (l.enter ⟨.channel (.stream (.write (b :: rest))),
                some (.ok ⟨count + 1, hcount⟩)⟩).isWriting := decide_eq_true (Nat.succ_pos count)
            obtain ⟨w, hw⟩ := ih (.inl hgoes) hl'
            refine ⟨w, hw.trans ?_⟩
            rw [Ledger.put, if_pos hgoes]
            rfl

theorem ledger_deliver [Message α] {message : α} {u : Task Hostings Unit}
    (hencode : Message.encode message = .ok bytes) (hmore : bytes ≠ [])
    (hquiet : l.isWriting = false) (hl : Leads (deliver message) d u) :
    ∃ w, (d.foldl Ledger.enter l).wait u =
      { l with begun := l.begun ++ [bytes], isWriting := w } := by
  rw [deliver_eq, hencode] at hl
  obtain ⟨w, hw⟩ := ledger_write (l := l) (.inr hmore) hl
  refine ⟨w, hw.trans ?_⟩
  simp [Ledger.put, hquiet]

/-- A message is begun, and said as far as the client takes it. -/
theorem keeps_begin [Message α] {message : α} (hencode : Message.encode message = .ok bytes)
    (hmore : bytes ≠ []) (hpast : ledger past = l) (hquiet : l.isWriting = false)
    (hbegun : ∀ w, let l' : Ledger := { l with begun := l.begun ++ [bytes], isWriting := w }
      IsFair l' ∧ IsEven l') :
    (deliver message).Keeps peerTerms past fun p _ =>
      ∃ w, ledger p = { l with begun := l.begun ++ [bytes], isWriting := w } := by
  intro d u hl _
  obtain ⟨w, hw⟩ := ledger_deliver hencode hmore hquiet hl
  rw [← hpast, ← Hosting.ledger_append, hpast] at hw
  cases u with
  | done a => exact ⟨w, hw⟩
  | fail e => exact ⟨w, hw⟩
  | ask q next =>
    have hput : (ledger (past ++ d)).put q = _ := hw
    obtain ⟨hfair, heven⟩ := hbegun w
    show IsFair ((ledger (past ++ d)).put q) ∧ (¬ IsBrief q → IsEven ((ledger (past ++ d)).put q))
    rw [hput]
    exact ⟨hfair, fun _ => heven⟩

/-- A question, and what comes after its answer. -/
theorem serves_ask_bind {q : Hosting.Ask} {f : Hosting.Answer q → Task Hostings α}
    (hpast : ledger past = l) (hfair : IsFair (l.put q)) (heven : IsBrief q ∨ IsEven (l.put q))
    (hnext : ∀ a p, ledger p = l.enter ⟨q, a⟩ → Serves p (f a)) :
    Serves past ((ask q).bind f) := by
  refine Task.keeps_ask.2 ⟨⟨?_, fun hbrief => ?_⟩, fun a _ => hnext a _ ?_⟩
  · rw [hpast]
    exact hfair
  · rw [hpast]
    exact heven.resolve_left hbrief
  · rw [Hosting.ledger_concat, hpast]

/-- A message with which nothing is left to say, and what comes after it. -/
theorem serves_deliver_bind [Message β] {message : β} {f : Unit → Task Hostings α}
    (hencode : Message.encode message = .ok bytes) (hmore : bytes ≠ []) (hpast : ledger past = l)
    (hquiet : l.isWriting = false)
    (hover : ∀ w, IsOver { l with begun := l.begun ++ [bytes], isWriting := w })
    (hnext : ∀ p, (∀ w, IsOver { ledger p with isWriting := w }) → Serves p (f ())) :
    Serves past ((deliver message).bind f) := by
  refine (keeps_begin hencode hmore hpast hquiet
    fun w => ⟨(hover w).fair, (hover w).even⟩).bind ?_ ?_
  · rintro p _ ⟨w, hp⟩
    refine hnext p fun w' => ?_
    rw [hp]
    exact hover w'
  · rintro p _ ⟨w, hp⟩
    rw [hp]
    exact hover w

/-- A client is told of a failure. -/
theorem serves_reject {e : Failure} (hopen : e ≠ .closed) (hpast : ledger past = l)
    (hquiet : l.isWriting = false)
    (hover : ∀ bytes w, (Reply.failure e.replyCode).encode = .ok bytes →
      IsOver { l with begun := l.begun ++ [bytes], isWriting := w }) (f : β → Task Hostings α) :
    Serves past ((reject e : Task Hostings β).bind f) := by
  rw [reject_bind, reject, if_neg hopen]
  have hencode := encode_failure e.replyCode
  refine serves_deliver_bind hencode (by simp) hpast hquiet (fun w => hover _ w hencode)
    fun p hp => ?_
  exact Task.keeps_fail.2 (hp (ledger p).isWriting)

/-- To relay is no matter for the ledger. -/
theorem ledger_relay (past : Dialogue Hostings) (h : ∀ x ∈ d, OfRelay x.question) :
    ∃ w, ledger (past ++ d) = { ledger past with isWriting := w } := by
  induction d generalizing past with
  | nil => exact ⟨(ledger past).isWriting, by rw [List.append_nil]⟩
  | cons x d ih =>
    obtain ⟨hx, hd⟩ := List.forall_mem_cons.1 h
    have henter : (ledger past).enter x = { ledger past with isWriting := false } := by
      obtain ⟨q, a⟩ := x
      cases q with
      | enter _ | note _ | peer _ | relay _ => rfl
      | _ => exact hx.elim
    obtain ⟨w, hw⟩ := ih (past ++ [x]) hd
    rw [← List.append_cons, Hosting.ledger_concat, henter] at hw
    exact ⟨w, hw⟩

theorem serves_of_ofRelay {t : Task Hostings α} (hasks : t.AsksOnly OfRelay)
    (hover : ∀ w, IsOver { ledger past with isWriting := w }) : Serves past t := by
  refine (hasks.keeps fun d q hd hq => ?_).weaken ?_
  · obtain ⟨w, hw⟩ := ledger_relay past hd
    have hput : (ledger (past ++ d)).put q = ledger (past ++ d) := by
      cases q with
      | enter _ | note _ | peer _ | relay _ => rfl
      | _ => exact hq.elim
    show IsFair ((ledger (past ++ d)).put q) ∧ (¬ IsBrief q → IsEven ((ledger (past ++ d)).put q))
    rw [hput, hw]
    exact ⟨(hover w).fair, fun _ => (hover w).even⟩
  · rintro p r ⟨d, rfl, hd, _⟩
    obtain ⟨w, hw⟩ := ledger_relay past hd
    rw [hw]
    exact hover w

/-! ## BIND -/

variable {first : List Bytes} {limit : Option Duration} {closed : Bool}

/-- A connection that came in is announced, and relayed. -/
theorem serves_arrival {peer : SocketAddr} {early : Bytes} {t : Task Hostings α}
    (hfirst : first.length = 1) (hasks : t.AsksOnly OfRelay)
    (hpast : ledger past = { begun := first, waits := [⟨limit, .arrived peer early⟩] }) :
    Serves past ((note (.accepted peer)).bind fun _ =>
      (deliver (Reply.success peer)).bind fun _ => t) := by
  obtain ⟨bytes, hencode⟩ := exists_encode_success peer
  have hover : ∀ w, IsOver
      { begun := first ++ [bytes], isWriting := w, waits := [⟨limit, .arrived peer early⟩] } :=
    fun w => isOver_of_paid hfirst rfl rfl hencode rfl rfl
  refine serves_ask_bind hpast (isFair_of_unpaid rfl (Nat.le_of_eq hfirst)) (.inl trivial) ?_
  intro _ p hp
  exact serves_deliver_bind hencode (ne_nil_of_encode hencode) hp rfl hover
    fun p hover => serves_of_ofRelay hasks hover

/-- What has come of a wait is told to the client, as long as there is one. -/
theorem serves_inbound {answer : Hosting.Inbound limit} {t : Bytes → Task Hostings Unit}
    (hfirst : first.length = 1) (hasks : ∀ early, (t early).AsksOnly OfRelay)
    (hpast : ledger past = { begun := first, waits := [⟨limit, answer⟩], isClosed := closed })
    (hclosed : answer = .closed → closed) (hopen : answer ≠ .closed → closed = false) :
    Serves past ((inbound answer).bind fun x => (note (.accepted x.1)).bind fun _ =>
      (deliver (Reply.success x.1)).bind fun _ => t x.2) := by
  cases answer with
  | arrived peer early =>
    rw [hopen nofun] at hpast
    exact serves_arrival hfirst (hasks early) hpast
  | failed cause =>
    refine serves_reject (e := .unreached cause) nofun hpast rfl (fun bytes w hencode => ?_) _
    exact isOver_of_paid hfirst rfl rfl hencode rfl rfl
  | expired after within =>
    refine serves_reject (e := expiry "bind accept" after) nofun hpast rfl
      (fun bytes w hencode => ?_) _
    exact isOver_of_paid hfirst rfl rfl hencode rfl rfl
  | clientGone =>
    refine serves_ask_bind (q := .channel .close) hpast
      (isFair_of_unpaid rfl (Nat.le_of_eq hfirst)) (.inl trivial) fun _ p hp => ?_
    refine Task.keeps_fail.2 ?_
    rw [hp]
    exact isOver_of_gone rfl rfl (Nat.le_of_eq hfirst) rfl rfl
  | closed =>
    refine Task.keeps_fail.2 ?_
    rw [hpast]
    exact isOver_of_gone rfl rfl (Nat.le_of_eq hfirst) (hclosed rfl) rfl

/-- A client that was told where a connection is awaited is told of the connection, or of the
failure to get one. -/
theorem serves_wait (s : Setting) (limit : Option Duration) {address : SocketAddr}
    (hpast : ledger past = { begun := [bytes], listener := some address }) :
    Serves past ((ask (.awaitPeer limit)).bind fun answer => (ask .dropListener).bind fun _ =>
      (inbound answer).bind fun x => (note (.accepted x.1)).bind fun _ =>
      (deliver (Reply.success x.1)).bind fun _ =>
      if !x.2.isEmpty then
        (note .forwardingEarly).bind fun _ => (handOver x.2).bind fun _ =>
        (enter .bindRelaying).bind fun _ => relay s
      else (enter .bindRelaying).bind fun _ => relay s) := by
  obtain ⟨hfair, heven⟩ := isFair_of_unwaited (l := { begun := [bytes], listener := some address })
    rfl (Nat.le_refl 1)
  refine serves_ask_bind hpast hfair (.inr heven) fun answer p hp => ?_
  obtain ⟨closed, henter, hclosed, hopen⟩ := Ledger.enter_awaitPeer
    { begun := [bytes], listener := some address } answer
  rw [henter] at hp
  refine serves_ask_bind hp (isFair_of_unpaid rfl (Nat.le_refl 1)) (.inl trivial) fun _ p hp => ?_
  exact serves_inbound rfl (asksOnly_relayEarly s) hp hclosed hopen

/-- BIND keeps its ledger fair, whatever it is answered. -/
theorem serves_bind (s : Setting) (target : Target) : Serves [] (bind s target) := by
  unfold bind
  simp only [Task.bind_eq]
  obtain ⟨hfair, heven⟩ : IsFair {} ∧ IsEven {} := isFair_of_unwaited rfl (Nat.zero_le 1)
  have hgreeted : ∀ b w listener, IsFair { begun := [b], isWriting := w, listener } ∧
      IsEven { begun := [b], isWriting := w, listener } := fun _ _ _ =>
    isFair_of_unwaited rfl (Nat.le_refl 1)
  refine serves_ask_bind (q := .enter .bindListening) Hosting.ledger_nil hfair (.inr heven)
    fun _ p hp => ?_
  refine serves_ask_bind (q := .listen s.bindIp) hp hfair (.inr heven) fun answer p hp => ?_
  cases answer with
  | error cause =>
    refine serves_reject (e := .resource cause) nofun hp rfl (fun bytes w _ => ?_) _
    obtain ⟨hfair, heven⟩ := hgreeted bytes w none
    exact ⟨hfair, heven, rfl⟩
  | ok address =>
    obtain ⟨bytes, hencode⟩ := exists_encode_success address
    have hmore := ne_nil_of_encode hencode
    refine (keeps_begin hencode hmore hp rfl fun w => hgreeted bytes w address).attempt_bind ?_
    rintro p outcome ⟨w, hp⟩
    obtain ⟨hfair, heven⟩ := hgreeted bytes w address
    cases outcome with
    | error e =>
      refine serves_ask_bind (q := .dropListener) hp hfair (.inl trivial) fun _ p hp => ?_
      refine Task.keeps_fail.2 ?_
      obtain ⟨hfair, heven⟩ := hgreeted bytes false none
      rw [hp]
      exact ⟨hfair, heven, rfl⟩
    | ok _ =>
      exact serves_ask_bind (q := .note _) hp hfair (.inl trivial) fun _ p hp =>
        serves_wait s s.config.timeout hp

/-- BIND does not dial. -/
theorem asksOnly_bind (s : Setting) (target : Target) :
    (bind s target).AsksOnly LiveHost.IsUndialled := by
  have hreply : ∀ reply : Reply, (deliver reply).AsksOnly LiveHost.IsUndialled := by
    refine fun reply => (asksOnly_onStream _).mono fun q hq => ?_
    obtain ⟨p, rfl⟩ := exists_of_ofStream hq
    trivial
  have hrelay : ∀ q, OfRelay q → LiveHost.IsUndialled q := by
    intro q hq
    cases q with
    | connect limit address => exact hq.elim
    | _ => trivial
  have hinbound : ∀ {limit : Option Duration} (answer : Hosting.Inbound limit),
      (inbound answer).AsksOnly LiveHost.IsUndialled := by
    intro limit answer
    cases answer with
    | arrived peer early => trivial
    | failed cause => exact asksOnly_reject hreply (.unreached cause)
    | expired after _ => exact asksOnly_reject hreply (expiry "bind accept" after)
    | clientGone => exact .bind (asksOnly_ask (q := .channel .close) trivial) fun _ => trivial
    | closed => trivial
  unfold bind
  simp only [Task.bind_eq]
  refine .bind (asksOnly_ask trivial) fun _ => .bind (asksOnly_ask trivial) fun answer =>
    .bind (asksOnly_obtain hreply answer) fun address =>
    .bind (hreply _).attempt fun outcome => ?_
  cases outcome with
  | error e => exact .bind (asksOnly_ask trivial) fun _ => trivial
  | ok _ =>
    exact .bind (asksOnly_ask trivial) fun _ => .bind (asksOnly_ask trivial) fun answer =>
      .bind (asksOnly_ask trivial) fun _ => .bind (hinbound answer) fun x =>
      .bind (asksOnly_ask trivial) fun _ => .bind (hreply _) fun _ =>
      (asksOnly_relayEarly s x.2).mono hrelay

end Serving

namespace LiveHost

open Hosting (Ledger ledger arrived?)
open Serving (IsFair IsEven IsOver IsBrief due later owed)

variable {t : Task Hostings Unit} {h : LiveHost} {d : Dialogue Hostings} {accepted : List Inward}

/-- What has come of the wait for a connection: the connection that was accepted, if one was, and
the replies that are to follow the first one. -/
inductive Concludes : List ((limit : Option Duration) × Hosting.Inbound limit) →
    List Inward → List Reply → Prop where
  | waiting : Concludes [] [] []
  | accepted {limit : Option Duration} {peer : SocketAddr} {early : Bytes} {stream : Duplex} :
      Concludes [⟨limit, .arrived peer early⟩] [(peer, stream)] [.success peer]
  | failed {limit : Option Duration} {cause : IoFailure} :
      Concludes [⟨limit, .failed cause⟩] [] [.failure (Failure.unreached cause).replyCode]
  | expired {limit : Option Duration} {after : Duration} {within : limit = some after} :
      Concludes [⟨limit, .expired after within⟩] [] [.failure .ttlExpired]
  | clientGone {limit : Option Duration} : Concludes [⟨limit, .clientGone⟩] [] []
  | closed {limit : Option Duration} : Concludes [⟨limit, .closed⟩] [] []

theorem concludes_of_once {waits : List ((limit : Option Duration) × Hosting.Inbound limit)}
    (once : waits.length ≤ 1) (arrived : accepted.map Prod.fst = waits.filterMap arrived?) :
    Concludes waits accepted (waits.flatMap due) := by
  cases waits with
  | nil =>
    obtain rfl : accepted = [] := List.map_eq_nil_iff.1 arrived
    exact .waiting
  | cons w rest =>
    obtain rfl : rest = [] := List.length_eq_zero_iff.1 (by simpa using once)
    obtain ⟨limit, answer⟩ := w
    cases answer with
    | arrived peer early =>
      obtain ⟨⟨source, stream⟩, rfl, hsource⟩ := List.map_eq_singleton_iff.1 arrived
      obtain rfl : source = peer := hsource
      exact .accepted
    | _ =>
      obtain rfl : accepted = [] := List.map_eq_nil_iff.1 arrived
      constructor

/-- A success is not written as a failure is. -/
theorem encode_success_ne {peer : SocketAddr} {code : ReplyCode} (hcode : code ≠ .succeeded) :
    (Reply.success peer).encode ≠ (Reply.failure code).encode := by
  intro hsame
  obtain ⟨bytes, hencode⟩ := Serving.exists_encode_success peer
  obtain ⟨rest, hrest⟩ := Serving.exists_rest_of_encode hencode
  obtain ⟨rest', hrest'⟩ := Serving.exists_rest_of_encode (hsame.symm.trans hencode)
  have hbytes := congrArg (fun bytes : Bytes => bytes[1]?) (hrest.symm.trans hrest')
  have hbyte : ReplyCode.succeeded.toByte = code.toByte := Option.some.inj hbytes
  have hcodes := congrArg ReplyCode.ofByte? hbyte
  rw [ReplyCode.ofByte?_toByte, ReplyCode.ofByte?_toByte] at hcodes
  exact hcode (Option.some.inj hcodes).symm

/-- A success is to follow just when a connection was accepted. -/
theorem Concludes.announced {waits : List ((limit : Option Duration) × Hosting.Inbound limit)}
    {replies : List Reply} (h : Concludes waits accepted replies) :
    (∃ peer, (Reply.success peer).encode ∈ replies.map Reply.encode) ↔ accepted ≠ [] := by
  have hfailure : ∀ code : ReplyCode, code ≠ .succeeded →
      ¬ ∃ peer, (Reply.success peer).encode ∈ [Reply.failure code].map Reply.encode := by
    rintro code hcode ⟨peer, hmem⟩
    exact encode_success_ne hcode (List.mem_singleton.1 hmem)
  cases h with
  | accepted => simp
  | failed => exact iff_of_false (hfailure _ (Serving.isTold_unreached _)) fun h => h rfl
  | expired => exact iff_of_false (hfailure _ nofun) fun h => h rfl
  | _ => simp

/-- The session is over, or stands at a question that is not answered on the spot. -/
def Pauses (t : Task Hostings Unit) : Prop := ∀ q next, t = .ask q next → ¬ IsBrief q

/-- One peer is served: of the connections that come in one is accepted at most, the client hears of
it or of the failure to get one in one more reply, for which the listener is let go of, and no other
connection is the one of the session or relayed. A session whose client is gone has been closed, and
none leaves a listener behind. -/
structure OnePeer (d : Dialogue Hostings) (accepted : List Inward) (t : Task Hostings Unit)
    (h : LiveHost) : Prop where
  single : accepted.length ≤ 1
  concludes : ∃ replies, Concludes (ledger d).waits accepted replies ∧
    later ((ledger d).wait t) <+: replies.map Reply.encode ∧
    (Pauses t → later ((ledger d).wait t) = replies.map Reply.encode)
  announced : Pauses t →
    ((∃ peer, (Reply.success peer).encode ∈ later ((ledger d).wait t)) ↔ accepted ≠ [])
  gone : ∀ limit a, (ledger d).waits = [⟨limit, a⟩] → a = .clientGone ∨ a = .closed → Pauses t →
    h.session.registry.HasClosed h.session.id
  linked : ∀ link, h.link = some link →
    ∃ peer stream, accepted = [(peer, stream)] ∧ Stems stream link.stream
  relayed : ∀ r, h.relay = some r → ∃ peer stream, accepted = [(peer, stream)] ∧
    ∃ bufferSize client target acts,
      Stems stream target ∧ r = (Relay.start bufferSize client target).after acts
  released : 2 ≤ ((ledger d).wait t).begun.length → h.listener = none
  left : t.outcome?.isSome → h.listener = none

/-- Of at most one connection that was accepted, it is clear which one it was. -/
theorem IsAccepted.eq_singleton {stream : Duplex} (h : IsAccepted accepted stream)
    (single : accepted.length ≤ 1) :
    ∃ peer origin, accepted = [(peer, origin)] ∧ Stems origin stream := by
  obtain ⟨⟨peer, origin⟩, hmem, hstems⟩ := h
  cases accepted with
  | nil => cases hmem
  | cons inward rest =>
    obtain rfl : rest = [] := List.length_eq_zero_iff.1 (by simpa using single)
    exact ⟨peer, origin, by rw [List.mem_singleton.1 hmem], hstems⟩

theorem onePeer_of_kept (hfair : IsFair ((ledger d).wait t))
    (heven : Pauses t → IsEven ((ledger d).wait t))
    (hleft : t.outcome?.isSome → (ledger d).listener = none) (hkept : Kept d accepted h) :
    OnePeer d accepted t h := by
  have hwait : ∀ l : Ledger, (l.wait t).waits = l.waits ∧ (l.wait t).listener = l.listener ∧
      (l.wait t).isClosed = l.isClosed := by
    intro l
    cases t with
    | ask q next => exact ⟨l.waits_put q, l.listener_put q, l.isClosed_put q⟩
    | _ => exact ⟨rfl, rfl, rfl⟩
  obtain ⟨hwaits, hlistener, hclosed⟩ := hwait (ledger d)
  have howed : owed ((ledger d).wait t) = ((ledger d).waits.flatMap due).map Reply.encode := by
    rw [owed, hwaits]
  have honce : (ledger d).waits.length ≤ 1 := hwaits ▸ hfair.once
  have hconcludes := concludes_of_once honce hkept.arrived
  have hsingle : accepted.length ≤ 1 := by
    have hlength := congrArg List.length hkept.arrived
    rw [List.length_map] at hlength
    have := List.length_filterMap_le arrived? (ledger d).waits
    omega
  refine ⟨hsingle, ⟨_, hconcludes, howed ▸ hfair.within, fun hpauses => ?_⟩, fun hpauses => ?_,
    ?_, ?_, ?_, ?_, ?_⟩
  · rw [(heven hpauses).paid, howed]
  · rw [(heven hpauses).paid, howed]
    exact hconcludes.announced
  · intro limit a hwait hgone hpauses
    have hdue : due ⟨limit, a⟩ = [] := by
      rcases hgone with rfl | rfl <;> rfl
    have hended := (heven hpauses).closed ⟨limit, a⟩ (by simp [hwaits, hwait]) hdue
    rw [hclosed] at hended
    exact hkept.order.tidy.hasClosed hkept.order.known (hkept.closed hended)
  · exact fun link hlink => (hkept.linked link hlink).eq_singleton hsingle
  · intro r hr
    obtain ⟨bufferSize, client, target, acts, htarget, hr⟩ := hkept.relayed r hr
    obtain ⟨peer, stream, haccepted, hstems⟩ := htarget.eq_singleton hsingle
    exact ⟨peer, stream, haccepted, bufferSize, client, target, acts, hstems, hr⟩
  · intro htwo
    rw [hkept.listener, ← hlistener]
    exact hfair.released htwo
  · intro hover
    rw [hkept.listener]
    exact hleft hover

/-- In every race for a connection, BIND serves one peer. -/
theorem onePeer_races (s : Serving.Setting) (target : Target) {host : LiveHost}
    (hidle : IsIdle host) (hraces : Races (Serving.bind s target, host) d accepted (t, h)) :
    OnePeer d accepted t h := by
  have hkept := kept_races hidle (Serving.asksOnly_bind s target) hraces
  have hstands := (Serving.serves_bind s target).stands hraces.leads
    (Terms.honoured_of_allows (fun _ _ => trivial) _ _)
  cases t with
  | done a =>
    have hover : IsOver (ledger d) := hstands
    exact onePeer_of_kept hover.fair (fun _ => hover.even) (fun _ => hover.released) hkept
  | fail e =>
    have hover : IsOver (ledger d) := hstands
    exact onePeer_of_kept hover.fair (fun _ => hover.even) (fun _ => hover.released) hkept
  | ask q next =>
    obtain ⟨hfair, heven⟩ : IsFair ((ledger d).put q) ∧
        (¬ IsBrief q → IsEven ((ledger d).put q)) := hstands
    exact onePeer_of_kept hfair (fun hpauses => heven (hpauses q next rfl)) nofun hkept

/-- A client that has sent a byte ahead and has ended. -/
def crowdedHost : LiveHost where
  session := .alone .unspecified .unspecified ⟨⟨[.piece [0x2a], .finish], 0⟩, .empty {}⟩
  network :=
    { lookup := fun _ _ => .ok []
      dial := fun _ => none
      openSocket := fun _ _ _ => .ok .unspecified }

/-- Where the first of two peers comes from. -/
def firstPeer : SocketAddr := ⟨.v4 .localhost, 4711, 0⟩

/-- The client is told where the listener is, and two peers come in. -/
def crowdingMoves : List Move :=
  .replicate 5 .deal ++
    [.happen (.arrive firstPeer [] {}), .happen (.arrive .unspecified [] {})]

/-- What the host is left with once it has heard the byte and accepted the first peer. -/
def crowdedLeft (host : LiveHost) : LiveHost := { host with
  session := { host.session with
    stream := { host.session.stream with source := ⟨[.piece [], .finish], 1⟩ } }
  early := host.early ++ [0x2a]
  queue := [.ok (.unspecified, ⟨⟨[], 0⟩, .empty {}⟩)]
  link := some ⟨⟨⟨[], 0⟩, .empty {}⟩, (host.listener.map .ok).getD (.error .notConnected)⟩ }

/-- The byte is heard, and the first peer wins against the end of the client and is relayed. -/
theorem onePeer_races_crowdedHost :
    IsIdle crowdedHost ∧ ∃ d t h,
      Races (Serving.bind openSetting (.ofSocketAddr firstPeer), crowdedHost) d
        [(firstPeer, ⟨⟨[], 0⟩, .empty {}⟩)] (t, h) ∧
      h.relay.isSome ∧ OnePeer d [(firstPeer, ⟨⟨[], 0⟩, .empty {}⟩)] t h := by
  have hidle : IsIdle crowdedHost := by
    refine ⟨⟨Registry.tidy_new.create .unspecified .unspecified, rfl, ?_⟩, rfl, rfl, rfl⟩
    intro handle hhandle hsignalled
    cases hhandle
    cases hsignalled
  refine ⟨hidle, ?_⟩
  let serving := Serving.bind openSetting (.ofSocketAddr firstPeer)
  obtain ⟨before, hbefore⟩ := exists_races_course serving crowdedHost crowdingMoves
  obtain ⟨next, host, hasks, hqueue, hsource, hrelays⟩ : ∃ next host,
      course (serving, crowdedHost) crowdingMoves = (.ask (.awaitPeer none) next, host) ∧
      host.queue = .ok (firstPeer, ⟨⟨[], 0⟩, .empty {}⟩) ::
        [.ok (.unspecified, ⟨⟨[], 0⟩, .empty {}⟩)] ∧
      host.session.stream.source = ⟨[.piece [0x2a], .finish], 0⟩ ∧
      (course (next (.arrived firstPeer (host.early ++ [0x2a])), crowdedLeft host)
        (.replicate 8 .deal)).2.relay.isSome :=
    ⟨_, _, rfl, rfl, rfl, rfl⟩
  have hreads : host.session.stream.source.read 512 =
      ((some ⟨[0x2a], by decide, by decide⟩).map fun piece => .ok (some piece),
        ⟨[.piece [], .finish], 1⟩) := by
    rw [hsource]
    rfl
  rw [hasks] at hbefore
  obtain ⟨after, hafter⟩ := exists_races_course
    (next (.arrived firstPeer (host.early ++ [0x2a]))) (crowdedLeft host) (.replicate 8 .deal)
  have hraces := ((hbefore.step (.awaits (.hears hreads))).step (.awaits (.accepts hqueue))).trans
    hafter
  -- No connection was accepted before or after.
  have hone := onePeer_races openSetting (.ofSocketAddr firstPeer) hidle hraces
  obtain ⟨rfl, rfl⟩ : before = [] ∧ after = [] := by
    have hsingle := hone.single
    simp only [List.length_append, List.length_cons, List.length_nil] at hsingle
    exact ⟨List.length_eq_zero_iff.1 (by omega), List.length_eq_zero_iff.1 (by omega)⟩
  exact ⟨_, _, _, hraces, hrelays, hone⟩

end LiveHost

end Socks5

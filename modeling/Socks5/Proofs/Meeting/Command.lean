import Socks5.Proofs.Meeting.Method

/-!
# Carrying out a command

Once a client and a session are agreed on a method, the session carries out what the client has
asked for, and the client learns what has become of it: the address that the session was given, or
the code that stands for the session's own failure. Main statement: from the first byte to the last
a client and a session agree (`call_and_session_agree`).
-/

namespace Socks5

open Socks5.Task (Leads)
open Client (Configured offerBytes Runs HasDialled Point demand outcomeOf AfterReply LastReply
  Replied awaitPeer)
open Serving (Setting IsPlain Attends HasNegotiated Unvetted Fed Performs Performed Answered Spells
  HasReached IsTold carryOut finish)

variable {α : Type} {c : Client} {login : Option Login} {s : Setting} {methods : List Method}
  {verdict : Login → Verdict} {feed : Feed} {past d : Dialogue Calls} {r w rest bytes : Bytes}
  {target : Target}

/-! ## The client's side -/

namespace Client

/-- Asks the proxy to wait for a connection from a target, and waits for it. -/
def bindAndAwait (c : Client) (target : Target) : Task Calls (Target × Except Failure Target) := do
  let address ← c.bind target
  return (address, ← awaitPeer.attempt)

theorem connect_eq (hremote : c.resolvesLocally = false) (target : Target) :
    c.connect target = c.dial.bind fun _ => (demand .connect target).bind fun _ => .done () := by
  unfold connect
  rw [request_eq hremote]
  exact Task.bind_assoc _ _ _

theorem bindAndAwait_eq (hremote : c.resolvesLocally = false) (target : Target) :
    c.bindAndAwait target = c.dial.bind fun _ => (demand .bind target).bind fun a =>
      awaitPeer.attempt.bind fun peer => .done (a, peer) := by
  unfold bindAndAwait bind
  rw [request_eq hremote]
  exact Task.bind_assoc _ _ _

/-- What a client makes of the reply to CONNECT. -/
inductive AfterConnect (rest : Bytes) : Task Calls Unit → Prop where
  | unanswered {t : Task Calls Unit} (unread : Unreadable Reply rest) : AfterConnect rest t
  | refused {reply : Reply} {rest' : Bytes}
      (parse : Reply.decoder.parse rest = .finished (.ok reply) rest')
      (denies : reply.code ≠ .succeeded) : AfterConnect rest (.fail (.rejected reply.code))
  | granted {reply : Reply} {rest' : Bytes}
      (parse : Reply.decoder.parse rest = .finished (.ok reply) rest')
      (grants : reply.code = .succeeded) : AfterConnect rest (.done ())

/-- What a client makes of the replies to BIND. -/
inductive AfterBind (feed : Feed) (rest : Bytes) :
    Task Calls (Target × Except Failure Target) → Prop where
  | unanswered {t : Task Calls (Target × Except Failure Target)}
      (unread : Unreadable Reply rest) : AfterBind feed rest t
  | refused {reply : Reply} {rest' : Bytes}
      (parse : Reply.decoder.parse rest = .finished (.ok reply) rest')
      (denies : reply.code ≠ .succeeded) : AfterBind feed rest (.fail (.rejected reply.code))
  | granted {reply : Reply} {rest' : Bytes} {t : Task Calls (Target × Except Failure Target)}
      (parse : Reply.decoder.parse rest = .finished (.ok reply) rest')
      (grants : reply.code = .succeeded) (last : LastReply feed rest' reply.bound t) :
      AfterBind feed rest t

theorem afterConnect_of_settled {t : Task Calls Unit} (h : Point past r w)
    (hrest : r ++ rest = feed.bytes)
    (hencode : (Request.of .connect target).encode = .ok bytes)
    (hl : Leads ((demand .connect target).bind fun _ => .done ()) d t)
    (hd : (Call.fedTerms feed).Honoured past d)
    (hsettled : t.Settled (Call.fedTerms feed) (past ++ d)) :
    Call.told (past ++ d) = w ++ bytes ∧ AfterConnect rest t := by
  cases afterReply_of_settled (resolves_demand h hrest hencode) hl hd hsettled with
  | unanswered told unread => exact ⟨told, .unanswered unread⟩
  | refused told parse denies fails =>
    subst fails
    exact ⟨told, .refused parse denies⟩
  | granted parse _ grants parts point goesOn =>
    obtain ⟨rfl, rfl⟩ := Task.leads_done_iff.1 goesOn
    rw [parts, List.append_nil]
    exact ⟨point.told, .granted parse grants⟩

theorem afterBind_of_settled {t : Task Calls (Target × Except Failure Target)} (h : Point past r w)
    (hrest : r ++ rest = feed.bytes)
    (hencode : (Request.of .bind target).encode = .ok bytes)
    (hl : Leads ((demand .bind target).bind fun a =>
      awaitPeer.attempt.bind fun peer => .done (a, peer)) d t)
    (hd : (Call.fedTerms feed).Honoured past d)
    (hsettled : t.Settled (Call.fedTerms feed) (past ++ d)) :
    Call.told (past ++ d) = w ++ bytes ∧ AfterBind feed rest t := by
  cases afterReply_of_settled (resolves_demand h hrest hencode) hl hd hsettled with
  | unanswered told unread => exact ⟨told, .unanswered unread⟩
  | refused told parse denies fails =>
    subst fails
    exact ⟨told, .refused parse denies⟩
  | granted parse split grants parts point goesOn =>
    subst parts
    have hd₂ := (Terms.honoured_append.1 hd).2
    rw [← List.append_assoc] at hsettled ⊢
    rw [split, ← List.append_assoc] at hrest
    obtain ⟨htold, hlast⟩ := lastReply_of_settled point hrest goesOn hd₂ hsettled
    exact ⟨htold, .granted parse grants hlast⟩

end Client

/-! ## The session's side -/

namespace Serving

theorem Answered.append {d d' : Dialogue Hostings} {outcome : Except Failure Unit}
    {command : Command} {replies : List Reply} (h : Answered d outcome command replies)
    (hsilent : Hosting.told d' = []) : Answered (d ++ d') outcome command replies := by
  cases h with
  | refused fails told => exact .refused fails told
  | connected reaches given =>
    exact .connected (reaches.mono (List.subset_append_left d d')) (List.mem_append_left d' given)
  | accepted given comes =>
    exact .accepted (List.mem_append_left d' given) (List.mem_append_left d' comes)
  | missed given fails told => exact .missed (List.mem_append_left d' given) fails told
  | @abandoned _ limit _ before after given split silent =>
    have hsplit : d ++ d' = before ++ ⟨.awaitPeer limit, .clientGone⟩ :: (after ++ d') := by
      rw [split, List.append_assoc, List.cons_append]
    refine .abandoned (List.mem_append_left d' given) hsplit ?_
    rw [Hosting.told_append, hsilent, List.append_nil, silent]

/-- The first of some replies is read from their bytes, and the others stand behind it. -/
theorem Spells.parse {reply : Reply} {replies : List Reply} (h : Spells (reply :: replies) bytes) :
    ∃ rest, Reply.decoder.parse bytes = .finished (.ok reply) rest ∧ Spells replies rest := by
  cases h with
  | @cons _ _ _ rest encode spells => exact ⟨rest, Reply.parse_of_encode encode rest, spells⟩

end Serving

namespace Meeting

/-- The session has carried out a command for a target as its only request, has come to an outcome,
and is over. -/
inductive Executes (s : Setting) (command : Command) (target : Target) (m : Meeting α)
    (outcome : Except Failure Unit) : Prop where
  | intro {before through after : Dialogue Hostings} (unvetted : Unvetted before)
      (split : m.serves =
        before ++ [⟨.vetRequest (.of command target), none⟩] ++ (through ++ after))
      (carries : Leads (carryOut s (.of command target)) through (.ofExcept outcome))
      (ends : Leads (finish outcome) after (.done ())) (session : m.session = .done ()) :
      Executes s command target m outcome

variable {m : Meeting α}

/-- A session whose client has asked for a command has carried it out. -/
theorem executes_of_attends {command : Command}
    (h : Attends s m.toServer r bytes m.serves m.session)
    (hencode : (Request.of command target).encode = .ok bytes)
    (hcalm : m.toServer.calmTerms.Honoured [] m.serves)
    (hsettled : m.session.Settled m.toServer.calmTerms m.serves)
    (hperforms : ∀ {past : Dialogue Hostings} {rest : Bytes}, Fed m.toServer past r rest →
      Performs m.toServer (Performed command r) past (carryOut s (.of command target))) :
    ∃ outcome replies written, Executes s command target m outcome ∧ Spells replies written ∧
      Hosting.told m.serves = r ++ written ∧ Answered m.serves outcome command replies := by
  have hparse := Request.parse_of_encode hencode []
  rw [List.append_nil] at hparse
  cases h with
  | idle unread => exact absurd hparse (unread _ [])
  | @obeys request _ before after asks split fed unvetted carries =>
    rw [hparse] at asks
    cases asks
    rw [split] at hcalm hsettled
    have hafter := (Terms.honoured_append.1 hcalm).2
    obtain ⟨outcome, through, last, rfl, hthrough, hlast, hsession, hsilent, replies, written,
      hspells, htold, hanswered⟩ :=
      Serving.performed_of_settled (hperforms fed) carries hafter hsettled
    refine ⟨outcome, replies, written, ⟨unvetted, split, hthrough, hlast, hsession⟩, hspells, ?_,
      ?_⟩
    · rw [split, ← List.append_assoc, Hosting.told_append, htold, hsilent, List.append_nil]
    · rw [split, ← List.append_assoc]
      exact hanswered.append hsilent

/-! ## Both sides -/

/-- A meeting at rest in which an accord was reached in the part `d₁` of the call, after which the
client has gone on with `f`: the client has said `w` and heard `agreed` until then, and `more` is
what the session has said since. -/
structure Underway (s : Setting) (f : Task Calls α) (m : Meeting α) (agreed w more : Bytes)
    (d₁ d₂ : Dialogue Calls) : Prop where
  split : m.calls = d₁ ++ d₂
  point : Point d₁ agreed w
  goesOn : Leads f d₂ m.call
  heeds : (Call.fedTerms m.toClient).Honoured d₁ d₂
  settled : m.call.Settled (Call.fedTerms m.toClient) (d₁ ++ d₂)
  front : m.toClient.bytes = agreed ++ more
  attends : Attends s m.toServer agreed (Call.told d₂) m.serves m.session

theorem exists_underway {f : Task Calls α} (hc : Configured c login)
    (hs : s.methods = .ofList methods) (hplain : ∀ k ∈ methods, IsPlain verdict k)
    (hm : ComesTo (c.dial.bind fun _ => f) s m) (hrest : m.AtRest)
    (hdialled : HasDialled c m.calls) :
    ∃ agreed w more d₁ d₂, Underway s f m agreed w more d₁ d₂ := by
  cases (met_of_atRest hc hs hplain hm hrest).2 with
  | strangers _ _ _ _ _ undialled => exact absurd hdialled undialled
  | unwritten _ _ _ _ _ _ undialled => exact absurd hdialled undialled
  | denied _ _ _ _ _ _ _ _ undialled => exact absurd hdialled undialled
  | agreed _ _ _ split _ point goesOn _ attends =>
    obtain ⟨more, hfront⟩ := attends.front
    have hheeds := (holds_of_comesTo hm).heeds
    rw [split] at hheeds
    exact ⟨_, _, more, _, _, split, point, goesOn, (Terms.honoured_append.1 hheeds).2,
      split ▸ hrest.call, hfront, attends⟩

theorem told_of_point {d₁ d₂ : Dialogue Calls} (h : Point d₁ r w)
    (htold : Call.told (d₁ ++ d₂) = w ++ bytes) : Call.told d₂ = bytes := by
  rw [Call.told_append, h.told] at htold
  exact List.append_cancel_left htold

theorem exists_encode_of {command : Command} (h : target.encode = .ok bytes) :
    ∃ asked, (Request.of command target).encode = .ok asked :=
  ⟨_, map_eq_ok_iff.2 ⟨bytes, h, rfl⟩⟩

/-- What a client has of CONNECT, where the session's own outcome is known: the code that stands for
the failure, or the connection that the session has opened. -/
inductive Connected (m : Meeting Unit) (outcome : Except Failure Unit) : Prop where
  | refused {e : Failure} (fails : outcome = .error e) (told : IsTold e)
      (call : m.call = .fail (.rejected e.replyCode)) : Connected m outcome
  | connected {a : SocketAddr} (reaches : HasReached m.serves)
      (given : ⟨.localAddr, .ok a⟩ ∈ m.serves) (call : m.call = .done ()) : Connected m outcome

/-- What a client has of BIND: the code that stands for the failure; the address at which the
session has waited, with the peer that has come; or that address, with the code for the failure to
wait. -/
inductive Bound (m : Meeting (Target × Except Failure Target)) (outcome : Except Failure Unit) :
    Prop where
  | refused {e : Failure} (fails : outcome = .error e) (told : IsTold e)
      (call : m.call = .fail (.rejected e.replyCode)) : Bound m outcome
  | accepted {ip : Ip} {limit : Option Duration} {a peer : SocketAddr} {early : Bytes}
      (given : ⟨.listen ip, .ok a⟩ ∈ m.serves)
      (comes : ⟨.awaitPeer limit, .arrived peer early⟩ ∈ m.serves)
      (call : m.call = .done (.ofSocketAddr a, .ok (.ofSocketAddr peer))) : Bound m outcome
  | missed {ip : Ip} {a : SocketAddr} {e : Failure} (given : ⟨.listen ip, .ok a⟩ ∈ m.serves)
      (fails : outcome = .error e) (told : IsTold e)
      (call : m.call = .done (.ofSocketAddr a, .error (.rejected e.replyCode))) : Bound m outcome

theorem connected_of_answered {m : Meeting Unit} {outcome : Except Failure Unit}
    {replies : List Reply} (hanswered : Answered m.serves outcome .connect replies)
    (hspells : Spells replies bytes) (hafter : Client.AfterConnect bytes m.call) :
    Connected m outcome := by
  generalize hcall : m.call = t at hafter
  cases hanswered with
  | refused fails told =>
    obtain ⟨rest, hread, _⟩ := hspells.parse
    cases hafter with
    | unanswered unread => exact absurd hread (unread _ rest)
    | refused parse _ =>
      cases hread.symm.trans parse
      exact .refused fails told hcall
    | granted parse grants =>
      cases hread.symm.trans parse
      exact absurd grants told
  | connected reaches given =>
    obtain ⟨rest, hread, _⟩ := hspells.parse
    cases hafter with
    | unanswered unread => exact absurd hread (unread _ rest)
    | refused parse denies =>
      cases hread.symm.trans parse
      exact absurd rfl denies
    | granted => exact .connected reaches given hcall

/-- A client is told of a connection as the session has come to it. -/
theorem connected_of_atRest {m : Meeting Unit} (hc : Configured c login)
    (hremote : c.resolvesLocally = false) (hs : s.methods = .ofList methods)
    (hplain : ∀ k ∈ methods, IsPlain verdict k) (hm : ComesTo (c.connect target) s m)
    (hrest : m.AtRest) (hdialled : HasDialled c m.calls) (htarget : target.encode = .ok bytes) :
    ∃ outcome, Executes s .connect target m outcome ∧ Connected m outcome := by
  rw [Client.connect_eq hremote] at hm
  have h := holds_of_comesTo hm
  obtain ⟨agreed, w, more, d₁, d₂, hunderway⟩ := exists_underway hc hs hplain hm hrest hdialled
  obtain ⟨asked, hencode⟩ : ∃ asked, (Request.of .connect target).encode = .ok asked :=
    exists_encode_of htarget
  obtain ⟨htold, hafter⟩ := Client.afterConnect_of_settled hunderway.point hunderway.front.symm
    hencode hunderway.goesOn hunderway.heeds hunderway.settled
  have hattends := hunderway.attends
  rw [told_of_point hunderway.point htold] at hattends
  obtain ⟨outcome, replies, written, hexecutes, hspells, hwritten, hanswered⟩ :=
    executes_of_attends hattends hencode h.calm hrest.session fun h =>
      Serving.performs_connect s target h
  obtain rfl : more = written := List.append_cancel_left (hunderway.front.symm.trans hwritten)
  exact ⟨outcome, hexecutes, connected_of_answered hanswered hspells hafter⟩

/-- A client that awaits a second reply is not found gone: it would have been over while the stream
was still open. -/
theorem not_abandoned {t : Task Calls (Target × Except Failure Target)}
    {m : Meeting (Target × Except Failure Target)} {agreed more asked told : Bytes}
    {d₁ d₂ : Dialogue Calls} {before after : Dialogue Hostings} {limit : Option Duration}
    {a : SocketAddr} (h : Holds t s m)
    (hunderway : Underway s ((demand .bind target).bind fun a =>
      awaitPeer.attempt.bind fun peer => .done (a, peer)) m agreed w more d₁ d₂)
    (hsplit : m.serves = before ++ ⟨.awaitPeer limit, .clientGone⟩ :: after)
    (htold : Hosting.told before = agreed ++ told) (hspells : Spells [.success a] told)
    (hencode : (Request.of .bind target).encode = .ok asked) : False := by
  obtain ⟨hover, hheeds⟩ := h.leaves before limit after hsplit
  rw [hunderway.split] at hheeds
  have hsettled : ∀ terms past, m.call.Settled (I := Calls) terms past := by
    intro terms past q next hask
    rw [hask] at hover
    exact absurd rfl hover
  -- The call is looked at with the feed that it had when it was found gone. It heard the first
  -- reply and no end, so that it would still be waiting for the second.
  obtain ⟨_, hafter⟩ := Client.afterBind_of_settled hunderway.point htold.symm hencode
    hunderway.goesOn (Terms.honoured_append.1 hheeds).2 (hsettled _ _)
  obtain ⟨rest, hread, hothers⟩ := hspells.parse
  cases hothers
  generalize m.call = t at hafter hover
  cases hafter with
  | unanswered unread => exact unread _ [] hread
  | refused parse denies =>
    cases hread.symm.trans parse
    exact denies rfl
  | granted parse _ last =>
    cases hread.symm.trans parse
    cases last with
    | unanswered _ ended => exact ended _ rfl hover rfl
    | replied parse => cases parse

theorem bound_of_answered {m : Meeting (Target × Except Failure Target)}
    {outcome : Except Failure Unit} {replies : List Reply}
    (hanswered : Answered m.serves outcome .bind replies) (hspells : Spells replies bytes)
    (hafter : Client.AfterBind feed bytes m.call)
    (habandoned : ∀ {before after : Dialogue Hostings} {limit : Option Duration} {a : SocketAddr},
      m.serves = before ++ ⟨.awaitPeer limit, .clientGone⟩ :: after →
      Hosting.told before = Hosting.told m.serves → replies ≠ [.success a]) : Bound m outcome := by
  obtain ⟨reply, others, rfl⟩ : ∃ reply others, replies = reply :: others := by
    cases hanswered <;> exact ⟨_, _, rfl⟩
  obtain ⟨_, hread, hothers⟩ := hspells.parse
  generalize hcall : m.call = t at hafter
  cases hafter with
  | unanswered unread => exact absurd hread (unread _ _)
  | refused parse denies =>
    cases hread.symm.trans parse
    cases hanswered with
    | refused fails told => exact .refused fails told hcall
    | _ => exact absurd rfl denies
  | granted parse grants last =>
    cases hread.symm.trans parse
    cases hanswered with
    | refused _ told => exact absurd grants told
    | accepted given comes =>
      obtain ⟨rest, hlast, _⟩ := hothers.parse
      cases last with
      | unanswered unread => exact absurd hlast (unread _ rest)
      | replied parse =>
        cases hlast.symm.trans parse
        exact .accepted given comes hcall
    | @missed ip a e given fails told =>
      obtain ⟨rest, hlast, _⟩ := hothers.parse
      cases last with
      | unanswered unread => exact absurd hlast (unread _ rest)
      | replied parse =>
        cases hlast.symm.trans parse
        have houtcome : outcomeOf (.failure e.replyCode) = .error (.rejected e.replyCode) :=
          Client.outcomeOf_eq_error_iff.2 ⟨told, rfl⟩
        rw [houtcome] at hcall
        exact .missed given fails told hcall
    | abandoned _ split silent => exact absurd rfl (habandoned split silent)

/-- A client is told of a peer as the session has come to it. -/
theorem bound_of_atRest {m : Meeting (Target × Except Failure Target)} (hc : Configured c login)
    (hremote : c.resolvesLocally = false) (hs : s.methods = .ofList methods)
    (hplain : ∀ k ∈ methods, IsPlain verdict k) (hm : ComesTo (c.bindAndAwait target) s m)
    (hrest : m.AtRest) (hdialled : HasDialled c m.calls) (htarget : target.encode = .ok bytes) :
    ∃ outcome, Executes s .bind target m outcome ∧ Bound m outcome := by
  rw [Client.bindAndAwait_eq hremote] at hm
  have h := holds_of_comesTo hm
  obtain ⟨agreed, w, more, d₁, d₂, hunderway⟩ := exists_underway hc hs hplain hm hrest hdialled
  obtain ⟨asked, hencode⟩ : ∃ asked, (Request.of .bind target).encode = .ok asked :=
    exists_encode_of htarget
  obtain ⟨htold, hafter⟩ := Client.afterBind_of_settled hunderway.point hunderway.front.symm
    hencode hunderway.goesOn hunderway.heeds hunderway.settled
  have hattends := hunderway.attends
  rw [told_of_point hunderway.point htold] at hattends
  obtain ⟨outcome, replies, written, hexecutes, hspells, hwritten, hanswered⟩ :=
    executes_of_attends hattends hencode h.calm hrest.session fun h =>
      Serving.performs_bind s target h
  obtain rfl : more = written := List.append_cancel_left (hunderway.front.symm.trans hwritten)
  refine ⟨outcome, hexecutes, bound_of_answered hanswered hspells hafter ?_⟩
  rintro before after limit a hgone hsilent rfl
  exact not_abandoned h hunderway hgone (hsilent.trans hwritten) hspells hencode

/-- A client and a session agree. Whatever the pieces in which the bytes come, the order in which
the two go on, and the answers of their hosts, every meeting comes to rest. Then both run the method
with the highest id that they share, or give up for want of one; the client is let in exactly if its
login is admitted, or else both know of the refusal, and a login that does not fit is not even
written. Once the client is let in, the session carries out just the command and the target that the
client has asked for, and the client learns what has become of it. -/
theorem call_and_session_agree (hc : Configured c login) (hremote : c.resolvesLocally = false)
    (hs : s.methods = .ofList methods) (hplain : ∀ k ∈ methods, IsPlain verdict k) :
    (∀ α : Type, WellFounded fun m' m : Meeting α => Step m m') ∧
    (∀ (α : Type) (f : Task Calls α) (m : Meeting α), ComesTo (c.dial.bind fun _ => f) s m →
      m.AtRest → AgreesOnMethod c login s verdict m) ∧
    ∀ target : Target, (∃ w, target.encode = .ok w) →
      (∀ m, ComesTo (c.connect target) s m → m.AtRest → HasDialled c m.calls →
        ∃ outcome, Executes s .connect target m outcome ∧ Connected m outcome) ∧
      ∀ m, ComesTo (c.bindAndAwait target) s m → m.AtRest → HasDialled c m.calls →
        ∃ outcome, Executes s .bind target m outcome ∧ Bound m outcome := by
  refine ⟨fun _ => wellFounded_step, fun α f m hm hrest =>
    agreesOnMethod_of_atRest hc hs hplain hm hrest, fun target htarget => ?_⟩
  obtain ⟨w, hencode⟩ := htarget
  constructor
  · intro m hm hrest hdialled
    exact connected_of_atRest hc hremote hs hplain hm hrest hdialled hencode
  · intro m hm hrest hdialled
    exact bound_of_atRest hc hremote hs hplain hm hrest hdialled hencode

/-- Lets in whoever knows one login. -/
def doorkeeper (l : Login) : Verdict :=
  if l = ⟨"u", "p"⟩ then .admitted (some l.username) else .refused "unknown"

/-- A proxy for everybody and for those that log in. -/
def house : Setting :=
  ⟨.ofList [.noAuth, .userPass (some (Serving.deciding doorkeeper)) none], {}, .unspecified,
    .unspecified⟩

/-- A client that logs in is let in, asks for a connection to port 80 of the proxy's own host, and
learns what has become of it. -/
theorem guest_and_house_agree :
    Configured Client.guest (some ⟨"u", "p"⟩) ∧
      ∃ m, ComesTo (Client.guest.connect ⟨.ip (.v4 .localhost), 80⟩) house m ∧ m.AtRest ∧
        HasDialled Client.guest m.calls ∧
        ∃ outcome, Executes house .connect ⟨.ip (.v4 .localhost), 80⟩ m outcome ∧
          Connected m outcome := by
  have hc : Configured Client.guest (some ⟨"u", "p"⟩) := .withLogin (.new _) _
  have hplain : ∀ k ∈ [.noAuth, .userPass (some (Serving.deciding doorkeeper)) none],
      IsPlain doorkeeper k := by
    intro k hk
    simpa [IsPlain] using hk
  obtain ⟨_, hagrees, hcommands⟩ := call_and_session_agree (s := house) hc rfl rfl hplain
  obtain ⟨m, hm, hrest⟩ := exists_atRest
    (start (Client.guest.connect ⟨.ip (.v4 .localhost), 80⟩) house)
  have hagree := hagrees _ _ m (Client.connect_eq (c := Client.guest) rfl _ ▸ hm) hrest
  have hdialled : HasDialled Client.guest m.calls := by
    refine (hagree.decided ⟨"u", "p"⟩ rfl ?_ ?_).1.2 ?_
    · decide
    · exact ⟨⟨by decide, by decide⟩, by decide, by decide⟩
    · decide
  exact ⟨hc, m, hm, hrest, hdialled, (hcommands _ ⟨_, rfl⟩).1 m hm hrest hdialled⟩

end Meeting

end Socks5

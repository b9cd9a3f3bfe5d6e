import Socks5.Proofs.Client.Conduct
import Socks5.Proofs.Stream.Feed

/-!
# A client that is fed

What a client comes to whose proxy can be reached, brings given bytes in pieces of any size, and
takes whatever is written. Main statements: how far the client gets with agreeing on a method is a
matter of the bytes that it is fed (`greeted_of_settled`), and so is what comes of its request
(`afterReply_of_settled`, `lastReply_of_settled`).
-/

namespace Socks5

namespace Call

/-- What is answered on a call whose proxy is reached: the stream is fed, and the host answers as
it likes. -/
def Allows (feed : Feed) (past : Dialogue Calls) : (q : Call.Ask) → Call.Answer q → Prop
  | .dial _, answer => answer = .ok ()
  | .stream q, answer => feed.Brings (heard past) ⟨q, answer⟩
  | _, _ => True

/-- The terms of a client that is fed. -/
def fedTerms (feed : Feed) : Terms Calls where
  allows past x := Allows feed past x.question x.answer
  permits _ _ := True

/-- An exchange with the proxy is one with a stream that is fed. -/
theorem honoured_onProxy {feed : Feed} {past : Dialogue Calls} {d : Dialogue Streams} :
    (fedTerms feed).Honoured past (d.map onProxy) ↔
      (feed.streamTerms (heard past)).Honoured [] d := by
  refine Terms.honoured_map_iff fun d x => ?_
  show feed.Brings (heard (past ++ d.map onProxy)) x ↔ feed.Brings (heard past ++ Stream.heard d) x
  rw [heard_append, heard_onProxy]

end Call

namespace Client

open Socks5.Task (Leads honoured_reaching)
open Call (told heard onStream obtain fedTerms onStream_bind leads_onStream_iff deliver_of_error)

variable {α β : Type} {c : Client} {login : Option Login} {feed : Feed} {past : Dialogue Calls}
  {r w rest bytes : Bytes} {aim : Dialogue Calls → Prop}
  {case : Dialogue Calls → Option (Except Failure α) → Prop}

/-! ## Messages of a feed -/

/-- What a client that has heard `r` and said `w` has of a feed for a message: the message, whose
bytes lead the feed, or a failure because there is none. -/
inductive Fetched (β : Type) [Message β] (feed : Feed) (r w rest : Bytes) (p : Dialogue Calls) :
    Except Failure β → Prop where
  | read {b : β} {bytes rest' : Bytes} (split : rest = bytes ++ rest')
      (parse : (Message.decoder (α := β)).parse bytes = .finished (.ok b) [])
      (point : Point p (r ++ bytes) w) : Fetched β feed r w rest p (.ok b)
  | unread {e : Failure} (told : Call.told p = w) (unreadable : Unreadable β rest)
      (ended : ∀ field, (Message.decoder (α := β)).parse rest = .lacking field →
        feed.ending ≠ none) : Fetched β feed r w rest p (.error e)

/-- A message comes of a feed exactly if its bytes lead the feed. -/
theorem Point.keeps_receive_fed [Message β] (h : Point past r w) (hrest : r ++ rest = feed.bytes)
    (hunread : Unreadable β rest → ∀ p, Call.told p = w → aim p) :
    (onStream (Stream.receive β)).Keeps ((fedTerms feed).reaching aim) past
      (Fetched β feed r w rest) := by
  intro d u hl hd
  rw [honoured_reaching] at hd
  have hreceived := Call.leads_receive hl
  have htold : Call.told (past ++ d) = w := by
    rw [Call.told_append, hreceived.mute, List.append_nil, h.told]
  obtain ⟨d₀, u₀, h₀, rfl, rfl⟩ := leads_onStream_iff.1 hl
  have hstart : Call.heard past ++ rest = feed.bytes := by rw [h.heard, hrest]
  obtain ⟨rest', hsplit, hfared⟩ := Stream.leads_run_fed h₀ (Call.honoured_onProxy.1 hd) hstart
  cases hfared with
  | @reads b parse =>
    rw [← Call.heard_onProxy] at hsplit
    refine .read hsplit (hreceived.value b rfl) ⟨?_, htold⟩
    rw [Call.heard_append, h.heard]
  | fails unread ended => exact .unread htold unread ended
  | @waits q next unread =>
    intro hnone
    refine hunread (unread fun answer hanswer => hnone answer ?_) _ htold
    show feed.Brings (Call.heard (past ++ d₀.map Call.onProxy)) ⟨q, answer⟩
    rw [Call.heard_append, Call.heard_onProxy]
    exact hanswer

/-- What may come of work whose message does not come: no value, and no failure for want of bytes
unless the feed has an end. -/
structure Unmet (β : Type) [Message β] (feed : Feed) (rest : Bytes)
    (result : Option (Except Failure α)) : Prop where
  unsettled : ∀ a, result ≠ some (.ok a)
  ended : ∀ field, (Message.decoder (α := β)).parse rest = .lacking field → result ≠ none →
    feed.ending ≠ none

/-- A message that is fed, and what comes after it. -/
theorem Point.resolves_receive_bind [Message β] {f : β → Task Calls α} (h : Point past r w)
    (hrest : r ++ rest = feed.bytes)
    (hunread : Unreadable β rest → ∀ p result, Unmet β feed rest result → Call.told p = w →
      case p result)
    (hnext : ∀ p b bytes rest', rest = bytes ++ rest' →
      (Message.decoder (α := β)).parse bytes = .finished (.ok b) [] → Point p (r ++ bytes) w →
      (f b).Resolves (fedTerms feed) case p) :
    ((onStream (Stream.receive β)).bind f).Resolves (fedTerms feed) case past := by
  have hreceive : (onStream (Stream.receive β)).Keeps
      ((fedTerms feed).reaching fun p => case p none) past (Fetched β feed r w rest) :=
    h.keeps_receive_fed hrest fun hunreadable p htold =>
      hunread hunreadable p none ⟨nofun, fun _ _ hnone => absurd rfl hnone⟩ htold
  refine hreceive.bind ?_ ?_
  · intro p b hb
    cases hb with
    | read split parse point => exact hnext p b _ _ split parse point
  · intro p e he
    cases he with
    | unread told unreadable ended =>
      exact hunread unreadable p (some (.error e)) ⟨nofun, fun field hlacks _ => ended field hlacks⟩
        told

/-- Every message gets through. -/
theorem Point.keeps_deliver_fed [Message β] {message : β} (h : Point past r w)
    (hencode : Message.encode message = .ok bytes) :
    (onStream (Stream.deliver message)).Keeps ((fedTerms feed).reaching aim) past fun p result =>
      result = .ok () ∧ Point p r (w ++ bytes) := by
  intro d u hl hd
  rw [honoured_reaching] at hd
  have hdelivered := Call.leads_deliver hencode hl
  have hheard : Call.heard (past ++ d) = r := by
    rw [Call.heard_append, hdelivered.deaf, List.append_nil, h.heard]
  rw [Stream.deliver, hencode] at hl
  obtain ⟨d₀, u₀, h₀, rfl, rfl⟩ := leads_onStream_iff.1 hl
  rcases Stream.leads_send_fed h₀ (Call.honoured_onProxy.1 hd) with
    ⟨rfl, htaken⟩ | ⟨q, next, rfl, answer, hanswer⟩
  · refine ⟨rfl, hheard, ?_⟩
    rw [Call.told_append, Call.told_onProxy, h.told, htaken]
  · intro hnone
    have hbrings : feed.Brings (Call.heard (past ++ d₀.map Call.onProxy)) ⟨q, answer⟩ := by
      rw [Call.heard_append, Call.heard_onProxy]
      exact hanswer
    exact absurd hbrings (hnone answer)

theorem Point.resolves_deliver_bind [Message β] {message : β} {f : Unit → Task Calls α}
    (h : Point past r w) (hencode : Message.encode message = .ok bytes)
    (hnext : ∀ p, Point p r (w ++ bytes) → (f ()).Resolves (fedTerms feed) case p) :
    ((onStream (Stream.deliver message)).bind f).Resolves (fedTerms feed) case past := by
  have hdeliver : (onStream (Stream.deliver message)).Keeps
      ((fedTerms feed).reaching fun p => case p none) past fun p result =>
        result = .ok () ∧ Point p r (w ++ bytes) := h.keeps_deliver_fed hencode
  refine hdeliver.bind ?_ ?_
  · intro p _ hp
    exact hnext p hp.2
  · intro p e hp
    cases hp.1

/-! ## Agreeing on a method -/

/-- Opens a connection and has a method chosen. -/
def agree (c : Client) : Task Calls Method :=
  (ask (.dial c.proxy)).bind fun reached => (obtain reached).bind fun _ =>
  (onStream (Stream.deliver c.offer)).bind fun _ =>
  (onStream (Stream.receive MethodChoice)).bind fun choice => .ofExcept (c.methodOf choice)

theorem dial_eq (c : Client) : c.dial = c.agree.bind fun m => onStream m.client := by
  unfold dial handshake agree
  simp only [Task.bind_eq, onStream_bind, Task.bind_assoc, Call.onStream_ofExcept]

/-- How far a client gets with having a method chosen: there is no choice to be read, the choice is
declined, or a method is to run. -/
inductive Heeded (c : Client) (login : Option Login) (feed : Feed) (d : Dialogue Calls) :
    Option (Except Failure Method) → Prop where
  | unanswered {result : Option (Except Failure Method)} (told : told d = offerBytes login)
      (unread : Unreadable MethodChoice feed.bytes) (unsettled : ∀ m, result ≠ some (.ok m)) :
      Heeded c login feed d result
  | declined {choice : MethodChoice} {rest : Bytes} {e : Failure}
      (told : told d = offerBytes login) (chosen : feed.bytes = [0x05, choice.method] ++ rest)
      (declines : c.methodOf choice = .error e) : Heeded c login feed d (some (.error e))
  | chosen {choice : MethodChoice} {rest : Bytes} {m : Method}
      (point : Point d [0x05, choice.method] (offerBytes login))
      (chosen : feed.bytes = [0x05, choice.method] ++ rest) (accepts : c.methodOf choice = .ok m) :
      Heeded c login feed d (some (.ok m))

/-- Which method a client runs is a matter of the bytes that it is fed. -/
theorem resolves_agree (hc : Configured c login) (feed : Feed) :
    c.agree.Resolves (fedTerms feed) (Heeded c login feed) [] := by
  unfold agree
  refine Task.keeps_ask.2 ⟨fun hnone => absurd rfl (hnone (.ok ())), fun reached hreached => ?_⟩
  obtain rfl : reached = .ok () := hreached
  have h : Point ([] ++ [⟨.dial c.proxy, .ok ()⟩]) [] [] := ⟨rfl, rfl⟩
  refine h.resolves_deliver_bind hc.encode_offer fun p h => ?_
  rw [List.nil_append] at h
  refine h.resolves_receive_bind rfl ?_ fun p choice bytes rest hsplit hparse h => ?_
  · intro hunread p result hunmet htold
    exact .unanswered htold hunread hunmet.unsettled
  · obtain rfl := MethodChoice.parse_ok_iff.1 hparse
    rw [List.nil_append] at h
    cases hm : c.methodOf choice with
    | error e => exact Task.keeps_fail.2 (.declined h.told hsplit hm)
    | ok m => exact Task.keeps_done.2 (.chosen h hsplit hm)

/-- How far a client gets with its login, where `rest` is ahead of it: the login has no written
form, is not answered, is denied, or lets the client in. -/
inductive Presented (l : Login) (rest : Bytes) (d : Dialogue Calls) :
    Option (Except Failure Unit) → Prop where
  | unwritten {e : Failure} (told : told d = offerBytes (some l)) (encode : l.encode = .error e) :
      Presented l rest d (some (.error e))
  | unanswered {result : Option (Except Failure Unit)} {presented : Bytes}
      (told : told d = offerBytes (some l) ++ presented) (encode : l.encode = .ok presented)
      (unread : Unreadable LoginReply rest) (unsettled : ∀ u, result ≠ some (.ok u)) :
      Presented l rest d result
  | denied {presented rest' : Bytes} {status : UInt8}
      (told : told d = offerBytes (some l) ++ presented) (encode : l.encode = .ok presented)
      (answered : rest = [0x01, status] ++ rest') (denies : status ≠ 0) :
      Presented l rest d (some (.error (.authentication (.credentialsRejected status))))
  | admitted {presented rest' : Bytes} (encode : l.encode = .ok presented)
      (answered : rest = [0x01, 0x00] ++ rest')
      (point : Point d [0x05, 0x02, 0x01, 0x00] (offerBytes (some l) ++ presented)) :
      Presented l rest d (some (.ok ()))

/-- What comes of a login is a matter of the bytes that the client is fed. -/
theorem resolves_presentLogin {l : Login} (h : Point past [0x05, 0x02] (offerBytes (some l)))
    (hrest : [0x05, 0x02] ++ rest = feed.bytes) :
    (onStream (Method.presentLogin (some l))).Resolves (fedTerms feed) (Presented l rest) past := by
  simp only [Method.presentLogin, Task.bind_eq, onStream_bind]
  cases hencode : Message.encode l with
  | error e =>
    rw [deliver_of_error hencode]
    exact Task.keeps_fail.2 (.unwritten h.told hencode)
  | ok presented =>
    refine h.resolves_deliver_bind hencode fun p h => ?_
    refine h.resolves_receive_bind hrest ?_ fun p reply bytes rest' hsplit hparse h => ?_
    · intro hunread p result hunmet htold
      exact .unanswered htold hencode hunread hunmet.unsettled
    · obtain rfl := LoginReply.parse_ok_iff.1 hparse
      by_cases haccepted : reply.isAccepted
      · rw [if_pos haccepted]
        rw [of_decide_eq_true haccepted] at h hsplit
        exact Task.keeps_done.2 (.admitted hencode hsplit h)
      · rw [if_neg haccepted]
        have hdenies : reply.status ≠ 0 := of_decide_eq_false (Bool.eq_false_iff.2 haccepted)
        exact Task.keeps_fail.2 (.denied h.told hencode hsplit hdenies)

/-- A client goes to run a method. -/
def Runs (c : Client) (m : Method) (d : Dialogue Calls) : Prop :=
  ∃ front back, d = front ++ back ∧ Leads c.dial front (onStream m.client)

/-- A client comes to an agreement with its proxy. -/
def HasDialled (c : Client) (d : Dialogue Calls) : Prop :=
  ∃ front back, d = front ++ back ∧ Leads c.dial front (.done ())

/-- How a client stands with its proxy that has come to rest, and goes on with `f` once there is an
agreement: it has no choice to read, or it has declined it; its login cannot be written, is not
answered, or was denied; or there is an agreement. -/
inductive Greeted (c : Client) (login : Option Login) (feed : Feed) (f : Task Calls α)
    (d : Dialogue Calls) (t : Task Calls α) : Prop where
  | unanswered (told : told d = offerBytes login) (unread : Unreadable MethodChoice feed.bytes) :
      Greeted c login feed f d t
  | declined {choice : MethodChoice} {rest : Bytes} {e : Failure} (told : told d = offerBytes login)
      (chosen : feed.bytes = [0x05, choice.method] ++ rest)
      (declines : c.methodOf choice = .error e) (fails : t = .fail e)
      (unfinished : ¬ HasDialled c d) : Greeted c login feed f d t
  | presented {l : Login} {rest : Bytes} {result : Option (Except Failure Unit)}
      (given : login = some l) (runs : Runs c (.userPass none (some l)) d)
      (chosen : feed.bytes = [0x05, 0x02] ++ rest) (presents : Presented l rest d result)
      (fails : ∀ e, result = some (.error e) → t = .fail e) (unsettled : result ≠ some (.ok ()))
      (unfinished : ¬ HasDialled c d) : Greeted c login feed f d t
  | agreed {agreed presented rest rest' : Bytes} {d₁ d₂ : Dialogue Calls} {m : Method}
      (agreement : Agreement login agreed presented) (runs : Runs c m d)
      (chosen : feed.bytes = [0x05, m.id] ++ rest) (answered : feed.bytes = agreed ++ rest')
      (split : d = d₁ ++ d₂) (dials : Leads c.dial d₁ (.done ()))
      (point : Point d₁ agreed (offerBytes login ++ presented)) (goesOn : Leads f d₂ t) :
      Greeted c login feed f d t

theorem not_hasDialled {d : Dialogue Calls} {u : Task Calls Unit} (h : Leads c.dial d u)
    (hunfinished : u ≠ .done ()) : ¬ HasDialled c d := by
  rintro ⟨front, back, rfl, hdone⟩
  obtain ⟨v, hv, hu⟩ := h.split
  obtain rfl := hv.unique hdone
  exact hunfinished (Task.leads_done_iff.1 hu).2

theorem greeted_of_presentLogin {l : Login} {f t : Task Calls α} {d₁ d₂ : Dialogue Calls}
    (hd : (fedTerms feed).Honoured [] (d₁ ++ d₂)) (hsettled : t.Settled (fedTerms feed) (d₁ ++ d₂))
    (h : Point d₁ [0x05, 0x02] (offerBytes (some l))) (hchosen : feed.bytes = [0x05, 0x02] ++ rest)
    (hdials : Leads c.dial d₁ (onStream (Method.userPass none (some l)).client))
    (hl : Leads ((onStream (Method.userPass none (some l)).client).bind fun _ => f) d₂ t) :
    Greeted c (some l) feed f (d₁ ++ d₂) t := by
  have hresolves := resolves_presentLogin h hchosen.symm
  have hd₂ := (Terms.honoured_append.1 hd).2
  rcases hresolves.bind_cases hl hd₂ hsettled with
    ⟨u, hu, rfl, hne, hcase⟩ | ⟨_, d₃, d₄, rfl, h₃, hcase, h₄⟩
  · refine .presented rfl ⟨d₁, d₂, rfl, hdials⟩ hchosen hcase ?_ ?_
      (not_hasDialled (hdials.trans hu) (hne ()))
    · intro e he
      rw [Task.outcome?_eq_some_iff.1 he]
      rfl
    · intro hdone
      exact hne () (Task.outcome?_eq_some_iff.1 hdone)
  · cases hcase with
    | unanswered _ _ _ unsettled => exact absurd rfl (unsettled ())
    | @admitted presented rest' hencode hanswered h =>
      rw [hanswered] at hchosen
      exact .agreed (.admitted rfl hencode) ⟨d₁, d₃ ++ d₄, rfl, hdials⟩ hchosen hchosen
        (List.append_assoc d₁ d₃ d₄).symm (hdials.trans h₃) h h₄

/-- How far a client gets with its proxy is a matter of the bytes that it is fed. -/
theorem greeted_of_settled {f t : Task Calls α} {d : Dialogue Calls} (hc : Configured c login)
    (hl : Leads (c.dial.bind fun _ => f) d t) (hd : (fedTerms feed).Honoured [] d)
    (hsettled : t.Settled (fedTerms feed) d) : Greeted c login feed f d t := by
  rw [dial_eq, Task.bind_assoc] at hl
  rcases (resolves_agree hc feed).bind_cases hl hd hsettled with
    ⟨u, hu, rfl, hne, hcase⟩ | ⟨m, d₁, d₂, rfl, h₁, hcase, h₂⟩
  · have hdials : Leads c.dial d (u.bind fun m => onStream m.client) := by
      rw [dial_eq]
      exact hu.bind _
    generalize hresult : u.outcome? = result at hcase
    cases hcase with
    | unanswered told unread _ => exact .unanswered told unread
    | declined told chosen declines =>
      obtain rfl := Task.outcome?_eq_some_iff.1 hresult
      exact .declined told chosen declines rfl (not_hasDialled hdials nofun)
    | chosen => exact absurd (Task.outcome?_eq_some_iff.1 hresult) (hne _)
  · have hdials : Leads c.dial d₁ (onStream m.client) := by
      rw [dial_eq]
      exact h₁.bind _
    cases hcase with
    | unanswered _ _ unsettled => exact absurd rfl (unsettled m)
    | chosen h hchosen haccepts =>
      rcases hc.methodOf_cases haccepts with ⟨hid, rfl⟩ | ⟨l, rfl, hid, rfl⟩
      · rw [hid] at h hchosen
        refine .agreed .anonymous ⟨d₁, d₂, rfl, hdials⟩ hchosen hchosen rfl hdials ?_ h₂
        rwa [List.append_nil]
      · rw [hid] at h hchosen
        exact greeted_of_presentLogin hd hsettled h hchosen hdials h₂

/-! ## Asking for a command -/

/-- Asks for a command once there is an agreement, and tells the address in the reply. -/
def demand (command : Command) (target : Target) : Task Calls Target :=
  (onStream (Stream.deliver (Request.of command target))).bind fun _ => onStream readReply

theorem request_eq (hremote : c.resolvesLocally = false) (command : Command) (target : Target) :
    c.request command target = c.dial.bind fun _ => demand command target := by
  unfold request prepare
  rw [hremote]
  rfl

/-- What a reply comes to for a client. -/
def outcomeOf (reply : Reply) : Except Failure Target :=
  if reply.code = .succeeded then .ok reply.bound else .error (.rejected reply.code)

theorem outcomeOf_eq_ok_iff {reply : Reply} {a : Target} :
    outcomeOf reply = .ok a ↔ reply.code = .succeeded ∧ a = reply.bound := by
  unfold outcomeOf
  split <;> simp_all [eq_comm]

theorem outcomeOf_eq_error_iff {reply : Reply} {e : Failure} :
    outcomeOf reply = .error e ↔ reply.code ≠ .succeeded ∧ e = .rejected reply.code := by
  unfold outcomeOf
  split <;> simp_all [eq_comm]

/-- How a client stands that has said `w` and awaits a reply, where `rest` is ahead of it: there is
none to be read, or it comes to what the reply comes to. -/
inductive Replied (feed : Feed) (rest r w : Bytes) (d : Dialogue Calls) :
    Option (Except Failure Target) → Prop where
  | unanswered {result : Option (Except Failure Target)} (told : told d = w)
      (unread : Unreadable Reply rest) (unmet : Unmet Reply feed rest result) :
      Replied feed rest r w d result
  | replied {reply : Reply} {bytes rest' : Bytes}
      (parse : Reply.decoder.parse rest = .finished (.ok reply) rest')
      (split : rest = bytes ++ rest') (point : Point d (r ++ bytes) w) :
      Replied feed rest r w d (some (outcomeOf reply))

/-- A client takes the reply that leads the feed, whatever stands behind it. -/
theorem resolves_readReply (h : Point past r w) (hrest : r ++ rest = feed.bytes) :
    (onStream readReply).Resolves (fedTerms feed) (Replied feed rest r w) past := by
  simp only [readReply, Task.bind_eq, onStream_bind]
  refine h.resolves_receive_bind hrest ?_ fun p reply bytes rest' hsplit hparse h => ?_
  · intro hunread p result hunmet htold
    exact .unanswered htold hunread hunmet
  · have hread := Decoder.parse_append hparse rest'
    rw [← hsplit, List.nil_append] at hread
    have hreplied : Replied feed rest r w p (some (outcomeOf reply)) := .replied hread hsplit h
    unfold outcomeOf at hreplied
    by_cases hcode : reply.code = .succeeded
    · rw [if_pos hcode] at hreplied ⊢
      exact Task.keeps_done.2 hreplied
    · rw [if_neg hcode] at hreplied ⊢
      exact Task.keeps_fail.2 hreplied

theorem resolves_demand {command : Command} {target : Target} (h : Point past r w)
    (hrest : r ++ rest = feed.bytes) (hencode : (Request.of command target).encode = .ok bytes) :
    (demand command target).Resolves (fedTerms feed) (Replied feed rest r (w ++ bytes)) past :=
  h.resolves_deliver_bind hencode fun _ h => resolves_readReply h hrest

/-- How a client stands that has come to rest and goes on with `f` once it is granted what it has
asked for. -/
inductive AfterReply (feed : Feed) (rest r w : Bytes) (f : Target → Task Calls α)
    (past d : Dialogue Calls) (t : Task Calls α) : Prop where
  | unanswered (told : Call.told (past ++ d) = w) (unread : Unreadable Reply rest) :
      AfterReply feed rest r w f past d t
  | refused {reply : Reply} {rest' : Bytes} (told : Call.told (past ++ d) = w)
      (parse : Reply.decoder.parse rest = .finished (.ok reply) rest')
      (denies : reply.code ≠ .succeeded) (fails : t = .fail (.rejected reply.code)) :
      AfterReply feed rest r w f past d t
  | granted {reply : Reply} {bytes rest' : Bytes} {d₁ d₂ : Dialogue Calls}
      (parse : Reply.decoder.parse rest = .finished (.ok reply) rest')
      (split : rest = bytes ++ rest') (grants : reply.code = .succeeded) (parts : d = d₁ ++ d₂)
      (point : Point (past ++ d₁) (r ++ bytes) w) (goesOn : Leads (f reply.bound) d₂ t) :
      AfterReply feed rest r w f past d t

/-- What comes after a reply is a matter of the bytes that the client is fed. -/
theorem afterReply_of_settled {reader : Task Calls Target} {f : Target → Task Calls α}
    {d : Dialogue Calls} {t : Task Calls α}
    (h : reader.Resolves (fedTerms feed) (Replied feed rest r w) past)
    (hl : Leads (reader.bind f) d t) (hd : (fedTerms feed).Honoured past d)
    (hsettled : t.Settled (fedTerms feed) (past ++ d)) :
    AfterReply feed rest r w f past d t := by
  rcases h.bind_cases hl hd hsettled with ⟨u, _, rfl, hne, hcase⟩ | ⟨a, d₁, d₂, rfl, _, hcase, h₂⟩
  · generalize hresult : u.outcome? = result at hcase
    cases hcase with
    | unanswered told unread _ => exact .unanswered told unread
    | @replied reply _ _ parse split point =>
      have hu := Task.outcome?_eq_some_iff.1 hresult
      cases houtcome : outcomeOf reply with
      | ok a =>
        rw [houtcome] at hu
        exact absurd hu (hne a)
      | error e =>
        obtain ⟨hcode, rfl⟩ := outcomeOf_eq_error_iff.1 houtcome
        rw [houtcome] at hu
        exact .refused point.told parse hcode (by rw [hu]; rfl)
  · generalize hresult : some (Except.ok a) = result at hcase
    cases hcase with
    | unanswered _ _ unmet => exact absurd hresult.symm (unmet.unsettled a)
    | replied parse split point =>
      obtain ⟨hcode, rfl⟩ := outcomeOf_eq_ok_iff.1 (Option.some.inj hresult).symm
      exact .granted parse split hcode rfl point h₂

/-- How a client stands that has come to rest and awaits a last reply: there is none, and that has
not ended the call as long as the feed may go on; or it has taken the reply. -/
inductive LastReply (feed : Feed) (rest : Bytes) (a : Target) :
    Task Calls (Target × Except Failure Target) → Prop where
  | unanswered {t : Task Calls (Target × Except Failure Target)} (unread : Unreadable Reply rest)
      (ended : ∀ field, Reply.decoder.parse rest = .lacking field → t.outcome? ≠ none →
        feed.ending ≠ none) : LastReply feed rest a t
  | replied {reply : Reply} {rest' : Bytes}
      (parse : Reply.decoder.parse rest = .finished (.ok reply) rest') :
      LastReply feed rest a (.done (a, outcomeOf reply))

theorem lastReply_of_settled {a : Target} {d : Dialogue Calls}
    {t : Task Calls (Target × Except Failure Target)} (h : Point past r w)
    (hrest : r ++ rest = feed.bytes)
    (hl : Leads (awaitPeer.attempt.bind fun peer => .done (a, peer)) d t)
    (hd : (fedTerms feed).Honoured past d) (hsettled : t.Settled (fedTerms feed) (past ++ d)) :
    Call.told (past ++ d) = w ∧ LastReply feed rest a t := by
  have hreply := resolves_readReply h hrest
  rcases Task.leads_attempt_bind hl with ⟨q, next, hwaits, rfl⟩ | ⟨outcome, d₁, d₂, rfl, h₁, h₂⟩
  · cases hreply.of_settled hwaits hd hsettled.of_bind.of_attempt with
    | unanswered told unread _ =>
      refine ⟨told, .unanswered unread ?_⟩
      intro field _ hover
      exact absurd rfl hover
  · obtain ⟨rfl, rfl⟩ := Task.leads_done_iff.1 h₂
    rw [List.append_nil] at hd ⊢
    have hcase := hreply.of_settled h₁ hd (Task.settled_ofExcept outcome)
    rw [Task.outcome?_eq_some_iff.2 rfl] at hcase
    cases hcase with
    | unanswered told unread unmet =>
      refine ⟨told, .unanswered unread ?_⟩
      intro field hparse _
      exact unmet.ended field hparse nofun
    | replied parse _ point => exact ⟨point.told, .replied parse⟩

end Client

end Socks5

import Socks5.Proofs.Client.Traffic
import Socks5.Proofs.Wire.Forms

/-!
# How a client conducts itself

A client trusts its proxy with nothing that it has not asked for. Whatever a proxy sends, in
whatever pieces, what the client has written is guarded by what it has read: a login follows only
the choice of the login method, and a request only an agreement on a method that was offered. Main
statement: that is so at every point of a call, and a call that ends well has read an agreement and
a reply of success, and not a byte more (`guarded_call`).
-/

namespace Socks5.Client

open Socks5.Task (Leads leads_done_iff leads_bind_iff)
open Call (told heard onStream obtain onStream_bind leads_deliver leads_receive deliver_of_error)

/-! ## What a client has to say -/

/-- The ways to set up a client, each with the login that the client presents. -/
inductive Configured : Client → Option Login → Prop where
  | new (proxy : SocketAddr) : Configured (.new proxy) none
  | withLogin {c : Client} {login : Option Login} (h : Configured c login) (given : Login) :
      Configured (c.withLogin given) (some given)
  | withLocalResolution {c : Client} {login : Option Login} (h : Configured c login)
      (resolvesLocally : Bool) : Configured (c.withLocalResolution resolvesLocally) login

/-- The bytes of an offer, of a client with or without a login. -/
def offerBytes : Option Login → Bytes
  | none => [0x05, 0x01, 0x00]
  | some _ => [0x05, 0x02, 0x02, 0x00]

/-- What a proxy says until a method has been run, and what the client says in its course. -/
inductive Agreement (login : Option Login) : Bytes → Bytes → Prop where
  | anonymous : Agreement login [0x05, 0x00] []
  | admitted {l : Login} {presented : Bytes} (given : login = some l)
      (encode : l.encode = .ok presented) : Agreement login [0x05, 0x02, 0x01, 0x00] presented

/-- The target that a client asks for: the one that it was given, or the first address that was
found for its name, if the client looks up names itself. -/
inductive Prepared (c : Client) (target : Target) (d : Dialogue Calls) : Target → Prop where
  | given (as : c.resolvesLocally = false ∨ ∃ ip, target.host = .ip ip) : Prepared c target d target
  | found {name : String} {first : SocketAddr} {others : List SocketAddr}
      (resolves : c.resolvesLocally = true) (named : target.host = .domain name)
      (looked : ⟨.lookup name target.port, .ok (first :: others)⟩ ∈ d) :
      Prepared c target d (.ofSocketAddr first)

/-- What a client has said is guarded by what it has heard: it goes beyond its offer only with the
login that it was told to present, or with the request for which an agreement has been reached. -/
inductive Guarded (c : Client) (login : Option Login) (command : Command) (target : Target)
    (d : Dialogue Calls) : Prop where
  | offering (front : told d <+: offerBytes login)
  | presenting {l : Login} {presented said : Bytes} (given : login = some l)
      (encode : l.encode = .ok presented) (chosen : [0x05, 0x02] <+: heard d)
      (speaks : told d = offerBytes login ++ said) (front : said <+: presented)
  | asking {agreed presented request said : Bytes} {prepared : Target}
      (agreement : Agreement login agreed presented) (answered : agreed <+: heard d)
      (prepares : Prepared c target d prepared)
      (encode : (Request.of command prepared).encode = .ok request)
      (speaks : told d = offerBytes login ++ presented ++ said) (front : said <+: request)

/-- A command is granted: the client has said all that it has to say, and it has heard an agreement
and a reply of success with an address, and nothing else. -/
inductive Granted (c : Client) (login : Option Login) (command : Command) (target : Target)
    (d : Dialogue Calls) : Target → Prop where
  | intro {agreed presented request address : Bytes} {prepared bound : Target} {reserved : UInt8}
      (agreement : Agreement login agreed presented) (prepares : Prepared c target d prepared)
      (encode : (Request.of command prepared).encode = .ok request)
      (speaks : told d = offerBytes login ++ presented ++ request)
      (form : bound.encode = .ok address)
      (hears : heard d = agreed ++ 0x05 :: 0x00 :: reserved :: address) :
      Granted c login command target d bound

variable {c : Client} {login : Option Login} {command : Command} {target prepared : Target}
  {past d d' : Dialogue Calls} {r w bytes : Bytes}

theorem Prepared.mono (h : Prepared c target d prepared) (hsub : d ⊆ d') :
    Prepared c target d' prepared := by
  cases h with
  | given as => exact .given as
  | found resolves named looked => exact .found resolves named (hsub looked)

/-- What was said stays guarded while more is heard. -/
theorem Guarded.mono (h : Guarded c login command target d) (hsub : d ⊆ d')
    (htold : told d' = told d) (hheard : heard d <+: heard d') :
    Guarded c login command target d' := by
  cases h with
  | offering front => exact .offering (htold ▸ front)
  | presenting given encode chosen speaks front =>
    exact .presenting given encode (chosen.trans hheard) (htold.trans speaks) front
  | asking agreement answered prepares encode speaks front =>
    exact .asking agreement (answered.trans hheard) (prepares.mono hsub) encode (htold.trans speaks)
      front

/-! ## Setting up a client -/

namespace Configured

/-- The methods of a client are those that it has something to say for. -/
theorem methods_eq (h : Configured c login) :
    c.methods = ⟨.noAuth :: login.toList.map fun l => .userPass none (some l), .noAcceptable⟩ := by
  induction h with
  | new proxy => rfl
  | @withLogin c login _ given ih =>
    rw [Client.withLogin, ih]
    cases login <;> rfl
  | withLocalResolution _ _ ih => exact ih

theorem encode_offer (h : Configured c login) :
    Message.encode c.offer = .ok (offerBytes login) := by
  rw [Client.offer, h.methods_eq]
  cases login <;> rfl

/-- A client runs only a method that it has offered. -/
theorem methodOf_cases (h : Configured c login) {choice : MethodChoice} {m : Method}
    (hm : c.methodOf choice = .ok m) :
    (choice.method = .noAuth ∧ m = .noAuth) ∨
      ∃ l, login = some l ∧ choice.method = .userPass ∧ m = .userPass none (some l) := by
  unfold Client.methodOf at hm
  rw [h.methods_eq] at hm
  split at hm
  · cases hm
  · split at hm
    next method hfind =>
      cases hm
      have hid : m.id = choice.method := by simpa using List.find?_some hfind
      rcases List.mem_cons.1 (List.mem_of_find?_eq_some hfind) with rfl | hmem
      · exact .inl ⟨hid.symm, rfl⟩
      · obtain ⟨l, hl, rfl⟩ := List.mem_map.1 hmem
        exact .inr ⟨l, Option.mem_toList.1 hl, hid.symm, rfl⟩
    next => cases hm

end Configured

/-! ## Keeping guard -/

/-- A call is guarded wherever it waits. -/
def guardTerms (c : Client) (login : Option Login) (command : Command) (target : Target) :
    Terms Calls where
  permits d _ := Guarded c login command target d

/-- A call is guarded as long as it goes on, and ends well only with what it was granted. -/
def Careful (c : Client) (login : Option Login) (command : Command) (target : Target)
    (past : Dialogue Calls) (t : Task Calls Target) : Prop :=
  t.Keeps (guardTerms c login command target) past fun p r =>
    Guarded c login command target p ∧
      ∀ bound, r = .ok bound → Granted c login command target p bound

/-- A point of a call at which the client has heard `r` and has said `w`. -/
structure Point (past : Dialogue Calls) (r w : Bytes) : Prop where
  heard : heard past = r
  told : told past = w

theorem careful_fail (h : Guarded c login command target past) (e : Failure) :
    Careful c login command target past (.fail e) := Task.keeps_fail.2 ⟨h, nofun⟩

variable {α : Type}

/-- A message is said that is guarded from its front to its end. -/
theorem Point.keeps_deliver [Message α] {message : α} (h : Point past r w)
    (hencode : Message.encode message = .ok bytes)
    (hfront : ∀ p front, past ⊆ p → front <+: bytes → Point p r (w ++ front) →
      Guarded c login command target p) :
    (onStream (Stream.deliver message)).Keeps (guardTerms c login command target) past
      fun p result => Guarded c login command target p ∧ past ⊆ p ∧
        (result = .ok () → Point p r (w ++ bytes)) := by
  intro d u hl _
  have hdelivered := leads_deliver hencode hl
  have hsub := List.subset_append_left past d
  have hpoint : Point (past ++ d) r (w ++ Call.told d) := by
    refine ⟨?_, ?_⟩
    · rw [Call.heard_append, h.heard, hdelivered.deaf, List.append_nil]
    · rw [Call.told_append, h.told]
  have hguarded := hfront _ _ hsub hdelivered.front hpoint
  cases u with
  | done a =>
    rw [hdelivered.whole rfl] at hpoint
    exact ⟨hguarded, hsub, fun _ => hpoint⟩
  | fail e => exact ⟨hguarded, hsub, nofun⟩
  | ask q next => exact hguarded

/-- A message that is said, and what comes after it. -/
theorem Point.deliver_bind [Message α] {message : α} {f : Unit → Task Calls Target}
    (h : Point past r w) (hencode : Message.encode message = .ok bytes)
    (hfront : ∀ p front, past ⊆ p → front <+: bytes → Point p r (w ++ front) →
      Guarded c login command target p)
    (hnext : ∀ p, past ⊆ p → Point p r (w ++ bytes) → Careful c login command target p (f ())) :
    Careful c login command target past ((onStream (Stream.deliver message)).bind f) := by
  refine (h.keeps_deliver hencode hfront).bind ?_ ?_
  · intro p _ hp
    obtain ⟨_, hsub, hpoint⟩ := hp
    exact hnext p hsub (hpoint rfl)
  · intro p e hp
    exact ⟨hp.1, nofun⟩

/-- A message is heard while what was said stays guarded. -/
theorem Point.keeps_receive [Message α] (h : Point past r w)
    (hguarded : Guarded c login command target past) :
    (onStream (Stream.receive α)).Keeps (guardTerms c login command target) past fun p result =>
      Guarded c login command target p ∧ past ⊆ p ∧ ∀ a, result = .ok a → ∃ bytes,
        (Message.decoder (α := α)).parse bytes = .finished (.ok a) [] ∧
          Point p (r ++ bytes) w := by
  intro d u hl _
  have hreceived := leads_receive hl
  have hsub := List.subset_append_left past d
  have htold : Call.told (past ++ d) = Call.told past := by
    rw [Call.told_append, hreceived.mute, List.append_nil]
  have hguarded : Guarded c login command target (past ++ d) :=
    hguarded.mono hsub htold (by rw [Call.heard_append]; exact List.prefix_append _ _)
  have hpoint : Point (past ++ d) (r ++ Call.heard d) w := by
    refine ⟨?_, htold.trans h.told⟩
    rw [Call.heard_append, h.heard]
  cases u with
  | done a =>
    refine ⟨hguarded, hsub, ?_⟩
    intro b hb
    cases hb
    exact ⟨_, hreceived.value a rfl, hpoint⟩
  | fail e => exact ⟨hguarded, hsub, nofun⟩
  | ask q next => exact hguarded

/-- A message that is heard, and what comes after it. -/
theorem Point.receive_bind [Message α] {f : α → Task Calls Target} (h : Point past r w)
    (hguarded : Guarded c login command target past)
    (hnext : ∀ p a bytes, past ⊆ p → Guarded c login command target p →
      (Message.decoder (α := α)).parse bytes = .finished (.ok a) [] → Point p (r ++ bytes) w →
      Careful c login command target p (f a)) :
    Careful c login command target past ((onStream (Stream.receive α)).bind f) := by
  refine (h.keeps_receive hguarded).bind ?_ ?_
  · intro p a hp
    obtain ⟨hguarded, hsub, hvalue⟩ := hp
    obtain ⟨bytes, hparse, hpoint⟩ := hvalue a rfl
    exact hnext p a bytes hsub hguarded hparse hpoint
  · intro p e hp
    exact ⟨hp.1, nofun⟩

/-- What is asked of the host says nothing to the proxy. -/
theorem Point.ask_bind {q : Call.Ask} {f : Call.Answer q → Task Calls Target} (h : Point past r w)
    (hstream : ∀ p, q ≠ .stream p) (hguarded : Guarded c login command target past)
    (hnext : ∀ a, Guarded c login command target (past ++ [⟨q, a⟩]) →
      Point (past ++ [⟨q, a⟩]) r w → Careful c login command target (past ++ [⟨q, a⟩]) (f a)) :
    Careful c login command target past ((ask q).bind f) := by
  refine Task.keeps_ask.2 ⟨hguarded, fun a _ => ?_⟩
  have hnone : Call.onProxy? ⟨q, a⟩ = none := Call.onProxy?_of_ne_stream hstream
  have hheard := Call.heard_concat hnone past
  have htold := Call.told_concat hnone past
  refine hnext a (hguarded.mono (List.subset_append_left _ _) htold ?_) ⟨?_, ?_⟩
  · exact hheard ▸ List.prefix_rfl
  · rw [hheard, h.heard]
  · rw [htold, h.told]

/-- What the host cannot do ends the call. -/
theorem careful_obtain_bind {answer : Except IoFailure α} {f : α → Task Calls Target}
    (hguarded : Guarded c login command target past)
    (hnext : ∀ a, answer = .ok a → Careful c login command target past (f a)) :
    Careful c login command target past ((obtain answer).bind f) := by
  cases answer with
  | ok a => exact hnext a rfl
  | error cause => exact careful_fail hguarded _

/-! ## A call by its steps -/

/-- A reply is heard, and only one of success is taken for one. -/
theorem careful_readReply {agreed presented request : Bytes}
    (agreement : Agreement login agreed presented) (prepares : Prepared c target past prepared)
    (encode : (Request.of command prepared).encode = .ok request)
    (h : Point past agreed (offerBytes login ++ presented ++ request)) :
    Careful c login command target past (onStream readReply) := by
  have hguarded : Guarded c login command target past :=
    .asking agreement (h.heard ▸ List.prefix_rfl) prepares encode h.told List.prefix_rfl
  rw [readReply, Task.bind_eq, onStream_bind]
  refine h.receive_bind hguarded fun p reply bytes hsub hguarded hparse h => ?_
  by_cases hcode : reply.code = .succeeded
  · rw [if_pos hcode]
    refine Task.keeps_done.2 ⟨hguarded, ?_⟩
    intro bound hbound
    cases hbound
    obtain ⟨reserved, address, hform, rfl⟩ := Reply.parse_ok_iff.1 hparse
    rw [hcode, List.append_nil] at h
    exact .intro agreement (prepares.mono hsub) encode h.told hform h.heard
  · rw [if_neg hcode]
    exact careful_fail hguarded _

/-- A request follows an agreement. -/
theorem careful_ask {agreed presented : Bytes} (agreement : Agreement login agreed presented)
    (prepares : Prepared c target past prepared)
    (hguarded : Guarded c login command target past)
    (h : Point past agreed (offerBytes login ++ presented)) :
    Careful c login command target past
      ((onStream (Stream.deliver (Request.of command prepared))).bind fun _ =>
        onStream readReply) := by
  cases hencode : (Request.of command prepared).encode with
  | error e =>
    rw [deliver_of_error hencode]
    exact careful_fail hguarded e
  | ok request =>
    refine h.deliver_bind hencode ?_ ?_
    · intro p front hsub hfront h
      exact .asking agreement (h.heard ▸ List.prefix_rfl) (prepares.mono hsub) hencode h.told hfront
    · intro p hsub h
      exact careful_readReply agreement (prepares.mono hsub) hencode h

/-- The target is prepared once an agreement is reached. -/
theorem careful_prepare {agreed presented : Bytes} (agreement : Agreement login agreed presented)
    (hguarded : Guarded c login command target past)
    (h : Point past agreed (offerBytes login ++ presented)) :
    Careful c login command target past
      ((c.prepare target).bind fun prepared =>
        (onStream (Stream.deliver (Request.of command prepared))).bind fun _ =>
          onStream readReply) := by
  obtain ⟨host, port⟩ := target
  unfold prepare
  cases hresolves : c.resolvesLocally with
  | false => exact careful_ask agreement (.given (.inl hresolves)) hguarded h
  | true =>
    cases host with
    | ip ip => exact careful_ask agreement (.given (.inr ⟨ip, rfl⟩)) hguarded h
    | domain name =>
      simp only [Task.bind_eq, Task.bind_assoc]
      refine h.ask_bind (q := .lookup name port) nofun hguarded fun found hguarded h => ?_
      refine careful_obtain_bind hguarded fun first hfirst => ?_
      match found, hfirst with
      | .ok (_ :: others), hfirst =>
        cases hfirst
        exact careful_ask agreement
          (.found hresolves rfl (List.mem_append_right past (List.mem_singleton.2 rfl))) hguarded h

/-- The method that the proxy has chosen runs, and what comes after it. -/
theorem careful_method {choice : MethodChoice} {m : Method} {f : Unit → Task Calls Target}
    (hc : Configured c login) (hm : c.methodOf choice = .ok m)
    (h : Point past [0x05, choice.method] (offerBytes login))
    (hnext : ∀ p agreed presented, Agreement login agreed presented →
      Guarded c login command target p → Point p agreed (offerBytes login ++ presented) →
      Careful c login command target p (f ())) :
    Careful c login command target past ((onStream m.client).bind f) := by
  have hguarded : Guarded c login command target past := .offering (h.told ▸ List.prefix_rfl)
  rcases hc.methodOf_cases hm with ⟨hchosen, rfl⟩ | ⟨l, rfl, hchosen, rfl⟩
  · rw [hchosen] at h
    exact hnext past _ [] .anonymous hguarded ⟨h.heard, by rw [h.told, List.append_nil]⟩
  rw [hchosen] at h
  show Careful c (some l) command target past ((onStream (Method.presentLogin (some l))).bind f)
  simp only [Method.presentLogin, Task.bind_eq, onStream_bind, Task.bind_assoc]
  cases hencode : Message.encode l with
  | error e =>
    rw [deliver_of_error hencode]
    exact careful_fail hguarded e
  | ok presented =>
    refine h.deliver_bind hencode ?_ ?_
    · intro p front hsub hfront h
      exact .presenting rfl hencode (h.heard ▸ List.prefix_rfl) h.told hfront
    · intro p hsub h
      have hguarded : Guarded c (some l) command target p :=
        .presenting rfl hencode (h.heard ▸ List.prefix_rfl) h.told List.prefix_rfl
      refine h.receive_bind hguarded fun p reply bytes hsub hguarded hparse h => ?_
      by_cases haccepted : reply.isAccepted
      · rw [if_pos haccepted]
        obtain rfl := LoginReply.parse_ok_iff.1 hparse
        rw [of_decide_eq_true haccepted] at h
        exact hnext p _ _ (.admitted rfl hencode) hguarded h
      · rw [if_neg haccepted]
        exact careful_fail hguarded _

/-- A request is guarded from its first byte to its end. -/
theorem careful_request (hc : Configured c login) (command : Command) (target : Target) :
    Careful c login command target [] (c.request command target) := by
  have hstart : ∀ {p : Dialogue Calls}, Point p [] [] → Guarded c login command target p :=
    fun h => .offering (h.told ▸ List.nil_prefix)
  have hnil : Point [] [] [] := ⟨rfl, rfl⟩
  unfold request dial handshake
  simp only [Task.bind_eq, onStream_bind, Task.bind_assoc]
  refine hnil.ask_bind (q := .dial c.proxy) nofun (hstart hnil) fun reached hguarded h => ?_
  refine careful_obtain_bind hguarded fun _ _ => ?_
  refine h.deliver_bind hc.encode_offer (fun p front _ hfront h => .offering ?_) fun p _ h => ?_
  · rw [h.told]
    exact hfront
  have hguarded : Guarded c login command target p := .offering (h.told ▸ List.prefix_rfl)
  refine h.receive_bind hguarded fun p choice bytes _ hguarded hparse h => ?_
  obtain rfl := MethodChoice.parse_ok_iff.1 hparse
  cases hm : c.methodOf choice with
  | error e => exact careful_fail hguarded e
  | ok m =>
    refine careful_method hc hm h fun p agreed presented agreement hguarded h => ?_
    exact careful_prepare agreement hguarded h

/-- What a call says is guarded at every point of it, and a call ends well only with what it was
granted: whatever the proxy sends, in whatever pieces, and whatever the host of the client answers.
A password is not said before a login is asked for, nor a command before an agreement; and what
follows the reply of success is still on the stream. -/
theorem guarded_call (hc : Configured c login) :
    (∀ target d t, Leads (c.connect target) d t →
        Guarded c login .connect target d ∧
          (t = .done () → ∃ bound, Granted c login .connect target d bound)) ∧
      ∀ target d t, Leads (c.bind target) d t →
        Guarded c login .bind target d ∧
          ∀ bound, t = .done bound → Granted c login .bind target d bound := by
  have hrequest : ∀ {command target d u}, Leads (c.request command target) d u →
      Guarded c login command target d ∧
        ∀ bound, u = .done bound → Granted c login command target d bound := by
    intro command target d u hu
    have hstands := (careful_request hc command target).stands hu
      (Terms.honoured_of_allows (fun _ _ => trivial) [] d)
    cases u with
    | done bound =>
      refine ⟨hstands.1, ?_⟩
      intro bound' hbound
      cases hbound
      exact hstands.2 bound rfl
    | fail e => exact ⟨hstands.1, nofun⟩
    | ask q next => exact ⟨hstands, nofun⟩
  refine ⟨fun target d t h => ?_, fun target d t h => hrequest h⟩
  rcases leads_bind_iff.1 h with ⟨u, hu, rfl⟩ | ⟨bound, d₁, d₂, rfl, h₁, h₂⟩
  · obtain ⟨hguarded, hgranted⟩ := hrequest hu
    refine ⟨hguarded, fun hdone => ?_⟩
    cases u with
    | done bound => exact ⟨bound, hgranted bound rfl⟩
    | fail e => cases hdone
    | ask q next => cases hdone
  · obtain ⟨rfl, rfl⟩ := leads_done_iff.1 h₂
    obtain ⟨hguarded, hgranted⟩ := hrequest h₁
    rw [List.append_nil]
    exact ⟨hguarded, fun _ => ⟨bound, hgranted bound rfl⟩⟩

/-- A client with a login. -/
def guest : Client := (new .unspecified).withLogin ⟨"u", "p"⟩

/-- The client is asked to log in, does so, and is granted a connection to port 80 of the proxy's
own host; the reply comes in two pieces. -/
def guestDialogue : Dialogue Calls :=
  let read (b : UInt8) := Call.onProxy ⟨.read 1, .ok (some (.filling b []))⟩
  let flush := Call.onProxy ⟨.flush, .ok ()⟩
  [⟨.dial .unspecified, .ok ()⟩,
    Call.onProxy ⟨.write [0x05, 0x02, 0x02, 0x00], .ok 4⟩, flush, read 0x05, read 0x02,
    Call.onProxy ⟨.write [0x01, 0x01, 0x75, 0x01, 0x70], .ok 5⟩, flush, read 0x01, read 0x00,
    Call.onProxy ⟨.write [0x05, 0x01, 0x00, 0x01, 127, 0, 0, 1, 0, 80], .ok 10⟩, flush,
    read 0x05, read 0x00, read 0x00, read 0x01,
    Call.onProxy ⟨.read 4, .ok (some (.filling 127 [0, 0, 1]))⟩,
    Call.onProxy ⟨.read 2, .ok (some (.filling 4 [56]))⟩]

theorem guarded_guestCall :
    Configured guest (some ⟨"u", "p"⟩) ∧
      Leads (guest.connect ⟨.ip (.v4 .localhost), 80⟩) guestDialogue (.done ()) ∧
      ∃ bound, Granted guest (some ⟨"u", "p"⟩) .connect ⟨.ip (.v4 .localhost), 80⟩ guestDialogue
        bound := by
  have hc : Configured guest (some ⟨"u", "p"⟩) := .withLogin (.new _) _
  have h : Leads (guest.connect ⟨.ip (.v4 .localhost), 80⟩) guestDialogue (.done ()) :=
    .step <| .step <| .step <| .step <| .step <| .step <| .step <| .step <| .step <| .step <|
      .step <| .step <| .step <| .step <| .step <| .step <| .step <| .refl _
  exact ⟨hc, h, ((guarded_call hc).1 _ _ _ h).2 rfl⟩

end Socks5.Client

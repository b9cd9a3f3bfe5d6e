import Socks5.Proofs.Session.Answers
import Socks5.Proofs.Session.ReplyGrammar
import Socks5.Proofs.Wire.Forms

/-!
# Requests that cannot be served

A client that was let in may send a request that is complete and makes no sense. What is wrong with
it is found at different places: an unknown command or address type is noted in the request and told
to the client, while a name that is none ends the reading of the request, and with that the session.
Main statement: a session that nothing disturbs answers such a request with one reply of failure
exactly if nothing is wrong with the name in it (`refusedAloud_iff`).
-/

namespace Socks5

/-! ## Flaws -/

/-- What is wrong with a request. -/
inductive Flaw where
  | command
  | addressType
  | emptyName
  | nameText
deriving DecidableEq

namespace Flaw

/-- The reply code for a flaw, if the client is told of it. -/
def code? : Flaw → Option ReplyCode
  | .command => some .commandNotSupported
  | .addressType => some .addrTypeUnsupported
  | .emptyName | .nameText => none

/-- What the client is told of a flaw: a reply of failure with its code, or nothing. -/
def answer (flaw : Flaw) : Bytes :=
  match flaw.code? with
  | some code => [version, code.toByte, reserved, AddressType.ipv4.toByte, 0, 0, 0, 0, 0, 0]
  | none => []

/-- A flaw of the name in the request. -/
def InName : Flaw → Prop
  | .command | .addressType => False
  | .emptyName | .nameText => True

end Flaw

/-- A whole request in which something is wrong: its command is not known; its address type is not
known, and with it the length of what is behind; its name is empty; or its name is no text. In the
last three the command may be unknown as well. -/
inductive Flawed : Flaw → Bytes → Prop where
  | command {command reserved : UInt8} {target : Target} {w : Bytes}
      (unknown : Command.ofByte? command = none) (places : target.encode = .ok w) :
      Flawed .command (version :: command :: reserved :: w)
  | addressType {command reserved type : UInt8} {tail : Bytes}
      (unknown : AddressType.ofByte? type = none) :
      Flawed .addressType (version :: command :: reserved :: type :: tail)
  | emptyName {command reserved : UInt8} {port : Port} :
      Flawed .emptyName (version :: command :: reserved :: AddressType.domainName.toByte :: 0 ::
        (Octets.ofWord port).val)
  | nameText {command reserved size : UInt8} {name : Bytes} {fault : Text.Utf8.Fault} {port : Port}
      (sized : name.length = size.toNat) (wrong : Text.Utf8.decode name = .error fault) :
      Flawed .nameText (version :: command :: reserved :: AddressType.domainName.toByte :: size ::
        name ++ (Octets.ofWord port).val)

/-! ## What is read of them -/

open Decoder (parse_bind_of_ok parse_bind_of_error parse_byte_ok_iff parse_octets_ok_iff)

/-- A name that is none ends the reading of a request. -/
theorem Request.parse_of_domain {command reserved : UInt8} {bytes rest : Bytes} {e : Failure}
    (h : Target.domainDecoder.parse bytes = .finished (.error e) rest) :
    Request.decoder.parse (version :: command :: reserved :: AddressType.domainName.toByte ::
      bytes) = .finished (.error e) rest := by
  unfold decoder
  simp only [Task.bind_eq]
  rw [parse_bind_of_ok (parse_versionDecoder_ok_iff.2 rfl),
    parse_bind_of_ok (parse_byte_ok_iff.2 rfl), parse_bind_of_ok (parse_byte_ok_iff.2 rfl),
    parse_bind_of_ok (parse_byte_ok_iff.2 rfl), AddressType.ofByte?_toByte]
  exact parse_bind_of_error (parse_bind_of_error h)

theorem Target.parse_emptyName (rest : Bytes) :
    domainDecoder.parse (0 :: rest) = .finished (.error (.malformed .emptyDomain)) rest := rfl

theorem Target.parse_nameText {size : UInt8} {name rest : Bytes} {fault : Text.Utf8.Fault}
    (hsize : name.length = size.toNat) (hwrong : Text.Utf8.decode name = .error fault) :
    domainDecoder.parse (size :: (name ++ rest)) =
      .finished (.error (.malformed (.domainText fault))) rest := by
  have hname : size ≠ 0 := by
    rintro rfl
    obtain rfl := List.length_eq_zero_iff.1 hsize
    cases hwrong
  have hoctets : (Decoder.octets .domainName size.toNat).parse (name ++ rest) =
      .finished (.ok ⟨name, hsize⟩) rest := parse_octets_ok_iff.2 rfl
  unfold domainDecoder
  simp only [Task.bind_eq]
  rw [parse_bind_of_ok (parse_byte_ok_iff.2 rfl), if_neg hname, parse_bind_of_ok hoctets, hwrong]
  rfl

/-- What is read of a request with a flaw: it is refused with the code of the flaw, or cannot be
read. -/
def Flaw.Reads (flaw : Flaw) (bytes : Bytes) : Prop :=
  match flaw.code? with
  | some code => ∃ request rest, request.rejection = some code ∧
      Request.decoder.parse bytes = .finished (.ok request) rest
  | none => ∃ e rest, Request.decoder.parse bytes = .finished (.error e) rest

/-- Whatever comes behind a flawed request, its flaw is found. -/
theorem Flawed.reads {flaw : Flaw} {message : Bytes} (h : Flawed flaw message) (more : Bytes) :
    flaw.Reads (message ++ more) := by
  cases h with
  | @command command reserved target w unknown places =>
    have hrejection : Request.rejectionOf command = some .commandNotSupported := by
      rw [Request.rejectionOf, unknown]
    exact ⟨⟨command, target, Request.rejectionOf command⟩, more, hrejection,
      Request.parse_ok_iff.2 ⟨reserved, .inr ⟨rfl, w, places, rfl⟩⟩⟩
  | @addressType command reserved type tail unknown =>
    exact ⟨⟨command, .unspecified, some .addrTypeUnsupported⟩, tail ++ more, rfl,
      Request.parse_ok_iff.2 ⟨reserved, .inl ⟨type, unknown, rfl, rfl⟩⟩⟩
  | emptyName => exact ⟨_, _, Request.parse_of_domain (Target.parse_emptyName _)⟩
  | @nameText command reserved size name fault port sized wrong =>
    refine ⟨.malformed (.domainText fault), (Octets.ofWord port).val ++ more, ?_⟩
    rw [List.append_assoc]
    exact Request.parse_of_domain (Target.parse_nameText sized wrong)

namespace Stream

open Socks5.Task (Leads)

variable {α : Type} {feed : Feed} {before rest left : Bytes} {d : Dialogue Streams}

/-- What can be read from the front of a feed is read from a stream that brings it, be that a
message or a failure; and the stream does not let the reader wait. -/
theorem leads_run_finished {dec : Decoder α} {u : Task Streams α} {result : Except Failure α}
    (hl : Leads (run dec) d u) (hd : (feed.streamTerms before).Honoured [] d)
    (hrest : before ++ rest = feed.bytes) (hparse : dec.parse rest = .finished result left) :
    (u = .ofExcept result ∧ rest = heard d ++ left) ∨
      ∃ q next, u = .ask (I := Streams) q next ∧
        ∃ answer, feed.Brings (before ++ heard d) ⟨q, answer⟩ := by
  obtain ⟨rest', hsplit⟩ := Feed.exists_rest hd hrest
  cases leads_run hl with
  | @waits _ field room _ pieces lacks hroom =>
    have hmore : rest' ≠ [] := by
      rintro rfl
      rw [hsplit, List.append_nil, lacks] at hparse
      cases hparse
    have hleft : before ++ heard d ++ rest' = feed.bytes := by
      rw [List.append_assoc, ← hsplit, hrest]
    exact .inr ⟨_, _, rfl, Feed.exists_brings hroom hleft hmore⟩
  | @settled _ result' pieces reads =>
    have hsame := Decoder.parse_append reads rest'
    rw [List.nil_append, ← hsplit, hparse] at hsame
    cases hsame
    exact .inl ⟨rfl, hsplit⟩
  | @broke d₁ field room stop e pieces lacks breaks =>
    have hbrings : feed.Brings (before ++ heard d₁) ⟨.read room, stop⟩ :=
      (Terms.honoured_append.1 hd).2.1
    obtain ⟨hbytes, _⟩ := hbrings.ends breaks
    rw [← hrest, List.append_cancel_left_eq] at hbytes
    rw [← hbytes, lacks] at hparse
    cases hparse

end Stream

namespace Serving

open Socks5.Task (Leads honoured_reaching)
open Hosting (told heard)

variable {α β : Type} {s : Setting} {feed : Feed} {flaw : Flaw} {message more : Bytes}
  {past before after d : Dialogue Hostings} {w rest left : Bytes} {t : Task Hostings Unit}

/-! ## Requests in a session -/

/-- A message that is all there is read, or the reading of it fails, and nothing waits. -/
theorem Fed.keeps_receive_of_parse [Message α] {result : Except Failure α}
    (h : Fed feed past w rest)
    (hparse : (Message.decoder (α := α)).parse rest = .finished result left) :
    (receive α).Keeps (feed.terms.reaching fun _ => False) past fun p r =>
      r = result ∧ ∃ d, p = past ++ d ∧ (∀ x ∈ d, OfStream x.question) ∧ Fed feed p w left := by
  intro d u hl hd
  rw [honoured_reaching] at hd
  have hreceives := leads_receive hl
  rw [receive_eq] at hl
  rcases leads_onStream hl with ⟨d₀, u₀, h₀, rfl, rfl⟩ | ⟨d₀, q, next, h₀, rfl, rfl⟩
  · rcases Stream.leads_run_finished h₀ (Feed.honoured_onClient.1 hd) h.heard hparse with
      ⟨rfl, hrest⟩ | ⟨q, next, rfl, answer, hanswer⟩
    · have hfed : Fed feed (past ++ d₀.map Hosting.onClient) w left := by
        refine ⟨?_, ?_⟩
        · rw [Hosting.told_append, Hosting.told_of_isMute hreceives.mute, List.append_nil, h.told]
        · rw [Hosting.heard_append, Hosting.heard_onClient, List.append_assoc, ← hrest, h.heard]
      cases result with
      | ok a => exact ⟨rfl, _, rfl, hreceives.stream, hfed⟩
      | error e => exact ⟨rfl, _, rfl, hreceives.stream, hfed⟩
    · intro hnone
      have hbrings : feed.Brings (Hosting.heard (past ++ d₀.map Hosting.onClient)) ⟨q, answer⟩ := by
        rw [Hosting.heard_append, Hosting.heard_onClient]
        exact hanswer
      exact hnone (some answer) hbrings
  · rw [Terms.honoured_append] at hd
    exact hd.2.1.elim

/-- Reads a request and carries it out, unless it is vetoed. -/
def heed (s : Setting) : Task Hostings Unit :=
  (receive Request).bind fun request =>
  (ask (.vetRequest request)).bind fun
    | some reason => .fail (.aborted reason)
    | none => carryOut s request

theorem obey_eq_heed (s : Setting) : obey s = (enter .awaitingCommand).bind fun _ => heed s := rfl

/-- Something that is asked to read a request and to refuse it. -/
def OfRequest : Hosting.Ask → Prop
  | .vetRequest _ | .channel (.stream _) => True
  | _ => False

theorem ofRequest_of_ofStream {q : Hosting.Ask} (h : OfStream q) : OfRequest q := by
  obtain ⟨p, rfl⟩ := exists_of_ofStream h
  trivial

/-- A request with a flaw ends in a failure, of which the client was told or not. -/
def Ends (flaw : Flaw) (past : Dialogue Hostings) (w : Bytes) (p : Dialogue Hostings)
    (r : Except Failure Unit) : Prop :=
  ∃ d e, p = past ++ d ∧ r = .error e ∧ (∀ x ∈ d, OfRequest x.question) ∧ told p = w ++ flaw.answer

/-- A request that carries a code is refused with it. -/
theorem performs_refusal {request : Request} {code : ReplyCode} (h : Fed feed past w rest)
    (hcode : request.rejection = some code) :
    Performs feed (fun p r => ∃ d e, p = past ++ d ∧ r = .error e ∧
      (∀ x ∈ d, OfStream x.question) ∧ told p = w ++ [version, code.toByte, reserved,
        AddressType.ipv4.toByte, 0, 0, 0, 0, 0, 0]) past (carryOut s request) := by
  unfold carryOut
  rw [hcode]
  show Performs feed _ past (reject (.rejected code))
  unfold reject
  rw [if_neg nofun]
  refine (h.keeps_deliver (encode_failure code)).calm.bind ?_ ?_
  · rintro p _ ⟨_, d, rfl, hstream, hfed⟩
    exact Task.keeps_fail.2 ⟨d, _, rfl, rfl, hstream, hfed.told⟩
  · rintro p e ⟨hok, _⟩
    cases hok

/-- A request with a flaw is dismissed, and the client is told of the flaw if it has a code. -/
theorem performs_heed (hflawed : Flawed flaw message) (h : Fed feed past w (message ++ more)) :
    Performs feed (Ends flaw past w) past (heed s) := by
  have hreads := hflawed.reads more
  unfold Flaw.Reads at hreads
  unfold Ends Flaw.answer heed
  cases hcode : flaw.code? with
  | none =>
    rw [hcode] at hreads
    obtain ⟨e, left, hparse⟩ := hreads
    refine (h.keeps_receive_of_parse hparse).calm.bind ?_ ?_
    · rintro p request ⟨hresult, _⟩
      cases hresult
    · rintro p e' ⟨_, d, rfl, hstream, hfed⟩
      refine ⟨d, e', rfl, rfl, fun x hx => ofRequest_of_ofStream (hstream x hx), ?_⟩
      exact hfed.told.trans (List.append_nil w).symm
  | some code =>
    rw [hcode] at hreads
    obtain ⟨request, left, hrejection, hparse⟩ := hreads
    refine (h.keeps_receive_of_parse hparse).calm.bind ?_ ?_
    · rintro p request' ⟨hresult, d, rfl, hstream, hfed⟩
      cases hresult
      refine Task.keeps_ask.2
        ⟨fun hnone => absurd ⟨trivial, rfl⟩ (hnone none), fun veto hveto => ?_⟩
      obtain rfl : veto = none := hveto.2
      refine (performs_refusal (hfed.concat rfl) hrejection).weaken ?_
      rintro p r ⟨d', e, rfl, rfl, hstream', htold⟩
      refine ⟨d ++ [⟨.vetRequest request, none⟩] ++ d', e, by simp, rfl, ?_, htold⟩
      simp only [List.forall_mem_append]
      refine ⟨⟨fun x hx => ?_, ?_⟩, fun x hx => ?_⟩
      · exact ofRequest_of_ofStream (hstream x hx)
      · exact List.forall_mem_singleton.2 trivial
      · exact ofRequest_of_ofStream (hstream' x hx)
    · rintro p e ⟨hresult, _⟩
      cases hresult

/-! ## Where the request is awaited -/

/-- Goes through the negotiation: chooses a method, runs it, and remembers who was let in. -/
def letPass (s : Setting) : Task Hostings Unit :=
  (choose s.methods).bind fun offer =>
  (enter .authenticating).bind fun _ =>
  (onChannel (s.methods.resolve (s.methods.select offer.methods)).server).bind welcome

theorem serve_eq_letPass (s : Setting) : serve s = (letPass s).bind fun _ => obey s := by
  rw [serve_eq, letPass]
  unfold authenticate
  simp only [Task.bind_assoc]

/-- Something that is asked before a request is awaited, or when the session ends. -/
def IsAway (q : Hosting.Ask) : Prop := q ≠ .enter .awaitingCommand

theorem isAway_of_ofChoice {q : Hosting.Ask} (h : OfChoice q) : IsAway q := by
  rintro rfl
  exact h

theorem isAway_of_ofChannel {q : Hosting.Ask} (h : OfChannel q) : IsAway q := by
  rintro rfl
  exact h

theorem isAway_of_ofEnding {q : Hosting.Ask} (h : OfEnding q) : IsAway q := by
  rintro rfl
  exact h

theorem asksOnly_welcome_away (verdict : Verdict) : (welcome verdict).AsksOnly IsAway := by
  match verdict with
  | .admitted (some user) => exact .bind (asksOnly_ask nofun) fun _ => asksOnly_ask nofun
  | .admitted none => trivial
  | .refused _ => trivial

theorem asksOnly_letPass (s : Setting) : (letPass s).AsksOnly IsAway := by
  refine .bind ((asksOnly_choose _).mono fun _ => isAway_of_ofChoice) fun offer => ?_
  refine .bind (asksOnly_ask nofun) fun _ => ?_
  exact .bind ((asksOnly_onChannel _).mono fun _ => isAway_of_ofChannel) asksOnly_welcome_away

/-- What a session does once it awaits a request. -/
theorem leads_heed (h : Leads (run s) (before ++ ⟨.enter .awaitingCommand, ()⟩ :: after) t)
    (hfirst : ∀ x ∈ before, IsAway x.question) :
    Leads ((heed s).attempt.bind finish) after t := by
  have hmem : (⟨.enter .awaitingCommand, ()⟩ : Exchange Hostings) ∈
      before ++ ⟨.enter .awaitingCommand, ()⟩ :: after := by simp
  generalize hd : before ++ ⟨.enter .awaitingCommand, ()⟩ :: after = d at h hmem
  have haway : ¬ ∀ x ∈ d, IsAway x.question := fun hall => hall _ hmem rfl
  rw [run_eq] at h
  rcases leads_ask_bind h with ⟨rfl, _⟩ | ⟨veto, d', rfl, h'⟩
  · cases hmem
  have hfront : ∀ {d₁ : Dialogue Hostings}, (∀ x ∈ d₁, IsAway x.question) →
      ∀ x ∈ ⟨.vetSession, veto⟩ :: d₁, IsAway x.question :=
    fun hd₁ => List.forall_mem_cons.2 ⟨nofun, hd₁⟩
  have hending : ∀ {outcome d₂ v}, Leads (finish outcome) d₂ v → ∀ x ∈ d₂, IsAway x.question :=
    fun hends x hx => isAway_of_ofEnding ((asksOnly_finish _).of_mem hends x hx)
  cases veto with
  | some reason => exact absurd (hfront (hending h')) haway
  | none =>
    simp only [serve_eq_letPass] at h'
    rcases Task.leads_bind_attempt_bind h' with
      ⟨u, hu, rfl⟩ | ⟨e, d₁, d₂, rfl, h₁, h₂⟩ | ⟨_, d₁, d₂, rfl, h₁, h₂⟩
    · exact absurd (hfront ((asksOnly_letPass s).of_mem hu)) haway
    · have hall := List.forall_mem_append.2 ⟨(asksOnly_letPass s).of_mem h₁, hending h₂⟩
      exact absurd (hfront hall) haway
    · have hpassed := hfront ((asksOnly_letPass s).of_mem h₁)
      rw [obey_eq_heed] at h₂
      rcases Task.leads_ask_iff.1 h₂ with ⟨rfl, _⟩ | ⟨_, d₃, rfl, h₃⟩
      · rw [List.append_nil] at haway
        exact absurd hpassed haway
      · obtain ⟨_, rfl⟩ := eq_of_append_cons_eq
          (p := fun x : Exchange Hostings => ¬ IsAway x.question)
          (fun x hx => not_not_intro (hfirst x hx)) (fun x hx => not_not_intro (hpassed x hx))
          (fun h => h rfl) (fun h => h rfl) hd
        exact h₃

/-! ## The answer to a flaw -/

theorem leads_finish_done_iff {outcome : Except Failure Unit} :
    Leads (finish outcome) d (.done ()) ↔
      d = [⟨.note (.ended outcome), ()⟩, ⟨.channel .close, ()⟩, ⟨.farewell, ()⟩] := by
  constructor
  · intro h
    rcases leads_ask_bind h with ⟨_, hnone⟩ | ⟨_, d₁, rfl, h₁⟩
    · cases hnone
    rcases leads_ask_bind (q := .channel .close) h₁ with ⟨_, hnone⟩ | ⟨_, d₂, rfl, h₂⟩
    · cases hnone
    obtain rfl := leads_ask_done_iff.1 h₂
    rfl
  · rintro rfl
    exact .step (.step (.step (.refl _)))

/-- A session has come to its end in a failure. Until it was closed, the client was told `w`; then
nothing. -/
def Dismissed (w : Bytes) (d : Dialogue Hostings) (t : Task Hostings Unit) : Prop :=
  t = .done () ∧ ∃ front e, d = front ++ [⟨.note (.ended (.error e)), ()⟩, ⟨.channel .close, ()⟩,
    ⟨.farewell, ()⟩] ∧ (∀ x ∈ front, OfRequest x.question) ∧ told front = w

/-- A session has come to its end in a failure, of which its client was told with one reply before
the session was closed, and with nothing else. -/
def RefusedAloud (d : Dialogue Hostings) (t : Task Hostings Unit) : Prop :=
  ∃ code bytes, code ≠ .succeeded ∧ (Reply.failure code).encode = .ok bytes ∧ Dismissed bytes d t

/-- A session that nothing disturbs ends over a request with a flaw, and its client is told of the
flaw if it has a code. -/
theorem dismissed_of_flawed (hflawed : Flawed flaw message)
    (h : Leads (run s) (before ++ ⟨.enter .awaitingCommand, ()⟩ :: after) t)
    (hfirst : ∀ x ∈ before, IsAway x.question)
    (hbytes : heard before ++ (message ++ more) = feed.bytes)
    (hd : feed.calmTerms.Honoured (before ++ [⟨.enter .awaitingCommand, ()⟩]) after)
    (hsettled : t.Settled feed.calmTerms (before ++ ⟨.enter .awaitingCommand, ()⟩ :: after)) :
    Dismissed flaw.answer after t := by
  have hfed : Fed feed (before ++ [⟨.enter .awaitingCommand, ()⟩]) (told before)
      (message ++ more) := Fed.concat ⟨rfl, hbytes⟩ rfl
  have hperforms := performs_heed (s := s) hflawed hfed
  rw [List.append_cons] at hsettled
  rcases Task.leads_attempt_bind (leads_heed h hfirst) with
    ⟨q, next, hwaits, rfl⟩ | ⟨outcome, d₁, d₂, rfl, h₁, h₂⟩
  · have hstands := hperforms hwaits (honoured_reaching.2 hd)
    exact (hstands (hsettled.of_bind.of_attempt q next rfl)).elim
  · have hends : Ends flaw (before ++ [⟨.enter .awaitingCommand, ()⟩]) (told before)
        (before ++ [⟨.enter .awaitingCommand, ()⟩] ++ d₁) outcome := by
      have hstands := hperforms h₁ (honoured_reaching.2 (Terms.honoured_append.1 hd).1)
      cases outcome with
      | ok _ => exact hstands
      | error e => exact hstands
    obtain ⟨d, e, hsame, rfl, hrequest, htold⟩ := hends
    obtain rfl := List.append_cancel_left hsame
    rw [← List.append_assoc] at hsettled
    obtain ⟨rfl, _⟩ := over_of_finish h₂ hsettled.of_calm
    refine ⟨rfl, d₁, e, congrArg (d₁ ++ ·) (leads_finish_done_iff.1 h₂), hrequest, ?_⟩
    rw [List.append_assoc, Hosting.told_append] at htold
    exact List.append_cancel_left htold

/-- What a session told before it ended is one thing. -/
theorem Dismissed.eq {w' : Bytes} (h : Dismissed w d t) (h' : Dismissed w' d t) : w = w' := by
  obtain ⟨_, front, e, rfl, _, rfl⟩ := h
  obtain ⟨_, front', e', hsame, _, rfl⟩ := h'
  rw [List.append_inj_left' hsame rfl]

theorem Flaw.not_inName_iff : ¬ flaw.InName ↔ ∃ code, flaw.code? = some code := by
  cases flaw <;> simp [Flaw.InName, Flaw.code?]

/-- A client whose request is whole and cannot be served is told so with one reply of failure before
the session is closed, exactly if nothing is wrong with the name in the request. -/
theorem refusedAloud_iff (hflawed : Flawed flaw message)
    (h : Leads (run s) (before ++ ⟨.enter .awaitingCommand, ()⟩ :: after) t)
    (hfirst : ∀ x ∈ before, IsAway x.question)
    (hbytes : heard before ++ (message ++ more) = feed.bytes)
    (hd : feed.calmTerms.Honoured (before ++ [⟨.enter .awaitingCommand, ()⟩]) after)
    (hsettled : t.Settled feed.calmTerms (before ++ ⟨.enter .awaitingCommand, ()⟩ :: after)) :
    RefusedAloud after t ↔ ¬ flaw.InName := by
  have hdismissed := dismissed_of_flawed hflawed h hfirst hbytes hd hsettled
  rw [Flaw.not_inName_iff]
  constructor
  · rintro ⟨code, bytes, _, hencode, haloud⟩
    cases hcode : flaw.code? with
    | some code => exact ⟨code, rfl⟩
    | none =>
      rw [Flaw.answer, hcode] at hdismissed
      obtain rfl := haloud.eq hdismissed
      cases (encode_failure code).symm.trans hencode
  · rintro ⟨code, hcode⟩
    have hfails : code ≠ .succeeded := by
      cases flaw <;> cases hcode <;> exact nofun
    rw [Flaw.answer, hcode] at hdismissed
    exact ⟨code, _, hfails, encode_failure code, hdismissed⟩

/-! ## A client without a name for its target -/

/-- A client is let in as is the one that connects to a target. -/
def negotiation : Dialogue Hostings := connectDialogue.take 9

/-- It goes on with a request whose address type is not known, and is told so. -/
def placelessRequest : Dialogue Hostings :=
  let piece := Hosting.readByte
  [piece 0x05, piece 0x01, piece 0x00, piece 0x09,
    ⟨.vetRequest ⟨1, .unspecified, some .addrTypeUnsupported⟩, none⟩,
    Hosting.onClient ⟨.write [0x05, 0x08, 0x00, 0x01, 0, 0, 0, 0, 0, 0], .ok 10⟩,
    Hosting.onClient ⟨.flush, .ok ()⟩,
    ⟨.note (.ended (.error (.rejected .addrTypeUnsupported))), ()⟩, ⟨.channel .close, ()⟩,
    ⟨.farewell, ()⟩]

/-- Or it goes on with a request for an empty name, and the session ends. -/
def namelessRequest : Dialogue Hostings :=
  let piece := Hosting.readByte
  [piece 0x05, piece 0x01, piece 0x00, piece 0x03, piece 0x00,
    ⟨.note (.ended (.error (.malformed .emptyDomain))), ()⟩, ⟨.channel .close, ()⟩,
    ⟨.farewell, ()⟩]

theorem isAway_negotiation : ∀ x ∈ negotiation, IsAway x.question := by
  simp [negotiation, connectDialogue, IsAway, Hosting.readByte, Hosting.onClient]

theorem leads_placelessRequest : Leads (run openSetting)
    (negotiation ++ ⟨.enter .awaitingCommand, ()⟩ :: placelessRequest) (.done ()) :=
  .step <| .step <| .step <| .step <| .step <| .step <| .step <| .step <| .step <| .step <|
    .step <| .step <| .step <| .step <| .step <| .step <| .step <| .step <| .step <| .step <|
    .refl _

theorem leads_namelessRequest : Leads (run openSetting)
    (negotiation ++ ⟨.enter .awaitingCommand, ()⟩ :: namelessRequest) (.done ()) :=
  .step <| .step <| .step <| .step <| .step <| .step <| .step <| .step <| .step <| .step <|
    .step <| .step <| .step <| .step <| .step <| .step <| .step <| .step <| .refl _

/-- The bytes of the client with the unknown address type. -/
def placelessFeed : Feed := { bytes := [0x05, 0x01, 0x00, 0x05, 0x01, 0x00, 0x09] }

/-- The bytes of the client with the empty name. -/
def namelessFeed : Feed :=
  { bytes := [0x05, 0x01, 0x00, 0x05, 0x01, 0x00, 0x03, 0x00, 0x00, 0x50] }

/-- The client with the unknown address type has its reply. -/
theorem refusedAloud_iff_placelessRequest :
    Flawed .addressType [0x05, 0x01, 0x00, 0x09] ∧ RefusedAloud placelessRequest (.done ()) := by
  have hflawed : Flawed .addressType [0x05, 0x01, 0x00, 0x09] :=
    @Flawed.addressType 0x01 0x00 0x09 [] rfl
  have hd : placelessFeed.calmTerms.Honoured (negotiation ++ [⟨.enter .awaitingCommand, ()⟩])
      placelessRequest :=
    ⟨⟨⟨_, rfl⟩, trivial⟩, ⟨⟨_, rfl⟩, trivial⟩, ⟨⟨_, rfl⟩, trivial⟩, ⟨⟨_, rfl⟩, trivial⟩,
      ⟨trivial, rfl⟩, ⟨Nat.succ_pos 9, trivial⟩, ⟨trivial, trivial⟩, ⟨trivial, trivial⟩,
      ⟨trivial, trivial⟩, ⟨trivial, trivial⟩, trivial⟩
  have hbytes : heard negotiation ++ ([0x05, 0x01, 0x00, 0x09] ++ []) = placelessFeed.bytes := rfl
  exact ⟨hflawed, (refusedAloud_iff hflawed leads_placelessRequest isAway_negotiation hbytes hd
    (Task.settled_done ())).2 id⟩

/-- The client with the empty name has none. -/
theorem not_refusedAloud_namelessRequest :
    Flawed .emptyName [0x05, 0x01, 0x00, 0x03, 0x00, 0x00, 0x50] ∧
      Leads (run openSetting)
        (negotiation ++ ⟨.enter .awaitingCommand, ()⟩ :: namelessRequest) (.done ()) ∧
      namelessFeed.calmTerms.Honoured []
        (negotiation ++ ⟨.enter .awaitingCommand, ()⟩ :: namelessRequest) ∧
      told namelessRequest = [] ∧ ¬ RefusedAloud namelessRequest (.done ()) := by
  refine ⟨@Flawed.emptyName 0x01 0x00 0x50, leads_namelessRequest, ?_, rfl, ?_⟩
  · exact ⟨⟨rfl, trivial⟩, ⟨trivial, trivial⟩, ⟨⟨_, rfl⟩, trivial⟩, ⟨⟨_, rfl⟩, trivial⟩,
      ⟨⟨_, rfl⟩, trivial⟩, ⟨trivial, trivial⟩, ⟨Nat.succ_pos 1, trivial⟩, ⟨trivial, trivial⟩,
      ⟨trivial, trivial⟩, ⟨trivial, trivial⟩, ⟨⟨_, rfl⟩, trivial⟩, ⟨⟨_, rfl⟩, trivial⟩,
      ⟨⟨_, rfl⟩, trivial⟩, ⟨⟨_, rfl⟩, trivial⟩, ⟨⟨_, rfl⟩, trivial⟩, ⟨trivial, trivial⟩,
      ⟨trivial, trivial⟩, ⟨trivial, trivial⟩, trivial⟩
  · rintro ⟨code, bytes, _, hencode, _, front, e, hsplit, _, rfl⟩
    have hsilent : told front ++ [] = [] := by
      have htold : told namelessRequest = [] := rfl
      rwa [hsplit, Hosting.told_append] at htold
    rw [List.append_nil] at hsilent
    rw [hsilent] at hencode
    cases (encode_failure code).symm.trans hencode

end Serving

end Socks5

import Socks5.Proofs.Session.Messages

/-!
# What a session says

The words that a session may say to its client before it relays: the choice of a method, the
answer to a login, and one reply to a command, or two if a connection is awaited. A word depends on
what happened: nobody is told of success without an address that the host has given, nor of a
connection that was not made. Here are the words, and the terms on which a session says them; an
exchange that says nothing keeps these terms (`Spoken.append`, `Poised.append`), and so does a
message that continues a word (`keeps_deliver`).
-/

namespace Socks5.Serving

open Socks5.Task (Leads)
open Hosting (IsMute IsDeaf told heard unflushed)

variable {d d' past : Dialogue Hostings} {w w' bytes : Bytes}

/-! ## Words -/

/-- An offer was read, and a method chosen for it. -/
def Offered (d : Dialogue Hostings) (id : MethodId) : Prop :=
  ∃ ids name, ⟨.note (.offered ids id name), ()⟩ ∈ d

/-- A request for a command may be carried out. -/
def Vetted (d : Dialogue Hostings) (command : Command) : Prop :=
  ∃ request, ⟨.vetRequest request, none⟩ ∈ d ∧ request.command? = some command

/-- The words that let a client in. -/
inductive Handshake (d : Dialogue Hostings) : Bytes → Prop where
  | anonymous (offered : Offered d .noAuth) : Handshake d [version, MethodId.noAuth]
  | admitted (offered : Offered d .userPass) :
      Handshake d [version, MethodId.userPass, subnegotiationVersion, 0]

/-- An attempt to connect has come to a connection. -/
def HasReached (d : Dialogue Hostings) : Prop :=
  ∃ limit address, ⟨.connect limit address, .value (.ok ())⟩ ∈ d

/-- The first reply to a command that is carried out: the address that the host has given for it.
For CONNECT some address was dialled, and accepted; a connection, a listener or a socket that there
is not is never told of as a success. -/
inductive Success (d : Dialogue Hostings) : Command → Bytes → Prop where
  | connected {a : SocketAddr} {bytes : Bytes} (vetted : Vetted d .connect)
      (reaches : HasReached d) (given : ⟨.localAddr, .ok a⟩ ∈ d)
      (encode : (Reply.success a).encode = .ok bytes) : Success d .connect bytes
  | listening {ip : Ip} {a : SocketAddr} {bytes : Bytes} (vetted : Vetted d .bind)
      (given : ⟨.listen ip, .ok a⟩ ∈ d) (encode : (Reply.success a).encode = .ok bytes) :
      Success d .bind bytes
  | associated {ip : Ip} {client : ClientEndpoint} {a : SocketAddr} {bytes : Bytes}
      (vetted : Vetted d .udpAssociate) (given : ⟨.associate ip client, .ok a⟩ ∈ d)
      (encode : (Reply.success a).encode = .ok bytes) : Success d .udpAssociate bytes

/-- The second reply to a command for which a connection has come in: the address of the peer. -/
inductive Arrival (d : Dialogue Hostings) : Bytes → Prop where
  | arrived {limit : Option Duration} {peer : SocketAddr} {early bytes : Bytes}
      (given : ⟨.awaitPeer limit, .arrived peer early⟩ ∈ d)
      (encode : (Reply.success peer).encode = .ok bytes) : Arrival d bytes

/-- A reply to a command that is not carried out: a code that tells of a failure, and the address
`0.0.0.0:0`. -/
inductive Refusal (d : Dialogue Hostings) : Bytes → Prop where
  | refused {request : Request} {code : ReplyCode} (vetted : ⟨.vetRequest request, none⟩ ∈ d)
      (fails : code ≠ .succeeded) :
      Refusal d ([version, code.toByte, reserved, AddressType.ipv4.toByte] ++
        [0, 0, 0, 0] ++ [0, 0])

/-- The replies to one request: one, or two for a command that awaits a connection and has begun
well. -/
inductive Replies (d : Dialogue Hostings) : Bytes → Prop where
  | refusal {bytes : Bytes} (refuses : Refusal d bytes) : Replies d bytes
  | success {command : Command} {bytes : Bytes} (succeeds : Success d command bytes) :
      Replies d bytes
  | arrival {bytes bytes' : Bytes} (succeeds : Success d .bind bytes) (arrives : Arrival d bytes') :
      Replies d (bytes ++ bytes')
  | late {bytes bytes' : Bytes} (succeeds : Success d .bind bytes) (refuses : Refusal d bytes') :
      Replies d (bytes ++ bytes')

/-- All that a session may say up to a point of its dialogue. -/
inductive Word (d : Dialogue Hostings) : Bytes → Prop where
  | silence : Word d []
  | unacceptable (offered : Offered d .noAcceptable) : Word d [version, MethodId.noAcceptable]
  | denied (offered : Offered d .userPass) :
      Word d [version, MethodId.userPass, subnegotiationVersion, 1]
  | greeting {w : Bytes} (handshake : Handshake d w) : Word d w
  | answered {w bytes : Bytes} (handshake : Handshake d w) (replies : Replies d bytes) :
      Word d (w ++ bytes)

/-! What was said stays said, whatever else happens. -/

theorem Offered.mono {id : MethodId} (h : Offered d id) (hsub : d ⊆ d') : Offered d' id := by
  obtain ⟨ids, name, hmem⟩ := h
  exact ⟨ids, name, hsub hmem⟩

theorem Vetted.mono {command : Command} (h : Vetted d command) (hsub : d ⊆ d') :
    Vetted d' command := by
  obtain ⟨request, hmem, hcommand⟩ := h
  exact ⟨request, hsub hmem, hcommand⟩

theorem HasReached.mono (h : HasReached d) (hsub : d ⊆ d') : HasReached d' := by
  obtain ⟨limit, address, hmem⟩ := h
  exact ⟨limit, address, hsub hmem⟩

theorem Handshake.mono (h : Handshake d w) (hsub : d ⊆ d') : Handshake d' w := by
  cases h with
  | anonymous offered => exact .anonymous (offered.mono hsub)
  | admitted offered => exact .admitted (offered.mono hsub)

theorem Success.mono {command : Command} (h : Success d command bytes) (hsub : d ⊆ d') :
    Success d' command bytes := by
  cases h with
  | connected vetted reaches given encode =>
    exact .connected (vetted.mono hsub) (reaches.mono hsub) (hsub given) encode
  | listening vetted given encode => exact .listening (vetted.mono hsub) (hsub given) encode
  | associated vetted given encode => exact .associated (vetted.mono hsub) (hsub given) encode

theorem Arrival.mono (h : Arrival d bytes) (hsub : d ⊆ d') : Arrival d' bytes := by
  cases h with
  | arrived given encode => exact .arrived (hsub given) encode

theorem Refusal.mono (h : Refusal d bytes) (hsub : d ⊆ d') : Refusal d' bytes := by
  cases h with
  | refused vetted fails => exact .refused (hsub vetted) fails

theorem Replies.mono (h : Replies d bytes) (hsub : d ⊆ d') : Replies d' bytes := by
  cases h with
  | refusal refuses => exact .refusal (refuses.mono hsub)
  | success succeeds => exact .success (succeeds.mono hsub)
  | arrival succeeds arrives => exact .arrival (succeeds.mono hsub) (arrives.mono hsub)
  | late succeeds refuses => exact .late (succeeds.mono hsub) (refuses.mono hsub)

theorem Word.mono (h : Word d w) (hsub : d ⊆ d') : Word d' w := by
  cases h with
  | silence => exact .silence
  | unacceptable offered => exact .unacceptable (offered.mono hsub)
  | denied offered => exact .denied (offered.mono hsub)
  | greeting handshake => exact .greeting (handshake.mono hsub)
  | answered handshake replies => exact .answered (handshake.mono hsub) (replies.mono hsub)

/-- The front of a word. -/
def Front (d : Dialogue Hostings) (w : Bytes) : Prop := ∃ w', Word d w' ∧ w <+: w'

theorem Word.front (h : Word d w) : Front d w := ⟨w, h, List.prefix_rfl⟩

theorem Front.mono (h : Front d w) (hsub : d ⊆ d') : Front d' w := by
  obtain ⟨w', hw', hfront⟩ := h
  exact ⟨w', hw'.mono hsub, hfront⟩

/-- The front of a front of a word. -/
theorem Front.of_isPrefix (h : Front d w) (hfront : w' <+: w) : Front d w' := by
  obtain ⟨w'', hw'', hfront'⟩ := h
  exact ⟨w'', hw'', hfront.trans hfront'⟩

/-! ## Terms -/

/-- A question with which bytes or datagrams begin to be copied, or that copies some. -/
def CopiesData : Hosting.Ask → Prop
  | .relay _ | .peer _ | .startForwarding => True
  | _ => False

/-- The replies after which something may be copied. -/
inductive Granted (d : Dialogue Hostings) : Hosting.Ask → Bytes → Prop where
  | connected {q : Hosting.Ask} {bytes : Bytes} (between : q ≠ .startForwarding)
      (succeeds : Success d .connect bytes) : Granted d q bytes
  | accepted {q : Hosting.Ask} {bytes bytes' : Bytes} (between : q ≠ .startForwarding)
      (succeeds : Success d .bind bytes) (arrives : Arrival d bytes') :
      Granted d q (bytes ++ bytes')
  | associated {bytes : Bytes} (succeeds : Success d .udpAssociate bytes) :
      Granted d .startForwarding bytes

theorem Granted.mono {q : Hosting.Ask} (h : Granted d q bytes) (hsub : d ⊆ d') :
    Granted d' q bytes := by
  cases h with
  | connected between succeeds => exact .connected between (succeeds.mono hsub)
  | accepted between succeeds arrives =>
    exact .accepted between (succeeds.mono hsub) (arrives.mono hsub)
  | associated succeeds => exact .associated (succeeds.mono hsub)

/-- A session has kept to its words: it has said the front of one, nothing if it was not let in,
and no reply to a request that was vetoed. -/
structure Spoken (d : Dialogue Hostings) : Prop where
  front : Front d (told d)
  unadmitted : ∀ reason, ⟨.vetSession, some reason⟩ ∈ d → told d = []
  vetoed : ∀ request reason, ⟨.vetRequest request, some reason⟩ ∈ d → Handshake d (told d)

/-- Everything that grants copying has been said, and is out. -/
def ReadyFor (d : Dialogue Hostings) (q : Hosting.Ask) : Prop :=
  ∃ w bytes, Handshake d w ∧ Granted d q bytes ∧ told d = w ++ bytes ∧ unflushed d = []

/-- A session keeps to its words, and copies nothing before all of them are out. -/
def replyTerms : Terms Hostings where
  permits d q := Spoken d ∧ (CopiesData q → ReadyFor d q)

/-! ## Saying nothing -/

/-- A veto against a session or a request. -/
inductive IsVeto : Exchange Hostings → Prop where
  | session (reason : String) : IsVeto ⟨.vetSession, some reason⟩
  | request (request : Request) (reason : String) : IsVeto ⟨.vetRequest request, some reason⟩

/-- An exchange in which nothing is said and nothing vetoed. -/
def IsIdle (x : Exchange Hostings) : Prop := IsMute x ∧ ¬ IsVeto x

theorem not_isVeto_of_ofStream {x : Exchange Hostings} (h : OfStream x.question) : ¬ IsVeto x := by
  obtain ⟨q, a⟩ := x
  obtain ⟨p, rfl⟩ := exists_of_ofStream h
  exact nofun

theorem not_copiesData_of_ofStream {q : Hosting.Ask} (h : OfStream q) : ¬ CopiesData q := by
  obtain ⟨p, rfl⟩ := exists_of_ofStream h
  exact id

theorem told_append_of_isIdle (h : ∀ x ∈ d', IsIdle x) : told (d ++ d') = told d := by
  rw [Hosting.told_append, Hosting.told_of_isMute fun x hx => (h x hx).1, List.append_nil]

/-- What is not said, nobody has to answer for. -/
theorem Spoken.append (h : Spoken d) (hd' : ∀ x ∈ d', IsIdle x) : Spoken (d ++ d') := by
  have htold := told_append_of_isIdle (d := d) hd'
  have hsub : d ⊆ d ++ d' := List.subset_append_left d d'
  refine ⟨?_, ?_, ?_⟩
  · rw [htold]
    exact h.front.mono hsub
  -- a veto lies in what was said before, since none is among what is idle
  · intro reason hmem
    rcases List.mem_append.1 hmem with hmem | hmem
    · rw [htold]
      exact h.unadmitted reason hmem
    · exact absurd (.session reason) (hd' _ hmem).2
  · intro request reason hmem
    rcases List.mem_append.1 hmem with hmem | hmem
    · rw [htold]
      exact (h.vetoed request reason hmem).mono hsub
    · exact absurd (.request request reason) (hd' _ hmem).2

/-- What may be copied stays so while nothing is said. -/
theorem ReadyFor.append {q : Hosting.Ask} (h : ReadyFor d q) (hd' : ∀ x ∈ d', IsIdle x) :
    ReadyFor (d ++ d') q := by
  obtain ⟨w, bytes, hhandshake, hgranted, htold, hflushed⟩ := h
  have hsub : d ⊆ d ++ d' := List.subset_append_left d d'
  refine ⟨w, bytes, hhandshake.mono hsub, hgranted.mono hsub, ?_, ?_⟩
  · rw [told_append_of_isIdle hd', htold]
  · rw [Hosting.unflushed_append_of_isMute fun x hx => (hd' x hx).1, hflushed]

/-- A session that has said `w`, all of which is out, while nothing was vetoed. -/
structure Poised (d : Dialogue Hostings) (w : Bytes) : Prop where
  told : told d = w
  flushed : unflushed d = []
  unvetoed : ∀ x ∈ d, ¬ IsVeto x

theorem poised_nil : Poised [] [] := ⟨rfl, rfl, by simp⟩

theorem Poised.append (h : Poised d w) (hd' : ∀ x ∈ d', IsIdle x) : Poised (d ++ d') w := by
  refine ⟨?_, ?_, ?_⟩
  · rw [told_append_of_isIdle hd', h.told]
  · rw [Hosting.unflushed_append_of_isMute fun x hx => (hd' x hx).1, h.flushed]
  · exact List.forall_mem_append.2 ⟨h.unvetoed, fun x hx => (hd' x hx).2⟩

theorem Poised.concat {x : Exchange Hostings} (h : Poised d w) (hx : IsIdle x) :
    Poised (d ++ [x]) w :=
  h.append (List.forall_mem_singleton.2 hx)

/-- Who has said the front of a word without a veto has kept to the words. -/
theorem spoken_of_unvetoed (hunvetoed : ∀ x ∈ d, ¬ IsVeto x) (hfront : Front d (told d)) :
    Spoken d :=
  ⟨hfront, fun reason hmem => absurd (.session reason) (hunvetoed _ hmem),
    fun request reason hmem => absurd (.request request reason) (hunvetoed _ hmem)⟩

theorem Poised.spoken (h : Poised d w) (hw : Front d w) : Spoken d :=
  spoken_of_unvetoed h.unvetoed (h.told ▸ hw)

/-! ## Keeping to the words -/

variable {α : Type}

/-- Work that says nothing keeps to the words, as long as it copies only what it may. -/
theorem keeps_of_isIdle {kind : Hosting.Ask → Prop} {t : Task Hostings α} (h : Spoken past)
    (hkind : t.AsksOnly kind) (hidle : ∀ q, kind q → ∀ a, IsIdle ⟨q, a⟩)
    (hready : ∀ q, kind q → CopiesData q → ReadyFor past q) :
    t.Keeps replyTerms past fun p r =>
      ∃ d', p = past ++ d' ∧ (∀ x ∈ d', IsIdle x) ∧ Leads t d' (.ofExcept r) := by
  have hidle' : ∀ {d : Dialogue Hostings}, (∀ x ∈ d, kind x.question) → ∀ x ∈ d, IsIdle x :=
    fun hd x hx => hidle x.question (hd x hx) x.answer
  refine (hkind.keeps fun d q hd hq => ?_).weaken ?_
  · exact ⟨h.append (hidle' hd), fun hcopies => (hready q hq hcopies).append (hidle' hd)⟩
  · intro p r hp
    obtain ⟨d, rfl, hd, hl⟩ := hp
    exact ⟨d, rfl, hidle' hd, hl⟩

/-- A message that continues a word keeps to it. -/
theorem keeps_deliver [Message α] {message : α} (h : Poised past w)
    (hencode : Message.encode message = .ok bytes) (hw : Front past (w ++ bytes)) :
    (deliver message).Keeps replyTerms past fun p r =>
      Spoken p ∧ past ⊆ p ∧ (r = .ok () → Poised p (w ++ bytes)) := by
  intro d u hl _
  have hdelivered := leads_deliver hencode hl
  have hsub : past ⊆ past ++ d := List.subset_append_left past d
  have hunvetoed : ∀ x ∈ past ++ d, ¬ IsVeto x :=
    List.forall_mem_append.2
      ⟨h.unvetoed, fun x hx => not_isVeto_of_ofStream (hdelivered.stream x hx)⟩
  have hspoken : Spoken (past ++ d) := by
    refine spoken_of_unvetoed hunvetoed ((hw.mono hsub).of_isPrefix ?_)
    rw [Hosting.told_append, h.told]
    exact (List.prefix_append_right_inj w).2 hdelivered.front
  cases u with
  | done a =>
    obtain ⟨htold, hflushed⟩ := hdelivered.whole rfl
    refine ⟨hspoken, hsub, fun _ => ⟨?_, hflushed past, hunvetoed⟩⟩
    rw [Hosting.told_append, h.told, htold]
  | fail e => exact ⟨hspoken, hsub, nofun⟩
  | ask q next =>
    exact ⟨hspoken, fun hq => absurd hq (not_copiesData_of_ofStream (hdelivered.next q next rfl))⟩

/-- A message is received without a word. -/
theorem keeps_receive [Message α] (h : Spoken past) :
    (receive α).Keeps replyTerms past fun p r =>
      ∃ d', p = past ++ d' ∧ (∀ x ∈ d', IsIdle x) ∧
        ∀ a, r = .ok a → (Message.decoder (α := α)).parse (heard d') = .finished (.ok a) [] := by
  intro d u hl _
  have hreceives := leads_receive hl
  have hd : ∀ x ∈ d, IsIdle x := fun x hx =>
    ⟨hreceives.mute x hx, not_isVeto_of_ofStream (hreceives.stream x hx)⟩
  cases u with
  | done a =>
    refine ⟨d, rfl, hd, ?_⟩
    intro _ hp
    obtain ⟨⟩ := hp
    exact hreceives.value a rfl
  | fail e => exact ⟨d, rfl, hd, nofun⟩
  | ask q next =>
    exact ⟨h.append hd,
      fun hq => absurd hq (not_copiesData_of_ofStream (hreceives.next q next rfl))⟩

/-- A question that says nothing and copies nothing may be asked at any time. -/
theorem keeps_ask_bind {q : Hosting.Ask} {f : Hosting.Answer q → Task Hostings α}
    {ending : Dialogue Hostings → Except Failure α → Prop} (h : Spoken past) (hq : ¬ CopiesData q)
    (hnext : ∀ a, (f a).Keeps replyTerms (past ++ [⟨q, a⟩]) ending) :
    ((ask q).bind f).Keeps replyTerms past ending :=
  Task.keeps_ask.2 ⟨⟨h, fun hcopies => absurd hcopies hq⟩, fun a _ => hnext a⟩

end Socks5.Serving

import Socks5.Proofs.Auth.Selection
import Socks5.Proofs.Session.Commands

/-!
# The grammar of replies

Every path of a session keeps to its words: whatever the client sends, the hooks decide, the host
answers, and whenever the session is closed. Main statement: at every point of its dialogue a
session with the two standard methods has said the front of a word, has said nothing to a client
that was not let in and nothing to a request that was vetoed, and copies nothing before every reply
that announces it is out (`reply_grammar`).
-/

namespace Socks5.Serving

open Socks5.Task (Leads)
open Hosting (told unflushed)

variable {α β : Type} {d past : Dialogue Hostings} {w bytes : Bytes}

/-! ## The request -/

/-- What is asked aside while nothing was vetoed. -/
theorem Poised.ask_bind {q : Hosting.Ask} {f : Hosting.Answer q → Task Hostings α}
    (h : Poised past w) (hw : Front past w) (hq : IsAside q)
    (hnext : ∀ a, Poised (past ++ [⟨q, a⟩]) w → Speaks (past ++ [⟨q, a⟩]) (f a)) :
    Speaks past ((ask q).bind f) :=
  keeps_ask_bind (h.spoken hw) hq.2 fun a => hnext a (h.concat (isIdle_of_isPassive hq.1 a))

/-- A message is received without a word, and what comes after it. -/
theorem Poised.receive_bind [Message β] {f : β → Task Hostings α} (h : Poised past w)
    (hw : Front past w)
    (hnext : ∀ p b bytes, past ⊆ p → Poised p w →
      (Message.decoder (α := β)).parse bytes = .finished (.ok b) [] → Speaks p (f b)) :
    Speaks past ((receive β).bind f) := by
  refine (keeps_receive (h.spoken hw)).bind ?_ ?_
  · intro p b hp
    obtain ⟨d', rfl, hd', hparse⟩ := hp
    exact hnext _ b _ (List.subset_append_left past d') (h.append hd') (hparse b rfl)
  · intro p e hp
    obtain ⟨d', rfl, hd', _⟩ := hp
    exact (h.spoken hw).append hd'

/-- Nothing is said of a request that was vetoed. -/
theorem Poised.spoken_of_veto (h : Poised past w) (hw : Handshake past w) (request : Request)
    (reason : String) : Spoken (past ++ [⟨.vetRequest request, some reason⟩]) := by
  have hsub : past ⊆ past ++ [⟨.vetRequest request, some reason⟩] := List.subset_append_left ..
  have htold : Hosting.told (past ++ [⟨.vetRequest request, some reason⟩]) = w := by
    rw [Hosting.told_append, h.told]
    exact List.append_nil w
  refine ⟨?_, ?_, ?_⟩
  · rw [htold]
    exact (Word.greeting (hw.mono hsub)).front
  · intro reason' hmem
    rcases List.mem_append.1 hmem with hmem | hmem
    · exact absurd (.session reason') (h.unvetoed _ hmem)
    · cases List.mem_singleton.1 hmem
  · intro _ _ _
    rw [htold]
    exact hw.mono hsub

theorem speaks_obey (s : Setting) (h : Poised past w) (hw : Handshake past w) :
    Speaks past (obey s) := by
  refine h.ask_bind (q := .enter .awaitingCommand) (Word.greeting hw).front ⟨trivial, id⟩
    fun _ h => ?_
  replace hw := hw.mono (List.subset_append_left past [⟨.enter .awaitingCommand, ()⟩])
  refine h.receive_bind (Word.greeting hw).front fun p request bytes hsub h hparse => ?_
  replace hw := hw.mono hsub
  refine keeps_ask_bind (h.spoken (Word.greeting hw).front) id fun verdict => ?_
  cases verdict with
  | some reason => exact speaks_fail (h.spoken_of_veto hw request reason) _
  | none =>
    have hsub' := List.subset_append_left p [⟨.vetRequest request, none⟩]
    have hpoised := h.concat (x := ⟨.vetRequest request, none⟩) ⟨nofun, nofun⟩
    rw [← List.append_nil w] at hpoised
    exact speaks_carryOut s ⟨hw.mono hsub', by simp, .inl rfl, hpoised⟩
      fun code hcode => isTold_of_parse hparse hcode

/-! ## The method -/

/-- What is asked aside while nothing was vetoed, and what comes after it. -/
theorem Poised.aside_bind {t : Task Hostings β} {f : β → Task Hostings α} (h : Poised past w)
    (hw : Front past w) (ht : t.AsksOnly IsAside)
    (hnext : ∀ p b, past ⊆ p → Poised p w → Speaks p (f b)) : Speaks past (t.bind f) := by
  have hasks := keeps_of_isIdle (h.spoken hw) ht (fun q hq => isIdle_of_isPassive hq.1)
    fun q hq hcopies => absurd hcopies hq.2
  refine hasks.bind ?_ ?_
  · intro p b hp
    obtain ⟨d', rfl, hd', _⟩ := hp
    exact hnext _ b (List.subset_append_left past d') (h.append hd')
  · intro p e hp
    obtain ⟨d', rfl, hd', _⟩ := hp
    exact (h.spoken hw).append hd'

/-- A client that was let in is obeyed. -/
theorem speaks_admit (s : Setting) (h : Poised past w) (hw : Handshake past w)
    (verdict : Verdict) : Speaks past ((welcome verdict).bind fun _ => obey s) :=
  h.aside_bind (Word.greeting hw).front (asksOnly_welcome verdict) fun _ _ hsub h =>
    speaks_obey s h (hw.mono hsub)

theorem front_of_offered {id : MethodId} (hoffered : Offered past id)
    (hid : id = .noAuth ∨ id = .userPass ∨ id = .noAcceptable) : Front past [version, id] := by
  rcases hid with rfl | rfl | rfl
  · exact (Word.greeting (.anonymous hoffered)).front
  · exact ⟨_, .denied hoffered, ⟨[subnegotiationVersion, 1], rfl⟩⟩
  · exact (Word.unacceptable hoffered).front

/-- A login is answered with one word, and only a client that is admitted goes on. -/
theorem speaks_checkLogin (s : Setting) (a : Authenticator)
    (h : Poised past [version, MethodId.userPass]) (hoffered : Offered past .userPass) :
    Speaks past ((onChannel (Method.checkLogin a)).bind fun verdict =>
      (welcome verdict).bind fun _ => obey s) := by
  rw [onChannel_checkLogin]
  simp only [Task.bind_assoc]
  refine h.receive_bind (front_of_offered hoffered (by simp)) fun p login bytes hsub h _ => ?_
  replace hoffered := hoffered.mono hsub
  refine h.ask_bind (q := .channel (.consult (a login))) (front_of_offered hoffered (by simp))
    ⟨trivial, id⟩ fun verdict h => ?_
  replace hoffered := hoffered.mono
    (List.subset_append_left p [⟨.channel (.consult (a login)), verdict⟩])
  cases verdict with
  | refused reason =>
    have hword := Word.denied hoffered
    have hencode : Message.encode (LoginReply.ofVerdict (.refused reason)) =
        .ok [subnegotiationVersion, 1] := rfl
    refine speaks_deliver_bind h hencode hword.front fun p hsub hpoised => ?_
    exact speaks_fail (hpoised.spoken (hword.mono hsub).front) _
  | admitted user =>
    have hhandshake := Handshake.admitted hoffered
    have hencode : Message.encode (LoginReply.ofVerdict (.admitted user)) =
        .ok [subnegotiationVersion, 0] := rfl
    refine speaks_deliver_bind h hencode (Word.greeting hhandshake).front fun p hsub hpoised => ?_
    exact speaks_admit s hpoised (hhandshake.mono hsub) (.admitted user)

/-- One of the two methods that come with the server. -/
def IsStandard (m : Method) : Prop := m = .noAuth ∨ ∃ a l, m = .userPass a l

theorem IsStandard.id_ne {m : Method} (h : IsStandard m) : m.id ≠ .noAcceptable := by
  rcases h with rfl | ⟨a, l, rfl⟩ <;> exact nofun

theorem speaks_authenticate {s : Setting} {offer : MethodOffer} {methods : List Method}
    (hs : s.methods = .ofList methods) (hmethods : ∀ m ∈ methods, IsStandard m)
    (h : Poised past [version, s.methods.select offer.methods])
    (hoffered : Offered past (s.methods.select offer.methods)) :
    Speaks past (authenticate s offer) := by
  unfold authenticate
  rcases MethodRegistry.select_ofList_cases (fun m hm => (hmethods m hm).id_ne) offer.methods with
    ⟨m, hm, hselect, hresolve⟩ | ⟨hselect, hresolve⟩
  · rw [hs] at h hoffered ⊢
    rw [hresolve]
    rw [hselect] at h hoffered
    rcases hmethods m hm with rfl | ⟨a, l, rfl⟩
    · have hhandshake := Handshake.anonymous hoffered
      refine h.ask_bind (q := .enter .authenticating) (Word.greeting hhandshake).front
        ⟨trivial, id⟩ fun _ h => ?_
      exact speaks_admit s h (hhandshake.mono (List.subset_append_left ..)) .anonymous
    · refine h.ask_bind (q := .enter .authenticating) (front_of_offered hoffered (.inr (.inl rfl)))
        ⟨trivial, id⟩ fun _ h => ?_
      exact speaks_checkLogin s _ h (hoffered.mono (List.subset_append_left ..))
  · rw [hs] at h hoffered ⊢
    rw [hresolve]
    rw [hselect] at h hoffered
    have hword := Word.unacceptable hoffered
    refine h.ask_bind (q := .enter .authenticating) hword.front ⟨trivial, id⟩ fun _ h => ?_
    replace hword := hword.mono (List.subset_append_left past [⟨.enter .authenticating, ()⟩])
    exact h.ask_bind (q := .channel .close) hword.front ⟨trivial, id⟩ fun _ h =>
      speaks_fail (h.spoken (hword.mono (List.subset_append_left ..)).front) _

/-! ## The whole session -/

theorem speaks_serve {s : Setting} {methods : List Method} (hs : s.methods = .ofList methods)
    (hmethods : ∀ m ∈ methods, IsStandard m) (h : Poised past []) : Speaks past (serve s) := by
  rw [serve_eq]
  unfold choose
  simp only [Task.bind_assoc]
  refine h.ask_bind (q := .enter .negotiating) Word.silence.front ⟨trivial, id⟩ fun _ h => ?_
  refine h.receive_bind Word.silence.front fun p offer bytes _ h _ => ?_
  refine h.ask_bind (q := .note _) Word.silence.front ⟨trivial, id⟩ fun _ h => ?_
  have hoffered : Offered (p ++ [⟨.note (.offered offer.methods (s.methods.select offer.methods)
      (s.methods.resolve (s.methods.select offer.methods)).name), ()⟩])
      (s.methods.select offer.methods) :=
    ⟨_, _, List.mem_append_right p (List.mem_singleton.2 rfl)⟩
  have hid : s.methods.select offer.methods = .noAuth ∨
      s.methods.select offer.methods = .userPass ∨
      s.methods.select offer.methods = .noAcceptable := by
    rw [hs]
    rcases MethodRegistry.select_ofList_cases (fun m hm => (hmethods m hm).id_ne)
      offer.methods with ⟨m, hm, hselect, _⟩ | ⟨hselect, _⟩
    · rw [hselect]
      rcases hmethods m hm with rfl | ⟨a, l, rfl⟩
      · exact .inl rfl
      · exact .inr (.inl rfl)
    · exact .inr (.inr hselect)
  have hencode : Message.encode (MethodChoice.mk (s.methods.select offer.methods)) =
      .ok [version, s.methods.select offer.methods] := rfl
  exact speaks_deliver_bind h hencode (front_of_offered hoffered hid) fun p hsub hpoised =>
    speaks_authenticate hs hmethods hpoised (hoffered.mono hsub)

theorem speaks_finish (h : Spoken past) (outcome : Except Failure Unit) :
    Speaks past (finish outcome) :=
  speaks_of_isPassive h (asksOnly_finish outcome) (fun _ hq => (isAside_of_ofEnding hq).1)
    fun _ hq hcopies => absurd hcopies (isAside_of_ofEnding hq).2

/-- A client of a session that was not admitted is told nothing. -/
theorem spoken_of_vetoed_session (reason : String) : Spoken [⟨.vetSession, some reason⟩] := by
  refine ⟨Word.silence.front, fun _ _ => rfl, fun request reason' hmem => ?_⟩
  cases List.mem_singleton.1 hmem

theorem speaks_run {s : Setting} {methods : List Method} (hs : s.methods = .ofList methods)
    (hmethods : ∀ m ∈ methods, IsStandard m) : Speaks [] (run s) := by
  rw [run_eq]
  refine keeps_ask_bind (poised_nil.spoken Word.silence.front) id fun verdict => ?_
  cases verdict with
  | some reason => exact speaks_finish (spoken_of_vetoed_session reason) _
  | none =>
    have hpoised := poised_nil.concat (x := ⟨.vetSession, none⟩) ⟨nofun, nofun⟩
    exact (speaks_serve hs hmethods hpoised).attempt_bind fun p outcome hspoken =>
      speaks_finish hspoken outcome

/-- Whatever the client sends, the hooks decide, the host answers and whenever the session is
closed: a session with the two standard methods has said the front of a word, nothing to a client
that was not let in, nothing to a request that was vetoed, and it copies nothing before the replies
that grant it are out. -/
theorem reply_grammar {s : Setting} {methods : List Method} {d : Dialogue Hostings}
    {t : Task Hostings Unit} (hs : s.methods = .ofList methods)
    (hmethods : ∀ m ∈ methods, IsStandard m) (h : Leads (run s) d t) :
    (∃ w, Word d w ∧ told d <+: w) ∧
      (∀ q next, t = .ask (I := Hostings) q next → CopiesData q →
        ∃ w bytes, Handshake d w ∧ Granted d q bytes ∧ told d = w ++ bytes ∧ unflushed d = []) ∧
      (∀ reason, ⟨.vetSession, some reason⟩ ∈ d → told d = []) ∧
      ∀ request reason, ⟨.vetRequest request, some reason⟩ ∈ d → Handshake d (told d) := by
  have hstands := (speaks_run hs hmethods).stands h
    (Terms.honoured_of_allows (fun _ _ => trivial) [] d)
  have hspoken : Spoken d := by
    cases t with
    | done a => exact hstands
    | fail e => exact hstands
    | ask q next => exact hstands.1
  refine ⟨hspoken.front, ?_, hspoken.unadmitted, hspoken.vetoed⟩
  rintro q next rfl hcopies
  exact hstands.2 hcopies

/-- A server that lets everybody in. -/
def openSetting : Setting := ⟨.ofList [.noAuth], {}, .unspecified, .unspecified⟩

/-- A target on the host itself. -/
def ownTarget : Target := ⟨.ip (.v4 .localhost), 80⟩

/-- A client connects to a target, up to the relay. -/
def connectDialogue : Dialogue Hostings :=
  let piece := Hosting.readByte
  let address : SocketAddr := ⟨.v4 .localhost, 80, 0⟩
  [⟨.vetSession, none⟩, ⟨.enter .negotiating, ()⟩, piece 0x05, piece 0x01, piece 0x00,
    ⟨.note (.offered [0x00] 0x00 "NO AUTHENTICATION REQUIRED"), ()⟩,
    Hosting.onClient ⟨.write [0x05, 0x00], .ok 2⟩, Hosting.onClient ⟨.flush, .ok ()⟩,
    ⟨.enter .authenticating, ()⟩, ⟨.enter .awaitingCommand, ()⟩,
    piece 0x05, piece 0x01, piece 0x00, piece 0x01,
    Hosting.onClient ⟨.read 4, .ok (some ⟨[127, 0, 0, 1], by decide, by decide⟩)⟩,
    Hosting.onClient ⟨.read 2, .ok (some ⟨[0, 80], by decide, by decide⟩)⟩,
    ⟨.vetRequest (.of .connect ownTarget), none⟩,
    ⟨.enter .connecting, ()⟩, ⟨.note (.connecting ownTarget), ()⟩,
    ⟨.connect none address, .value (.ok ())⟩, ⟨.localAddr, .ok .unspecified⟩,
    Hosting.onClient ⟨.write [5, 0, 0, 1, 0, 0, 0, 0, 0, 0], .ok 10⟩,
    Hosting.onClient ⟨.flush, .ok ()⟩, ⟨.enter .relaying, ()⟩]

theorem connect_reply_grammar :
    ∃ next, Leads (run openSetting) connectDialogue
        (.ask (I := Hostings) (.relay (5 * 1024 * 1024)) next) ∧
      told connectDialogue = [5, 0, 5, 0, 0, 1, 0, 0, 0, 0, 0, 0] ∧
      ∃ w bytes, Handshake connectDialogue w ∧
        Granted connectDialogue (.relay (5 * 1024 * 1024)) bytes ∧
        told connectDialogue = w ++ bytes ∧ unflushed connectDialogue = [] := by
  obtain ⟨next, h⟩ : ∃ next, Leads (run openSetting) connectDialogue
      (.ask (I := Hostings) (.relay (5 * 1024 * 1024)) next) :=
    ⟨_, .step <| .step <| .step <| .step <| .step <| .step <| .step <| .step <| .step <|
      .step <| .step <| .step <| .step <| .step <| .step <| .step <| .step <| .step <| .step <|
      .step <| .step <| .step <| .step <| .step <| .refl _⟩
  refine ⟨next, h, rfl, ?_⟩
  exact (reply_grammar rfl (by simp [IsStandard]) h).2.1 _ _ rfl trivial

end Socks5.Serving

import Socks5.Proofs.Meeting.Basic
import Socks5.Proofs.Wire.RoundTrip

/-!
# Agreeing on a method

A client and a session that meet agree on a method, or both learn that there is none. The client
writes its offer, the session answers with the first of its ids that the session has a method for,
and both run that method; what one of them says in its course is what the other one reads. Main
statement: how the two stand with each other at rest (`met_of_atRest`).
-/

namespace Socks5

open Socks5.Task (Leads)
open Client (Configured offerBytes Runs HasDialled Greeted Presented Point Agreement)
open Serving (Setting IsPlain Welcomed Attends Hosted HasNegotiated)

variable {α : Type} {c : Client} {login : Option Login} {s : Setting} {methods : List Method}
  {verdict : Login → Verdict} {selected : MethodId} {feed : Feed} {rest w : Bytes}

/-! ## What a client offers -/

namespace Client.Configured

theorem offer_eq (h : Configured c login) :
    c.offer = ⟨(login.toList.map fun _ => .userPass) ++ [.noAuth]⟩ := by
  rw [Client.offer, h.methods_eq]
  cases login <;> rfl

/-- A client offers its methods from the highest id down. -/
theorem pairwise_offer (h : Configured c login) : c.offer.methods.Pairwise (· > ·) := by
  rw [h.offer_eq]
  cases login with
  | none => simp
  | some l => simp [MethodId.userPass, MethodId.noAuth]

theorem noAcceptable_notMem_offer (h : Configured c login) :
    MethodId.noAcceptable ∉ c.offer.methods := by
  rw [h.offer_eq]
  cases login with
  | none => decide
  | some l => simp [MethodId.noAcceptable, MethodId.userPass, MethodId.noAuth]

/-- An offer leads what a client says. -/
theorem parse_offer (h : Configured c login) (rest : Bytes) :
    MethodOffer.decoder.parse (offerBytes login ++ rest) = .finished (.ok c.offer) rest := by
  rw [h.offer_eq]
  cases login with
  | none => exact MethodOffer.parse_ok_iff.2 ⟨1, rfl, rfl⟩
  | some l => exact MethodOffer.parse_ok_iff.2 ⟨2, rfl, rfl⟩

/-- A client runs what it has offered. -/
theorem exists_methodOf (h : Configured c login) {id : MethodId} (hid : id ∈ c.offer.methods) :
    ∃ m, c.methodOf ⟨id⟩ = .ok m := by
  rw [h.offer_eq] at hid
  unfold Client.methodOf
  rw [h.methods_eq]
  cases login with
  | none =>
    obtain rfl : id = .noAuth := by simpa using hid
    exact ⟨_, rfl⟩
  | some l =>
    obtain rfl | rfl : id = .userPass ∨ id = .noAuth := by simpa using hid
    · exact ⟨_, rfl⟩
    · exact ⟨_, rfl⟩

end Client.Configured

theorem Client.Greeted.front {f t : Task Calls α} {d : Dialogue Calls}
    (h : Greeted c login feed f d t) : ∃ rest, Call.told d = offerBytes login ++ rest := by
  cases h with
  | unanswered told => exact ⟨[], by rw [told, List.append_nil]⟩
  | declined told => exact ⟨[], by rw [told, List.append_nil]⟩
  | presented given _ _ presents =>
    subst given
    cases presents with
    | unwritten told => exact ⟨[], by rw [told, List.append_nil]⟩
    | unanswered told => exact ⟨_, told⟩
    | denied told => exact ⟨_, told⟩
    | admitted _ _ point => exact ⟨_, point.told⟩
  | @agreed _ presented _ _ d₁ d₂ _ _ _ _ _ split _ point =>
    refine ⟨presented ++ Call.told d₂, ?_⟩
    rw [split, Call.told_append, point.told, List.append_assoc]

/-! ## What a session answers -/

namespace Serving

variable {d : Dialogue Hostings} {t : Task Hostings Unit}

theorem Welcomed.front {rest' : Bytes} (h : Welcomed selected verdict rest w rest') :
    ∃ more, w = [0x05, selected] ++ more := by
  cases h with
  | anonymous selects => exact ⟨[], by rw [selects]; rfl⟩
  | admitted selects => exact ⟨[0x01, 0x00], by rw [selects]; rfl⟩

theorem Attends.front (h : Attends s feed w rest d t) : ∃ more, Hosting.told d = w ++ more := by
  cases h with
  | idle _ told => exact ⟨[], by rw [told, List.append_nil]⟩
  | @obeys _ _ _ after _ split fed =>
    refine ⟨Hosting.told after, ?_⟩
    rw [split, Hosting.told_append, fed.told]

/-- The first that a client hears is the method that was selected. -/
theorem Hosted.front (h : Hosted s selected verdict feed rest d t) :
    ∃ more, Hosting.told d = [0x05, selected] ++ more := by
  cases h with
  | unacceptable selects told => exact ⟨[], by rw [told, selects]; rfl⟩
  | unproven selects _ told => exact ⟨[], by rw [told, selects]; rfl⟩
  | denied selects _ _ told => exact ⟨[0x01, 0x01], by rw [told, selects]; rfl⟩
  | admitted welcomed _ attends =>
    obtain ⟨more, rfl⟩ := welcomed.front
    obtain ⟨more', htold⟩ := attends.front
    exact ⟨more ++ more', by rw [htold, List.append_assoc]⟩

/-- What comes of a login that can be read is what was decided on it. -/
theorem Hosted.of_login {l : Login} {rest' : Bytes} (h : Hosted s .userPass verdict feed rest d t)
    (hlogin : Login.decoder.parse rest = .finished (.ok l) rest') :
    (∃ reason, verdict l = .refused reason ∧ Hosting.told d = [0x05, 0x02, 0x01, 0x01] ∧
        ¬ HasNegotiated d ∧ t = .done () ∧
        ⟨.note (.ended (.error (.authentication (.refused l.username reason)))), ()⟩ ∈ d) ∨
      ∃ user, verdict l = .admitted user ∧ HasNegotiated d ∧
        Attends s feed [0x05, 0x02, 0x01, 0x00] rest' d t := by
  cases h with
  | unacceptable selects => cases selects
  | unproven _ unread => exact absurd hlogin (unread l rest')
  | @denied login rest'' reason _ presents refuses told closed ended noted =>
    rw [hlogin] at presents
    cases presents
    exact .inl ⟨reason, refuses, told, closed, ended, noted⟩
  | admitted welcomed negotiated attends =>
    cases welcomed with
    | anonymous selects => cases selects
    | @admitted login user _ _ presents admits =>
      rw [hlogin] at presents
      cases presents
      exact .inr ⟨user, admits, negotiated, attends⟩

/-- Nothing is asked of a client that need not log in. -/
theorem Hosted.of_noAuth (h : Hosted s .noAuth verdict feed rest d t) :
    HasNegotiated d ∧ Attends s feed [0x05, 0x00] rest d t := by
  cases h with
  | unacceptable selects => cases selects
  | unproven selects => cases selects
  | denied selects => cases selects
  | admitted welcomed negotiated attends =>
    cases welcomed with
    | anonymous => exact ⟨negotiated, attends⟩
    | admitted selects => cases selects

/-- A client that cannot be served is told so. -/
theorem Hosted.of_noAcceptable (h : Hosted s .noAcceptable verdict feed rest d t) :
    Hosting.told d = [0x05, 0xFF] ∧ ¬ HasNegotiated d ∧ t = .done () ∧
      ⟨.note (.ended (.error .noAcceptableMethods)), ()⟩ ∈ d := by
  cases h with
  | unacceptable _ told closed ended noted => exact ⟨told, closed, ended, noted⟩
  | unproven selects => cases selects
  | denied selects => cases selects
  | admitted welcomed =>
    cases welcomed with
    | anonymous selects => cases selects
    | admitted selects => cases selects

end Serving

/-! ## Both at rest -/

namespace Meeting

/-- What both sides have agreed on, with what the session and the client have said in the course of
it beyond the offer. -/
inductive Accord (login : Option Login) (verdict : Login → Verdict) (selected : MethodId) :
    Bytes → Bytes → Prop where
  | anonymous (selects : selected = .noAuth) : Accord login verdict selected [0x05, 0x00] []
  | admitted {l : Login} {user : Option String} {presented : Bytes}
      (selects : selected = .userPass) (given : login = some l)
      (encode : l.encode = .ok presented) (admits : verdict l = .admitted user) :
      Accord login verdict selected [0x05, 0x02, 0x01, 0x00] presented

/-- How a client and a session stand with each other at rest: there was no method for both; the
client could not write its login; the login was refused; or they have come to an accord, after
which the client goes on with `f` and the session with what the client says. -/
inductive Met (c : Client) (login : Option Login) (s : Setting) (verdict : Login → Verdict)
    (selected : MethodId) (f : Task Calls α) (m : Meeting α) : Prop where
  | strangers (selects : selected = .noAcceptable) (told : Hosting.told m.serves = [0x05, 0xFF])
      (call : m.call = .fail .noAcceptableMethods) (session : m.session = .done ())
      (noted : ⟨.note (.ended (.error .noAcceptableMethods)), ()⟩ ∈ m.serves)
      (undialled : ¬ HasDialled c m.calls) : Met c login s verdict selected f m
  | unwritten {l : Login} {e : Failure} (selects : selected = .userPass) (given : login = some l)
      (runs : Runs c (.userPass none (some l)) m.calls) (encode : l.encode = .error e)
      (told : Call.told m.calls = offerBytes login) (call : m.call = .fail e)
      (undialled : ¬ HasDialled c m.calls) : Met c login s verdict selected f m
  | denied {l : Login} {presented : Bytes} {reason : String}
      (selects : selected = .userPass) (given : login = some l)
      (runs : Runs c (.userPass none (some l)) m.calls) (encode : l.encode = .ok presented)
      (refuses : verdict l = .refused reason)
      (call : m.call = .fail (.authentication (.credentialsRejected 1)))
      (session : m.session = .done ())
      (noted : ⟨.note (.ended (.error (.authentication (.refused l.username reason)))), ()⟩ ∈
        m.serves) (undialled : ¬ HasDialled c m.calls) (closed : ¬ HasNegotiated m.serves) :
      Met c login s verdict selected f m
  | agreed {agreed presented : Bytes} {d₁ d₂ : Dialogue Calls} {k : Method}
      (accord : Accord login verdict selected agreed presented) (runs : Runs c k m.calls)
      (selects : selected = k.id) (split : m.calls = d₁ ++ d₂) (dials : Leads c.dial d₁ (.done ()))
      (point : Point d₁ agreed (offerBytes login ++ presented)) (goesOn : Leads f d₂ m.call)
      (negotiated : HasNegotiated m.serves)
      (attends : Attends s m.toServer agreed (Call.told d₂) m.serves m.session) :
      Met c login s verdict selected f m

variable {f : Task Calls α} {m : Meeting α}

/-- The method that a client reads is the one that was selected. -/
theorem selected_eq {id : MethodId} {more more' : Bytes}
    (h : Hosting.told m.serves = [0x05, selected] ++ more)
    (h' : m.toClient.bytes = [0x05, id] ++ more') : id = selected ∧ more' = more := by
  have hboth : [0x05, id] ++ more' = [0x05, selected] ++ more := h'.symm.trans h
  simpa using hboth

/-- A client declines only what neither of the two can run. -/
theorem met_of_declined {choice : MethodChoice} {e : Failure} (hc : Configured c login)
    (hhosted : Hosted s (s.methods.select c.offer.methods) verdict m.toServer rest m.serves
      m.session)
    (hid : choice.method = s.methods.select c.offer.methods)
    (hdeclines : c.methodOf choice = .error e) (hcall : m.call = .fail e)
    (hundialled : ¬ HasDialled c m.calls) :
    Met c login s verdict (s.methods.select c.offer.methods) f m := by
  obtain ⟨id⟩ := choice
  subst hid
  rcases s.methods.select_cases c.offer.methods with ⟨k, _, hmem, hselect, _⟩ | ⟨_, hselect⟩
  · rw [hselect] at hdeclines
    obtain ⟨method, haccepts⟩ := hc.exists_methodOf hmem
    rw [haccepts] at hdeclines
    cases hdeclines
  · rw [hselect] at hdeclines hhosted ⊢
    obtain ⟨htold, _, hsession, hnoted⟩ := hhosted.of_noAcceptable
    cases hdeclines
    exact .strangers rfl htold hcall hsession hnoted hundialled

/-- A client that is asked for its login either cannot write it, or is denied. -/
theorem met_of_presented {l : Login} {result : Option (Except Failure Unit)} {more : Bytes}
    (htold : Call.told m.calls = offerBytes (some l) ++ rest)
    (hhosted : Hosted s .userPass verdict m.toServer rest m.serves m.session)
    (hfront : Hosting.told m.serves = [0x05, 0x02] ++ more)
    (hruns : Runs c (.userPass none (some l)) m.calls) (hpresents : Presented l more m.calls result)
    (hfails : ∀ e, result = some (.error e) → m.call = .fail e)
    (hunsettled : result ≠ some (.ok ())) (hundialled : ¬ HasDialled c m.calls) :
    Met c (some l) s verdict .userPass f m := by
  cases hpresents with
  | @unwritten e told encode =>
    exact .unwritten rfl rfl hruns encode told (hfails e rfl) hundialled
  | @unanswered _ presented told encode unread =>
    -- the session has read the login, so that its reply is there to be read
    obtain rfl : rest = presented := List.append_cancel_left (htold.symm.trans told)
    have hlogin := Login.parse_of_encode encode []
    rw [List.append_nil] at hlogin
    rcases hhosted.of_login hlogin with ⟨_, _, hdenied, _⟩ | ⟨_, _, _, hattends⟩
    · obtain rfl : more = [0x01, 0x01] := by simpa using hfront.symm.trans hdenied
      exact absurd (LoginReply.parse_ok_iff.2 rfl) (unread ⟨0x01⟩ [])
    · obtain ⟨more', hadmitted⟩ := hattends.front
      obtain rfl : more = 0x01 :: 0x00 :: more' := by simpa using hfront.symm.trans hadmitted
      exact absurd (LoginReply.parse_ok_iff.2 rfl) (unread ⟨0x00⟩ more')
  | @denied presented rest' status told encode answered denies =>
    obtain rfl : rest = presented := List.append_cancel_left (htold.symm.trans told)
    have hlogin := Login.parse_of_encode encode []
    rw [List.append_nil] at hlogin
    rw [answered] at hfront
    rcases hhosted.of_login hlogin with
      ⟨reason, hrefuses, hdenied, hclosed, hsession, hnoted⟩ | ⟨_, _, _, hattends⟩
    · obtain ⟨rfl, _⟩ : status = 1 ∧ rest' = [] := by simpa using hfront.symm.trans hdenied
      exact .denied rfl rfl hruns encode hrefuses (hfails _ rfl) hsession hnoted hundialled hclosed
    · obtain ⟨more', hadmitted⟩ := hattends.front
      obtain ⟨hstatus, _⟩ : status = 0 ∧ rest' = more' := by
        simpa using hfront.symm.trans hadmitted
      exact absurd hstatus denies
  | admitted => exact absurd rfl hunsettled

/-- A client that has come to an agreement has done so with the session. -/
theorem met_of_agreed {agreed presented rest' more : Bytes} {d₁ d₂ : Dialogue Calls} {k : Method}
    (htold : Call.told m.calls = offerBytes login ++ rest)
    (hhosted : Hosted s k.id verdict m.toServer rest m.serves m.session)
    (agreement : Agreement login agreed presented) (hruns : Runs c k m.calls)
    (hanswered : Hosting.told m.serves = agreed ++ rest')
    (hfront : Hosting.told m.serves = [0x05, k.id] ++ more) (hsplit : m.calls = d₁ ++ d₂)
    (hdials : Leads c.dial d₁ (.done ()))
    (hpoint : Point d₁ agreed (offerBytes login ++ presented)) (hgoesOn : Leads f d₂ m.call) :
    Met c login s verdict k.id f m := by
  have hrest : rest = presented ++ Call.told d₂ := by
    have htold' := htold.symm.trans (congrArg Call.told hsplit)
    rw [Call.told_append, hpoint.told, List.append_assoc] at htold'
    exact List.append_cancel_left htold'
  have hboth := hfront.symm.trans hanswered
  cases agreement with
  | anonymous =>
    obtain ⟨hid, _⟩ : k.id = 0 ∧ more = rest' := by simpa using hboth
    rw [hid] at hhosted
    obtain ⟨hnegotiated, hattends⟩ := Hosted.of_noAuth hhosted
    rw [hrest, List.nil_append] at hattends
    exact .agreed (.anonymous hid) hruns rfl hsplit hdials hpoint hgoesOn hnegotiated hattends
  | @admitted l _ given encode =>
    obtain ⟨hid, _⟩ : k.id = 2 ∧ more = 0x01 :: 0x00 :: rest' := by simpa using hboth
    rw [hid, hrest] at hhosted
    have hlogin := Login.parse_of_encode encode (Call.told d₂)
    rcases Hosted.of_login hhosted hlogin with
      ⟨_, _, hdenied, _⟩ | ⟨_, hadmits, hnegotiated, hattends⟩
    · have hcontra := hanswered.symm.trans hdenied
      simp at hcontra
    · exact .agreed (.admitted hid given encode hadmits) hruns rfl hsplit hdials hpoint hgoesOn
        hnegotiated hattends

/-- How a client and a session stand with each other at rest. -/
theorem met_of_atRest (hc : Configured c login) (hs : s.methods = .ofList methods)
    (hplain : ∀ k ∈ methods, IsPlain verdict k) (hm : ComesTo (c.dial.bind fun _ => f) s m)
    (hrest : m.AtRest) :
    (∃ front back, m.serves = front ++ back ∧ Serving.Chosen s.methods c.offer.methods front) ∧
      Met c login s verdict (s.methods.select c.offer.methods) f m := by
  have h := holds_of_comesTo hm
  have hgreeted : Greeted c login m.toClient f m.calls m.call :=
    Client.greeted_of_settled hc h.calls h.heeds hrest.call
  obtain ⟨rest, htold⟩ := hgreeted.front
  have hoffer : MethodOffer.decoder.parse m.toServer.bytes = .finished (.ok c.offer) rest := by
    show MethodOffer.decoder.parse (Call.told m.calls) = _
    rw [htold]
    exact hc.parse_offer rest
  obtain ⟨hchosen, hhosted⟩ :=
    Serving.hosted_of_settled hs hplain h.serves h.calm hrest.session hoffer
  refine ⟨hchosen, ?_⟩
  obtain ⟨more, hfront⟩ := hhosted.front
  cases hgreeted with
  | unanswered _ unread =>
    -- the session has answered every offer by the time it is at rest
    exact absurd (MethodChoice.parse_ok_iff.2 hfront) (unread ⟨_⟩ more)
  | declined _ chosen declines fails unfinished =>
    exact met_of_declined hc hhosted (selected_eq hfront chosen).1 declines fails unfinished
  | @presented l rest' result given runs chosen presents fails unsettled unfinished =>
    subst given
    obtain ⟨hid, rfl⟩ := selected_eq hfront chosen
    rw [← hid] at hhosted hfront ⊢
    exact met_of_presented htold hhosted hfront runs presents fails unsettled unfinished
  | @agreed agreed presented rest' rest'' d₁ d₂ k agreement runs chosen answered split dials point
      goesOn =>
    obtain ⟨hid, rfl⟩ := selected_eq hfront chosen
    rw [← hid] at hhosted hfront ⊢
    exact met_of_agreed htold hhosted agreement runs answered hfront split dials point goesOn

/-! ## What they agree on -/

/-- A method that both sides can run. -/
def IsShared (c : Client) (s : Setting) (id : MethodId) : Prop :=
  id ∈ c.methods.supported ∧ id ∈ s.methods.supported

theorem isShared_iff {id : MethodId} :
    IsShared c s id ↔ id ∈ c.offer.methods ∧ s.methods.contains id := by
  rw [MethodRegistry.contains_iff, IsShared, Client.offer, List.mem_reverse]

theorem select_eq_of_isShared {id : MethodId} (hc : Configured c login) (hid : IsShared c s id)
    (hhighest : ∀ id', IsShared c s id' → id' ≤ id) : s.methods.select c.offer.methods = id := by
  obtain ⟨hoffered, hcontains⟩ := isShared_iff.1 hid
  have hle := MethodRegistry.le_select hc.pairwise_offer hoffered hcontains
  rcases s.methods.select_cases c.offer.methods with ⟨k, hk, hmem, hselect, _⟩ | ⟨hnone, _⟩
  · have hshared : IsShared c s k.id :=
      ⟨List.mem_reverse.1 hmem, List.mem_map.2 ⟨k, hk, rfl⟩⟩
    rw [hselect] at hle ⊢
    exact UInt8.le_antisymm (hhighest _ hshared) hle
  · exact absurd hcontains (hnone id hoffered)

theorem select_eq_of_not_isShared (hnone : ∀ id, ¬ IsShared c s id) :
    s.methods.select c.offer.methods = .noAcceptable := by
  rcases s.methods.select_cases c.offer.methods with ⟨k, hk, hmem, _⟩ | ⟨_, hselect⟩
  · exact absurd ⟨List.mem_reverse.1 hmem, List.mem_map.2 ⟨k, hk, rfl⟩⟩ (hnone k.id)
  · exact hselect

/-- The session is over with an outcome. -/
def Ended (m : Meeting α) (outcome : Except Failure Unit) : Prop :=
  m.session = .done () ∧ ⟨.note (.ended outcome), ()⟩ ∈ m.serves

/-- What a client and a session agree on before a request. -/
structure AgreesOnMethod (c : Client) (login : Option Login) (s : Setting)
    (verdict : Login → Verdict) (m : Meeting α) : Prop where
  /-- Both run the method with the highest id that they share. -/
  shared : ∀ id, IsShared c s id → (∀ id', IsShared c s id' → id' ≤ id) →
    (∃ front back, m.serves = front ++ back ∧ Serving.Chosen s.methods c.offer.methods front) ∧
      s.methods.select c.offer.methods = id ∧ ∃ k, k.id = id ∧ Runs c k m.calls
  /-- Where they share none, both give up. -/
  unshared : (∀ id, ¬ IsShared c s id) → Hosting.told m.serves = [0x05, 0xFF] ∧
    Ended m (.error .noAcceptableMethods) ∧ m.call = .fail .noAcceptableMethods
  /-- A login that fits gets the client in exactly if it is admitted. -/
  decided : ∀ l, login = some l → s.methods.select c.offer.methods = .userPass →
    Text.Utf8.Fits l.username ∧ Text.Utf8.Fits l.password →
    (HasDialled c m.calls ↔ (verdict l).isAdmitted) ∧
      (HasNegotiated m.serves ↔ (verdict l).isAdmitted) ∧
      ∀ reason, verdict l = .refused reason →
        m.call = .fail (.authentication (.credentialsRejected 1)) ∧
        Ended m (.error (.authentication (.refused l.username reason)))
  /-- A login that does not fit is not written. -/
  unfit : ∀ l, login = some l → s.methods.select c.offer.methods = .userPass →
    ¬ (Text.Utf8.Fits l.username ∧ Text.Utf8.Fits l.password) →
    Call.told m.calls = offerBytes login ∧ ∃ e, m.call = .fail e ∧ e.kind = .protocol

/-- A client runs the method that was selected, if there is one. -/
theorem Met.exists_runs (h : Met c login s verdict selected f m)
    (hselected : selected ≠ .noAcceptable) : ∃ k, k.id = selected ∧ Runs c k m.calls := by
  cases h with
  | strangers selects => exact absurd selects hselected
  | unwritten selects _ runs => exact ⟨_, selects.symm, runs⟩
  | denied selects _ runs => exact ⟨_, selects.symm, runs⟩
  | agreed _ runs selects => exact ⟨_, selects.symm, runs⟩

theorem Met.of_noAcceptable (h : Met c login s verdict .noAcceptable f m) :
    Hosting.told m.serves = [0x05, 0xFF] ∧ Ended m (.error .noAcceptableMethods) ∧
      m.call = .fail .noAcceptableMethods := by
  cases h with
  | strangers _ told call session noted => exact ⟨told, ⟨session, noted⟩, call⟩
  | unwritten selects => cases selects
  | denied selects => cases selects
  | agreed accord =>
    cases accord with
    | anonymous selects => cases selects
    | admitted selects => cases selects

/-- A login that was written is decided on, and both sides know of the decision. -/
theorem Met.of_login {l : Login} (h : Met c (some l) s verdict .userPass f m)
    (hencode : l.encode = .ok w) :
    (HasDialled c m.calls ↔ (verdict l).isAdmitted) ∧
      (HasNegotiated m.serves ↔ (verdict l).isAdmitted) ∧
      ∀ reason, verdict l = .refused reason →
        m.call = .fail (.authentication (.credentialsRejected 1)) ∧
        Ended m (.error (.authentication (.refused l.username reason))) := by
  cases h with
  | strangers selects => cases selects
  | unwritten _ given _ encode =>
    cases given
    rw [hencode] at encode
    cases encode
  | denied _ given _ _ refuses call session noted undialled closed =>
    cases given
    rw [refuses]
    refine ⟨iff_of_false undialled nofun, iff_of_false closed nofun, ?_⟩
    intro reason hreason
    cases hreason
    exact ⟨call, session, noted⟩
  | @agreed _ _ d₁ d₂ _ accord _ _ split dials _ _ negotiated =>
    cases accord with
    | anonymous selects => cases selects
    | admitted _ given _ admits =>
      cases given
      rw [admits]
      exact ⟨iff_of_true ⟨d₁, d₂, split, dials⟩ rfl, iff_of_true negotiated rfl, nofun⟩

/-- A login that cannot be written ends the call. -/
theorem Met.of_unwritten {l : Login} {e : Failure} (h : Met c (some l) s verdict .userPass f m)
    (hencode : l.encode = .error e) :
    Call.told m.calls = offerBytes (some l) ∧ m.call = .fail e := by
  have hunwritten : ∀ {w}, l.encode ≠ .ok w := by
    intro w h
    rw [hencode] at h
    cases h
  cases h with
  | strangers selects => cases selects
  | unwritten _ given _ encode told call =>
    cases given
    rw [hencode] at encode
    cases encode
    exact ⟨told, call⟩
  | denied _ given _ encode =>
    cases given
    exact absurd encode hunwritten
  | agreed accord =>
    cases accord with
    | anonymous selects => cases selects
    | admitted _ given encode =>
      cases given
      exact absurd encode hunwritten

theorem agreesOnMethod_of_atRest (hc : Configured c login) (hs : s.methods = .ofList methods)
    (hplain : ∀ k ∈ methods, IsPlain verdict k) (hm : ComesTo (c.dial.bind fun _ => f) s m)
    (hrest : m.AtRest) : AgreesOnMethod c login s verdict m := by
  obtain ⟨hchosen, hmet⟩ := met_of_atRest hc hs hplain hm hrest
  have hfits : ∀ l, (∃ w, Login.encode l = .ok w) ↔
      Text.Utf8.Fits l.username ∧ Text.Utf8.Fits l.password := fun l =>
    AnyMessage.exists_encode_iff (m := .login l)
  constructor
  case shared =>
    intro id hid hhighest
    have hselect := select_eq_of_isShared hc hid hhighest
    rw [hselect] at hmet
    refine ⟨hchosen, hselect, hmet.exists_runs ?_⟩
    rintro rfl
    exact hc.noAcceptable_notMem_offer (isShared_iff.1 hid).1
  case unshared =>
    intro hnone
    rw [select_eq_of_not_isShared hnone] at hmet
    exact hmet.of_noAcceptable
  case decided =>
    intro l hl hselect hlogin
    obtain ⟨w, hencode⟩ := (hfits l).2 hlogin
    rw [hselect, hl] at hmet
    exact hmet.of_login hencode
  case unfit =>
    intro l hl hselect hlogin
    rw [hselect, hl] at hmet
    cases hencode : l.encode with
    | ok w => exact absurd ((hfits l).1 ⟨w, hencode⟩) hlogin
    | error e =>
      obtain ⟨htold, hcall⟩ := hmet.of_unwritten hencode
      rw [hl]
      exact ⟨htold, e, hcall, Login.kind_of_encode hencode⟩

end Meeting

end Socks5

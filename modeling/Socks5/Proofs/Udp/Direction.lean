import Socks5.Proofs.Wire.Datagrams
import Socks5.Udp.Forwarding

/-!
# Which way datagrams go

Where a datagram goes depends on what the relay knows of its client, which depends on all the
datagrams before it. What one datagram can do is one of three things (`Handled`): it comes from the
client that is known, it gives the client's port away, or it comes from somebody else. Main
statement: what becomes of each datagram of a run (`run_follows_rules`).
-/

namespace Socks5.Forwarding

variable {e known next : ClientEndpoint} {source : SocketAddr} {datagram : Bytes} {action : Action}

/-! ## One datagram -/

/-- A source has the address of the client: the same one, or both lead back to this host. -/
def HasIpOf (e : ClientEndpoint) (source : SocketAddr) : Prop :=
  source.ip = e.ip ∨ (e.ip.isLoopback ∧ source.ip.isLoopback)

/-- A source is the client, by what is known of it. -/
def IsClient (e : ClientEndpoint) (source : SocketAddr) : Prop :=
  HasIpOf e source ∧ e.port = some source.port

theorem isIpOf_iff : e.isIpOf source = true ↔ HasIpOf e source := by
  simp [ClientEndpoint.isIpOf, HasIpOf]

theorem isKnown_iff : e.isKnown source = true ↔ IsClient e source := by
  simp [ClientEndpoint.isKnown, IsClient, isIpOf_iff]

theorem isRevealedBy_iff :
    e.isRevealedBy source datagram = true ↔
      e.port = none ∧ HasIpOf e source ∧ ∃ header, DatagramHeader.decode datagram = .ok header := by
  cases hdecode : DatagramHeader.decode datagram <;>
    simp [ClientEndpoint.isRevealedBy, isIpOf_iff, hdecode, Except.isOk, Except.toBool]

/-- What a datagram does: what is known afterwards, and where it goes. -/
inductive Handled (e : ClientEndpoint) (source : SocketAddr) (datagram : Bytes) :
    ClientEndpoint → Action → Prop where
  | known (client : IsClient e source) : Handled e source datagram e (outward source datagram)
  | revealed (unknown : e.port = none) (ip : HasIpOf e source)
      (header : ∃ header, DatagramHeader.decode datagram = .ok header) :
      Handled e source datagram { e with port := some source.port } (outward source datagram)
  | foreign (stranger : ¬ IsClient e source)
      (hidden : e.port = none → HasIpOf e source →
        ∃ cause, DatagramHeader.decode datagram = .error cause) :
      Handled e source datagram e (inward e source datagram)

theorem handled (e : ClientEndpoint) (source : SocketAddr) (datagram : Bytes) :
    Handled e source datagram (handle e source datagram).1 (handle e source datagram).2 := by
  by_cases hrevealed : e.isRevealedBy source datagram
  · obtain ⟨hport, hip, hheader⟩ := isRevealedBy_iff.1 hrevealed
    have hhandle : handle e source datagram =
        ({ e with port := some source.port }, outward source datagram) := by
      simp [handle, ClientEndpoint.learn, hrevealed]
    rw [hhandle]
    exact .revealed hport hip hheader
  by_cases hknown : e.isKnown source
  · have hhandle : handle e source datagram = (e, outward source datagram) := by
      simp [handle, ClientEndpoint.learn, hknown, hrevealed]
    rw [hhandle]
    exact .known (isKnown_iff.1 hknown)
  · have hhandle : handle e source datagram = (e, inward e source datagram) := by
      simp [handle, hknown, hrevealed]
    rw [hhandle]
    refine .foreign (fun hclient => hknown (isKnown_iff.2 hclient)) fun hport hip => ?_
    cases hdecode : DatagramHeader.decode datagram with
    | error cause => exact ⟨cause, rfl⟩
    | ok header => exact absurd (isRevealedBy_iff.2 ⟨hport, hip, header, hdecode⟩) hrevealed

/-- The client that is known is passed on to targets, and nothing new is learnt of it. -/
theorem handle_of_isClient (h : IsClient e source) :
    handle e source datagram = (e, outward source datagram) := by
  rw [handle, if_pos (by simp [isKnown_iff.2 h]), ClientEndpoint.learn_eq_self h.2]

/-- Once the client's port is known everybody else is passed on to the client. -/
theorem handle_of_not_isClient {port : Port} (hport : e.port = some port)
    (h : ¬ IsClient e source) : handle e source datagram = (e, inward e source datagram) := by
  have hhidden : e.isRevealedBy source datagram = false := by
    simp [ClientEndpoint.isRevealedBy, hport]
  have hunknown : e.isKnown source = false := by
    simpa [← isKnown_iff] using h
  simp [handle, hhidden, hunknown]

/-- A datagram can be read if its header can. -/
theorem decapsulate_eq_error_iff :
    (∃ cause, Datagram.decapsulate datagram = .error cause) ↔
      ∃ cause, DatagramHeader.decode datagram = .error cause := by
  cases hdecode : DatagramHeader.decode datagram with
  | error cause => simp [Datagram.decapsulate, hdecode, bind, Except.bind]
  | ok header => simp [Datagram.decapsulate, hdecode, bind, Except.bind, pure, Except.pure]

/-- A datagram of the client goes to the target that its header names, if it can be read and the
target is given by its address. -/
theorem outward_eq_toTarget_iff {s target : SocketAddr} {payload : Bytes} :
    outward source datagram = .toTarget s target payload ↔
      s = source ∧ ∃ t, Datagram.decapsulate datagram = .ok (t, payload) ∧
        t.socketAddr? = some target := by
  unfold outward
  cases hread : Datagram.decapsulate datagram with
  | error cause => simp
  | ok parts =>
    obtain ⟨t, p⟩ := parts
    cases haddr : t.socketAddr? with
    | none =>
      simp only [haddr]
      constructor
      · nofun
      · rintro ⟨_, t', hparts, haddr'⟩
        cases hparts
        rw [haddr] at haddr'
        cases haddr'
    | some address =>
      simp only [haddr]
      constructor
      · intro h
        cases h
        exact ⟨rfl, t, rfl, haddr⟩
      · rintro ⟨rfl, t', hparts, haddr'⟩
        cases hparts
        rw [haddr] at haddr'
        cases haddr'
        rfl

theorem outward_ne_toClient {s client : SocketAddr} {payload packet : Bytes} :
    outward source datagram ≠ .toClient s client payload packet := by
  unfold outward
  split
  · nofun
  · split <;> nofun

/-- Any other datagram goes to the client behind its source. -/
theorem inward_of_port (source : SocketAddr) (datagram : Bytes) {port : Port}
    (h : e.port = some port) :
    ∃ packet, inward e source datagram = .toClient source { ip := e.ip, port } datagram packet ∧
      Datagram.decapsulate packet = .ok (.ofSocketAddr source, datagram) := by
  obtain ⟨packet, hpacket⟩ := Datagram.exists_encapsulate_ofSocketAddr source datagram
  refine ⟨packet, ?_, Datagram.decapsulate_encapsulate hpacket⟩
  simp [inward, ClientEndpoint.addr?, h, hpacket]

/-- It goes nowhere as long as the client's port is unknown. -/
theorem inward_of_unknown (h : e.port = none) :
    inward e source datagram = .drop (.clientUnknown source) := by
  simp [inward, ClientEndpoint.addr?, h]

/-- No datagram that goes to a target is one of somebody else. -/
theorem inward_ne_toTarget {s target : SocketAddr} {payload : Bytes} :
    inward e source datagram ≠ .toTarget s target payload := by
  cases hport : e.port with
  | none =>
    rw [inward_of_unknown hport]
    nofun
  | some port =>
    obtain ⟨packet, hinward, _⟩ := inward_of_port source datagram hport
    rw [hinward]
    nofun

/-- The rules for a datagram: what is known of the client before and after it, and what is done. -/
structure Follows (known next : ClientEndpoint) (source : SocketAddr) (datagram : Bytes)
    (action : Action) : Prop where
  ip : next.ip = known.ip
  port : ∀ port, known.port = some port → next.port = some port
  /-- Only a readable header from the client's address gives the port away. -/
  learns : next.port ≠ known.port →
    known.port = none ∧ next.port = some source.port ∧ HasIpOf known source ∧
      ∃ header, DatagramHeader.decode datagram = .ok header
  /-- What goes to a target is the payload of a datagram of the client, and it goes to the address
  in its header. -/
  toTarget : ∀ s target payload, action = .toTarget s target payload ↔
    s = source ∧ IsClient next source ∧ ∃ t, Datagram.decapsulate datagram = .ok (t, payload) ∧
      t.socketAddr? = some target
  /-- Any other datagram goes to the client, behind the source that it came from. -/
  toClient : ¬ IsClient next source → ∀ port, known.port = some port → ∃ packet,
    action = .toClient source { ip := known.ip, port } datagram packet ∧
      Datagram.decapsulate packet = .ok (.ofSocketAddr source, datagram)
  notReturned : IsClient next source → ∀ s client payload packet,
    action ≠ .toClient s client payload packet
  unknown : ¬ IsClient next source → known.port = none → action.sent? = none
  /-- What cannot be read and may be the client's leaves no trace. -/
  unreadable : (∃ cause, Datagram.decapsulate datagram = .error cause) →
    IsClient next source ∨ (known.port = none ∧ HasIpOf known source) →
      next = known ∧ action.sent? = none

theorem outward_of_unreadable (h : ∃ cause, Datagram.decapsulate datagram = .error cause) :
    (outward source datagram).sent? = none := by
  obtain ⟨cause, hcause⟩ := h
  simp [outward, hcause, Action.sent?]

theorem Handled.follows (h : Handled known source datagram next action) :
    Follows known next source datagram action := by
  cases h with
  | known client =>
    refine ⟨rfl, fun _ h => h, fun h => absurd rfl h, fun s target payload => ?_,
      fun h => absurd client h, fun _ _ _ _ _ => outward_ne_toClient, fun h => absurd client h,
      fun h _ => ⟨rfl, outward_of_unreadable h⟩⟩
    rw [outward_eq_toTarget_iff, and_iff_right client]
  | revealed unknown ip header =>
    have hclient : IsClient { known with port := some source.port } source := ⟨ip, rfl⟩
    refine ⟨rfl, ?_, fun _ => ⟨unknown, rfl, ip, header⟩, fun s target payload => ?_,
      fun h => absurd hclient h, fun _ _ _ _ _ => outward_ne_toClient, fun h => absurd hclient h,
      fun h _ => ?_⟩
    · intro port hport
      rw [unknown] at hport
      cases hport
    · rw [outward_eq_toTarget_iff, and_iff_right hclient]
    · -- a header that can be read is not that of an unreadable datagram
      obtain ⟨cause, hcause⟩ := decapsulate_eq_error_iff.1 h
      obtain ⟨header, hheader⟩ := header
      rw [hcause] at hheader
      cases hheader
  | foreign stranger hidden =>
    refine ⟨rfl, fun _ h => h, fun h => absurd rfl h, fun s target payload => ?_,
      fun _ port hport => inward_of_port source datagram hport, fun h => absurd h stranger,
      fun _ hport => ?_, fun _ hmay => ?_⟩
    · constructor
      · intro h
        exact absurd h inward_ne_toTarget
      · rintro ⟨_, hclient, _⟩
        exact absurd hclient stranger
    · rw [inward_of_unknown hport]
      rfl
    · rcases hmay with hclient | ⟨hport, _⟩
      · exact absurd hclient stranger
      · rw [inward_of_unknown hport]
        exact ⟨rfl, rfl⟩

/-! ## Runs -/

theorem handleAll_append (e : ClientEndpoint) (before after : List (SocketAddr × Bytes)) :
    handleAll e (before ++ after) =
      ((handleAll (handleAll e before).1 after).1,
        (handleAll e before).2 ++ (handleAll (handleAll e before).1 after).2) := by
  induction before generalizing e with
  | nil => rfl
  | cons x before ih => simp only [List.cons_append, handleAll, ih]

@[simp] theorem ip_handleAll (e : ClientEndpoint) (datagrams : List (SocketAddr × Bytes)) :
    (handleAll e datagrams).1.ip = e.ip := by
  induction datagrams generalizing e with
  | nil => rfl
  | cons x datagrams ih => simp only [handleAll, ih, ip_handle]

/-- A port that is known stays. -/
theorem port_handleAll {port : Port} (datagrams : List (SocketAddr × Bytes))
    (h : e.port = some port) : (handleAll e datagrams).1.port = some port := by
  induction datagrams generalizing e with
  | nil => exact h
  | cons x datagrams ih => exact ih ((handled e x.1 x.2).follows.port port h)

/-- Every datagram of a run follows the rules for what was known before it. The client's address
never changes and its port once at most, and what cannot be read and may be the client's makes no
difference to anything else. -/
theorem run_follows_rules (initial : ClientEndpoint) (before after : List (SocketAddr × Bytes))
    (source : SocketAddr) (datagram : Bytes) :
    let known := (handleAll initial before).1
    let next := (handleAll initial (before ++ [(source, datagram)])).1
    let whole := handleAll initial (before ++ (source, datagram) :: after)
    ∃ action rest, whole.2 = (handleAll initial before).2 ++ action :: rest ∧
      known.ip = initial.ip ∧ (∀ port, known.port = some port → whole.1.port = some port) ∧
      Follows known next source datagram action ∧
      ((∃ cause, Datagram.decapsulate datagram = .error cause) →
        IsClient next source ∨ (known.port = none ∧ HasIpOf known source) →
          handleAll initial (before ++ after) =
            (whole.1, (handleAll initial before).2 ++ rest)) := by
  intro known next whole
  have hnext : next = (handle known source datagram).1 := by
    show (handleAll initial (before ++ [(source, datagram)])).1 = _
    rw [handleAll_append]
    rfl
  have hwhole : whole = ((handleAll next after).1,
      (handleAll initial before).2 ++ (handle known source datagram).2 ::
        (handleAll next after).2) := by
    show handleAll initial (before ++ (source, datagram) :: after) = _
    rw [handleAll_append, hnext]
    rfl
  have hfollows := (handled known source datagram).follows
  rw [← hnext] at hfollows
  refine ⟨(handle known source datagram).2, (handleAll next after).2, by rw [hwhole],
    ip_handleAll initial before, fun port hport => ?_, hfollows, fun hunreadable hmay => ?_⟩
  · rw [hwhole]
    exact port_handleAll after (hfollows.port port hport)
  · obtain ⟨hsame, _⟩ := hfollows.unreadable hunreadable hmay
    rw [hwhole, handleAll_append, hsame]

end Socks5.Forwarding

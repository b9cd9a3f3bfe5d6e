import Socks5.Proofs.Udp.Direction

/-!
# The way back to the client

Datagrams for the client go to its announced address, at the port that its own datagrams come from.
That is where the client sends from, unless it sends from a loopback address other than the
announced one: a relay takes it at any of them and answers at one. Main statement:
`reply_address`.
-/

namespace Socks5.Forwarding

variable {e : ClientEndpoint} {source other : SocketAddr} {datagram : Bytes}
  {following : List (SocketAddr × Bytes)}

/-- A relay takes a datagram for one of its client. -/
def Accepts (e : ClientEndpoint) (source : SocketAddr) (datagram : Bytes) : Prop :=
  e.isKnown source ∨ e.isRevealedBy source datagram

/-! ## One datagram -/

/-- A source is taken for the client only if it has the client's address. -/
theorem Accepts.hasIpOf (h : Accepts e source datagram) : HasIpOf e source := by
  rcases h with hknown | hrevealed
  · exact (isKnown_iff.1 hknown).1
  · exact (isRevealedBy_iff.1 hrevealed).2.1

/-- The port of a datagram of the client is the client's port from then on. -/
theorem Accepts.port_handle (h : Accepts e source datagram) :
    (handle e source datagram).1.port = some source.port := by
  have hfollows := (handled e source datagram).follows
  rcases h with hknown | hrevealed
  · exact hfollows.port _ (isKnown_iff.1 hknown).2
  · have hhandle : (handle e source datagram).1 = { e with port := some source.port } := by
      simp [handle, ClientEndpoint.learn, hrevealed]
    rw [hhandle]

/-! ## Runs -/

/-- Behind a datagram of the client its address is the announced one, at the port that the
datagram came from. -/
theorem addr?_handleAll (h : Accepts e source datagram) :
    (handleAll e ((source, datagram) :: following)).1.addr? =
      some { ip := e.ip, port := source.port } := by
  have hport := port_handleAll following h.port_handle
  have hip : (handleAll (handle e source datagram).1 following).1.ip = e.ip := by
    rw [ip_handleAll, ip_handle]
  show (handleAll (handle e source datagram).1 following).1.addr? = _
  rw [ClientEndpoint.addr?, hport, hip]
  rfl

/-- Once a datagram has been taken for one of the client, whatever follows, all datagrams of others
go to the client's announced address at the port that this one came from. It is the very address
that this one came from if that is the announced one, without a zone; the only other sources are
loopback addresses of a client on this host, and addresses with a zone. -/
theorem reply_address (e : ClientEndpoint) (source : SocketAddr) (datagram : Bytes)
    (following : List (SocketAddr × Bytes)) (h : Accepts e source datagram) :
    let known := (handleAll e ((source, datagram) :: following)).1
    let client : SocketAddr := { ip := e.ip, port := source.port }
    known.addr? = some client ∧
      (known.addr? = some source ↔ source.ip = e.ip ∧ source.zone = 0) ∧
      (source.ip = e.ip ∨ e.ip.isLoopback ∧ source.ip.isLoopback) ∧
      ∀ other payload, ¬ Accepts known other payload → ∃ packet,
        handle known other payload = (known, .toClient other client payload packet) ∧
          Datagram.decapsulate packet = .ok (.ofSocketAddr other, payload) := by
  intro known client
  have haddr : known.addr? = some client := addr?_handleAll h
  refine ⟨haddr, ?_, h.hasIpOf, fun other payload hother => ?_⟩
  · rw [haddr, Option.some.injEq]
    constructor
    · intro hclient
      rw [← hclient]
      exact ⟨rfl, rfl⟩
    · rintro ⟨hip, hzone⟩
      obtain ⟨ip, port, zone⟩ := source
      cases hip
      cases hzone
      rfl
  · have hport : known.port = some source.port := port_handleAll following h.port_handle
    have hip : known.ip = e.ip := ip_handleAll e _
    have hforeign : ¬ IsClient known other := fun hclient => hother (.inl (isKnown_iff.2 hclient))
    obtain ⟨packet, hinward, hread⟩ := inward_of_port other payload hport
    refine ⟨packet, ?_, hread⟩
    rw [handle_of_not_isClient hport hforeign, hinward, hip]

/-- A client on this host that has announced no port and sends from its second loopback address. It
is answered at its first one. -/
theorem reply_address_loopback :
    let e : ClientEndpoint := ⟨.v4 .localhost, none⟩
    let source : SocketAddr := { ip := .v4 (.ofBytes 127 0 0 2), port := 4000 }
    let datagram : Bytes := [0, 0, 0, 1, 8, 8, 8, 8, 0, 53]
    Accepts e source datagram ∧
      (handleAll e [(source, datagram)]).1.addr? = some { ip := .v4 .localhost, port := 4000 } := by
  intro e source datagram
  have haccepts : Accepts e source datagram := .inr (by decide)
  exact ⟨haccepts, (reply_address e source datagram [] haccepts).1⟩

/-- So a client is not always answered at the address that it sends from, even if nothing else is
ever taken for one of its datagrams. -/
theorem not_reply_to_source :
    ¬ ∀ (e : ClientEndpoint) (source : SocketAddr) (datagram : Bytes)
        (following : List (SocketAddr × Bytes)),
      Accepts e source datagram →
      (∀ before other payload after, following = before ++ (other, payload) :: after →
        Accepts (handleAll e ((source, datagram) :: before)).1 other payload → other = source) →
      (handleAll e ((source, datagram) :: following)).1.addr? = some source := by
  intro hclaim
  have haddr := hclaim ⟨.v4 .localhost, none⟩ { ip := .v4 (.ofBytes 127 0 0 2), port := 4000 }
    [0, 0, 0, 1, 8, 8, 8, 8, 0, 53] [] (.inr (by decide)) (by simp)
  revert haddr
  decide

end Socks5.Forwarding

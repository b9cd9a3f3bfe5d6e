import Socks5.Bench.Sockets
import Socks5.Client.Call

/-!
# Scripted calls

A client calls a proxy. Where nobody listens the call comes to its end; a scripted proxy waits for
a client that cannot reach it.
-/

namespace Socks5.Bench

/-- What listens at the address of the proxy. -/
inductive ProxyScript where
  | nobody
  | scripted (bytes : List Fragment)

/-- What a client is told to do. -/
inductive Errand where
  | handshake
  | connect (host : Host) (port : PortRef)
  | bind (host : Host) (port : PortRef)
  | associate

namespace Errand

/-- The call that does it. -/
def task (c : Client) (names : Names) : Errand → Task Calls Unit
  | .handshake => c.dial
  | .connect host port => c.connect ⟨host, names.resolve port⟩
  | .bind host port => do let _ ← c.bind ⟨host, names.resolve port⟩
  | .associate => do let _ ← c.associate

end Errand

/-- The host of a client on this network, whose proxy has no bytes for it. -/
def isolatedCall (proxy : SocketAddr) : LiveCall where
  stream := { source := ⟨[], 0⟩ }
  localAddr := proxy
  reach address := .error (Isolation.refusal address)
  lookup := .literals

/-- What comes of a call, with some sockets around it. -/
def call (c : Client) (sockets : Sockets) (errand : Errand) :
    ProxyScript → Except Fault (Task Calls Unit)
  | .nobody => .ok ((isolatedCall c.proxy).run (errand.task c sockets.names)).1
  | .scripted _ => .error .noClient

end Socks5.Bench

import Socks5.Auth.Registry

/-!
# Clients

What a client of a proxy knows, and the two exchanges that all of its calls have in common:
agreeing on a method, and reading a reply.
-/

namespace Socks5

/-- A client: the proxy that it calls, the methods that it can run, and whether it looks up names
itself. -/
structure Client where
  proxy : SocketAddr
  methods : MethodRegistry
  resolvesLocally : Bool

namespace Client

/-- A client without credentials. -/
def new (proxy : SocketAddr) : Client := ⟨proxy, .ofList [.noAuth], false⟩

/-- A client that can log in. -/
def withLogin (c : Client) (login : Login) : Client :=
  { c with methods := c.methods.register (.userPass none (some login)) }

/-- A client that looks up names itself, or leaves that to the proxy. -/
def withLocalResolution (c : Client) (resolvesLocally : Bool) : Client := { c with resolvesLocally }

/-- What a client offers: the method with the highest id first, so that it rather logs in than
not. -/
def offer (c : Client) : MethodOffer := ⟨c.methods.supported.reverse⟩

/-- The method that a proxy has chosen. A choice that was not offered is a fault of the proxy. -/
def methodOf (c : Client) (choice : MethodChoice) : Except Failure Method :=
  if !choice.isAcceptable then .error .noAcceptableMethods
  else match c.methods.get? choice.method with
    | some method => .ok method
    | none => .error (.malformed (.methodNotOffered choice.method))

/-- Agrees on a method with the proxy and runs it. -/
def handshake (c : Client) : Task Streams Unit := do
  Stream.deliver c.offer
  let choice ← Stream.receive MethodChoice
  let method ← .ofExcept (c.methodOf choice)
  method.client

/-- Reads a reply, which has to be one of success, and tells the address in it. -/
def readReply : Task Streams Target := do
  let reply ← Stream.receive Reply
  if reply.code = .succeeded then return reply.bound else .fail (.rejected reply.code)

end Client

end Socks5

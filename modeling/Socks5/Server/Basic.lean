import Socks5.Auth.Registry
import Socks5.Config

/-!
# Servers

What a server is told before it runs.
-/

namespace Socks5

/-- A server: where it listens, who decides on logins, the methods that it can run, if they are
given outright, and what its sessions have to know. -/
structure Server where
  listen : String := "127.0.0.1:0"
  authenticator : Option Authenticator := none
  methods : Option MethodRegistry := none
  config : Config := {}

namespace Server

/-- The methods of a server that has none given outright: a login for those whom an authenticator
decides on, and nothing at all otherwise. -/
def methodsFor : Option Authenticator → MethodRegistry
  | some authenticator => .ofList [.userPass (some authenticator) none]
  | none => .ofList [.noAuth]

/-- The methods that a server can run. -/
def methodRegistry (s : Server) : MethodRegistry := s.methods.getD (methodsFor s.authenticator)

end Server

end Socks5

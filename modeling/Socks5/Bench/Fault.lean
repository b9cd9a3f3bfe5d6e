/-!
# Scripts that cannot go on

A script may ask for something that is not there. Then it has no answers at all.
-/

namespace Socks5.Bench

/-- Why a script cannot go on. -/
inductive Fault where
  /-- No session has the id, or its stream has been let go. -/
  | noSession (id : Nat)
  /-- No connection has the name. -/
  | noConnection (name : String)
  /-- No socket has the name, or none can be opened for it. -/
  | noSocket (name : String)
  /-- There is no association. -/
  | noAssociation
  /-- No client reaches the proxy. -/
  | noClient
deriving DecidableEq, Repr

end Socks5.Bench

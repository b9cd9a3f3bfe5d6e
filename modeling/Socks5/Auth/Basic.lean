import Socks5.Wire.Message

/-!
# Checking logins

A client that logs in is admitted, perhaps under a name, or refused for a reason. Who decides that
is an authenticator, which may also never come to a decision.
-/

namespace Socks5

/-- What an authentication comes to. -/
inductive Verdict where
  | admitted (user : Option String)
  | refused (reason : String)
deriving DecidableEq

namespace Verdict

/-- The client is let in without a name. -/
def anonymous : Verdict := .admitted none

/-- Whether the client is let in. -/
def isAdmitted : Verdict → Bool
  | .admitted _ => true
  | .refused _ => false

end Verdict

/-- The answer to a login. -/
def LoginReply.ofVerdict (v : Verdict) : LoginReply :=
  if v.isAdmitted then .accepted else .denied

/-- Decides on logins; `none` is a decision that never comes. -/
abbrev Authenticator := Login → Option Verdict

namespace Authenticator

/-- Comes to the same decision on every login. -/
def fixed (verdict : Verdict) : Authenticator := fun _ => some verdict

/-- Admits a single login, under its username. What it tells those whom it refuses does not depend
on the login that it admits. -/
def only (credentials : Login) : Authenticator := fun login =>
  some (if login = credentials then .admitted (some login.username)
    else .refused "invalid username or password")

/-- What is decided where nobody was appointed to decide. -/
def unconfigured : Authenticator :=
  .fixed (.refused "username/password required but not configured")

end Authenticator

/-- A configured login as it is shown: the password stays hidden. -/
def Login.redacted (m : Login) : String :=
  s!"UserPass \x7b username: {Text.Quoted.encode m.username}, password: \"<redacted>\" \x7d"

end Socks5

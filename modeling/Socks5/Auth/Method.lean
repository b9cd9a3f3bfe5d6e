import Socks5.Auth.Basic
import Socks5.Stream.Basic

/-!
# Authentication methods

A method has an id and two sides. The client's side works on the bare stream. The server's side
works on the channel of a session: the stream, where every wait ends when the session is closed,
and the collaborators whose opinion it asks.
-/

namespace Socks5

/-! ## Channels -/

namespace Channel

/-- What may be asked on the channel of a session: something of its stream, the verdict of a
collaborator, or that the session be closed. -/
inductive Ask where
  | stream (q : Stream.Ask)
  | consult (verdict : Option Verdict)
  | close

/-- The stream does not answer once the session has been closed. A collaborator answers in its own
time, whatever becomes of the session. -/
abbrev Answer : Ask → Type
  | .stream q => Option (Stream.Answer q)
  | .consult _ => Verdict
  | .close => Unit

end Channel

/-- The questions on the channel of a session. -/
def Channels : Interface := ⟨Channel.Ask, Channel.Answer⟩

namespace Channel

/-- Puts a question to the stream, unless the session is closed. -/
def race (q : Stream.Ask) : Task Channels (Stream.Answer q) :=
  .ask (I := Channels) (.stream q) fun
    | some answer => .done answer
    | none => .fail .closed

/-- Works on the stream as long as the session is open. -/
def whileOpen {α : Type} (t : Task Streams α) : Task Channels α := t.via (I := Streams) race

/-- Reads a message from the client. -/
def receive (α : Type) [Message α] : Task Channels α := whileOpen (Stream.receive α)

/-- Writes a message to the client. -/
def deliver {α : Type} [Message α] (message : α) : Task Channels Unit :=
  whileOpen (Stream.deliver message)

/-- Waits for the verdict of a collaborator. -/
def consult (verdict : Option Verdict) : Task Channels Verdict :=
  .put (I := Channels) (.consult verdict)

/-- Closes the session. -/
def close : Task Channels Unit := .put (I := Channels) .close

end Channel

/-! ## Methods -/

/-- An authentication method. -/
structure Method where
  id : MethodId
  name : String
  client : Task Streams Unit
  server : Task Channels Verdict

namespace Method

/-- Nothing is settled, and everybody is let in. -/
def noAuth : Method where
  id := .noAuth
  name := "NO AUTHENTICATION REQUIRED"
  client := return ()
  server := return .anonymous

/-- The method that is run when no method is acceptable: both sides give up. -/
def noAcceptable : Method where
  id := .noAcceptable
  name := "NO ACCEPTABLE METHODS"
  client := .fail .noAcceptableMethods
  server := do
    Channel.close
    .fail .noAcceptableMethods

/-- The client's side of a login. -/
def presentLogin : Option Login → Task Streams Unit
  | none => .fail (.authentication .credentialsMissing)
  | some login => do
    Stream.deliver login
    let reply ← Stream.receive LoginReply
    if reply.isAccepted then return ()
    else .fail (.authentication (.credentialsRejected reply.status))

/-- The server's side of a login. The client hears of the verdict before a refusal ends the
session. -/
def checkLogin (authenticator : Authenticator) : Task Channels Verdict := do
  let login ← Channel.receive Login
  let verdict ← Channel.consult (authenticator login)
  Channel.deliver (LoginReply.ofVerdict verdict)
  match verdict with
  | .refused reason => .fail (.authentication (.refused login.username reason))
  | .admitted user => return .admitted user

/-- Username and password: the server's side has an authenticator, the client's side the login to
present. -/
def userPass (authenticator : Option Authenticator) (login : Option Login) : Method where
  id := .userPass
  name := "USERNAME/PASSWORD"
  client := presentLogin login
  server := checkLogin (authenticator.getD .unconfigured)

end Method

end Socks5

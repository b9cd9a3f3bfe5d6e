import Socks5.Wire.Datagram
import Socks5.Wire.Message

/-!
# Messages of any kind

Where it is only settled later which message is to be read or written, its kind is a value.
-/

namespace Socks5

/-- The kinds of what can be read from a stream. -/
inductive MessageKind where
  | methodOffer
  | methodChoice
  | login
  | loginReply
  | request
  | reply
  | target
deriving DecidableEq

/-- A message of some kind, or the header of a datagram. -/
inductive AnyMessage where
  | methodOffer (message : MethodOffer)
  | methodChoice (message : MethodChoice)
  | login (message : Login)
  | loginReply (message : LoginReply)
  | request (message : Request)
  | reply (message : Reply)
  | target (target : Target)
  | datagramHeader (header : DatagramHeader)
deriving DecidableEq

namespace AnyMessage

/-- The bytes of a message. -/
def encode : AnyMessage → Except Failure Bytes
  | .methodOffer m => m.encode
  | .methodChoice m => m.encode
  | .login m => m.encode
  | .loginReply m => m.encode
  | .request m => m.encode
  | .reply m => m.encode
  | .target m => m.encode
  | .datagramHeader m => m.encode

end AnyMessage

/-- Reads a message of a kind. -/
def MessageKind.decoder : MessageKind → Decoder AnyMessage
  | .methodOffer => return .methodOffer (← MethodOffer.decoder)
  | .methodChoice => return .methodChoice (← MethodChoice.decoder)
  | .login => return .login (← Login.decoder)
  | .loginReply => return .loginReply (← LoginReply.decoder)
  | .request => return .request (← Request.decoder)
  | .reply => return .reply (← Reply.decoder)
  | .target => return .target (← Target.decoder)

end Socks5

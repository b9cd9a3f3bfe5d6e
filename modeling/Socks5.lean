import Socks5.Bench.Client
import Socks5.Bench.Pipe
import Socks5.Bench.Relay
import Socks5.Bench.Server
import Socks5.Bench.Service
import Socks5.Bench.Session
import Socks5.Bench.Udp
import Socks5.Proofs.Relay.Gaps
import Socks5.Proofs.Relay.Single
import Socks5.Proofs.Server.Shutdown
import Socks5.Proofs.Session.Closing
import Socks5.Proofs.Session.Conservation
import Socks5.Proofs.Session.Gate
import Socks5.Proofs.Session.Integrity
import Socks5.Proofs.Session.Password
import Socks5.Proofs.Session.ReplyGrammar
import Socks5.Proofs.Udp.Direction
import Socks5.Proofs.Wire.Layout
import Socks5.Task.Dialogue
import Socks5.Wire.Any
import Socks5.Proofs.Session.Order
import Socks5.Proofs.Session.LifeCycle
import Socks5.Proofs.Session.LifeCourse
import Socks5.Proofs.Client.Conduct
import Socks5.Proofs.Client.Feed
import Socks5.Proofs.Session.Answers
import Socks5.Proofs.Meeting.Basic
import Socks5.Proofs.Meeting.Method
import Socks5.Proofs.Meeting.Command
import Socks5.Proofs.Session.Secrecy
import Socks5.Proofs.Udp.Passage
import Socks5.Proofs.Udp.ReturnPath
import Socks5.Proofs.Wire.Encapsulation
import Socks5.Proofs.Wire.WordPlaces
import Socks5.Proofs.Relay.Custody
import Socks5.Proofs.Relay.Accounts
import Socks5.Proofs.Session.Racing
import Socks5.Proofs.Session.OnePeer
import Socks5.Proofs.Auth.History
import Socks5.Proofs.Stream.Sending
import Socks5.Proofs.Session.Unserved
import Socks5.Proofs.Session.Connecting
import Socks5.Proofs.Session.Dialling
import Socks5.Proofs.Ip.Literal
import Socks5.Proofs.Ip.Text
import Socks5.Proofs.Client.Naming

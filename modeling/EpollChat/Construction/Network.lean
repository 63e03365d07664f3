import EpollChat.Construction.Wired
import Mathlib.Data.Fintype.Basic

/-!
# The server and its clients

The server and some clients, each a program on bytes, which act in any order.  `link` is the
connection on which the server has accepted a client.  The server may have other connections, and
clients connections among themselves: what comes in there is left open.

Between a client and the server the bytes go through a stream in each direction.  `InOrder` is what
TCP guarantees: at any time each side has read a beginning of what the other side has written.
-/

namespace EpollChat

variable {ι : Type}

/-- How a client is started. -/
structure ClientSetup where
  sock : ℕ
  serverAddress : SockAddr
  listenPort : UInt32

def ClientSetup.init (k : ClientSetup) : Client := Client.init k.sock k.serverAddress k.listenPort

/-- The programs. -/
structure Network (ι : Type) where
  server : Wired State
  clients : ι → Wired Client
  link : ι → Option ConnId

/-- One of the programs acts. -/
inductive NetworkEvent (ι : Type)
  /-- The server accepts a client. -/
  | accept (fd : ℕ) (addr : SockAddr) (i : ι)
  | server (e : WiredEvent Event Unit)
  | client (i : ι) (e : WiredEvent ClientEvent (Answers × Bool))

namespace Network

/-- The programs when they start. -/
def init (p : Setup) (k : ι → ClientSetup) : Network ι where
  server := Wired.init p.init
  clients i := Wired.init (k i).init
  link := fun _ => none

/-- What the server has written to a connection. -/
def fromServer (n : Network ι) (c : ConnId) : Bytes :=
  Ledger.written c (moves n.server.program.log)

/-- What a client has written to the server. -/
def toServer (n : Network ι) (i : ι) : Bytes :=
  Ledger.written serverConn (moves (n.clients i).program.program.log)

/-- **The streams between the clients and the server.** -/
def InOrder (n : Network ι) : Prop :=
  ∀ i, (∀ c ∈ n.link i, n.server.received c <+: n.toServer i ∧
      (n.clients i).received serverConn <+: n.fromServer c) ∧
    (n.link i = none → (n.clients i).received serverConn = [])

instance [Fintype ι] (n : Network ι) : Decidable n.InOrder := by
  unfold InOrder
  infer_instance

variable [DecidableEq ι] (ac : Achelper)

/-- The transition function. -/
def step (n : Network ι) : NetworkEvent ι → Option (Network ι)
  | .accept fd addr i =>
      if n.link i = none then
        (n.server.step (serverEndpoint ac) (.other (.accept fd addr))).map fun server =>
          { n with
            server
            link := Function.update n.link i (some n.server.program.nconns) }
      else none
  | .server e => (n.server.step (serverEndpoint ac) e).map fun server => { n with server }
  | .client i e =>
      ((n.clients i).step (clientEndpoint ac) e).map fun k =>
        { n with clients := Function.update n.clients i k }

/-- The events that the server takes part in, as it sees them. -/
def serverEvents (_ : Network ι) : NetworkEvent ι → List (WiredEvent Event Unit)
  | .accept fd addr _ => [.other (.accept fd addr)]
  | .server e => [e]
  | .client .. => []

/-- The events of a client. -/
def clientEvents (i : ι) (_ : Network ι) :
    NetworkEvent ι → List (WiredEvent ClientEvent (Answers × Bool))
  | .client j e => if j = i then [e] else []
  | _ => []

/-- What is observed at the server. -/
def atServer {ο : Type} (obs : Wired State → WiredEvent Event Unit → List ο) (n : Network ι)
    (e : NetworkEvent ι) : List ο :=
  (n.serverEvents e).flatMap (obs n.server)

/-- What is observed at a client. -/
def atClient {ο : Type} (i : ι)
    (obs : Wired Client → WiredEvent ClientEvent (Answers × Bool) → List ο) (n : Network ι)
    (e : NetworkEvent ι) : List ο :=
  (n.clientEvents i e).flatMap (obs (n.clients i))

end Network

end EpollChat

import EpollChat.Construction.Client

/-!
# Two clients and their private connections

The program of either side is the client's, with the functions that `parse_response`, the two
commands and the sockets consist of.  Between the two are TCP connections.  Each delivers what is
sent on it in order, and then that it was closed; different connections have nothing to do with
each other.

What an end has queued in its `outbuffer` waits in `unsent` until the buffer has been sent, and
is lost if the end is closed before.  What is on its way to an end that closes is lost as well.
-/

namespace EpollChat

variable (ac : Achelper)

/-- One of the two clients. -/
inductive Side
  | a
  | b
  deriving DecidableEq

/-- The other client. -/
def Side.other : Side → Side
  | .a => .b
  | .b => .a

/-- What travels on a connection. -/
inductive Item
  /-- A `PrivateRegistrationResponse`. -/
  | registration (username : Bytes)
  /-- The end of the stream. -/
  | closed
  deriving DecidableEq

/-- A connection between the two. -/
structure Link where
  /-- The connection at this end; a connection that waits to be accepted has none. -/
  conn : Side → Option ConnId
  /-- What the end has queued. -/
  unsent : Side → List Item
  /-- What is on its way to the end. -/
  flight : Side → List Item

/-- The two clients and the connections made between them, the last one first. -/
structure Pair where
  /-- The names they are logged in under. -/
  name : Side → Bytes
  program : Side → State
  links : List Link

/-- What happens. -/
inductive PairEvent
  /-- The server's answer to a `startprivate` arrives: the side connects, at the descriptor
  `fd`. -/
  | start (p : Side) (fd : ℕ) (addr : Bytes)
  /-- The side accepts a connection, at the descriptor `fd`. -/
  | accept (p : Side) (i : ℕ) (fd : ℕ) (addr : SockAddr)
  /-- `EPOLLOUT` at this end of a connection. -/
  | send (p : Side) (i : ℕ) (nsent : Option ℕ)
  /-- The side handles what arrives on a connection next. -/
  | deliver (p : Side) (i : ℕ)
  /-- The side executes `stopprivate`. -/
  | stop (p : Side)

namespace Pair

/-- The connection of the private session that a side has with the other: its entry's
`client`. -/
def slot (q : Pair) (p : Side) : Option ConnId := privateConn (q.program p) (q.name p.other)

/-- The end of the connection is open. -/
def OpenAt (q : Pair) (p : Side) (l : Link) : Prop :=
  ∃ c ∈ l.conn p, (q.program p).IsOpen c

instance decidableOpenAt (q : Pair) (p : Side) (l : Link) : Decidable (q.OpenAt p l) :=
  match h : l.conn p with
  | none => .isFalse (by simp [OpenAt, h])
  | some c => decidable_of_iff ((q.program p).IsOpen c) (by simp [OpenAt, h])

/-- What the other end is told when this end of the connection closes. -/
def closeLink (p : Side) (l : Link) : Link where
  conn := l.conn
  unsent := Function.update l.unsent p []
  flight := Function.update (Function.update l.flight p []) p.other
    (l.flight p.other ++ [.closed])

/-- The program of a side changes, and the ends that have closed by that tell the other side. -/
def setProgram (q : Pair) (p : Side) (s : State) : Pair :=
  let q' := { q with program := Function.update q.program p s }
  { q' with
    links := q.links.map fun l =>
      if q.OpenAt p l ∧ ¬ q'.OpenAt p l then closeLink p l else l }

/-- Change one connection. -/
def setLink (q : Pair) (i : ℕ) (l : Link) : Pair := { q with links := q.links.set i l }

/-- The next item arrives at an end whose connection is `c`. -/
def handleItem (q : Pair) (p : Side) (c : ConnId) : Item → Pair
  | .registration username => q.setProgram p (gotPrivateRegistration (q.program p) c username)
  | .closed => q.setProgram p (closeSocket ac (q.program p) c)

/-- What an event does. -/
def exec (q : Pair) : PairEvent → Pair
  | .start p fd addr =>
      let s := q.program p
      let q := q.setProgram p
        (gotPrivateAddr ac s (some (q.name p)) fd (q.name p.other) addr)
      let l : Link :=
        { conn := Function.update (fun _ => none) p (some s.nconns)
          unsent := Function.update (fun _ => []) p [.registration (q.name p)]
          flight := fun _ => [] }
      { q with links := l :: q.links }
  | .accept p i fd addr =>
      match q.links[i]? with
      | none => q
      | some l =>
          (q.setProgram p (acceptClient (q.program p) fd addr)).setLink i
            { l with conn := Function.update l.conn p (some (q.program p).nconns) }
  | .send p i nsent =>
      match q.links[i]? with
      | none => q
      | some l =>
          match l.conn p with
          | none => q
          | some c =>
              let s := (imSendBuffer ((q.program p).lock c) c (.out c) nsent).unlock c
              let q := q.setProgram p s
              if s.pending (.out c) = [] then
                q.setLink i
                  { l with
                    unsent := Function.update l.unsent p []
                    flight := Function.update l.flight p.other
                      (l.flight p.other ++ l.unsent p) }
              else q
  | .deliver p i =>
      match q.links[i]? with
      | none => q
      | some l =>
          match l.conn p, l.flight p with
          | some c, x :: rest =>
              (q.setLink i
                { l with flight := Function.update l.flight p rest }).handleItem ac p c x
          | _, _ => q
  | .stop p =>
      match q.slot p with
      | none => q
      | some c => q.setProgram p (closeSocket ac (q.program p) c)

/-- The conditions under which an event can happen. -/
def enabled (q : Pair) : PairEvent → Prop
  | .start p fd _ => (q.program p).sock fd = none
  | .accept p i fd _ =>
      (q.program p).sock fd = none ∧ ∃ l ∈ q.links[i]?, l.conn p = none
  | .send p i nsent =>
      ∃ l ∈ q.links[i]?, q.OpenAt p l ∧ ∀ c ∈ l.conn p,
        (q.program p).epoll ((q.program p).conn c).fd = some true ∧
          sendResult ((q.program p).pending (.out c)).length nsent
  | .deliver p i => ∃ l ∈ q.links[i]?, q.OpenAt p l ∧ l.flight p ≠ []
  | .stop _ => True

instance decidableEnabled (q : Pair) (e : PairEvent) : Decidable (q.enabled e) :=
  match e with
  | .start .. | .accept .. | .send .. | .deliver .. | .stop _ => by
      dsimp only [enabled]
      infer_instance

/-- The transition function: the event is enabled, and handling it raises no fault. -/
def step (q : Pair) (e : PairEvent) : Option Pair :=
  if q.enabled e ∧ ((q.exec ac e).program .a).fault = none ∧
      ((q.exec ac e).program .b).fault = none then
    some (q.exec ac e)
  else none

/-- Two clients that are logged in under these names and connected to the server. -/
def init (name : Side → Bytes) (sock : Side → ℕ) (serverAddress : SockAddr) : Pair where
  name := name
  program p := acceptClient Client.blank (sock p) serverAddress
  links := []

end Pair

end EpollChat

import EpollChat.Construction.Client

/-!
# The event loop (`network_thread` in `server.c` and `client.c`)

The server and the client program run the same loop over the events that `epoll_wait` returns,
with different functions behind it.  `NetworkThread` is these functions, over any program state
`σ`; `ι` is what a read gives and `ο` what the calls of `send` return.

The kernel's part is the queue of connections that wait to be accepted and whether one of them
has arrived since the listening socket was last reported.  The listening socket is registered
with `EPOLLET`, so it is reported only then.  Connections may also arrive while a batch is being
handled: every report carries those that arrive while it is.
-/

namespace EpollChat

/-- The functions behind the loop. -/
structure NetworkThread (σ ι ο : Type*) where
  /-- `pick_client` without `createNew` finds an entry. -/
  finds : σ → ℕ → Bool
  /-- `close_socket` on the entry. -/
  close : σ → ℕ → σ
  /-- What follows a successful `accept`. -/
  accept : σ → ℕ → SockAddr → σ
  /-- The `EPOLLIN` branch on the entry. -/
  receive : σ → ℕ → ι → σ
  /-- The `EPOLLOUT` branch on the entry. -/
  send : σ → ℕ → ο → σ

/-- One event that `epoll_wait` returns, with what the kernel will answer. -/
inductive Report (ι ο : Type*)
  /-- `EPOLLERR`, `EPOLLHUP` or `EPOLLRDHUP`. -/
  | failed (fd : ℕ)
  /-- The listening socket, and what `accept` returns if a connection waits: a descriptor, or
  -1. -/
  | listening (newsockfd : Option ℕ)
  /-- `EPOLLIN`, perhaps with `EPOLLOUT`. -/
  | input (fd : ℕ) (i : ι)
  /-- `EPOLLOUT` only. -/
  | output (fd : ℕ) (o : ο)

/-- The listening socket is reported. -/
def Report.isListening {ι ο : Type*} : Report ι ο → Bool
  | .listening _ => true
  | _ => false

/-- It is reported, and `accept` will succeed if a connection waits. -/
def Report.accepts {ι ο : Type*} : Report ι ο → Bool
  | .listening (some _) => true
  | _ => false

/-- The program, and the kernel's side of the listening socket. -/
structure Loop (σ : Type*) where
  program : σ
  /-- The connections that wait to be accepted, in order of arrival. -/
  queue : List SockAddr
  /-- One has arrived since the last report. -/
  unreported : Bool

section Loops

variable {σ ι ο : Type*} (nt : NetworkThread σ ι ο)

/-- A connection arrives. -/
def Loop.arrive (k : Loop σ) (addr : SockAddr) : Loop σ :=
  { k with queue := k.queue ++ [addr], unreported := true }

/-- The body of the loop, and whether it leaves the loop with `break`.  `accept` fails when no
connection waits or no descriptor is left, and the loop continues. -/
def handle (k : Loop σ) : Report ι ο → Loop σ × Bool
  | .failed fd =>
      if nt.finds k.program fd then ({ k with program := nt.close k.program fd }, false)
      else (k, true)
  | .listening newsockfd =>
      match newsockfd, k.queue with
      | some newsockfd, addr :: queue =>
          ({ k with program := nt.accept k.program newsockfd addr, queue }, false)
      | _, _ => (k, false)
  | .input fd i =>
      if nt.finds k.program fd then ({ k with program := nt.receive k.program fd i }, true)
      else (k, true)
  | .output fd o =>
      if nt.finds k.program fd then ({ k with program := nt.send k.program fd o }, true)
      else (k, true)

/-- A report, and the connections that arrive while it is handled. -/
abbrev Handled (ι ο : Type*) := Report ι ο × List SockAddr

/-- The loop over a batch. -/
def handleAll (k : Loop σ) : List (Handled ι ο) → Loop σ
  | [] => k
  | (r, arrivals) :: rest =>
      let k' := arrivals.foldl Loop.arrive (handle nt k r).1
      if (handle nt k r).2 then k' else handleAll k' rest

/-- `MAX_EVENTS`. -/
def maxEvents : ℕ := 16

/-- What happens to the loop. -/
inductive LoopEvent (σ ι ο : Type*)
  /-- A connection arrives while the thread waits. -/
  | arrive (addr : SockAddr)
  /-- Another thread changes the state of the program. -/
  | elsewhere (program : σ)
  /-- `epoll_wait` returns this batch, and it is handled. -/
  | batch (events : List (Handled ι ο))

/-- The listening socket is in the batch. -/
def reportsListening (events : List (Handled ι ο)) : Bool := events.any fun x => x.1.isListening

/-- `epoll_wait` has returned these events. -/
def Loop.reported (k : Loop σ) (events : List (Handled ι ο)) : Loop σ :=
  { k with unreported := k.unreported && !reportsListening events }

/-- One event.  The listening socket is reported at most once in a batch, and only when a
connection has arrived since the last report. -/
def loopStep (k : Loop σ) : LoopEvent σ ι ο → Option (Loop σ)
  | .arrive addr => some (k.arrive addr)
  | .elsewhere program => some { k with program }
  | .batch events =>
      if events.length ≤ maxEvents ∧ events.countP (fun x => x.1.isListening) ≤ 1 ∧
          (reportsListening events = true → k.unreported = true) then
        some (handleAll nt (k.reported events) events)
      else none

/-- The loop of a program that has just started. -/
def Loop.init (program : σ) : Loop σ where
  program := program
  queue := []
  unreported := false

end Loops

/-! ## The server's thread -/

/-- What `recv` gives the server: the end of the stream, or these requests. -/
inductive ServerInput
  | closed
  | requests (reqs : List Request)

variable (ac : Achelper)

/-- The functions behind the server's loop. -/
def serverThread : NetworkThread State ServerInput (Option ℕ × Option ℕ) where
  finds s fd := (pickClient s fd).isSome
  close s fd := exec ac s (.hangup fd)
  accept s newsockfd addr := exec ac s (.accept newsockfd addr)
  receive s fd
    | .closed => exec ac s (.eof fd)
    | .requests reqs =>
        ([Event.readable fd] ++ reqs.map Event.request ++ [Event.readDone]).foldl (exec ac) s
  send s fd sent := exec ac s (.writable fd sent.1 sent.2)

/-! ## The client's thread -/

/-- What `recv` gives the client: the end of the stream, or these responses, each with what is
answered while it is handled. -/
inductive ClientInput
  | closed
  | responses (rsps : List (Bool × Response × Answers × Bool))

/-- The functions behind the client's loop. -/
def clientThread : NetworkThread Client ClientInput (Option ℕ) where
  finds k fd := (pickClient k.program fd).isSome
  close k fd := k.exec ac (.hangup fd)
  accept k newsockfd addr := k.exec ac (.accept newsockfd addr)
  receive k fd
    | .closed => k.exec ac (.eof fd)
    | .responses rsps =>
        ([ClientEvent.readable fd] ++
          rsps.map (fun r => ClientEvent.response r.1 r.2.1 r.2.2.1 r.2.2.2) ++
          [ClientEvent.readDone]).foldl (Client.exec ac) k
  send k fd nsent := k.exec ac (.writable fd nsent)

end EpollChat

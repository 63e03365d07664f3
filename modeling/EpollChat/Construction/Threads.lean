import EpollChat.Construction.EventLoop
import EpollChat.Construction.Wired

/-!
# The server's threads (`network_thread` and `time_thread` in `server.c`)

In `Construction/Server.lean` an event happens only in a state in which the kernel can report it.
The program does not look at that state.  `network_thread` takes a batch of reports from
`epoll_wait` and handles them one after another.  When a report's turn comes, other descriptors
have been closed, their numbers may have been used again, and `time_thread` has run.

Here a report is handled with nothing asked about the state, in the functions of the server on
bytes (`bareServer`).  Only the kernel's part is given: what `epoll_wait` can report when it
returns, and what `accept`, `recv` and `send` can return when they are called.
-/

namespace EpollChat

/-- A report of `epoll_wait`. -/
inductive EpollEvent
  /-- `EPOLLERR`, `EPOLLHUP` or `EPOLLRDHUP`. -/
  | failed (fd : ℕ)
  /-- The listening socket. -/
  | listening
  /-- `EPOLLIN`, perhaps with `EPOLLOUT`. -/
  | input (fd : ℕ)
  /-- `EPOLLOUT` only. -/
  | output (fd : ℕ)
  deriving DecidableEq

/-- The descriptor of a connection. -/
def EpollEvent.fd? : EpollEvent → Option ℕ
  | .failed fd => some fd
  | .listening => none
  | .input fd => some fd
  | .output fd => some fd

/-- What is reported of a descriptor is so: it is open, and `EPOLLOUT` was asked for. -/
def Current (s : State) : EpollEvent → Prop
  | .failed fd => s.sock fd ≠ none
  | .listening => True
  | .input fd => s.sock fd ≠ none
  | .output fd => s.sock fd ≠ none ∧ s.epoll fd = some true

instance (s : State) (r : EpollEvent) : Decidable (Current s r) :=
  match r with
  | .failed _ | .listening | .input _ | .output _ => by
      dsimp only [Current]
      infer_instance

/-- A batch that `epoll_wait` can return: it has room for `MAX_EVENTS` reports, they are current,
and no descriptor is reported twice. -/
def epollWait (s : State) (batch : List EpollEvent) : Prop :=
  batch.length ≤ maxEvents ∧ (∀ r ∈ batch, Current s r) ∧ (batch.filterMap EpollEvent.fd?).Nodup

instance (s : State) (batch : List EpollEvent) : Decidable (epollWait s batch) :=
  inferInstanceAs (Decidable (_ ∧ _ ∧ _))

/-- The system calls a report is handled with, and what they return. -/
inductive Answer
  | none
  /-- `accept`: a descriptor and an address, or -1. -/
  | accept (newsockfd : Option (ℕ × SockAddr))
  | recv (nbytes : Recv)
  | send (nsent₁ nsent₂ : Option ℕ)

/-- What `send` can return on the output of a descriptor. -/
def sendResults (s : State) (fd : ℕ) (nsent₁ nsent₂ : Option ℕ) : Prop :=
  ∀ c ∈ pickConn s fd,
    sendResult (s.pending (.out c)).length nsent₁ ∧
      ∀ u ∈ inlineTest s c, sendResult (s.pending (.offline u)).length nsent₂

instance (s : State) (fd : ℕ) (nsent₁ nsent₂ : Option ℕ) :
    Decidable (sendResults s fd nsent₁ nsent₂) := by
  unfold sendResults
  infer_instance

/-- The body of the loop: what is done about a report, and whether the loop goes on to the next
one.  Nothing is done where `pick_client` finds no entry or `accept` fails. -/
def handling (s : State) : EpollEvent → Answer → Option (Option (WiredEvent Event Unit) × Bool)
  | .failed fd, .none =>
      if (pickClient s fd).isSome then some (some (.other (.hangup fd)), true)
      else some (none, false)
  | .listening, .accept none => some (none, true)
  | .listening, .accept (some (newsockfd, addr)) =>
      -- the kernel takes a number that is not in use
      if s.sock newsockfd = none then some (some (.other (.accept newsockfd addr)), true) else none
  | .input fd, .recv nbytes =>
      if (pickClient s fd).isSome then some (some (.recv fd nbytes), false) else some (none, false)
  | .output fd, .send nsent₁ nsent₂ =>
      if (pickClient s fd).isSome then
        if sendResults s fd nsent₁ nsent₂ then
          some (some (.other (.writable fd nsent₁ nsent₂)), false)
        else none
      else some (none, false)
  | _, _ => none

variable (ac : Achelper)

/-- The functions of the server on bytes, whatever state they are called in. -/
def bareServer : Endpoint State Event Unit :=
  { serverEndpoint ac with
    step := fun s e => if (exec ac s e).fault = none then some (exec ac s e) else none }

/-- The program, and the reports that `network_thread` has not come to. -/
structure Threads where
  wired : Wired State
  batch : List EpollEvent

/-- What happens in the threads. -/
inductive ThreadEvent
  /-- `epoll_wait` returns a batch. -/
  | wait (batch : List EpollEvent)
  /-- The next report is handled. -/
  | next (a : Answer)
  /-- A round of the loop of `im_receive_command`. -/
  | round
  /-- A pass of `time_thread`. -/
  | sweep
  /-- Time passes. -/
  | tick (seconds : ℕ)

namespace Threads

/-- What an event does to the batch, and the event of the program it is. -/
def does (t : Threads) : ThreadEvent → Option (List EpollEvent × Option (WiredEvent Event Unit))
  | .wait batch =>
      if t.batch = [] ∧ t.wired.program.serving = none ∧ epollWait t.wired.program batch then
        some (batch, none)
      else none
  | .next a =>
      match t.batch with
      | [] => none
      | r :: rest =>
          (handling t.wired.program r a).map fun (e, goesOn) => (if goesOn then rest else [], e)
  | .round => some (t.batch, some (.round ()))
  | .sweep => some (t.batch, some (.other .sweep))
  | .tick seconds => some (t.batch, some (.other (.tick seconds)))

/-- The transition function.  `epoll_wait` is called when the batch has been handled, and the
other threads run at any time. -/
def step (t : Threads) (e : ThreadEvent) : Option Threads := do
  let (batch, e) ← t.does e
  let wired ←
    match e with
    | none => some t.wired
    | some e => t.wired.step (bareServer ac) e
  some { wired, batch }

/-- The threads when they start. -/
def init (p : Setup) : Threads where
  wired := Wired.init p.init
  batch := []

end Threads

end EpollChat

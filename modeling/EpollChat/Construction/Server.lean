import EpollChat.Construction.Commands
import EpollChat.Framework.Run

/-!
# The server as a transition system (`server.c`, `serverlib/command.c`)

A step is one event handled by `network_thread`, one pass of `time_thread`'s loop, or an advance
of the clock.  Reading is split at the granularity of the handler: `readable` begins an
`im_receive_command` on a connection, every `request` is one call of the handler on the next
frame together with the queueing of its response, and `readDone` ends the loop.  Between two
requests of one read the clock may advance and `time_thread` may run, since it is another thread.
`Construction/Receive.lean` shows that the byte-level receive loop takes exactly these steps.

The kernel decides which events happen: a descriptor that is handed out by `accept` is not open,
events are reported for open descriptors only, `EPOLLOUT` only where it is asked for, and `send`
takes at most what it is offered.  `enabled` is these conditions.  A step whose execution raises
a fault never completes.
-/

namespace EpollChat

variable (ac : Achelper)

/-- What the server reacts to. -/
inductive Event
  /-- `accept` returns the descriptor `fd`. -/
  | accept (fd : ℕ) (addr : SockAddr)
  /-- `EPOLLERR`, `EPOLLHUP` or `EPOLLRDHUP` on `fd`. -/
  | hangup (fd : ℕ)
  /-- `EPOLLIN` on `fd`, where `recv` returns 0. -/
  | eof (fd : ℕ)
  /-- `EPOLLIN` on `fd`, where `recv` returns data: the receive loop begins. -/
  | readable (fd : ℕ)
  /-- The receive loop calls the handler on the next request. -/
  | request (req : Request)
  /-- The receive loop ends. -/
  | readDone
  /-- `EPOLLOUT` on `fd`, with what the two calls of `send` return. -/
  | writable (fd : ℕ) (nsent₁ nsent₂ : Option ℕ)
  /-- The clock advances by some seconds. -/
  | tick (seconds : ℕ)
  /-- One pass of `time_thread`'s loop. -/
  | sweep

/-! ## The threads -/

/-- The connection `pick_client(clients, fd, &nclients, false)` selects. -/
def pickConn (s : State) (fd : ℕ) : Option ConnId :=
  (pickClient s fd).bind fun j => s.clients[j]?

/-- `parse_command` on a parsed request, and `im_receive_command` queueing its response. -/
def serve (s : State) (c : ConnId) (req : Request) : State :=
  match runRequest ac s c req with
  | (s, some rsp) => sendResponseToClient ac s c .reply rsp
  | (s, none) => s

/-- The expiry test written out in `network_thread`: `clients[j]->user != NULL &&
clients[j]->user->last_active + db->login_timeout > ct`. -/
def inlineTest (s : State) (c : ConnId) : Option UserId :=
  match (s.conn c).user with
  | none => none
  | some u => if (s.users u).lastActive + s.loginTimeout > s.now then some u else none

/-- The `EPOLLOUT` branch of `network_thread`. -/
def networkWritable (s : State) (c : ConnId) (nsent₁ nsent₂ : Option ℕ) : State :=
  let s := s.lock c
  let s := imSendBuffer s c (.out c) nsent₁
  let s :=
    match inlineTest s c with
    | some u => imSendBuffer s c (.offline u) nsent₂
    | none => s
  s.unlock c

/-- The notice of `time_thread`. -/
def logOffResponse : IMResponse :=
  encodeExitTextToIMResponse ac
    (text ("You haven't issued any command for a while. You are automatically " ++
      "logged off.")) false

/-- One round of `time_thread`'s loop. -/
def sweepClient (s : State) (c : ConnId) : State :=
  if (s.conn c).user ≠ none ∧ ¬ isUserLoggedIn s (s.conn c).user then
    sendResponseToClient ac (logoutUser ac s (s.conn c).user) c .logOff (logOffResponse ac)
  else s

/-- One pass of `time_thread`'s loop. -/
def timeThread (s : State) : State := s.clients.foldl (sweepClient ac) s

/-! ## Steps -/

/-- `send` on a queue returns -1 or at most the number of bytes offered. -/
def sendResult (len : ℕ) : Option ℕ → Prop
  | none => True
  | some n => n ≤ len

instance (len : ℕ) (r : Option ℕ) : Decidable (sendResult len r) :=
  match r with
  | none => .isTrue trivial
  | some n => inferInstanceAs (Decidable (n ≤ len))

/-- The conditions under which an event can happen. -/
def enabled (s : State) : Event → Prop
  | .accept fd _ => s.serving = none ∧ s.sock fd = none
  | .hangup fd => s.serving = none ∧ s.sock fd ≠ none
  | .eof fd => s.serving = none ∧ s.sock fd ≠ none
  | .readable fd => s.serving = none ∧ s.sock fd ≠ none
  | .request _ => s.serving ≠ none
  | .readDone => s.serving ≠ none
  | .writable fd nsent₁ nsent₂ =>
      s.serving = none ∧ s.sock fd ≠ none ∧ s.epoll fd = some true ∧
        ∀ c ∈ pickConn s fd,
          sendResult (s.pending (.out c)).length nsent₁ ∧
            ∀ u ∈ inlineTest s c, sendResult (s.pending (.offline u)).length nsent₂
  | .tick _ => True
  | .sweep => True

instance (s : State) (e : Event) : Decidable (enabled s e) :=
  match e with
  | .accept .. | .hangup _ | .eof _ | .readable _ | .request _ | .readDone | .writable ..
  | .tick _ | .sweep => by
      dsimp only [enabled]
      infer_instance

/-- What handling an event does.  A descriptor without an entry is only logged. -/
def exec (s : State) : Event → State
  | .accept fd addr => acceptClient s fd addr
  | .hangup fd =>
      match pickConn s fd with
      | some c => closeSocket ac s c
      | none => s
  | .eof fd =>
      match pickConn s fd with
      | some c => closeSocket ac s c
      | none => s
  | .readable fd => { s with serving := pickConn s fd }
  | .request req =>
      match s.serving with
      | some c => serve ac s c req
      | none => s
  | .readDone => { s with serving := none }
  | .writable fd nsent₁ nsent₂ =>
      match pickConn s fd with
      | some c => networkWritable s c nsent₁ nsent₂
      | none => s
  | .tick seconds => { s with now := s.now + seconds }
  | .sweep => timeThread ac s

/-- The transition function: an event that is enabled and whose handling raises no fault. -/
def step (s : State) (e : Event) : Option State :=
  if enabled s e ∧ (exec ac s e).fault = none then some (exec ac s e) else none

/-! ## The initial state -/

/-- The state before the credentials are loaded. -/
def State.blank (blockDuration loginTimeout now : ℤ) : State where
  isServer := true
  users := fun _ =>
    { username := [], password := [], lastLoggedIn := -1, lastActive := -1, lastBlocked := -1
      attempts := 0, client := none, blocked := [], buffer := OutBuffer.init }
  nusers := 0
  first := []
  root := .leaf none
  blockDuration := blockDuration
  loginTimeout := loginTimeout
  conn := fun _ => newConn 0 ⟨[], [], [], []⟩
  nconns := 0
  freed := []
  clients := []
  sock := fun _ => none
  epoll := fun _ => none
  fileDb := newTrieFileNode
  globalChunkId := 0
  now := now
  serving := none
  held := []
  fault := none
  log := []

/-- What the server is started with: its two durations, the time, and the names and passwords
`buildUserDb` reads, in file order. -/
structure Setup where
  blockDuration : ℤ
  loginTimeout : ℤ
  now : ℤ
  credentials : List (Bytes × Bytes)

/-- The state in which the threads start. -/
def Setup.init (p : Setup) : State :=
  p.credentials.foldl (fun s nw => (addUser s nw.1 nw.2).1)
    (State.blank p.blockDuration p.loginTimeout p.now)

/-- The runs of the server all of whose steps satisfy a side condition. -/
abbrev ServerRun (p : Setup) (ok : State → Event → Prop) : List Event → State → Prop :=
  Run (step ac) ok p.init

end EpollChat

import EpollChat.Construction.Encoders

/-!
# The programs on bytes

In `Construction/Server.lean` and `Construction/Client.lean` a program is told which messages it
handles.  Here it is told what `recv` returns: every connection has its input buffer, a read puts
bytes into it, and each round of the loop of `im_receive_command` gives everything that waits there
to the handler.  Both programs have this loop, so it is modelled over any `Endpoint`.

Between two rounds another thread may act, as between two messages of the other models.  A step
whose handler raises a fault never completes.

`received` and `handed` are bookkeeping: all bytes that came in on a connection, and the byte
strings that calls of the handler used.
-/

namespace EpollChat

/-- What the receive loop needs of a program, over its states `σ` and events `ε`.  `ι` is what is
answered while a message is handled. -/
structure Endpoint (σ ε ι : Type) where
  step : σ → ε → Option σ
  /-- The events that the receive loop takes itself. -/
  ofRead : ε → Bool
  /-- The read of a descriptor begins. -/
  readable : ℕ → ε
  /-- The read of a descriptor finds the end of the stream. -/
  eof : ℕ → ε
  /-- The read ends. -/
  readDone : ε
  /-- The connection that is being read. -/
  serving : σ → Option ConnId
  /-- The functions that `im_receive_command` calls on a connection. -/
  receiver : ι → ConnId → Receiver σ
  /-- The handler can be called, and this can be answered. -/
  admits : σ → ι → Bool
  /-- No fault has been raised. -/
  sound : σ → Bool

/-- A program and the input buffers of its connections. -/
structure Wired (σ : Type) where
  program : σ
  inbuffer : ConnId → ImBuffer
  received : ConnId → Bytes
  handed : ConnId → List Bytes

/-- What happens to a program on bytes. -/
inductive WiredEvent (ε ι : Type)
  /-- An event that reads nothing. -/
  | other (e : ε)
  /-- `EPOLLIN` on a descriptor, and what `recv` returns. -/
  | recv (fd : ℕ) (nbytes : Recv)
  /-- A round of the loop of `im_receive_command`. -/
  | round (i : ι)

namespace Wired

variable {σ ε ι : Type}

/-- The start of a program.  A connection is made with an empty buffer, which it has here before
it is made. -/
def init (program : σ) : Wired σ where
  program := program
  inbuffer := fun _ => initBuffer msgLimit
  received := fun _ => []
  handed := fun _ => []

/-- `recv` has put bytes behind those that wait on a connection. -/
def store (w : Wired σ) (program : σ) (c : ConnId) (bytes : Bytes) : Wired σ :=
  let b := prepareInbuffer (w.inbuffer c)
  { w with
    program
    inbuffer := Function.update w.inbuffer c
      { b with
        buffer := EpollChat.store b.buffer b.bufferEnd bytes
        bufferEnd := b.bufferEnd + bytes.length }
    received := Function.update w.received c (w.received c ++ bytes) }

/-- `recv` has failed, and its -1 is added to the end offset as a `size_t`. -/
def fail (w : Wired σ) (program : σ) (c : ConnId) : Wired σ :=
  let b := prepareInbuffer (w.inbuffer c)
  { w with
    program
    inbuffer := Function.update w.inbuffer c
      { b with bufferEnd := (b.bufferEnd + (2 ^ 64 - 1)) % 2 ^ 64 } }

/-- The handler has used some of the bytes that wait on a connection. -/
def use (w : Wired σ) (program : σ) (c : ConnId) (parsed : ℕ) : Wired σ :=
  let b := w.inbuffer c
  { w with
    program
    inbuffer := Function.update w.inbuffer c { b with bufferStart := b.bufferStart + parsed }
    handed := Function.update w.handed c (w.handed c ++ [b.pending.take parsed]) }

variable (ep : Endpoint σ ε ι)

/-- `im_receive_command` up to its loop.  A descriptor without an entry is only logged.  Where -1
puts the end of the buffer outside its block, what the loop reads is not defined. -/
def recv (w : Wired σ) (fd : ℕ) : Recv → Option (Wired σ)
  | .closed => (ep.step w.program (ep.eof fd)).map fun program => { w with program }
  | .data bytes => do
      let program ← ep.step w.program (ep.readable fd)
      match ep.serving program with
      | none => some { w with program }
      | some c =>
          if bytes ≠ [] ∧ bytes.length ≤ recvRoom (w.inbuffer c) then some (w.store program c bytes)
          else none
  | .error => do
      let program ← ep.step w.program (ep.readable fd)
      match ep.serving program with
      | none => some { w with program }
      | some c =>
          if ((w.fail program c).inbuffer c).bufferEnd ≤ ((w.fail program c).inbuffer c).bufferCapacity
          then some (w.fail program c)
          else none

/-- A round of the loop of `im_receive_command`: the loop ends where nothing waits, or where the
handler uses nothing. -/
def round (w : Wired σ) (i : ι) : Option (Wired σ) := do
  let c ← ep.serving w.program
  let b := w.inbuffer c
  if b.bufferStart = b.bufferEnd then
    (ep.step w.program ep.readDone).map fun program => { w with program }
  else
    let (program, parsed) := handleOnce (ep.receiver i c) w.program b.pending
    if !ep.admits w.program i || !ep.sound program then none
    else if parsed = 0 then
      (ep.step program ep.readDone).map fun program => { w with program }
    else some (w.use program c parsed)

/-- The transition function. -/
def step (w : Wired σ) : WiredEvent ε ι → Option (Wired σ)
  | .other e =>
      if ep.ofRead e then none else (ep.step w.program e).map fun program => { w with program }
  | .recv fd nbytes => w.recv ep fd nbytes
  | .round i => w.round ep i

end Wired

/-! ## The two programs -/

variable (ac : Achelper)

/-- The server. -/
def serverEndpoint : Endpoint State Event Unit where
  step := EpollChat.step ac
  ofRead
    | .eof _ | .readable _ | .request _ | .readDone => true
    | _ => false
  readable := .readable
  eof := .eof
  readDone := .readDone
  serving s := s.serving
  receiver _ c := serverReceiver ac c
  admits _ _ := true
  sound s := s.fault = none

/-- The client.  What is answered while a response is handled comes with the test whether the
response answers a login. -/
def clientEndpoint : Endpoint Client ClientEvent (Answers × Bool) where
  step := Client.step ac
  ofRead
    | .eof _ | .readable _ | .response .. | .readDone => true
    | _ => false
  readable := .readable
  eof := .eof
  readDone := .readDone
  serving k := k.program.serving
  receiver i c := Client.receiver ac (fun _ _ => i) c
  admits k i :=
    k.exited = false ∧ (∀ fd ∈ i.1.connected, k.program.sock fd = none) ∧
      (i.2 = true → k.program.serving = some serverConn ∧ 0 < Client.unanswered k.logins)
  sound k := k.program.fault = none

end EpollChat

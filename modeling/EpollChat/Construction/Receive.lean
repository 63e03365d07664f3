import EpollChat.Construction.Server
import EpollChat.Framework.Framing

/-!
# The receive loop (`im_receive_command` in `lib/socket.c`, `parse_command`)

`im_receive_command` is shared by the server and the client, which pass it different handlers.
So it is modelled over any state `σ` with the three functions it calls: the handler, the queueing
of a response, and the closing of the connection.  The handler is given everything that waits in
the input buffer and reports how many bytes it used.

`Receiving` is the state of one connection's receiver.  Its `handed` is bookkeeping: the byte
strings that calls of the handler used, in order.
-/

namespace EpollChat

/-! ## The input buffer -/

/-- The first lines of `im_receive_command`: compact, and double the block when the waiting bytes
fill more than half of it. -/
def prepareInbuffer (b : ImBuffer) : ImBuffer :=
  let b := resetBufferStart b
  if b.bufferEnd <<< 1 > b.bufferCapacity then
    { b with bufferCapacity := b.bufferCapacity <<< 1 }
  else b

/-- The room that `recv` is offered. -/
def recvRoom (b : ImBuffer) : ℕ := (prepareInbuffer b).bufferCapacity - (prepareInbuffer b).bufferEnd

/-- The offsets of an input buffer are in order and inside the block. -/
structure ImBuffer.Wf (b : ImBuffer) : Prop where
  start_le_end : b.bufferStart ≤ b.bufferEnd
  end_le_capacity : b.bufferEnd ≤ b.bufferCapacity
  capacity_pos : 0 < b.bufferCapacity

/-- The prepared buffer holds the same bytes, from the front of its block, and has room. -/
lemma prepareInbuffer_spec {b : ImBuffer} (hwf : b.Wf) :
    (prepareInbuffer b).pending = b.pending ∧ (prepareInbuffer b).Wf ∧
      (prepareInbuffer b).bufferEnd < (prepareInbuffer b).bufferCapacity := by
  obtain ⟨hle, hcap, hpos⟩ := hwf
  unfold prepareInbuffer
  dsimp only
  split
  · next hfull =>
      rw [Nat.shiftLeft_eq] at hfull
      refine ⟨pending_resetBufferStart b, ⟨?_, ?_, ?_⟩, ?_⟩ <;>
        simp only [bufferStart_resetBufferStart, bufferEnd_resetBufferStart,
          bufferCapacity_resetBufferStart, Nat.shiftLeft_eq] at hfull ⊢ <;> omega
  · next hroom =>
      rw [Nat.shiftLeft_eq] at hroom
      refine ⟨pending_resetBufferStart b, ⟨?_, ?_, ?_⟩, ?_⟩ <;>
        simp only [bufferStart_resetBufferStart, bufferEnd_resetBufferStart,
          bufferCapacity_resetBufferStart] at hroom ⊢ <;> omega

/-- `recv` is always offered some room. -/
lemma recvRoom_pos {b : ImBuffer} (hwf : b.Wf) : 0 < recvRoom b := by
  have h := (prepareInbuffer_spec hwf).2.2
  unfold recvRoom
  omega

/-! ## `im_receive_command` -/

/-- What `recv` returns: 0, data, or -1. -/
inductive Recv
  | closed
  | data (bytes : Bytes)
  | error

/-- The functions `im_receive_command` calls on a connection. -/
structure Receiver (σ : Type) where
  /-- The handler: the new state, the number of bytes used, and the response. -/
  handler : σ → Bytes → σ × ℕ × Option IMResponse
  /-- `send_response_to_client`. -/
  respond : σ → IMResponse → σ
  /-- `close_socket`. -/
  close : σ → σ

/-- The state of a connection's receiver. -/
structure Receiving (σ : Type) where
  state : σ
  inbuffer : ImBuffer
  handed : List Bytes

section Loop

variable {σ : Type} (rc : Receiver σ)

/-- One call of the handler, with the queueing of its response; the result is the new state and
the number of bytes used. -/
def handleOnce (s : σ) (cmd : Bytes) : σ × ℕ :=
  match rc.handler s cmd with
  | (s, parsed, some rsp) => (rc.respond s rsp, parsed)
  | (s, parsed, none) => (s, parsed)

/-- The loop of `im_receive_command`, with its fuel. -/
def receiveLoop : ℕ → Receiving σ → Receiving σ
  | 0, r => r
  | fuel + 1, r =>
      if r.inbuffer.bufferStart = r.inbuffer.bufferEnd then r
      else
        let (state, parsed) := handleOnce rc r.state r.inbuffer.pending
        if parsed = 0 then { r with state }
        else
          receiveLoop fuel
            { state
              inbuffer := { r.inbuffer with bufferStart := r.inbuffer.bufferStart + parsed }
              handed := r.handed ++ [r.inbuffer.pending.take parsed] }

/-- `im_receive_command`.  The -1 of a failed `recv` is added to the end offset as a `size_t`.
Every round of the loop but the last uses at least one byte. -/
def imReceiveCommand (r : Receiving σ) (nbytes : Recv) : Receiving σ :=
  let b := prepareInbuffer r.inbuffer
  match nbytes with
  | .closed => { r with state := rc.close r.state, inbuffer := b }
  | .data bytes =>
      let b :=
        { b with
          buffer := store b.buffer b.bufferEnd bytes
          bufferEnd := b.bufferEnd + bytes.length }
      receiveLoop rc (b.bufferEnd - b.bufferStart) { r with inbuffer := b }
  | .error =>
      let b := { b with bufferEnd := (b.bufferEnd + (2 ^ 64 - 1)) % 2 ^ 64 }
      receiveLoop rc (b.bufferEnd - b.bufferStart) { r with inbuffer := b }

/-- A read of a stream: `recv` returns some of the bytes, as many as there is room for at
most. -/
def receiveStep (r : Receiving σ) (bytes : Bytes) : Option (Receiving σ) :=
  if bytes ≠ [] ∧ bytes.length ≤ recvRoom r.inbuffer then
    some (imReceiveCommand rc r (.data bytes))
  else none

/-- The receiver of a fresh connection. -/
def Receiving.init (state : σ) : Receiving σ :=
  { state, inbuffer := initBuffer msgLimit, handed := [] }

end Loop

/-! ## Handlers that decode -/

/-- A handler that decodes a message at the front of the waiting bytes and acts on it: the shape
of `parse_command` and of the client's `parse_response`. -/
def decodingHandler {σ M : Type} (dec : Decoder UInt8 M) (act : σ → M → σ × Option IMResponse)
    (s : σ) (cmd : Bytes) : σ × ℕ × Option IMResponse :=
  match dec cmd with
  | none => (s, 0, none)
  | some (msg, ret) =>
      let (s, rsp) := act s msg
      (s, ret, rsp)

variable (ac : Achelper)

/-- The decoder of `parse_command`. -/
def decodeCommand : Decoder UInt8 ProtobufMessage := fun cmd =>
  ac.decodeProtobufMsgWithNFields cmd 2

/-- `parse_command` from the decoded message on. -/
def runMessage (c : ConnId) (s : State) (msg : ProtobufMessage) : State × Option IMResponse :=
  match (parseIMRequestFromProtobufMsg msg).bind (parseRequest ac) with
  | none => (s.raise .nullDereference, none)
  | some req => runRequest ac s c req

/-- `parse_command`. -/
def parseCommand (c : ConnId) (s : State) (cmd : Bytes) : State × ℕ × Option IMResponse :=
  decodingHandler (decodeCommand ac) (runMessage ac c) s cmd

/-- The receiver of a connection of the server. -/
def serverReceiver (c : ConnId) : Receiver State where
  handler := parseCommand ac c
  respond s rsp := sendResponseToClient ac s c .reply rsp
  close s := closeSocket ac s c

end EpollChat

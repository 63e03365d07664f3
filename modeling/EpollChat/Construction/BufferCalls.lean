import EpollChat.Construction.Buffer
import EpollChat.Framework.Fifo

/-!
# The calls on an output buffer

What `send_response`, `send_request` and `im_send_buffer` do to the `im_buffer_t` they are given,
whatever the buffer and whatever `send` returns.  `makeRoom` is the first half of the two appends,
which the code spells out twice.

A call may compact the buffer before it does anything else to it.  `compacts` tells which buffer
it hands to `reset_buffer_start` then.
-/

namespace EpollChat

/-! ## Appends -/

/-- The doubling of the capacity until `len` more bytes fit behind the end offset. -/
def growFor (b : ImBuffer) (len : ℕ) : ImBuffer :=
  if b.bufferEnd + len ≥ b.bufferCapacity then
    { b with
      bufferCapacity := growCapacity (b.bufferEnd + len + 1) (b.bufferEnd + len)
        b.bufferCapacity }
  else b

/-- The buffer that an append of `len` bytes writes to: as it is if they fit, else compacted, and
grown if that is not enough. -/
def makeRoom (b : ImBuffer) (len : ℕ) : ImBuffer :=
  if b.bufferEnd + len ≥ b.bufferCapacity then growFor (resetBufferStart b) len else b

/-- `send_response` stores the bytes behind the end offset of `makeRoom`. -/
lemma sendResponse_eq (b : ImBuffer) (bytes : Bytes) :
    sendResponse b bytes =
      { makeRoom b bytes.length with
        buffer := store (makeRoom b bytes.length).buffer (makeRoom b bytes.length).bufferEnd bytes
        bufferEnd := (makeRoom b bytes.length).bufferEnd + bytes.length } := rfl

/-- The buffer half of `send_request` (`clientlib/command.c`): line by line that of
`send_response`. -/
def ImBuffer.sendRequest (b : ImBuffer) (bytes : Bytes) : ImBuffer := sendResponse b bytes

/-- The loop of `makeRoom`, from a positive capacity. -/
lemma whileLoop_growCapacity {fuel need capacity : ℕ} (hpos : 0 < capacity)
    (hfuel : need < fuel + capacity) :
    WhileLoop (fun capacity => need ≥ capacity) (· <<< 1) capacity
      (growCapacity fuel need capacity) := by
  induction fuel generalizing capacity with
  | zero =>
      rw [growCapacity]
      apply WhileLoop.done
      omega
  | succ fuel ih =>
      rw [growCapacity]
      split
      · next hfull =>
          refine .next hfull ?_
          apply ih <;> rw [Nat.shiftLeft_eq] <;> omega
      · next hroom => exact .done hroom

/-- From a positive capacity the loop ends with room. -/
lemma growFor_room {b : ImBuffer} (hpos : 0 < b.bufferCapacity) (len : ℕ) :
    (growFor b len).bufferEnd + len < (growFor b len).bufferCapacity := by
  unfold growFor
  split
  · apply lt_of_not_ge
    apply (whileLoop_growCapacity hpos _).not_guard
    omega
  · omega

/-- After `makeRoom` `len` more bytes fit. -/
lemma makeRoom_room (b : OutBuffer) (len : ℕ) :
    (makeRoom b.toImBuffer len).bufferEnd + len < (makeRoom b.toImBuffer len).bufferCapacity := by
  unfold makeRoom
  split
  · apply growFor_room
    rw [bufferCapacity_resetBufferStart]
    exact Nat.zero_lt_of_lt b.end_lt_capacity
  · omega

/-! ## `im_send_buffer` -/

/-- The buffer half of `im_send_buffer`, with the `int` that holds the result of `send`.  With
nothing to send, `send` is not called. -/
def ImBuffer.imSendBuffer (b : ImBuffer) (nsent : ℤ) : ImBuffer :=
  let len := b.bufferEnd - b.bufferStart
  if len > 0 then if nsent = -1 then b else advance b nsent.toNat
  else advance b 0

/-- What `send` can return: -1, or how many of the waiting bytes it took, which is less than
`2 ^ 31` in one call on Linux and so fits the `int`. -/
def sendReturns (b : ImBuffer) (nsent : ℤ) : Prop :=
  -1 ≤ nsent ∧ nsent ≤ b.pending.length

instance (b : ImBuffer) (nsent : ℤ) : Decidable (sendReturns b nsent) :=
  inferInstanceAs (Decidable (_ ∧ _))

/-! ## Sequences of calls -/

/-- A call of one of the functions that the program uses on its output buffers. -/
inductive OutputCall
  | sendResponse (bytes : Bytes)
  | sendRequest (bytes : Bytes)
  | imSendBuffer (nsent : ℤ)

/-- What a call does. -/
def outputCall (b : ImBuffer) : OutputCall → Option ImBuffer
  | .sendResponse bytes => some (sendResponse b bytes)
  | .sendRequest bytes => some (b.sendRequest bytes)
  | .imSendBuffer nsent => if sendReturns b nsent then some (b.imSendBuffer nsent) else none

/-- The buffer once `im_send_buffer` has moved its start offset. -/
def advanced (b : ImBuffer) (nsent : ℤ) : ImBuffer :=
  { b with bufferStart := b.bufferStart + nsent.toNat }

/-- The buffer that a call hands to `reset_buffer_start`, if it does. -/
def compacts (b : ImBuffer) : OutputCall → Option ImBuffer
  | .sendResponse bytes | .sendRequest bytes =>
      if b.bufferEnd + bytes.length ≥ b.bufferCapacity then some b else none
  | .imSendBuffer nsent =>
      if b.bufferEnd - b.bufferStart > 0 ∧ nsent = -1 then none
      else if (advanced b nsent).bufferStart <<< 1 ≥ b.bufferCapacity then some (advanced b nsent)
      else none

/-- An append writes behind a compacted buffer exactly if it compacts one. -/
lemma makeRoom_eq_compacts (b : ImBuffer) (bytes : Bytes) :
    makeRoom b bytes.length =
      (compacts b (.sendResponse bytes)).elim b
        fun b' => growFor (resetBufferStart b') bytes.length := by
  unfold makeRoom compacts
  dsimp only
  split <;> rfl

/-- `im_send_buffer` leaves a compacted buffer exactly if it compacts one. -/
lemma imSendBuffer_eq_compacts (b : ImBuffer) {nsent : ℤ} (hsend : sendReturns b nsent) :
    b.imSendBuffer nsent =
      (compacts b (.imSendBuffer nsent)).elim (advanced b nsent) resetBufferStart := by
  obtain ⟨hlow, hhigh⟩ := hsend
  rw [ImBuffer.length_pending] at hhigh
  unfold ImBuffer.imSendBuffer compacts
  dsimp only
  by_cases hlen : b.bufferEnd - b.bufferStart > 0
  · by_cases hfailed : nsent = -1
    · rw [if_pos hlen, if_pos hfailed, if_pos ⟨hlen, hfailed⟩, hfailed]
      rfl
    · rw [if_pos hlen, if_neg hfailed, if_neg fun h => hfailed h.2]
      unfold advance advanced
      dsimp only
      split <;> rfl
  · have hnone : nsent.toNat = 0 := by omega
    rw [if_neg hlen, if_neg fun h => hlen h.1]
    unfold advance advanced
    rw [hnone]
    dsimp only
    split <;> rfl

namespace OutputCall

/-- The bytes that a call appends. -/
def put : OutputCall → Bytes
  | .sendResponse bytes | .sendRequest bytes => bytes
  | .imSendBuffer _ => []

/-- How many bytes a call sends. -/
def taken : OutputCall → ℕ
  | .sendResponse _ | .sendRequest _ => 0
  | .imSendBuffer nsent => nsent.toNat

end OutputCall

/-- `im_send_buffer` is `OutBuffer.consume`. -/
lemma imSendBuffer_eq_consume (b : OutBuffer) {nsent : ℤ} (hsend : sendReturns b.toImBuffer nsent)
    (hok : b.pending = [] ∨ nsent ≠ -1) :
    b.toImBuffer.imSendBuffer nsent = (b.consume nsent.toNat).toImBuffer := by
  obtain ⟨hlow, hhigh⟩ := hsend
  rw [ImBuffer.length_pending] at hhigh
  have hle : nsent.toNat ≤ b.bufferEnd - b.bufferStart := by omega
  rw [OutBuffer.consume, dif_pos hle]
  unfold ImBuffer.imSendBuffer
  dsimp only
  split
  · next hlen =>
      have hne : b.pending ≠ [] := List.ne_nil_of_length_pos (by rwa [ImBuffer.length_pending])
      rw [if_neg (hok.resolve_left hne)]
  · have hnone : nsent.toNat = 0 := by omega
    rw [hnone]

end EpollChat

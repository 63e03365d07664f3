import Mathlib.Algebra.Ring.Nat
import Mathlib.Data.List.Basic
import Mathlib.Tactic.Common

/-!
# Byte buffers (`lib/buffer.c`, and the buffer halves of `lib/socket.c`)

`ImBuffer` is `im_buffer_t`: a heap block with a capacity and the two offsets that delimit the
bytes still in use.  The block is a function from offsets to bytes; the sizes are naturals,
since no object of the program reaches the `size_t` limit.  `memcpy` is taken as a move, which
is what `reset_buffer_start` relies on when its two ranges overlap.

What a buffer means is its `pending` byte queue, the bytes between the two offsets.
`resetBufferStart` leaves it alone, `sendResponse` appends to it, and `advance` drops what
`send` took.  Output buffers keep `start ≤ end < capacity`; `OutBuffer` carries that as a pair
of fields, so the queue laws of its two operations need no side condition.
-/

namespace EpollChat

/-- Byte strings, as the network and the heap hold them. -/
abbrev Bytes := List UInt8

/-- `OUT_BUFFER_DEFAULT_SIZE`, which is the C library's `BUFSIZ`. -/
def outBufferDefaultSize : ℕ := 8192

/-- `MSG_LIMIT`, the initial size of an input buffer. -/
def msgLimit : ℕ := 32768

/-! ## Heap blocks -/

/-- `memcpy` inside one block, as a move: `n` bytes from offset `src` to offset `dst`. -/
def memcpy (block : ℕ → UInt8) (dst src n : ℕ) : ℕ → UInt8 := fun i =>
  if dst ≤ i ∧ i < dst + n then block (src + (i - dst)) else block i

/-- Copy a byte string into a block at an offset. -/
def store (block : ℕ → UInt8) (dst : ℕ) (bytes : Bytes) : ℕ → UInt8 := fun i =>
  if dst ≤ i ∧ i < dst + bytes.length then bytes.getD (i - dst) 0 else block i

/-- The `n` bytes of a block from an offset on. -/
def slice (block : ℕ → UInt8) (start n : ℕ) : Bytes :=
  (List.range n).map fun i => block (start + i)

@[simp] lemma length_slice (block : ℕ → UInt8) (start n : ℕ) :
    (slice block start n).length = n := by
  simp [slice]

@[simp] lemma slice_zero (block : ℕ → UInt8) (start : ℕ) : slice block start 0 = [] := rfl

lemma slice_add (block : ℕ → UInt8) (start m n : ℕ) :
    slice block start (m + n) = slice block start m ++ slice block (start + m) n := by
  simp only [slice, List.range_add, List.map_append, List.map_map]
  congr 2
  funext i
  simp [Nat.add_assoc]

lemma slice_congr {block block' : ℕ → UInt8} {start start' n : ℕ}
    (h : ∀ i < n, block (start + i) = block' (start' + i)) :
    slice block start n = slice block' start' n := by
  refine List.map_congr_left fun i hi => h i ?_
  simpa using hi

lemma slice_store (block : ℕ → UInt8) (dst : ℕ) (bytes : Bytes) :
    slice (store block dst bytes) dst bytes.length = bytes := by
  refine List.ext_getElem (by simp) fun i hi _ => ?_
  have hi' : i < bytes.length := by simpa using hi
  simp [slice, store, hi']

/-- A store past the end of a range leaves the range alone. -/
lemma slice_store_of_le (block : ℕ → UInt8) {start n dst : ℕ} (bytes : Bytes)
    (h : start + n ≤ dst) : slice (store block dst bytes) start n = slice block start n := by
  refine slice_congr fun i hi => ?_
  rw [store, if_neg (by omega)]

/-! ## `im_buffer_t` -/

/-- `im_buffer_t`. -/
structure ImBuffer where
  buffer : ℕ → UInt8
  bufferCapacity : ℕ
  bufferStart : ℕ
  bufferEnd : ℕ

namespace ImBuffer

/-- The bytes between the two offsets: what has been put in and not yet taken out. -/
def pending (b : ImBuffer) : Bytes :=
  slice b.buffer b.bufferStart (b.bufferEnd - b.bufferStart)

@[simp] lemma length_pending (b : ImBuffer) :
    b.pending.length = b.bufferEnd - b.bufferStart := by
  simp [pending]

end ImBuffer

/-- `init_buffer`.  The contents of the fresh block are never read. -/
def initBuffer (size : ℕ) : ImBuffer :=
  { buffer := fun _ => 0, bufferCapacity := size, bufferEnd := 0, bufferStart := 0 }

@[simp] lemma pending_initBuffer (size : ℕ) : (initBuffer size).pending = [] := rfl

/-- `reset_buffer_start`: move the pending bytes to the front of the block. -/
def resetBufferStart (b : ImBuffer) : ImBuffer :=
  if b.bufferStart = 0 then b
  else
    { b with
      buffer := memcpy b.buffer 0 b.bufferStart (b.bufferEnd - b.bufferStart)
      bufferEnd := b.bufferEnd - b.bufferStart
      bufferStart := 0 }

@[simp] lemma bufferStart_resetBufferStart (b : ImBuffer) :
    (resetBufferStart b).bufferStart = 0 := by
  unfold resetBufferStart
  split <;> simp_all

@[simp] lemma bufferEnd_resetBufferStart (b : ImBuffer) :
    (resetBufferStart b).bufferEnd = b.bufferEnd - b.bufferStart := by
  unfold resetBufferStart
  split <;> simp_all

@[simp] lemma bufferCapacity_resetBufferStart (b : ImBuffer) :
    (resetBufferStart b).bufferCapacity = b.bufferCapacity := by
  unfold resetBufferStart
  split <;> rfl

/-- Compaction keeps the byte queue. -/
@[simp] lemma pending_resetBufferStart (b : ImBuffer) :
    (resetBufferStart b).pending = b.pending := by
  unfold resetBufferStart
  split
  · rfl
  · simp only [ImBuffer.pending, Nat.sub_zero]
    refine slice_congr fun i hi => ?_
    simp [memcpy, hi]

/-! ## Growth -/

/-- The doubling loop `while (need >= capacity) capacity <<= 1`, with its fuel. -/
def growCapacity : ℕ → ℕ → ℕ → ℕ
  | 0, _, capacity => capacity
  | fuel + 1, need, capacity =>
      if capacity ≤ need then growCapacity fuel need (capacity <<< 1) else capacity

/-- From a positive capacity the doubling loop ends, with room for `need`, within `need + 1`
rounds. -/
lemma lt_growCapacity {fuel need capacity : ℕ} (hpos : 0 < capacity)
    (hfuel : need < fuel + capacity) : need < growCapacity fuel need capacity := by
  induction fuel generalizing capacity with
  | zero => simpa [growCapacity] using hfuel
  | succ fuel ih =>
      simp only [growCapacity]
      split
      · refine ih ?_ ?_ <;> rw [Nat.shiftLeft_eq] <;> omega
      · omega

/-- The buffer half of `send_response` (`lib/socket.c`): append an encoded response. -/
def sendResponse (b : ImBuffer) (bytes : Bytes) : ImBuffer :=
  let len := bytes.length
  let b :=
    if b.bufferEnd + len ≥ b.bufferCapacity then
      let b := resetBufferStart b
      if b.bufferEnd + len ≥ b.bufferCapacity then
        { b with
          bufferCapacity := growCapacity (b.bufferEnd + len + 1) (b.bufferEnd + len)
            b.bufferCapacity }
      else b
    else b
  { b with
    buffer := store b.buffer b.bufferEnd bytes
    bufferEnd := b.bufferEnd + len }

/-- The buffer half of `im_send_buffer` after `send` reported `nsent` bytes: drop them, and
compact once the dead prefix is half the block. -/
def advance (b : ImBuffer) (nsent : ℕ) : ImBuffer :=
  let b := { b with bufferStart := b.bufferStart + nsent }
  if b.bufferStart <<< 1 ≥ b.bufferCapacity then resetBufferStart b else b

/-- Moving the start offset past some bytes drops them. -/
lemma pending_start_add (b : ImBuffer) {n : ℕ} (h : n ≤ b.bufferEnd - b.bufferStart) :
    ImBuffer.pending { b with bufferStart := b.bufferStart + n } = b.pending.drop n := by
  have hsplit : b.bufferEnd - b.bufferStart = n + (b.bufferEnd - (b.bufferStart + n)) := by omega
  rw [ImBuffer.pending, ImBuffer.pending, hsplit, slice_add, List.drop_left' (by simp)]

/-! ## Output buffers -/

/-- An output buffer: `im_buffer_t` with the offsets in order and room after the last byte. -/
structure OutBuffer extends ImBuffer where
  start_le_end : bufferStart ≤ bufferEnd
  end_lt_capacity : bufferEnd < bufferCapacity

/-- The two ways `send_response` can find room: as is, or after compaction and growth. -/
lemma sendResponse_room (b : OutBuffer) (bytes : Bytes) :
    ∃ b' : ImBuffer, b'.pending = b.pending ∧ b'.bufferStart ≤ b'.bufferEnd ∧
      b'.bufferEnd + bytes.length < b'.bufferCapacity ∧
      sendResponse b.toImBuffer bytes =
        { b' with
          buffer := store b'.buffer b'.bufferEnd bytes
          bufferEnd := b'.bufferEnd + bytes.length } := by
  have hle := b.start_le_end
  have hlt := b.end_lt_capacity
  by_cases h₁ : b.bufferEnd + bytes.length ≥ b.bufferCapacity
  · by_cases h₂ : (resetBufferStart b.toImBuffer).bufferEnd + bytes.length ≥
        (resetBufferStart b.toImBuffer).bufferCapacity
    · let b' := resetBufferStart b.toImBuffer
      refine ⟨{ b' with
        bufferCapacity := growCapacity (b'.bufferEnd + bytes.length + 1)
          (b'.bufferEnd + bytes.length) b'.bufferCapacity }, ?_, ?_, ?_, ?_⟩
      · exact pending_resetBufferStart b.toImBuffer
      · simp [b']
      · refine lt_growCapacity ?_ ?_
        · simp only [b', bufferCapacity_resetBufferStart]
          omega
        · dsimp only
          omega
      · simp only [sendResponse, if_pos h₁, if_pos h₂, b']
    · refine ⟨resetBufferStart b.toImBuffer, by simp, by simp, by omega, ?_⟩
      simp only [sendResponse, if_pos h₁, if_neg h₂]
  · refine ⟨b.toImBuffer, rfl, hle, by omega, ?_⟩
    simp only [sendResponse, if_neg h₁]

lemma pending_store_end (b : ImBuffer) (bytes : Bytes) (h : b.bufferStart ≤ b.bufferEnd) :
    ImBuffer.pending { b with
      buffer := store b.buffer b.bufferEnd bytes
      bufferEnd := b.bufferEnd + bytes.length } = b.pending ++ bytes := by
  have hsplit : b.bufferEnd + bytes.length - b.bufferStart =
      (b.bufferEnd - b.bufferStart) + bytes.length := by omega
  simp only [ImBuffer.pending, hsplit, slice_add]
  rw [slice_store_of_le _ _ (by omega), Nat.add_sub_cancel' h, slice_store]

namespace OutBuffer

/-- A fresh output buffer of `OUT_BUFFER_DEFAULT_SIZE` bytes. -/
def init : OutBuffer where
  toImBuffer := initBuffer outBufferDefaultSize
  start_le_end := Nat.le_refl 0
  end_lt_capacity := by decide

/-- `send_response` on an output buffer. -/
def append (b : OutBuffer) (bytes : Bytes) : OutBuffer where
  toImBuffer := sendResponse b.toImBuffer bytes
  start_le_end := by
    obtain ⟨b', -, hle, -, heq⟩ := sendResponse_room b bytes
    rw [heq]
    exact Nat.le_trans hle (Nat.le_add_right _ _)
  end_lt_capacity := by
    obtain ⟨b', -, -, hlt, heq⟩ := sendResponse_room b bytes
    rw [heq]
    exact hlt

/-- `im_send_buffer`'s bookkeeping on an output buffer.  A count that `send` cannot report
changes nothing. -/
def consume (b : OutBuffer) (nsent : ℕ) : OutBuffer :=
  if h : nsent ≤ b.bufferEnd - b.bufferStart then
    { toImBuffer := advance b.toImBuffer nsent
      start_le_end := by
        have := b.start_le_end
        unfold advance
        dsimp only
        split
        · simp
        · dsimp only
          omega
      end_lt_capacity := by
        have := b.end_lt_capacity
        unfold advance
        dsimp only
        split
        · simp only [bufferEnd_resetBufferStart, bufferCapacity_resetBufferStart]
          omega
        · exact this }
  else b

@[simp] lemma pending_init : init.pending = [] := rfl

/-- Appending puts the bytes at the end of the queue. -/
@[simp] lemma pending_append (b : OutBuffer) (bytes : Bytes) :
    (b.append bytes).pending = b.pending ++ bytes := by
  obtain ⟨b', hp, hle, -, heq⟩ := sendResponse_room b bytes
  show (sendResponse b.toImBuffer bytes).pending = _
  rw [heq, pending_store_end b' bytes hle, hp]

/-- Consuming takes bytes off the front of the queue. -/
lemma pending_consume (b : OutBuffer) {nsent : ℕ} (h : nsent ≤ b.pending.length) :
    (b.consume nsent).pending = b.pending.drop nsent := by
  have hle : nsent ≤ b.bufferEnd - b.bufferStart := by simpa using h
  have hadv : (advance b.toImBuffer nsent).pending =
      ImBuffer.pending { b.toImBuffer with bufferStart := b.bufferStart + nsent } := by
    unfold advance
    dsimp only
    split
    · exact pending_resetBufferStart _
    · rfl
  rw [consume, dif_pos hle, hadv, pending_start_add _ hle]

end OutBuffer

end EpollChat

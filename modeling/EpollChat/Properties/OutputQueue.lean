import EpollChat.Construction.BufferCalls

/-!
# Output buffers are byte queues

Three functions use an output buffer, with two different tests for when to compact it.  Whatever
the order of their calls, the frames and the results of `send`, the bytes between the two offsets
are those that were appended and not yet sent (`byteQueue_of_run`).

The invariant is that of `OutBuffer`, and every call keeps it (`bufferCall_spec`).
-/

namespace EpollChat

/-- A call on an output buffer, or `reset_buffer_start` by itself. -/
inductive BufferCall
  | output (call : OutputCall)
  | resetBufferStart

/-- What a call does. -/
def bufferCall (b : ImBuffer) : BufferCall → Option ImBuffer
  | .output call => outputCall b call
  | .resetBufferStart => some (resetBufferStart b)

namespace BufferCall

/-- The bytes that a call appends. -/
def put : BufferCall → Bytes
  | .output call => call.put
  | .resetBufferStart => []

/-- How many bytes a call sends. -/
def taken : BufferCall → ℕ
  | .output call => call.taken
  | .resetBufferStart => 0

end BufferCall

/-- All the bytes that the calls append. -/
def appended (calls : List BufferCall) : Bytes := calls.flatMap BufferCall.put

/-- How many bytes the calls send. -/
def takenBytes (calls : List BufferCall) : ℕ := (calls.map BufferCall.taken).sum

/-- **The buffer is a byte queue** after the calls. -/
structure ByteQueue (calls : List BufferCall) (b : ImBuffer) : Prop where
  sent_le : takenBytes calls ≤ (appended calls).length
  /-- What waits is what was appended and not sent, in order. -/
  pending : b.pending = (appended calls).drop (takenBytes calls)
  start_le_end : b.bufferStart ≤ b.bufferEnd
  end_lt_capacity : b.bufferEnd < b.bufferCapacity
  /-- The next append stores its bytes below the capacity, however many there are
  (`sendResponse_eq`). -/
  append_below : ∀ len, (makeRoom b len).bufferEnd + len < (makeRoom b len).bufferCapacity
  /-- The doubling loop of that append ends. -/
  doubling_ends : ∀ len, WhileLoop
    (fun capacity => (resetBufferStart b).bufferEnd + len ≥ capacity) (· <<< 1) b.bufferCapacity
    (growCapacity ((resetBufferStart b).bufferEnd + len + 1) ((resetBufferStart b).bufferEnd + len)
      b.bufferCapacity)
  /-- A failed `send` changes nothing. -/
  failed : b.pending ≠ [] → b.imSendBuffer (-1) = b

/-! ## One call -/

/-- A failed `send` changes nothing. -/
lemma imSendBuffer_failed {b : ImBuffer} (hwaiting : b.pending ≠ []) :
    b.imSendBuffer (-1) = b := by
  have hlen := List.length_pos_of_ne_nil hwaiting
  rw [ImBuffer.length_pending] at hlen
  unfold ImBuffer.imSendBuffer
  dsimp only
  rw [if_pos hlen, if_pos rfl]

/-- A call keeps the offsets in order, with room behind them, and is the matching operation on
the queue. -/
lemma outputCall_spec (b : OutBuffer) {call : OutputCall} {b' : ImBuffer}
    (completes : outputCall b.toImBuffer call = some b') :
    ∃ ob : OutBuffer, ob.toImBuffer = b' ∧ call.taken ≤ (b.pending ++ call.put).length ∧
      ob.pending = (b.pending ++ call.put).drop call.taken := by
  cases call with
  | sendResponse bytes | sendRequest bytes =>
      obtain rfl := Option.some.inj completes
      exact ⟨b.append bytes, rfl, Nat.zero_le _, OutBuffer.pending_append b bytes⟩
  | imSendBuffer nsent =>
      obtain ⟨hsend, hb'⟩ := Option.ite_none_right_eq_some.mp completes
      obtain rfl := Option.some.inj hb'
      have hle : nsent.toNat ≤ b.pending.length := by
        have hhigh := hsend.2
        omega
      simp only [OutputCall.put, OutputCall.taken, List.append_nil]
      by_cases hfailed : b.pending ≠ [] ∧ nsent = -1
      · obtain ⟨hwaiting, rfl⟩ := hfailed
        exact ⟨b, (imSendBuffer_failed hwaiting).symm, Nat.zero_le _, rfl⟩
      · have hok : b.pending = [] ∨ nsent ≠ -1 := by
          rwa [not_and_or, not_not] at hfailed
        exact ⟨b.consume nsent.toNat, (imSendBuffer_eq_consume b hsend hok).symm, hle,
          OutBuffer.pending_consume b hle⟩

/-- The same with `reset_buffer_start` by itself. -/
lemma bufferCall_spec (b : OutBuffer) {call : BufferCall} {b' : ImBuffer}
    (completes : bufferCall b.toImBuffer call = some b') :
    ∃ ob : OutBuffer, ob.toImBuffer = b' ∧ call.taken ≤ (b.pending ++ call.put).length ∧
      ob.pending = (b.pending ++ call.put).drop call.taken := by
  cases call with
  | output call => exact outputCall_spec b completes
  | resetBufferStart =>
      obtain rfl := Option.some.inj completes
      have hlt := b.end_lt_capacity
      refine ⟨⟨resetBufferStart b.toImBuffer, ?_, ?_⟩, rfl, Nat.zero_le _, ?_⟩
      · rw [bufferStart_resetBufferStart]
        exact Nat.zero_le _
      · rw [bufferEnd_resetBufferStart, bufferCapacity_resetBufferStart]
        omega
      · simp only [BufferCall.put, BufferCall.taken, List.append_nil, List.drop_zero]
        exact pending_resetBufferStart _

/-! ## All calls -/

/-- A buffer stays an output buffer under every step function that keeps it one. -/
lemma outBuffer_of_run {ε : Type*} {step : ImBuffer → ε → Option ImBuffer}
    {ok : ImBuffer → ε → Prop}
    (hstep : ∀ (b : OutBuffer) {call : ε} {b' : ImBuffer}, step b.toImBuffer call = some b' →
      ∃ ob : OutBuffer, ob.toImBuffer = b')
    {size : ℕ} (hsize : 1 ≤ size) {calls : List ε} {b : ImBuffer}
    (run : Run step ok (initBuffer size) calls b) : ∃ ob : OutBuffer, ob.toImBuffer = b := by
  apply run.invariant (P := fun b => ∃ ob : OutBuffer, ob.toImBuffer = b)
  · exact ⟨⟨initBuffer size, Nat.le_refl 0, hsize⟩, rfl⟩
  · rintro _ call b' ⟨ob, rfl⟩ - completes
    exact hstep ob completes

/-- **Output buffers are byte queues.** So is every buffer that `init_buffer` made, after any
calls with any frames and any results of `send`. -/
theorem byteQueue_of_run {size : ℕ} (hsize : 1 ≤ size) {calls : List BufferCall} {b : ImBuffer}
    (run : Run bufferCall Always (initBuffer size) calls b) : ByteQueue calls b := by
  have houtput {calls : List BufferCall} {b : ImBuffer}
      (run : Run bufferCall Always (initBuffer size) calls b) : ∃ ob : OutBuffer, ob.toImBuffer = b :=
    outBuffer_of_run (fun b _ _ completes => (bufferCall_spec b completes).imp fun _ h => h.1)
      hsize run
  have hfifo := run.fifo ImBuffer.pending BufferCall.put BufferCall.taken rfl houtput
    fun ⟨ob, hob⟩ completes => by
      subst hob
      obtain ⟨ob', rfl, hle, hpending⟩ := bufferCall_spec ob completes
      exact ⟨hle, hpending⟩
  obtain ⟨ob, rfl⟩ := houtput run
  refine ⟨hfifo.1, hfifo.2, ob.start_le_end, ob.end_lt_capacity, makeRoom_room ob, ?_,
    imSendBuffer_failed⟩
  intro len
  apply whileLoop_growCapacity
  · exact Nat.zero_lt_of_lt ob.end_lt_capacity
  · omega

/-- A buffer of one byte that doubles twice, sends a part, fails once, doubles again, and is
compacted. -/
theorem byteQueue_oneByte : ∃ b, ByteQueue
    [.output (.sendResponse [1, 2, 3]), .output (.imSendBuffer 1), .output (.imSendBuffer (-1)),
      .output (.sendRequest [4, 5, 6, 7]), .resetBufferStart, .output (.imSendBuffer 6)] b := by
  obtain ⟨b, run, -⟩ := Run.exists_of_execute bufferCall Always (initBuffer 1)
    [.output (.sendResponse [1, 2, 3]), .output (.imSendBuffer 1), .output (.imSendBuffer (-1)),
      .output (.sendRequest [4, 5, 6, 7]), .resetBufferStart, .output (.imSendBuffer 6)]
    (fun b => b.pending = []) (by decide +kernel)
  exact ⟨b, byteQueue_of_run (Nat.le_refl 1) run⟩

end EpollChat

import EpollChat.Properties.OutputQueue
import EpollChat.Properties.ReceiveErrors
import Mathlib.Order.Interval.Finset.Nat

/-!
# Compaction

`reset_buffer_start` moves the waiting bytes to the front of the block with `memcpy`, which must
not be given overlapping ranges.  They are apart if nothing is moved or if at least half of what
is behind the end offset is dead (`copiesApart_iff`).  `im_send_buffer` tests for that, in effect;
the appends and `im_receive_command` do not.  So the ranges overlap as soon as the handler uses a
short request in front of a longer unfinished one and the connection is read again, or an append
finds no room behind a long backlog of which a little has been sent (`compaction_apart_iff`).
-/

namespace EpollChat

/-- **The copy is between ranges that are apart**, if there is one: with the start offset at 0
`reset_buffer_start` returns at once. -/
def CopiesApart (b : ImBuffer) : Prop :=
  b.bufferStart ≠ 0 →
    Disjoint (Finset.Ico b.bufferStart b.bufferEnd) (Finset.Ico 0 (b.bufferEnd - b.bufferStart))

lemma copiesApart_iff {b : ImBuffer} (hle : b.bufferStart ≤ b.bufferEnd) :
    CopiesApart b ↔ b.bufferStart = 0 ∨ b.pending.length ≤ b.bufferStart := by
  rw [ImBuffer.length_pending]
  constructor
  · intro hapart
    by_contra hoverlap
    obtain ⟨hstart, hlong⟩ := not_or.mp hoverlap
    -- the first byte that is read is written too
    have hsource : b.bufferStart ∈ Finset.Ico b.bufferStart b.bufferEnd :=
      Finset.mem_Ico.mpr ⟨le_rfl, by omega⟩
    have htarget : b.bufferStart ∈ Finset.Ico 0 (b.bufferEnd - b.bufferStart) :=
      Finset.mem_Ico.mpr ⟨Nat.zero_le _, Nat.lt_of_not_le hlong⟩
    exact Finset.disjoint_left.mp (hapart hstart) hsource htarget
  · intro hshort hstart
    rw [Finset.disjoint_left]
    intro i hsource htarget
    rw [Finset.mem_Ico] at hsource htarget
    omega

/-! ## Input buffers -/

section Receivers

variable {σ : Type} (rc : Receiver σ)

/-- How many of the waiting bytes the handler uses in a call of `im_receive_command`. -/
def usedOf : ℕ → σ → Bytes → ℕ
  | 0, _, _ => 0
  | fuel + 1, s, cmd =>
      if cmd = [] then 0
      else
        let (s, parsed) := handleOnce rc s cmd
        if parsed = 0 then 0 else parsed + usedOf fuel s (cmd.drop parsed)

/-- The bytes that wait in a call once `recv` has returned. -/
def waitingIn (r : Receiving σ) : Recv → Bytes
  | .closed => []
  | .data bytes => r.inbuffer.pending ++ bytes
  | .error => slice (prepareInbuffer r.inbuffer).buffer 0 (failedEnd r.inbuffer)

/-- Of the bytes that wait the handler uses none, or at least half. -/
def UsesHalf (s : σ) (cmd : Bytes) : Prop :=
  usedOf rc cmd.length s cmd = 0 ∨ cmd.length ≤ 2 * usedOf rc cmd.length s cmd

instance (s : σ) (cmd : Bytes) : Decidable (UsesHalf rc s cmd) :=
  inferInstanceAs (Decidable (_ ∨ _))

variable {rc}

/-- In the loop the start offset goes up by what the handler uses. -/
lemma start_receiveLoop (hused : ∀ s cmd, (rc.handler s cmd).2.1 ≤ cmd.length) {fuel : ℕ}
    {r : Receiving σ} (hle : r.inbuffer.bufferStart ≤ r.inbuffer.bufferEnd) :
    (receiveLoop rc fuel r).inbuffer.bufferEnd = r.inbuffer.bufferEnd ∧
      (receiveLoop rc fuel r).inbuffer.bufferStart ≤ r.inbuffer.bufferEnd ∧
      (receiveLoop rc fuel r).inbuffer.bufferStart =
        r.inbuffer.bufferStart + usedOf rc fuel r.state r.inbuffer.pending := by
  induction fuel generalizing r with
  | zero => exact ⟨rfl, hle, rfl⟩
  | succ fuel ih =>
      have hempty : r.inbuffer.pending = [] ↔ r.inbuffer.bufferStart = r.inbuffer.bufferEnd := by
        rw [← List.length_eq_zero_iff, ImBuffer.length_pending]
        omega
      rw [receiveLoop, usedOf, if_congr hempty rfl rfl]
      split
      · exact ⟨rfl, hle, rfl⟩
      have hparsed := used_handleOnce rc hused r.state r.inbuffer.pending
      rw [ImBuffer.length_pending] at hparsed
      dsimp only
      split
      · exact ⟨rfl, hle, rfl⟩
      · rw [← pending_start_add r.inbuffer hparsed, ← Nat.add_assoc]
        apply ih
        dsimp only
        omega

/-- After a loop from the front of the block the next copy is between ranges that are apart exactly
if half was used. -/
lemma copiesApart_receiveLoop (hused : ∀ s cmd, (rc.handler s cmd).2.1 ≤ cmd.length)
    (r : Receiving σ) {b : ImBuffer} (hstart : b.bufferStart = 0) :
    CopiesApart (receiveLoop rc b.bufferEnd { r with inbuffer := b }).inbuffer ↔
      UsesHalf rc r.state b.pending := by
  have hlen : b.pending.length = b.bufferEnd := by
    rw [ImBuffer.length_pending, hstart, Nat.sub_zero]
  obtain ⟨hend, hle, hused'⟩ := @start_receiveLoop σ rc hused b.bufferEnd { r with inbuffer := b }
    (by rw [hstart]; exact Nat.zero_le _)
  rw [copiesApart_iff (by rwa [hend]), ImBuffer.length_pending, hend, hused', hstart,
    Nat.zero_add, UsesHalf, hlen]
  apply or_congr_right
  dsimp only
  omega

/-- The next call copies between ranges that are apart exactly if this one uses half. -/
lemma copiesApart_imReceiveCommand (hused : ∀ s cmd, (rc.handler s cmd).2.1 ≤ cmd.length)
    (r : Receiving σ) (nbytes : Recv) :
    CopiesApart (imReceiveCommand rc r nbytes).inbuffer ↔
      UsesHalf rc r.state (waitingIn r nbytes) := by
  have hstart := bufferStart_prepareInbuffer r.inbuffer
  cases nbytes with
  | closed => exact iff_of_true (fun h => absurd hstart h) (.inl rfl)
  | data bytes =>
      rw [imReceiveCommand_data_eq,
        copiesApart_receiveLoop hused r (bufferStart_receivedInto r.inbuffer bytes),
        pending_receivedInto, waitingIn]
  | error =>
      have hwaiting : ImBuffer.pending
          { prepareInbuffer r.inbuffer with bufferEnd := failedEnd r.inbuffer } =
          waitingIn r .error := by
        rw [ImBuffer.pending, hstart, Nat.sub_zero, waitingIn]
      rw [imReceiveCommand_error_eq, ← hwaiting]
      exact copiesApart_receiveLoop hused r
        (b := { prepareInbuffer r.inbuffer with bufferEnd := failedEnd r.inbuffer }) hstart

end Receivers

/-! ## Output buffers -/

/-- An append finds room, or nothing has been sent since the buffer was last compacted, or at least
as much as still waits. -/
def FitsOrHalf (b : ImBuffer) : OutputCall → Prop
  | .sendResponse bytes | .sendRequest bytes =>
      b.bufferEnd + bytes.length < b.bufferCapacity ∨ b.bufferStart = 0 ∨
        b.pending.length ≤ b.bufferStart
  | .imSendBuffer _ => True

instance (b : ImBuffer) (call : OutputCall) : Decidable (FitsOrHalf b call) :=
  match call with
  | .sendResponse bytes | .sendRequest bytes =>
      inferInstanceAs (Decidable (b.bufferEnd + bytes.length < b.bufferCapacity ∨
        b.bufferStart = 0 ∨ b.pending.length ≤ b.bufferStart))
  | .imSendBuffer _ => .isTrue trivial

/-- The call hands no buffer to `reset_buffer_start` whose ranges overlap. -/
def CallApart (b : ImBuffer) (call : OutputCall) : Prop :=
  ∀ b' ∈ compacts b call, CopiesApart b'

/-- An append tests for room only. -/
lemma callApart_append {b : OutBuffer} {call : OutputCall} {bytes : Bytes}
    (hcall : compacts b.toImBuffer call =
      if b.bufferEnd + bytes.length ≥ b.bufferCapacity then some b.toImBuffer else none) :
    CallApart b.toImBuffer call ↔
      b.bufferEnd + bytes.length < b.bufferCapacity ∨ b.bufferStart = 0 ∨
        b.pending.length ≤ b.bufferStart := by
  unfold CallApart
  rw [hcall]
  by_cases hfull : b.bufferEnd + bytes.length ≥ b.bufferCapacity
  · rw [if_pos hfull, or_iff_right (Nat.not_lt.mpr hfull), ← copiesApart_iff b.start_le_end]
    simp only [Option.mem_def, Option.some.injEq, forall_eq']
  · rw [if_neg hfull]
    exact iff_of_true nofun (.inl (Nat.lt_of_not_ge hfull))

/-- `im_send_buffer` compacts only if at least half of the block is dead. -/
lemma callApart_imSendBuffer (b : OutBuffer) {nsent : ℤ} (hsend : sendReturns b.toImBuffer nsent) :
    CallApart b.toImBuffer (.imSendBuffer nsent) := by
  intro b' hb'
  obtain ⟨-, hcompacts⟩ := Option.ite_none_left_eq_some.mp hb'
  obtain ⟨hhalf, heq⟩ := Option.ite_none_right_eq_some.mp hcompacts
  obtain rfl := Option.some.inj heq
  have hhigh := hsend.2
  have hle := b.start_le_end
  have hlt := b.end_lt_capacity
  rw [ImBuffer.length_pending] at hhigh
  rw [Nat.shiftLeft_eq] at hhalf
  have hmoved : (advanced b.toImBuffer nsent).bufferStart = b.bufferStart + nsent.toNat := rfl
  have hend : (advanced b.toImBuffer nsent).bufferEnd = b.bufferEnd := rfl
  rw [copiesApart_iff, ImBuffer.length_pending]
  · omega
  · omega

/-- A call hands on no overlapping ranges exactly if it is not an append that needs room at the
wrong time. -/
lemma callApart_iff (b : OutBuffer) {call : OutputCall} {b' : ImBuffer}
    (completes : outputCall b.toImBuffer call = some b') :
    CallApart b.toImBuffer call ↔ FitsOrHalf b.toImBuffer call := by
  cases call with
  | sendResponse bytes => exact callApart_append rfl
  | sendRequest bytes => exact callApart_append rfl
  | imSendBuffer nsent =>
      obtain ⟨hsend, -⟩ := Option.ite_none_right_eq_some.mp completes
      exact iff_of_true (callApart_imSendBuffer b hsend) trivial

/-! ## All calls -/

/-- **Compaction.** In every state of a run of a receiver the copy that a call would begin with is
between ranges that are apart exactly if in every call the handler uses none or at least half of
what waits.  The copies of a run of calls on an output buffer are so exactly if no append needs
room while a long backlog lies behind a short dead start. -/
theorem compaction_apart_iff {σ : Type} {rc : Receiver σ}
    (hused : ∀ s cmd, (rc.handler s cmd).2.1 ≤ cmd.length) {s : σ} {nbs : List Recv}
    {r : Receiving σ} (received : Run (receiveAny rc) Always (Receiving.init s) nbs r)
    {size : ℕ} (hsize : 1 ≤ size) {calls : List OutputCall} {b : ImBuffer}
    (called : Run outputCall Always (initBuffer size) calls b) :
    (Throughout (receiveAny rc) (Receiving.init s) (fun r => CopiesApart r.inbuffer) nbs r ↔
        Run (receiveAny rc) (fun r nb => UsesHalf rc r.state (waitingIn r nb)) (Receiving.init s)
          nbs r) ∧
      (Run outputCall CallApart (initBuffer size) calls b ↔
        Run outputCall FitsOrHalf (initBuffer size) calls b) := by
  constructor
  · refine received.throughout_iff (Q := fun _ => True) ?_ (fun _ => trivial) ?_
    · exact fun hstart => absurd rfl hstart
    · rintro r nbytes r' - - completes
      rw [← eq_of_receiveAny completes]
      exact copiesApart_imReceiveCommand hused r nbytes
  · refine called.iff_of (Q := fun b => ∃ ob : OutBuffer, ob.toImBuffer = b) ?_ ?_
    · exact outBuffer_of_run
        (fun b _ _ completes => (outputCall_spec b completes).imp fun _ h => h.1) hsize
    · rintro _ call b' ⟨ob, rfl⟩ completes
      exact callApart_iff ob completes

/-- A login with a wrong password, and in the same read the first bytes of the next one. -/
def retry : List Recv :=
  [.data (loginFrame "hans" "f" ++ (loginFrame "hans" "falcon").take 5),
    .data ((loginFrame "hans" "falcon").drop 5)]

/-- A long reply is sent in two pieces.  The buffer is compacted after the first piece, and again
when part of the next reply has been sent and there is no room for a third one. -/
def longReplies : List OutputCall :=
  [.sendResponse (List.replicate 6000 0), .imSendBuffer 5000,
    .sendResponse (List.replicate 5000 0), .imSendBuffer 3500,
    .sendResponse (List.replicate 2200 0)]

/-- Bytes are moved by the second read, and by the first send and the last append, which need not
grow the buffer. -/
theorem compaction_apart_iff_login :
    ∃ r₁ r b, Run (receiveAny (serverReceiver protobufWire 0)) Always
        (Receiving.init (acceptClient demo.init 5 demoAddr)) (retry.take 1) r₁ ∧
      0 < r₁.inbuffer.pending.length ∧
      r₁.inbuffer.pending.length ≤ r₁.inbuffer.bufferStart ∧
      Throughout (receiveAny (serverReceiver protobufWire 0))
        (Receiving.init (acceptClient demo.init 5 demoAddr)) (fun r => CopiesApart r.inbuffer)
        retry r ∧
      Run outputCall CallApart (initBuffer outBufferDefaultSize) longReplies b ∧
      b.bufferCapacity = outBufferDefaultSize := by
  obtain ⟨r₁, first, hpending, hstart⟩ := Run.exists_of_execute
    (receiveAny (serverReceiver protobufWire 0)) Always
    (Receiving.init (acceptClient demo.init 5 demoAddr)) (retry.take 1)
    (fun r => 0 < r.inbuffer.pending.length ∧
      r.inbuffer.pending.length ≤ r.inbuffer.bufferStart) (by decide +kernel)
  obtain ⟨r, received, -⟩ := Run.exists_of_execute (receiveAny (serverReceiver protobufWire 0))
    (fun r nb => UsesHalf (serverReceiver protobufWire 0) r.state (waitingIn r nb))
    (Receiving.init (acceptClient demo.init 5 demoAddr)) retry (fun _ => True) (by decide +kernel)
  obtain ⟨b, called, hcapacity⟩ := Run.exists_of_execute outputCall FitsOrHalf
    (initBuffer outBufferDefaultSize) longReplies
    (fun b => b.bufferCapacity = outBufferDefaultSize) (by decide +kernel)
  obtain ⟨hinput, houtput⟩ := compaction_apart_iff
    (used_decodingHandler used_protobufWire rfl) received.always (Nat.succ_pos _) called.always
  exact ⟨r₁, r, b, first, hpending, hstart, hinput.mpr received, houtput.mpr called, hcapacity⟩

/-- A login and the first part of a longer one come in one read.  The login is used, and what the
next call moves to the front of the block overlaps with where it goes. -/
theorem compaction_overlaps :
    ∃ r, Run (receiveAny (serverReceiver protobufWire 0)) Always
        (Receiving.init (acceptClient demo.init 5 demoAddr))
        [.data (loginFrame "hans" "falcon" ++ (loginFrame "obi-wan kenobi" "lightsaber").take 30)]
        r ∧
      ¬ CopiesApart r.inbuffer := by
  obtain ⟨r, run, hstart, hle, hlong⟩ := Run.exists_of_execute
    (receiveAny (serverReceiver protobufWire 0)) Always
    (Receiving.init (acceptClient demo.init 5 demoAddr))
    [.data (loginFrame "hans" "falcon" ++ (loginFrame "obi-wan kenobi" "lightsaber").take 30)]
    (fun r => r.inbuffer.bufferStart ≠ 0 ∧ r.inbuffer.bufferStart ≤ r.inbuffer.bufferEnd ∧
      r.inbuffer.bufferStart < r.inbuffer.pending.length)
    (by decide +kernel)
  refine ⟨r, run, fun hapart => ?_⟩
  rcases (copiesApart_iff hle).mp hapart with hnone | hshort
  · exact hstart hnone
  · exact absurd hlong (Nat.not_lt.mpr hshort)

end EpollChat

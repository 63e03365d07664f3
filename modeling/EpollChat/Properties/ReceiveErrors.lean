import EpollChat.Construction.Demo

/-!
# Receive errors

`im_receive_command` keeps the result of `recv` in a `size_t` and tests it for 0 only.  The -1 of
a failed `recv`, a spurious wake-up of the nonblocking socket for one, is added to the end offset
as it is, so the end offset goes down by one.  With one byte in the buffer that byte is lost, with
more the last one is lost and the handler runs on the others, and with none the end offset wraps
to the largest `size_t` and the handler is handed the whole address space.

`Intact` is what a call should do.  A call meets it exactly when its `recv` did not fail
(`intact_iff`), and so the calls of a run do exactly when none of theirs did
(`receive_intact_iff`).
-/

namespace EpollChat

section Receivers

variable {σ M : Type} (rc : Receiver σ)

/-! ## Calls -/

/-- What `recv` can return: the end of the stream, some bytes but no more than there is room for,
or -1. -/
def recvReturns (b : ImBuffer) : Recv → Prop
  | .closed => True
  | .data bytes => bytes ≠ [] ∧ bytes.length ≤ recvRoom b
  | .error => True

instance (b : ImBuffer) (nbytes : Recv) : Decidable (recvReturns b nbytes) :=
  match nbytes with
  | .closed => .isTrue trivial
  | .data bytes => inferInstanceAs (Decidable (bytes ≠ [] ∧ bytes.length ≤ recvRoom b))
  | .error => .isTrue trivial

/-- A call of `im_receive_command`, whatever `recv` returns. -/
def receiveAny (r : Receiving σ) (nbytes : Recv) : Option (Receiving σ) :=
  if recvReturns r.inbuffer nbytes then some (imReceiveCommand rc r nbytes) else none

/-- The receiver that also counts the calls of its handler. -/
def Receiver.counting : Receiver (σ × ℕ) where
  handler s cmd :=
    let (t, parsed, rsp) := rc.handler s.1 cmd
    ((t, s.2 + 1), parsed, rsp)
  respond s rsp := (rc.respond s.1 rsp, s.2)
  close s := (rc.close s.1, s.2)

/-- How often a call of `im_receive_command` calls the handler. -/
def handlerCalls (r : Receiving σ) (nbytes : Recv) : ℕ :=
  (imReceiveCommand rc.counting
    { state := (r.state, 0), inbuffer := r.inbuffer, handed := r.handed } nbytes).state.2

/-- **The input buffer is intact** after a call: the offsets are in order, and if `recv` failed
then no handler was called and the bytes that wait are the ones that waited before. -/
structure Intact (r : Receiving σ) (nbytes : Recv) : Prop where
  wf : (imReceiveCommand rc r nbytes).inbuffer.Wf
  error : nbytes = .error → handlerCalls rc r nbytes = 0 ∧
    (imReceiveCommand rc r nbytes).inbuffer.pending = r.inbuffer.pending

/-! ## The loop -/

/-- One call of the handler uses no more than it is given. -/
lemma used_handleOnce (hused : ∀ s cmd, (rc.handler s cmd).2.1 ≤ cmd.length) (s : σ)
    (cmd : Bytes) : (handleOnce rc s cmd).2 ≤ cmd.length := by
  have h := hused s cmd
  unfold handleOnce
  split <;> simp_all

/-- The loop keeps the offsets in order if the handler uses no more than it is given. -/
lemma wf_receiveLoop (hused : ∀ s cmd, (rc.handler s cmd).2.1 ≤ cmd.length) {fuel : ℕ}
    {r : Receiving σ} (hwf : r.inbuffer.Wf) : (receiveLoop rc fuel r).inbuffer.Wf := by
  induction fuel generalizing r with
  | zero => exact hwf
  | succ fuel ih =>
      rw [receiveLoop]
      split
      · exact hwf
      have hparsed := used_handleOnce rc hused r.state r.inbuffer.pending
      dsimp only
      split
      · exact hwf
      · rw [ImBuffer.length_pending] at hparsed
        have hle := hwf.start_le_end
        refine ih ⟨?_, hwf.end_le_capacity, hwf.capacity_pos⟩
        dsimp only
        omega

/-- Counting counts the calls. -/
lemma handleOnce_counting (s : σ) (n : ℕ) (cmd : Bytes) :
    handleOnce rc.counting (s, n) cmd =
      (((handleOnce rc s cmd).1, n + 1), (handleOnce rc s cmd).2) := by
  unfold handleOnce
  rcases h : rc.handler s cmd with ⟨t, parsed, rsp⟩
  cases rsp with
  | none => simp [Receiver.counting, h]
  | some rsp => simp [Receiver.counting, h]

lemma le_calls_receiveLoop (fuel : ℕ) (r : Receiving (σ × ℕ)) :
    r.state.2 ≤ (receiveLoop rc.counting fuel r).state.2 := by
  induction fuel generalizing r with
  | zero => exact le_rfl
  | succ fuel ih =>
      obtain ⟨⟨s, n⟩, b, handed⟩ := r
      rw [receiveLoop]
      split
      · exact le_rfl
      rw [handleOnce_counting]
      dsimp only
      split
      · exact Nat.le_succ n
      · refine (Nat.le_succ n).trans ?_
        exact ih { state := (_, n + 1), inbuffer := _, handed := _ }

/-- Where the offsets differ the handler is called. -/
lemma calls_receiveLoop_pos {fuel : ℕ} {r : Receiving (σ × ℕ)} (hfuel : 0 < fuel)
    (hne : r.inbuffer.bufferStart ≠ r.inbuffer.bufferEnd) :
    0 < (receiveLoop rc.counting fuel r).state.2 := by
  obtain ⟨fuel, rfl⟩ := Nat.exists_eq_succ_of_ne_zero hfuel.ne'
  obtain ⟨⟨s, n⟩, b, handed⟩ := r
  rw [receiveLoop, if_neg hne, handleOnce_counting]
  dsimp only
  split
  · exact Nat.succ_pos n
  · refine (Nat.succ_pos n).trans_le ?_
    exact le_calls_receiveLoop rc fuel { state := (_, n + 1), inbuffer := _, handed := _ }

/-! ## One call -/

/-- The end offset after a failed `recv`. -/
@[irreducible] def failedEnd (b : ImBuffer) : ℕ :=
  ((prepareInbuffer b).bufferEnd + (2 ^ 64 - 1)) % 2 ^ 64

@[simp] lemma bufferStart_prepareInbuffer (b : ImBuffer) : (prepareInbuffer b).bufferStart = 0 := by
  unfold prepareInbuffer
  dsimp only
  split <;> simp

@[simp] lemma pending_prepareInbuffer (b : ImBuffer) : (prepareInbuffer b).pending = b.pending := by
  unfold prepareInbuffer
  dsimp only
  split <;> exact pending_resetBufferStart b

/-- The input buffer once `recv` has returned data. -/
def receivedInto (b : ImBuffer) (bytes : Bytes) : ImBuffer :=
  { prepareInbuffer b with
    buffer := store (prepareInbuffer b).buffer (prepareInbuffer b).bufferEnd bytes
    bufferEnd := (prepareInbuffer b).bufferEnd + bytes.length }

@[simp] lemma bufferStart_receivedInto (b : ImBuffer) (bytes : Bytes) :
    (receivedInto b bytes).bufferStart = 0 := bufferStart_prepareInbuffer b

@[simp] lemma pending_receivedInto (b : ImBuffer) (bytes : Bytes) :
    (receivedInto b bytes).pending = b.pending ++ bytes := by
  rw [← pending_prepareInbuffer b]
  apply pending_store_end
  rw [bufferStart_prepareInbuffer]
  exact Nat.zero_le _

/-- Data that there is room for keeps the offsets in order. -/
lemma wf_receivedInto {b : ImBuffer} (hwf : b.Wf) {bytes : Bytes}
    (hroom : bytes.length ≤ recvRoom b) : (receivedInto b bytes).Wf := by
  obtain ⟨-, hprepared, hlt⟩ := prepareInbuffer_spec hwf
  unfold recvRoom at hroom
  refine ⟨?_, ?_, hprepared.capacity_pos⟩
  · rw [bufferStart_receivedInto]
    exact Nat.zero_le _
  · show (prepareInbuffer b).bufferEnd + bytes.length ≤ (prepareInbuffer b).bufferCapacity
    omega

/-- After data the loop runs up to its end. -/
lemma imReceiveCommand_data_eq (r : Receiving σ) (bytes : Bytes) :
    imReceiveCommand rc r (.data bytes) = receiveLoop rc (receivedInto r.inbuffer bytes).bufferEnd
      { r with inbuffer := receivedInto r.inbuffer bytes } := by
  have hfuel := congrArg ((receivedInto r.inbuffer bytes).bufferEnd - ·)
    (bufferStart_receivedInto r.inbuffer bytes)
  rw [← Nat.sub_zero (receivedInto r.inbuffer bytes).bufferEnd, ← hfuel]
  rfl

/-- After a failed `recv` the loop runs up to the wrong end. -/
lemma imReceiveCommand_error_eq (r : Receiving σ) :
    imReceiveCommand rc r .error = receiveLoop rc (failedEnd r.inbuffer)
      { r with
        inbuffer := { prepareInbuffer r.inbuffer with bufferEnd := failedEnd r.inbuffer } } := by
  unfold imReceiveCommand failedEnd
  dsimp only
  rw [bufferStart_prepareInbuffer, Nat.sub_zero]

lemma imReceiveCommand_error (r : Receiving σ) :
    ∃ b : ImBuffer, b.bufferStart = 0 ∧ b.bufferEnd = failedEnd r.inbuffer ∧
      imReceiveCommand rc r .error = receiveLoop rc b.bufferEnd { r with inbuffer := b } :=
  ⟨{ prepareInbuffer r.inbuffer with bufferEnd := failedEnd r.inbuffer },
    bufferStart_prepareInbuffer r.inbuffer, rfl, imReceiveCommand_error_eq rc r⟩

variable {rc}

lemma recvReturns_of_receiveAny {r r' : Receiving σ} {nbytes : Recv}
    (completes : receiveAny rc r nbytes = some r') : recvReturns r.inbuffer nbytes := by
  unfold receiveAny at completes
  split at completes
  · assumption
  · cases completes

lemma eq_of_receiveAny {r r' : Receiving σ} {nbytes : Recv}
    (completes : receiveAny rc r nbytes = some r') : imReceiveCommand rc r nbytes = r' := by
  unfold receiveAny at completes
  rw [if_pos (recvReturns_of_receiveAny completes)] at completes
  exact Option.some.inj completes

/-- If the wrong end meets the start, then a byte waited and is lost. -/
lemma pending_ne_of_failedEnd_eq_zero {r : Receiving σ} (hempty : failedEnd r.inbuffer = 0) :
    (imReceiveCommand rc r .error).inbuffer.pending ≠ r.inbuffer.pending := by
  obtain ⟨b, hstart, hend, hloop⟩ := imReceiveCommand_error rc r
  rw [hempty] at hend
  rw [hend, receiveLoop] at hloop
  have hwaited : (prepareInbuffer r.inbuffer).bufferEnd ≠ 0 := by
    unfold failedEnd at hempty
    clear hloop
    omega
  intro hkept
  rw [hloop, ← pending_prepareInbuffer r.inbuffer] at hkept
  have hlen := congrArg List.length hkept
  rw [ImBuffer.length_pending, ImBuffer.length_pending, hstart, hend,
    bufferStart_prepareInbuffer, Nat.sub_zero, Nat.sub_zero] at hlen
  exact hwaited hlen.symm

/-- If it does not, the handler is called. -/
lemma handlerCalls_pos_of_failedEnd_ne_zero {r : Receiving σ} (hne : failedEnd r.inbuffer ≠ 0) :
    0 < handlerCalls rc r .error := by
  obtain ⟨b, hstart, hend, hloop⟩ := imReceiveCommand_error rc.counting
    { state := (r.state, 0), inbuffer := r.inbuffer, handed := r.handed }
  rw [← hend] at hne
  rw [handlerCalls, hloop]
  refine calls_receiveLoop_pos rc (Nat.pos_of_ne_zero hne) ?_
  rw [hstart]
  exact hne.symm

/-- **A call is intact exactly if its `recv` did not fail.** -/
lemma intact_iff (hused : ∀ s cmd, (rc.handler s cmd).2.1 ≤ cmd.length) {r : Receiving σ}
    {nbytes : Recv} (hwf : r.inbuffer.Wf) (hrecv : recvReturns r.inbuffer nbytes) :
    Intact rc r nbytes ↔ nbytes ≠ .error := by
  obtain ⟨-, hprepared, -⟩ := prepareInbuffer_spec hwf
  cases nbytes with
  | closed => exact iff_of_true ⟨hprepared, nofun⟩ nofun
  | data bytes =>
      refine iff_of_true ⟨?_, nofun⟩ nofun
      rw [imReceiveCommand_data_eq]
      exact wf_receiveLoop rc hused (wf_receivedInto hwf hrecv.2)
  | error =>
      refine iff_of_false (fun h => ?_) fun h => h rfl
      obtain ⟨hcalls, hbytes⟩ := h.error rfl
      by_cases hempty : failedEnd r.inbuffer = 0
      · exact pending_ne_of_failedEnd_eq_zero hempty hbytes
      · exact (handlerCalls_pos_of_failedEnd_ne_zero hempty).ne' hcalls

/-! ## All calls -/

/-- The decoder uses no more bytes than it is given. -/
lemma used_decodingHandler {dec : Decoder UInt8 M} {act : σ → M → σ × Option IMResponse}
    (hdec : ∀ bytes msg n, dec bytes = some (msg, n) → n ≤ bytes.length)
    (hrc : rc.handler = decodingHandler dec act) (s : σ) (cmd : Bytes) :
    (rc.handler s cmd).2.1 ≤ cmd.length := by
  rw [hrc, decodingHandler]
  split
  · exact Nat.zero_le _
  · next msg ret h => exact hdec cmd msg ret h

/-- The offsets are in order as long as no `recv` failed. -/
lemma wf_of_run (hused : ∀ s cmd, (rc.handler s cmd).2.1 ≤ cmd.length) {s : σ}
    {nbs : List Recv} {r : Receiving σ}
    (run : Run (receiveAny rc) (fun _ nbytes => nbytes ≠ .error) (Receiving.init s) nbs r) :
    r.inbuffer.Wf := by
  induction run with
  | nil => exact ⟨le_rfl, Nat.zero_le _, Nat.succ_pos _⟩
  | snoc _ allowed completes ih =>
      rw [← eq_of_receiveAny completes]
      exact ((intact_iff hused ih (recvReturns_of_receiveAny completes)).mpr allowed).wf

/-- **Receive errors.** Whatever `recv` returns in the calls of a run, all of them leave the
input buffer intact exactly if no `recv` of the run failed. -/
theorem receive_intact_iff {dec : Decoder UInt8 M} {act : σ → M → σ × Option IMResponse}
    (hdec : ∀ bytes msg n, dec bytes = some (msg, n) → n ≤ bytes.length)
    (hrc : rc.handler = decodingHandler dec act) {s : σ} {nbs : List Recv} {r : Receiving σ}
    (run : Run (receiveAny rc) Always (Receiving.init s) nbs r) :
    Run (receiveAny rc) (Intact rc) (Receiving.init s) nbs r ↔ ∀ nb ∈ nbs, nb ≠ .error := by
  have hused := used_decodingHandler hdec hrc
  have hok : Run (receiveAny rc) (Intact rc) (Receiving.init s) nbs r ↔
      Run (receiveAny rc) (fun _ nb => nb ≠ .error) (Receiving.init s) nbs r :=
    run.iff_of (wf_of_run hused) fun hwf completes =>
      intact_iff hused hwf (recvReturns_of_receiveAny completes)
  exact hok.trans run.forall_iff

end Receivers

/-- The decoder of the wire format uses no more bytes than it is given. -/
lemma used_protobufWire (bytes : Bytes) (msg : ProtobufMessage) (n : ℕ)
    (h : decodeCommand protobufWire bytes = some (msg, n)) : n ≤ bytes.length := by
  obtain ⟨⟨msg', rest⟩, -, heq⟩ := Option.map_eq_some_iff.mp h
  have hcount : bytes.length - rest.length = n := congrArg Prod.snd heq
  omega

/-- A login in two pieces, and the end of the stream. -/
theorem receive_intact_iff_login :
    ∃ r, Run (receiveAny (serverReceiver protobufWire 0)) (Intact (serverReceiver protobufWire 0))
      (Receiving.init (acceptClient demo.init 5 demoAddr))
      [.data ((loginFrame "hans" "falcon").take 5), .data ((loginFrame "hans" "falcon").drop 5),
        .closed] r := by
  obtain ⟨r, run, -⟩ := Run.exists_of_execute (receiveAny (serverReceiver protobufWire 0)) Always
    (Receiving.init (acceptClient demo.init 5 demoAddr))
    [.data ((loginFrame "hans" "falcon").take 5), .data ((loginFrame "hans" "falcon").drop 5),
      .closed]
    (fun _ => True) (by decide +kernel)
  refine ⟨r, (receive_intact_iff used_protobufWire rfl run).mpr ?_⟩
  simp

/-- One byte of a frame has come when a `recv` fails, and it is gone. -/
theorem receive_error_loses :
    ∃ r, Run (receiveAny (serverReceiver protobufWire 0)) Always
        (Receiving.init (acceptClient demo.init 5 demoAddr)) [.data [8]] r ∧
      ¬ Intact (serverReceiver protobufWire 0) r .error := by
  obtain ⟨r, run, hlost⟩ := Run.exists_of_execute (receiveAny (serverReceiver protobufWire 0))
    Always (Receiving.init (acceptClient demo.init 5 demoAddr)) [.data [8]]
    (fun r => r.inbuffer.pending = [8] ∧
      (imReceiveCommand (serverReceiver protobufWire 0) r .error).inbuffer.pending = [])
    (by decide +kernel)
  refine ⟨r, run, fun h => ?_⟩
  have hkept : ([] : Bytes) = [8] := hlost.2.symm.trans ((h.error rfl).2.trans hlost.1)
  cases hkept

end EpollChat

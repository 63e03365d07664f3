import EpollChat.Properties.ReceiveErrors

/-!
# Reads always have room

`im_receive_command` takes a 0 from `recv` for the end of the stream, so it must never ask for 0
bytes.  It doubles the block at most once in a call, and only if the waiting bytes fill more than
half of it once they are at its front.  That is enough: they fit before the call, so at most half
of a doubled block is full, and at most half of one that is not (`readRoom_of_run`).
-/

namespace EpollChat

/-- `recv` with `room` bytes to fill, while `queued` bytes of the stream have come, can return the
count `n`: nothing only if nothing is asked for or the peer has closed. -/
def RecvCount (room queued : ℕ) (peerClosed : Prop) (n : ℕ) : Prop :=
  n ≤ room ∧ n ≤ queued ∧ (n = 0 → room = 0 ∨ queued = 0 ∧ peerClosed)

section Receivers

variable {σ : Type} (rc : Receiver σ)

/-- **The next read has room.** -/
structure ReadRoom (r : Receiving σ) : Prop where
  wf : r.inbuffer.Wf
  /-- The offsets are in order when `recv` is called. -/
  prepared : (prepareInbuffer r.inbuffer).Wf
  /-- `recv` is asked for at least one byte. -/
  room_pos : 0 < recvRoom r.inbuffer
  /-- The offsets are in order after every round of the loop, whatever has been read. -/
  rounds : ∀ (bytes : Bytes) (fuel : ℕ), bytes.length ≤ recvRoom r.inbuffer →
    (receiveLoop rc fuel
      { r with inbuffer := receivedInto r.inbuffer bytes }).inbuffer.Wf
  /-- A 0 means that the peer has closed. -/
  closed : ∀ (queued : ℕ) (peerClosed : Prop),
    RecvCount (recvRoom r.inbuffer) queued peerClosed 0 → peerClosed

variable {rc}

/-- A read keeps the offsets in order. -/
lemma wf_receiveStep (hused : ∀ s cmd, (rc.handler s cmd).2.1 ≤ cmd.length)
    {r r' : Receiving σ} {bytes : Bytes} (hwf : r.inbuffer.Wf)
    (completes : receiveStep rc r bytes = some r') : r'.inbuffer.Wf := by
  obtain ⟨hread, hr'⟩ := Option.ite_none_right_eq_some.mp completes
  obtain rfl := Option.some.inj hr'
  rw [imReceiveCommand_data_eq]
  apply wf_receiveLoop rc hused
  exact wf_receivedInto hwf hread.2

/-- **Reads always have room.** However the stream is cut into reads, and however little of it the
handler uses, the offsets stay in order and the next `recv` is asked for at least one byte. -/
theorem readRoom_of_run (hused : ∀ s cmd, (rc.handler s cmd).2.1 ≤ cmd.length) {s : σ}
    {reads : List Bytes} {r : Receiving σ}
    (run : Run (receiveStep rc) Always (Receiving.init s) reads r) : ReadRoom rc r := by
  have hwf : r.inbuffer.Wf := by
    apply run.invariant (P := fun r => r.inbuffer.Wf)
    · exact ⟨le_rfl, Nat.zero_le _, Nat.succ_pos _⟩
    · intro r bytes r' hwf _ completes
      exact wf_receiveStep hused hwf completes
  refine ⟨hwf, (prepareInbuffer_spec hwf).2.1, recvRoom_pos hwf, ?_, ?_⟩
  · intro bytes fuel hroom
    apply wf_receiveLoop rc hused
    exact wf_receivedInto hwf hroom
  · rintro queued peerClosed ⟨-, -, hzero⟩
    have hroom := recvRoom_pos hwf
    exact ((hzero rfl).resolve_left hroom.ne').2

end Receivers

/-- A login whose first piece the handler has to leave. -/
theorem readRoom_login :
    ∃ r, ReadRoom (serverReceiver protobufWire 0) r ∧ r.handed = [loginFrame "hans" "falcon"] := by
  obtain ⟨r, run, hhanded⟩ := Run.exists_of_execute (receiveStep (serverReceiver protobufWire 0))
    Always (Receiving.init (acceptClient demo.init 5 demoAddr))
    [(loginFrame "hans" "falcon").take 5, (loginFrame "hans" "falcon").drop 5]
    (fun r => r.handed = [loginFrame "hans" "falcon"]) (by decide +kernel)
  exact ⟨r, readRoom_of_run (used_decodingHandler used_protobufWire rfl) run, hhanded⟩

end EpollChat

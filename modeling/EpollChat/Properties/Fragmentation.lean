import EpollChat.Construction.Demo

/-!
# Fragmentation independence

A receiver whose handler decodes incrementally is handed the frames of its stream, each once and
in order, however `recv` cuts the stream into reads; what waits in the input buffer afterwards is
the incomplete tail (`receive_fragmented`).

The invariant of a run of reads is that everything received so far is the concatenation of the
frames handed to the handler and the bytes that wait, and that no frame is complete among the
latter.  That the offsets stay inside the block is carried along, since compaction and growth
depend on it.  By `Incremental.unique` there is only one such reading of the whole stream.
-/

namespace EpollChat

variable {σ M : Type} {dec : Decoder UInt8 M} {act : σ → M → σ × Option IMResponse}
  {rc : Receiver σ}

/-- What a frame does to the state when it is handed to the handler. -/
def handleFrame (rc : Receiver σ) (s : σ) (frame : Bytes) : σ := (handleOnce rc s frame).1

/-- What a receiver has done with `bytes` bytes more, from `r` to `r'`: it has handed over the
frames `gs`, and no frame is complete among the bytes that wait. -/
structure Consumed (dec : Decoder UInt8 M) (rc : Receiver σ) (bytes : Bytes)
    (r r' : Receiving σ) (gs : List Bytes) : Prop where
  frames : ∀ g ∈ gs, WholeFrame dec g
  handed : r'.handed = r.handed ++ gs
  received : r.inbuffer.pending ++ bytes = gs.flatten ++ r'.inbuffer.pending
  stalled : Stalled dec r'.inbuffer.pending
  wf : r'.inbuffer.Wf
  state : r'.state = gs.foldl (handleFrame rc) r.state

/-! ## One call of the handler -/

/-- Where a frame is at the front, the handler treats it as if it were alone. -/
lemma handleOnce_frame (hd : Incremental dec) (hrc : rc.handler = decodingHandler dec act)
    {f pending : Bytes} (hf : WholeFrame dec f) (hpre : f <+: pending) (s : σ) :
    handleOnce rc s pending = (handleFrame rc s f, f.length) := by
  obtain ⟨m, hm⟩ := hf.2
  have hpending : dec pending = some (m, f.length) := (hd.dec_of_prefix hf hpre).trans hm
  simp only [handleFrame, handleOnce, hrc, decodingHandler, hm, hpending]
  split <;> simp_all

/-- Where the decoder gives up, the handler does nothing and uses nothing. -/
lemma handleOnce_none (hrc : rc.handler = decodingHandler dec act) {pending : Bytes}
    (h : dec pending = none) (s : σ) : handleOnce rc s pending = (s, 0) := by
  simp only [handleOnce, hrc, decodingHandler, h]

/-! ## One read -/

lemma receiveLoop_spec (hd : Incremental dec) (hrc : rc.handler = decodingHandler dec act)
    {fs : List Bytes} (hfs : ∀ f ∈ fs, WholeFrame dec f) {t : Bytes} (ht : Incomplete dec t)
    {fuel : ℕ} {r : Receiving σ} (hwf : r.inbuffer.Wf)
    (hfuel : r.inbuffer.bufferEnd - r.inbuffer.bufferStart ≤ fuel)
    (hpre : r.inbuffer.pending <+: fs.flatten ++ t) :
    ∃ gs, Consumed dec rc [] r (receiveLoop rc fuel r) gs := by
  induction fuel generalizing r fs with
  | zero =>
      have hempty : r.inbuffer.pending = [] :=
        List.length_eq_zero_iff.mp (by rw [ImBuffer.length_pending]; omega)
      exact ⟨[], by simp, by simp [receiveLoop], by simp [receiveLoop],
        by simpa [receiveLoop, hempty] using stalled_nil, hwf, rfl⟩
  | succ fuel ih =>
      by_cases hdone : r.inbuffer.bufferStart = r.inbuffer.bufferEnd
      · have hempty : r.inbuffer.pending = [] :=
          List.length_eq_zero_iff.mp (by rw [ImBuffer.length_pending]; omega)
        simp only [receiveLoop, if_pos hdone]
        exact ⟨[], by simp, by simp, by simp, by simpa [hempty] using stalled_nil, hwf, rfl⟩
      rcases stream_front hfs ht hpre with hinc | ⟨f, fs', rfl, hf⟩
      · -- too little for a frame: the handler reports 0 and the loop ends
        have hnone := hd.incomplete _ hinc
        simp only [receiveLoop, if_neg hdone, handleOnce_none hrc hnone, if_pos]
        exact ⟨[], by simp, by simp, by simp, hd.stalled hinc, hwf, rfl⟩
      · -- a frame is complete: it is used up, and the loop goes on behind it
        have hframe := hfs f List.mem_cons_self
        have hlen := hf.length_le
        have hpos : f.length ≠ 0 := fun h => hframe.1 (List.length_eq_zero_iff.mp h)
        simp only [receiveLoop, if_neg hdone, handleOnce_frame hd hrc hframe hf, if_neg hpos]
        rw [ImBuffer.length_pending] at hlen
        obtain ⟨rest, hrest⟩ := hf
        have hdrop : ImBuffer.pending
            { r.inbuffer with bufferStart := r.inbuffer.bufferStart + f.length } = rest := by
          rw [pending_start_add _ hlen, ← hrest, List.drop_left]
        have hpre' : rest <+: fs'.flatten ++ t := by
          rw [← hrest] at hpre
          simpa [List.append_assoc, List.prefix_append_right_inj] using hpre
        obtain ⟨gs, hframes, hhanded, hreceived, hstalled, hwf', hstate⟩ :=
          ih (fun g hg => hfs g (List.mem_cons_of_mem _ hg))
            (r := { state := handleFrame rc r.state f
                    inbuffer :=
                      { r.inbuffer with bufferStart := r.inbuffer.bufferStart + f.length }
                    handed := r.handed ++ [r.inbuffer.pending.take f.length] })
            ⟨by have := hwf.start_le_end; dsimp only; omega, hwf.end_le_capacity,
              hwf.capacity_pos⟩
            (by dsimp only; omega) (by rw [hdrop]; exact hpre')
        refine ⟨f :: gs, ?_, ?_, ?_, hstalled, hwf', hstate⟩
        · intro g hg
          rcases List.mem_cons.mp hg with rfl | hg
          · exact hframe
          · exact hframes g hg
        · rw [hhanded, ← hrest, List.take_left]
          simp
        · rw [List.append_nil, hdrop] at hreceived
          rw [List.append_nil, List.flatten_cons, List.append_assoc]
          exact hrest.symm.trans (congrArg (f ++ ·) hreceived)

lemma imReceiveCommand_spec (hd : Incremental dec) (hrc : rc.handler = decodingHandler dec act)
    {fs : List Bytes} (hfs : ∀ f ∈ fs, WholeFrame dec f) {t : Bytes} (ht : Incomplete dec t)
    {r : Receiving σ} (hwf : r.inbuffer.Wf) {bytes : Bytes}
    (hroom : bytes.length ≤ recvRoom r.inbuffer)
    (hpre : r.inbuffer.pending ++ bytes <+: fs.flatten ++ t) :
    ∃ gs, Consumed dec rc bytes r (imReceiveCommand rc r (.data bytes)) gs := by
  obtain ⟨hpending, ⟨hle, hcap, hpos⟩, hlt⟩ := prepareInbuffer_spec hwf
  unfold recvRoom at hroom
  -- the buffer after the read
  have hread := pending_store_end (prepareInbuffer r.inbuffer) bytes hle
  rw [hpending] at hread
  obtain ⟨gs, hframes, hhanded, hreceived, hstalled, hwf', hstate⟩ :=
    receiveLoop_spec hd hrc hfs ht
      (r := { r with
        inbuffer :=
          { prepareInbuffer r.inbuffer with
            buffer := store (prepareInbuffer r.inbuffer).buffer
              (prepareInbuffer r.inbuffer).bufferEnd bytes
            bufferEnd := (prepareInbuffer r.inbuffer).bufferEnd + bytes.length } })
      ⟨by dsimp only; omega, by dsimp only; omega, hpos⟩ le_rfl (by rw [hread]; exact hpre)
  rw [List.append_nil, hread] at hreceived
  exact ⟨gs, hframes, hhanded, hreceived, hstalled, hwf', hstate⟩

/-! ## All reads -/

/-- What a run of reads of a stream of frames has done so far. -/
lemma receive_run (hd : Incremental dec) (hrc : rc.handler = decodingHandler dec act)
    {fs : List Bytes} (hfs : ∀ f ∈ fs, WholeFrame dec f) {t : Bytes} (ht : Incomplete dec t)
    {s : σ} {reads : List Bytes} {r : Receiving σ}
    (run : Run (receiveStep rc) Always (Receiving.init s) reads r)
    (hpre : reads.flatten <+: fs.flatten ++ t) :
    ∃ gs, Consumed dec rc reads.flatten (Receiving.init s) r gs := by
  induction run with
  | nil =>
      exact ⟨[], by simp, rfl, rfl, stalled_nil, ⟨le_rfl, Nat.zero_le _, Nat.succ_pos _⟩, rfl⟩
  | @snoc reads r r' bytes _ _ completes ih =>
      rw [List.flatten_append, List.flatten_singleton] at hpre ⊢
      obtain ⟨gs, hframes, hhanded, hreceived, -, hwf, hstate⟩ :=
        ih (List.IsPrefix.trans (List.prefix_append _ _) hpre)
      have hreceived' : reads.flatten = gs.flatten ++ r.inbuffer.pending := hreceived
      unfold receiveStep at completes
      split at completes
      · next henabled =>
          obtain rfl := Option.some.inj completes
          rw [hreceived', List.append_assoc] at hpre
          obtain ⟨rest, rfl, hrest⟩ := hd.split hframes hfs ht hpre
          obtain ⟨gs', hframes', hhanded', hreceived'', hstalled', hwf', hstate'⟩ :=
            imReceiveCommand_spec hd hrc (fun f hf => hfs f (List.mem_append_right _ hf)) ht hwf
              henabled.2 hrest
          refine ⟨gs ++ gs', ?_, ?_, ?_, hstalled', hwf', ?_⟩
          · intro g hg
            rcases List.mem_append.mp hg with hg | hg
            · exact hframes g hg
            · exact hframes' g hg
          · rw [hhanded', hhanded, List.append_assoc]
          · rw [hreceived', List.append_assoc, hreceived'']
            simp [Receiving.init]
          · rw [hstate', hstate, List.foldl_append]
      · cases completes

/-- **Fragmentation independence.** Whatever the reads a stream of frames with an incomplete
tail arrives in, each of them nonempty and no larger than the room `im_receive_command` offers,
the handler is handed exactly the frames of the stream, once and in order, and exactly the tail
remains in the input buffer. -/
theorem receive_fragmented (hd : Incremental dec) (hrc : rc.handler = decodingHandler dec act)
    {frames : List Bytes} {tail : Bytes} (hframes : ∀ f ∈ frames, WholeFrame dec f)
    (htail : Incomplete dec tail) {reads : List Bytes}
    (hstream : reads.flatten = frames.flatten ++ tail) {s : σ} {r : Receiving σ}
    (run : Run (receiveStep rc) Always (Receiving.init s) reads r) :
    r.handed = frames ∧ r.inbuffer.pending = tail ∧ r.inbuffer.Wf ∧
      r.state = frames.foldl (handleFrame rc) s := by
  obtain ⟨gs, hgs, hhanded, hreceived, hstalled, hwf, hstate⟩ :=
    receive_run hd hrc hframes htail run (hstream ▸ List.prefix_refl _)
  have hstream' : gs.flatten ++ r.inbuffer.pending = frames.flatten ++ tail :=
    hreceived.symm.trans hstream
  obtain ⟨rfl, htl⟩ := hd.unique hgs hframes htail hstalled hstream'
  exact ⟨hhanded, htl, hwf, hstate⟩

/-- A login frame and the first byte of another frame, read in two pieces that cut the frame. -/
theorem receive_fragmented_login :
    ∃ r, Run (receiveStep (serverReceiver protobufWire 0)) Always
        (Receiving.init (acceptClient demo.init 5 demoAddr))
        [(loginFrame "hans" "falcon").take 5, (loginFrame "hans" "falcon").drop 5 ++ [8]] r ∧
      r.handed = [loginFrame "hans" "falcon"] ∧ r.inbuffer.pending = [8] := by
  obtain ⟨r, run, -⟩ := Run.exists_of_execute (receiveStep (serverReceiver protobufWire 0)) Always
    (Receiving.init (acceptClient demo.init 5 demoAddr))
    [(loginFrame "hans" "falcon").take 5, (loginFrame "hans" "falcon").drop 5 ++ [8]]
    (fun _ => True) (by decide +kernel)
  have hframe : WholeFrame (decodeCommand protobufWire) (loginFrame "hans" "falcon") :=
    ⟨by decide +kernel, _, rfl⟩
  have hframes : ∀ f ∈ [loginFrame "hans" "falcon"], WholeFrame (decodeCommand protobufWire) f := by
    simpa using hframe
  have htail : Incomplete (decodeCommand protobufWire) [8] :=
    ⟨_, hframe, by decide +kernel, by decide +kernel⟩
  have h := receive_fragmented (incremental_protobufWire 2) rfl hframes htail (by decide +kernel) run
  exact ⟨r, run, h.1, h.2.1⟩

end EpollChat

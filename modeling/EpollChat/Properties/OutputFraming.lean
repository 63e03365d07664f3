import EpollChat.Construction.Demo
import EpollChat.Framework.CleanLedger
import EpollChat.Properties.Accounting

/-!
# Output framing

What a connection receives should be whole frames one after the other, and the beginning of one
more.  Two queues are drained into it, and `send` may stop anywhere.

Nothing in the code keeps a frame together.  After a partial `send` from the outbuffer the
`EPOLLOUT` branch goes on with the offline buffer; at the next event it begins with the outbuffer
again, whatever frame of the offline buffer is cut; and the offline buffer outlives the
connection, so that the rest of a cut frame goes to the next one.  `DrainsFramed` is the condition
that a `send` that takes bytes does none of this, and under it every connection's bytes are framed
(`output_framed_run`).
-/

namespace EpollChat

variable (ac : Achelper)

/-- The condition on a drain that it leaves frames together.  Where the first `send` takes
bytes, no offline buffer has a frame cut on the connection.  Where the second one does, the
outbuffer has no cut frame left, nor has another offline buffer on this connection, and the
buffer's own cut frame was begun on this connection. -/
def DrainsFramed (s : State) : Event → Prop
  | .writable fd n₁ n₂ =>
      ∀ c ∈ pickConn s fd,
        Ledger.CleanTake (moves s.log) (.out c) c (sentBytes s (.out c) n₁) ∧
          ∀ u ∈ inlineTest s c,
            Ledger.CleanTake (moves s.log ++ [.take (.out c) c (sentBytes s (.out c) n₁)])
              (.offline u) c (sentBytes s (.offline u) n₂)
  | _ => True

instance (s : State) (e : Event) : Decidable (DrainsFramed s e) :=
  match e with
  | .writable fd n₁ n₂ =>
      inferInstanceAs (Decidable (∀ c ∈ pickConn s fd,
        Ledger.CleanTake (moves s.log) (.out c) c (sentBytes s (.out c) n₁) ∧
          ∀ u ∈ inlineTest s c,
            Ledger.CleanTake (moves s.log ++ [.take (.out c) c (sentBytes s (.out c) n₁)])
              (.offline u) c (sentBytes s (.offline u) n₂)))
  | .accept .. | .hangup _ | .eof _ | .readable _ | .request _ | .readDone | .tick _ | .sweep =>
      .isTrue trivial

/-- **Output framing.** The bytes of the connection are a prefix of a concatenation of encoded
responses, and every one of these is one frame of one queue throughout. -/
structure OutputFramed (s : State) (c : ConnId) : Prop where
  framed : Ledger.Framed c (moves s.log)
  encoded : ∀ q, ∀ f ∈ Ledger.frames q (moves s.log), ∃ rsp, f = encodeIMResponseToBytes ac rsp
  bytes : ∃ rsps : List IMResponse,
    Ledger.written c (moves s.log) <+: (rsps.map (encodeIMResponseToBytes ac)).flatten

/-! ## Adding and draining -/

lemma clean_imSendBuffer {s : State} (h : Accounted s) (hclean : Ledger.Clean (moves s.log))
    {c : ConnId} {q : Queue} {n : Option ℕ}
    (htake : Ledger.CleanTake (moves s.log) q c (sentBytes s q n)) :
    Ledger.Clean (moves (imSendBuffer s c q n).log) := by
  rcases log_imSendBuffer s c q n with hlog | ⟨hlog, -⟩ <;> rw [hlog]
  · rw [moves_append, moves_move]
    refine .take q c _ hclean ?_ htake
    rw [h.contents]
    exact List.take_prefix _ _
  · exact hclean

/-- What the second drain finds in the history. -/
lemma same_afterFirst (s : State) (c : ConnId) (n₁ : Option ℕ) :
    Ledger.Same (moves s.log ++ [.take (.out c) c (sentBytes s (.out c) n₁)])
      (moves (afterFirst s c n₁).log) := by
  have hsent : sentBytes (s.lock c) (.out c) n₁ = sentBytes s (.out c) n₁ := by
    rw [sentBytes, sentBytes, State.pending_lock]
  have hfirst := log_imSendBuffer (s.lock c) c (.out c) n₁
  rw [hsent, State.log_lock] at hfirst
  unfold afterFirst
  rcases hfirst with hlog | ⟨hlog, hnone⟩ <;> rw [hlog]
  · rw [moves_append, moves_move]
    exact ⟨fun _ => rfl, fun _ => rfl, fun _ => rfl, fun _ => rfl⟩
  · rw [hnone]
    exact Ledger.same_take_nil _ _ _

lemma clean_networkWritable {s : State} (h : Accounted s) (hclean : Ledger.Clean (moves s.log))
    {fd : ℕ} {c : ConnId} (hpick : pickConn s fd = some c) {n₁ n₂ : Option ℕ}
    (hresults : DrainResults s c n₁ n₂) (hok : DrainsFramed s (.writable fd n₁ n₂)) :
    Ledger.Clean (moves (networkWritable s c n₁ n₂).log) := by
  obtain ⟨hfirst, hsecond⟩ := hok c hpick
  have hclean₁ : Ledger.Clean (moves (afterFirst s c n₁).log) := by
    refine clean_imSendBuffer (h.lock c) ?_ ?_
    · rw [State.log_lock]
      exact hclean
    · rw [State.log_lock, sentBytes, State.pending_lock]
      exact hfirst
  rw [networkWritable_eq]
  show Ledger.Clean (moves (drainOffline s c n₂ (afterFirst s c n₁)).log)
  unfold drainOffline
  cases hu : inlineTest s c with
  | none => exact hclean₁
  | some u =>
      refine clean_imSendBuffer (accounted_afterFirst h hresults) hclean₁ ?_
      rw [sentBytes, pending_afterFirst hresults]
      exact (hsecond u hu).of_same (same_afterFirst s c n₁)

/-! ## All runs -/

lemma clean_run {p : Setup} {es : List Event} {s : State}
    (run : ServerRun ac p DrainsFramed es s) : Ledger.Clean (moves s.log) := by
  refine run.invariant_of (P := fun t => Ledger.Clean (moves t.log)) ?_
    (fun run => And.intro (tableOk_run ac run) (accounted_run ac run)) ?_
  · rw [(loaded_init p).log]
    exact .nil
  · rintro s e s' ⟨hs, h⟩ hclean hok hstep
    obtain ⟨henabled, -, rfl⟩ := (step_eq_some ac).mp hstep
    rcases exec_cases ac hs.server h.pending_fresh e with
      ⟨l, hl, -⟩ | ⟨fd, n₁, n₂, c, rfl, hpick, hexec⟩
    · rw [hl.log, moves_append]
      exact hl.onlyPuts.keeps (fun _ q t f hl => .put q t f hl) hclean
    · obtain ⟨-, -, -, hresults⟩ := henabled
      rw [hexec]
      exact clean_networkWritable h hclean hpick (hresults c hpick) hok

/-- Every frame in a queue is an encoded response. -/
lemma encoded_run {p : Setup} {ok : State → Event → Prop} {es : List Event} {s : State}
    (run : ServerRun ac p ok es s) {q : Queue} {why : Why} {f : Bytes}
    (h : .put q why f ∈ moves s.log) : ∃ rsp, f = encodeIMResponseToBytes ac rsp := by
  have hrun : ∀ q why f, .move (.put q why f) ∈ s.log → ∃ rsp, f = encodeIMResponseToBytes ac rsp := by
    refine run.invariant_of
      (P := fun t => ∀ q why f, .move (.put q why f) ∈ t.log →
        ∃ rsp, f = encodeIMResponseToBytes ac rsp) ?_
      (fun run => And.intro (tableOk_run ac run) (accounted_run ac run)) ?_
    · intro q why f hmem
      rw [(loaded_init p).log] at hmem
      cases hmem
    · rintro s e s' ⟨hs, hacc⟩ ih - hstep q why f hmem
      obtain ⟨-, -, rfl⟩ := (step_eq_some ac).mp hstep
      rcases exec_cases ac hs.server hacc.pending_fresh e with
        ⟨l, hl, hemits⟩ | ⟨fd, n₁, n₂, c, -, -, hexec⟩
      · rw [hl.log] at hmem
        rcases List.mem_append.mp hmem with hmem | hmem
        · exact ih q why f hmem
        · have hnew := hemits _ hmem
          cases hnew <;> exact ⟨_, rfl⟩
      · rw [hexec] at hmem
        rcases mem_log_networkWritable hmem with hmem | ⟨_, _, hno⟩
        · exact ih q why f hmem
        · cases hno
  exact hrun q why f (mem_moves.mp h)

/-- **Output framing**, in every run whose drains leave frames together. -/
theorem output_framed_run {p : Setup} {es : List Event} {s : State}
    (run : ServerRun ac p DrainsFramed es s) (c : ConnId) : OutputFramed ac s c := by
  have hframed : Ledger.Framed c (moves s.log) := Ledger.framed_of_clean (clean_run ac run) c
  have hencoded : ∀ q, ∀ f ∈ Ledger.frames q (moves s.log),
      ∃ rsp, f = encodeIMResponseToBytes ac rsp := by
    intro q f hf
    obtain ⟨m, hm, hput⟩ := List.mem_filterMap.mp hf
    cases m with
    | take => cases hput
    | put q' why f' =>
        dsimp only at hput
        split at hput
        · obtain rfl := Option.some.inj hput
          exact encoded_run ac run hm
        · cases hput
  refine ⟨hframed, hencoded, ?_⟩
  obtain ⟨fs, hfs, hpre⟩ := hframed.bytes
  have hrsps : ∃ rsps : List IMResponse, fs = rsps.map (encodeIMResponseToBytes ac) := by
    clear hpre
    induction fs with
    | nil => exact ⟨[], rfl⟩
    | cons f fs ih =>
        obtain ⟨rsps, rfl⟩ := ih fun f hf => hfs f (List.mem_cons_of_mem _ hf)
        obtain ⟨q, hq⟩ := hfs f List.mem_cons_self
        obtain ⟨rsp, rfl⟩ := hencoded q f hq
        exact ⟨rsp :: rsps, rfl⟩
  obtain ⟨rsps, rfl⟩ := hrsps
  exact ⟨rsps, hpre⟩

/-- hans writes to yoda, who then logs in: his outbuffer and his offline buffer have a frame
each. -/
def twoQueues : List Event :=
  acceptAndServe 5 [loginAs "hans" "falcon", messageTo "yoda" "hi"] ++
    acceptAndServe 6 [loginAs "yoda" "wise"]

/-- The offline frame is written in two pieces with nothing between them. -/
theorem output_framed_demo :
    ∃ s, ServerRun protobufWire demo DrainsFramed
        (twoQueues ++ [.writable 6 none (some 2), .writable 6 none (some 1)]) s ∧
      OutputFramed protobufWire s 1 := by
  obtain ⟨s, run, -⟩ := Run.exists_of_execute (step protobufWire) DrainsFramed demo.init
    (twoQueues ++ [.writable 6 none (some 2), .writable 6 none (some 1)]) (fun _ => True)
    (by decide +kernel)
  exact ⟨s, run, output_framed_run protobufWire run 1⟩

/-- One byte of each queue is written: the second frame begins inside the first one. -/
theorem not_output_framed :
    ¬ ∀ (ac : Achelper) (p : Setup) (es : List Event) (s : State), ServerRun ac p Always es s →
      ∀ c, OutputFramed ac s c := by
  intro h
  obtain ⟨s, run, hwire⟩ := Run.exists_of_execute (step protobufWire) Always demo.init
    (twoQueues ++ [.writable 6 (some 1) (some 1)])
    (fun s => Ledger.wire 1 (moves s.log) = [⟨.out 1, 0, 8⟩, ⟨.offline 1, 0, 8⟩] ∧
      ∀ p ∈ placed 0 (Ledger.frames (Queue.out 1) (moves s.log)), 1 ≠ p.1 + p.2.length)
    (by decide +kernel)
  obtain ⟨hwire, hlong⟩ := hwire
  rcases (h protobufWire demo _ s run 1).framed.second hwire with hqueue | ⟨p, hp, hlength⟩
  · cases hqueue
  · exact hlong p hp hlength

end EpollChat

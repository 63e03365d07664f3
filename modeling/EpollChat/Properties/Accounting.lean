import EpollChat.Properties.Drains

/-!
# The queues and their history

Every output queue holds exactly what the history says: what was put there, less what was
written, and bytes are only ever written off the front of a queue (`accounted_run`).  So
properties of output can be stated and proved about the history, where a message has a position
that stays.

A queue's entry names a connection that exists, and what is taken from an outbuffer goes to its
own connection.
-/

namespace EpollChat

variable (ac : Achelper)

/-- **Accounting.** The output queues are what the history says. -/
structure Accounted (s : State) : Prop where
  /-- Bytes are written off the front of the queues. -/
  valid : Ledger.Valid (moves s.log)
  /-- A queue holds what was put there and not yet written. -/
  contents : ∀ q, Ledger.contents q (moves s.log) = s.pending q
  /-- Nothing was put into the outbuffer of a connection that does not exist yet. -/
  fresh : ∀ c, s.nconns ≤ c → Ledger.frames (.out c) (moves s.log) = []
  /-- An outbuffer is written to its own connection. -/
  own : ∀ c d bs, .take (.out c) d bs ∈ moves s.log → d = c

/-- The outbuffer of a connection that does not exist yet is empty. -/
lemma Accounted.pending_fresh {s : State} (h : Accounted s) :
    s.pending (.out s.nconns) = [] := by
  rw [← h.contents, Ledger.contents, Ledger.stream, h.fresh s.nconns le_rfl]
  simp

/-- A queue is empty exactly if everything that was put there has been written. -/
lemma Accounted.pending_eq_nil_iff {s : State} (h : Accounted s) (q : Queue) :
    s.pending q = [] ↔
      Ledger.taken q (moves s.log) = (Ledger.stream q (moves s.log)).length := by
  have hle := h.valid.taken_le q
  rw [← h.contents, Ledger.contents, List.drop_eq_nil_iff]
  omega

/-! ## Adding -/

/-- The moves that add frames only. -/
def OnlyPuts (ms : List (Move Queue ConnId Why UInt8)) : Prop := ∀ q c bs, .take q c bs ∉ ms

lemma OnlyPuts.taken {ms : List (Move Queue ConnId Why UInt8)} (h : OnlyPuts ms) (q : Queue) :
    Ledger.taken q ms = 0 := by
  have htakes : Ledger.takes q ms = [] := by
    refine List.filterMap_eq_nil_iff.mpr fun m hm => ?_
    cases m with
    | put => rfl
    | take q' c bs => exact absurd hm (h q' c bs)
  rw [Ledger.taken, htakes]
  rfl

/-- What putting keeps, adding frames keeps. -/
lemma OnlyPuts.keeps {P : List (Move Queue ConnId Why UInt8) → Prop}
    (hput : ∀ l q t f, P l → P (l ++ [.put q t f])) {l ms : List (Move Queue ConnId Why UInt8)}
    (h : OnlyPuts ms) (hl : P l) : P (l ++ ms) := by
  induction ms generalizing l with
  | nil => simpa using hl
  | cons m ms ih =>
      have hrest : OnlyPuts ms := fun q c bs hmem => h q c bs (List.mem_cons_of_mem _ hmem)
      rw [List.append_cons]
      cases m with
      | put q t f => exact ih hrest (hput l q t f hl)
      | take q c bs => exact absurd List.mem_cons_self (h q c bs)

lemma mem_moves {m : Move Queue ConnId Why UInt8} {l : List Obs} :
    m ∈ moves l ↔ .move m ∈ l := by
  unfold moves
  rw [List.mem_filterMap]
  constructor
  · rintro ⟨o, ho, hm⟩
    cases o with
    | move m' =>
        obtain rfl := Option.some.inj hm
        exact ho
    | _ => cases hm
  · exact fun h => ⟨_, h, rfl⟩

lemma Queues.onlyPuts {s s' : State} {l : List Obs} (h : Queues s s' l) : OnlyPuts (moves l) :=
  fun q c bs hmem => h.no_take q c bs (mem_moves.mp hmem)

/-- The contents after adding are the contents before and what was added. -/
lemma contents_append_puts {l ms : List (Move Queue ConnId Why UInt8)} (hl : Ledger.Valid l)
    (h : OnlyPuts ms) (q : Queue) :
    Ledger.contents q (l ++ ms) = Ledger.contents q l ++ Ledger.stream q ms := by
  rw [Ledger.contents, Ledger.stream_append, Ledger.taken_append, h.taken, Nat.add_zero,
    List.drop_append_of_le_length (hl.taken_le q)]
  rfl

/-- A frame that an event queues goes to a connection that exists. -/
lemma lt_of_emits_put {s : State} (hs : TableOk s) {e : Event} {c : ConnId} {why : Why}
    {f : Bytes} (h : Emits ac s e (.move (.put (.out c) why f))) : c < s.nconns := by
  generalize hq : Queue.out c = q at h
  cases h with
  | reply req d rsp serves =>
      obtain rfl : c = d := by injection hq
      exact hs.clients_lt c (hs.serving_ok c serves).1
  | chat req d u v serves own live addressed heard =>
      exact hs.client_lt v c (sendTarget_eq_out hq.symm).1
  | loggedIn r d e u v rsp serves accepted other bound live =>
      obtain rfl : c = e := by injection hq
      exact hs.client_lt v c bound
  | loggedOut _ u v d rsp ends other bound live =>
      obtain rfl : c = d := by injection hq
      exact hs.client_lt v c bound
  | logOff d entry =>
      obtain rfl : c = d := by injection hq
      exact hs.clients_lt c entry

lemma frames_eq_nil_iff {q : Queue} {l : List (Move Queue ConnId Why UInt8)} :
    Ledger.frames q l = [] ↔ ∀ why f, .put q why f ∉ l := by
  unfold Ledger.frames
  rw [List.filterMap_eq_nil_iff]
  constructor
  · intro h why f hmem
    have := h _ hmem
    simp at this
  · intro h m hm
    cases m with
    | take => rfl
    | put q' why f =>
        have hne : q' ≠ q := by
          rintro rfl
          exact h why f hm
        simp [hne]

/-- Connections are only made. -/
lemma nconns_le_step {s s' : State} (hs : TableOk s) {e : Event} (h : step ac s e = some s') :
    s.nconns ≤ s'.nconns := by
  have hmoves := sessions_step_any ac hs h
  refine hmoves.invariant (P := fun t => s.nconns ≤ t.nconns) (fun t t' ht move => ?_) le_rfl
  cases move with
  | accept fd addr free idle =>
      have hnconns : (acceptClient t fd addr).sessions.nconns = t.nconns + 1 :=
        nconns_acceptClient t fd addr
      omega
  | active c serves =>
      rcases updateLastActive_eq t c with heq | ⟨w, -, -, heq⟩ <;> rw [heq] <;> exact ht
  | _ => exact ht

/-- What only adds keeps the account. -/
lemma Accounted.adds {s s' : State} (hs : TableOk s) (h : Accounted s) {e : Event}
    (hn : s.nconns ≤ s'.nconns) {l : List Obs} (hl : Queues s s' l)
    (hemits : ∀ o ∈ l, Emits ac s e o) : Accounted s' := by
  have hputs := hl.onlyPuts
  refine ⟨?_, fun q => ?_, fun c hc => ?_, fun c d bs hmem => ?_⟩
  · rw [hl.log, moves_append]
    exact hputs.keeps (fun _ q t f hl => .put q t f hl) h.valid
  · rw [hl.log, moves_append, contents_append_puts h.valid hputs, h.contents, hl.pending]
  · rw [hl.log, moves_append, Ledger.frames_append, h.fresh c (hn.trans hc), List.nil_append,
      frames_eq_nil_iff]
    intro why f hmem
    have hlt := lt_of_emits_put ac hs (hemits _ (mem_moves.mp hmem))
    exact absurd hlt (not_lt.mpr (hn.trans hc))
  · rw [hl.log, moves_append] at hmem
    rcases List.mem_append.mp hmem with hmem | hmem
    · exact h.own c d bs hmem
    · exact absurd hmem (hputs (.out c) d bs)

/-! ## Draining -/

/-- Draining one queue keeps the account. -/
lemma Accounted.drain {s : State} (h : Accounted s) {c : ConnId} {q : Queue} {n : Option ℕ}
    (hsent : sendResult (s.pending q).length n) (hq : ∀ d, q = .out d → d = c) :
    Accounted (imSendBuffer s c q n) := by
  have hpending := pending_imSendBuffer s c q n hsent
  have hnconns : (imSendBuffer s c q n).nconns = s.nconns := by
    have h' := congrArg State.nconns (core_imSendBuffer s c q n)
    exact h'
  have hbytes : (sentBytes s q n).length = n.getD 0 := by
    rw [sentBytes, List.length_take]
    cases n with
    | none => simp
    | some k => exact Nat.min_eq_left hsent
  rcases log_imSendBuffer s c q n with hlog | ⟨hlog, hnone⟩
  · have hmoves : moves (imSendBuffer s c q n).log =
        moves s.log ++ [.take q c (sentBytes s q n)] := by
      rw [hlog, moves_append, moves_move]
    have hpre : sentBytes s q n <+: Ledger.contents q (moves s.log) := by
      rw [h.contents]
      exact List.take_prefix _ _
    refine ⟨?_, fun q' => ?_, fun d hd => ?_, fun d e bs hmem => ?_⟩
    · rw [hmoves]
      exact .take q c _ h.valid hpre
    · rw [hmoves, hpending]
      by_cases hq' : q' = q
      · subst hq'
        rw [if_pos rfl, Ledger.contents_take_self, h.contents, hbytes]
      · rw [if_neg hq', Ledger.contents_take_of_ne _ _ (Ne.symm hq'), h.contents]
    · rw [hnconns] at hd
      rw [hmoves, Ledger.frames_append, Ledger.frames_take, h.fresh d hd]
      rfl
    · rw [hmoves] at hmem
      rcases List.mem_append.mp hmem with hmem | hmem
      · exact h.own d e bs hmem
      · obtain ⟨hqd, rfl, -⟩ : Queue.out d = q ∧ e = c ∧ bs = sentBytes s q n := by
          simpa using List.mem_singleton.mp hmem
        exact (hq d hqd.symm).symm
  · have hsame : moves (imSendBuffer s c q n).log = moves s.log := by rw [hlog]
    have hzero : n.getD 0 = 0 := by rw [← hbytes, hnone, List.length_nil]
    refine ⟨hsame ▸ h.valid, fun q' => ?_, fun d hd => ?_, fun d e bs hmem => ?_⟩
    · rw [hsame, h.contents, hpending, hzero]
      by_cases hq' : q' = q <;> simp [hq']
    · rw [hnconns] at hd
      rw [hsame, h.fresh d hd]
    · rw [hsame] at hmem
      exact h.own d e bs hmem

lemma Accounted.lock {s : State} (h : Accounted s) (c : ConnId) : Accounted (s.lock c) := by
  have hnconns : (s.lock c).nconns = s.nconns := by
    have h' := congrArg State.nconns (State.core_lock s c)
    exact h'
  refine ⟨?_, fun q => ?_, fun d hd => ?_, fun d e bs hmem => ?_⟩
  · rw [State.log_lock]
    exact h.valid
  · rw [State.log_lock, State.pending_lock, h.contents]
  · rw [hnconns] at hd
    rw [State.log_lock, h.fresh d hd]
  · rw [State.log_lock] at hmem
    exact h.own d e bs hmem

lemma accounted_afterFirst {s : State} (h : Accounted s) {c : ConnId} {n₁ n₂ : Option ℕ}
    (hresults : DrainResults s c n₁ n₂) : Accounted (afterFirst s c n₁) := by
  refine (h.lock c).drain ?_ fun d hd => ?_
  · rw [State.pending_lock]
    exact hresults.1
  · injection hd with hd
    exact hd.symm

/-- The first drain leaves the offline buffers alone. -/
lemma pending_afterFirst {s : State} {c : ConnId} {n₁ n₂ : Option ℕ}
    (hresults : DrainResults s c n₁ n₂) (u : UserId) :
    (afterFirst s c n₁).pending (.offline u) = s.pending (.offline u) := by
  unfold afterFirst
  rw [pending_imSendBuffer (s.lock c) c _ _ (by rw [State.pending_lock]; exact hresults.1),
    if_neg (by simp), State.pending_lock]

lemma accounted_networkWritable {s : State} (h : Accounted s) {c : ConnId} {n₁ n₂ : Option ℕ}
    (hresults : DrainResults s c n₁ n₂) : Accounted (networkWritable s c n₁ n₂) := by
  have hfirst := accounted_afterFirst h hresults
  have hunlock : ∀ t : State, Accounted t → Accounted (t.unlock c) := by
    intro t ht
    refine ⟨ht.valid, fun q => ?_, ht.fresh, ht.own⟩
    rw [State.pending_unlock]
    exact ht.contents q
  rw [networkWritable_eq]
  apply hunlock
  unfold drainOffline
  cases hu : inlineTest s c with
  | none => exact hfirst
  | some u =>
      refine hfirst.drain ?_ fun d hd => ?_
      · rw [pending_afterFirst hresults]
        exact hresults.2 u hu
      · cases hd

/-! ## All runs -/

lemma accounted_step {s s' : State} (hs : TableOk s) (h : Accounted s) {e : Event}
    (hstep : step ac s e = some s') : Accounted s' := by
  have hn := nconns_le_step ac hs hstep
  obtain ⟨henabled, -, rfl⟩ := (step_eq_some ac).mp hstep
  rcases exec_cases ac hs.server h.pending_fresh e with
    ⟨l, hl, hemits⟩ | ⟨fd, n₁, n₂, c, rfl, hpick, hexec⟩
  · exact h.adds ac hs hn hl hemits
  · obtain ⟨-, -, -, hresults⟩ := henabled
    rw [hexec]
    exact accounted_networkWritable h (hresults c hpick)

lemma Loaded.accounted {s : State} (hs : Loaded s) : Accounted s := by
  have hmoves : moves s.log = [] := by
    rw [hs.log]
    rfl
  refine ⟨?_, fun q => ?_, fun c _ => ?_, fun c d bs hmem => ?_⟩
  · rw [hmoves]
    exact .nil
  · rw [hmoves]
    cases q with
    | out c =>
        rw [State.pending, State.buf, hs.conn]
        rfl
    | offline u =>
        have hpending : s.pending (.offline u) = [] := (hs.users u).2.2
        rw [hpending]
        rfl
  · rw [hmoves]
    rfl
  · rw [hmoves] at hmem
    cases hmem

/-- **The queues are what the history says, in every run.** -/
theorem accounted_run {p : Setup} {ok : State → Event → Prop} {es : List Event} {s : State}
    (run : ServerRun ac p ok es s) : Accounted s :=
  run.invariant_of (loaded_init p).accounted (fun run => tableOk_run ac run)
    fun hs h _ hstep => accounted_step ac hs h hstep

end EpollChat

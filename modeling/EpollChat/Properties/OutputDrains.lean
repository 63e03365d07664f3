import EpollChat.Properties.Accounting
import EpollChat.Properties.Completion
import EpollChat.Properties.StrandedOutput

/-!
# Output that drains

`NoStranded` says that a connection with output waiting asks for `EPOLLOUT`.  This is exactly
what it takes for the output to leave the server.  While users and connections are paired,
`EPOLLOUT` reports alone bring out everything that waits for the open connections if and only if
nothing is stranded (`output_drains_iff`).

Full drains of one connection after the other do it.  Bytes that are stranded are not brought out
by any number of reports: no report drains a queue through a connection that is not its own.
-/

namespace EpollChat

variable (ac : Achelper)

/-- The event is an `EPOLLOUT` report. -/
def Event.isWritable : Event → Bool
  | .writable .. => true
  | _ => false

/-- The queues whose bytes are for the connection: its outbuffer, and the offline buffer of its
user as long as he is logged in. -/
def Feeds (s : State) (c : ConnId) : Queue → Prop
  | .out d => d = c
  | .offline u => (s.conn c).user = some u ∧ Live s u

lemma waits_iff_feeds {s : State} {c : ConnId} :
    Waits (Live s) s c ↔ ∃ q, Feeds s c q ∧ s.pending q ≠ [] := by
  constructor
  · rintro (hout | ⟨u, hu, hlive, hoff⟩)
    · exact ⟨.out c, rfl, hout⟩
    · exact ⟨.offline u, ⟨hu, hlive⟩, hoff⟩
  · rintro ⟨d | u, hfeeds, hne⟩
    · obtain rfl : d = c := hfeeds
      exact .inl hne
    · exact .inr ⟨u, hfeeds.1, hfeeds.2, hne⟩

lemma feeds_iff_of_core {s t : State} (h : t.core = s.core) (c : ConnId) (q : Queue) :
    Feeds t c q ↔ Feeds s c q := by
  cases q with
  | out d => exact Iff.rfl
  | offline u => rw [Feeds, Feeds, user_eq_of_core h, Live, isUserLoggedIn_congr h, Live]

/-! ## One report -/

/-- A completed report drains the open connection it is for, and the connection has asked for
it. -/
lemma step_writable {s s' : State} (hs : TableOk s) {e : Event} (hwritable : e.isWritable = true)
    (h : step ac s e = some s') :
    ∃ c n₁ n₂, s.IsOpen c ∧ s.epoll (s.conn c).fd = some true ∧ DrainResults s c n₁ n₂ ∧
      s' = networkWritable s c n₁ n₂ := by
  cases e with
  | writable fd n₁ n₂ =>
      obtain ⟨⟨-, hsock, hasked, hresults⟩, -, rfl⟩ := (step_eq_some ac).mp h
      obtain ⟨c, hc⟩ := Option.ne_none_iff_exists'.mp hsock
      have hpick := hs.pickConn_of_sock hc
      refine ⟨c, n₁, n₂, hs.isOpen_of_pickConn hsock hpick, ?_, hresults c hpick, ?_⟩
      · rw [(pickConn_some hpick).2]
        exact hasked
      · simp only [exec, hpick]
  | _ => cases hwritable

/-- A drain puts nothing into a queue. -/
lemma stream_networkWritable (s : State) (c : ConnId) (n₁ n₂ : Option ℕ) (q : Queue) :
    Ledger.stream q (moves (networkWritable s c n₁ n₂).log) = Ledger.stream q (moves s.log) := by
  obtain ⟨l, hlog, hwrites⟩ := log_networkWritable s c n₁ n₂
  have hnone : Ledger.frames q (moves l) = [] := by
    refine frames_eq_nil_iff.mpr fun why f hmem => ?_
    cases hwrites _ (mem_moves.mp hmem)
  have hempty : Ledger.stream q (moves l) = [] := by
    rw [Ledger.stream, hnone]
    rfl
  rw [hlog, moves_append, Ledger.stream_append, hempty, List.append_nil]

/-! ## Stranded bytes -/

/-- Bytes wait for an open connection that does not ask for `EPOLLOUT`. -/
structure Stranded (s : State) (c : ConnId) (q : Queue) : Prop where
  isOpen : s.IsOpen c
  unasked : s.epoll (s.conn c).fd ≠ some true
  feeds : Feeds s c q
  waiting : s.pending q ≠ []

/-- A drain is for another connection, which has no queue in common with this one. -/
lemma Stranded.drain {s : State} {c : ConnId} {q : Queue} (h : Stranded s c q)
    (hpaired : SessionsPaired s) {d : ConnId} (hd : s.IsOpen d)
    (hasked : s.epoll (s.conn d).fd = some true) {n₁ n₂ : Option ℕ}
    (hresults : DrainResults s d n₁ n₂) :
    Stranded (networkWritable s d n₁ n₂) c q ∧
      (networkWritable s d n₁ n₂).pending q = s.pending q := by
  have hcore := core_networkWritable s d n₁ n₂
  have hne : c ≠ d := by
    rintro rfl
    exact h.unasked hasked
  have hfd : (s.conn c).fd ≠ (s.conn d).fd := fun hfd =>
    hne (State.IsOpen.eq_of_fd h.isOpen hd hfd)
  have hout : q ≠ .out d := by
    rintro rfl
    exact hne (show d = c from h.feeds).symm
  have hoffline : ¬ ∃ u, inlineTest s d = some u ∧ q = .offline u := by
    rintro ⟨u, htest, rfl⟩
    have hc := (hpaired.paired u c).mpr h.feeds.1
    have hd := (hpaired.paired u d).mpr (user_of_inlineTest htest)
    exact hne (Option.some.inj (hc.symm.trans hd))
  have hpending : (networkWritable s d n₁ n₂).pending q = s.pending q := by
    rw [pending_networkWritable hresults, if_neg hout, if_neg hoffline]
  refine ⟨⟨(isOpen_iff_of_core hcore c).mpr h.isOpen, ?_, (feeds_iff_of_core hcore c q).mpr h.feeds,
    hpending ▸ h.waiting⟩, hpending⟩
  rw [fd_eq_of_core hcore, epoll_networkWritable hresults, if_neg fun h' => hfd h'.1]
  exact h.unasked

/-! ## Full drains -/

/-- A ready server that reads no connection completes every drain of an open connection that asks
for it. -/
lemma step_drain {s : State} (hs : TableOk s) (hready : Ready s) (hgone : FreedGone s)
    (idle : s.serving = none) {c : ConnId} (hopen : s.IsOpen c)
    (hasked : s.epoll (s.conn c).fd = some true) {n₁ n₂ : Option ℕ}
    (hresults : DrainResults s c n₁ n₂) :
    step ac s (.writable (s.conn c).fd n₁ n₂) = some (networkWritable s c n₁ n₂) := by
  have hpick : pickConn s (s.conn c).fd = some c := hs.pickConn_of_sock hopen
  have hexec : exec ac s (.writable (s.conn c).fd n₁ n₂) = networkWritable s c n₁ n₂ := by
    simp only [exec, hpick]
  have henabled : enabled s (.writable (s.conn c).fd n₁ n₂) := by
    refine ⟨idle, ?_, hasked, fun d hd => ?_⟩
    · rw [show s.sock (s.conn c).fd = some c from hopen]
      exact Option.some_ne_none c
    · obtain rfl := Option.some.inj (hpick.symm.trans hd)
      exact hresults
  have hfault := ((hready.exec_iff ac hs hgone (.writable (s.conn c).fd n₁ n₂)).mpr trivial).1
  rw [hexec] at hfault
  exact (step_eq_some ac).mpr ⟨henabled, hfault, hexec⟩

section Full

variable {s : State} {c : ConnId} {n₁ n₂ : Option ℕ} (hresults : DrainResults s c n₁ n₂)
  (hout : restLength s (.out c) n₁ = 0)
  (hoffline : ∀ u, inlineTest s c = some u → restLength s (.offline u) n₂ = 0)
include hresults hout hoffline

/-- After `send` has taken all, nothing waits for the connection, and for no other one more than
before. -/
lemma waits_of_full {d : ConnId}
    (h : Waits (Live (networkWritable s c n₁ n₂)) (networkWritable s c n₁ n₂) d) :
    d ≠ c ∧ Waits (Live s) s d := by
  have hne : d ≠ c := by
    rintro rfl
    rcases (waits_networkWritable_iff hresults).mp h with hrest | ⟨u, hu, -, hrest⟩
    · exact hrest hout
    · exact hrest (hoffline u hu)
  exact ⟨hne, waits_of_networkWritable hresults hne h⟩

/-- Nobody is stranded by it. -/
lemma noStranded_of_full (hopen : s.IsOpen c) (h : NoStranded s) :
    NoStranded (networkWritable s c n₁ n₂) := by
  intro d hd hwaits
  have hcore := core_networkWritable s c n₁ n₂
  obtain ⟨hne, hbefore⟩ := waits_of_full hresults hout hoffline hwaits
  rw [isOpen_iff_of_core hcore] at hd
  have hfd : (s.conn d).fd ≠ (s.conn c).fd := fun hfd => hne (State.IsOpen.eq_of_fd hd hopen hfd)
  rw [fd_eq_of_core hcore, epoll_networkWritable hresults, if_neg fun h' => hfd h'.1]
  exact h d hd hbefore

end Full

/-- `send` may take all that it is given, and then leaves nothing. -/
lemma exists_full (s : State) (c : ConnId) :
    ∃ n₁ n₂, DrainResults s c n₁ n₂ ∧ restLength s (.out c) n₁ = 0 ∧
      ∀ u, inlineTest s c = some u → restLength s (.offline u) n₂ = 0 := by
  refine ⟨some (s.pending (.out c)).length,
    (inlineTest s c).map fun u => (s.pending (.offline u)).length, ⟨le_rfl, fun u hu => ?_⟩, ?_,
    fun u hu => ?_⟩
  · rw [Option.mem_def] at hu
    rw [hu]
    exact le_rfl
  · simp [restLength]
  · simp [restLength, hu]

/-! ## Runs of reports -/

section Reports

variable {p : Setup} {es es' : List Event} {s t : State}

/-- What `EPOLLOUT` reports leave alone. -/
structure Reported (p : Setup) (s t : State) : Prop where
  reached : ∃ es, ServerRun ac p (LoginsMeet BindsFree) es t
  core : t.core = s.core
  stream : ∀ q, Ledger.stream q (moves t.log) = Ledger.stream q (moves s.log)

variable {ac}

/-- One more report. -/
lemma Reported.next (h : Reported ac p s t) {e : Event} {t' : State}
    (hwritable : e.isWritable = true) (hstep : step ac t e = some t') : Reported ac p s t' := by
  obtain ⟨es, run⟩ := h.reached
  have hok : LoginsMeet BindsFree t e := by
    cases e with
    | writable => trivial
    | _ => cases hwritable
  obtain ⟨c, n₁, n₂, -, -, -, rfl⟩ := step_writable ac (tableOk_run ac run) hwritable hstep
  exact ⟨⟨_, run.snoc hok hstep⟩, (core_networkWritable t c n₁ n₂).trans h.core, fun q =>
    (stream_networkWritable t c n₁ n₂ q).trans (h.stream q)⟩

/-- Stranded bytes stay where they are. -/
lemma Stranded.reports {c : ConnId} {q : Queue} (h : Stranded s c q) (hs : Reported ac p s s)
    (run : Run (step ac) (fun _ e => e.isWritable = true) s es' t) :
    Reported ac p s t ∧ Stranded t c q ∧ t.pending q = s.pending q := by
  refine run.invariant
    (P := fun t => Reported ac p s t ∧ Stranded t c q ∧ t.pending q = s.pending q) ⟨hs, h, rfl⟩ ?_
  rintro t e t' ⟨ht, hstranded, hpending⟩ hwritable hstep
  refine ⟨ht.next hwritable hstep, ?_⟩
  obtain ⟨es, run⟩ := ht.reached
  obtain ⟨d, n₁, n₂, hd, hasked, hresults, rfl⟩ :=
    step_writable ac (tableOk_run ac run) hwritable hstep
  exact (hstranded.drain (ready_run ac run).paired hd hasked hresults).imp_right
    fun hdrained => hdrained.trans hpending

/-- The connections that something waits for are drained one after the other. -/
lemma exists_drained (l : List ConnId) {t : State} (ht : Reported ac p s t)
    (run : Run (step ac) (fun _ e => e.isWritable = true) s es' t)
    (idle : t.serving = none) (h : NoStranded t)
    (hl : ∀ c, t.IsOpen c → Waits (Live t) t c → c ∈ l) :
    ∃ es'' t', Run (step ac) (fun _ e => e.isWritable = true) s es'' t' ∧
      Reported ac p s t' ∧ ∀ c, t'.IsOpen c → ¬ Waits (Live t') t' c := by
  induction l generalizing es' t with
  | nil => exact ⟨es', t, run, ht, fun c hopen hwaits => List.not_mem_nil (hl c hopen hwaits)⟩
  | cons c l ih =>
      by_cases hc : t.IsOpen c ∧ Waits (Live t) t c
      · obtain ⟨hopen, hwaits⟩ := hc
        obtain ⟨es, trun⟩ := ht.reached
        obtain ⟨n₁, n₂, hresults, hout, hoffline⟩ := exists_full t c
        have hcore := core_networkWritable t c n₁ n₂
        have hstep := step_drain ac (tableOk_run ac trun) (ready_run ac trun)
          (freedGone_run ac trun) idle hopen (h c hopen hwaits) hresults
        have idle' : (networkWritable t c n₁ n₂).serving = none := by
          have hserving := congrArg State.serving hcore
          exact Eq.trans hserving idle
        refine ih (ht.next rfl hstep) (run.snoc rfl hstep) idle'
          (noStranded_of_full hresults hout hoffline hopen h) fun d hd hdwaits => ?_
        obtain ⟨hne, hbefore⟩ := waits_of_full hresults hout hoffline hdwaits
        rw [isOpen_iff_of_core hcore] at hd
        exact (List.mem_cons.mp (hl d hd hbefore)).resolve_left hne
      · refine ih ht run idle h fun d hd hdwaits => ?_
        refine (List.mem_cons.mp (hl d hd hdwaits)).resolve_left ?_
        rintro rfl
        exact hc ⟨hd, hdwaits⟩

variable (ac)

/-- **Output drains exactly if none is stranded.** In every run whose accepted logins bind free
users to free open connections, with no connection being read: some sequence of `EPOLLOUT`
reports ends with all bytes written that were queued for the open connections, if and only if every
one of them that output waits for asks for `EPOLLOUT`.  What waits for one that does not is left as
it is by every sequence of reports. -/
theorem output_drains_iff (run : ServerRun ac p (LoginsMeet BindsFree) es s)
    (idle : s.serving = none) :
    ((∃ es' t, Run (step ac) (fun _ e => e.isWritable = true) s es' t ∧
      ∀ c, s.IsOpen c → ∀ q, Feeds s c q →
        Ledger.taken q (moves t.log) = (Ledger.stream q (moves s.log)).length) ↔
      NoStranded s) ∧
      ∀ c q, Stranded s c q → ∀ es' t, Run (step ac) (fun _ e => e.isWritable = true) s es' t →
        t.pending q = s.pending q := by
  have hs : Reported ac p s s := ⟨⟨es, run⟩, rfl, fun _ => rfl⟩
  refine ⟨?_, fun c q h es' t reports => (h.reports hs reports).2.2⟩
  constructor
  · rintro ⟨es', t, reports, hwritten⟩ c hopen hwaits
    by_contra hunasked
    obtain ⟨q, hfeeds, hne⟩ := waits_iff_feeds.mp hwaits
    obtain ⟨ht, hstranded, -⟩ := Stranded.reports ⟨hopen, hunasked, hfeeds, hne⟩ hs reports
    obtain ⟨_, trun⟩ := ht.reached
    refine hstranded.waiting ((accounted_run ac trun).pending_eq_nil_iff q |>.mpr ?_)
    rw [ht.stream]
    exact hwritten c hopen q hfeeds
  · intro h
    have htable := tableOk_run ac run
    obtain ⟨es', t, reports, ht, hnothing⟩ := exists_drained s.clients hs .nil idle h
      fun c hopen _ => (htable.sock_ok _ c hopen).1
    refine ⟨es', t, reports, fun c hopen q hfeeds => ?_⟩
    obtain ⟨_, trun⟩ := ht.reached
    rw [← ht.stream, ← (accounted_run ac trun).pending_eq_nil_iff q]
    by_contra hne
    refine hnothing c ((isOpen_iff_of_core ht.core c).mpr hopen) (waits_iff_feeds.mpr ⟨q, ?_, hne⟩)
    exact (feeds_iff_of_core ht.core c q).mpr hfeeds

end Reports

/-- `send` takes one byte of the answer to a login, and no reports bring out the rest. -/
theorem output_drains_iff_partial_send :
    ∃ s, ServerRun protobufWire demo (LoginsMeet BindsFree)
        (acceptAndServe 5 [loginAs "hans" "falcon"] ++ [.writable 5 (some 1) none]) s ∧
      s.IsOpen 0 ∧ s.pending (.out 0) ≠ [] ∧
      (¬ ∃ es' t, Run (step protobufWire) (fun _ e => e.isWritable = true) s es' t ∧
        ∀ c, s.IsOpen c → ∀ q, Feeds s c q →
          Ledger.taken q (moves t.log) = (Ledger.stream q (moves s.log)).length) ∧
      ∀ es' t, Run (step protobufWire) (fun _ e => e.isWritable = true) s es' t →
        t.pending (.out 0) = s.pending (.out 0) := by
  obtain ⟨s, run, hidle, hopen, hout, hunasked⟩ := Run.exists_of_execute (step protobufWire)
    (LoginsMeet BindsFree) demo.init
    (acceptAndServe 5 [loginAs "hans" "falcon"] ++ [.writable 5 (some 1) none])
    (fun s => s.serving = none ∧ s.IsOpen 0 ∧ s.pending (.out 0) ≠ [] ∧
      s.epoll (s.conn 0).fd ≠ some true) (by decide +kernel)
  obtain ⟨hdrain, hleft⟩ := output_drains_iff protobufWire run hidle
  refine ⟨s, run, hopen, hout, fun hdrains => hunasked ?_, hleft 0 _ ⟨hopen, hunasked, rfl, hout⟩⟩
  exact hdrain.mp hdrains 0 hopen (.inl hout)

end EpollChat

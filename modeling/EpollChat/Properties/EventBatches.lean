import EpollChat.Construction.Threads
import EpollChat.Properties.History
import EpollChat.Properties.WireRefinement

/-!
# Batches of reports are handled as if they were current

`network_thread` handles a report some time after `epoll_wait` returned it, and without looking
again.  What makes this work is that no two reports of a batch are about one descriptor, and that
nothing that happens to other descriptors takes a report back: closing a connection closes its own
descriptor only, a new connection gets a number that is not in use, and a delivery to a connection
only ever asks for `EPOLLOUT`.  So a report is still current when its turn comes, although numbers
are used again within a batch and `time_thread` runs in between.

`threads_refine` is the consequence: every run of the threads, on bytes and on batches, is a run
of `Construction/Server.lean`.
-/

namespace EpollChat

variable (ac : Achelper)

/-! ## What is kept of a descriptor -/

/-- What is reported of a descriptor in `s` is so in `t`. -/
structure Stays (fd : ℕ) (s t : State) : Prop where
  sock : s.sock fd ≠ none → t.sock fd ≠ none
  epoll : s.sock fd ≠ none → s.epoll fd = some true → t.epoll fd = some true

namespace Stays

variable {fd : ℕ} {s t t' : State}

lemma refl (fd : ℕ) (s : State) : Stays fd s s := ⟨id, fun _ h => h⟩

lemma trans (h : Stays fd s t) (h' : Stays fd t t') : Stays fd s t' :=
  ⟨fun hs => h'.sock (h.sock hs), fun hs he => h'.epoll (h.sock hs) (h.epoll hs he)⟩

/-- A change of neither. -/
lemma of_eq (hsock : t.sock = s.sock) (hepoll : t.epoll = s.epoll) : Stays fd s t :=
  ⟨fun h => hsock ▸ h, fun _ h => hepoll ▸ h⟩

lemma current {r : EpollEvent} (h : ∀ fd, r.fd? = some fd → Stays fd s t) (hr : Current s r) :
    Current t r := by
  match r with
  | .failed fd => exact (h fd rfl).sock hr
  | .listening => trivial
  | .input fd => exact (h fd rfl).sock hr
  | .output fd => exact ⟨(h fd rfl).sock hr.1, (h fd rfl).epoll hr.1 hr.2⟩

/-- A delivery asks for `EPOLLOUT`, if anything. -/
lemma deliver (fd : ℕ) (s : State) (d : Delivery) : Stays fd s (deliver ac s d) where
  sock h := by rwa [sock_eq_of_core (core_deliver ac s d)]
  epoll _ h := by
    rw [epoll_deliver]
    split <;> simp [h]

lemma deliverAll (fd : ℕ) (s : State) (ds : List Delivery) : Stays fd s (deliverAll ac s ds) := by
  induction ds generalizing s with
  | nil => exact .refl fd s
  | cons d ds ih => exact (Stays.deliver ac fd s d).trans (ih _)

lemma touch (fd : ℕ) (s : State) (c : ConnId) : Stays fd s (s.touch c) := by
  unfold State.touch
  split
  · exact .of_eq rfl rfl
  · exact .refl fd s

lemma lock (fd : ℕ) (s : State) (c : ConnId) : Stays fd s (s.lock c) := by
  unfold State.lock
  split <;> exact .of_eq rfl rfl

lemma logoutUser (hserver : s.isServer = true) (fd : ℕ) (o : Option UserId) :
    Stays fd s (logoutUser ac s o) := by
  rcases o with _ | u
  · exact .refl fd s
  rcases hc : (s.users u).client with _ | c
  · rw [logoutUser_of_none ac hc]
    exact .refl fd s
  · rw [logoutUser_of_client ac hserver hc]
    have hunlink : Stays fd (s.touch c) (unlink (s.touch c) u c) := .of_eq rfl rfl
    exact ((touch fd s c).trans hunlink).trans (deliverAll ac fd _ _)

/-- Closing a connection closes its own descriptor. -/
lemma closeSocket (hserver : s.isServer = true) {c : ConnId} (hne : fd ≠ (s.conn c).fd) :
    Stays fd s (closeSocket ac s c) := by
  have hcore : ((s.touch c).lock c).core = s.core := by simp
  have hconn : ((s.touch c).lock c).conn = s.conn := by simp
  have hkept := congrArg State.isServer hcore
  have hserver' : ((s.touch c).lock c).isServer = true := Eq.trans hkept hserver
  have hlogout := (touch fd s c).trans ((lock fd _ c).trans
    (logoutUser ac hserver' fd (s.conn c).user))
  unfold EpollChat.closeSocket
  simp only [hconn, fd_logoutUser]
  refine hlogout.trans ⟨fun h => ?_, fun _ h => ?_⟩
  · simpa [State.unlock, Function.update_of_ne hne] using h
  · simpa [State.unlock, Function.update_of_ne hne] using h

lemma hangup (hserver : s.isServer = true) {fd' : ℕ} (hne : fd ≠ fd') :
    Stays fd s (exec ac s (.hangup fd')) := by
  rw [exec]
  split
  · next c hpick => exact closeSocket ac hserver ((pickConn_some hpick).2 ▸ hne)
  · exact .refl fd s

/-- A new connection gets a number that is not in use. -/
lemma accept {fd' : ℕ} (hfree : s.sock fd' = none) (addr : SockAddr) :
    Stays fd s (exec ac s (.accept fd' addr)) := by
  obtain ⟨_, _, heq⟩ := acceptClient_eq s fd' addr
  rw [exec, heq]
  have hne : s.sock fd ≠ none → fd ≠ fd' := fun h heq => h (heq ▸ hfree)
  refine ⟨fun h => ?_, fun h he => ?_⟩
  · show Function.update s.sock fd' _ fd ≠ none
    rwa [Function.update_of_ne (hne h)]
  · show Function.update s.epoll fd' _ fd = some true
    rwa [Function.update_of_ne (hne h)]

lemma sweep (hserver : s.isServer = true) (fd : ℕ) : Stays fd s (exec ac s .sweep) := by
  show Stays fd s (timeThread ac s)
  unfold timeThread
  generalize s.clients = l
  induction l generalizing s with
  | nil => exact .refl fd s
  | cons c l ih =>
      have hround : Stays fd s (sweepClient ac s c) := by
        unfold sweepClient
        split
        · rw [sendResponseToClient_eq]
          exact (logoutUser ac hserver fd _).trans (deliver ac fd _ _)
        · exact .refl fd s
      exact hround.trans (ih ((fewer_sweepClient ac s c).server.trans hserver))

end Stays

/-! ## A current report can be handled -/

/-- The kernel can cause the event in this state. -/
def Possible (s : State) : WiredEvent Event Unit → Prop
  | .other e => enabled s e
  | .recv fd _ => enabled s (.readable fd)
  | .round _ => True

lemma bare_step {s : State} {e : Event} (h : enabled s e) :
    (bareServer ac).step s e = step ac s e := by
  show (if (exec ac s e).fault = none then _ else _) = _
  unfold step
  simp [h]

/-- An event that the kernel can cause is the same event of the server on bytes. -/
lemma step_of_possible {w w' : Wired State} {e : WiredEvent Event Unit}
    (h : Possible w.program e) (hstep : w.step (bareServer ac) e = some w') :
    w.step (serverEndpoint ac) e = some w' := by
  match e with
  | .other e =>
      unfold Wired.step at hstep ⊢
      dsimp only at hstep ⊢
      rw [bare_step ac h] at hstep
      exact hstep
  | .recv fd .closed =>
      have heof : (bareServer ac).step w.program (.eof fd) = _ := bare_step ac h
      simp only [Wired.step, Wired.recv] at hstep ⊢
      rw [show (bareServer ac).eof fd = Event.eof fd from rfl, heof] at hstep
      exact hstep
  | .recv fd (.data bytes) =>
      have hreadable : (bareServer ac).step w.program (.readable fd) = _ := bare_step ac h
      simp only [Wired.step, Wired.recv] at hstep ⊢
      rw [show (bareServer ac).readable fd = Event.readable fd from rfl, hreadable] at hstep
      exact hstep
  | .recv fd .error =>
      have hreadable : (bareServer ac).step w.program (.readable fd) = _ := bare_step ac h
      simp only [Wired.step, Wired.recv] at hstep ⊢
      rw [show (bareServer ac).readable fd = Event.readable fd from rfl, hreadable] at hstep
      exact hstep
  | .round i =>
      obtain ⟨c, hserving, hstep⟩ := Option.bind_eq_some_iff.mp hstep
      refine Option.bind_eq_some_iff.mpr ⟨c, hserving, ?_⟩
      -- the handler leaves the connection that is being read
      have hdone : ∀ s : State, s.serving = some c →
          (bareServer ac).step s .readDone = step ac s .readDone := fun s hs =>
        bare_step ac (by simp [enabled, hs])
      have hhandled :
          (handleOnce ((bareServer ac).receiver i c) w.program (w.inbuffer c).pending).1.serving =
            w.program.serving := orderly_server.handler i c w.program _
      dsimp only at hstep ⊢
      rw [show (bareServer ac).readDone = Event.readDone from rfl, hdone _ hserving,
        hdone _ (hhandled.trans hserving)] at hstep
      exact hstep

/-- What the loop does about a report. -/
lemma handling_cases {s : State} {r : EpollEvent} {a : Answer} {o : Option (WiredEvent Event Unit)}
    {goesOn : Bool} (h : handling s r a = some (o, goesOn)) :
    (∃ fd, r = .failed fd ∧ o = some (.other (.hangup fd)) ∧ goesOn = true) ∨
      (∃ fd addr, r = .listening ∧ s.sock fd = none ∧ o = some (.other (.accept fd addr)) ∧
        goesOn = true) ∨
      (∃ fd nbytes, r = .input fd ∧ o = some (.recv fd nbytes) ∧ goesOn = false) ∨
      (∃ fd n₁ n₂, r = .output fd ∧ sendResults s fd n₁ n₂ ∧
        o = some (.other (.writable fd n₁ n₂)) ∧ goesOn = false) ∨
      o = none := by
  unfold handling at h
  split at h
  · next fd =>
      split at h
      · simp only [Option.some.injEq, Prod.mk.injEq] at h
        exact .inl ⟨fd, rfl, h.1.symm, h.2.symm⟩
      · simp_all
  · simp_all
  · next fd addr =>
      split at h
      · next hfree =>
          simp only [Option.some.injEq, Prod.mk.injEq] at h
          exact .inr (.inl ⟨fd, addr, rfl, hfree, h.1.symm, h.2.symm⟩)
      · simp at h
  · next fd nbytes =>
      split at h
      · simp only [Option.some.injEq, Prod.mk.injEq] at h
        exact .inr (.inr (.inl ⟨fd, nbytes, rfl, h.1.symm, h.2.symm⟩))
      · simp_all
  · next fd n₁ n₂ =>
      split at h
      · split at h
        · next hsent =>
            simp only [Option.some.injEq, Prod.mk.injEq] at h
            exact .inr (.inr (.inr (.inl ⟨fd, n₁, n₂, rfl, hsent, h.1.symm, h.2.symm⟩)))
        · simp at h
      · simp_all
  · simp at h

/-! ## The batch stays current -/

/-- The reports that are left are current and about different descriptors, and while there are
some no connection is being read. -/
structure BatchCurrent (t : Threads) : Prop where
  idle : t.batch ≠ [] → t.wired.program.serving = none
  current : ∀ r ∈ t.batch, Current t.wired.program r
  distinct : (t.batch.filterMap EpollEvent.fd?).Nodup

/-- The event of the program that a thread event is. -/
def wiredEvents (t : Threads) (e : ThreadEvent) : List (WiredEvent Event Unit) :=
  ((t.does e).bind Prod.snd).toList

/-- A thread event, with the event of the program that it is. -/
lemma threads_step_cases {t t' : Threads} {e : ThreadEvent} (hstep : t.step ac e = some t') :
    (∃ batch, t.does e = some (batch, none) ∧ t' = { t with batch }) ∨
      ∃ batch e' wired, t.does e = some (batch, some e') ∧
        t.wired.step (bareServer ac) e' = some wired ∧ t' = ⟨wired, batch⟩ := by
  obtain ⟨⟨batch, o⟩, hdoes, hstep⟩ := Option.bind_eq_some_iff.mp hstep
  rcases o with _ | e'
  · exact .inl ⟨batch, hdoes, (Option.some.inj hstep).symm⟩
  · obtain ⟨wired, hwired, hstep⟩ := Option.bind_eq_some_iff.mp hstep
    exact .inr ⟨batch, e', wired, hdoes, hwired, (Option.some.inj hstep).symm⟩

/-- Reports that are left in a batch, after what an event does to other descriptors. -/
lemma BatchCurrent.of_stays {t : Threads} (h : BatchCurrent t) {wired : Wired State}
    {batch : List EpollEvent} (hsub : batch.Sublist t.batch)
    (hserving : wired.program.serving = t.wired.program.serving)
    (hstays : ∀ r ∈ batch, ∀ fd, r.fd? = some fd →
      Stays fd t.wired.program wired.program) : BatchCurrent ⟨wired, batch⟩ where
  idle hne := hserving.trans (h.idle fun hnil => hne (List.sublist_nil.mp (hnil ▸ hsub)))
  current r hr := Stays.current (hstays r hr) (h.current r (hsub.subset hr))
  distinct := h.distinct.sublist (hsub.filterMap _)

lemma batchCurrent_nil (wired : Wired State) : BatchCurrent ⟨wired, []⟩ :=
  ⟨fun h => absurd rfl h, fun _ h => absurd h List.not_mem_nil, .nil⟩

/-- An event that reads nothing is a step of the server. -/
lemma step_of_other {w w' : Wired State} {e : Event} (h : enabled w.program e)
    (hstep : w.step (bareServer ac) (.other e) = some w') :
    step ac w.program e = some w'.program ∧ w'.program.serving = w.program.serving := by
  have hguarded := step_of_possible ac (e := .other e) h hstep
  unfold Wired.step at hguarded
  dsimp only at hguarded
  split at hguarded
  · cases hguarded
  next hread =>
  obtain ⟨program, hprogram, rfl⟩ := Option.map_eq_some_iff.mp hguarded
  exact ⟨hprogram, orderly_server.other (by simpa using hread) hprogram⟩

/-- An event that reads nothing, and what it does to the descriptors of the reports left. -/
lemma BatchCurrent.other {t : Threads} (h : BatchCurrent t) {e : Event} {wired : Wired State}
    {batch : List EpollEvent} (henabled : enabled t.wired.program e)
    (hwired : t.wired.step (bareServer ac) (.other e) = some wired)
    (hsub : batch.Sublist t.batch)
    (hstays : ∀ r ∈ batch, ∀ fd, r.fd? = some fd →
      Stays fd t.wired.program (exec ac t.wired.program e)) : BatchCurrent ⟨wired, batch⟩ := by
  obtain ⟨hexec, hserving⟩ := step_of_other ac henabled hwired
  obtain ⟨-, -, hprogram⟩ := (step_eq_some ac).mp hexec
  exact h.of_stays hsub hserving (hprogram ▸ hstays)

/-- A thread event that is no event of the program: `epoll_wait` returns, or nothing can be done
about a report. -/
lemma BatchCurrent.silent {t : Threads} (h : BatchCurrent t) {e : ThreadEvent}
    {batch : List EpollEvent} (hdoes : t.does e = some (batch, none)) :
    BatchCurrent { t with batch } := by
  match e with
  | .wait reports =>
      simp only [Threads.does, Option.ite_none_right_eq_some, Option.some.injEq, Prod.mk.injEq,
        and_true] at hdoes
      obtain ⟨⟨-, hserving, -, hcurrent, hdistinct⟩, rfl⟩ := hdoes
      exact ⟨fun _ => hserving, hcurrent, hdistinct⟩
  | .next a =>
      unfold Threads.does at hdoes
      dsimp only at hdoes
      rcases hbatch : t.batch with _ | ⟨r, rest⟩ <;> rw [hbatch] at hdoes
      · cases hdoes
      obtain ⟨⟨o, goesOn⟩, -, heq⟩ := Option.map_eq_some_iff.mp hdoes
      have hsub : batch.Sublist t.batch := by
        rw [← (Prod.mk.inj heq).1, hbatch]
        split
        · exact List.sublist_cons_self r rest
        · exact List.nil_sublist _
      exact h.of_stays hsub rfl fun _ _ fd _ => .refl fd _
  | .round | .sweep | .tick seconds =>
      simp [Threads.does] at hdoes

/-- The first report of a current batch is handled. -/
lemma BatchCurrent.handled {t : Threads} (hserver : t.wired.program.isServer = true)
    (h : BatchCurrent t) {r : EpollEvent} {rest : List EpollEvent} (hbatch : t.batch = r :: rest)
    {a : Answer} {e : WiredEvent Event Unit} {goesOn : Bool}
    (hhandling : handling t.wired.program r a = some (some e, goesOn)) {wired : Wired State}
    (hwired : t.wired.step (bareServer ac) e = some wired) :
    Possible t.wired.program e ∧ BatchCurrent ⟨wired, if goesOn then rest else []⟩ := by
  have hidle := h.idle (by simp [hbatch])
  have hr := h.current r (by simp [hbatch])
  have hdistinct := h.distinct
  rw [hbatch] at hdistinct
  have hrest : rest.Sublist t.batch := hbatch ▸ List.sublist_cons_self r rest
  rcases handling_cases hhandling with ⟨fd, rfl, he, rfl⟩ | ⟨fd, addr, rfl, hfree, he, rfl⟩ |
    ⟨fd, nbytes, rfl, he, rfl⟩ | ⟨fd, n₁, n₂, rfl, hsent, he, rfl⟩ | he
  · obtain rfl := Option.some.inj he
    have henabled : enabled t.wired.program (.hangup fd) := ⟨hidle, hr⟩
    refine ⟨henabled, h.other ac henabled hwired hrest fun r' hr' fd' hfd' => ?_⟩
    -- no other report of the batch is about the descriptor that is closed
    have hne : fd' ≠ fd := by
      rintro rfl
      simp only [List.filterMap_cons, EpollEvent.fd?, List.nodup_cons] at hdistinct
      exact hdistinct.1 (List.mem_filterMap.mpr ⟨r', hr', hfd'⟩)
    exact .hangup ac hserver hne
  · obtain rfl := Option.some.inj he
    have henabled : enabled t.wired.program (.accept fd addr) := ⟨hidle, hfree⟩
    exact ⟨henabled, h.other ac henabled hwired hrest fun _ _ fd' _ => .accept ac hfree addr⟩
  · obtain rfl := Option.some.inj he
    exact ⟨⟨hidle, hr⟩, batchCurrent_nil wired⟩
  · obtain rfl := Option.some.inj he
    exact ⟨⟨hidle, hr.1, hr.2, hsent⟩, batchCurrent_nil wired⟩
  · cases he

/-- A round of reading comes when the batch has been handled. -/
lemma BatchCurrent.round {t : Threads} (h : BatchCurrent t) {wired : Wired State}
    (hwired : t.wired.step (bareServer ac) (.round ()) = some wired) :
    BatchCurrent ⟨wired, t.batch⟩ := by
  obtain ⟨c, hserving, -⟩ := Option.bind_eq_some_iff.mp hwired
  have hnil : t.batch = [] := by
    by_contra hne
    cases hserving.symm.trans (h.idle hne)
  rw [hnil]
  exact batchCurrent_nil wired

/-- A thread event that is an event of the program. -/
lemma BatchCurrent.loud {t : Threads} (hserver : t.wired.program.isServer = true)
    (h : BatchCurrent t) {e : ThreadEvent} {batch : List EpollEvent} {e' : WiredEvent Event Unit}
    (hdoes : t.does e = some (batch, some e')) {wired : Wired State}
    (hwired : t.wired.step (bareServer ac) e' = some wired) :
    Possible t.wired.program e' ∧ BatchCurrent ⟨wired, batch⟩ := by
  match e with
  | .wait reports => simp [Threads.does] at hdoes
  | .next a =>
      unfold Threads.does at hdoes
      dsimp only at hdoes
      rcases hbatch : t.batch with _ | ⟨r, rest⟩ <;> rw [hbatch] at hdoes
      · cases hdoes
      obtain ⟨⟨o, goesOn⟩, hhandling, heq⟩ := Option.map_eq_some_iff.mp hdoes
      obtain ⟨rfl, rfl⟩ := Prod.mk.inj heq
      exact h.handled ac hserver hbatch hhandling hwired
  | .round =>
      obtain ⟨rfl, rfl⟩ : t.batch = batch ∧ WiredEvent.round () = e' := by
        simpa [Threads.does] using hdoes
      exact ⟨trivial, h.round ac hwired⟩
  | .sweep =>
      obtain ⟨rfl, rfl⟩ : t.batch = batch ∧ WiredEvent.other .sweep = e' := by
        simpa [Threads.does] using hdoes
      have henabled : enabled t.wired.program .sweep := trivial
      exact ⟨henabled, h.other ac henabled hwired (.refl _) fun _ _ fd _ => .sweep ac hserver fd⟩
  | .tick seconds =>
      obtain ⟨rfl, rfl⟩ : t.batch = batch ∧ WiredEvent.other (.tick seconds) = e' := by
        simpa [Threads.does] using hdoes
      have henabled : enabled t.wired.program (.tick seconds) := trivial
      exact ⟨henabled, h.other ac henabled hwired (.refl _) fun _ _ _ _ => .of_eq rfl rfl⟩

/-- **The next report.** If the batch is current, handling its first report is an event that the
kernel can cause, and the reports that are left are still current. -/
lemma BatchCurrent.step {t t' : Threads} {e : ThreadEvent} (hs : TableOk t.wired.program)
    (h : BatchCurrent t) (hstep : t.step ac e = some t') :
    (∀ e' ∈ wiredEvents t e, Possible t.wired.program e') ∧ BatchCurrent t' := by
  unfold wiredEvents
  rcases threads_step_cases ac hstep with ⟨batch, hdoes, rfl⟩ | ⟨batch, e', wired, hdoes, hwired, rfl⟩
  · rw [hdoes]
    exact ⟨by simp, h.silent hdoes⟩
  · rw [hdoes]
    simpa using h.loud ac hs.server hdoes hwired

/-! ## The threads are the server -/

/-- What holds between two thread events. -/
structure Steady (t : Threads) : Prop where
  table : TableOk t.wired.program
  batch : BatchCurrent t

/-- The requests that a thread event serves. -/
def servedByThreads (t : Threads) (e : ThreadEvent) : List (ConnId × Request) :=
  (wiredEvents t e).flatMap (servedOnBytes ac t.wired)

/-- A thread event is an event of the server on bytes, or none. -/
lemma Steady.run {t t' : Threads} {e : ThreadEvent} (h : Steady t) (hstep : t.step ac e = some t') :
    Run (Wired.step (serverEndpoint ac)) (Wired.onOther Always) t.wired (wiredEvents t e)
      t'.wired := by
  have hpossible := (h.batch.step ac h.table hstep).1
  unfold wiredEvents at hpossible ⊢
  rcases threads_step_cases ac hstep with ⟨batch, hdoes, rfl⟩ | ⟨batch, e', wired, hdoes, hwired, rfl⟩
  · rw [hdoes]
    exact .nil
  · rw [hdoes] at hpossible ⊢
    have hguarded := step_of_possible ac (hpossible e' (by simp)) hwired
    refine .single ?_ hguarded
    unfold Wired.onOther
    split <;> trivial

/-- The server on bytes is the server on requests. -/
lemma wired_simulates : Simulates (Wired.step (serverEndpoint ac)) (Wired.onOther Always) (step ac)
    Always Wired.program
    (Wired.events (serverEndpoint ac) (decodeCommand ac) (requestOf ac) fun _ => .request)
    fun _ => True :=
  Wired.simulates handles_server (fun _ _ _ => trivial) (fun _ => trivial)
    fun _ _ => ⟨trivial, trivial⟩

lemma Steady.step {t t' : Threads} {e : ThreadEvent} (h : Steady t)
    (hstep : t.step ac e = some t') : Steady t' where
  table := ((wired_simulates ac).run (fun _ => trivial) (h.run ac hstep)).invariant h.table
    fun hs _ hstep => tableOk_step ac hs hstep
  batch := (h.batch.step ac h.table hstep).2

lemma steady_run {p : Setup} {es : List ThreadEvent} {t : Threads}
    (run : Run (Threads.step ac) Always (Threads.init p) es t) : Steady t :=
  run.invariant ⟨(loaded_init p).tableOk, batchCurrent_nil _⟩ fun h _ hstep => h.step ac hstep

/-- The reports that are left of the batch could be made now, and what is done about the first one
is an event that the kernel can cause now. -/
def InTime (t : Threads) (e : ThreadEvent) : Prop :=
  (∀ r ∈ t.batch, Current t.wired.program r) ∧ ∀ e' ∈ wiredEvents t e, Possible t.wired.program e'

/-- No report is handled too late. -/
lemma inTime_run {p : Setup} {es : List ThreadEvent} {t : Threads}
    (run : Run (Threads.step ac) Always (Threads.init p) es t) :
    Run (Threads.step ac) InTime (Threads.init p) es t := by
  refine (run.iff_of (steady_run ac) fun hsteady hstep => iff_of_true ?_ trivial).mpr run
  exact ⟨hsteady.batch.current, (hsteady.batch.step ac hsteady.table hstep).1⟩

/-- **Batches.** Every run of the threads, with its reports handled when their turn comes, is a
run of the server that ends in the same state and serves the same requests on the same connections
in the same order; and every report is handled in a state in which the kernel could make it. -/
theorem threads_refine {p : Setup} {es : List ThreadEvent} {t : Threads}
    (run : Run (Threads.step ac) Always (Threads.init p) es t) :
    Run (Threads.step ac) InTime (Threads.init p) es t ∧
      ∃ es', ServerRun ac p Always es' t.wired.program ∧
        trace (step ac) served p.init es' =
          trace (Threads.step ac) (servedByThreads ac) (Threads.init p) es := by
  have hthreads : Simulates (Threads.step ac) Always (Wired.step (serverEndpoint ac))
      (Wired.onOther Always) Threads.wired wiredEvents Steady := ⟨fun h _ hstep => h.run ac hstep⟩
  have hwired := hthreads.run (steady_run ac) run
  refine ⟨inTime_run ac run, _, (wired_simulates ac).run (fun _ => trivial) hwired, ?_⟩
  have hserved := (wired_simulates ac).trace_eq (fun _ => trivial)
    (fun _ _ hstep => Wired.trace_events observes_server hstep) hwired
  refine hserved.trans ?_
  refine hthreads.trace_eq (steady_run ac) (fun {t e t'} _ _ _ => ?_) run
  unfold servedByThreads wiredEvents
  rcases ((t.does e).bind Prod.snd) with _ | e' <;> simp

/-- The number of a connection that hangs up is used again in the same batch, and the log-off pass
runs in between. -/
def reusedNumber : List ThreadEvent :=
  [.wait [.listening], .next (.accept (some (5, demoAddr))),
    .wait [.listening], .next (.accept (some (6, demoAddr))),
    .wait [.failed 5, .listening, .input 6], .next .none, .sweep,
    .next (.accept (some (5, demoAddr))), .next (.recv (.data loginBytes)), .round, .tick 1, .round,
    .wait [.output 6, .input 5], .next (.send (some welcomeBytes.length) none)]

theorem threads_refine_reused :
    ∃ t, Run (Threads.step protobufWire) InTime (Threads.init demo) reusedNumber t ∧
      ∃ es', ServerRun protobufWire demo Always es' t.wired.program ∧
        trace (step protobufWire) served demo.init es' =
          trace (Threads.step protobufWire) (servedByThreads protobufWire) (Threads.init demo)
            reusedNumber := by
  obtain ⟨t, run, -⟩ := Run.exists_of_execute (Threads.step protobufWire) Always
    (Threads.init demo) reusedNumber (fun _ => True) (by decide +kernel)
  exact ⟨t, threads_refine protobufWire run⟩

end EpollChat

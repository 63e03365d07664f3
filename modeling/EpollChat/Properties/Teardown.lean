import EpollChat.Construction.Demo
import EpollChat.Properties.SessionMachine

/-!
# No self-deadlock on teardown

`close_socket` holds the mutex of the connection while `logoutUser` tells the other users, and
telling a user who is logged in locks the mutex of the connection it is bound to.  The mutex is
not recursive, so the step hangs if one of the others is bound to the same connection.

A connection ends up with two live users only through a login on a connection on which another
user is still logged in.  `AloneOn` excludes that.  Under it every user who is logged in on a
connection is the connection's own (`OwnTargets`), hence no notice of a teardown goes to the
connection that is torn down, and no event deadlocks (`noDeadlock_run`).
-/

namespace EpollChat

variable (ac : Achelper)

/-! ## The notices of a teardown -/

/-- The notices that `close_socket` queues while it holds the connection's mutex. -/
def closeNotices (s : State) (c : ConnId) : List Delivery :=
  match (s.conn c).user with
  | none => []
  | some u =>
      match (s.users u).client with
      | none => []
      | some d => logoutAnnouncements ac (unlink s u d) u

/-- None of the notices of tearing down the connection is addressed to itself. -/
def NotifiesOthers (s : State) (c : ConnId) : Prop :=
  ∀ d ∈ closeNotices ac s c, d.queue ≠ .out c

/-- A user who is logged in on a connection is the connection's own, if it has one. -/
def OwnTargets (s : State) : Prop :=
  ∀ v c, (s.users v).client = some c → isUserLoggedIn s (some v) = true →
    ∀ u, (s.conn c).user = some u → u = v

/-- No other user is logged in on the connection. -/
def AloneOn (s : State) (c : ConnId) (u : UserId) : Prop :=
  ∀ v ∈ s.first, v ≠ u → (s.users v).client = some c → isUserLoggedIn s (some v) = false

instance (s : State) (c : ConnId) (u : UserId) : Decidable (AloneOn s c u) := by
  unfold AloneOn
  infer_instance

lemma notifiesOthers_of_ownTargets {s : State} (h : OwnTargets s) (c : ConnId) :
    NotifiesOthers ac s c := by
  intro d hd hqueue
  unfold closeNotices at hd
  cases hu : (s.conn c).user with
  | none => simp [hu] at hd
  | some u =>
      cases hc : (s.users u).client with
      | none => simp [hu, hc] at hd
      | some e =>
          simp only [hu, hc] at hd
          obtain ⟨v, c', -, hne, hlogged, -, hclient, rfl⟩ := mem_announcements hd
          obtain rfl : c' = c := by injection hqueue
          rw [isUserLoggedIn_unlink hne] at hlogged
          rw [client_unlink, if_neg hne] at hclient
          exact hne (h v c' hclient hlogged u hu).symm

/-! ## The invariant -/

lemma ownTargets_sessions {s : State} : OwnTargets s.sessions ↔ OwnTargets s := by
  unfold OwnTargets
  simp only [isUserLoggedIn_sessions]
  rfl

/-- Session moves keep it, if nobody is bound to a connection another user is logged in on. -/
lemma ownTargets_move {s s' : State} (hs : TableOk s) (h : OwnTargets s)
    (move : SessionMove AloneOn s s') : OwnTargets s' := by
  cases move with
  | accept fd addr free idle =>
      rw [ownTargets_sessions]
      intro v c hc hlogged u hu
      have hlogged' : isUserLoggedIn s (some v) = true :=
        (isUserLoggedIn_acceptClient s fd addr (some v)).symm.trans hlogged
      rw [users_acceptClient] at hc
      rw [conn_acceptClient, Function.update_of_ne (hs.client_lt v c hc).ne] at hu
      exact h v c hc hlogged' u hu
  | begin fd isOpen idle => exact h
  | finish => exact h
  | active c serves =>
      rcases updateLastActive_eq s c with heq | ⟨w, -, hw, heq⟩ <;> rw [heq]
      · exact h
      · intro v d hd hlogged u hu
        rw [State.client_setUser] at hd
        · refine h v d hd ?_ u hu
          -- the refreshed user was logged in before
          by_cases hv : v = w
          · rw [hv]
            exact hw
          · simpa [isUserLoggedIn, State.setUser, hv] using hlogged
        · exact fun _ => rfl
  | bind c w username password serves found knows idle ok =>
      intro v d hd hlogged u hu
      rw [client_bind] at hd
      rw [user_bind] at hu
      by_cases hv : v = w
      · rw [if_pos hv] at hd
        rw [if_pos (Option.some.inj hd).symm] at hu
        rw [hv, Option.some.inj hu]
      · rw [if_neg hv] at hd
        have hlogged' : isUserLoggedIn s (some v) = true := by
          simpa [isUserLoggedIn, bind, State.setConn, State.setUser, State.emit, hv] using hlogged
        have hdc : d ≠ c := by
          rintro rfl
          have := ok v (hs.client_known v d hd) hv hd
          rw [hlogged'] at this
          cases this
        rw [if_neg hdc] at hu
        exact h v d hd hlogged' u hu
  | unlink w c bound =>
      intro v d hd hlogged u hu
      rw [client_unlink] at hd
      rw [user_unlink] at hu
      split at hd
      · cases hd
      · next hv =>
          rw [isUserLoggedIn_unlink hv] at hlogged
          split at hu
          · cases hu
          · exact h v d hd hlogged u hu
  | shut c own unbound => exact h
  | tick seconds =>
      intro v d hd hlogged u hu
      refine h v d hd ?_ u hu
      rw [isUserLoggedIn_eq_true] at hlogged ⊢
      refine ⟨hlogged.1, ?_⟩
      have := hlogged.2
      dsimp only at this
      omega

lemma ownTargets_run {p : Setup} {es : List Event} {s : State}
    (run : ServerRun ac p (LoginsMeet AloneOn) es s) : OwnTargets s := by
  refine run.invariant_of ?_ (fun run => tableOk_run ac run) ?_
  · intro v c h
    rw [((loaded_init p).users v).1] at h
    cases h
  · intro s e s' hs h hok hstep
    have halone : ∀ s c u, AloneOn s c u → AloneOn s.sessions c u := fun s c u h v hv hne hc => by
      rw [isUserLoggedIn_sessions]
      exact h v hv hne hc
    have hmoves := sessions_step ac AloneOn hs hok halone hstep
    have h' := hmoves.invariant (P := fun t => TableOk t ∧ OwnTargets t)
      (fun _ _ h move => ⟨tableOk_move h.1 move, ownTargets_move h.1 h.2 move⟩)
      ⟨tableOk_sessions.mpr hs, ownTargets_sessions.mpr h⟩
    exact ownTargets_sessions.mp h'.2

/-! ## Locks -/

/-- No mutex is held, and none has been locked twice. -/
def Calm (s : State) : Prop := s.held = [] ∧ s.fault ≠ some .deadlock

lemma noDeadlock_raise {s : State} (h : s.fault ≠ some .deadlock) {f : Fault}
    (hf : f ≠ .deadlock) : (s.raise f).fault ≠ some .deadlock := by
  unfold State.raise
  dsimp only
  cases hs : s.fault with
  | none => simpa using hf
  | some g => simpa [hs] using h

lemma noDeadlock_touch {s : State} (h : s.fault ≠ some .deadlock) (c : ConnId) :
    (s.touch c).fault ≠ some .deadlock := by
  unfold State.touch
  split
  · exact noDeadlock_raise h (by decide)
  · exact h

lemma noDeadlock_lock {s : State} (h : s.fault ≠ some .deadlock) {c : ConnId}
    (hc : c ∉ s.held) : (s.lock c).fault ≠ some .deadlock := by
  unfold State.lock
  rw [if_neg hc]
  exact h

/-- A delivery deadlocks only where it goes through a connection whose mutex is held. -/
lemma noDeadlock_deliver {s : State} (h : s.fault ≠ some .deadlock) {d : Delivery}
    (hd : ∀ c ∈ s.held, d.queue ≠ .out c) : (deliver ac s d).fault ≠ some .deadlock := by
  obtain ⟨queue, why, msg⟩ := d
  cases queue with
  | offline u =>
      simpa [deliver, sendResponseTo, State.emit] using h
  | out c =>
      have hfree : c ∉ (s.touch c).held := by
        rw [State.held_touch]
        exact fun hmem => hd c hmem rfl
      have hlock := noDeadlock_lock (noDeadlock_touch h c) hfree
      simpa [deliver, sendResponseToClient, sendResponseTo, State.unlock, State.emit] using hlock

lemma noDeadlock_deliverAll {s : State} (h : s.fault ≠ some .deadlock) (ds : List Delivery)
    (hds : ∀ d ∈ ds, ∀ c ∈ s.held, d.queue ≠ .out c) :
    (deliverAll ac s ds).fault ≠ some .deadlock ∧ (deliverAll ac s ds).held = s.held := by
  induction ds generalizing s with
  | nil => exact ⟨h, rfl⟩
  | cons d ds ih =>
      have hrest := ih (noDeadlock_deliver ac h (hds d List.mem_cons_self))
        (by rw [held_deliver]; exact fun e he => hds e (List.mem_cons_of_mem _ he))
      rw [held_deliver] at hrest
      exact hrest

lemma calm_deliverAll {s : State} (h : Calm s) (ds : List Delivery) :
    Calm (deliverAll ac s ds) := by
  obtain ⟨hfault, hheld⟩ := noDeadlock_deliverAll ac h.2 ds (by simp [h.1])
  exact ⟨hheld.trans h.1, hfault⟩

lemma calm_deliver {s : State} (h : Calm s) (d : Delivery) : Calm (deliver ac s d) :=
  calm_deliverAll ac h [d]

lemma calm_touch {s : State} (h : Calm s) (c : ConnId) : Calm (s.touch c) :=
  ⟨(State.held_touch s c).trans h.1, noDeadlock_touch h.2 c⟩

lemma calm_updateLastActive {s : State} (h : Calm s) (c : ConnId) :
    Calm (updateLastActive s c) := by
  rcases updateLastActive_eq s c with heq | ⟨u, -, -, heq⟩ <;> rw [heq] <;> exact h

lemma calm_logoutUser {s : State} (h : Calm s) (u : Option UserId) :
    Calm (logoutUser ac s u) := by
  cases u with
  | none => exact h
  | some u =>
      cases hc : (s.users u).client with
      | none =>
          rw [logoutUser_of_none ac hc]
          exact h
      | some c =>
          have hunlink : Calm (unlink (s.touch c) u c) := calm_touch h c
          simp only [logoutUser, hc, announce_eq]
          split
          · exact hunlink
          · exact calm_deliverAll ac hunlink _

/-- Tearing a connection down does not deadlock if its notices go to others. -/
lemma calm_closeSocket {s : State} (h : Calm s) (hserver : s.isServer = true) {c : ConnId}
    (hothers : NotifiesOthers ac s c) : Calm (closeSocket ac s c) := by
  have hlocked : ((s.touch c).lock c).held = [c] ∧
      ((s.touch c).lock c).fault ≠ some .deadlock := by
    refine ⟨by simp [h.1], noDeadlock_lock (noDeadlock_touch h.2 c) (by simp [h.1])⟩
  have hcore : ((s.touch c).lock c).core = s.core := by simp
  have huser : (((s.touch c).lock c).conn c).user = (s.conn c).user := by simp
  have hclient : ∀ u, (((s.touch c).lock c).users u).client = (s.users u).client := by simp
  have hserver' : ((s.touch c).lock c).isServer = true :=
    (congrArg State.isServer hcore).trans hserver
  -- what holds while the mutex is held
  have hlogout : (logoutUser ac ((s.touch c).lock c) (s.conn c).user).held = [c] ∧
      (logoutUser ac ((s.touch c).lock c) (s.conn c).user).fault ≠ some .deadlock := by
    generalize (s.touch c).lock c = t at hlocked hcore hclient hserver'
    unfold NotifiesOthers closeNotices at hothers
    cases hu : (s.conn c).user with
    | none => exact hlocked
    | some u =>
        cases hd : (s.users u).client with
        | none =>
            rw [logoutUser_of_none ac ((hclient u).trans hd)]
            exact hlocked
        | some d =>
            have hunlink : (unlink (t.touch d) u d).core = (unlink s u d).core := by
              rw [core_unlink, core_unlink, State.core_touch, hcore]
            have hheld : (unlink (t.touch d) u d).held = [c] :=
              (State.held_touch t d).trans hlocked.1
            simp only [hu, hd] at hothers
            rw [logoutUser_of_client ac hserver' ((hclient u).trans hd),
              logoutAnnouncements_congr ac hunlink]
            have hdone := noDeadlock_deliverAll ac (s := unlink (t.touch d) u d)
              (noDeadlock_touch hlocked.2 d) (logoutAnnouncements ac (unlink s u d) u)
              (by
                rw [hheld]
                intro x hx c' hc'
                obtain rfl := List.mem_singleton.mp hc'
                exact hothers x hx)
            exact ⟨hdone.2.trans hheld, hdone.1⟩
  unfold closeSocket
  dsimp only
  rw [huser]
  refine ⟨?_, hlogout.2⟩
  show List.erase (logoutUser ac ((s.touch c).lock c) (s.conn c).user).held c = []
  rw [hlogout.1]
  simp

/-! ## Commands -/

lemma calm_cmdLoginImpl {s : State} (h : Calm s) (c : ConnId) (req : LoginRequest) :
    Calm (cmdLoginImpl ac s c req).1 := by
  cases haccepted : acceptedUser s req.username req.password with
  | none =>
      obtain ⟨rsp, hrsp⟩ := cmdLoginImpl_of_refused ac (c := c) haccepted
      rw [hrsp]
      rcases refused_cases s req.username req.password with hsame | ⟨_, _, _, -, hcounted⟩
      · rw [hsame]
        exact h
      · rw [hcounted]
        exact h
  | some u =>
      rw [cmdLoginImpl_of_accepted ac haccepted]
      have hrefresh : Calm (refresh s u) := h
      exact calm_deliverAll ac hrefresh _

lemma calm_setChunks {s : State} (h : Calm s) (c : ConnId) (chunks : Option ChunkList) :
    Calm (setChunks s c chunks) := by
  cases chunks with
  | none => exact ⟨h.1, noDeadlock_raise h.2 (by decide)⟩
  | some chunks => exact h

lemma calm_of_effect {s t : State} {c : ConnId} {req : Request}
    (effect : CommandEffect ac s c req t) (h : Calm s) : Calm t := by
  cases effect with
  | reads _ cs =>
      induction cs generalizing s with
      | nil => exact h
      | cons d cs ih => exact ih (calm_touch h d)
  | messages => exact calm_deliverAll ac h _
  | blocks => exact h
  | taken => exact h
  | file req =>
      exact calm_setChunks (s := { s with
        fileDb := (addFile s.fileDb s.globalChunkId req.filename req.chunks).1
        globalChunkId := s.globalChunkId + req.chunks }) h c _
  | chunks => exact calm_setChunks h c _

/-- Requests do not deadlock, where tearing down the connection that is served does not. -/
lemma calm_serve {s : State} (h : Calm s) (hserver : s.isServer = true) {c : ConnId}
    (hothers : NotifiesOthers ac s c) (req : Request) : Calm (serve ac s c req) := by
  have hrun : Calm (runRequest ac s c req).1 := by
    by_cases hunknown : ∃ type, req = .unknown type
    · obtain ⟨type, rfl⟩ := hunknown
      exact h
    rw [runRequest_of_known ac s c fun type h => hunknown ⟨type, h⟩]
    refine calm_updateLastActive ?_ c
    cases hquiet : req.isQuiet with
    | true => exact calm_of_effect ac (runCommand_effect ac s c hquiet) h
    | false =>
        cases req with
        | login r => exact calm_cmdLoginImpl ac h c r
        | logout =>
            show Calm (cmdLogoutImpl ac s c).1
            unfold cmdLogoutImpl
            split
            · exact h
            · exact calm_closeSocket ac h hserver hothers
        | _ => cases hquiet
  unfold serve
  generalize runRequest ac s c req = r at hrun
  obtain ⟨t, rsp⟩ := r
  cases rsp with
  | none => exact hrun
  | some rsp => exact calm_deliver ac hrun ⟨.out c, .reply, rsp⟩

lemma calm_timeThread {s : State} (h : Calm s) : Calm (timeThread ac s) := by
  unfold timeThread
  generalize s.clients = l
  induction l generalizing s with
  | nil => exact h
  | cons c l ih =>
      refine ih ?_
      unfold sweepClient
      split
      · exact calm_deliver ac (calm_logoutUser ac h _) ⟨.out c, .logOff, logOffResponse ac⟩
      · exact h

lemma calm_networkWritable {s : State} (h : Calm s) (c : ConnId) (nsent₁ nsent₂ : Option ℕ) :
    Calm (networkWritable s c nsent₁ nsent₂) := by
  have hsend : ∀ (t : State) (q : Queue) (r : Option ℕ),
      (imSendBuffer t c q r).held = t.held ∧ (imSendBuffer t c q r).fault = t.fault := by
    intro t q r
    have hdone : ∀ (t : State) (len n : ℕ), (imSendBufferDone t c q len n).held = t.held ∧
        (imSendBufferDone t c q len n).fault = t.fault := by
      intro t len n
      unfold imSendBufferDone
      split <;> simp
    unfold imSendBuffer
    dsimp only
    split
    · cases r with
      | none => exact ⟨rfl, rfl⟩
      | some n => exact hdone _ _ _
    · exact hdone _ _ _
  have hlocked : (s.lock c).held = [c] ∧ (s.lock c).fault ≠ some .deadlock :=
    ⟨by simp [h.1], noDeadlock_lock h.2 (by simp [h.1])⟩
  unfold networkWritable
  dsimp only
  have hunlock : ∀ t : State, t.held = [c] ∧ t.fault ≠ some .deadlock → Calm (t.unlock c) :=
    fun t ht => ⟨by simp [State.unlock, ht.1], ht.2⟩
  refine hunlock _ ?_
  split
  · rw [(hsend _ _ _).1, (hsend _ _ _).2, (hsend _ _ _).1, (hsend _ _ _).2]
    exact hlocked
  · rw [(hsend _ _ _).1, (hsend _ _ _).2]
    exact hlocked

/-- No event deadlocks, where every notice of a teardown goes to others. -/
lemma calm_exec {s : State} (h : Calm s) (hs : TableOk s)
    (hothers : ∀ c, NotifiesOthers ac s c) (e : Event) : Calm (exec ac s e) := by
  cases e with
  | accept fd addr =>
      show Calm (acceptClient s fd addr)
      unfold acceptClient
      dsimp only
      split
      · exact h
      · split
        · exact h
        · exact ⟨h.1, noDeadlock_raise h.2 (by decide)⟩
  | hangup fd | eof fd =>
      rw [exec]
      split
      · exact calm_closeSocket ac h hs.server (hothers _)
      · exact h
  | readable fd => exact h
  | request req =>
      rw [exec]
      split
      · exact calm_serve ac h hs.server (hothers _) req
      · exact h
  | readDone => exact h
  | writable fd nsent₁ nsent₂ =>
      rw [exec]
      split
      · exact calm_networkWritable h _ _ _
      · exact h
  | tick seconds => exact h
  | sweep => exact calm_timeThread ac h

/-! ## All runs -/

lemma calm_run {p : Setup} {es : List Event} {s : State}
    (run : ServerRun ac p (LoginsMeet AloneOn) es s) : Calm s := by
  induction run with
  | nil => exact ⟨(loaded_init p).held, by simp [(loaded_init p).fault]⟩
  | @snoc es s s' e run allowed completes ih =>
      obtain ⟨-, -, rfl⟩ := (step_eq_some ac).mp completes
      exact calm_exec ac ih (tableOk_run ac run)
        (fun c => notifiesOthers_of_ownTargets ac (ownTargets_run ac run) c) e

/-- **No self-deadlock on teardown.** In every run in which nobody logs in on a connection another
user is still logged in on, no notice of tearing a connection down is addressed to that
connection, and no event locks a mutex its step already holds. -/
theorem noDeadlock_run {p : Setup} {es : List Event} {s : State}
    (run : ServerRun ac p (LoginsMeet AloneOn) es s) :
    (∀ c, NotifiesOthers ac s c) ∧ ∀ e, (exec ac s e).fault ≠ some .deadlock := by
  have hothers : ∀ c, NotifiesOthers ac s c :=
    fun c => notifiesOthers_of_ownTargets ac (ownTargets_run ac run) c
  exact ⟨hothers, fun e => (calm_exec ac (calm_run ac run) (tableOk_run ac run) hothers e).2⟩

/-- Two users on their own connections; the first one logs out. -/
theorem noDeadlock_demo :
    ∃ s, ServerRun protobufWire demo (LoginsMeet AloneOn)
        (acceptAndServe 5 [loginAs "hans" "falcon"] ++
          acceptAndServe 6 [loginAs "yoda" "wise"] ++ [.readable 5]) s ∧
      (∀ c, NotifiesOthers protobufWire s c) ∧
        ∀ e, (exec protobufWire s e).fault ≠ some .deadlock := by
  obtain ⟨s, run, -⟩ := Run.exists_of_execute (step protobufWire) (LoginsMeet AloneOn) demo.init
    (acceptAndServe 5 [loginAs "hans" "falcon"] ++
      acceptAndServe 6 [loginAs "yoda" "wise"] ++ [.readable 5])
    (fun _ => True) (by decide +kernel)
  exact ⟨s, run, noDeadlock_run protobufWire run⟩

/-- After two logins on one connection, a hangup on it deadlocks. -/
theorem deadlock_double_login :
    ¬ ∀ (ac : Achelper) (p : Setup) (es : List Event) (s : State), ServerRun ac p Always es s →
      ∀ e, enabled s e → (exec ac s e).fault ≠ some .deadlock := by
  intro h
  obtain ⟨s, run, henabled, hfault⟩ := Run.exists_of_execute (step protobufWire) Always demo.init
    (acceptAndServe 5 [loginAs "hans" "falcon", loginAs "yoda" "wise"])
    (fun s => enabled s (.hangup 5) ∧
      (exec protobufWire s (.hangup 5)).fault = some .deadlock) (by decide +kernel)
  exact h protobufWire demo _ s run _ henabled hfault

end EpollChat

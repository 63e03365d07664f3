import EpollChat.Construction.Demo
import EpollChat.Properties.Accounting

/-!
# The backlog goes to the live session

The `EPOLLOUT` branch writes a user's offline buffer to a connection that names the user, after a
test of its own: it looks at the time of the last activity, but not at the connection that the
user's session is on.  The test agrees with `isUserLoggedIn` as long as the pointers of live
sessions agree, and a login can break that: one for a user whom another connection still names
revives that other connection, and one on the connection of a live session takes it away.

`backlog_iff` is the exact condition: throughout a run the two tests agree, and the backlog is
written to live sessions only, exactly when every accepted login is on a connection of no live
user, for a user whom no other entry of the table names.
-/

namespace EpollChat

variable (ac : Achelper)

/-- **The two tests agree** on every entry of the table. -/
def BacklogAgrees (s : State) : Prop :=
  ∀ c ∈ s.clients, ∀ u, inlineTest s c = some u ↔
    isUserLoggedIn s (some u) = true ∧ (s.users u).client = some c

/-- What the event writes of offline buffers, it writes to the live sessions of their users. -/
def WritesLive (s : State) (e : Event) : Prop :=
  ∀ u c bs, .move (.take (.offline u) c bs) ∈ (exec ac s e).log.drop s.log.length →
    isUserLoggedIn s (some u) = true ∧ (s.users u).client = some c

/-- The login is on a connection of no live user, for a user whom no other entry names. -/
def SoleLogin (s : State) (c : ConnId) (u : UserId) : Prop :=
  0 < s.loginTimeout →
    inlineTest s c = none ∧ ∀ d ∈ s.clients, d ≠ c → (s.conn d).user ≠ some u

instance (s : State) (c : ConnId) (u : UserId) : Decidable (SoleLogin s c u) := by
  unfold SoleLogin
  infer_instance

/-! ## The pointers of live sessions -/

/-- The pointers that the tests look at. -/
structure Linked (s : State) : Prop where
  /-- A user that is bound has been active. -/
  active : ∀ u c, (s.conn c).user = some u ∨ (s.users u).client = some c →
    (s.users u).lastActive ≤ s.now
  /-- The user an entry names is bound to it. -/
  back : 0 < s.loginTimeout → ∀ c ∈ s.clients, ∀ u, (s.conn c).user = some u →
    (s.users u).client = some c
  /-- The entry that a live user is bound to names the user. -/
  forth : ∀ c ∈ s.clients, ∀ u, isUserLoggedIn s (some u) = true →
    (s.users u).client = some c → (s.conn c).user = some u

lemma linked_sessions {s : State} : Linked s.sessions ↔ Linked s :=
  ⟨fun h => ⟨h.active, h.back, fun c hc u hlive =>
      h.forth c hc u ((isUserLoggedIn_sessions s (some u)).trans hlive)⟩,
    fun h => ⟨h.active, h.back, fun c hc u hlive =>
      h.forth c hc u ((isUserLoggedIn_sessions s (some u)).symm.trans hlive)⟩⟩

lemma inlineTest_eq_some {s : State} {c : ConnId} {u : UserId} :
    inlineTest s c = some u ↔
      (s.conn c).user = some u ∧ (s.users u).lastActive + s.loginTimeout > s.now := by
  unfold inlineTest
  cases (s.conn c).user with
  | none => simp
  | some v =>
      dsimp only
      split
      · next h =>
          constructor
          · intro heq
            obtain rfl := Option.some.inj heq
            exact ⟨rfl, h⟩
          · exact fun h => h.1
      · next h =>
          constructor
          · intro heq
            cases heq
          · rintro ⟨heq, h'⟩
            obtain rfl := Option.some.inj heq
            exact absurd h' h

namespace Linked

variable {s : State}

/-- Only with a timeout can anybody be live. -/
lemma timeout_pos (h : Linked s) {u : UserId} (hlive : isUserLoggedIn s (some u) = true) :
    0 < s.loginTimeout := by
  obtain ⟨⟨c, hc⟩, hfresh⟩ := isUserLoggedIn_eq_true.mp hlive
  have hactive := h.active u c (.inr hc)
  omega

/-- The pointers make the tests agree. -/
lemma agrees (h : Linked s) : BacklogAgrees s := by
  intro c hc u
  rw [inlineTest_eq_some, isUserLoggedIn_eq_true]
  constructor
  · rintro ⟨hu, hfresh⟩
    have hactive := h.active u c (.inl hu)
    have hclient := h.back (by omega) c hc u hu
    exact ⟨⟨⟨c, hclient⟩, hfresh⟩, hclient⟩
  · rintro ⟨hlive, hclient⟩
    exact ⟨h.forth c hc u (isUserLoggedIn_eq_true.mpr hlive) hclient, hlive.2⟩

/-! ## What keeps them -/

/-- A change that binds nobody and revives nobody, and unbinds both ends at most. -/
lemma of_fewer {t : State} (h : Linked s) (hclients : t.clients = s.clients)
    (htimeout : t.loginTimeout = s.loginTimeout) (hnow : s.now ≤ t.now)
    (hactive : ∀ u, (t.users u).lastActive = (s.users u).lastActive)
    (hclient : ∀ u c, (t.users u).client = some c → (s.users u).client = some c)
    (huser : ∀ u c, (t.conn c).user = some u → (s.conn c).user = some u)
    (hboth : 0 < s.loginTimeout → ∀ u c, c ∈ s.clients → (s.conn c).user = some u →
      (s.users u).client = some c →
        ((t.conn c).user = some u ↔ (t.users u).client = some c)) : Linked t where
  active u c hbound := by
    have hle : (s.users u).lastActive ≤ s.now :=
      h.active u c (hbound.imp (huser u c) (hclient u c))
    rw [hactive]
    exact Int.le_trans hle hnow
  back hpos c hc u hu := by
    rw [hclients] at hc
    rw [htimeout] at hpos
    have hold := huser u c hu
    exact (hboth hpos u c hc hold (h.back hpos c hc u hold)).mp hu
  forth c hc u hlive hbound := by
    rw [hclients] at hc
    have hold := hclient u c hbound
    obtain ⟨-, hfresh⟩ := isUserLoggedIn_eq_true.mp hlive
    rw [hactive, htimeout] at hfresh
    have hlive' : isUserLoggedIn s (some u) = true :=
      isUserLoggedIn_eq_true.mpr ⟨⟨c, hold⟩, by omega⟩
    exact (hboth (h.timeout_pos hlive') u c hc (h.forth c hc u hlive' hold) hold).mpr hbound

/-- Taking off its connection the user that an entry names. -/
lemma release (h : Linked s) {d : ConnId} (hd : d ∈ s.clients) :
    Linked (unbind s (s.conn d).user) := by
  cases hu : (s.conn d).user with
  | none => exact h
  | some u =>
      cases hc : (s.users u).client with
      | none =>
          simp only [unbind, hc]
          exact h
      | some c =>
          simp only [unbind, hc]
          refine h.of_fewer rfl rfl (Int.le_refl _) (fun v => ?_) (fun v e hv => ?_)
            (fun v e hv => ?_) fun hpos v e he hv hve => ?_
          · by_cases hvu : v = u
            · subst hvu
              simp [unlink, State.setConn, State.setUser, State.emit]
            · simp [unlink, State.setConn, State.setUser, State.emit, hvu]
          · rw [client_unlink] at hv
            split at hv
            · cases hv
            · exact hv
          · rw [user_unlink] at hv
            split at hv
            · cases hv
            · exact hv
          · -- the entry is the one that the user who is taken off is bound to
            obtain rfl : c = d := Option.some.inj (hc.symm.trans (h.back hpos d hd u hu))
            rw [client_unlink, user_unlink]
            by_cases hvu : v = u
            · subst hvu
              obtain rfl : c = e := Option.some.inj (hc.symm.trans hve)
              simp
            · have hec : e ≠ c := fun hec => by
                rw [hec, hu] at hv
                exact hvu (Option.some.inj hv).symm
              rw [if_neg hvu, if_neg hec]
              exact ⟨fun _ => hve, fun _ => hv⟩

/-- Closing descriptors, serving, and the passing of time. -/
lemma of_same {t : State} (h : Linked s) (hclients : t.clients = s.clients)
    (htimeout : t.loginTimeout = s.loginTimeout) (hnow : s.now ≤ t.now)
    (husers : t.users = s.users) (hconn : t.conn = s.conn) : Linked t := by
  refine h.of_fewer hclients htimeout hnow (fun u => by rw [husers]) (fun u c hc => ?_)
    (fun u c hu => ?_) fun _ u c _ hu hc => ?_
  · rwa [husers] at hc
  · rwa [hconn] at hu
  · rw [husers, hconn]
    exact ⟨fun _ => hc, fun _ => hu⟩

/-- Activity on a connection makes nobody live. -/
lemma activity (h : Linked s) (c : ConnId) : Linked (updateLastActive s c) := by
  rcases updateLastActive_eq s c with heq | ⟨u, hu, hlive, heq⟩
  · rw [heq]
    exact h
  have hclient : ∀ v, ((updateLastActive s c).users v).client = (s.users v).client := by simp
  have hconn : (updateLastActive s c).conn = s.conn := by simp
  have hstill : ∀ v, isUserLoggedIn (updateLastActive s c) (some v) = true →
      isUserLoggedIn s (some v) = true := by
    intro v hv
    by_cases hvu : v = u
    · rw [hvu]
      exact hlive
    · have huser : (updateLastActive s c).users v = s.users v := by
        rw [heq]
        simp [State.setUser, hvu]
      rw [isUserLoggedIn_eq_true, huser] at hv
      rw [isUserLoggedIn_eq_true]
      rw [heq] at hv
      exact hv
  refine ⟨fun v d hbound => ?_, fun hpos d hd v hv => ?_, fun d hd v hv hbound => ?_⟩
  · rw [hclient, hconn] at hbound
    have hactive := h.active v d hbound
    rw [heq]
    by_cases hvu : v = u
    · subst hvu
      simp [State.setUser]
    · simpa [State.setUser, hvu] using hactive
  · rw [hclient]
    rw [hconn] at hv
    rw [heq] at hpos hd
    exact h.back hpos d hd v hv
  · rw [hconn]
    rw [hclient] at hbound
    rw [heq] at hd
    exact h.forth d hd v (hstill v hv) hbound

/-- A new connection has no user, and nobody is bound to it. -/
lemma accept (h : Linked s) (hs : TableOk s) (fd : ℕ) (addr : SockAddr) :
    Linked (acceptClient s fd addr) := by
  obtain ⟨freed, fault, heq⟩ := acceptClient_eq s fd addr
  have hnow : (acceptClient s fd addr).now = s.now := by rw [heq]
  have htimeout : (acceptClient s fd addr).loginTimeout = s.loginTimeout := by rw [heq]
  have huser : ∀ u c, ((acceptClient s fd addr).conn c).user = some u →
      c ≠ s.nconns ∧ (s.conn c).user = some u := by
    intro u c hu
    rw [conn_acceptClient, Function.update_apply] at hu
    split at hu
    · cases hu
    · next hne => exact ⟨hne, hu⟩
  have hentry : ∀ c, c ≠ s.nconns → c ∈ (acceptClient s fd addr).clients → c ∈ s.clients := by
    intro c hne hc
    rw [clients_acceptClient] at hc
    exact (mem_acceptedTable hc).resolve_right hne
  refine ⟨fun u c hbound => ?_, fun hpos c hc u hu => ?_, fun c hc u hl hbound => ?_⟩
  · rw [users_acceptClient] at hbound ⊢
    rw [hnow]
    exact h.active u c (hbound.imp_left fun hu => (huser u c hu).2)
  · obtain ⟨hne, hold⟩ := huser u c hu
    rw [users_acceptClient]
    exact h.back (htimeout ▸ hpos) c (hentry c hne hc) u hold
  · rw [users_acceptClient] at hbound
    have hne : c ≠ s.nconns := (hs.client_lt u c hbound).ne
    rw [conn_acceptClient, Function.update_of_ne hne]
    rw [isUserLoggedIn_acceptClient] at hl
    exact h.forth c (hentry c hne hc) u hl hbound

/-- A login that meets the condition. -/
lemma login (h : Linked s) {c : ConnId} {u : UserId} (hok : SoleLogin s c u) (password : Bytes) :
    Linked (bind s c u password) := by
  have hactive : ∀ v, ((bind s c u password).users v).lastActive =
      if v = u then s.now else (s.users v).lastActive := by
    intro v
    by_cases hv : v = u <;> simp [bind, State.setConn, State.setUser, State.emit, hv]
  have hstill : ∀ v, v ≠ u → isUserLoggedIn (bind s c u password) (some v) = true →
      isUserLoggedIn s (some v) = true := by
    intro v hv hlive
    rw [isUserLoggedIn_eq_true, client_bind, hactive, if_neg hv, if_neg hv] at hlive
    rw [isUserLoggedIn_eq_true]
    exact hlive
  refine ⟨fun v d hbound => ?_, fun hpos d hd v hv => ?_, fun d hd v hlive hbound => ?_⟩
  · rw [hactive]
    rw [user_bind, client_bind] at hbound
    split at hbound
    · split
      · exact Int.le_refl _
      · next hvu =>
          rw [if_neg hvu] at hbound
          rcases hbound with hbound | hbound
          · exact absurd (Option.some.inj hbound).symm hvu
          · exact h.active v d (.inr hbound)
    · split
      · exact Int.le_refl _
      · next hvu =>
          rw [if_neg hvu] at hbound
          exact h.active v d hbound
  · rw [user_bind] at hv
    rw [client_bind]
    split at hv
    · next hdc =>
        obtain rfl := Option.some.inj hv
        rw [if_pos rfl, hdc]
    · next hdc =>
        have hvu : v ≠ u := fun hvu => (hok hpos).2 d hd hdc (hvu ▸ hv)
        rw [if_neg hvu]
        exact h.back hpos d hd v hv
  · rw [user_bind]
    rw [client_bind] at hbound
    split at hbound
    · next hvu =>
        obtain rfl := Option.some.inj hbound
        rw [if_pos rfl, hvu]
    · next hvu =>
        have hlive' := hstill v hvu hlive
        have hold := h.forth d hd v hlive' hbound
        rw [if_neg]
        · exact hold
        · -- the connection of a live session is not free
          intro hdc
          have htest := inlineTest_of_loggedIn hold hlive'
          rw [hdc, (hok (h.timeout_pos hlive')).1] at htest
          cases htest

end Linked

/-! ## All events -/

/-- The sweep takes users off the entries that name them. -/
lemma linked_timeThread {s : State} (h : Linked s) : Linked (timeThread ac s) := by
  unfold timeThread
  -- the loop has come to `t`, and has the entries `l` left
  suffices hloop : ∀ (l : List ConnId) (t : State), (∀ c ∈ l, c ∈ t.clients) → Linked t →
      Linked (l.foldl (sweepClient ac) t) from hloop s.clients s (fun _ hc => hc) h
  intro l
  induction l with
  | nil => exact fun t _ ht => ht
  | cons c l ih =>
      intro t hl ht
      have hc := hl c List.mem_cons_self
      have hsweep : (sweepClient ac t c).sessions = t.sessions ∨
          (sweepClient ac t c).sessions = unbind t.sessions (t.conn c).user := by
        unfold sweepClient
        split
        · right
          rw [sendResponseToClient_eq, sessions_deliver, sessions_logoutUser]
        · exact .inl rfl
      refine ih _ (fun d hd => ?_) ?_
      · have hd' := hl d (List.mem_cons_of_mem c hd)
        rcases hsweep with hsame | hsame <;> have hclients := congrArg State.clients hsame
        · have hclients' : (sweepClient ac t c).clients = t.clients := hclients
          rw [hclients']
          exact hd'
        · rw [clients_unbind] at hclients
          have hclients' : (sweepClient ac t c).clients = t.clients := hclients
          rw [hclients']
          exact hd'
      · rw [← linked_sessions]
        rcases hsweep with hsame | hsame <;> rw [hsame]
        · exact linked_sessions.mpr ht
        · exact (linked_sessions.mpr ht).release hc

lemma linked_closeSocket {s : State} (h : Linked s) {c : ConnId} (hc : c ∈ s.clients) :
    Linked (closeSocket ac s c) := by
  rw [← linked_sessions, sessions_closeSocket]
  have hreleased : Linked (unbind s.sessions (s.conn c).user) := (linked_sessions.mpr h).release hc
  exact hreleased.of_same rfl rfl (Int.le_refl _) rfl rfl

/-- An event whose accepted logins meet the condition keeps the pointers. -/
lemma linked_exec {s : State} (hs : TableOk s) (h : Linked s) {e : Event}
    (hok : LoginsMeet SoleLogin s e) : Linked (exec ac s e) := by
  cases e with
  | accept fd addr => exact h.accept hs fd addr
  | hangup fd | eof fd =>
      rw [exec]
      cases hpick : pickConn s fd with
      | none => exact h
      | some c => exact linked_closeSocket ac h (pickConn_some hpick).1
  | readable fd => exact h.of_same rfl rfl (Int.le_refl _) rfl rfl
  | request req =>
      rw [exec]
      cases hserving : s.serving with
      | none => exact h
      | some c =>
          dsimp only
          rw [← linked_sessions]
          have hlinked : Linked s.sessions := linked_sessions.mpr h
          rcases sessions_serve_cases ac s c req with
            hsame | hactive | ⟨r, u, rfl, haccepted, hlogin⟩ | ⟨-, -, hlogout⟩
          · rw [hsame]
            exact hlinked
          · rw [hactive]
            exact hlinked.activity c
          · rw [hlogin]
            exact (hlinked.login (hok c hserving u haccepted) _).activity c
          · rw [hlogout]
            have hclosed := linked_closeSocket ac h (hs.serving_ok c hserving).1
            exact (linked_sessions.mpr hclosed).activity c
  | readDone => exact h.of_same rfl rfl (Int.le_refl _) rfl rfl
  | writable fd n₁ n₂ =>
      rw [exec]
      cases hpick : pickConn s fd with
      | none => exact h
      | some c =>
          dsimp only
          rw [← linked_sessions, sessions_congr (core_networkWritable s c n₁ n₂)]
          exact linked_sessions.mpr h
  | tick seconds =>
      exact h.of_same rfl rfl (Int.le_add_of_nonneg_right (Int.natCast_nonneg _)) rfl rfl
  | sweep => exact linked_timeThread ac h

/-! ## Accepted logins -/

/-- The times after an accepted login. -/
lemma lastActive_serve_accepted {s : State} {c : ConnId} {r : LoginRequest} {u : UserId}
    (h : acceptedUser s r.username r.password = some u) (v : UserId) :
    ((serve ac s c (.login r)).users v).lastActive =
      if v = u then s.now else (s.users v).lastActive := by
  have hsessions := congrArg (fun t => (t.users v).lastActive)
    (sessions_serve_accepted ac (c := c) h)
  refine Eq.trans hsessions ?_
  have hbind : ((bind s.sessions c u (cstr r.password)).users v).lastActive =
      if v = u then s.now else (s.users v).lastActive := by
    by_cases hv : v = u
    · simp only [bind, State.setConn, State.setUser, State.emit, hv, Function.update_self, if_true]
      rfl
    · simp only [bind, State.setConn, State.setUser, State.emit, hv, ne_eq, not_false_eq_true,
        Function.update_of_ne, if_false]
      rfl
  rcases updateLastActive_eq (bind s.sessions c u (cstr r.password)) c with heq | ⟨w, hw, -, heq⟩
  · rw [heq, hbind]
  · rw [user_bind, if_pos rfl] at hw
    obtain rfl := Option.some.inj hw
    rw [heq]
    by_cases hv : v = u
    · subst hv
      simp only [State.setUser, Function.update_self, if_true]
      rfl
    · have hother : (((bind s.sessions c u (cstr r.password)).setUser u fun v =>
          { v with lastActive := (bind s.sessions c u (cstr r.password)).now }).users v) =
          (bind s.sessions c u (cstr r.password)).users v := by
        simp only [State.setUser, ne_eq, hv, not_false_eq_true, Function.update_of_ne]
      rw [hother, hbind]

/-- If the tests agree after an accepted login, then the login met the condition. -/
lemma soleLogin_of_agrees {s : State} (h : Linked s) {c : ConnId} (hc : c ∈ s.clients)
    {r : LoginRequest} {u : UserId} (haccepted : acceptedUser s r.username r.password = some u)
    (hagrees : BacklogAgrees (serve ac s c (.login r))) : SoleLogin s c u := by
  intro hpos
  have hclient := client_serve_accepted ac (c := c) haccepted
  have huser := user_serve_accepted ac (c := c) haccepted
  have hactive := lastActive_serve_accepted ac (c := c) haccepted
  have hrest : (serve ac s c (.login r)).clients = s.clients ∧
      (serve ac s c (.login r)).now = s.now ∧
        (serve ac s c (.login r)).loginTimeout = s.loginTimeout := by
    have hsessions := congrArg (fun t => (t.clients, t.now, t.loginTimeout))
      (sessions_serve_accepted ac (c := c) haccepted)
    rcases updateLastActive_eq (bind s.sessions c u (cstr r.password)) c with
      heq | ⟨w, -, -, heq⟩ <;> rw [heq] at hsessions
    · obtain ⟨hclients, hrest⟩ := Prod.mk.inj hsessions
      exact ⟨hclients, Prod.mk.inj hrest⟩
    · obtain ⟨hclients, hrest⟩ := Prod.mk.inj hsessions
      exact ⟨hclients, Prod.mk.inj hrest⟩
  obtain ⟨hclients, hnow, htimeout⟩ := hrest
  have hidle := (acceptedUser_eq_some.mp haccepted).2.2.2
  refine ⟨?_, fun d hd hdc hu => ?_⟩
  · -- a live user of the connection would stay live, but the connection would name `u`
    cases htest : inlineTest s c with
    | none => rfl
    | some v =>
        obtain ⟨hv, hfresh⟩ := inlineTest_eq_some.mp htest
        have hbound := h.back hpos c hc v hv
        have hvu : v ≠ u := fun heq => by
          have hlive := isUserLoggedIn_eq_true.mpr ⟨⟨c, hbound⟩, hfresh⟩
          rw [heq, hidle] at hlive
          cases hlive
        have hafter : inlineTest (serve ac s c (.login r)) c = some v := by
          refine (hagrees c (hclients ▸ hc) v).mpr ⟨isUserLoggedIn_eq_true.mpr ⟨⟨c, ?_⟩, ?_⟩, ?_⟩
          · rw [hclient, if_neg hvu, hbound]
          · rw [hactive, if_neg hvu, hnow, htimeout]
            exact hfresh
          · rw [hclient, if_neg hvu, hbound]
        have hnames := (inlineTest_eq_some.mp hafter).1
        rw [huser, if_pos rfl] at hnames
        exact absurd (Option.some.inj hnames).symm hvu
  · -- another entry that names `u` would pass the test
    have hafter : inlineTest (serve ac s c (.login r)) d = some u := by
      rw [inlineTest_eq_some, huser, if_neg hdc, hactive, if_pos rfl, hnow, htimeout]
      exact ⟨hu, by omega⟩
    have hbound := ((hagrees d (hclients ▸ hd) u).mp hafter).2
    rw [hclient, if_pos rfl] at hbound
    exact hdc (Option.some.inj hbound).symm

/-! ## All runs -/

lemma Loaded.linked {s : State} (hs : Loaded s) : Linked s where
  active u c h := by simp [hs.conn, newConn, (hs.users u).1] at h
  back _ c hc := by simp [hs.clients] at hc
  forth c hc := by simp [hs.clients] at hc

lemma linked_run {p : Setup} {es : List Event} {s : State}
    (run : ServerRun ac p (LoginsMeet SoleLogin) es s) : Linked s := by
  refine run.invariant_of (loaded_init p).linked (fun run => tableOk_run ac run) ?_
  intro s e s' hs h hok hstep
  obtain ⟨-, -, rfl⟩ := (step_eq_some ac).mp hstep
  exact linked_exec ac hs h hok

/-- Where the tests agree, a drain writes the backlog of the live session. -/
lemma writesLive_of_agrees {s : State} (hs : TableOk s) (hfresh : s.pending (.out s.nconns) = [])
    (h : BacklogAgrees s) (e : Event) : WritesLive ac s e := by
  intro u c bs hmem
  obtain ⟨l, hlog, hadded⟩ := log_exec ac hs.server hfresh e
  rw [hlog, List.drop_left] at hmem
  rcases hadded _ hmem with hemits | ⟨fd, n₁, n₂, d, -, hpick, hwrites⟩
  · cases hemits
  · cases hwrites with
    | offline u bs passes => exact (h c (pickConn_some hpick).1 u).mp passes

/-- **The offline backlog.** Throughout a run the two tests agree and the backlog is written to
live sessions only, exactly when every login the run accepts is on a connection of no live user,
for a user whom no other entry names. -/
theorem backlog_iff {p : Setup} {es : List Event} {s : State}
    (run : ServerRun ac p Always es s) :
    (ServerRun ac p (fun s e => BacklogAgrees s ∧ WritesLive ac s e) es s ∧ BacklogAgrees s) ↔
      ServerRun ac p (LoginsMeet SoleLogin) es s := by
  have hiff : Throughout (step ac) p.init BacklogAgrees es s ↔
      ServerRun ac p (LoginsMeet SoleLogin) es s := by
    refine run.throughout_iff (loaded_init p).linked.agrees
      (Q := fun s => TableOk s ∧ Linked s)
      (fun run => ⟨tableOk_run ac run, linked_run ac run⟩) ?_
    rintro s e s' ⟨hs, h⟩ - hstep
    obtain ⟨-, -, rfl⟩ := (step_eq_some ac).mp hstep
    constructor
    · intro hagrees
      unfold LoginsMeet
      split
      · next r =>
          intro c hc u hu
          have hserving : s.serving = some c := hc
          simp only [exec, hserving] at hagrees
          exact soleLogin_of_agrees ac h (hs.serving_ok c hserving).1 hu hagrees
      · trivial
    · exact fun hok => (linked_exec ac hs h hok).agrees
  rw [← hiff]
  constructor
  · exact fun h => ⟨h.1.weaken fun _ _ h => h.1, h.2⟩
  · refine fun h => ⟨h.1.weaken_of (Q := fun s => TableOk s ∧ Accounted s)
      (fun run => ⟨tableOk_run ac run, accounted_run ac run⟩) ?_, h.2⟩
    rintro t e ⟨hs, haccounted⟩ hagrees
    exact ⟨hagrees, writesLive_of_agrees ac hs haccounted.pending_fresh hagrees e⟩

/-- Yoda leaves hans a message, and hans logs in and reads it. -/
theorem backlog_demo :
    ∃ s, ServerRun protobufWire demo (LoginsMeet SoleLogin)
        (acceptAndServe 7 [loginAs "yoda" "wise", messageTo "hans" "hi"] ++
          acceptAndServe 6 [loginAs "hans" "falcon"] ++ [.writable 6 (some 21) (some 16)]) s ∧
      ServerRun protobufWire demo (fun s e => BacklogAgrees s ∧ WritesLive protobufWire s e)
        (acceptAndServe 7 [loginAs "yoda" "wise", messageTo "hans" "hi"] ++
          acceptAndServe 6 [loginAs "hans" "falcon"] ++ [.writable 6 (some 21) (some 16)]) s := by
  obtain ⟨s, run, -⟩ := Run.exists_of_execute (step protobufWire) (LoginsMeet SoleLogin) demo.init
    (acceptAndServe 7 [loginAs "yoda" "wise", messageTo "hans" "hi"] ++
      acceptAndServe 6 [loginAs "hans" "falcon"] ++ [.writable 6 (some 21) (some 16)])
    (fun _ => True) (by decide +kernel)
  exact ⟨s, run, ((backlog_iff protobufWire run.always).mpr run).1⟩

/-- The entry writes bytes of the user's offline buffer to the connection. -/
def Obs.isBacklog (u : UserId) (c : ConnId) : Obs → Bool
  | .move (.take q d _) => q = .offline u && d = c
  | _ => false

/-- Hans is idle for too long on one connection and logs in on another.  The message that was
left for him is written to the old one. -/
theorem not_writesLive_takeover :
    ¬ ∀ (ac : Achelper) (p : Setup) (es : List Event) (s : State) (e : Event),
      ServerRun ac p Always es s → (step ac s e).isSome = true → WritesLive ac s e := by
  intro h
  obtain ⟨s, run, hclient, hsome, hany⟩ := Run.exists_of_execute (step protobufWire) Always
    demo.init
    (acceptAndServe 5 [loginAs "hans" "falcon"] ++ [.tick 300] ++
      acceptAndServe 7 [loginAs "yoda" "wise", messageTo "hans" "hi"] ++
        acceptAndServe 6 [loginAs "hans" "falcon"])
    (fun s => (s.users 0).client = some 2 ∧
      (step protobufWire s (.writable 5 (some 21) (some 16))).isSome = true ∧
      ((exec protobufWire s (.writable 5 (some 21) (some 16))).log.drop s.log.length).any
        (Obs.isBacklog 0 0) = true) (by decide +kernel)
  obtain ⟨o, ho, hwrite⟩ := List.any_eq_true.mp hany
  unfold Obs.isBacklog at hwrite
  split at hwrite
  · next q c bs =>
      simp only [Bool.and_eq_true, decide_eq_true_eq] at hwrite
      obtain ⟨rfl, rfl⟩ := hwrite
      have hlive := h protobufWire demo _ s _ run hsome 0 0 bs ho
      rw [hclient] at hlive
      exact absurd hlive.2 (by decide)
  · cases hwrite

end EpollChat

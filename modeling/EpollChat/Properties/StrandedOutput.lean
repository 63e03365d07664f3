import EpollChat.Construction.Demo
import EpollChat.Properties.Drains

/-!
# Stranded output

A connection with output waiting must ask for `EPOLLOUT`: otherwise nothing drains the output
until somebody happens to queue more.  Output waits in the connection's outbuffer, and in the
offline buffer of its user as long as he is logged in.

The registration is lost in two places.  In the `EPOLLOUT` branch each of the two calls of
`im_send_buffer` switches `EPOLLOUT` off where its own queue has become empty, whatever the other
queue holds.  And a login makes a user live on every connection that still names him, not only
on the one he logs in on, whose answer arms it.  `DrainsTogether` excludes both, and under it no
output is ever stranded (`noStranded_run`).
-/

namespace EpollChat

variable (ac : Achelper)

/-! ## Waiting output -/

/-- Output waits for the connection, where the users in `live` count as logged in. -/
def Waits (live : UserId → Prop) (s : State) (c : ConnId) : Prop :=
  s.pending (.out c) ≠ [] ∨
    ∃ u, (s.conn c).user = some u ∧ live u ∧ s.pending (.offline u) ≠ []

/-- The user is logged in. -/
def Live (s : State) (u : UserId) : Prop := isUserLoggedIn s (some u) = true

/-- **No stranded output.** Every open connection for which output waits asks for `EPOLLOUT`. -/
def NoStranded (s : State) : Prop :=
  ∀ c, s.IsOpen c → Waits (Live s) s c → s.epoll (s.conn c).fd = some true

/-- The connections outside `except` are attended to, where the users in `live` count as logged
in; and the open descriptors are the registered ones. -/
structure Attends (live : UserId → Prop) (except : ConnId → Prop) (s : State) : Prop where
  armed : ∀ c, ¬ except c → s.IsOpen c → Waits live s c → s.epoll (s.conn c).fd = some true
  registered : ∀ fd, s.epoll fd = none ↔ s.sock fd = none

/-! ## The condition -/

/-- Whoever still names the user asks for `EPOLLOUT` if output waits for the user. -/
def LeavesNobodyWaiting (s : State) (c : ConnId) (u : UserId) : Prop :=
  ∀ d ∈ s.clients, s.IsOpen d → d ≠ c → (s.conn d).user = some u →
    s.pending (.offline u) ≠ [] → s.epoll (s.conn d).fd = some true

instance (s : State) (c : ConnId) (u : UserId) : Decidable (LeavesNobodyWaiting s c u) := by
  unfold LeavesNobodyWaiting
  infer_instance

/-- The two queues of a drain are emptied together: the offline buffer only with the outbuffer,
and the outbuffer only with the offline buffer of a user who is logged in. -/
def EmptiedTogether (s : State) (c : ConnId) (u : UserId) (n₁ n₂ : Option ℕ) : Prop :=
  (restLength s (.offline u) n₂ = 0 → restLength s (.out c) n₁ = 0) ∧
    (restLength s (.out c) n₁ = 0 →
      restLength s (.offline u) n₂ = 0 ∨ isUserLoggedIn s (some u) = false)

instance (s : State) (c : ConnId) (u : UserId) (n₁ n₂ : Option ℕ) :
    Decidable (EmptiedTogether s c u n₁ n₂) := by
  unfold EmptiedTogether
  infer_instance

/-- The condition on an event that it strands no output. -/
def DrainsTogether (s : State) : Event → Prop
  | .writable fd n₁ n₂ =>
      ∀ c ∈ pickConn s fd, ∀ u ∈ inlineTest s c, EmptiedTogether s c u n₁ n₂
  | .request req => LoginsMeet LeavesNobodyWaiting s (.request req)
  | _ => True

instance (s : State) (e : Event) : Decidable (DrainsTogether s e) :=
  match e with
  | .writable fd n₁ n₂ =>
      inferInstanceAs (Decidable (∀ c ∈ pickConn s fd, ∀ u ∈ inlineTest s c,
        EmptiedTogether s c u n₁ n₂))
  | .request req => inferInstanceAs (Decidable (LoginsMeet LeavesNobodyWaiting s (.request req)))
  | .accept .. | .hangup _ | .eof _ | .readable _ | .readDone | .tick _ | .sweep =>
      .isTrue trivial

/-! ## What keeps connections attended -/

section Keep

variable {live : UserId → Prop} {except except' : ConnId → Prop} {s t : State}

/-- A change that leaves sockets, registrations and queues alone, and gives no connection outside
`except` a user that counts. -/
lemma Attends.of_frame (h : Attends live except s) (hepoll : t.epoll = s.epoll)
    (hsock : t.sock = s.sock) (hfd : ∀ c, (t.conn c).fd = (s.conn c).fd)
    (hpending : ∀ q, t.pending q = s.pending q)
    (huser : ∀ c u, ¬ except c → (t.conn c).user = some u → (s.conn c).user = some u) :
    Attends live except t where
  armed c hc hopen hwaits := by
    unfold State.IsOpen at hopen
    rw [hsock, hfd] at hopen
    rw [hepoll, hfd]
    refine h.armed c hc hopen (hwaits.imp (fun hout => ?_) fun ⟨u, hu, hlive, hoff⟩ => ?_)
    · rwa [hpending] at hout
    · exact ⟨u, huser c u hc hu, hlive, by rwa [hpending] at hoff⟩
  registered fd := by
    rw [hepoll, hsock]
    exact h.registered fd

/-- A change that leaves sessions, registrations and queues alone. -/
lemma Attends.of_sessions (h : Attends live except s) (hsessions : t.sessions = s.sessions)
    (hepoll : t.epoll = s.epoll) (hpending : ∀ q, t.pending q = s.pending q) :
    Attends live except t := by
  have hsock : t.sock = s.sock := by
    have h' := congrArg State.sock hsessions
    exact h'
  have hfd : ∀ c, (t.conn c).fd = (s.conn c).fd := fun c => by
    have h' := congrArg (fun x => (x.conn c).fd) hsessions
    exact h'
  have huser : ∀ c, (t.conn c).user = (s.conn c).user := fun c => by
    have h' := congrArg (fun x => (x.conn c).user) hsessions
    exact h'
  exact h.of_frame hepoll hsock hfd hpending fun c u _ hu => (huser c).symm.trans hu

lemma Attends.touch (h : Attends live except s) (c : ConnId) : Attends live except (s.touch c) :=
  h.of_sessions (by simp) (by simp) (by simp)

lemma Attends.touches (h : Attends live except s) (cs : List ConnId) :
    Attends live except (cs.foldl State.touch s) := by
  induction cs generalizing s with
  | nil => exact h
  | cons c cs ih => exact ih (h.touch c)

/-- A delivery arms the connection it goes through. -/
lemma attends_deliver (h : Attends live except s) {d : Delivery}
    (hqueue : ∀ u, d.queue = .offline u → ¬ live u)
    (hexcept : ∀ c, except c → except' c ∨ d.queue = .out c) :
    Attends live except' (deliver ac s d) := by
  have hcore := core_deliver ac s d
  refine ⟨fun c hc hopen hwaits => ?_, fun fd => ?_⟩
  · have hopen' : s.IsOpen c := (isOpen_iff_of_core hcore c).mp hopen
    have hreg : s.epoll (s.conn c).fd ≠ none := by
      rw [Ne, h.registered, hopen']
      exact Option.some_ne_none c
    rw [epoll_deliver, fd_eq_of_core hcore]
    by_cases hfd : s.fdOf d.queue = some (s.conn c).fd
    · rw [if_pos hfd]
      obtain ⟨b, hb⟩ := Option.ne_none_iff_exists'.mp hreg
      rw [hb]
      rfl
    · rw [if_neg hfd]
      have hother : d.queue ≠ .out c := fun hq => hfd (by rw [hq]; rfl)
      have hc' : ¬ except c := fun hc' => (hexcept c hc').elim hc hother
      refine h.armed c hc' hopen' (hwaits.imp (fun hout => ?_) fun ⟨u, hu, hlive, hoff⟩ => ?_)
      · rwa [pending_deliver, if_neg (Ne.symm hother)] at hout
      · have hne : Queue.offline u ≠ d.queue := fun hq => hqueue u hq.symm hlive
        rw [pending_deliver, if_neg hne] at hoff
        rw [user_eq_of_core hcore] at hu
        exact ⟨u, hu, hlive, hoff⟩
  · rw [epoll_deliver, sock_eq_of_core hcore, ← h.registered]
    split <;> simp

/-- The connections a list of deliveries does not spoil. -/
lemma attends_deliverAll (h : Attends live except s) {ds : List Delivery}
    (hqueue : ∀ d ∈ ds, ∀ u, d.queue = .offline u → ¬ live u) :
    Attends live except (deliverAll ac s ds) := by
  induction ds generalizing s with
  | nil => exact h
  | cons d ds ih =>
      rw [deliverAll_cons]
      exact ih (attends_deliver ac h (hqueue d List.mem_cons_self) fun c hc => .inl hc)
        fun d hd => hqueue d (List.mem_cons_of_mem _ hd)

/-- Announcements go through connections. -/
lemma attends_announcements (h : Attends live except s) (t : State) (subject : UserId)
    (why : UserId → Why) (rsp : IMResponse) :
    Attends live except (deliverAll ac s (announcements t subject why rsp)) := by
  refine attends_deliverAll ac h fun d hd u hu => ?_
  obtain ⟨v, c, -, -, -, -, -, rfl⟩ := mem_announcements hd
  cases hu

lemma attends_unlink (h : Attends live except s) (u : UserId) (c : ConnId) :
    Attends live except (unlink s u c) := by
  refine h.of_frame rfl rfl (fun d => fd_unlink s u c d) (fun q => ?_) fun d v _ hv => ?_
  · unfold unlink
    rw [State.pending_emit, State.pending_setUser, State.pending_setConn] <;> exact fun _ => rfl
  · rw [user_unlink] at hv
    split at hv
    · cases hv
    · exact hv

lemma attends_logoutUser (hserver : s.isServer = true) (h : Attends live except s)
    (u : Option UserId) : Attends live except (logoutUser ac s u) := by
  cases u with
  | none => exact h
  | some u =>
      cases hc : (s.users u).client with
      | none =>
          rw [logoutUser_of_none ac hc]
          exact h
      | some c =>
          rw [logoutUser_of_client ac hserver hc]
          exact attends_announcements ac (attends_unlink (h.touch c) u c) _ u _ _

lemma attends_closeSocket (hserver : s.isServer = true) (h : Attends live except s) (c : ConnId) :
    Attends live except (closeSocket ac s c) := by
  have hlock : Attends live except ((s.touch c).lock c) :=
    h.of_sessions (sessions_congr (by simp)) (by simp) (by simp)
  have hserver' : ((s.touch c).lock c).isServer = true := by
    have h' := congrArg State.isServer (show ((s.touch c).lock c).core = s.core by simp)
    exact Eq.trans h' hserver
  have hout := attends_logoutUser ac hserver' hlock (((s.touch c).lock c).conn c).user
  unfold closeSocket
  dsimp only
  generalize logoutUser ac ((s.touch c).lock c) _ = t at hout ⊢
  refine ⟨fun d hd hopen hwaits => ?_, fun fd => ?_⟩
  · -- an open connection has another descriptor
    have hopen' : Function.update t.sock (t.conn c).fd none (t.conn d).fd = some d := hopen
    rw [Function.update_apply] at hopen'
    split at hopen'
    · cases hopen'
    · next hne =>
        show Function.update t.epoll (t.conn c).fd none (t.conn d).fd = some true
        rw [Function.update_of_ne hne]
        exact hout.armed d hd hopen' hwaits
  · show Function.update t.epoll (t.conn c).fd none fd = none ↔
      Function.update t.sock (t.conn c).fd none fd = none
    rw [Function.update_apply, Function.update_apply]
    split
    · simp
    · exact hout.registered fd

lemma attends_setChunks (h : Attends live except s) (c : ConnId) (chunks : Option ChunkList) :
    Attends live except (setChunks s c chunks) := by
  refine h.of_sessions (sessions_setChunks s c chunks) ?_ fun q => ?_
  · cases chunks <;> rfl
  · cases chunks with
    | none => exact State.pending_raise s _ q
    | some chunks =>
        unfold setChunks
        rw [State.pending_setConn]
        exact fun _ => rfl

lemma attends_updateLastActive (h : Attends live except s) (c : ConnId) :
    Attends live except (updateLastActive s c) := by
  rcases updateLastActive_eq s c with heq | ⟨u, -, -, heq⟩ <;> rw [heq]
  · exact h
  · refine h.of_frame rfl rfl (fun _ => rfl) (fun q => ?_) fun _ _ _ hu => hu
    rw [State.pending_setUser]
    exact fun _ => rfl

/-- Only messages to users who are not logged in go into offline buffers. -/
lemma attends_of_effect (h : Attends (Live s) except s) {c : ConnId} {req : Request}
    (heffect : CommandEffect ac s c req t) : Attends (Live s) except t := by
  cases heffect with
  | reads _ cs => exact h.touches cs
  | messages r u ds own live chats =>
      refine attends_deliverAll ac h fun d hd w hw hlive => ?_
      obtain ⟨v, -, -, rfl⟩ := chats d hd
      obtain ⟨rfl, hnot⟩ := sendTarget_eq_offline hw
      rw [Live, hnot] at hlive
      cases hlive
  | blocks _ u f =>
      refine h.of_sessions (sessions_setUser_id s u fun _ => rfl) rfl fun q => ?_
      rw [State.pending_setUser]
      exact fun _ => rfl
  | taken r f found =>
      exact h.of_sessions rfl rfl fun q => State.pending_congr rfl rfl q
  | file r free live =>
      have hstored : Attends (Live s) except
          { s with
            fileDb := (addFile s.fileDb s.globalChunkId r.filename r.chunks).1
            globalChunkId := s.globalChunkId + r.chunks } :=
        h.of_sessions rfl rfl fun q => State.pending_congr rfl rfl q
      exact (attends_setChunks hstored c _).of_sessions (sessions_emit_id _ rfl) rfl
        fun q => State.pending_emit _ _ q
  | chunks r f found live =>
      exact (attends_setChunks h c _).of_sessions (sessions_emit_id _ rfl) rfl
        fun q => State.pending_emit _ _ q

lemma attends_refused (h : Attends live except s) (username password : Bytes) :
    Attends live except (refused s username password) := by
  rcases refused_cases s username password with hsame | ⟨u, attempts, lastBlocked, -, hcounted⟩
  · rw [hsame]
    exact h
  · rw [hcounted]
    refine h.of_sessions (sessions_setUser_id s u ?_) rfl (State.pending_setUser s u ?_) <;>
      exact fun _ => rfl

lemma attends_timeThread (hserver : s.isServer = true) (h : Attends live except s) :
    Attends live except (timeThread ac s) := by
  unfold timeThread
  generalize s.clients = l
  induction l generalizing s with
  | nil => exact h
  | cons c l ih =>
      have hfewer := fewer_sweepClient ac s c
      refine ih (hfewer.server.trans hserver) ?_
      unfold sweepClient
      split
      · rw [sendResponseToClient_eq]
        refine attends_deliver ac (attends_logoutUser ac hserver h _) ?_ fun d hd => .inl hd
        intro u hu
        cases hu
      · exact h

lemma attends_acceptClient (h : Attends live except s) (fd : ℕ) (addr : SockAddr) :
    Attends live except (acceptClient s fd addr) := by
  have hepoll : (acceptClient s fd addr).epoll = Function.update s.epoll fd (some false) := by
    obtain ⟨_, _, heq⟩ := acceptClient_eq s fd addr
    rw [heq]
  have hoffline : ∀ u, (acceptClient s fd addr).pending (.offline u) = s.pending (.offline u) := by
    intro u
    simp [State.pending, State.buf]
  refine ⟨fun c hc hopen hwaits => ?_, fun fd' => ?_⟩
  · by_cases hnew : c = s.nconns
    · -- nothing waits for the new connection
      subst hnew
      exfalso
      rcases hwaits with hout | ⟨u, hu, -⟩
      · exact hout (by simp [State.pending, State.buf, newConn])
      · rw [conn_acceptClient, Function.update_self] at hu
        cases hu
    · have hconn : (acceptClient s fd addr).conn c = s.conn c := by
        rw [conn_acceptClient, Function.update_of_ne hnew]
      unfold State.IsOpen at hopen
      rw [hconn, sock_acceptClient, Function.update_apply] at hopen
      split at hopen
      · exact absurd (Option.some.inj hopen).symm hnew
      · next hne =>
          rw [hepoll, hconn, Function.update_of_ne hne]
          refine h.armed c hc hopen (hwaits.imp (fun hout => ?_) ?_)
          · simpa [State.pending, State.buf, hconn, hnew] using hout
          · rintro ⟨u, hu, hlive, hoff⟩
            rw [hconn] at hu
            exact ⟨u, hu, hlive, hoffline u ▸ hoff⟩
  · rw [hepoll, sock_acceptClient, Function.update_apply, Function.update_apply]
    split
    · simp
    · exact h.registered fd'

end Keep

/-! ## Who is logged in -/

lemma live_updateLastActive {s : State} {c : ConnId} {u : UserId}
    (h : Live (updateLastActive s c) u) : Live s u := by
  rcases updateLastActive_eq s c with heq | ⟨w, -, hw, heq⟩ <;> rw [heq] at h
  · exact h
  · by_cases huw : u = w
    · exact huw ▸ hw
    · simpa [Live, isUserLoggedIn, State.setUser, huw] using h

/-- Without an accepted login nobody becomes logged in. -/
lemma live_of_no_login {s s' : State} (hs : TableOk s) {e : Event}
    (hnone : LoginsMeet (fun _ _ _ => False) s e) (h : step ac s e = some s') {u : UserId}
    (hu : Live s' u) : Live s u := by
  have hmoves := sessions_step ac (fun _ _ _ => False) hs hnone (fun _ _ _ h => h) h
  have hsessions : ∀ t : State, Live t.sessions u ↔ Live t u := fun t => by
    rw [Live, isUserLoggedIn_sessions, Live]
  rw [← hsessions]
  refine hmoves.invariant (P := fun t => Live t u → Live s.sessions u) (fun t t' ht move hlive => ?_)
    id ((hsessions s').mpr hu)
  cases move with
  | accept fd addr free idle =>
      rw [hsessions, Live, isUserLoggedIn_acceptClient] at hlive
      exact ht hlive
  | begin fd isOpen idle => exact ht hlive
  | finish => exact ht hlive
  | active c serves => exact ht (live_updateLastActive hlive)
  | bind c w username password serves found knows idle ok => exact ok.elim
  | unlink w c bound =>
      by_cases huw : u = w
      · subst huw
        simp [Live, isUserLoggedIn, client_unlink] at hlive
      · rw [Live, isUserLoggedIn_unlink huw] at hlive
        exact ht hlive
  | shut c own unbound => exact ht hlive
  | tick seconds =>
      obtain ⟨hclient, hactive⟩ := isUserLoggedIn_eq_true.mp hlive
      refine ht (isUserLoggedIn_eq_true.mpr ⟨hclient, ?_⟩)
      dsimp only at hactive
      omega

/-! ## One event -/

lemma attends_serve {s : State} (hserver : s.isServer = true)
    (h : Attends (Live s) (fun _ => False) s) (c : ConnId) {req : Request}
    (hnone : ∀ r, req = .login r → acceptedUser s r.username r.password = none) :
    Attends (Live s) (fun _ => False) (serve ac s c req) := by
  have hcommand : Attends (Live s) (fun _ => False) (runCommand ac s c req).1 := by
    cases hquiet : req.isQuiet with
    | true => exact attends_of_effect ac h (runCommand_effect ac s c hquiet)
    | false =>
        cases req with
        | login r =>
            obtain ⟨rsp, hrsp⟩ := cmdLoginImpl_of_refused ac (c := c) (hnone r rfl)
            show Attends _ _ (cmdLoginImpl ac s c r).1
            rw [hrsp]
            exact attends_refused h r.username r.password
        | logout =>
            show Attends _ _ (cmdLogoutImpl ac s c).1
            unfold cmdLogoutImpl
            split
            · exact h
            · exact attends_closeSocket ac hserver h c
        | _ => cases hquiet
  have hrun : Attends (Live s) (fun _ => False) (runRequest ac s c req).1 := by
    by_cases hunknown : ∃ type, req = .unknown type
    · obtain ⟨type, rfl⟩ := hunknown
      exact h
    · rw [runRequest_of_known ac s c fun type h => hunknown ⟨type, h⟩]
      exact attends_updateLastActive hcommand c
  unfold serve
  generalize runRequest ac s c req = result at hrun
  obtain ⟨t, rsp⟩ := result
  cases rsp with
  | none => exact hrun
  | some rsp =>
      refine attends_deliver ac hrun (d := ⟨.out c, .reply, rsp⟩) ?_ fun d hd => .inl hd
      intro u hu
      cases hu

/-- An accepted login that leaves nobody waiting: the answer arms the connection itself. -/
lemma attends_serve_accepted {s : State} (hs : TableOk s)
    (h : Attends (Live s) (fun _ => False) s) {c : ConnId} {r : LoginRequest} {u : UserId}
    (haccepted : acceptedUser s r.username r.password = some u)
    (hok : LeavesNobodyWaiting s c u) :
    Attends (Live (serve ac s c (.login r))) (fun _ => False) (serve ac s c (.login r)) := by
  -- from now on `u` counts as logged in, and `c` is not looked at
  have hstart : Attends (fun v => Live s v ∨ v = u) (· = c) s := by
    refine ⟨fun d hd hopen hwaits => ?_, h.registered⟩
    rcases hwaits with hout | ⟨v, hv, hlive | rfl, hoff⟩
    · exact h.armed d id hopen (.inl hout)
    · exact h.armed d id hopen (.inr ⟨v, hv, hlive, hoff⟩)
    · exact hok d (hs.sock_ok _ d hopen).1 hopen hd hv hoff
  have hrefresh : Attends (fun v => Live s v ∨ v = u) (· = c) (refresh s u) := by
    refine hstart.of_frame rfl rfl (fun _ => rfl) (fun q => ?_) fun _ _ _ hv => hv
    unfold refresh
    rw [State.pending_setUser]
    exact fun _ => rfl
  have hannounced := attends_announcements ac hrefresh (refresh s u) u (.loggedIn · u)
    (encodeTextResponseToIMResponse ac (cstr r.username ++ text " has logged in") true)
  have hlink : Attends (fun v => Live s v ∨ v = u) (· = c)
      (link (deliverAll ac (refresh s u) (loginAnnouncements ac (refresh s u) u r.username))
        c u r) := by
    refine hannounced.of_frame rfl rfl (fun d => ?_) (fun q => ?_) fun d v hd hv => ?_
    · by_cases hd : d = c
      · subst hd
        simp [link, State.setConn, State.setUser, State.emit, loginAnnouncements]
      · simp [link, State.setConn, State.setUser, State.emit, loginAnnouncements, hd]
    · unfold link
      rw [State.pending_setConn, State.pending_emit, State.pending_setUser, State.pending_setConn]
      · rfl
      all_goals exact fun _ => rfl
    · simpa [link, State.setConn, State.setUser, State.emit, loginAnnouncements, hd] using hv
  have hserve : serve ac s c (.login r) = deliver ac (updateLastActive
      (link (deliverAll ac (refresh s u) (loginAnnouncements ac (refresh s u) u r.username))
        c u r) c) ⟨.out c, .reply, welcome ac (link
          (deliverAll ac (refresh s u) (loginAnnouncements ac (refresh s u) u r.username))
          c u r) u⟩ := by
    unfold serve
    simp only [runRequest, runCommand, cmdLoginImpl_of_accepted ac haccepted]
    rfl
  have hdone : Attends (fun v => Live s v ∨ v = u) (fun _ => False) (serve ac s c (.login r)) := by
    rw [hserve]
    refine attends_deliver ac (attends_updateLastActive hlink c) ?_ fun d hd => .inr ?_
    · intro v hv
      cases hv
    · exact congrArg Queue.out hd.symm
  refine ⟨fun d hd hopen hwaits => hdone.armed d hd hopen (hwaits.imp id ?_), hdone.registered⟩
  rintro ⟨v, hv, hlive, hoff⟩
  refine ⟨v, hv, ?_, hoff⟩
  by_cases hvu : v = u
  · exact .inr hvu
  · left
    rw [Live, ← isUserLoggedIn_sessions, sessions_serve_accepted ac haccepted] at hlive
    have hbound := live_updateLastActive hlive
    rw [Live, ← isUserLoggedIn_sessions]
    simpa [Live, isUserLoggedIn, bind, State.setUser, State.setConn, State.emit, hvu] using hbound

section Drain

variable {s : State} {c : ConnId} {n₁ n₂ : Option ℕ} (hresults : DrainResults s c n₁ n₂)
include hresults

/-- What waits for the drained connection is the rest of the two queues. -/
lemma waits_networkWritable_iff :
    Waits (Live (networkWritable s c n₁ n₂)) (networkWritable s c n₁ n₂) c ↔
      restLength s (.out c) n₁ ≠ 0 ∨
        ∃ u, inlineTest s c = some u ∧ Live s u ∧ restLength s (.offline u) n₂ ≠ 0 := by
  have hcore := core_networkWritable s c n₁ n₂
  have hpending := pending_networkWritable hresults
  have hlive : ∀ u, Live (networkWritable s c n₁ n₂) u ↔ Live s u := fun u => by
    rw [Live, isUserLoggedIn_congr hcore, Live]
  have hempty : ∀ q n, (s.pending q).drop (n.getD 0) ≠ [] ↔ restLength s q n ≠ 0 := by
    intro q n
    rw [restLength, Ne, List.drop_eq_nil_iff]
    omega
  unfold Waits
  rw [hpending (.out c), if_pos rfl, hempty]
  refine or_congr Iff.rfl (exists_congr fun u => ?_)
  rw [user_eq_of_core hcore, hlive]
  constructor
  · rintro ⟨huser, hliveu, hwaits⟩
    have htest := inlineTest_of_loggedIn huser hliveu
    rw [hpending, if_neg (by simp), if_pos ⟨u, htest, rfl⟩, hempty] at hwaits
    exact ⟨htest, hliveu, hwaits⟩
  · rintro ⟨htest, hliveu, hrest⟩
    refine ⟨user_of_inlineTest htest, hliveu, ?_⟩
    rw [hpending, if_neg (by simp), if_pos ⟨u, htest, rfl⟩, hempty]
    exact hrest

/-- What waits for another connection waited before. -/
lemma waits_of_networkWritable {d : ConnId} (hd : d ≠ c)
    (h : Waits (Live (networkWritable s c n₁ n₂)) (networkWritable s c n₁ n₂) d) :
    Waits (Live s) s d := by
  have hcore := core_networkWritable s c n₁ n₂
  have hpending := pending_networkWritable hresults
  refine h.imp (fun hne => ?_) fun ⟨u, hu, hliveu, hne⟩ => ?_
  · rw [hpending, if_neg (by simpa using hd), if_neg (by simp)] at hne
    exact hne
  · rw [user_eq_of_core hcore] at hu
    rw [Live, isUserLoggedIn_congr hcore] at hliveu
    refine ⟨u, hu, hliveu, fun hnil => hne ?_⟩
    rw [hpending, if_neg (by simp)]
    split <;> simp [hnil]

/-- The branch leaves `EPOLLOUT` on as long as it empties neither queue. -/
lemma armed_networkWritable_iff (hasked : s.epoll (s.conn c).fd = some true) :
    (networkWritable s c n₁ n₂).epoll (s.conn c).fd = some true ↔
      restLength s (.out c) n₁ ≠ 0 ∧
        ∀ u, inlineTest s c = some u → restLength s (.offline u) n₂ ≠ 0 := by
  rw [epoll_networkWritable hresults, hasked]
  by_cases hout : restLength s (.out c) n₁ = 0
  · simp [hout]
  · by_cases hoff : ∃ u, inlineTest s c = some u ∧ restLength s (.offline u) n₂ = 0
    · rw [if_pos ⟨rfl, .inr hoff⟩]
      obtain ⟨u, hu, hzero⟩ := hoff
      exact ⟨fun h => by simp at h, fun h => absurd hzero (h.2 u hu)⟩
    · rw [if_neg fun h => h.2.elim hout hoff]
      exact ⟨fun _ => ⟨hout, fun u hu hzero => hoff ⟨u, hu, hzero⟩⟩, fun _ => rfl⟩

/-- The drained connection is attended to exactly if its two queues are emptied together. -/
lemma attended_networkWritable_iff (hasked : s.epoll (s.conn c).fd = some true) :
    (Waits (Live (networkWritable s c n₁ n₂)) (networkWritable s c n₁ n₂) c →
      (networkWritable s c n₁ n₂).epoll (s.conn c).fd = some true) ↔
      ∀ u ∈ inlineTest s c, EmptiedTogether s c u n₁ n₂ := by
  rw [waits_networkWritable_iff hresults, armed_networkWritable_iff hresults hasked]
  cases htest : inlineTest s c with
  | none => simp
  | some u =>
      have hdead : isUserLoggedIn s (some u) = false ↔ ¬ Live s u := by
        rw [Live, Bool.not_eq_true]
      simp only [Option.some.injEq, Option.mem_def, forall_eq', exists_eq_left', EmptiedTogether,
        hdead]
      tauto

end Drain

/-- **One drain** strands no output exactly if it empties the two queues together. -/
lemma noStranded_networkWritable_iff {s : State} (h : Attends (Live s) (fun _ => False) s)
    {c : ConnId} (hopen : s.IsOpen c) (hasked : s.epoll (s.conn c).fd = some true)
    {n₁ n₂ : Option ℕ} (hresults : DrainResults s c n₁ n₂) :
    NoStranded (networkWritable s c n₁ n₂) ↔ ∀ u ∈ inlineTest s c, EmptiedTogether s c u n₁ n₂ := by
  have hcore := core_networkWritable s c n₁ n₂
  rw [← attended_networkWritable_iff hresults hasked]
  constructor
  · intro hattended hwaits
    have harmed := hattended c ((isOpen_iff_of_core hcore c).mpr hopen) hwaits
    rwa [fd_eq_of_core hcore] at harmed
  · intro hdrained d hopend hwaits
    rw [isOpen_iff_of_core hcore] at hopend
    rw [fd_eq_of_core hcore]
    by_cases hd : d = c
    · subst hd
      exact hdrained hwaits
    · have hfd : (s.conn d).fd ≠ (s.conn c).fd := fun hfd =>
        hd (State.IsOpen.eq_of_fd hopend hopen hfd)
      rw [epoll_networkWritable hresults, if_neg fun h => hfd h.1]
      exact h.armed d id hopend (waits_of_networkWritable hresults hd hwaits)

/-- Sockets and registrations agree after a drain. -/
lemma registered_networkWritable {s : State} (h : ∀ fd, s.epoll fd = none ↔ s.sock fd = none)
    {c : ConnId} {n₁ n₂ : Option ℕ} (hresults : DrainResults s c n₁ n₂) (fd : ℕ) :
    (networkWritable s c n₁ n₂).epoll fd = none ↔ (networkWritable s c n₁ n₂).sock fd = none := by
  rw [epoll_networkWritable hresults, sock_eq_of_core (core_networkWritable s c n₁ n₂), ← h]
  split <;> simp

/-! ## All runs -/

/-- The invariant: nothing is stranded, and the open descriptors are the registered ones. -/
lemma attends_step {s s' : State} (hs : TableOk s) (h : Attends (Live s) (fun _ => False) s)
    {e : Event} (hok : DrainsTogether s e) (hstep : step ac s e = some s') :
    Attends (Live s') (fun _ => False) s' := by
  have hlive : ∀ t, Attends (Live s) (fun _ => False) t →
      (∀ u, Live t u → Live s u) → Attends (Live t) (fun _ => False) t := by
    intro t ht hless
    refine ⟨fun c hc hopen hwaits => ht.armed c hc hopen (hwaits.imp id ?_), ht.registered⟩
    exact fun ⟨u, hu, hliveu, hoff⟩ => ⟨u, hu, hless u hliveu, hoff⟩
  obtain ⟨henabled, -, hexec⟩ := (step_eq_some ac).mp hstep
  by_cases hnone : LoginsMeet (fun _ _ _ => False) s e
  · have hless : ∀ u, Live s' u → Live s u := fun u => live_of_no_login ac hs hnone hstep
    subst hexec
    cases e with
    | accept fd addr => exact hlive _ (attends_acceptClient h fd addr) hless
    | hangup fd | eof fd =>
        refine hlive _ ?_ hless
        simp only [exec]
        cases pickConn s fd with
        | none => exact h
        | some c => exact attends_closeSocket ac hs.server h c
    | readable fd =>
        refine hlive _ ?_ hless
        exact h.of_frame rfl rfl (fun _ => rfl) (fun q => State.pending_congr rfl rfl q)
          fun _ _ _ hu => hu
    | request req =>
        refine hlive _ ?_ hless
        simp only [exec]
        cases hserving : s.serving with
        | none => exact h
        | some c =>
            refine attends_serve ac hs.server h c fun r hr => ?_
            subst hr
            by_contra hsome
            obtain ⟨u, hu⟩ := Option.ne_none_iff_exists'.mp hsome
            exact hnone c hserving u hu
    | readDone =>
        refine hlive _ ?_ hless
        exact h.of_frame rfl rfl (fun _ => rfl) (fun q => State.pending_congr rfl rfl q)
          fun _ _ _ hu => hu
    | writable fd n₁ n₂ =>
        obtain ⟨-, hsock, hasked, hresults⟩ := henabled
        simp only [exec] at hless ⊢
        cases hpick : pickConn s fd with
        | none => exact h
        | some c =>
            have hopen := hs.isOpen_of_pickConn hsock hpick
            have hfd := (pickConn_some hpick).2
            have hdrain : DrainResults s c n₁ n₂ := hresults c hpick
            have hstranded := (noStranded_networkWritable_iff h hopen (hfd ▸ hasked) hdrain).mpr
              (hok c hpick)
            exact ⟨fun d _ => hstranded d, registered_networkWritable h.registered hdrain⟩
    | tick seconds =>
        refine hlive _ ?_ hless
        exact h.of_frame rfl rfl (fun _ => rfl) (fun q => State.pending_congr rfl rfl q)
          fun _ _ _ hu => hu
    | sweep => exact hlive _ (attends_timeThread ac hs.server h) hless
  · -- an accepted login
    unfold LoginsMeet at hnone
    split at hnone
    · next r =>
        push Not at hnone
        obtain ⟨c, hserving, u, haccepted, -⟩ := hnone
        have hserving : s.serving = some c := hserving
        have hnobody : LeavesNobodyWaiting s c u := hok c hserving u haccepted
        simp only [exec, hserving] at hexec
        subst hexec
        exact attends_serve_accepted ac hs h haccepted hnobody
    · exact absurd trivial hnone

/-- **No stranded output**, in every run whose drains empty their two queues together and whose
logins leave nobody waiting. -/
theorem noStranded_run {p : Setup} {es : List Event} {s : State}
    (run : ServerRun ac p DrainsTogether es s) : NoStranded s := by
  have h : Attends (Live s) (fun _ => False) s := by
    refine run.invariant_of (P := fun t => Attends (Live t) (fun _ => False) t) ?_
      (fun run => tableOk_run ac run) fun hs h hok hstep => attends_step ac hs h hok hstep
    have hload := loaded_init p
    refine ⟨fun c _ hopen => ?_, fun fd => ?_⟩
    · unfold State.IsOpen at hopen
      rw [hload.sock] at hopen
      cases hopen
    · simp [hload.epoll, hload.sock]
  exact fun c => h.armed c id

/-- A message waits for yoda, who logs in, and both of his queues are drained in part. -/
theorem noStranded_demo :
    ∃ s, ServerRun protobufWire demo DrainsTogether
        (acceptAndServe 5 [loginAs "hans" "falcon", messageTo "yoda" "hi"] ++
          acceptAndServe 6 [loginAs "yoda" "wise"] ++ [.writable 6 (some 3) (some 3)]) s ∧
      s.epoll 6 = some true := by
  obtain ⟨s, run, hfd, hopen, hout⟩ := Run.exists_of_execute (step protobufWire) DrainsTogether
    demo.init
    (acceptAndServe 5 [loginAs "hans" "falcon", messageTo "yoda" "hi"] ++
      acceptAndServe 6 [loginAs "yoda" "wise"] ++ [.writable 6 (some 3) (some 3)])
    (fun s => (s.conn 1).fd = 6 ∧ s.IsOpen 1 ∧ s.pending (.out 1) ≠ []) (by decide +kernel)
  refine ⟨s, run, ?_⟩
  rw [← hfd]
  exact noStranded_run protobufWire run 1 hopen (.inl hout)

/-- `send` takes one byte of the answer to a login.  The offline buffer is empty, and `EPOLLOUT`
is switched off with the rest of the answer still queued. -/
theorem not_noStranded_partial_send :
    ¬ ∀ (ac : Achelper) (p : Setup) (es : List Event) (s : State), ServerRun ac p Always es s →
      NoStranded s := by
  intro h
  obtain ⟨s, run, hopen, hout, hoff⟩ := Run.exists_of_execute (step protobufWire) Always
    demo.init (acceptAndServe 5 [loginAs "hans" "falcon"] ++ [.writable 5 (some 1) none])
    (fun s => s.IsOpen 0 ∧ s.pending (.out 0) ≠ [] ∧ s.epoll (s.conn 0).fd ≠ some true)
    (by decide +kernel)
  exact hoff (h protobufWire demo _ s run 0 hopen (.inl hout))

end EpollChat

import EpollChat.Properties.SessionMachine

/-!
# What events add to the history

Every event but an accept and a drain only adds: entries to the history, and to every output
queue the frames that the new entries say were put there.  `Adds` is that relation between two
states, with a property that every new entry has.

`Emits` lists the entries that an event can add, each with what is known of the state in which
the event happens: who may be logged out by what, who is told, and where a chat message goes.
`exec_adds` is the one walk through the server that proves it, and later results about the
history only look at `Emits`.
-/

namespace EpollChat

variable (ac : Achelper)

/-! ## Adding to the history -/

/-- The history and the output queues of `s'` are those of `s` with `l` added: nothing is
written, and what `l` says was queued has been queued. -/
structure Queues (s s' : State) (l : List Obs) : Prop where
  log : s'.log = s.log ++ l
  pending : ∀ q, s'.pending q = s.pending q ++ Ledger.stream q (moves l)
  no_take : ∀ q c bs, .move (.take q c bs) ∉ l

/-- Only entries that satisfy `P` are added. -/
def Adds (P : Obs → Prop) (s s' : State) : Prop := ∃ l, Queues s s' l ∧ ∀ o ∈ l, P o

namespace Adds

variable {P P' : Obs → Prop} {s t t' : State}

/-- Nothing is added. -/
lemma of_same (hlog : t.log = s.log) (hpending : ∀ q, t.pending q = s.pending q) :
    Adds P s t :=
  ⟨[], ⟨by simp [hlog], fun q => by simp [hpending], by simp⟩, by simp⟩

lemma refl (s : State) : Adds P s s := of_same rfl fun _ => rfl

lemma trans (h : Adds P s t) (h' : Adds P t t') : Adds P s t' := by
  obtain ⟨l, hl, hP⟩ := h
  obtain ⟨l', hl', hP'⟩ := h'
  refine ⟨l ++ l', ⟨?_, fun q => ?_, fun q c bs hmem => ?_⟩, fun o ho => ?_⟩
  · rw [hl'.log, hl.log, List.append_assoc]
  · rw [hl'.pending, hl.pending, moves_append, Ledger.stream_append, List.append_assoc]
  · rcases List.mem_append.mp hmem with hmem | hmem
    · exact hl.no_take q c bs hmem
    · exact hl'.no_take q c bs hmem
  · rcases List.mem_append.mp ho with ho | ho
    · exact hP o ho
    · exact hP' o ho

/-- An entry that is not about a queue. -/
lemma emit {o : Obs} (hmove : o.isMove = false) (hP : P o) (s : State) : Adds P s (s.emit o) := by
  refine ⟨[o], ⟨rfl, fun q => ?_, fun q c bs hmem => ?_⟩, by simpa using hP⟩
  · cases o with
    | move m => cases hmove
    | _ => simp [moves]
  · obtain rfl := List.mem_singleton.mp hmem
    cases hmove

lemma setUser (s : State) (u : UserId) {f : User → User} (h : ∀ v, (f v).buffer = v.buffer) :
    Adds P s (s.setUser u f) :=
  of_same rfl (State.pending_setUser s u h)

lemma setConn (s : State) (c : ConnId) {f : Conn → Conn}
    (h : ∀ k, (f k).outbuffer = k.outbuffer) : Adds P s (s.setConn c f) :=
  of_same rfl (State.pending_setConn s c h)

lemma touch (s : State) (c : ConnId) : Adds P s (s.touch c) := of_same (by simp) (by simp)

lemma touches (s : State) (cs : List ConnId) : Adds P s (cs.foldl State.touch s) := by
  induction cs generalizing s with
  | nil => exact refl s
  | cons c cs ih => exact (touch s c).trans (ih _)

end Adds

lemma adds_deliver {P : Obs → Prop} (s : State) {d : Delivery}
    (hP : P (.move (.put d.queue d.why (d.frame ac)))) : Adds P s (deliver ac s d) := by
  refine ⟨[.move (.put d.queue d.why (d.frame ac))], ⟨log_deliver ac s d, fun q => ?_, ?_⟩, ?_⟩
  · rw [pending_deliver, moves_move, Ledger.stream_put]
    by_cases h : q = d.queue
    · rw [if_pos h, if_pos h.symm]
    · rw [if_neg h, if_neg (Ne.symm h), List.append_nil]
  · simp
  · simpa using hP

lemma adds_deliverAll {P : Obs → Prop} (s : State) {ds : List Delivery}
    (hP : ∀ d ∈ ds, P (.move (.put d.queue d.why (d.frame ac)))) :
    Adds P s (deliverAll ac s ds) := by
  induction ds generalizing s with
  | nil => exact .refl s
  | cons d ds ih =>
      exact (adds_deliver ac s (hP d List.mem_cons_self)).trans
        (ih _ fun d hd => hP d (List.mem_cons_of_mem _ hd))

/-! ## The entries of an event -/

/-- The event ends the session of the user, if it has one. -/
def EndsSession (s : State) : Event → UserId → Prop
  | .hangup fd, u => ∃ c, pickConn s fd = some c ∧ (s.conn c).user = some u
  | .eof fd, u => ∃ c, pickConn s fd = some c ∧ (s.conn c).user = some u
  | .request .logout, u =>
      ∃ c, s.serving = some c ∧ (s.conn c).user = some u ∧ isUserLoggedIn s (some u) = true
  | .sweep, u =>
      ∃ c ∈ s.clients, (s.conn c).user = some u ∧ isUserLoggedIn s (some u) = false
  | _, _ => False

/-- **The entries that an event can add to the history.** -/
inductive Emits (s : State) : Event → Obs → Prop
  /-- The answer to a request. -/
  | reply (req : Request) (c : ConnId) (rsp : IMResponse) (serves : s.serving = some c) :
      Emits s (.request req) (.move (.put (.out c) .reply (encodeIMResponseToBytes ac rsp)))
  /-- A message of the connection's user to a user it is addressed to and who has not blocked
  him. -/
  | chat (req : MessageRequest) (c : ConnId) (u v : UserId) (serves : s.serving = some c)
      (own : (s.conn c).user = some u) (live : isUserLoggedIn s (some u) = true)
      (addressed : Addressed s u req v) (heard : hasBlockedUser s v u = false) :
      Emits s (.request (.message req)) (.move (.put (sendTarget s v) (.chat v u)
        (encodeIMResponseToBytes ac (chatResponse ac s u req.msg))))
  /-- An accepted login. -/
  | login (r : LoginRequest) (c : ConnId) (u : UserId) (serves : s.serving = some c)
      (accepted : acceptedUser s r.username r.password = some u) :
      Emits s (.request (.login r)) (.login c u (cstr r.password))
  /-- Its announcement to another user who is logged in and not blocked. -/
  | loggedIn (r : LoginRequest) (c d : ConnId) (u v : UserId) (rsp : IMResponse)
      (serves : s.serving = some c)
      (accepted : acceptedUser s r.username r.password = some u) (other : v ≠ u)
      (bound : (s.users v).client = some d) (live : isUserLoggedIn s (some v) = true)
      (heard : hasBlockedUser s u v = false) :
      Emits s (.request (.login r))
        (.move (.put (.out d) (.loggedIn v u) (encodeIMResponseToBytes ac rsp)))
  /-- The end of a session. -/
  | logout (e : Event) (u : UserId) (c : ConnId) (ends : EndsSession s e u)
      (bound : (s.users u).client = some c) : Emits s e (.logout u c)
  /-- Its announcement to another user who is logged in and not blocked. -/
  | loggedOut (e : Event) (u v : UserId) (d : ConnId) (rsp : IMResponse)
      (ends : EndsSession s e u) (other : v ≠ u) (bound : (s.users v).client = some d)
      (live : isUserLoggedIn s (some v) = true) (heard : hasBlockedUser s u v = false) :
      Emits s e (.move (.put (.out d) (.loggedOut v u) (encodeIMResponseToBytes ac rsp)))
  /-- The notice of an expired session. -/
  | logOff (c : ConnId) (entry : c ∈ s.clients) :
      Emits s .sweep
        (.move (.put (.out c) .logOff (encodeIMResponseToBytes ac (logOffResponse ac))))
  /-- The registration of a file. -/
  | regFile (req : RegisterFileRequest) (c : ConnId) (serves : s.serving = some c)
      (live : isUserLoggedIn s (s.conn c).user = true)
      (free : findFile s.fileDb req.filename = none) :
      Emits s (.request (.regfile req)) (.regFile c (cstr req.filename))
  /-- The registration of chunks of a file. -/
  | regChunks (req : ChunksRequest) (c : ConnId) (serves : s.serving = some c)
      (live : isUserLoggedIn s (s.conn c).user = true)
      (known : findFile s.fileDb req.filename ≠ none) :
      Emits s (.request (.regchunk req))
        (.regChunks c (cstr req.filename) (parsePackedUint32 req.chunks))

/-! ## The walk through the server -/

section Walk

variable {P : Obs → Prop}

lemma adds_updateLastActive (s : State) (c : ConnId) : Adds P s (updateLastActive s c) := by
  rcases updateLastActive_eq s c with h | ⟨u, -, -, h⟩ <;> rw [h]
  · exact .refl s
  · exact .setUser s u fun _ => rfl

lemma adds_unlink (s : State) {u : UserId} {c : ConnId} (hP : P (.logout u c)) :
    Adds P s (unlink s u c) := by
  refine (Adds.setConn s c ?_).trans ((Adds.setUser _ u ?_).trans (.emit rfl hP _)) <;>
    exact fun _ => rfl

/-- What a `logoutUser` on `u` may add, in terms of the state it is called in. -/
def LogoutAdds (P : Obs → Prop) (s : State) (u : UserId) : Prop :=
  (∀ c, (s.users u).client = some c → P (.logout u c)) ∧
    ∀ v d rsp, v ≠ u → (s.users v).client = some d → isUserLoggedIn s (some v) = true →
      hasBlockedUser s u v = false →
        P (.move (.put (.out d) (.loggedOut v u) (encodeIMResponseToBytes ac rsp)))

/-- Taking a user off its connection changes no block list. -/
lemma hasBlockedUser_unlink (s : State) (u v w : UserId) (c : ConnId) :
    hasBlockedUser (unlink s u c) v w = hasBlockedUser s v w := by
  by_cases h : v = u <;> simp [hasBlockedUser, unlink, State.setConn, State.setUser, State.emit, h]

lemma adds_logoutUser {s : State} (hserver : s.isServer = true) {u : UserId}
    (hP : LogoutAdds ac P s u) : Adds P s (logoutUser ac s (some u)) := by
  cases hc : (s.users u).client with
  | none =>
      rw [logoutUser_of_none ac hc]
      exact .refl s
  | some c =>
      rw [logoutUser_of_client ac hserver hc]
      refine (Adds.touch s c).trans ((adds_unlink _ (hP.1 c hc)).trans ?_)
      refine adds_deliverAll ac _ fun d hd => ?_
      obtain ⟨v, e, -, hne, hlogged, hheard, hclient, rfl⟩ := mem_announcements hd
      rw [isUserLoggedIn_unlink hne, isUserLoggedIn_congr (State.core_touch s c)] at hlogged
      rw [hasBlockedUser_unlink, hasBlockedUser_congr (State.core_touch s c)] at hheard
      rw [client_unlink, if_neg hne, State.users_touch] at hclient
      exact hP.2 v e _ hne hclient hlogged hheard

lemma adds_closeSocket {s : State} (hserver : s.isServer = true) {c : ConnId}
    (hP : ∀ u, (s.conn c).user = some u → LogoutAdds ac P s u) :
    Adds P s (closeSocket ac s c) := by
  have hcore : ((s.touch c).lock c).core = s.core := by simp
  have hserver' : ((s.touch c).lock c).isServer = true := by
    have h := congrArg State.isServer hcore
    exact Eq.trans h hserver
  have hlock : Adds P s ((s.touch c).lock c) := .of_same (by simp) (by simp)
  have hlogout : Adds P ((s.touch c).lock c) (logoutUser ac ((s.touch c).lock c) (s.conn c).user) := by
    cases hu : (s.conn c).user with
    | none => exact .refl _
    | some u =>
        refine adds_logoutUser ac hserver' ⟨fun d hd => ?_, fun v d rsp hne hd hlive hheard => ?_⟩
        · exact (hP u hu).1 d (by simpa using hd)
        · rw [isUserLoggedIn_congr hcore] at hlive
          rw [hasBlockedUser_congr hcore] at hheard
          exact (hP u hu).2 v d rsp hne (by simpa using hd) hlive hheard
  have hconn : (((s.touch c).lock c).conn c).user = (s.conn c).user := by simp
  unfold closeSocket
  dsimp only
  rw [hconn]
  exact hlock.trans (hlogout.trans (.of_same rfl fun q => State.pending_congr rfl rfl q))

lemma adds_setChunks (s : State) (c : ConnId) (chunks : Option ChunkList) :
    Adds P s (setChunks s c chunks) := by
  cases chunks with
  | none => exact .of_same rfl fun q => State.pending_congr rfl rfl q
  | some chunks => exact .setConn s c (f := fun k => { k with chunks }) fun _ => rfl

lemma adds_refresh (s : State) (u : UserId) : Adds P s (refresh s u) := by
  unfold refresh
  exact .setUser s u fun _ => rfl

lemma adds_link (s : State) {c : ConnId} {u : UserId} {r : LoginRequest}
    (hP : P (.login c u (cstr r.password))) : Adds P s (link s c u r) := by
  unfold link
  refine Adds.trans (t := (s.setConn c fun k => { k with user := some u }).setUser u fun v =>
    { v with client := some c }) ?_ ((Adds.emit rfl hP _).trans ?_)
  · refine (Adds.setConn s c ?_).trans (.setUser _ u ?_) <;> exact fun _ => rfl
  · refine .setConn _ c ?_
    exact fun _ => rfl

end Walk

/-- What ends a session emits. -/
lemma logoutAdds_of_ends {s : State} {e : Event} {u : UserId} (h : EndsSession s e u) :
    LogoutAdds ac (Emits ac s e) s u :=
  ⟨fun c hc => .logout e u c h hc, fun v d rsp hne hd hlive hheard =>
    .loggedOut e u v d rsp h hne hd hlive hheard⟩

lemma adds_of_effect {s t : State} {c : ConnId} {req : Request} (hserving : s.serving = some c)
    (h : CommandEffect ac s c req t) : Adds (Emits ac s (.request req)) s t := by
  cases h with
  | reads _ cs => exact .touches s cs
  | messages r u ds own live chats =>
      refine adds_deliverAll ac s fun d hd => ?_
      obtain ⟨v, haddressed, hheard, rfl⟩ := chats d hd
      exact .chat r c u v hserving own live haddressed hheard
  | blocks => exact .setUser s _ fun _ => rfl
  | taken => exact .of_same rfl fun q => State.pending_congr rfl rfl q
  | file r free live =>
      refine Adds.trans ?_ ((adds_setChunks _ c _).trans
        (.emit rfl (.regFile r c hserving live free) _))
      exact .of_same rfl fun q => State.pending_congr rfl rfl q
  | chunks r f found live =>
      refine (adds_setChunks s c _).trans (.emit rfl (.regChunks r c hserving live ?_) _)
      rw [found]
      simp

lemma adds_refused (P : Obs → Prop) (s : State) (username password : Bytes) :
    Adds P s (refused s username password) := by
  rcases refused_cases s username password with h | ⟨u, attempts, lastBlocked, -, h⟩
  · rw [h]
    exact .refl s
  · rw [h]
    exact .setUser s u fun _ => rfl

lemma adds_cmdLoginImpl {s : State} {c : ConnId} (hserving : s.serving = some c)
    (r : LoginRequest) :
    Adds (Emits ac s (.request (.login r))) s (cmdLoginImpl ac s c r).1 := by
  cases haccepted : acceptedUser s r.username r.password with
  | none =>
      obtain ⟨rsp, hrsp⟩ := cmdLoginImpl_of_refused ac (c := c) haccepted
      rw [hrsp]
      exact adds_refused _ s r.username r.password
  | some u =>
      rw [cmdLoginImpl_of_accepted ac haccepted]
      refine (adds_refresh s u).trans (Adds.trans ?_
        (adds_link _ (.login r c u hserving haccepted)))
      · refine adds_deliverAll ac _ fun d hd => ?_
        obtain ⟨v, e, -, hne, hlogged, hheard, hclient, rfl⟩ := mem_announcements hd
        have huser : (refresh s u).users v = s.users v := by simp [refresh, State.setUser, hne]
        have hlive : isUserLoggedIn (refresh s u) (some v) = isUserLoggedIn s (some v) := by
          simp only [isUserLoggedIn, huser]
          rfl
        rw [huser] at hclient
        have hblocked : hasBlockedUser (refresh s u) u v = hasBlockedUser s u v := by
          simp [hasBlockedUser, refresh, State.setUser]
        rw [hlive] at hlogged
        rw [hblocked] at hheard
        exact .loggedIn r c e u v _ hserving haccepted hne hclient hlogged hheard

lemma adds_runRequest {P : Obs → Prop} {s : State} {c : ConnId} {req : Request}
    (hcommand : Adds P s (runCommand ac s c req).1) : Adds P s (runRequest ac s c req).1 := by
  by_cases hunknown : ∃ type, req = .unknown type
  · obtain ⟨type, rfl⟩ := hunknown
    exact .refl s
  · rw [runRequest_of_known ac s c fun type h => hunknown ⟨type, h⟩]
    exact hcommand.trans (adds_updateLastActive _ c)

/-- A request is served by running it and answering. -/
lemma adds_serve_of_run {P : Obs → Prop} {s : State} {c : ConnId} {req : Request}
    (hrun : Adds P s (runRequest ac s c req).1)
    (hanswer : ∀ rsp, (runRequest ac s c req).2 = some rsp →
      P (.move (.put (.out c) .reply (encodeIMResponseToBytes ac rsp)))) :
    Adds P s (serve ac s c req) := by
  unfold serve
  generalize runRequest ac s c req = result at hrun hanswer
  obtain ⟨t, rsp⟩ := result
  cases rsp with
  | none => exact hrun
  | some rsp =>
      exact hrun.trans (adds_deliver ac t (d := ⟨.out c, .reply, rsp⟩) (hanswer rsp rfl))

lemma adds_serve {s : State} (hserver : s.isServer = true) {c : ConnId}
    (hserving : s.serving = some c) (req : Request) :
    Adds (Emits ac s (.request req)) s (serve ac s c req) := by
  have hcommand : Adds (Emits ac s (.request req)) s (runCommand ac s c req).1 := by
    cases hquiet : req.isQuiet with
    | true => exact adds_of_effect ac hserving (runCommand_effect ac s c hquiet)
    | false =>
        cases req with
        | login r => exact adds_cmdLoginImpl ac hserving r
        | logout =>
            show Adds _ s (cmdLogoutImpl ac s c).1
            unfold cmdLogoutImpl
            split
            · exact .refl s
            · next hlive =>
                refine adds_closeSocket ac hserver fun u hu => logoutAdds_of_ends ac ?_
                exact ⟨c, hserving, hu, by simpa [hu] using hlive⟩
        | _ => cases hquiet
  exact adds_serve_of_run ac (adds_runRequest ac hcommand) fun rsp _ => .reply req c rsp hserving

/-! ## The sweep -/

/-- Sessions have ended and otherwise nothing has changed, as far as sessions and block lists
go. -/
structure Fewer (s t : State) : Prop where
  client : ∀ u c, (t.users u).client = some c →
    (s.users u).client = some c ∧ isUserLoggedIn t (some u) = isUserLoggedIn s (some u)
  user : ∀ c u, (t.conn c).user = some u → (s.conn c).user = some u
  blocked : ∀ u v, hasBlockedUser t u v = hasBlockedUser s u v
  server : t.isServer = s.isServer

lemma Fewer.refl (s : State) : Fewer s s := ⟨fun _ _ h => ⟨h, rfl⟩, fun _ _ h => h, fun _ _ => rfl, rfl⟩

lemma fewer_unbind (s : State) (u : Option UserId) : Fewer s (unbind s u) := by
  unfold unbind
  split
  · exact .refl s
  next u =>
  split
  · exact .refl s
  next c hc =>
  refine ⟨fun v d hd => ?_, fun d v hv => ?_, fun v w => hasBlockedUser_unlink s u v w c, rfl⟩
  · rw [client_unlink] at hd
    split at hd
    · cases hd
    · next hne => exact ⟨hd, isUserLoggedIn_unlink hne⟩
  · rw [user_unlink] at hv
    split at hv
    · cases hv
    · exact hv

lemma Fewer.trans {s t t' : State} (h : Fewer s t) (h' : Fewer t t') : Fewer s t' where
  client u c hc := by
    obtain ⟨hc', hlogged'⟩ := h'.client u c hc
    obtain ⟨hc'', hlogged⟩ := h.client u c hc'
    exact ⟨hc'', hlogged'.trans hlogged⟩
  user c u hu := h.user c u (h'.user c u hu)
  blocked u v := (h'.blocked u v).trans (h.blocked u v)
  server := h'.server.trans h.server

lemma fewer_sweepClient (s : State) (c : ConnId) : Fewer s (sweepClient ac s c) := by
  unfold sweepClient
  split
  · have hcore : (deliver ac (logoutUser ac s (s.conn c).user)
        ⟨.out c, .logOff, logOffResponse ac⟩).core = unbind s.core (s.conn c).user := by
      rw [core_deliver, core_logoutUser]
    have h := fewer_unbind s.core (s.conn c).user
    rw [← hcore] at h
    refine ⟨fun u d hd => ?_, h.user, h.blocked, h.server⟩
    have h' := h.client u d hd
    simp only [isUserLoggedIn_core] at h'
    exact h'
  · exact .refl s

lemma adds_sweepClient {s t : State} (hserver : s.isServer = true) (h : Fewer s t) {c : ConnId}
    (hmem : c ∈ s.clients) : Adds (Emits ac s .sweep) t (sweepClient ac t c) := by
  unfold sweepClient
  split
  · next hexpired =>
      rw [sendResponseToClient_eq]
      refine Adds.trans ?_ (adds_deliver ac _ (.logOff c hmem))
      cases hu : (t.conn c).user with
      | none => exact absurd hu hexpired.1
      | some u =>
          rw [hu] at hexpired
          have hends : ∀ d, (t.users u).client = some d → EndsSession s .sweep u := by
            intro d hd
            have hlogged := (h.client u d hd).2
            exact ⟨c, hmem, h.user c u hu, by rw [← hlogged]; simpa using hexpired.2⟩
          cases hd : (t.users u).client with
          | none =>
              rw [logoutUser_of_none ac hd]
              exact .refl t
          | some d =>
              refine adds_logoutUser ac (h.server.trans hserver) ⟨fun d' hd' => ?_, ?_⟩
              · exact .logout .sweep u d' (hends d hd) (h.client u d' hd').1
              · intro v e rsp hne hclient hlive hheard
                obtain ⟨hclient', hlive'⟩ := h.client v e hclient
                exact .loggedOut .sweep u v e rsp (hends d hd) hne hclient' (hlive' ▸ hlive)
                  (h.blocked u v ▸ hheard)
  · exact .refl t

lemma adds_timeThread {s : State} (hserver : s.isServer = true) :
    Adds (Emits ac s .sweep) s (timeThread ac s) := by
  unfold timeThread
  -- the loop has come to `t`, and has the entries `l` left
  suffices h : ∀ (l : List ConnId) (t : State), (∀ c ∈ l, c ∈ s.clients) → Fewer s t →
      Adds (Emits ac s .sweep) t (l.foldl (sweepClient ac) t) from
    h s.clients s (fun _ h => h) (.refl s)
  intro l
  induction l with
  | nil => exact fun t _ _ => .refl t
  | cons c l ih =>
      intro t hl ht
      exact (adds_sweepClient ac hserver ht (hl c List.mem_cons_self)).trans
        (ih _ (fun d hd => hl d (List.mem_cons_of_mem _ hd)) (ht.trans (fewer_sweepClient ac t c)))

/-! ## All events -/

/-- A new connection starts with an empty outbuffer. -/
lemma adds_acceptClient {P : Obs → Prop} {s : State} (hfresh : s.pending (.out s.nconns) = [])
    (fd : ℕ) (addr : SockAddr) : Adds P s (acceptClient s fd addr) := by
  refine .of_same (log_acceptClient s fd addr) fun q => ?_
  cases q with
  | offline u => simp [State.pending, State.buf]
  | out c =>
      by_cases hc : c = s.nconns
      · subst hc
        rw [hfresh]
        simp [State.pending, State.buf, newConn]
      · simp [State.pending, State.buf, hc]

/-- **What an event adds.** Every event but a drain only adds entries that it emits. -/
theorem exec_adds {s : State} (hserver : s.isServer = true)
    (hfresh : s.pending (.out s.nconns) = []) {e : Event}
    (hwritable : ∀ fd n₁ n₂, e ≠ .writable fd n₁ n₂) : Adds (Emits ac s e) s (exec ac s e) := by
  cases e with
  | accept fd addr => exact adds_acceptClient hfresh fd addr
  | hangup fd | eof fd =>
      rw [exec]
      cases hpick : pickConn s fd with
      | none => exact .refl s
      | some c =>
          exact adds_closeSocket ac hserver fun u hu => logoutAdds_of_ends ac ⟨c, hpick, hu⟩
  | readable fd => exact .of_same rfl fun q => State.pending_congr rfl rfl q
  | request req =>
      rw [exec]
      cases hserving : s.serving with
      | none => exact .refl s
      | some c => exact adds_serve ac hserver hserving req
  | readDone => exact .of_same rfl fun q => State.pending_congr rfl rfl q
  | writable fd n₁ n₂ => exact absurd rfl (hwritable fd n₁ n₂)
  | tick seconds => exact .of_same rfl fun q => State.pending_congr rfl rfl q
  | sweep => exact adds_timeThread ac hserver

end EpollChat

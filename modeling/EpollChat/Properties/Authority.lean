import EpollChat.Construction.Demo
import EpollChat.Properties.History

/-!
# Requests act for the authenticated user

A request of a known type other than a login either finds a live session on its connection, or
does nothing but queue a failure response there.  With a session it acts as the session's user:
nobody else's record changes but for the buffer, no other connection changes but for its
outbuffer, nothing but the connection's own socket is closed, and every message, announcement and
registration in the history is the user's own.

Who the user of a connection is has been settled by a login on that very connection object, with
the password the user has: `lastLogin` reads it off the history, where an entry names the
connection and not its descriptor.
-/

namespace EpollChat

variable (ac : Achelper)

/-! ## Acting as a user -/

/-- The only effect is that a failure response has been appended to the outbuffer of `c`. -/
structure OnlyRefused (s s' : State) (c : ConnId) (rsp : IMResponse) : Prop where
  failure : rsp.success = false
  untouched : Untouched s s' c
  appended : s'.pending (.out c) = s.pending (.out c) ++ encodeIMResponseToBytes ac rsp
  log : s'.log = s.log ++ [.move (.put (.out c) .reply (encodeIMResponseToBytes ac rsp))]

/-- The entry of the history is an act of `u` through the connection `c`. -/
def ByUser (s : State) (c : ConnId) (u : UserId) : Obs → Prop
  | .move (.put q .reply _) => q = .out c
  | .move (.put q (.chat v w) f) =>
      w = u ∧ q = sendTarget s v ∧ hasBlockedUser s v u = false ∧
        ∃ msg, f = encodeIMResponseToBytes ac (chatResponse ac s u msg)
  | .move (.put _ (.loggedOut _ w) _) => w = u
  | .move _ => False
  | .login .. => False
  | .logout w _ => w = u
  | .regFile d _ => d = c
  | .regChunks d _ _ => d = c

/-- The records, sockets and files that are not of `u` or `c` are as they were.  Buffers do not
count here: what is in them is a matter of the history. -/
structure KeepsOthers (s s' : State) (c : ConnId) (u : UserId) : Prop where
  users : ∀ v, v ≠ u → ∀ b, { s'.users v with buffer := b } = { s.users v with buffer := b }
  conns : ∀ d, d ≠ c → ∀ b w,
    { s'.conn d with outbuffer := b, user := w } = { s.conn d with outbuffer := b, user := w }
  user : ∀ d, (s'.conn d).user = (s.conn d).user ∨
    (s.users u).client = some d ∧ (s'.conn d).user = none
  sock : ∀ fd, fd ≠ (s.conn c).fd → s'.sock fd = s.sock fd
  files : ∀ name f, findFile s.fileDb name = some f → findFile s'.fileDb name = some f

/-- **Acting as a user**: nothing that is not of `u` or `c` changes, and all that is added to
the history and to the output queues is of `u`. -/
structure ActsAs (s s' : State) (c : ConnId) (u : UserId) : Prop where
  keeps : KeepsOthers s s' c u
  history : Adds (ByUser ac s c u) s s'

/-- The user and the password of the last login on a connection that returned 0. -/
def lastLogin (c : ConnId) (log : List Obs) : Option (UserId × Bytes) :=
  (log.filterMap fun
    | .login d u password => if d = c then some (u, password) else none
    | _ => none).getLast?

/-- The user of a connection is the user of the last login on it, and the password presented
there is the user's. -/
def Authenticated (s : State) : Prop :=
  ∀ c u, (s.conn c).user = some u → lastLogin c s.log = some (u, (s.users u).password)

/-! ## What requests keep -/

namespace KeepsOthers

variable {s t t' : State} {c : ConnId} {u : UserId}

lemma refl (s : State) (c : ConnId) (u : UserId) : KeepsOthers s s c u :=
  ⟨fun _ _ _ => rfl, fun _ _ _ _ => rfl, fun _ => .inl rfl, fun _ _ => rfl, fun _ _ h => h⟩

/-- What others keep is in the core. -/
lemma of_core (h : KeepsOthers s t c u) (hcore : t.core = t'.core) : KeepsOthers s t' c u where
  users v hv b := by
    have h' := congrArg (fun x : State => { x.users v with buffer := b }) hcore
    exact Eq.trans (Eq.symm h') (h.users v hv b)
  conns d hd b w := by
    have h' := congrArg (fun x : State => { x.conn d with outbuffer := b, user := w }) hcore
    exact Eq.trans (Eq.symm h') (h.conns d hd b w)
  user d := by
    rw [← user_eq_of_core hcore]
    exact h.user d
  sock fd hfd := by
    rw [← sock_eq_of_core hcore]
    exact h.sock fd hfd
  files name f hf := by
    rw [← fileDb_eq_of_core hcore]
    exact h.files name f hf

/-- A change of the user's own record. -/
lemma setUser (h : KeepsOthers s t c u) (f : User → User) :
    KeepsOthers s (t.setUser u f) c u where
  users v hv b := by
    have hsame : (t.setUser u f).users v = t.users v := by simp [State.setUser, hv]
    rw [hsame]
    exact h.users v hv b
  conns := h.conns
  user := h.user
  sock := h.sock
  files := h.files

/-- A change of the connection's own chunk list. -/
lemma setChunks (h : KeepsOthers s t c u) (chunks : Option ChunkList) :
    KeepsOthers s (setChunks t c chunks) c u := by
  cases chunks with
  | none => exact h.of_core rfl
  | some chunks =>
      have huser : ∀ d, ((EpollChat.setChunks t c (some chunks)).conn d).user =
          (t.conn d).user := by
        intro d
        by_cases hd : d = c
        · subst hd
          simp [EpollChat.setChunks, State.setConn]
        · simp [EpollChat.setChunks, State.setConn, hd]
      refine ⟨h.users, fun d hd b w => ?_, fun d => ?_, h.sock, h.files⟩
      · have hsame : (EpollChat.setChunks t c (some chunks)).conn d = t.conn d := by
          simp [EpollChat.setChunks, State.setConn, hd]
        rw [hsame]
        exact h.conns d hd b w
      · rw [huser]
        exact h.user d

lemma emit (h : KeepsOthers s t c u) (o : Obs) : KeepsOthers s (t.emit o) c u :=
  ⟨h.users, h.conns, h.user, h.sock, h.files⟩

lemma updateLastActive (h : KeepsOthers s t c u) (hu : (s.conn c).user = some u) :
    KeepsOthers s (updateLastActive t c) c u := by
  rcases updateLastActive_eq t c with heq | ⟨w, hw, -, heq⟩ <;> rw [heq]
  · exact h
  · rcases h.user c with hsame | ⟨-, hnone⟩
    · obtain rfl : w = u := Option.some.inj (hw.symm.trans (hsame.trans hu))
      exact h.setUser _
    · rw [hnone] at hw
      cases hw

end KeepsOthers

lemma keepsOthers_closeSocket {s : State} {c : ConnId} {u : UserId}
    (hu : (s.conn c).user = some u) : KeepsOthers s (closeSocket ac s c) c u := by
  have hclosed : KeepsOthers s.core (shut (unbind s.core (some u)) (s.conn c).fd) c u := by
    have hshut : ∀ fd, fd ≠ (s.conn c).fd →
        (shut (unbind s.core (some u)) (s.conn c).fd).sock fd = s.sock fd := by
      intro fd hfd
      simp only [shut, Function.update_of_ne hfd, sock_unbind]
      rfl
    cases hd : (s.users u).client with
    | none =>
        have hsame : unbind s.core (some u) = s.core := by
          have hd' : (s.core.users u).client = none := hd
          simp only [unbind, hd']
        rw [hsame] at hshut ⊢
        exact ⟨fun _ _ _ => rfl, fun _ _ _ _ => rfl, fun _ => .inl rfl, hshut, fun _ _ h => h⟩
    | some d =>
        have hunlink : unbind s.core (some u) = unlink s.core u d := by
          have hd' : (s.core.users u).client = some d := hd
          simp only [unbind, hd']
        rw [hunlink] at hshut ⊢
        refine ⟨fun v hv b => ?_, fun e he b w => ?_, fun e => ?_, hshut, fun _ _ h => h⟩
        · simp [shut, unlink, State.emit, State.setUser, State.setConn, hv]
        · by_cases hed : e = d
          · subst hed
            simp [shut, unlink, State.emit, State.setUser, State.setConn]
          · simp [shut, unlink, State.emit, State.setUser, State.setConn, hed]
        · show ((unlink s.core u d).conn e).user = _ ∨ _ ∧ ((unlink s.core u d).conn e).user = _
          rw [user_unlink]
          by_cases hed : e = d
          · exact .inr ⟨hed ▸ hd, if_pos hed⟩
          · exact .inl (if_neg hed)
  have hcore := core_closeSocket ac s c
  rw [hu] at hcore
  rw [← hcore] at hclosed
  exact ⟨fun v hv b => hclosed.users v hv b, fun d hd b w => hclosed.conns d hd b w,
    hclosed.user, hclosed.sock, hclosed.files⟩

lemma keepsOthers_of_effect {s t : State} {c : ConnId} {u : UserId} {req : Request}
    (hu : (s.conn c).user = some u) (h : CommandEffect ac s c req t) : KeepsOthers s t c u := by
  cases h with
  | reads _ cs => exact (KeepsOthers.refl s c u).of_core (core_touches s cs).symm
  | messages => exact (KeepsOthers.refl s c u).of_core (core_deliverAll ac s _).symm
  | blocks _ self f own live =>
      obtain rfl : self = u := Option.some.inj (own.symm.trans hu)
      exact (KeepsOthers.refl s c self).setUser _
  | taken r f found =>
      refine { KeepsOthers.refl s c u with files := fun name g hg => ?_ }
      exact findFile_addFile_of_some hg s.globalChunkId r.filename r.chunks
  | file r free live =>
      have hadded : KeepsOthers s
          { s with
            fileDb := (addFile s.fileDb s.globalChunkId r.filename r.chunks).1
            globalChunkId := s.globalChunkId + r.chunks } c u := by
        refine { KeepsOthers.refl s c u with files := fun name g hg => ?_ }
        exact findFile_addFile_of_some hg s.globalChunkId r.filename r.chunks
      exact (hadded.setChunks _).emit _
  | chunks r f found live => exact ((KeepsOthers.refl s c u).setChunks _).emit _

lemma keepsOthers_serve {s : State} {c : ConnId} {u : UserId} (hu : (s.conn c).user = some u)
    (hlive : isUserLoggedIn s (some u) = true) {req : Request} (hlogin : ∀ r, req ≠ .login r)
    (hknown : ∀ t, req ≠ .unknown t) : KeepsOthers s (serve ac s c req) c u := by
  have hcommand : KeepsOthers s (runCommand ac s c req).1 c u := by
    cases hquiet : req.isQuiet with
    | true => exact keepsOthers_of_effect ac hu (runCommand_effect ac s c hquiet)
    | false =>
        cases req with
        | login r => exact absurd rfl (hlogin r)
        | logout =>
            show KeepsOthers s (cmdLogoutImpl ac s c).1 c u
            unfold cmdLogoutImpl
            rw [hu, hlive]
            exact keepsOthers_closeSocket ac hu
        | _ => cases hquiet
  have hrun := hcommand.updateLastActive hu
  rw [← runRequest_of_known ac s c hknown] at hrun
  exact hrun.of_core (core_serve ac s c req).symm

/-! ## One request -/

/-- Whatever a request with a session adds to the history is its user's. -/
lemma byUser_of_emits {s : State} {c : ConnId} {u : UserId} (hserving : s.serving = some c)
    (hu : (s.conn c).user = some u) {req : Request} (hlogin : ∀ r, req ≠ .login r) {o : Obs}
    (h : Emits ac s (.request req) o) : ByUser ac s c u o := by
  have hown : ∀ d w, s.serving = some d → (s.conn d).user = some w → w = u := by
    intro d w hd hw
    obtain rfl : d = c := Option.some.inj (hd.symm.trans hserving)
    exact Option.some.inj (hw.symm.trans hu)
  have hends : ∀ w, EndsSession s (.request req) w → w = u := by
    intro w hw
    cases req with
    | logout =>
        obtain ⟨d, hd, hw, -⟩ := hw
        exact hown d w hd hw
    | _ => exact hw.elim
  cases h with
  | reply _ d rsp serves => exact congrArg Queue.out (Option.some.inj (serves.symm.trans hserving))
  | chat r d w v serves own live addressed heard =>
      obtain rfl := hown d w serves own
      exact ⟨rfl, rfl, heard, r.msg, rfl⟩
  | login r => exact absurd rfl (hlogin r)
  | loggedIn r => exact absurd rfl (hlogin r)
  | logout _ w d ends bound => exact hends w ends
  | loggedOut _ w v d rsp ends other bound live => exact hends w ends
  | regFile r d serves live free => exact Option.some.inj (serves.symm.trans hserving)
  | regChunks r d serves live known => exact Option.some.inj (serves.symm.trans hserving)

/-- A request with a session acts as its user. -/
lemma actsAs_serve {s : State} (hserver : s.isServer = true) {c : ConnId} {u : UserId}
    (hserving : s.serving = some c) (hu : (s.conn c).user = some u)
    (hlive : isUserLoggedIn s (some u) = true) {req : Request} (hlogin : ∀ r, req ≠ .login r)
    (hknown : ∀ t, req ≠ .unknown t) : ActsAs ac s (serve ac s c req) c u := by
  obtain ⟨l, hl, hemits⟩ := adds_serve ac hserver hserving req
  exact ⟨keepsOthers_serve ac hu hlive hlogin hknown,
    l, hl, fun o ho => byUser_of_emits ac hserving hu hlogin (hemits o ho)⟩

/-- A request without a session is refused. -/
lemma onlyRefused_serve {s : State} {c : ConnId}
    (h : isUserLoggedIn s (s.conn c).user = false) {req : Request}
    (hlogin : ∀ r, req ≠ .login r) (hknown : ∀ t, req ≠ .unknown t) :
    OnlyRefused ac s (serve ac s c req) c (notLoggedIn ac) := by
  rw [serve_of_not_loggedIn ac h hlogin hknown]
  refine ⟨rfl, untouched_deliver_out ac s c .reply _, ?_, log_deliver ac s _⟩
  rw [pending_deliver]
  exact if_pos rfl

/-! ## Authentication -/

lemma lastLogin_append (c : ConnId) (log : List Obs) (o : Obs) :
    lastLogin c (log ++ [o]) =
      match o with
      | .login d u password => if d = c then some (u, password) else lastLogin c log
      | _ => lastLogin c log := by
  unfold lastLogin
  cases o with
  | login d u password =>
      by_cases h : d = c <;> simp [h]
  | _ => simp

/-- Only the entries about sessions count. -/
lemma lastLogin_sessions (c : ConnId) (s : State) :
    lastLogin c s.sessions.log = lastLogin c s.log := by
  have hlog : s.sessions.log = s.log.filter Obs.isSession := rfl
  unfold lastLogin
  rw [hlog, List.filterMap_filter]
  congr 1
  refine List.filterMap_congr fun o _ => ?_
  cases o <;> rfl

lemma authenticated_sessions {s : State} : Authenticated s.sessions ↔ Authenticated s := by
  unfold Authenticated
  simp only [lastLogin_sessions]
  rfl

/-- Session moves keep it: a user is bound with the right password, and otherwise connections
only lose their user. -/
lemma authenticated_move {s s' : State} (h : Authenticated s)
    (move : SessionMove (fun _ _ _ => True) s s') : Authenticated s' := by
  cases move with
  | accept fd addr free idle =>
      rw [authenticated_sessions]
      intro c u hu
      rw [conn_acceptClient, Function.update_apply] at hu
      rw [log_acceptClient, users_acceptClient]
      split at hu
      · cases hu
      · exact h c u hu
  | begin fd isOpen idle => exact h
  | finish => exact h
  | active c serves =>
      rcases updateLastActive_eq s c with heq | ⟨w, -, -, heq⟩ <;> rw [heq]
      · exact h
      · intro d u hu
        have hpassword : ((s.setUser w fun v => { v with lastActive := s.now }).users u).password =
            (s.users u).password := by
          by_cases huw : u = w
          · subst huw
            simp [State.setUser]
          · simp [State.setUser, huw]
        rw [hpassword]
        exact h d u hu
  | bind c w username password serves found knows idle ok =>
      intro d u hu
      have hpassword : ((bind s c w password).users u).password = (s.users u).password := by
        by_cases huw : u = w
        · subst huw
          simp [bind, State.setUser, State.setConn, State.emit]
        · simp [bind, State.setUser, State.setConn, State.emit, huw]
      have hlog : (bind s c w password).log = s.log ++ [.login c w password] := rfl
      rw [user_bind] at hu
      rw [hpassword, hlog, lastLogin_append]
      dsimp only
      by_cases hd : d = c
      · rw [if_pos hd] at hu
        obtain rfl := Option.some.inj hu
        rw [if_pos hd.symm, knows]
      · rw [if_neg hd] at hu
        rw [if_neg (Ne.symm hd)]
        exact h d u hu
  | unlink w e bound =>
      intro d u hu
      have hpassword : ((unlink s w e).users u).password = (s.users u).password := by
        by_cases huw : u = w
        · subst huw
          simp [unlink, State.setUser, State.setConn, State.emit]
        · simp [unlink, State.setUser, State.setConn, State.emit, huw]
      have hlog : (unlink s w e).log = s.log ++ [.logout w e] := rfl
      rw [user_unlink] at hu
      rw [hpassword, hlog, lastLogin_append]
      split at hu
      · cases hu
      · exact h d u hu
  | shut c own unbound => exact h
  | tick seconds => exact h

lemma authenticated_run {p : Setup} {es : List Event} {s : State}
    (run : ServerRun ac p Always es s) : Authenticated s := by
  refine run.invariant_of ?_ (fun run => tableOk_run ac run) ?_
  · intro c u hu
    rw [(loaded_init p).conn] at hu
    cases hu
  · intro s e s' hs h _ hstep
    have hmoves := sessions_step_any ac hs hstep
    exact authenticated_sessions.mp
      (hmoves.invariant (fun _ _ h move => authenticated_move h move)
        (authenticated_sessions.mpr h))

/-- **Requests act for the authenticated user.** In every run, a request of a known type other
than a login is refused and does nothing else where its connection has no live session, and acts
as the connection's user where it has one.  The user of a connection is the user of the last
login on it, with the user's password presented there. -/
theorem requests_act_for_user {p : Setup} {es : List Event} {s : State}
    (run : ServerRun ac p Always es s) :
    (∀ c, s.serving = some c → ∀ req : Request,
      (∀ r, req ≠ .login r) → (∀ t, req ≠ .unknown t) →
        (isUserLoggedIn s (s.conn c).user = false →
          OnlyRefused ac s (exec ac s (.request req)) c (notLoggedIn ac)) ∧
        ∀ u, (s.conn c).user = some u → isUserLoggedIn s (some u) = true →
          ActsAs ac s (exec ac s (.request req)) c u) ∧
    Authenticated s := by
  refine ⟨fun c hserving req hlogin hknown => ?_, authenticated_run ac run⟩
  simp only [exec, hserving]
  exact ⟨fun h => onlyRefused_serve ac h hlogin hknown, fun u hu hlive =>
    actsAs_serve ac (tableOk_run ac run).server hserving hu hlive hlogin hknown⟩

/-- A message before the login and one after it. -/
theorem requests_act_for_user_demo :
    ∃ s, ServerRun protobufWire demo Always
        ([.accept 5 demoAddr, .readable 5] ++
          [messageTo "yoda" "hi", loginAs "hans" "falcon"].map .request) s ∧
      ActsAs protobufWire s (exec protobufWire s (.request (messageTo "yoda" "hi"))) 0 0 ∧
      lastLogin 0 s.log = some (0, text "falcon") := by
  obtain ⟨s, run, hserving, huser, hlive, hpassword⟩ := Run.exists_of_execute (step protobufWire)
    Always demo.init
    ([.accept 5 demoAddr, .readable 5] ++
      [messageTo "yoda" "hi", loginAs "hans" "falcon"].map .request)
    (fun s => s.serving = some 0 ∧ (s.conn 0).user = some 0 ∧
      isUserLoggedIn s (some 0) = true ∧ (s.users 0).password = text "falcon")
    (by decide +kernel)
  obtain ⟨hrequests, hauthenticated⟩ := requests_act_for_user protobufWire run
  refine ⟨s, run, ?_, ?_⟩
  · exact (hrequests 0 hserving (messageTo "yoda" "hi") (by simp [messageTo])
      (by simp [messageTo])).2 0 huser hlive
  · rw [hauthenticated 0 0 huser, hpassword]

end EpollChat

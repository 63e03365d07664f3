import EpollChat.Properties.Requests
import Mathlib.Logic.Relation

/-!
# Sessions

Who is logged in where is decided by a small part of the state: the two pointers between users
and connections, the times the idle test compares, the table and the kernel's sockets.
`State.sessions` is that part, and `SessionMove` is everything that can happen to it: accepting,
binding a user to a connection and taking it off again, closing a descriptor, serving, and the
passing of time.

`sessions_exec` is the refinement: every event of the server is a sequence of session moves, in
which a user is bound only where a login request is accepted.  Invariants of sessions are then
proved over the nine moves.
-/

namespace EpollChat

variable (ac : Achelper)

/-! ## Logging out -/

/-- The assignments of `logoutUser`: take a user off its connection. -/
def unlink (s : State) (u : UserId) (c : ConnId) : State :=
  ((s.setConn c fun k => { k with user := none }).setUser u fun v =>
    { v with client := none }).emit (.logout u c)

/-- The announcements of `logoutUser`. -/
def logoutAnnouncements (s : State) (u : UserId) : List Delivery :=
  announcements s u (.loggedOut · u)
    (encodeTextResponseToIMResponse ac ((s.users u).username ++ text " has logged out") true)

lemma core_unlink (s : State) (u : UserId) (c : ConnId) :
    (unlink s u c).core = unlink s.core u c := by
  unfold unlink
  rw [State.core_emit _ rfl, State.core_setUser, State.core_setConn] <;> intros <;> rfl

lemma logoutAnnouncements_congr {s s' : State} (h : s.core = s'.core) (u : UserId) :
    logoutAnnouncements ac s u = logoutAnnouncements ac s' u := by
  unfold logoutAnnouncements
  rw [username_eq_of_core h, announcements_congr h]

lemma logoutUser_of_client {s : State} {u : UserId} {c : ConnId} (hs : s.isServer = true)
    (hc : (s.users u).client = some c) :
    logoutUser ac s (some u) =
      deliverAll ac (unlink (s.touch c) u c)
        (logoutAnnouncements ac (unlink (s.touch c) u c) u) := by
  have hserver : (unlink (s.touch c) u c).isServer = true := by
    show (s.touch c).core.isServer = true
    rw [State.core_touch]
    exact hs
  simp only [logoutUser, hc, announce_eq]
  show (if (!(unlink (s.touch c) u c).isServer) = true then _ else _) = _
  rw [hserver]
  rfl

lemma logoutUser_of_none {s : State} {u : UserId} (hc : (s.users u).client = none) :
    logoutUser ac s (some u) = s := by
  simp only [logoutUser, hc]

/-! ## Logging in -/

/-- The user a login request is accepted for: it exists, is not blocked, has this password, and
is not logged in. -/
def acceptedUser (s : State) (username password : Bytes) : Option UserId :=
  (findUser s username).filter fun u =>
    ¬ s.now < (s.users u).lastBlocked ∧ (s.users u).password = cstr password ∧
      isUserLoggedIn s (some u) = false

lemma acceptedUser_eq_some {s : State} {username password : Bytes} {u : UserId} :
    acceptedUser s username password = some u ↔
      findUser s username = some u ∧ ¬ s.now < (s.users u).lastBlocked ∧
        (s.users u).password = cstr password ∧ isUserLoggedIn s (some u) = false := by
  simp [acceptedUser, Option.filter_eq_some_iff]

/-- The bookkeeping of `login` for an accepted request. -/
def refresh (s : State) (u : UserId) : State :=
  s.setUser u fun v => { v with attempts := 0, lastActive := s.now, lastLoggedIn := s.now }

/-- The announcements of `login`. -/
def loginAnnouncements (s : State) (u : UserId) (username : Bytes) : List Delivery :=
  announcements s u (.loggedIn · u)
    (encodeTextResponseToIMResponse ac (cstr username ++ text " has logged in") true)

/-- The bookkeeping of `login` for a wrong password. -/
def countAttempt (s : State) (u : UserId) : State :=
  let s := s.setUser u fun v => { v with attempts := v.attempts + 1 }
  if (s.users u).attempts = 3 then
    s.setUser u fun v => { v with lastBlocked := s.now + s.blockDuration, attempts := 0 }
  else s

/-- What a refused login request leaves behind. -/
def refused (s : State) (username password : Bytes) : State :=
  match findUser s username with
  | none => s
  | some u =>
      if s.now < (s.users u).lastBlocked then s
      else if (s.users u).password ≠ cstr password then countAttempt s u
      else s

/-- A counted attempt changes the count, and maybe the time until which the user is blocked. -/
lemma countAttempt_eq (s : State) (u : UserId) :
    ∃ attempts lastBlocked, attempts ≠ (s.users u).attempts ∧
      countAttempt s u = s.setUser u fun v => { v with attempts, lastBlocked } := by
  unfold countAttempt
  dsimp only
  split
  · next hthird =>
      refine ⟨0, s.now + s.blockDuration, ?_, by simp [State.setUser]⟩
      simp only [State.setUser, Function.update_self] at hthird
      omega
  · exact ⟨(s.users u).attempts + 1, (s.users u).lastBlocked, by omega, rfl⟩

/-- A refused login changes nothing, or it counts an attempt. -/
lemma refused_cases (s : State) (username password : Bytes) :
    refused s username password = s ∨
      ∃ u attempts lastBlocked, attempts ≠ (s.users u).attempts ∧
        refused s username password = s.setUser u fun v => { v with attempts, lastBlocked } := by
  unfold refused
  cases findUser s username with
  | none => exact .inl rfl
  | some u =>
      dsimp only
      split
      · exact .inl rfl
      split
      · exact .inr ⟨u, countAttempt_eq s u⟩
      · exact .inl rfl

lemma login_of_accepted {s : State} {username password : Bytes} {u : UserId}
    (h : acceptedUser s username password = some u) :
    login ac s username password =
      (deliverAll ac (refresh s u) (loginAnnouncements ac (refresh s u) u username), 0,
        some u) := by
  obtain ⟨hfind, hblocked, hpassword, hlogged⟩ := acceptedUser_eq_some.mp h
  simp [login, hfind, hblocked, hpassword, hlogged, announce_eq, refresh, loginAnnouncements]

lemma login_of_refused {s : State} {username password : Bytes}
    (h : acceptedUser s username password = none) :
    ∃ code u, code ∈ [1, 2, 3, 4] ∧
      login ac s username password = (refused s username password, code, u) := by
  unfold login refused
  cases hfind : findUser s username with
  | none => exact ⟨1, none, by simp, rfl⟩
  | some u =>
      dsimp only
      by_cases hblocked : s.now < (s.users u).lastBlocked
      · exact ⟨2, some u, by simp, by simp [hblocked]⟩
      by_cases hpassword : (s.users u).password ≠ cstr password
      · rw [if_neg hblocked, if_pos hpassword, if_neg hblocked, if_pos hpassword]
        unfold countAttempt
        dsimp only
        split
        · exact ⟨2, some u, by simp, rfl⟩
        · exact ⟨3, some u, by simp, rfl⟩
      by_cases hlogged : isUserLoggedIn s (some u) = true
      · refine ⟨4, some u, by simp, ?_⟩
        rw [if_neg hblocked, if_neg hpassword, if_pos hlogged, if_neg hblocked, if_neg hpassword]
      · have haccepted : acceptedUser s username password = some u :=
          acceptedUser_eq_some.mpr ⟨hfind, hblocked, by simpa using hpassword, by simpa using hlogged⟩
        rw [haccepted] at h
        cases h

/-- The assignments of `cmd_login_impl` for an accepted request. -/
def link (s : State) (c : ConnId) (u : UserId) (req : LoginRequest) : State :=
  (((s.setConn c fun k => { k with user := some u }).setUser u fun v =>
    { v with client := some c }).emit (.login c u (cstr req.password))).setConn c fun k =>
      { k with addr := { k.addr with sinPort := htons req.port } }

/-- The answer to an accepted login request. -/
def welcome (s : State) (u : UserId) : IMResponse :=
  encodeTextResponseToIMResponse ac (text "Welcome " ++ (s.users u).username ++ text "!") true

lemma cmdLoginImpl_of_accepted {s : State} {c : ConnId} {req : LoginRequest} {u : UserId}
    (h : acceptedUser s req.username req.password = some u) :
    cmdLoginImpl ac s c req =
      (link (deliverAll ac (refresh s u) (loginAnnouncements ac (refresh s u) u req.username))
        c u req, some (welcome ac (link
          (deliverAll ac (refresh s u) (loginAnnouncements ac (refresh s u) u req.username))
          c u req) u)) := by
  simp only [cmdLoginImpl, login_of_accepted ac h]
  rfl

lemma cmdLoginImpl_of_refused {s : State} {c : ConnId} {req : LoginRequest}
    (h : acceptedUser s req.username req.password = none) :
    ∃ rsp, cmdLoginImpl ac s c req = (refused s req.username req.password, some rsp) := by
  obtain ⟨code, u, hcode, hlogin⟩ := login_of_refused ac h
  simp only [List.mem_cons, List.not_mem_nil, or_false] at hcode
  rcases hcode with rfl | rfl | rfl | rfl <;>
    · simp only [cmdLoginImpl, hlogin]
      exact ⟨_, rfl⟩

/-! ## The session part of the state -/

/-- The session part of a user record. -/
def User.session (v : User) : User :=
  { v with
    username := [], lastLoggedIn := -1, lastBlocked := -1, attempts := 0
    buffer := OutBuffer.init, blocked := [] }

/-- The session part of a connection record. -/
def Conn.session (k : Conn) : Conn :=
  { k with outbuffer := OutBuffer.init, addr := ⟨[], [], [], []⟩, chunks := ChunkList.empty }

/-- The entry is about a session. -/
def Obs.isSession : Obs → Bool
  | .login .. => true
  | .logout .. => true
  | _ => false

/-- The session part of the state. -/
def State.sessions (s : State) : State :=
  { s with
    users := fun u => (s.users u).session
    conn := fun c => (s.conn c).session
    epoll := fun _ => none
    held := []
    fault := none
    fileDb := newTrieFileNode
    globalChunkId := 0
    log := s.log.filter Obs.isSession }

/-- Sessions are in the core. -/
@[simp] lemma sessions_core (s : State) : s.core.sessions = s.sessions := by
  unfold State.sessions State.core
  congr 1
  rw [List.filter_filter]
  refine List.filter_congr fun o _ => ?_
  cases o <;> rfl

lemma sessions_congr {s s' : State} (h : s.core = s'.core) : s.sessions = s'.sessions := by
  rw [← sessions_core, h, sessions_core]

@[simp] lemma isUserLoggedIn_sessions (s : State) (u : Option UserId) :
    isUserLoggedIn s.sessions u = isUserLoggedIn s u := by
  cases u <;> rfl

lemma sessions_setUser (s : State) (u : UserId) {f : User → User}
    (h : ∀ v, (f v).session = f v.session) :
    (s.setUser u f).sessions = s.sessions.setUser u f := by
  unfold State.sessions State.setUser
  congr 1
  funext v
  by_cases hv : v = u
  · subst hv
    simp [h]
  · simp [hv]

lemma sessions_setConn (s : State) (c : ConnId) {f : Conn → Conn}
    (h : ∀ k, (f k).session = f k.session) :
    (s.setConn c f).sessions = s.sessions.setConn c f := by
  unfold State.sessions State.setConn
  congr 1
  funext d
  by_cases hd : d = c
  · subst hd
    simp [h]
  · simp [hd]

/-- A change of a user record outside the session part. -/
lemma sessions_setUser_id (s : State) (u : UserId) {f : User → User}
    (h : ∀ v, (f v).session = v.session) : (s.setUser u f).sessions = s.sessions := by
  unfold State.sessions State.setUser
  congr 1
  funext v
  by_cases hv : v = u
  · subst hv
    simp [h]
  · simp [hv]

/-- A change of a connection record outside the session part. -/
lemma sessions_setConn_id (s : State) (c : ConnId) {f : Conn → Conn}
    (h : ∀ k, (f k).session = k.session) : (s.setConn c f).sessions = s.sessions := by
  unfold State.sessions State.setConn
  congr 1
  funext d
  by_cases hd : d = c
  · subst hd
    simp [h]
  · simp [hd]

lemma sessions_emit (s : State) {o : Obs} (h : o.isSession = true) :
    (s.emit o).sessions = s.sessions.emit o := by
  simp [State.sessions, State.emit, h]

lemma sessions_emit_id (s : State) {o : Obs} (h : o.isSession = false) :
    (s.emit o).sessions = s.sessions := by
  simp [State.sessions, State.emit, h]

@[simp] lemma sessions_touch (s : State) (c : ConnId) : (s.touch c).sessions = s.sessions :=
  sessions_congr (State.core_touch s c)

@[simp] lemma sessions_deliver (s : State) (d : Delivery) :
    (deliver ac s d).sessions = s.sessions :=
  sessions_congr (core_deliver ac s d)

@[simp] lemma sessions_deliverAll (s : State) (ds : List Delivery) :
    (deliverAll ac s ds).sessions = s.sessions :=
  sessions_congr (core_deliverAll ac s ds)

/-! ## What the functions do to sessions -/

lemma sessions_unlink (s : State) (u : UserId) (c : ConnId) :
    (unlink s u c).sessions = unlink s.sessions u c := by
  unfold unlink
  rw [sessions_emit _ rfl, sessions_setUser, sessions_setConn] <;> exact fun _ => rfl

/-- Take the user a connection names off the connection it names. -/
def unbind (s : State) (u : Option UserId) : State :=
  match u with
  | none => s
  | some u =>
      match (s.users u).client with
      | none => s
      | some c => unlink s u c

lemma core_logoutUser (s : State) (u : Option UserId) :
    (logoutUser ac s u).core = unbind s.core u := by
  cases u with
  | none => rfl
  | some u =>
      cases hc : (s.users u).client with
      | none =>
          have hc' : (s.core.users u).client = none := hc
          simp only [logoutUser_of_none ac hc, unbind, hc']
      | some c =>
          have hc' : (s.core.users u).client = some c := hc
          have hunlink := (core_unlink (s.touch c) u c).trans (by rw [State.core_touch])
          simp only [unbind, hc']
          rw [← hunlink]
          simp only [logoutUser, hc, announce_eq]
          split
          · rfl
          · exact core_deliverAll ac _ _

lemma sessions_unbind (s : State) (u : Option UserId) :
    (unbind s u).sessions = unbind s.sessions u := by
  cases u with
  | none => rfl
  | some u =>
      have hclient : (s.sessions.users u).client = (s.users u).client := rfl
      cases hc : (s.users u).client with
      | none => simp only [unbind, hclient, hc]
      | some c =>
          simp only [unbind, hclient, hc]
          exact sessions_unlink s u c

lemma sessions_logoutUser (s : State) (u : Option UserId) :
    (logoutUser ac s u).sessions = unbind s.sessions u := by
  rw [← sessions_core, core_logoutUser, sessions_unbind, sessions_core]

@[simp] lemma fd_unbind (s : State) (u : Option UserId) (c : ConnId) :
    ((unbind s u).conn c).fd = (s.conn c).fd := by
  unfold unbind
  split
  · rfl
  split
  · rfl
  · next d _ =>
      by_cases h : c = d
      · subst h
        simp [unlink, State.setConn, State.setUser, State.emit]
      · simp [unlink, State.setConn, State.setUser, State.emit, h]

/-- Taking a user off its connection leaves the other users as they are. -/
lemma isUserLoggedIn_unlink {s : State} {u v : UserId} {c : ConnId} (h : v ≠ u) :
    isUserLoggedIn (unlink s u c) (some v) = isUserLoggedIn s (some v) := by
  simp [isUserLoggedIn, unlink, State.setConn, State.setUser, State.emit, h]

/-- Bind a user to a connection. -/
def bind (s : State) (c : ConnId) (u : UserId) (password : Bytes) : State :=
  ((s.setUser u fun v => { v with lastActive := s.now, client := some c }).setConn c fun k =>
    { k with user := some u }).emit (.login c u password)

/-- Close a descriptor. -/
def shut (s : State) (fd : ℕ) : State := { s with sock := Function.update s.sock fd none }

lemma fd_logoutUser (s : State) (u : Option UserId) (c : ConnId) :
    ((logoutUser ac s u).conn c).fd = (s.conn c).fd := by
  have h := congrArg (fun t => (t.conn c).fd) (core_logoutUser ac s u)
  exact Eq.trans h (fd_unbind s.core u c)

lemma core_closeSocket (s : State) (c : ConnId) :
    (closeSocket ac s c).core = shut (unbind s.core (s.conn c).user) (s.conn c).fd := by
  have hlock : ((s.touch c).lock c).core = s.core := by simp
  have hconn : ((s.touch c).lock c).conn = s.conn := by simp
  have hlogout := core_logoutUser ac ((s.touch c).lock c) (s.conn c).user
  rw [hlock] at hlogout
  unfold closeSocket
  simp only [hconn, fd_logoutUser]
  rw [← hlogout]
  rfl

lemma sessions_closeSocket (s : State) (c : ConnId) :
    (closeSocket ac s c).sessions =
      shut (unbind s.sessions (s.conn c).user) (s.conn c).fd := by
  have hshut : (shut (unbind s.core (s.conn c).user) (s.conn c).fd).sessions =
      shut (unbind s.core (s.conn c).user).sessions (s.conn c).fd := rfl
  rw [← sessions_core, core_closeSocket, hshut, sessions_unbind, sessions_core]

lemma sessions_updateLastActive (s : State) (c : ConnId) :
    (updateLastActive s c).sessions = updateLastActive s.sessions c := by
  unfold updateLastActive
  show (match (s.conn c).user with | none => s | some u => _).sessions =
    match (s.conn c).user with | none => s.sessions | some u => _
  cases (s.conn c).user with
  | none => rfl
  | some u =>
      dsimp only
      rw [isUserLoggedIn_sessions]
      split
      · exact sessions_setUser s u fun v => rfl
      · rfl

lemma sessions_refused (s : State) (username password : Bytes) :
    (refused s username password).sessions = s.sessions := by
  rcases refused_cases s username password with h | ⟨u, attempts, lastBlocked, -, h⟩
  · rw [h]
  · rw [h, sessions_setUser_id]
    exact fun _ => rfl

lemma sessions_link_refresh (s : State) (c : ConnId) (u : UserId) (req : LoginRequest)
    (ds : List Delivery) :
    (link (deliverAll ac (refresh s u) ds) c u req).sessions =
      bind s.sessions c u (cstr req.password) := by
  have hrefresh : (refresh s u).sessions =
      s.sessions.setUser u fun v => { v with lastActive := s.now } := by
    unfold State.sessions refresh State.setUser
    congr 1
    funext v
    by_cases hv : v = u
    · subst hv
      simp [User.session]
    · simp [hv]
  unfold link
  rw [sessions_setConn_id, sessions_emit _ rfl, sessions_setUser, sessions_setConn,
    sessions_deliverAll, hrefresh]
  · unfold bind State.emit State.setUser State.setConn
    congr 1
    funext v
    by_cases hv : v = u
    · subst hv
      simp [State.sessions]
    · simp [hv]
  all_goals exact fun _ => rfl

/-! ## The commands that leave sessions alone -/

lemma core_touches (s : State) (cs : List ConnId) : (cs.foldl State.touch s).core = s.core := by
  induction cs generalizing s with
  | nil => rfl
  | cons c cs ih => exact (ih _).trans (State.core_touch s c)

lemma sessions_setChunks (s : State) (c : ConnId) (chunks : Option ChunkList) :
    (setChunks s c chunks).sessions = s.sessions := by
  cases chunks with
  | none => rfl
  | some chunks => exact sessions_setConn_id s c fun _ => rfl

lemma sessions_of_effect {s t : State} {c : ConnId} {req : Request}
    (h : CommandEffect ac s c req t) : t.sessions = s.sessions := by
  cases h with
  | reads _ cs => exact sessions_congr (core_touches s cs)
  | messages => exact sessions_deliverAll ac s _
  | blocks => exact sessions_setUser_id s _ fun _ => rfl
  | taken => rfl
  | file =>
      unfold registerFile
      rw [sessions_emit_id _ rfl, sessions_setChunks]
      rfl
  | chunks =>
      unfold registerChunks
      rw [sessions_emit_id _ rfl, sessions_setChunks]

/-- A request that is not about sessions only refreshes the time of the last activity. -/
lemma sessions_runRequest_of_quiet (s : State) (c : ConnId) {req : Request}
    (hquiet : req.isQuiet = true) :
    (runRequest ac s c req).1.sessions = s.sessions ∨
      (runRequest ac s c req).1.sessions = updateLastActive s.sessions c := by
  by_cases hunknown : ∃ type, req = .unknown type
  · obtain ⟨type, rfl⟩ := hunknown
    exact .inl rfl
  · right
    rw [runRequest_of_known ac s c fun type h => hunknown ⟨type, h⟩, sessions_updateLastActive,
      sessions_of_effect ac (runCommand_effect ac s c hquiet)]

/-- The answer to a request is queued after it has been run. -/
lemma core_serve (s : State) (c : ConnId) (req : Request) :
    (serve ac s c req).core = (runRequest ac s c req).1.core := by
  unfold serve
  generalize runRequest ac s c req = r
  obtain ⟨t, rsp⟩ := r
  cases rsp with
  | none => rfl
  | some rsp => exact core_deliver ac t ⟨.out c, .reply, rsp⟩

/-- Draining a queue does not touch the core. -/
lemma core_imSendBuffer (s : State) (c : ConnId) (q : Queue) (nsent : Option ℕ) :
    (imSendBuffer s c q nsent).core = s.core := by
  have hdone : ∀ (t : State) (len n : ℕ), (imSendBufferDone t c q len n).core = t.core := by
    intro t len n
    unfold imSendBufferDone
    rw [State.core_setBuf]
    split <;> simp
  unfold imSendBuffer
  dsimp only
  split
  · cases nsent with
    | none => rfl
    | some n => exact (hdone _ _ _).trans (State.core_emit_move s _)
  · exact hdone _ _ _

lemma core_networkWritable (s : State) (c : ConnId) (nsent₁ nsent₂ : Option ℕ) :
    (networkWritable s c nsent₁ nsent₂).core = s.core := by
  unfold networkWritable
  dsimp only
  rw [State.core_unlock]
  split
  · rw [core_imSendBuffer, core_imSendBuffer, State.core_lock]
  · rw [core_imSendBuffer, State.core_lock]

end EpollChat

import EpollChat.Framework.Pairing
import EpollChat.Construction.Demo
import EpollChat.Properties.SessionMachine

/-!
# Session pairing

A session is a pair of pointers, from the user to its connection and back.  The assignments of
`cmd_login_impl` set both without looking at what they held before, so a login on a connection
that has a user, or of a user whose expired session has not been swept, leaves a pointer to a
partner that has moved on; and a login that was pipelined behind a logout binds the user to a
closed connection.

`BindsFree` is the condition under which a login does none of this.  In a run whose accepted
logins all satisfy it the pointers are a one-to-one pairing, and every bound connection is open
and is the table entry of its descriptor (`sessionsPaired_run`).  One accepted login from such a
state keeps it such exactly under this condition (`sessionsPaired_login_iff`).
-/

namespace EpollChat

variable (ac : Achelper)

/-- **The links between users and connections are a pairing**, with open connections that are
the entries for their descriptors. -/
structure SessionsPaired (s : State) : Prop where
  paired : Paired (fun u => (s.users u).client) fun c => (s.conn c).user
  isOpen : ∀ u c, (s.users u).client = some c → s.IsOpen c
  entry : ∀ u c, (s.users u).client = some c → pickConn s (s.conn c).fd = some c

/-- The connection is open and has no other user, and the user has no other connection. -/
def BindsFree (s : State) (c : ConnId) (u : UserId) : Prop :=
  s.IsOpen c ∧ ((s.users u).client = none ∨ (s.users u).client = some c) ∧
    ((s.conn c).user = none ∨ (s.conn c).user = some u)

instance (s : State) (c : ConnId) (u : UserId) : Decidable (BindsFree s c u) := by
  unfold BindsFree
  infer_instance

lemma sessionsPaired_sessions {s : State} : SessionsPaired s.sessions ↔ SessionsPaired s :=
  ⟨fun ⟨h₁, h₂, h₃⟩ => ⟨h₁, h₂, h₃⟩, fun ⟨h₁, h₂, h₃⟩ => ⟨h₁, h₂, h₃⟩⟩

/-- With the table in order, the entry is a consequence of the socket. -/
lemma SessionsPaired.of_open {s : State} (hs : TableOk s)
    (paired : Paired (fun u => (s.users u).client) fun c => (s.conn c).user)
    (isOpen : ∀ u c, (s.users u).client = some c → s.IsOpen c) : SessionsPaired s :=
  ⟨paired, isOpen, fun u c h => hs.pickConn_of_sock (isOpen u c h)⟩

/-! ## One move -/

/-- The pointers after a binding. -/
lemma paired_bind_iff (s : State) (c : ConnId) (u : UserId) (password : Bytes)
    (h : Paired (fun u => (s.users u).client) fun c => (s.conn c).user) :
    Paired (fun v => ((bind s c u password).users v).client)
        (fun d => ((bind s c u password).conn d).user) ↔
      ((s.users u).client = none ∨ (s.users u).client = some c) ∧
        ((s.conn c).user = none ∨ (s.conn c).user = some u) := by
  rw [← h.bind_iff u c]
  have hclient : (fun v => ((bind s c u password).users v).client) =
      Function.update (fun v => (s.users v).client) u (some c) := by
    funext v
    rw [client_bind, Function.update_apply]
  have huser : (fun d => ((bind s c u password).conn d).user) =
      Function.update (fun d => (s.conn d).user) c (some u) := by
    funext d
    rw [user_bind, Function.update_apply]
  rw [hclient, huser]

/-- Binding keeps the sessions paired exactly when it binds a free user to a free open
connection. -/
lemma sessionsPaired_bind_iff {s : State} {c : ConnId} {u : UserId} {password : Bytes}
    (hs' : TableOk (bind s c u password)) (hp : SessionsPaired s) :
    SessionsPaired (bind s c u password) ↔ BindsFree s c u := by
  have hopen : ∀ d, (bind s c u password).IsOpen d ↔ s.IsOpen d := fun d => by
    unfold State.IsOpen
    rw [fd_bind]
    rfl
  constructor
  · intro h
    refine ⟨(hopen c).mp (h.isOpen u c ?_), (paired_bind_iff s c u password hp.paired).mp h.paired⟩
    rw [client_bind, if_pos rfl]
  · intro ok
    refine .of_open hs' ((paired_bind_iff s c u password hp.paired).mpr ok.2) fun v d hv => ?_
    rw [hopen]
    rw [client_bind] at hv
    split at hv
    · obtain rfl := Option.some.inj hv
      exact ok.1
    · exact hp.isOpen v d hv

/-- Activity does not matter. -/
lemma sessionsPaired_active_iff {s : State} {c : ConnId} :
    SessionsPaired (updateLastActive s c) ↔ SessionsPaired s := by
  have hopen : ∀ d, (updateLastActive s c).IsOpen d ↔ s.IsOpen d := by simp [State.IsOpen]
  have hpick : ∀ fd, pickConn (updateLastActive s c) fd = pickConn s fd := fun fd => by
    rcases updateLastActive_eq s c with h | ⟨u, -, -, h⟩ <;> rw [h]
    rfl
  constructor <;> rintro ⟨h₁, h₂, h₃⟩
  · simp only [client_updateLastActive, conn_updateLastActive, hopen, hpick] at h₁ h₂ h₃
    exact ⟨h₁, h₂, h₃⟩
  · refine ⟨?_, ?_, ?_⟩ <;>
      simp only [client_updateLastActive, conn_updateLastActive, hopen, hpick]
    exacts [h₁, h₂, h₃]

/-- Session moves keep the pairing, if users are bound to free connections. -/
lemma sessionsPaired_move {s s' : State} (hs : TableOk s) (hp : SessionsPaired s)
    (move : SessionMove BindsFree s s') : SessionsPaired s' := by
  have hs' : TableOk s' := tableOk_move hs move
  cases move with
  | accept fd addr free idle =>
      have hold : ∀ u d, (s.users u).client = some d → d ≠ s.nconns := fun u d h =>
        (hs.client_lt u d h).ne
      refine sessionsPaired_sessions.mpr (.of_open (tableOk_sessions.mp hs') ?_ ?_)
      · intro u d
        simp only [users_acceptClient, conn_acceptClient]
        by_cases hd : d = s.nconns
        · subst hd
          simpa [newConn] using fun h => hold u _ h rfl
        · simpa [hd] using hp.paired u d
      · intro u d h
        rw [users_acceptClient] at h
        have hopen := hp.isOpen u d h
        unfold State.IsOpen at hopen ⊢
        rw [conn_acceptClient, Function.update_of_ne (hold u d h), sock_acceptClient,
          Function.update_of_ne, hopen]
        intro hfd
        rw [hfd, free] at hopen
        cases hopen
  | begin fd isOpen idle => exact ⟨hp.paired, hp.isOpen, hp.entry⟩
  | finish => exact ⟨hp.paired, hp.isOpen, hp.entry⟩
  | active c serves => exact sessionsPaired_active_iff.mpr hp
  | bind c u username password serves found knows idle ok =>
      exact (sessionsPaired_bind_iff hs' hp).mpr ok
  | unlink u c bound =>
      refine .of_open hs' ?_ fun v d hv => ?_
      · have hclient : (fun v => ((unlink s u c).users v).client) =
            Function.update (fun v => (s.users v).client) u none := by
          funext v
          rw [client_unlink, Function.update_apply]
        have huser : (fun d => ((unlink s u c).conn d).user) =
            Function.update (fun d => (s.conn d).user) c none := by
          funext d
          rw [user_unlink, Function.update_apply]
        rw [hclient, huser]
        exact hp.paired.unbind bound
      · unfold State.IsOpen
        rw [fd_unlink]
        rw [client_unlink] at hv
        split at hv
        · cases hv
        · exact hp.isOpen v d hv
  | shut c own unbound =>
      refine .of_open hs' hp.paired fun v d hv => ?_
      have hopen := hp.isOpen v d hv
      -- a bound connection does not have the descriptor that is closed
      have hne : (s.conn d).fd ≠ (s.conn c).fd := by
        intro hfd
        rcases own with hc | hc
        · obtain rfl : d = c := State.IsOpen.eq_of_fd hopen hc hfd
          have hnone := unbound v ((hp.paired v d).mp hv)
          cases hnone.symm.trans hv
        · unfold State.IsOpen at hopen
          rw [hfd, hc] at hopen
          cases hopen
      unfold State.IsOpen shut
      dsimp only
      rw [Function.update_of_ne hne]
      exact hopen
  | tick seconds => exact ⟨hp.paired, hp.isOpen, hp.entry⟩

/-! ## All runs -/

lemma Loaded.sessionsPaired {s : State} (hs : Loaded s) : SessionsPaired s where
  paired u c := by simp [(hs.users u).1, hs.conn, newConn]
  isOpen u c h := by simp [(hs.users u).1] at h
  entry u c h := by simp [(hs.users u).1] at h

/-- A step whose accepted login, if it has one, binds a free user to a free open connection. -/
lemma SessionsPaired.step {s s' : State} {e : Event} (hp : SessionsPaired s) (hs : TableOk s)
    (hok : LoginsMeet BindsFree s e) (hstep : step ac s e = some s') : SessionsPaired s' := by
  have hmoves := sessions_step ac BindsFree hs hok (fun _ _ _ h => h) hstep
  have h := hmoves.invariant (P := fun t => TableOk t ∧ SessionsPaired t)
    (fun _ _ h move => ⟨tableOk_move h.1 move, sessionsPaired_move h.1 h.2 move⟩)
    ⟨tableOk_sessions.mpr hs, sessionsPaired_sessions.mpr hp⟩
  exact sessionsPaired_sessions.mp h.2

/-- **Session pairing.** In every run whose accepted logins bind free users to free open
connections, the links are a one-to-one pairing and every bound connection is open and is the
entry for its descriptor. -/
theorem sessionsPaired_run {p : Setup} {es : List Event} {s : State}
    (run : ServerRun ac p (LoginsMeet BindsFree) es s) : SessionsPaired s :=
  run.invariant_of (loaded_init p).sessionsPaired (fun run => tableOk_run ac run)
    fun hs hp hok hstep => hp.step ac hs hok hstep

/-- From a state with paired sessions an accepted login leads to one exactly when it binds a free
user to a free open connection. -/
theorem sessionsPaired_login_iff {s : State} (hs : TableOk s) (hp : SessionsPaired s) {c : ConnId}
    (hserving : s.serving = some c) {r : LoginRequest} {u : UserId}
    (haccepted : acceptedUser s r.username r.password = some u) :
    SessionsPaired (exec ac s (.request (.login r))) ↔ BindsFree s c u := by
  obtain ⟨hfind, -, hpassword, hlogged⟩ := acceptedUser_eq_some.mp haccepted
  have hbound : TableOk (bind s.sessions c u (cstr r.password)) :=
    @tableOk_move (fun _ _ _ => True) _ _ (tableOk_sessions.mpr hs)
      (.bind c u r.username (cstr r.password) hserving hfind hpassword
        (by rw [isUserLoggedIn_sessions, hlogged]) trivial)
  simp only [exec, hserving]
  rw [← sessionsPaired_sessions, sessions_serve_accepted ac haccepted, sessionsPaired_active_iff,
    sessionsPaired_bind_iff hbound (sessionsPaired_sessions.mpr hp)]
  rfl

/-- Two logins, a message and a logout on free connections. -/
theorem sessionsPaired_demo :
    ∃ s, ServerRun protobufWire demo (LoginsMeet BindsFree)
        (acceptAndServe 5 [loginAs "hans" "falcon"] ++
          acceptAndServe 6 [loginAs "yoda" "wise", messageTo "hans" "hi", .logout]) s ∧
      SessionsPaired s := by
  obtain ⟨s, run, -⟩ := Run.exists_of_execute (step protobufWire) (LoginsMeet BindsFree) demo.init
    (acceptAndServe 5 [loginAs "hans" "falcon"] ++
      acceptAndServe 6 [loginAs "yoda" "wise", messageTo "hans" "hi", .logout])
    (fun _ => True) (by decide +kernel)
  exact ⟨s, run, sessionsPaired_run protobufWire run⟩

/-- Two logins on one connection leave the first user pointing at the second one's connection. -/
theorem not_sessionsPaired_double_login :
    ¬ ∀ (ac : Achelper) (p : Setup) (es : List Event) (s : State),
      ServerRun ac p Always es s → SessionsPaired s := by
  intro h
  obtain ⟨s, run, hclient, huser⟩ := Run.exists_of_execute (step protobufWire) Always demo.init
    (acceptAndServe 5 [loginAs "hans" "falcon", loginAs "yoda" "wise"])
    (fun s => (s.users 0).client = some 0 ∧ (s.conn 0).user = some 1) (by decide +kernel)
  have hback : (s.conn 0).user = some 0 := ((h protobufWire demo _ s run).paired 0 0).mp hclient
  rw [huser] at hback
  exact absurd hback (by decide)

end EpollChat

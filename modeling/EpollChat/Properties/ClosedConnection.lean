import EpollChat.Construction.Demo
import EpollChat.Properties.SessionMachine

/-!
# Requests on a closed connection

A logout closes the connection in the middle of the receive loop, and the loop goes on with the
requests that were sent behind it.  All of them but logins find the connection without a session
and are only answered.  A login is still processed: a wrong password is counted against the user,
and the right one binds the user to the closed connection.

`LeavesNoTrace` is the condition under which a login is refused without any of this: the user
does not exist, or is blocked, or is logged in elsewhere and the password is right.  In a run in
which every login on a closed connection is of this kind, a request on a closed connection leaves
everything untouched exactly if it is of this kind itself, and nobody becomes bound to a closed
connection (`closed_untouched_run`).
-/

namespace EpollChat

variable (ac : Achelper)

/-- The request is not a login, or a login that is refused without counting an attempt. -/
def LeavesNoTrace (s : State) : Request → Prop
  | .login r =>
      ∀ u ∈ findUser s r.username, s.now < (s.users u).lastBlocked ∨
        (s.users u).password = cstr r.password ∧ isUserLoggedIn s (some u) = true
  | _ => True

instance (s : State) (req : Request) : Decidable (LeavesNoTrace s req) :=
  match req with
  | .login r =>
      inferInstanceAs (Decidable (∀ u ∈ findUser s r.username,
        s.now < (s.users u).lastBlocked ∨
          (s.users u).password = cstr r.password ∧ isUserLoggedIn s (some u) = true))
  | .message _ | .block _ | .unblock _ | .logout | .whoelse _ | .getip _ | .regfile _
  | .regchunk _ | .searchfile _ | .unknown _ => .isTrue trivial

/-- The condition on an event that a request on a closed connection leaves no trace. -/
def ClosedLeavesNoTrace (s : State) : Event → Prop
  | .request req => ∀ c ∈ s.serving, ¬ s.IsOpen c → LeavesNoTrace s req
  | _ => True

instance (s : State) (e : Event) : Decidable (ClosedLeavesNoTrace s e) :=
  match e with
  | .request req =>
      inferInstanceAs (Decidable (∀ c ∈ s.serving, ¬ s.IsOpen c → LeavesNoTrace s req))
  | .accept .. | .hangup _ | .eof _ | .readable _ | .readDone | .writable .. | .tick _
  | .sweep => .isTrue trivial

/-! ## The invariant -/

/-- The user that a closed connection names while it is still being served is not bound. -/
def ClosedIdle (s : State) : Prop :=
  ∀ c, s.serving = some c → ¬ s.IsOpen c → ∀ u, (s.conn c).user = some u →
    (s.users u).client = none

lemma ClosedIdle.not_loggedIn {s : State} (h : ClosedIdle s) {c : ConnId}
    (hserving : s.serving = some c) (hclosed : ¬ s.IsOpen c) :
    isUserLoggedIn s (s.conn c).user = false := by
  cases hu : (s.conn c).user with
  | none => rfl
  | some u => simp [isUserLoggedIn, h c hserving hclosed u hu]

/-- Session moves keep it, if users are bound to open connections. -/
lemma closedIdle_move {s s' : State} (h : ClosedIdle s)
    (move : SessionMove (fun s c _ => s.IsOpen c) s s') (hs : TableOk s) : ClosedIdle s' := by
  cases move with
  | accept fd addr free idle =>
      intro c hserving
      obtain ⟨_, _, heq⟩ := acceptClient_eq s fd addr
      have hserving' : (acceptClient s fd addr).serving = some c := hserving
      rw [heq] at hserving'
      cases idle.symm.trans hserving'
  | begin fd isOpen idle =>
      intro c hserving hclosed
      exact absurd (hs.isOpen_of_pickConn isOpen hserving) hclosed
  | finish =>
      intro c hserving
      cases hserving
  | active c serves =>
      intro d hserving hclosed u hu
      have hserving' : s.serving = some d := by
        rcases updateLastActive_eq s c with heq | ⟨w, -, -, heq⟩ <;> rw [heq] at hserving <;>
          exact hserving
      rw [client_updateLastActive]
      rw [conn_updateLastActive] at hu
      exact h d hserving' (fun hopen => hclosed (by simpa [State.IsOpen] using hopen)) u hu
  | bind c w username password serves found knows idle ok =>
      intro d hserving hclosed
      obtain rfl : c = d := Option.some.inj (serves.symm.trans hserving)
      refine absurd ?_ hclosed
      unfold State.IsOpen
      rw [fd_bind]
      exact ok
  | unlink w e bound =>
      intro d hserving hclosed u hu
      rw [user_unlink] at hu
      rw [client_unlink]
      split at hu
      · cases hu
      · split
        · rfl
        · refine h d hserving (fun hopen => hclosed ?_) u hu
          unfold State.IsOpen
          rw [fd_unlink]
          exact hopen
  | shut e own unbound =>
      intro d hserving hclosed u hu
      by_cases hopen : s.IsOpen d
      · -- the connection that is served is the one that was closed
        have hfd : (s.conn d).fd = (s.conn e).fd := by
          by_contra hne
          refine hclosed ?_
          unfold State.IsOpen shut
          dsimp only
          rw [Function.update_of_ne hne]
          exact hopen
        have hde : d = e := by
          rcases own with hown | hown
          · exact State.IsOpen.eq_of_fd hopen hown hfd
          · unfold State.IsOpen at hopen
            rw [hfd, hown] at hopen
            cases hopen
        exact unbound u (hde ▸ hu)
      · exact h d hserving hopen u hu
  | tick seconds => exact h

lemma closedIdle_sessions {s : State} : ClosedIdle s.sessions ↔ ClosedIdle s := Iff.rfl

/-- Logins that leave no trace on a closed connection are accepted on open ones only. -/
lemma loginsMeet_of_noTrace {s : State} {e : Event} (h : ClosedLeavesNoTrace s e) :
    LoginsMeet (fun s c _ => s.IsOpen c) s e := by
  unfold LoginsMeet
  split
  · next r =>
      intro c hc u hu
      by_contra hclosed
      obtain ⟨hfind, hblocked, -, hlogged⟩ := acceptedUser_eq_some.mp hu
      rcases h c hc hclosed u hfind with h | ⟨-, h⟩
      · exact hblocked h
      · rw [hlogged] at h
        cases h
  · trivial

lemma closedIdle_run {p : Setup} {es : List Event} {s : State}
    (run : ServerRun ac p ClosedLeavesNoTrace es s) : ClosedIdle s := by
  refine run.invariant_of ?_ (fun run => tableOk_run ac run) ?_
  · intro c h
    rw [(loaded_init p).serving] at h
    cases h
  · intro s e s' hs h hok hstep
    have hmoves := sessions_step ac (fun s c _ => s.IsOpen c) hs (loginsMeet_of_noTrace hok)
      (fun _ _ _ h => h) hstep
    have h' := hmoves.invariant (P := fun t => TableOk t ∧ ClosedIdle t)
      (fun _ _ h move => ⟨tableOk_move h.1 move, closedIdle_move h.2 move h.1⟩)
      ⟨tableOk_sessions.mpr hs, closedIdle_sessions.mpr h⟩
    exact closedIdle_sessions.mp h'.2

/-! ## One request on a closed connection -/

/-- A login leaves no trace exactly if it is refused and nothing is counted. -/
lemma leavesNoTrace_login_iff {s : State} {r : LoginRequest} :
    LeavesNoTrace s (.login r) ↔
      acceptedUser s r.username r.password = none ∧ refused s r.username r.password = s := by
  have hcounted : ∀ u, countAttempt s u ≠ s := by
    intro u hsame
    obtain ⟨attempts, lastBlocked, hne, heq⟩ := countAttempt_eq s u
    have hattempts := congrArg (fun t => (t.users u).attempts) (hsame.symm.trans heq)
    simp only [State.setUser, Function.update_self] at hattempts
    exact hne hattempts.symm
  simp only [LeavesNoTrace, acceptedUser, refused]
  cases findUser s r.username with
  | none => simp
  | some u =>
      by_cases hblocked : s.now < (s.users u).lastBlocked
      · simp [hblocked, Int.not_le.mpr hblocked]
      by_cases hpassword : (s.users u).password = cstr r.password
      · -- the only reason left to refuse is that the user is logged in
        simp [hblocked, Int.not_lt.mp hblocked, hpassword]
      · simp [hblocked, hpassword, hcounted]

/-- A login that is refused on a connection without a session leaves what it counts. -/
lemma untouched_refused_iff {s : State} {c : ConnId} {r : LoginRequest}
    (hlogged : isUserLoggedIn s (s.conn c).user = false)
    (hrefused : acceptedUser s r.username r.password = none) :
    Untouched s (serve ac s c (.login r)) c ↔ refused s r.username r.password = s := by
  obtain ⟨rsp, hrsp⟩ := cmdLoginImpl_of_refused ac (c := c) hrefused
  have hserve : serve ac s c (.login r) =
      deliver ac (updateLastActive (refused s r.username r.password) c) ⟨.out c, .reply, rsp⟩ := by
    unfold serve
    simp only [runRequest, runCommand, hrsp]
    rfl
  rw [hserve]
  constructor
  · intro h
    rcases refused_cases s r.username r.password with hsame | ⟨u, attempts, lastBlocked, hne, heq⟩
    · exact hsame
    -- the attempt is counted
    have husers := h.users
    rw [users_deliver_out, heq] at husers
    have hattempts := congrArg (fun f => (f u).attempts) husers
    rcases updateLastActive_eq (s.setUser u fun v => { v with attempts, lastBlocked }) c with
      hstill | ⟨w, -, -, hactive⟩
    · rw [hstill] at hattempts
      simp only [State.setUser, Function.update_self] at hattempts
      exact absurd hattempts hne
    · rw [hactive] at hattempts
      by_cases hw : u = w
      · subst hw
        simp only [State.setUser, Function.update_self] at hattempts
        exact absurd hattempts hne
      · simp only [State.setUser, Function.update_of_ne hw, Function.update_self] at hattempts
        exact absurd hattempts hne
  · intro hsame
    rw [hsame, updateLastActive_of_not_loggedIn hlogged]
    exact untouched_deliver_out ac s c .reply rsp

/-- **One request on a closed connection** leaves everything untouched exactly if it is not a
login, or a login that leaves no trace. -/
lemma untouched_iff {s : State} {c : ConnId} (hserving : s.serving = some c)
    (hclosed : ¬ s.IsOpen c) (hidle : ClosedIdle s) (req : Request) :
    Untouched s (serve ac s c req) c ↔ LeavesNoTrace s req := by
  have hlogged := hidle.not_loggedIn hserving hclosed
  cases req with
  | login r =>
      rw [leavesNoTrace_login_iff]
      cases haccepted : acceptedUser s r.username r.password with
      | none =>
          rw [untouched_refused_iff ac hlogged haccepted]
          simp
      | some u =>
          -- accepted: the user is bound to the closed connection
          refine iff_of_false (fun h => ?_) (by simp)
          have huser := (user_serve_accepted ac (c := c) haccepted c).trans (if_pos rfl)
          have hclient := (client_serve_accepted ac (c := c) haccepted u).trans (if_pos rfl)
          rw [h.users, hidle c hserving hclosed u ((h.user c).symm.trans huser)] at hclient
          cases hclient
  | unknown type => exact iff_of_true ⟨rfl, rfl, rfl, fun _ => rfl, fun _ => rfl, fun _ _ => rfl⟩ trivial
  | _ =>
      rw [serve_of_not_loggedIn ac hlogged (by simp) (by simp)]
      exact iff_of_true (untouched_deliver_out ac s c .reply _) trivial

/-! ## All runs -/

/-- Without an accepted login nobody becomes bound. -/
lemma client_of_no_login {s s' : State} (hs : TableOk s) {e : Event}
    (hnone : LoginsMeet (fun _ _ _ => False) s e) (h : step ac s e = some s') {u : UserId}
    {c : ConnId} (hc : (s'.users u).client = some c) : (s.users u).client = some c := by
  have hmoves := sessions_step ac (fun _ _ _ => False) hs hnone (fun _ _ _ h => h) h
  have hkeep := hmoves.invariant
    (P := fun t => ∀ u c, (t.users u).client = some c → (s.users u).client = some c) ?_
    (fun _ _ h => h)
  · exact hkeep u c hc
  intro t t' ht move v d hd
  cases move with
  | accept fd addr free idle =>
      have hd' : ((acceptClient t fd addr).users v).client = some d := hd
      rw [users_acceptClient] at hd'
      exact ht v d hd'
  | begin fd isOpen idle => exact ht v d hd
  | finish => exact ht v d hd
  | active c serves =>
      rw [client_updateLastActive] at hd
      exact ht v d hd
  | bind c w username password serves found knows idle ok => exact ok.elim
  | unlink w e bound =>
      rw [client_unlink] at hd
      split at hd
      · cases hd
      · exact ht v d hd
  | shut c own unbound => exact ht v d hd
  | tick seconds => exact ht v d hd

/-- Who becomes bound by a step becomes bound to an open connection, if logins on closed
connections leave no trace. -/
lemma bound_to_open {s s' : State} (hs : TableOk s) {e : Event} (hok : ClosedLeavesNoTrace s e)
    (h : step ac s e = some s') {u : UserId} {c : ConnId}
    (hc : (s'.users u).client = some c) : (s.users u).client = some c ∨ s'.IsOpen c := by
  by_cases hnone : LoginsMeet (fun _ _ _ => False) s e
  · exact .inl (client_of_no_login ac hs hnone h hc)
  · -- an accepted login, on an open connection
    have hopen := loginsMeet_of_noTrace hok
    unfold LoginsMeet at hnone hopen
    split at hnone
    · next r =>
        push Not at hnone
        obtain ⟨d, hd, v, hv, -⟩ := hnone
        obtain ⟨-, -, rfl⟩ := (step_eq_some ac).mp h
        have hserving : s.serving = some d := hd
        simp only [exec, hserving] at hc ⊢
        rw [client_serve_accepted ac hv] at hc
        split at hc
        · obtain rfl := Option.some.inj hc
          exact .inr ((isOpen_serve_accepted ac hv d).mpr (hopen d hd v hv))
        · exact .inl hc
    · exact absurd trivial hnone

/-- **A closed connection has no further effect**, in every run in which logins on closed
connections are refused without a trace: a request on one leaves everything untouched exactly if
it is no other login, and no step binds a user to a closed connection. -/
theorem closed_untouched_run {p : Setup} {es : List Event} {s : State}
    (run : ServerRun ac p ClosedLeavesNoTrace es s) :
    (∀ c, s.serving = some c → ¬ s.IsOpen c → ∀ req,
      (Untouched s (exec ac s (.request req)) c ↔ LeavesNoTrace s req)) ∧
    ∀ e s', ClosedLeavesNoTrace s e → step ac s e = some s' →
      ∀ u c, (s'.users u).client = some c → (s.users u).client = some c ∨ s'.IsOpen c := by
  refine ⟨fun c hserving hclosed req => ?_, fun e s' hok hstep u c hc =>
    bound_to_open ac (tableOk_run ac run) hok hstep hc⟩
  simp only [exec, hserving]
  exact untouched_iff ac hserving hclosed (closedIdle_run ac run) req

/-- A logout with a message and a login of an unknown user pipelined behind it. -/
theorem closed_untouched_demo :
    ∃ s, ServerRun protobufWire demo ClosedLeavesNoTrace
        ([.accept 5 demoAddr, .readable 5] ++
          [loginAs "hans" "falcon", .logout, messageTo "yoda" "hi",
            loginAs "luke" "force"].map .request) s ∧
      s.serving = some 0 ∧ ¬ s.IsOpen 0 ∧
        ∀ req, Untouched s (exec protobufWire s (.request req)) 0 ↔ LeavesNoTrace s req := by
  obtain ⟨s, run, hserving, hclosed⟩ := Run.exists_of_execute (step protobufWire)
    ClosedLeavesNoTrace demo.init
    ([.accept 5 demoAddr, .readable 5] ++
      [loginAs "hans" "falcon", .logout, messageTo "yoda" "hi",
        loginAs "luke" "force"].map .request)
    (fun s => s.serving = some 0 ∧ ¬ s.IsOpen 0) (by decide +kernel)
  exact ⟨s, run, hserving, hclosed,
    (closed_untouched_run protobufWire run).1 0 hserving hclosed⟩

/-- A login pipelined behind a logout binds the user to the closed connection. -/
theorem bound_to_closed :
    ¬ ∀ (ac : Achelper) (p : Setup) (es : List Event) (s : State), ServerRun ac p Always es s →
      ∀ c, s.serving = some c → ¬ s.IsOpen c → ∀ req,
        Untouched s (exec ac s (.request req)) c := by
  intro h
  obtain ⟨s, run, hserving, hclosed, hbefore, hafter⟩ := Run.exists_of_execute
    (step protobufWire) Always demo.init
    ([.accept 5 demoAddr, .readable 5] ++ [loginAs "hans" "falcon", .logout].map .request)
    (fun s => s.serving = some 0 ∧ ¬ s.IsOpen 0 ∧ (s.users 0).client = none ∧
      ((exec protobufWire s (.request (loginAs "hans" "falcon"))).users 0).client = some 0)
    (by decide +kernel)
  have husers := (h protobufWire demo _ s run 0 hserving hclosed (loginAs "hans" "falcon")).users
  rw [husers, hbefore] at hafter
  cases hafter

end EpollChat

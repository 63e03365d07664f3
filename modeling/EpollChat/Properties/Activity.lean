import EpollChat.Properties.SessionMachine
import Mathlib.Algebra.Order.Ring.Int

/-!
# Times of activity

`last_active` of a user is -1 until the first login.  After that it is the time of the last login
or served request, and at that time the user had a session.  So one number stands for a whole
history of sessions, as far as it goes: `activity_run`.
-/

namespace EpollChat

variable (ac : Achelper)

/-! ## One step -/

/-- Sessions may have ended, and otherwise the users are as they were. -/
structure Passive (s s' : State) : Prop where
  now : s'.now = s.now
  lastActive : ∀ u, (s'.users u).lastActive = (s.users u).lastActive
  client : ∀ u, (s'.users u).client ≠ none → (s.users u).client ≠ none

lemma Passive.refl (s : State) : Passive s s := ⟨rfl, fun _ => rfl, fun _ h => h⟩

lemma Passive.trans {s t t' : State} (h : Passive s t) (h' : Passive t t') : Passive s t' where
  now := h'.now.trans h.now
  lastActive u := (h'.lastActive u).trans (h.lastActive u)
  client u hu := h.client u (h'.client u hu)

lemma passive_sessions {s s' : State} : Passive s.sessions s'.sessions ↔ Passive s s' :=
  ⟨fun ⟨h₁, h₂, h₃⟩ => ⟨h₁, h₂, h₃⟩, fun ⟨h₁, h₂, h₃⟩ => ⟨h₁, h₂, h₃⟩⟩

lemma passive_unbind (s : State) (u : Option UserId) : Passive s (unbind s u) := by
  unfold unbind
  split
  · exact .refl s
  next u =>
  split
  · exact .refl s
  next c _ =>
  refine ⟨rfl, fun v => ?_, fun v hv => ?_⟩
  · by_cases h : v = u <;> simp [unlink, State.setConn, State.setUser, State.emit, h]
  · rw [client_unlink] at hv
    split at hv
    · exact absurd rfl hv
    · exact hv

lemma passive_closeSocket (s : State) (c : ConnId) : Passive s (closeSocket ac s c) := by
  rw [← passive_sessions, sessions_closeSocket]
  have h := passive_unbind s.sessions (s.conn c).user
  exact ⟨h.now, h.lastActive, h.client⟩

lemma passive_timeThread (s : State) : Passive s (timeThread ac s) := by
  unfold timeThread
  generalize s.clients = l
  induction l generalizing s with
  | nil => exact .refl s
  | cons c l ih =>
      refine Passive.trans ?_ (ih _)
      unfold sweepClient
      split
      · rw [← passive_sessions, sendResponseToClient_eq, sessions_deliver, sessions_logoutUser]
        exact passive_unbind _ _
      · exact .refl s

/-- What a step does to a user: its time of activity stays, and it has a session only if it had
one; or it is active now and has a session. -/
structure Activity (s s' : State) : Prop where
  now : s.now ≤ s'.now
  user : ∀ u, (s'.users u).lastActive = (s.users u).lastActive ∧
      ((s'.users u).client ≠ none → (s.users u).client ≠ none) ∨
    (s'.users u).lastActive = s'.now ∧ (s'.users u).client ≠ none

lemma Passive.activity {s s' : State} (h : Passive s s') : Activity s s' :=
  ⟨h.now.ge, fun u => .inl ⟨h.lastActive u, h.client u⟩⟩

lemma activity_sessions {s s' : State} : Activity s.sessions s'.sessions ↔ Activity s s' :=
  ⟨fun ⟨h₁, h₂⟩ => ⟨h₁, h₂⟩, fun ⟨h₁, h₂⟩ => ⟨h₁, h₂⟩⟩

/-- A served request is activity of the connection's user. -/
lemma Activity.refresh {s t : State} (h : Activity s t) (c : ConnId) :
    Activity s (updateLastActive t c) := by
  rcases updateLastActive_eq t c with heq | ⟨w, -, hlive, heq⟩
  · rw [heq]
    exact h
  obtain ⟨⟨d, hd⟩, -⟩ := isUserLoggedIn_eq_true.mp hlive
  rw [heq]
  refine ⟨h.now, fun u => ?_⟩
  by_cases hu : u = w
  · subst hu
    refine .inr ?_
    simp [State.setUser, hd]
  · have hsame : (t.setUser w fun v => { v with lastActive := t.now }).users u = t.users u := by
      simp [State.setUser, hu]
    rw [hsame]
    exact h.user u

lemma activity_bind (s : State) (c : ConnId) (u : UserId) (password : Bytes) :
    Activity s (bind s c u password) := by
  refine ⟨le_rfl, fun v => ?_⟩
  by_cases hv : v = u
  · subst hv
    exact .inr (by simp [bind, State.setConn, State.setUser, State.emit])
  · refine .inl ?_
    simp [bind, State.setConn, State.setUser, State.emit, hv]

lemma activity_serve (s : State) (c : ConnId) (req : Request) : Activity s (serve ac s c req) := by
  rw [← activity_sessions]
  have hrefl : Activity s.sessions s.sessions := (Passive.refl _).activity
  rcases sessions_serve_cases ac s c req with
    h | h | ⟨r, u, -, -, h⟩ | ⟨-, -, h⟩ <;> rw [h]
  · exact hrefl
  · exact hrefl.refresh c
  · exact (activity_bind _ c u _).refresh c
  · exact (activity_sessions.mpr (passive_closeSocket ac s c).activity).refresh c

lemma activity_exec (s : State) (e : Event) : Activity s (exec ac s e) := by
  cases e with
  | accept fd addr =>
      refine Passive.activity ?_
      obtain ⟨_, _, heq⟩ := acceptClient_eq s fd addr
      rw [exec, heq]
      exact ⟨rfl, fun _ => rfl, fun _ h => h⟩
  | hangup fd | eof fd =>
      rw [exec]
      split
      · exact (passive_closeSocket ac s _).activity
      · exact (Passive.refl s).activity
  | readable fd => exact Passive.activity ⟨rfl, fun _ => rfl, fun _ h => h⟩
  | request req =>
      rw [exec]
      split
      · exact activity_serve ac s _ req
      · exact (Passive.refl s).activity
  | readDone => exact Passive.activity ⟨rfl, fun _ => rfl, fun _ h => h⟩
  | writable fd nsent₁ nsent₂ =>
      rw [exec]
      split
      · next c _ =>
          rw [← activity_sessions, sessions_congr (core_networkWritable s c nsent₁ nsent₂)]
          exact (Passive.refl _).activity
      · exact (Passive.refl s).activity
  | tick seconds =>
      refine ⟨?_, fun u => .inl ⟨rfl, fun h => h⟩⟩
      exact Int.le_add_of_nonneg_right (Int.natCast_nonneg seconds)
  | sweep => exact (passive_timeThread ac s).activity

/-! ## Runs -/

/-- The user had a session at some moment of the run from the time `w` on. -/
def HadSession (p : Setup) (es : List Event) (w : ℤ) (u : UserId) : Prop :=
  ∃ es₁ t, es₁ <+: es ∧ ServerRun ac p Always es₁ t ∧ w ≤ t.now ∧ (t.users u).client ≠ none

section Runs

variable {ac} {p : Setup} {es : List Event} {s : State}

lemma HadSession.mono {w w' : ℤ} {es' : List Event} {u : UserId} (h : HadSession ac p es w u)
    (hes : es <+: es') (hw : w' ≤ w) : HadSession ac p es' w' u := by
  obtain ⟨es₁, t, hpre, run, hlate, hopen⟩ := h
  exact ⟨es₁, t, hpre.trans hes, run, hw.trans hlate, hopen⟩

/-- A session that is open counts from now on. -/
lemma HadSession.of_open (run : ServerRun ac p Always es s) {w : ℤ} (hw : w ≤ s.now) {u : UserId}
    (hopen : (s.users u).client ≠ none) : HadSession ac p es w u :=
  ⟨es, s, List.prefix_refl es, run, hw, hopen⟩

/-- A session of a run that goes on by one step is one of before, or it is open. -/
lemma HadSession.of_snoc {s' : State} {e : Event} {w : ℤ} {u : UserId}
    (run' : ServerRun ac p Always (es ++ [e]) s') (h : HadSession ac p (es ++ [e]) w u) :
    HadSession ac p es w u ∨ w ≤ s'.now ∧ (s'.users u).client ≠ none := by
  obtain ⟨es₁, t, hpre, run, hlate, hopen⟩ := h
  rcases List.prefix_concat_iff.mp hpre with rfl | hpre
  · obtain rfl := run.unique run'
    exact .inr ⟨hlate, hopen⟩
  · exact .inl ⟨es₁, t, hpre, run, hlate, hopen⟩

lemma activity_step {s' : State} {e : Event} (h : step ac s e = some s') : Activity s s' := by
  obtain ⟨-, -, rfl⟩ := (step_eq_some ac).mp h
  exact activity_exec ac s e

/-- What loading the credentials makes of the database, besides what `Loaded` says. -/
structure Enrolled (p : Setup) (s : State) : Prop where
  now : s.now = p.now
  lastActive : ∀ u, (s.users u).lastActive = -1
  lt : ∀ u ∈ s.first, u < s.nusers
  nodup : s.first.Nodup

lemma Enrolled.addUser (h : Enrolled p s) (username password : Bytes) :
    Enrolled p (addUser s username password).1 := by
  refine ⟨h.now, fun u => ?_, fun u hu => ?_, ?_⟩
  · by_cases hu : u = s.nusers
    · subst hu
      simp [EpollChat.addUser]
    · simpa [EpollChat.addUser, hu] using h.lastActive u
  · show u < s.nusers + 1
    rcases List.mem_cons.mp hu with rfl | hu
    · exact Nat.lt_succ_self _
    · exact Nat.lt_succ_of_lt (h.lt u hu)
  · show (s.nusers :: s.first).Nodup
    exact List.nodup_cons.mpr ⟨fun hmem => (h.lt _ hmem).ne rfl, h.nodup⟩

lemma enrolled_init (p : Setup) : Enrolled p p.init := by
  unfold Setup.init
  have hblank : Enrolled p (State.blank p.blockDuration p.loginTimeout p.now) :=
    ⟨rfl, fun _ => rfl, by simp [State.blank], List.nodup_nil⟩
  generalize State.blank p.blockDuration p.loginTimeout p.now = s at hblank ⊢
  induction p.credentials generalizing s with
  | nil => exact hblank
  | cons nw l ih => exact ih _ (hblank.addUser nw.1 nw.2)

/-- The database stays as it was loaded. -/
lemma first_of_run (run : ServerRun ac p Always es s) : s.first = p.init.first := by
  refine run.invariant_of (P := fun s => s.first = p.init.first) rfl
    (fun run => tableOk_run ac run) fun {s e s'} hs h _ hstep => ?_
  refine (sessions_step_any ac hs hstep).invariant (P := fun t => t.first = p.init.first)
    (fun t t' ht move => ?_) h
  cases move with
  | accept fd addr free idle =>
      obtain ⟨_, _, heq⟩ := acceptClient_eq t fd addr
      show (acceptClient t fd addr).first = _
      rw [heq]
      exact ht
  | active c serves =>
      rcases updateLastActive_eq t c with heq | ⟨_, -, -, heq⟩ <;> rw [heq] <;> exact ht
  | _ => exact ht

/-- The database has each user once. -/
lemma nodup_first (run : ServerRun ac p Always es s) : s.first.Nodup := by
  rw [first_of_run run]
  exact (enrolled_init p).nodup

/-- Time does not go back. -/
lemma now_le_of_run (run : ServerRun ac p Always es s) : p.now ≤ s.now := by
  refine run.invariant (P := fun s => p.now ≤ s.now) (enrolled_init p).now.ge ?_
  intro s e s' h _ hstep
  exact h.trans (activity_step hstep).now

/-- **Times of activity.** A user either has no activity and never had a session, or it had a
session at the time of its last activity, which is not after now. -/
theorem activity_run (run : ServerRun ac p Always es s) (u : UserId) :
    (s.users u).lastActive = -1 ∧ (∀ w, ¬ HadSession ac p es w u) ∨
      p.now ≤ (s.users u).lastActive ∧ (s.users u).lastActive ≤ s.now ∧
        HadSession ac p es (s.users u).lastActive u := by
  induction run with
  | nil =>
      refine .inl ⟨(enrolled_init p).lastActive u, ?_⟩
      rintro w ⟨es₁, t, hpre, run, -, hopen⟩
      obtain rfl := List.prefix_nil.mp hpre
      have hnil : ServerRun ac p Always [] p.init := .nil
      obtain rfl := run.unique hnil
      exact hopen ((loaded_init p).users u).1
  | @snoc es s s' e run _ completes ih =>
      have run' : ServerRun ac p Always (es ++ [e]) s' := run.snoc trivial completes
      have hstep := activity_step completes
      have hpre := List.prefix_append es [e]
      rcases hstep.user u with ⟨hsame, hclient⟩ | ⟨hnow, hopen⟩
      · rw [hsame]
        rcases ih with ⟨hnone, hnever⟩ | ⟨hfirst, hlast, hsession⟩
        · refine .inl ⟨hnone, fun w hw => ?_⟩
          rcases hw.of_snoc run' with hold | ⟨-, hopen⟩
          · exact hnever w hold
          · exact hnever s.now (.of_open run le_rfl (hclient hopen))
        · exact .inr ⟨hfirst, hlast.trans hstep.now, hsession.mono hpre le_rfl⟩
      · rw [hnow]
        exact .inr ⟨now_le_of_run run', le_rfl, .of_open run' le_rfl hopen⟩

end Runs

end EpollChat

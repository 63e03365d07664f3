import EpollChat.Properties.Messages
import EpollChat.Properties.SessionPairing
import Mathlib.Data.List.Chain

/-!
# Presence announcements

`login` announces a user where it accepts a login, and `logoutUser` where it takes a user off a
connection.  Both are entries of the history whoever is told, so the announcements about a user
are read off it.

They alternate as long as no login is accepted for a user who still has a session.  But `login`
only asks whether the user is logged in, and the session of a user who has been idle for too long
is no obstacle although the sweep has not ended it.  `presence_iff` is the exact condition: the
announcements alternate and agree with the open sessions throughout a run exactly when every
login it accepts is for a user without a session, on an open connection that has no user.
-/

namespace EpollChat

variable (ac : Achelper)

/-! ## Announcements -/

/-- The announcements about a user: `true` for "has logged in", `false` for "has logged out". -/
def announced (u : UserId) (log : List Obs) : List Bool :=
  log.filterMap fun
    | .login _ v _ => if v = u then some true else none
    | .logout v _ => if v = u then some false else none
    | _ => none

/-- They alternate, and the first is a login. -/
def Alternates (l : List Bool) : Prop := (false :: l).IsChain (· ≠ ·)

/-- The user has a session, on an open connection that agrees. -/
def SessionOpen (s : State) (u : UserId) : Prop :=
  ∃ c, (s.users u).client = some c ∧ (s.conn c).user = some u ∧ s.IsOpen c

/-- **Presence.** The announcements about every user alternate, and a user has an open session
exactly when the last one was a login. -/
structure Presence (s : State) : Prop where
  alternates : ∀ u, Alternates (announced u s.log)
  session : ∀ u, SessionOpen s u ↔ (announced u s.log).getLast? = some true

/-- The login is for a user without a session, on an open connection without a user. -/
def FreshLogin (s : State) (c : ConnId) (u : UserId) : Prop :=
  s.IsOpen c ∧ (s.users u).client = none ∧ (s.conn c).user = none

instance (s : State) (c : ConnId) (u : UserId) : Decidable (FreshLogin s c u) := by
  unfold FreshLogin
  infer_instance

lemma FreshLogin.bindsFree {s : State} {c : ConnId} {u : UserId} (h : FreshLogin s c u) :
    BindsFree s c u :=
  ⟨h.1, .inl h.2.1, .inl h.2.2⟩

/-! ## Alternation -/

lemma alternates_snoc {l : List Bool} {b : Bool} :
    Alternates (l ++ [b]) ↔ Alternates l ∧ (l.getLast?.getD false) ≠ b := by
  unfold Alternates
  rw [← List.cons_append, List.isChain_append]
  simp [List.getLast?_cons]

lemma announced_append (u : UserId) (log : List Obs) (o : Obs) :
    announced u (log ++ [o]) =
      match o with
      | .login _ v _ => if v = u then announced u log ++ [true] else announced u log
      | .logout v _ => if v = u then announced u log ++ [false] else announced u log
      | _ => announced u log := by
  unfold announced
  cases o with
  | login c v password => by_cases h : v = u <;> simp [h]
  | logout v c => by_cases h : v = u <;> simp [h]
  | _ => simp

lemma announced_sessions (u : UserId) (s : State) :
    announced u s.sessions.log = announced u s.log := by
  have hlog : s.sessions.log = s.log.filter Obs.isSession := rfl
  unfold announced
  rw [hlog, List.filterMap_filter]
  refine List.filterMap_congr fun o _ => ?_
  cases o <;> rfl

/-- The last announcement was a login exactly when the history has the user on a connection. -/
lemma getLast_announced (u : UserId) (log : List Obs) :
    (announced u log).getLast?.getD false = (sessionOf u log).isSome := by
  induction log using List.reverseRecOn with
  | nil => rfl
  | append_singleton log o ih =>
      rw [announced_append, sessionOf_append]
      cases o with
      | login c v password => by_cases h : v = u <;> simp [h, ih]
      | logout v c => by_cases h : v = u <;> simp [h, ih]
      | _ => exact ih

lemma getLast_eq_true_iff {s : State} (hlogged : SessionsLogged s) (u : UserId) :
    (announced u s.log).getLast? = some true ↔ (s.users u).client ≠ none := by
  have h := getLast_announced u s.log
  rw [hlogged u] at h
  cases hlast : (announced u s.log).getLast? with
  | none =>
      rw [hlast] at h
      cases hc : (s.users u).client with
      | none => simp
      | some c => simp [hc] at h
  | some b =>
      rw [hlast] at h
      cases hc : (s.users u).client <;> simp [hc] at h <;> simp [h]

/-! ## One move -/

/-- A user without a connection is announced next as logged in, and a user on one as logged
out. -/
lemma alternates_move {s s' : State}
    (hlogged : SessionsLogged s) (h : ∀ u, Alternates (announced u s.log))
    (move : SessionMove FreshLogin s s') (u : UserId) : Alternates (announced u s'.log) := by
  have hlast := getLast_announced u s.log
  rw [hlogged u] at hlast
  cases move with
  | accept fd addr free idle =>
      rw [announced_sessions, log_acceptClient]
      exact h u
  | begin fd isOpen idle => exact h u
  | finish => exact h u
  | active c serves =>
      rcases updateLastActive_eq s c with heq | ⟨w, -, -, heq⟩ <;> rw [heq] <;> exact h u
  | bind c w username password serves found knows idle ok =>
      have hlog : (bind s c w password).log = s.log ++ [.login c w password] := rfl
      rw [hlog, announced_append]
      dsimp only
      by_cases hw : w = u
      · subst hw
        rw [if_pos rfl, alternates_snoc]
        refine ⟨h w, ?_⟩
        rw [hlast, ok.2.1]
        simp
      · rw [if_neg hw]
        exact h u
  | unlink w c bound =>
      have hlog : (unlink s w c).log = s.log ++ [.logout w c] := rfl
      rw [hlog, announced_append]
      dsimp only
      by_cases hw : w = u
      · subst hw
        rw [if_pos rfl, alternates_snoc]
        refine ⟨h w, ?_⟩
        rw [hlast, bound]
        simp
      · rw [if_neg hw]
        exact h u
  | shut c own unbound => exact h u
  | tick seconds => exact h u

/-- With paired sessions it is enough that the announcements alternate. -/
lemma Presence.of_paired {s : State} (hp : SessionsPaired s) (hlogged : SessionsLogged s)
    (alternates : ∀ u, Alternates (announced u s.log)) : Presence s := by
  refine ⟨alternates, fun u => ?_⟩
  rw [getLast_eq_true_iff hlogged]
  constructor
  · rintro ⟨c, hc, -, -⟩
    rw [hc]
    simp
  · intro hne
    obtain ⟨c, hc⟩ := Option.ne_none_iff_exists'.mp hne
    exact ⟨c, hc, (hp.paired u c).mp hc, hp.isOpen u c hc⟩

/-! ## Accepted logins -/

/-- The history after an accepted login. -/
lemma announced_serve_accepted {s : State} {c : ConnId} {r : LoginRequest} {u : UserId}
    (h : acceptedUser s r.username r.password = some u) (v : UserId) :
    announced v (serve ac s c (.login r)).log =
      if u = v then announced v s.log ++ [true] else announced v s.log := by
  have hlog := congrArg State.log (sessions_serve_accepted ac (c := c) h)
  have hbind : (updateLastActive (bind s.sessions c u (cstr r.password)) c).log =
      s.sessions.log ++ [.login c u (cstr r.password)] := by
    rcases updateLastActive_eq (bind s.sessions c u (cstr r.password)) c with heq | ⟨w, -, -, heq⟩ <;>
      rw [heq] <;> rfl
  rw [← announced_sessions, hlog, hbind, announced_append, announced_sessions]

/-- If presence is right after an accepted login, then the login was a fresh one. -/
lemma freshLogin_of_presence {s : State} (hp : SessionsPaired s) (h : Presence s) {c : ConnId}
    {r : LoginRequest} {u : UserId} (haccepted : acceptedUser s r.username r.password = some u)
    (h' : Presence (serve ac s c (.login r))) : FreshLogin s c u := by
  have hlog := announced_serve_accepted ac (c := c) haccepted
  have hnone : (s.users u).client = none := by
    -- otherwise the last announcement was a login too
    have halternates := h'.alternates u
    rw [hlog u, if_pos rfl, alternates_snoc] at halternates
    by_contra hne
    obtain ⟨d, hd⟩ := Option.ne_none_iff_exists'.mp hne
    have hlast := (h.session u).mp ⟨d, hd, (hp.paired u d).mp hd, hp.isOpen u d hd⟩
    rw [hlast] at halternates
    exact halternates.2 rfl
  refine ⟨?_, hnone, ?_⟩
  · have hlast : (announced u (serve ac s c (.login r)).log).getLast? = some true := by
      rw [hlog u, if_pos rfl]
      simp
    obtain ⟨d, hd, -, hopen⟩ := (h'.session u).mpr hlast
    rw [client_serve_accepted ac haccepted, if_pos rfl] at hd
    obtain rfl := Option.some.inj hd
    exact (isOpen_serve_accepted ac haccepted c).mp hopen
  · by_contra hne
    obtain ⟨v, hv⟩ := Option.ne_none_iff_exists'.mp hne
    have hclient : (s.users v).client = some c := (hp.paired v c).mpr hv
    have hvu : v ≠ u := fun heq => by
      rw [heq, hnone] at hclient
      cases hclient
    -- the old user of the connection keeps its announcement, but not the connection
    have hlast : (announced v (serve ac s c (.login r)).log).getLast? = some true := by
      rw [hlog v, if_neg (Ne.symm hvu)]
      exact (h.session v).mp ⟨c, hclient, hv, hp.isOpen v c hclient⟩
    obtain ⟨d, hd, huser, -⟩ := (h'.session v).mpr hlast
    rw [client_serve_accepted ac haccepted, if_neg hvu, hclient] at hd
    obtain rfl := Option.some.inj hd
    rw [user_serve_accepted ac haccepted, if_pos rfl] at huser
    exact hvu (Option.some.inj huser).symm

/-! ## All runs -/

lemma Loaded.presence {s : State} (hs : Loaded s) : Presence s where
  alternates u := by
    rw [hs.log]
    exact List.isChain_singleton false
  session u := by simp [SessionOpen, (hs.users u).1, hs.log, announced]

/-- **Presence announcements.** They alternate and agree with the open sessions throughout a run
exactly when every login the run accepts is for a user without a session, on an open connection
without a user. -/
theorem presence_iff {p : Setup} {es : List Event} {s : State}
    (run : ServerRun ac p Always es s) :
    Throughout (step ac) p.init Presence es s ↔ ServerRun ac p (LoginsMeet FreshLogin) es s := by
  have hfresh : ∀ s e, LoginsMeet FreshLogin s e → LoginsMeet BindsFree s e := by
    intro s e hok
    unfold LoginsMeet at hok ⊢
    split
    · next r => exact fun c hc u hu => (hok c hc u hu).bindsFree
    · trivial
  refine run.throughout_iff (loaded_init p).presence
    (Q := fun s => TableOk s ∧ SessionsPaired s ∧ SessionsLogged s)
    (fun run => ⟨tableOk_run ac run, run.invariant_of (loaded_init p).sessionsPaired
      (fun run => tableOk_run ac run) fun hs hp hok hstep => hp.step ac hs (hfresh _ _ hok) hstep,
      sessionsLogged_run ac run⟩) ?_
  rintro s e s' ⟨hs, hp, hlogged⟩ h hstep
  constructor
  · intro h'
    obtain ⟨-, -, rfl⟩ := (step_eq_some ac).mp hstep
    unfold LoginsMeet
    split
    · next r =>
        intro c hc u hu
        have hserving : s.serving = some c := hc
        simp only [exec, hserving] at h'
        exact freshLogin_of_presence ac hp h hu h'
    · trivial
  · intro hok
    have hmoves := sessions_step ac FreshLogin hs hok (fun _ _ _ h => h) hstep
    have hkept := hmoves.invariant
      (P := fun t => TableOk t ∧ SessionsPaired t ∧ SessionsLogged t ∧
        ∀ u, Alternates (announced u t.log))
      (fun t t' ht move => ⟨tableOk_move ht.1 move,
        sessionsPaired_move ht.1 ht.2.1 (move.mono fun _ _ _ => FreshLogin.bindsFree),
        sessionsLogged_move ht.2.2.1 (move.mono fun _ _ _ _ => trivial),
        alternates_move ht.2.2.1 ht.2.2.2 move⟩)
      ⟨tableOk_sessions.mpr hs, sessionsPaired_sessions.mpr hp, sessionsLogged_sessions.mpr hlogged,
        fun u => by rw [announced_sessions]; exact h.alternates u⟩
    obtain ⟨-, hp', hlogged', halternates⟩ := hkept
    refine .of_paired (sessionsPaired_sessions.mp hp') (sessionsLogged_sessions.mp hlogged')
      fun u => ?_
    rw [← announced_sessions]
    exact halternates u

/-- Hans logs in, logs out, and logs in again on another connection. -/
theorem presence_demo :
    ∃ s, ServerRun protobufWire demo (LoginsMeet FreshLogin)
        (acceptAndServe 5 [loginAs "hans" "falcon", .logout] ++
          acceptAndServe 6 [loginAs "hans" "falcon"]) s ∧
      Throughout (step protobufWire) demo.init Presence
        (acceptAndServe 5 [loginAs "hans" "falcon", .logout] ++
          acceptAndServe 6 [loginAs "hans" "falcon"]) s := by
  obtain ⟨s, run, -⟩ := Run.exists_of_execute (step protobufWire) (LoginsMeet FreshLogin) demo.init
    (acceptAndServe 5 [loginAs "hans" "falcon", .logout] ++
      acceptAndServe 6 [loginAs "hans" "falcon"]) (fun _ => True) (by decide +kernel)
  exact ⟨s, run, (presence_iff protobufWire run.always).mpr run⟩

/-- A session that is idle for too long is replaced before the sweep has ended it. -/
theorem not_alternates_expired_session :
    ¬ ∀ (ac : Achelper) (p : Setup) (es : List Event) (s : State),
      ServerRun ac p Always es s → ∀ u, Alternates (announced u s.log) := by
  intro h
  obtain ⟨s, run, hannounced⟩ := Run.exists_of_execute (step protobufWire) Always demo.init
    (acceptAndServe 5 [loginAs "hans" "falcon"] ++ [.tick 300] ++
      acceptAndServe 6 [loginAs "hans" "falcon"])
    (fun s => announced 0 s.log = [true, true]) (by decide +kernel)
  have halternates := h protobufWire demo _ s run 0
  rw [hannounced] at halternates
  exact absurd halternates (by unfold Alternates; decide)

end EpollChat

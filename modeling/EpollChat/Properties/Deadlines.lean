import EpollChat.Construction.Demo
import EpollChat.Construction.Times
import EpollChat.Properties.Activity

/-!
# Session and lockout deadlines

A deadline is the sum of a time and a duration from the command line, made in an `int`.  Where it
fits, the 32-bit functions decide as the integers do, and `login32` is `login`.  Where it does not,
the sum has no value: with a timeout near 2^31 every session test overflows, and with such a block
duration the third wrong password does.

`DeadlinesFit` collects the sums that the paths make in a state, and the deadlines are exact
precisely if these fit (`deadlinesExact_iff`).
-/

namespace EpollChat

open SignedInt

variable (ac : Achelper)

/-- The times are in range and the durations are positive `int`s. -/
structure IntTimes (s : State) : Prop where
  now : 0 ≤ s.now ∧ s.now ≤ intMax
  timeout : 0 < s.loginTimeout ∧ s.loginTimeout ≤ intMax
  block : 0 < s.blockDuration ∧ s.blockDuration ≤ intMax
  active : ∀ u, -1 ≤ (s.users u).lastActive ∧ (s.users u).lastActive ≤ intMax

/-- The request is the third one with a wrong password for this user. -/
def ThirdMismatch (s : State) (username password : Bytes) (u : UserId) : Prop :=
  findUser s username = some u ∧ ¬ s.now < (s.users u).lastBlocked ∧
    (s.users u).password ≠ cstr password ∧ (s.users u).attempts = 2

/-- The user is still within its timeout, in the integers. -/
def WithinTimeout (s : State) (u : UserId) : Prop :=
  s.now < (s.users u).lastActive + s.loginTimeout

instance (s : State) (u : UserId) : Decidable (WithinTimeout s u) := by
  unfold WithinTimeout
  infer_instance

/-- **The deadlines are exact**: every test has a value, which is that of the integers. -/
structure DeadlinesExact (s : State) : Prop where
  session : ∀ u, (s.users u).client ≠ none →
    isUserLoggedIn32 s (some u) = some (decide (WithinTimeout s u))
  inline : ∀ c u, (s.conn c).user = some u →
    inlineTest32 s c = some (if WithinTimeout s u then some u else none)
  /-- Who has just logged in is logged in. -/
  fresh : ∀ username password u, acceptedUser s username password = some u →
    ∃ t, login32 ac s username password = some (t, 0, some u) ∧
      ∀ c, isUserLoggedIn32 (t.setUser u fun v => { v with client := some c }) (some u) = some true
  /-- After the third wrong password, logins return 2 until the block has passed. -/
  lockout : ∀ username password u, ThirdMismatch s username password u →
    ∃ t, login32 ac s username password = some (t, 2, some u) ∧
      ∀ later password', 0 ≤ later → later ≤ intMax →
        ∃ r, login32 ac { t with now := later } username password' = some r ∧
          (r.2.1 = 2 ↔ later < s.now + s.blockDuration)

/-- The sums that the paths make are `int`s. -/
structure DeadlinesFit (s : State) : Prop where
  session : ∀ u, (s.users u).client ≠ none → (s.users u).lastActive + s.loginTimeout ≤ intMax
  inline : ∀ c u, (s.conn c).user = some u → (s.users u).lastActive + s.loginTimeout ≤ intMax
  fresh : ∀ username password u, acceptedUser s username password = some u →
    s.now + s.loginTimeout ≤ intMax
  lockout : ∀ username password u, ThirdMismatch s username password u →
    s.now + s.blockDuration ≤ intMax

/-! ## One deadline -/

section Deadline

variable {ac} {s : State} {u : UserId}

/-- The user has no session, or its deadline is an `int`. -/
def FitsIfBound (s : State) (u : UserId) : Prop :=
  (s.users u).client ≠ none → Fits 32 ((s.users u).lastActive + s.loginTimeout)

lemma FitsIfBound.congr {s' : State} (h : s.core = s'.core) (hfit : FitsIfBound s' u) :
    FitsIfBound s u := by
  have htimeout := congrArg State.loginTimeout h
  change s.loginTimeout = s'.loginTimeout at htimeout
  unfold FitsIfBound
  rwa [client_eq_of_core h, lastActive_eq_of_core h, htimeout]

lemma beforeDeadline_of_fits (h : Fits 32 ((s.users u).lastActive + s.loginTimeout)) :
    beforeDeadline s u = some (decide (WithinTimeout s u)) := by
  unfold beforeDeadline
  rw [checked_of_fits h]
  rfl

lemma fits_of_beforeDeadline {b : Bool} (h : beforeDeadline s u = some b) :
    Fits 32 ((s.users u).lastActive + s.loginTimeout) := by
  obtain ⟨deadline, hchecked, -⟩ := Option.bind_eq_some_iff.mp h
  exact (checked_eq_some_iff.mp hchecked).1

lemma isUserLoggedIn32_of_client (h : (s.users u).client ≠ none) :
    isUserLoggedIn32 s (some u) = beforeDeadline s u := by
  obtain ⟨c, hc⟩ := Option.ne_none_iff_exists'.mp h
  simp only [isUserLoggedIn32, hc]

/-- **The session test** is that of the integers. -/
lemma isUserLoggedIn32_eq (h : FitsIfBound s u) :
    isUserLoggedIn32 s (some u) = some (isUserLoggedIn s (some u)) := by
  cases hc : (s.users u).client with
  | none => simp only [isUserLoggedIn32, isUserLoggedIn, hc]
  | some c =>
      have hbound : (s.users u).client ≠ none := by simp [hc]
      rw [isUserLoggedIn32_of_client hbound, beforeDeadline_of_fits (h hbound)]
      simp only [isUserLoggedIn, hc]
      rfl

/-! ## Login -/

lemma sendResponseToUser32_eq (h : FitsIfBound s u) (why : Why) (msg : IMResponse) :
    sendResponseToUser32 ac s u why msg = some (sendResponseToUser ac s u why msg) := by
  unfold sendResponseToUser32 sendResponseToUser
  rw [isUserLoggedIn32_eq h]
  cases (s.users u).client with
  | none => rfl
  | some c => cases isUserLoggedIn s (some u) <;> rfl

lemma announceOne32_eq {subject v : UserId} (h : v ≠ subject → FitsIfBound s v)
    (why : UserId → Why) (rsp : IMResponse) :
    announceOne32 ac subject why rsp s v =
      some (if v ≠ subject ∧ isUserLoggedIn s (some v) ∧ ¬ hasBlockedUser s subject v then
        sendResponseToUser ac s v (why v) rsp else s) := by
  unfold announceOne32
  by_cases hv : v = subject
  · simp [hv]
  · rw [if_neg hv, isUserLoggedIn32_eq (h hv), sendResponseToUser32_eq (h hv)]
    cases isUserLoggedIn s (some v) <;> cases hasBlockedUser s subject v <;> simp [hv]

/-- The announcements are those of the integers. -/
lemma announce32_eq {subject : UserId} (h : ∀ v, v ≠ subject → FitsIfBound s v)
    (why : UserId → Why) (rsp : IMResponse) :
    announce32 ac subject why rsp s = some (announce ac subject why rsp s) := by
  unfold announce32 announce
  generalize s.first = l
  induction l generalizing s with
  | nil => rfl
  | cons v l ih =>
      rw [List.foldlM_cons, announceOne32_eq (h v), List.foldl_cons]
      refine ih fun w hw => (h w hw).congr ?_
      split
      · rw [sendResponseToUser_eq, core_deliver]
      · rfl

/-- **A login** that is not a third wrong password is that of the integers. -/
lemma login32_eq (h : ∀ v, FitsIfBound s v) {username password : Bytes}
    (hthird : ∀ u, ¬ ThirdMismatch s username password u) :
    login32 ac s username password = some (login ac s username password) := by
  unfold login32 login
  cases hfind : findUser s username with
  | none => rfl
  | some u =>
      dsimp only
      by_cases hblocked : s.now < (s.users u).lastBlocked
      · rw [if_pos hblocked, if_pos hblocked]
      rw [if_neg hblocked, if_neg hblocked]
      by_cases hpassword : (s.users u).password ≠ cstr password
      · rw [if_pos hpassword, if_pos hpassword]
        have hattempts : ¬ ((s.setUser u fun v => { v with attempts := v.attempts + 1 }).users
            u).attempts = 3 := by
          intro h3
          have hattempts : (s.users u).attempts + 1 = 3 := by simpa [State.setUser] using h3
          exact hthird u ⟨hfind, hblocked, hpassword, by omega⟩
        rw [if_neg hattempts, if_neg hattempts]
      · rw [if_neg hpassword, if_neg hpassword, isUserLoggedIn32_eq (h u)]
        cases isUserLoggedIn s (some u) with
        | true => rfl
        | false =>
            have hother : ∀ v, v ≠ u → FitsIfBound (s.setUser u fun v =>
                { v with attempts := 0, lastActive := s.now, lastLoggedIn := s.now }) v := by
              intro v hv
              have hfit := h v
              unfold FitsIfBound at hfit ⊢
              simpa [State.setUser, hv] using hfit
            simp only [Option.bind_eq_bind, Option.bind_some, Bool.false_eq_true, if_false,
              announce32_eq hother]
            rfl

/-- The state after the third wrong password. -/
def lockedOut (s : State) (u : UserId) (lastBlocked : ℤ) : State :=
  (s.setUser u fun v => { v with attempts := v.attempts + 1 }).setUser u fun v =>
    { v with lastBlocked, attempts := 0 }

lemma login32_of_third {username password : Bytes} (h : ThirdMismatch s username password u) :
    login32 ac s username password =
      (checked 32 (s.now + s.blockDuration)).map fun t => (lockedOut s u t, 2, some u) := by
  obtain ⟨hfind, hblocked, hpassword, hattempts⟩ := h
  have hthree : ((s.setUser u fun v => { v with attempts := v.attempts + 1 }).users
      u).attempts = 3 := by
    simp [State.setUser, hattempts]
  simp only [login32, hfind, if_neg hblocked, if_pos hpassword, hthree, if_true]
  show (checked 32 (s.now + s.blockDuration)).bind _ = _
  cases checked 32 (s.now + s.blockDuration) <;> rfl

end Deadline

/-! ## All deadlines -/

section All

variable {ac} {s : State}

/-- A sum of a time and a duration is an `int` if it is not too large. -/
lemma fits_iff {x : ℤ} (h : -1 ≤ x) : Fits 32 x ↔ x ≤ intMax := by
  unfold Fits intMax
  omega

lemma IntTimes.deadline (hs : IntTimes s) (u : UserId) :
    -1 ≤ (s.users u).lastActive + s.loginTimeout := by
  have hactive := hs.active u
  have htimeout := hs.timeout
  omega

lemma DeadlinesFit.fitsIfBound (h : DeadlinesFit s) (hs : IntTimes s) (u : UserId) :
    FitsIfBound s u := fun hbound => (fits_iff (hs.deadline u)).mpr (h.session u hbound)

lemma login_of_acceptedUser {username password : Bytes} {u : UserId}
    (h : acceptedUser s username password = some u) (v : UserId) :
    ¬ ThirdMismatch s username password v := by
  rintro ⟨hfind, -, hpassword, -⟩
  obtain ⟨hfind', -, hpassword', -⟩ := acceptedUser_eq_some.mp h
  obtain rfl := Option.some.inj (hfind.symm.trans hfind')
  exact hpassword hpassword'

/-- The deadline of a user that has just logged in. -/
lemma isUserLoggedIn32_fresh {username password : Bytes} {u : UserId}
    (haccepted : acceptedUser s username password = some u) (c : ConnId) :
    isUserLoggedIn32 ((login ac s username password).1.setUser u fun v =>
        { v with client := some c }) (some u) =
      (checked 32 (s.now + s.loginTimeout)).map fun deadline => decide (deadline > s.now) := by
  rw [login_of_accepted ac haccepted]
  generalize hds : loginAnnouncements ac (refresh s u) u username = ds
  have hcore := core_deliverAll ac (refresh s u) ds
  generalize deliverAll ac (refresh s u) ds = t at hcore
  have htimeout := congrArg State.loginTimeout hcore
  have hnow := congrArg State.now hcore
  have hactive := lastActive_eq_of_core hcore u
  change t.loginTimeout = s.loginTimeout at htimeout
  change t.now = s.now at hnow
  have hrefresh : ((refresh s u).users u).lastActive = s.now := by simp [refresh, State.setUser]
  rw [hrefresh] at hactive
  rw [isUserLoggedIn32_of_client (by simp [State.setUser])]
  unfold beforeDeadline
  have hsum : ((t.setUser u fun v => { v with client := some c }).users u).lastActive +
      (t.setUser u fun v => { v with client := some c }).loginTimeout =
        s.now + s.loginTimeout := by
    simp [State.setUser, hactive, htimeout]
  have hnow' : (t.setUser u fun v => { v with client := some c }).now = s.now := hnow
  rw [hsum, hnow']
  cases checked 32 (s.now + s.loginTimeout) <;> rfl

/-- Being locked out has nothing to do with sessions. -/
lemma FitsIfBound.lockedOut {u v : UserId} {t later : ℤ} (h : FitsIfBound s v) :
    FitsIfBound { lockedOut s u t with now := later } v := by
  unfold FitsIfBound at h ⊢
  by_cases hv : v = u <;> simpa [EpollChat.lockedOut, State.setUser, hv] using h

/-- A login of a user that has just been locked out. -/
lemma login_lockedOut {username : Bytes} {u : UserId} (hfind : findUser s username = some u)
    (t later : ℤ) (password : Bytes) :
    (login ac { lockedOut s u t with now := later } username password).2.1 = 2 ↔ later < t := by
  have hfind' : findUser { lockedOut s u t with now := later } username = some u := hfind
  have huser : ({ lockedOut s u t with now := later }.users u).lastBlocked = t ∧
      ({ lockedOut s u t with now := later }.users u).attempts = 0 := by
    simp [lockedOut, State.setUser]
  have hnow : { lockedOut s u t with now := later }.now = later := rfl
  generalize { lockedOut s u t with now := later } = t' at hfind' huser hnow ⊢
  unfold login
  simp only [hfind', huser.1, hnow]
  split
  · next hblocked => simp [hblocked]
  next hblocked =>
  have hnot : ¬ later < t := hblocked
  rw [iff_false_right hnot]
  split
  · simp [State.setUser, huser.2]
  split <;> simp

/-- **Session and lockout deadlines.** With times and durations in range, the deadlines are exact
if and only if the sums that the paths make are `int`s. -/
theorem deadlinesExact_iff (hs : IntTimes s) : DeadlinesExact ac s ↔ DeadlinesFit s := by
  have hnow := hs.now
  have htimeout := hs.timeout
  have hblock := hs.block
  constructor
  · intro h
    have hsession : ∀ u, (s.users u).client ≠ none →
        (s.users u).lastActive + s.loginTimeout ≤ intMax := fun u hbound => by
      have hvalue := h.session u hbound
      rw [isUserLoggedIn32_of_client hbound] at hvalue
      exact (fits_iff (hs.deadline u)).mp (fits_of_beforeDeadline hvalue)
    refine ⟨hsession, fun c u hu => ?_, fun username password u haccepted => ?_,
      fun username password u hthird => ?_⟩
    · have hvalue := h.inline c u hu
      simp only [inlineTest32, hu] at hvalue
      obtain ⟨b, hb, -⟩ := Option.bind_eq_some_iff.mp hvalue
      exact (fits_iff (hs.deadline u)).mp (fits_of_beforeDeadline hb)
    · obtain ⟨t, hlogin, hfresh⟩ := h.fresh username password u haccepted
      have hfits : ∀ v, FitsIfBound s v := fun v hbound =>
        (fits_iff (hs.deadline v)).mpr (hsession v hbound)
      rw [login32_eq hfits (login_of_acceptedUser haccepted)] at hlogin
      have ht : (login ac s username password).1 = t := congrArg Prod.fst (Option.some.inj hlogin)
      have hvalue := hfresh 0
      rw [← ht, isUserLoggedIn32_fresh haccepted] at hvalue
      obtain ⟨deadline, hchecked, -⟩ := Option.map_eq_some_iff.mp hvalue
      exact (fits_iff (by omega)).mp (checked_eq_some_iff.mp hchecked).1
    · obtain ⟨t, hlogin, -⟩ := h.lockout username password u hthird
      rw [login32_of_third hthird] at hlogin
      obtain ⟨deadline, hchecked, -⟩ := Option.map_eq_some_iff.mp hlogin
      exact (fits_iff (by omega)).mp (checked_eq_some_iff.mp hchecked).1
  · intro h
    have hfits := h.fitsIfBound hs
    refine ⟨fun u hbound => ?_, fun c u hu => ?_, fun username password u haccepted => ?_,
      fun username password u hthird => ?_⟩
    · rw [isUserLoggedIn32_of_client hbound, beforeDeadline_of_fits (hfits u hbound)]
    · have hfit := (fits_iff (hs.deadline u)).mpr (h.inline c u hu)
      simp only [inlineTest32, hu, beforeDeadline_of_fits hfit]
      by_cases hwithin : WithinTimeout s u <;> simp [hwithin]
    · refine ⟨(login ac s username password).1, ?_, fun c => ?_⟩
      · rw [login32_eq hfits (login_of_acceptedUser haccepted), login_of_accepted ac haccepted]
      · have hfit := (fits_iff (by omega)).mpr (h.fresh username password u haccepted)
        rw [isUserLoggedIn32_fresh haccepted, checked_of_fits hfit, Option.map_some]
        simp only [gt_iff_lt, Option.some.injEq, decide_eq_true_eq]
        omega
    · have hfit := (fits_iff (by omega)).mpr (h.lockout username password u hthird)
      refine ⟨lockedOut s u (s.now + s.blockDuration), ?_, fun later password' _ _ => ?_⟩
      · rw [login32_of_third hthird, checked_of_fits hfit, Option.map_some]
      · refine ⟨_, login32_eq (fun v => (hfits v).lockedOut) ?_,
          login_lockedOut hthird.1 _ later password'⟩
        -- the count starts again
        rintro v ⟨hfind, -, -, hattempts⟩
        obtain rfl : u = v := Option.some.inj (hthird.1.symm.trans hfind)
        simp [lockedOut, State.setUser] at hattempts

/-- In a run the deadlines fit as long as those that start now do. -/
lemma deadlinesFit_of_run {p : Setup} {es : List Event} (run : ServerRun ac p Always es s)
    (hstart : 0 ≤ p.now) (htimeout : s.now + s.loginTimeout ≤ intMax)
    (hblock : s.now + s.blockDuration ≤ intMax) : DeadlinesFit s := by
  have hactive : ∀ u, (s.users u).lastActive + s.loginTimeout ≤ intMax := fun u => by
    have hle := now_le_of_run run
    rcases activity_run run u with ⟨hnone, -⟩ | ⟨-, hlast, -⟩ <;> omega
  exact ⟨fun u _ => hactive u, fun _ u _ => hactive u, fun _ _ _ _ => htimeout,
    fun _ _ _ _ => hblock⟩

/-- The times of a run are in range if the clock and the durations are. -/
lemma intTimes_of_run {p : Setup} {es : List Event} (run : ServerRun ac p Always es s)
    (hstart : 0 ≤ p.now) (hnow : s.now ≤ intMax)
    (htimeout : 0 < s.loginTimeout ∧ s.loginTimeout ≤ intMax)
    (hblock : 0 < s.blockDuration ∧ s.blockDuration ≤ intMax) : IntTimes s := by
  have hle := now_le_of_run run
  refine ⟨⟨hstart.trans hle, hnow⟩, htimeout, hblock, fun u => ?_⟩
  rcases activity_run run u with ⟨hnone, -⟩ | ⟨hfirst, hlast, -⟩ <;> omega

end All

/-- hans is logged in. -/
theorem deadlinesExact_demo :
    ∃ s, ServerRun protobufWire demo Always (acceptAndServe 5 [loginAs "hans" "falcon"]) s ∧
      DeadlinesExact protobufWire s := by
  obtain ⟨s, run, hnow, htimeout, hblock⟩ := Run.exists_of_execute (step protobufWire) Always
    demo.init (acceptAndServe 5 [loginAs "hans" "falcon"])
    (fun s => s.now = 1000 ∧ s.loginTimeout = 300 ∧ s.blockDuration = 60) (by decide +kernel)
  have htimes : IntTimes s := intTimes_of_run run (by decide) (by rw [hnow]; decide)
    (by rw [htimeout]; decide) (by rw [hblock]; decide)
  refine ⟨s, run, (deadlinesExact_iff htimes).mpr (deadlinesFit_of_run run (by decide) ?_ ?_)⟩
  · rw [hnow, htimeout]
    decide
  · rw [hnow, hblock]
    decide

/-- With the longest timeout there is, hans logs in at 1000, and the session test overflows. -/
theorem not_deadlinesExact_forever :
    ¬ ∀ (ac : Achelper) (s : State), IntTimes s → DeadlinesExact ac s := by
  intro h
  obtain ⟨s, run, hnow, htimeout, hblock, hclient, hoverflow⟩ :=
    Run.exists_of_execute (step protobufWire) Always { demo with loginTimeout := 2147483647 }.init
      (acceptAndServe 5 [loginAs "hans" "falcon"])
      (fun s => s.now = 1000 ∧ s.loginTimeout = 2147483647 ∧ s.blockDuration = 60 ∧
        (s.users 0).client ≠ none ∧ isUserLoggedIn32 s (some 0) = none) (by decide +kernel)
  have htimes : IntTimes s := intTimes_of_run run (by decide) (by rw [hnow]; decide)
    (by rw [htimeout]; decide) (by rw [hblock]; decide)
  have hvalue := (h protobufWire s htimes).session 0 hclient
  rw [hoverflow] at hvalue
  cases hvalue

end EpollChat

import EpollChat.Construction.Demo
import EpollChat.Framework.Lockout
import EpollChat.Properties.SessionMachine

/-!
# The login lockout

`login` counts wrong passwords for each user and blocks a user at the third.  `Calls` are the
sequences of calls of `login` in time: between two calls the clock advances and sessions may
begin and end, as long as the fields that `login` counts in are left alone.  The history of such
a sequence is the list of the calls that count, with the time and how they came out.  A call
counts as a mismatch if its user is known and not blocked when it is made and its password is not
his: this is decided by what the call is given and the state before it, whatever `login` makes
of it.  A call for a blocked user, with an unknown name, or with the right password that is not
accepted, does not count.

A user's part of the history is one that a lockout gate admits, with the limit 3 and the block
duration as the penalty, and the fields of the user are the state of that gate
(`GateKept`).  The bound for windows is then the general one (`lockout_calls`).  Every run of
the server is such a sequence (`calls_of_run`).
-/

namespace EpollChat

variable (ac : Achelper)

/-! ## Calls -/

/-- How a counted call of `login` came out. -/
inductive Outcome
  /-- The password was right, and the login was accepted. -/
  | success
  /-- The password was wrong. -/
  | mismatch
  /-- The password was wrong, and the user was told that he is blocked. -/
  | block
  deriving DecidableEq

/-- A counted call of `login`. -/
structure Counted where
  user : UserId
  time : ℤ
  outcome : Outcome

/-- The counted call that a call of `login` is.  The password is compared with that of the user,
unless he is unknown or blocked.  A wrong one counts, and the result tells whether it blocks; the
right one counts if the result is 0. -/
def counted (s : State) (username password : Bytes) : List Counted :=
  match findUser s username with
  | none => []
  | some u =>
      if s.now < (s.users u).lastBlocked then []
      else
        let result := (login ac s username password).2.1
        if (s.users u).password ≠ cstr password then
          [⟨u, s.now, if result = 2 then .block else .mismatch⟩]
        else if result = 0 then [⟨u, s.now, .success⟩] else []

/-- What happens between two calls leaves alone what `login` counts in, and time does not run
backwards. -/
structure Between (s t : State) : Prop where
  root : t.root = s.root
  blockDuration : t.blockDuration = s.blockDuration
  now : s.now ≤ t.now
  password : ∀ u, (t.users u).password = (s.users u).password
  attempts : ∀ u, (t.users u).attempts = (s.users u).attempts
  lastBlocked : ∀ u, (t.users u).lastBlocked = (s.users u).lastBlocked

/-- The sequences of calls of `login`, with the counted ones. -/
inductive Calls (init : State) : List Counted → State → Prop
  | start : Calls init [] init
  | between {h : List Counted} {s t : State} (calls : Calls init h s) (rest : Between s t) :
      Calls init h t
  | call {h : List Counted} {s : State} (calls : Calls init h s) (username password : Bytes) :
      Calls init (h ++ counted ac s username password) (login ac s username password).1

/-! ## What one call does -/

namespace Between

variable {s t t' : State}

lemma refl (s : State) : Between s s where
  root := rfl
  blockDuration := rfl
  now := le_rfl
  password _ := rfl
  attempts _ := rfl
  lastBlocked _ := rfl

lemma trans (h : Between s t) (h' : Between t t') : Between s t' where
  root := h'.root.trans h.root
  blockDuration := h'.blockDuration.trans h.blockDuration
  now := h.now.trans h'.now
  password u := (h'.password u).trans (h.password u)
  attempts u := (h'.attempts u).trans (h.attempts u)
  lastBlocked u := (h'.lastBlocked u).trans (h.lastBlocked u)

/-- The output side does not matter. -/
lemma of_core (h : t.core = s.core) : Between s t where
  root := by
    have h' := congrArg State.root h
    exact h'
  blockDuration := by
    have h' := congrArg State.blockDuration h
    exact h'
  now := by
    have h' := congrArg State.now h
    exact le_of_eq (Eq.symm h')
  password u := by
    have h' := congrArg (fun t => (t.users u).password) h
    exact h'
  attempts u := by
    have h' := congrArg (fun t => (t.users u).attempts) h
    exact h'
  lastBlocked u := by
    have h' := congrArg (fun t => (t.users u).lastBlocked) h
    exact h'

lemma setUser (s : State) (u : UserId) {f : User → User}
    (hpassword : ∀ v, (f v).password = v.password) (hattempts : ∀ v, (f v).attempts = v.attempts)
    (hblocked : ∀ v, (f v).lastBlocked = v.lastBlocked) : Between s (s.setUser u f) := by
  refine ⟨rfl, rfl, le_rfl, fun v => ?_, fun v => ?_, fun v => ?_⟩ <;>
  · by_cases hv : v = u
    · subst hv
      simp [State.setUser, hpassword, hattempts, hblocked]
    · simp [State.setUser, hv]

end Between

/-- The fields that `login` counts in, as a gate. -/
def gateOf (s : State) (u : UserId) : Gate := ⟨(s.users u).attempts.toNat, (s.users u).lastBlocked⟩

/-- **What one call does.** It is not counted and leaves the counting fields alone, or it is
counted for one user, who was not blocked, and changes that user's fields only. -/
inductive CallEffect (s : State) (username password : Bytes) : Prop
  /-- A call that is not counted. -/
  | ignored (none : counted ac s username password = [])
      (same : Between s (login ac s username password).1)
  /-- An accepted login. -/
  | success (u : UserId) (isOpen : (s.users u).lastBlocked ≤ s.now)
      (one : counted ac s username password = [⟨u, s.now, .success⟩])
      (rest : Between (s.setUser u fun v => { v with attempts := 0 })
        (login ac s username password).1)
  /-- A wrong password that does not fill the count. -/
  | mismatch (u : UserId) (isOpen : (s.users u).lastBlocked ≤ s.now)
      (one : counted ac s username password = [⟨u, s.now, .mismatch⟩])
      (few : (s.users u).attempts + 1 ≠ 3)
      (rest : Between (s.setUser u fun v => { v with attempts := v.attempts + 1 })
        (login ac s username password).1)
  /-- A wrong password that fills it. -/
  | block (u : UserId) (isOpen : (s.users u).lastBlocked ≤ s.now)
      (one : counted ac s username password = [⟨u, s.now, .block⟩])
      (third : (s.users u).attempts + 1 = 3)
      (rest : Between (s.setUser u fun v =>
          { v with attempts := 0, lastBlocked := s.now + s.blockDuration })
        (login ac s username password).1)

/-- A call for a blocked user is refused and changes nothing. -/
lemma login_of_blocked {s : State} {username : Bytes} {u : UserId}
    (hfind : findUser s username = some u) (hblocked : s.now < (s.users u).lastBlocked)
    (password : Bytes) : login ac s username password = (s, 2, some u) := by
  unfold login
  simp only [hfind, if_pos hblocked]

lemma login_effect (s : State) (username password : Bytes) :
    CallEffect ac s username password := by
  cases hfind : findUser s username with
  | none =>
      have hlogin : login ac s username password = (s, 1, none) := by
        unfold login
        simp only [hfind]
      refine .ignored ?_ ?_
      · simp only [counted, hfind]
      · rw [hlogin]
        exact .refl s
  | some u =>
      by_cases hblocked : s.now < (s.users u).lastBlocked
      · have hlogin := login_of_blocked ac hfind hblocked password
        refine .ignored ?_ ?_
        · simp only [counted, hfind, if_pos hblocked]
        · rw [hlogin]
          exact .refl s
      have hopen : (s.users u).lastBlocked ≤ s.now := not_lt.mp hblocked
      by_cases hwrong : (s.users u).password ≠ cstr password
      · -- the counter is compared after it has been incremented
        have hcount : ((s.setUser u fun v => { v with attempts := v.attempts + 1 }).users
            u).attempts = (s.users u).attempts + 1 := by simp [State.setUser]
        by_cases hthird : (s.users u).attempts + 1 = 3
        · have hlogin : login ac s username password =
              ((s.setUser u fun v => { v with attempts := v.attempts + 1 }).setUser u fun v =>
                { v with lastBlocked := s.now + s.blockDuration, attempts := 0 }, 2,
                some u) := by
            unfold login
            simp only [hfind, if_neg hblocked, if_pos hwrong, hcount, if_pos hthird]
            rfl
          refine .block u hopen ?_ hthird ?_
          · simp only [counted, hfind, if_neg hblocked, if_pos hwrong, hlogin, if_pos]
          · rw [hlogin]
            refine ⟨rfl, rfl, le_rfl, fun v => ?_, fun v => ?_, fun v => ?_⟩ <;>
            · by_cases hv : v = u
              · subst hv
                simp [State.setUser]
              · simp [State.setUser, hv]
        · have hlogin : login ac s username password =
              (s.setUser u fun v => { v with attempts := v.attempts + 1 }, 3, some u) := by
            unfold login
            simp only [hfind, if_neg hblocked, if_pos hwrong, hcount, if_neg hthird]
          refine .mismatch u hopen ?_ hthird ?_
          · simp only [counted, hfind, if_neg hblocked, if_pos hwrong, hlogin]
            rfl
          · rw [hlogin]
            exact .refl _
      · by_cases hlive : isUserLoggedIn s (some u) = true
        · have hlogin : login ac s username password = (s, 4, some u) := by
            unfold login
            simp only [hfind, if_neg hblocked, if_neg hwrong, if_pos hlive]
          refine .ignored ?_ ?_
          · simp only [counted, hfind, if_neg hblocked, if_neg hwrong, hlogin]
            rfl
          · rw [hlogin]
            exact .refl s
        · have haccepted : acceptedUser s username password = some u :=
            acceptedUser_eq_some.mpr ⟨hfind, hblocked, not_ne_iff.mp hwrong, by simpa using hlive⟩
          have hlogin := login_of_accepted ac haccepted
          refine .success u hopen ?_ ?_
          · simp only [counted, hfind, if_neg hblocked, if_neg hwrong, hlogin, if_pos]
          · rw [hlogin]
            refine Between.trans ?_ (.of_core (core_deliverAll ac _ _))
            refine ⟨rfl, rfl, le_rfl, fun v => ?_, fun v => ?_, fun v => ?_⟩ <;>
            · by_cases hv : v = u
              · subst hv
                simp [State.setUser, refresh]
              · simp [State.setUser, refresh, hv]

/-! ## The history of a user -/

/-- The part of a history that is about a user, as attempts on a gate. -/
def attemptsOf (u : UserId) (h : List Counted) : List Attempt :=
  (h.filter fun e => e.user = u).map fun e => ⟨e.time, decide (e.outcome = .success)⟩

/-- The number of a user's wrong passwords since his last success or block. -/
def sinceReset (u : UserId) (h : List Counted) : ℕ :=
  ((h.filter fun e => e.user = u).reverse.takeWhile fun e => e.outcome = .mismatch).length

/-- The number of a user's wrong passwords in the window of this length from `t` on. -/
def mismatchesIn (u : UserId) (t length : ℤ) (h : List Counted) : ℕ :=
  h.countP fun e =>
    e.user = u ∧ e.outcome ≠ .success ∧ t ≤ e.time ∧ e.time < t + length

lemma attemptsOf_snoc (u : UserId) (h : List Counted) (e : Counted) :
    attemptsOf u (h ++ [e]) =
      attemptsOf u h ++ if e.user = u then [⟨e.time, decide (e.outcome = .success)⟩] else [] := by
  unfold attemptsOf
  by_cases hu : e.user = u <;> simp [hu]

lemma sinceReset_snoc (u : UserId) (h : List Counted) (e : Counted) :
    sinceReset u (h ++ [e]) =
      if e.user = u then if e.outcome = .mismatch then sinceReset u h + 1 else 0
      else sinceReset u h := by
  unfold sinceReset
  by_cases hu : e.user = u
  · by_cases ho : e.outcome = .mismatch <;> simp [hu, ho]
  · simp [hu]

lemma mismatchesIn_eq (u : UserId) (t length : ℤ) (h : List Counted) :
    mismatchesIn u t length h = Gate.failuresIn t length (attemptsOf u h) := by
  unfold mismatchesIn Gate.failuresIn attemptsOf
  rw [List.countP_map, List.countP_filter]
  refine List.countP_congr fun e _ => ?_
  by_cases hu : e.user = u <;> by_cases ho : e.outcome = .success <;> simp [hu, ho]

lemma mem_attemptsOf {u : UserId} {h : List Counted} {a : Attempt} (ha : a ∈ attemptsOf u h) :
    ∃ e ∈ h, e.user = u ∧ a = ⟨e.time, decide (e.outcome = .success)⟩ := by
  obtain ⟨e, he, rfl⟩ := List.mem_map.mp ha
  obtain ⟨hmem, hu⟩ := List.mem_filter.mp he
  exact ⟨e, hmem, of_decide_eq_true hu, rfl⟩

/-! ## The fields are the gate -/

/-- The gate that a new user is. -/
def newGate : Gate := ⟨0, -1⟩

/-- **The fields of every user are the gate that his history leads to**, and every block is still
recorded. -/
structure GateKept (D : ℤ) (h : List Counted) (s : State) : Prop where
  blockDuration : s.blockDuration = D
  times : ∀ e ∈ h, e.time ≤ s.now
  gate : ∀ u, newGate.after 3 D (attemptsOf u h) = gateOf s u
  admitted : ∀ u, newGate.Admitted 3 D (attemptsOf u h)
  since : ∀ u, (s.users u).attempts = sinceReset u h
  third : ∀ h₁ e h₂, h = h₁ ++ e :: h₂ →
    (e.outcome = .block → sinceReset e.user h₁ = 2) ∧
      (e.outcome = .mismatch → sinceReset e.user h₁ < 2)
  blocks : ∀ e ∈ h, e.outcome = .block → e.time + D ≤ (s.users e.user).lastBlocked

namespace GateKept

variable {D : ℤ} {h : List Counted} {s t : State}

lemma attempts_le (hk : GateKept D h s) (u : UserId) : (s.users u).attempts ≤ 2 := by
  have hlt : (gateOf s u).failures < 3 := by
    rw [← hk.gate u]
    exact Gate.failures_after_lt (by decide) (by decide) _
  change (s.users u).attempts.toNat < 3 at hlt
  omega

lemma between (hk : GateKept D h s) (hst : Between s t) : GateKept D h t where
  blockDuration := hst.blockDuration.trans hk.blockDuration
  times e he := (hk.times e he).trans hst.now
  gate u := by
    rw [hk.gate u, gateOf, gateOf, hst.attempts, hst.lastBlocked]
  admitted := hk.admitted
  since u := (hst.attempts u).trans (hk.since u)
  third := hk.third
  blocks e he hblock := by
    rw [hst.lastBlocked]
    exact hk.blocks e he hblock

/-- One more counted call, which changes its user's record by `f`. -/
lemma snoc (hD : 0 ≤ D) (hk : GateKept D h s) (u : UserId) (o : Outcome) (f : User → User)
    (hopen : (s.users u).lastBlocked ≤ s.now)
    (hgate : (⟨(f (s.users u)).attempts.toNat, (f (s.users u)).lastBlocked⟩ : Gate) =
      (gateOf s u).record 3 D ⟨s.now, decide (o = .success)⟩)
    (hsince : (f (s.users u)).attempts = if o = .mismatch then (s.users u).attempts + 1 else 0)
    (hthird : (o = .block → (s.users u).attempts = 2) ∧
      (o = .mismatch → (s.users u).attempts < 2))
    (hblock : o = .block → (f (s.users u)).lastBlocked = s.now + D) :
    GateKept D (h ++ [⟨u, s.now, o⟩]) (s.setUser u f) := by
  have hself : (s.setUser u f).users u = f (s.users u) := by simp [State.setUser]
  have hothers : ∀ v, v ≠ u → (s.setUser u f).users v = s.users v := fun v hv => by
    simp [State.setUser, hv]
  have hgate' : gateOf (s.setUser u f) u =
      (gateOf s u).record 3 D ⟨s.now, decide (o = .success)⟩ := by
    rw [← hgate, gateOf, hself]
  refine ⟨hk.blockDuration, fun e he => ?_, fun v => ?_, fun v => ?_, fun v => ?_,
    fun h₁ e h₂ heq => ?_, fun e he hout => ?_⟩
  · show e.time ≤ s.now
    rcases List.mem_append.mp he with he | he
    · exact hk.times e he
    · obtain rfl := List.mem_singleton.mp he
      exact le_rfl
  · rw [attemptsOf_snoc]
    by_cases hv : u = v
    · subst hv
      rw [if_pos rfl, Gate.after_append, hk.gate u, hgate']
      rfl
    · rw [if_neg hv, List.append_nil, hk.gate v, gateOf, gateOf, hothers v (Ne.symm hv)]
  · rw [attemptsOf_snoc]
    by_cases hv : u = v
    · subst hv
      rw [if_pos rfl]
      refine Gate.admitted_snoc (hk.admitted u) ?_ fun a ha => ?_
      · rw [hk.gate u]
        exact hopen
      · obtain ⟨e, he, -, rfl⟩ := mem_attemptsOf ha
        exact hk.times e he
    · rw [if_neg hv, List.append_nil]
      exact hk.admitted v
  · rw [sinceReset_snoc]
    by_cases hv : u = v
    · subst hv
      rw [if_pos rfl, hself, hsince, hk.since u]
      split <;> simp
    · rw [if_neg hv, hothers v (Ne.symm hv)]
      exact hk.since v
  · rcases List.eq_nil_or_concat h₂ with rfl | ⟨h₂, e', rfl⟩
    · obtain ⟨rfl, hlast⟩ := List.append_inj' heq rfl
      obtain rfl := (List.cons.inj hlast).1
      dsimp only
      have hcount := hk.since u
      refine ⟨fun ho => ?_, fun ho => ?_⟩
      · have := hthird.1 ho
        omega
      · have := hthird.2 ho
        omega
    · rw [List.concat_eq_append, ← List.cons_append, ← List.append_assoc] at heq
      exact hk.third h₁ e h₂ (List.append_inj' heq rfl).1
  · rcases List.mem_append.mp he with he | he
    · have hold := hk.blocks e he hout
      by_cases hv : e.user = u
      · -- a later closing of the same gate ends later
        rw [hv] at hold ⊢
        have hrecord := @Gate.closedUntil_le_record 3 D hD (gateOf s u)
          ⟨s.now, decide (o = .success)⟩ hopen
        rw [← hgate'] at hrecord
        exact hold.trans hrecord
      · rw [hothers e.user hv]
        exact hold
    · obtain rfl := List.mem_singleton.mp he
      dsimp only at hout ⊢
      rw [hself, hblock hout]

/-- One call keeps the gates. -/
lemma call (hD : 0 ≤ D) (hk : GateKept D h s) (username password : Bytes) :
    GateKept D (h ++ counted ac s username password) (login ac s username password).1 := by
  have hnat : ∀ u, ((s.users u).attempts.toNat : ℤ) = (s.users u).attempts := fun u => by
    rw [hk.since u]
    rfl
  cases login_effect ac s username password with
  | ignored none same =>
      rw [none, List.append_nil]
      exact hk.between same
  | success u isOpen one rest =>
      rw [one]
      refine (snoc hD hk u .success _ isOpen ?_ ?_ ?_ ?_).between rest
      · simp [gateOf, Gate.record]
      · simp
      · simp
      · simp
  | mismatch u isOpen one few rest =>
      have hle := hk.attempts_le u
      have hcount := hnat u
      have hne : (s.users u).attempts.toNat + 1 ≠ 3 := by omega
      have hsucc : ((s.users u).attempts + 1).toNat = (s.users u).attempts.toNat + 1 := by omega
      rw [one]
      refine (snoc hD hk u .mismatch _ isOpen ?_ ?_ ?_ ?_).between rest
      · simp [gateOf, Gate.record, hne, hsucc]
      · simp
      · simp only [reduceCtorEq, false_implies, true_and, forall_const]
        omega
      · simp
  | block u isOpen one third rest =>
      have hcount := hnat u
      have hfull : (s.users u).attempts.toNat + 1 = 3 := by omega
      have htwo : (s.users u).attempts = 2 := by omega
      rw [one]
      refine (snoc hD hk u .block _ isOpen ?_ ?_ ?_ ?_).between rest
      · simp [gateOf, Gate.record, hfull, hk.blockDuration]
      · simp
      · simp [htwo]
      · simp [hk.blockDuration]

end GateKept

/-! ## All sequences of calls -/

/-- The users of a server that has just started have no attempts and are not blocked. -/
lemma attempts_init (p : Setup) :
    p.init.blockDuration = p.blockDuration ∧
      ∀ u, (p.init.users u).attempts = 0 ∧ (p.init.users u).lastBlocked = -1 := by
  unfold Setup.init
  generalize p.credentials = l
  have hblank : (State.blank p.blockDuration p.loginTimeout p.now).blockDuration =
      p.blockDuration ∧ ∀ u,
        ((State.blank p.blockDuration p.loginTimeout p.now).users u).attempts = 0 ∧
          ((State.blank p.blockDuration p.loginTimeout p.now).users u).lastBlocked = -1 :=
    ⟨rfl, fun _ => ⟨rfl, rfl⟩⟩
  generalize State.blank p.blockDuration p.loginTimeout p.now = s at hblank ⊢
  induction l generalizing s with
  | nil => exact hblank
  | cons nw l ih =>
      refine ih _ ⟨hblank.1, fun u => ?_⟩
      by_cases hu : u = s.nusers
      · subst hu
        simp [addUser]
      · simpa [addUser, hu] using hblank.2 u

lemma gateKept_init (p : Setup) : GateKept p.blockDuration [] p.init where
  blockDuration := (attempts_init p).1
  times e he := absurd he List.not_mem_nil
  gate u := by
    obtain ⟨hattempts, hblocked⟩ := (attempts_init p).2 u
    rw [gateOf, hattempts, hblocked]
    rfl
  admitted u := trivial
  since u := ((attempts_init p).2 u).1
  third h₁ e h₂ heq := by simp at heq
  blocks e he := absurd he List.not_mem_nil

lemma gateKept_calls {p : Setup} (hD : 0 ≤ p.blockDuration) {h : List Counted} {s : State}
    (calls : Calls ac p.init h s) : GateKept p.blockDuration h s := by
  induction calls with
  | start => exact gateKept_init p
  | between _ rest ih => exact ih.between rest
  | call _ username password ih => exact ih.call ac hD username password

/-- **The lockout of a user**: what holds of him after a history of calls. -/
structure LockedOut (D : ℤ) (h : List Counted) (s : State) (u : UserId) : Prop where
  /-- The counter is the number of wrong passwords since his last success or block. -/
  counts : (s.users u).attempts = sinceReset u h ∧ (s.users u).attempts ≤ 2
  /-- The third wrong password blocks, and no earlier one does. -/
  third : ∀ h₁ e h₂, h = h₁ ++ e :: h₂ → e.user = u →
    (e.outcome = .block → sinceReset u h₁ = 2) ∧ (e.outcome = .mismatch → sinceReset u h₁ < 2)
  /-- For the block duration every further login returns 2 and changes nothing. -/
  refuses : ∀ e ∈ h, e.user = u → e.outcome = .block → s.now < e.time + D →
    ∀ username password, findUser s username = some u →
      login ac s username password = (s, 2, some u)
  /-- A window of `k` block durations without a success has at most `3 * k` wrong passwords. -/
  bounded : ∀ (t : ℤ) (k : ℕ), 1 ≤ k →
    (∀ e ∈ h, e.user = u → t ≤ e.time → e.time < t + k * D → e.outcome ≠ .success) →
      mismatchesIn u t (k * D) h ≤ 3 * k

/-- **Login lockout.** After every sequence of calls of `login`, the lockout holds of every
user. -/
theorem lockout_calls {p : Setup} (hD : 1 ≤ p.blockDuration) {h : List Counted} {s : State}
    (calls : Calls ac p.init h s) (u : UserId) : LockedOut ac p.blockDuration h s u := by
  have hD' : 0 ≤ p.blockDuration := by omega
  have hk := gateKept_calls ac hD' calls
  refine ⟨⟨hk.since u, hk.attempts_le u⟩, fun h₁ e h₂ heq hu => ?_, ?_, ?_⟩
  · rw [← hu]
    exact hk.third h₁ e h₂ heq
  · intro e he hu hblock hnow username password hfind
    refine login_of_blocked ac hfind ?_ password
    rw [← hu]
    exact hnow.trans_le (hk.blocks e he hblock)
  · intro t k _ hquiet
    rw [mismatchesIn_eq]
    refine Gate.failuresIn_le (by decide) hD' newGate (by decide) (hk.admitted u) t k ?_
    intro a ha hfrom hto
    obtain ⟨e, he, hu, rfl⟩ := mem_attemptsOf ha
    exact decide_eq_false (hquiet e he hu hfrom hto)

/-- Three wrong passwords in a row. -/
theorem lockout_calls_demo :
    ∃ h s, Calls protobufWire demo.init h s ∧
      h.map Counted.outcome = [.mismatch, .mismatch, .block] ∧
        LockedOut protobufWire demo.blockDuration h s 0 := by
  have first : Calls protobufWire demo.init [] demo.init := .start
  have calls := (first.call (text "hans") (text "solo")).call (text "hans") (text "luke")
  have calls' := calls.call (text "hans") (text "leia")
  exact ⟨_, _, calls', by decide +kernel, lockout_calls protobufWire (by decide) calls' 0⟩

/-! ## The server's runs -/

namespace Between

variable {s t : State}

/-- It is a matter of the core. -/
lemma of_cores (h : Between s.core t.core) : Between s t :=
  ⟨h.root, h.blockDuration, h.now, h.password, h.attempts, h.lastBlocked⟩

lemma unbind (s : State) (u : Option UserId) : Between s (unbind s u) := by
  unfold EpollChat.unbind
  split
  · exact .refl s
  next u =>
  split
  · exact .refl s
  · next c _ =>
      have hconn : Between s (s.setConn c fun k => { k with user := none }) :=
        ⟨rfl, rfl, le_rfl, fun _ => rfl, fun _ => rfl, fun _ => rfl⟩
      have huser : Between s ((s.setConn c fun k => { k with user := none }).setUser u fun v =>
          { v with client := none }) := by
        refine hconn.trans (.setUser _ u ?_ ?_ ?_) <;> exact fun _ => rfl
      exact ⟨huser.root, huser.blockDuration, huser.now, huser.password, huser.attempts,
        huser.lastBlocked⟩

lemma logoutUser (s : State) (u : Option UserId) : Between s (logoutUser ac s u) := by
  refine .of_cores ?_
  rw [core_logoutUser]
  exact .unbind s.core u

lemma closeSocket (s : State) (c : ConnId) : Between s (closeSocket ac s c) := by
  refine .of_cores ?_
  rw [core_closeSocket]
  have h := Between.unbind s.core (s.conn c).user
  exact ⟨h.root, h.blockDuration, h.now, h.password, h.attempts, h.lastBlocked⟩

lemma updateLastActive (s : State) (c : ConnId) : Between s (updateLastActive s c) := by
  rcases updateLastActive_eq s c with h | ⟨u, -, -, h⟩ <;> rw [h]
  · exact .refl s
  · refine .setUser s u ?_ ?_ ?_ <;> exact fun _ => rfl

lemma setChunks (s : State) (c : ConnId) (chunks : Option ChunkList) :
    Between s (setChunks s c chunks) := by
  cases chunks <;>
  exact ⟨rfl, rfl, le_rfl, fun _ => rfl, fun _ => rfl, fun _ => rfl⟩

lemma of_effect {c : ConnId} {req : Request} (h : CommandEffect ac s c req t) : Between s t := by
  cases h with
  | reads _ cs => exact .of_core (core_touches s cs)
  | messages => exact .of_core (core_deliverAll ac s _)
  | blocks req self f => refine .setUser s self ?_ ?_ ?_ <;> exact fun _ => rfl
  | taken => exact ⟨rfl, rfl, le_rfl, fun _ => rfl, fun _ => rfl, fun _ => rfl⟩
  | file r =>
      have h := Between.setChunks { s with
        fileDb := (addFile s.fileDb s.globalChunkId r.filename r.chunks).1
        globalChunkId := s.globalChunkId + r.chunks } c
          (regAllFileChunk (s.conn c).chunks ⟨r.chunks, s.globalChunkId⟩)
      exact ⟨h.root, h.blockDuration, h.now, h.password, h.attempts, h.lastBlocked⟩
  | chunks r f =>
      have h := Between.setChunks s c
        (regFileChunk (s.conn c).chunks f (parsePackedUint32 r.chunks))
      exact ⟨h.root, h.blockDuration, h.now, h.password, h.attempts, h.lastBlocked⟩

/-- A login request does what its call of `login` does, and then binds at most. -/
lemma cmdLoginImpl (s : State) (c : ConnId) (r : LoginRequest) :
    Between (login ac s r.username r.password).1 (cmdLoginImpl ac s c r).1 := by
  cases haccepted : acceptedUser s r.username r.password with
  | none =>
      obtain ⟨code, u, -, hlogin⟩ := login_of_refused ac haccepted
      obtain ⟨rsp, hrsp⟩ := cmdLoginImpl_of_refused ac (c := c) haccepted
      rw [hlogin, hrsp]
      exact .refl _
  | some u =>
      rw [login_of_accepted ac haccepted, cmdLoginImpl_of_accepted ac haccepted]
      dsimp only
      generalize deliverAll ac _ _ = t
      have h : Between (t.setConn c fun k => { k with user := some u })
          ((t.setConn c fun k => { k with user := some u }).setUser u fun v =>
            { v with client := some c }) := by
        refine .setUser _ u ?_ ?_ ?_ <;> exact fun _ => rfl
      exact ⟨h.root, h.blockDuration, h.now, h.password, h.attempts, h.lastBlocked⟩

lemma timeThread (s : State) : Between s (timeThread ac s) := by
  unfold EpollChat.timeThread
  generalize s.clients = l
  induction l generalizing s with
  | nil => exact .refl s
  | cons c l ih =>
      refine Between.trans ?_ (ih _)
      unfold sweepClient
      split
      · rw [sendResponseToClient_eq]
        exact (Between.logoutUser ac s _).trans (.of_core (core_deliver ac _ _))
      · exact .refl s

end Between

/-- A request is a call of `login` or leaves the counting fields alone. -/
lemma calls_serve {init s : State} {h : List Counted} (calls : Calls ac init h s) (c : ConnId)
    (req : Request) : ∃ h', Calls ac init h' (serve ac s c req) := by
  have hcommand : ∃ h', Calls ac init h' (runCommand ac s c req).1 := by
    cases hquiet : req.isQuiet with
    | true => exact ⟨h, calls.between (.of_effect ac (runCommand_effect ac s c hquiet))⟩
    | false =>
        cases req with
        | login r => exact ⟨_, (calls.call r.username r.password).between (.cmdLoginImpl ac s c r)⟩
        | logout =>
            refine ⟨h, calls.between ?_⟩
            show Between s (cmdLogoutImpl ac s c).1
            unfold cmdLogoutImpl
            split
            · exact .refl s
            · exact .closeSocket ac s c
        | _ => cases hquiet
  by_cases hunknown : ∃ type, req = .unknown type
  · obtain ⟨type, rfl⟩ := hunknown
    exact ⟨h, calls.between (.of_core (core_serve ac s c _))⟩
  · obtain ⟨h', calls'⟩ := hcommand
    have hcore := core_serve ac s c req
    rw [runRequest_of_known ac s c fun type h => hunknown ⟨type, h⟩] at hcore
    exact ⟨h', (calls'.between (.updateLastActive _ c)).between (.of_core hcore)⟩

/-- **Every run of the server is a sequence of calls.** -/
theorem calls_of_run {p : Setup} {ok : State → Event → Prop} {es : List Event} {s : State}
    (run : ServerRun ac p ok es s) : ∃ h, Calls ac p.init h s := by
  refine run.invariant (P := fun s => ∃ h, Calls ac p.init h s) ⟨[], .start⟩ ?_
  rintro s e s' ⟨h, calls⟩ - hstep
  obtain ⟨-, -, rfl⟩ := (step_eq_some ac).mp hstep
  cases e with
  | accept fd addr =>
      obtain ⟨freed, fault, heq⟩ := acceptClient_eq s fd addr
      refine ⟨h, calls.between ?_⟩
      rw [exec, heq]
      exact ⟨rfl, rfl, le_rfl, fun _ => rfl, fun _ => rfl, fun _ => rfl⟩
  | hangup fd | eof fd =>
      rw [exec]
      cases pickConn s fd with
      | none => exact ⟨h, calls⟩
      | some c => exact ⟨h, calls.between (.closeSocket ac s c)⟩
  | readable fd =>
      exact ⟨h, calls.between ⟨rfl, rfl, le_rfl, fun _ => rfl, fun _ => rfl, fun _ => rfl⟩⟩
  | request req =>
      rw [exec]
      cases s.serving with
      | none => exact ⟨h, calls⟩
      | some c => exact calls_serve ac calls c req
  | readDone =>
      exact ⟨h, calls.between ⟨rfl, rfl, le_rfl, fun _ => rfl, fun _ => rfl, fun _ => rfl⟩⟩
  | writable fd n₁ n₂ =>
      rw [exec]
      cases pickConn s fd with
      | none => exact ⟨h, calls⟩
      | some c => exact ⟨h, calls.between (.of_core (core_networkWritable s c n₁ n₂))⟩
  | tick seconds =>
      exact ⟨h, calls.between ⟨rfl, rfl, Int.le_add_of_nonneg_right (Int.natCast_nonneg _),
        fun _ => rfl, fun _ => rfl, fun _ => rfl⟩⟩
  | sweep => exact ⟨h, calls.between (.timeThread ac s)⟩

end EpollChat

import EpollChat.Construction.Demo
import EpollChat.Properties.History

/-!
# The idle sweep

`time_thread` walks the connections, but `logoutUser` works through the user's own link: it takes
the user off the connection that the user points at, and does nothing where there is none.  So a
connection whose expired user points elsewhere is `Crossed`.  The sweep tells it that it has been
logged off, takes the user off the other connection, and leaves this one as it was, to be told
again in the next pass.

A crossed entry may be taken off by another crossed one that comes later in the table, but then
that one is stuck in its place (`crossed_sweepClient`).  So a pass of the sweep does what it should
exactly when no entry is crossed (`sweepOk_iff`).
-/

namespace EpollChat

variable (ac : Achelper)

/-- The connection names a user that is not logged in. -/
def Expired (s : State) (c : ConnId) : Prop :=
  ∃ u, (s.conn c).user = some u ∧ isUserLoggedIn s (some u) = false

/-- It names one that does not point back. -/
def Crossed (s : State) (c : ConnId) : Prop :=
  ∃ u, (s.conn c).user = some u ∧ isUserLoggedIn s (some u) = false ∧
    (s.users u).client ≠ some c

/-- How often a connection has been sent the log-off response. -/
def notices (c : ConnId) (log : List Obs) : ℕ :=
  log.countP fun
    | .move (.put (.out d) .logOff frame) =>
        d = c ∧ frame = encodeIMResponseToBytes ac (logOffResponse ac)
    | _ => false

/-- **A pass of the sweep does what it should**: no entry names a user that is not logged in, live
sessions stay as they are, the connections that lose their user are told once and no others are
told, and a second pass does nothing. -/
structure SweepOk (s : State) : Prop where
  complete : ∀ c ∈ (timeThread ac s).clients, ¬ Expired (timeThread ac s) c
  untouched : ∀ u, isUserLoggedIn s (some u) = true →
    ((timeThread ac s).users u).client = (s.users u).client ∧
      ((timeThread ac s).users u).lastActive = (s.users u).lastActive ∧
        ∀ c, (s.conn c).user = some u → ((timeThread ac s).conn c).user = some u
  once : ∀ c, notices ac c (timeThread ac s).log = notices ac c s.log +
    if (s.conn c).user ≠ none ∧ ((timeThread ac s).conn c).user = none then 1 else 0
  again : timeThread ac (timeThread ac s) = timeThread ac s

/-! ## One round -/

section Round

variable {s : State} {c d : ConnId} {u : UserId}

/-- A round on an entry that has not expired does nothing. -/
lemma sweepClient_of_not_expired (h : ¬ Expired s c) : sweepClient ac s c = s := by
  unfold sweepClient
  rw [if_neg]
  rintro ⟨hne, hdead⟩
  obtain ⟨u, hu⟩ := Option.ne_none_iff_exists'.mp hne
  refine h ⟨u, hu, ?_⟩
  rw [hu] at hdead
  simpa using hdead

lemma sweepClient_of_expired (hu : (s.conn c).user = some u)
    (hdead : isUserLoggedIn s (some u) = false) :
    sweepClient ac s c =
      deliver ac (logoutUser ac s (some u)) ⟨.out c, .logOff, logOffResponse ac⟩ := by
  unfold sweepClient
  rw [hu, if_pos ⟨by simp, by simp [hdead]⟩, sendResponseToClient_eq]

lemma core_unbind (s : State) (u : Option UserId) : (unbind s u).core = unbind s.core u := by
  cases u with
  | none => rfl
  | some u =>
      have hclient : (s.core.users u).client = (s.users u).client := rfl
      cases hc : (s.users u).client with
      | none => simp only [unbind, hclient, hc]
      | some c =>
          simp only [unbind, hclient, hc]
          exact core_unlink s u c

/-- A round on an expired entry takes its user off the connection the user points at. -/
lemma core_sweepClient (hu : (s.conn c).user = some u)
    (hdead : isUserLoggedIn s (some u) = false) :
    (sweepClient ac s c).core = (unbind s (some u)).core := by
  rw [sweepClient_of_expired ac hu hdead, core_deliver, core_logoutUser, core_unbind]

lemma unbind_of_client (hd : (s.users u).client = some d) : unbind s (some u) = unlink s u d := by
  simp only [unbind, hd]

lemma unbind_of_none (hd : (s.users u).client = none) : unbind s (some u) = s := by
  simp only [unbind, hd]

lemma lastActive_unlink (s : State) (u v : UserId) (c : ConnId) :
    ((unlink s u c).users v).lastActive = (s.users v).lastActive := by
  by_cases h : v = u <;> simp [unlink, State.setConn, State.setUser, State.emit, h]

@[simp] lemma clients_sweepClient (s : State) (c : ConnId) :
    (sweepClient ac s c).clients = s.clients := by
  by_cases h : Expired s c
  · obtain ⟨u, hu, hdead⟩ := h
    have hcore := congrArg State.clients (core_sweepClient ac hu hdead)
    exact hcore.trans (clients_unbind s (some u))
  · rw [sweepClient_of_not_expired ac h]

/-- A user that is not logged in is not after it has been taken off. -/
lemma isUserLoggedIn_unlink_of_dead (hdead : isUserLoggedIn s (some u) = false) (v : UserId) :
    isUserLoggedIn (unlink s u d) (some v) = isUserLoggedIn s (some v) := by
  by_cases hv : v = u
  · subst hv
    rw [hdead]
    have hnone : ((unlink s v d).users v).client = none := by rw [client_unlink, if_pos rfl]
    simp only [isUserLoggedIn, hnone]
  · exact isUserLoggedIn_unlink hv

/-- A round decides about nobody whether he is logged in. -/
lemma isUserLoggedIn_sweepClient (s : State) (c : ConnId) (v : UserId) :
    isUserLoggedIn (sweepClient ac s c) (some v) = isUserLoggedIn s (some v) := by
  by_cases h : Expired s c
  · obtain ⟨u, hu, hdead⟩ := h
    rw [isUserLoggedIn_congr (core_sweepClient ac hu hdead)]
    cases hd : (s.users u).client with
    | none => rw [unbind_of_none hd]
    | some d => rw [unbind_of_client hd, isUserLoggedIn_unlink_of_dead hdead]
  · rw [sweepClient_of_not_expired ac h]

/-- **A crossed entry stays**, or leaves another one in its place. -/
lemma crossed_sweepClient (h : Crossed s d) :
    Crossed (sweepClient ac s c) d ∨ Crossed (sweepClient ac s c) c := by
  by_cases hexp : Expired s c
  swap
  · rw [sweepClient_of_not_expired ac hexp]
    exact .inl h
  obtain ⟨w, hw, hdead⟩ := hexp
  obtain ⟨u, hu, hudead, hclient⟩ := h
  have hcore := core_sweepClient ac hw hdead
  cases he : (s.users w).client with
  | none =>
      rw [unbind_of_none he] at hcore
      refine .inl ⟨u, ?_, ?_, ?_⟩
      · rw [user_eq_of_core hcore, hu]
      · rw [isUserLoggedIn_congr hcore, hudead]
      · rwa [client_eq_of_core hcore]
  | some e =>
      rw [unbind_of_client he] at hcore
      have huser : ∀ b, ((sweepClient ac s c).conn b).user =
          if b = e then none else (s.conn b).user := fun b => by
        rw [user_eq_of_core hcore, user_unlink]
      have hclient' : ∀ v, ((sweepClient ac s c).users v).client =
          if v = w then none else (s.users v).client := fun v => by
        rw [client_eq_of_core hcore, client_unlink]
      by_cases hce : c = e
      · -- the round takes its own entry off, so the crossed one is another
        subst hce
        have hdc : d ≠ c := by
          rintro rfl
          rw [hw] at hu
          obtain rfl := Option.some.inj hu
          exact hclient he
        refine .inl ⟨u, ?_, ?_, ?_⟩
        · rw [huser, if_neg hdc, hu]
        · rw [isUserLoggedIn_sweepClient, hudead]
        · rw [hclient']
          split
          · simp
          · exact hclient
      · -- it takes another one off, and its own user points nowhere
        refine .inr ⟨w, ?_, ?_, ?_⟩
        · rw [huser, if_neg hce, hw]
        · rw [isUserLoggedIn_sweepClient, hdead]
        · rw [hclient', if_pos rfl]
          simp

/-- A logout tells nobody that it was logged off by the sweep. -/
lemma notices_logoutUser (hserver : s.isServer = true) (u : UserId) (c : ConnId) :
    notices ac c (logoutUser ac s (some u)).log = notices ac c s.log := by
  have hadds : Adds (fun o => notices ac c [o] = 0) s (logoutUser ac s (some u)) :=
    adds_logoutUser ac hserver ⟨fun _ _ => rfl, fun _ _ _ _ _ _ _ => rfl⟩
  obtain ⟨l, hl, hzero⟩ := hadds
  rw [hl.log, notices, List.countP_append]
  refine Nat.add_eq_left.mpr (List.countP_eq_zero.mpr fun o ho => ?_)
  have h := List.countP_eq_zero.mp (hzero o ho)
  exact h o List.mem_cons_self

/-- A round on an expired entry is one notice to it. -/
lemma notices_sweepClient (hserver : s.isServer = true) (hu : (s.conn c).user = some u)
    (hdead : isUserLoggedIn s (some u) = false) (d : ConnId) :
    notices ac d (sweepClient ac s c).log = notices ac d s.log + if d = c then 1 else 0 := by
  rw [sweepClient_of_expired ac hu hdead, log_deliver]
  unfold notices
  rw [List.countP_append, List.countP_singleton]
  refine congrArg₂ (· + ·) (notices_logoutUser ac hserver u d) ?_
  simp [Delivery.frame, eq_comm]

end Round

/-! ## A pass over straight entries -/

/-- What a pass has done once it has come past the entries `l`. -/
structure Swept (s : State) (l : List ConnId) (t : State) : Prop where
  user : ∀ c, (t.conn c).user = none ∧ c ∈ l ∧ Expired s c ∨
    (t.conn c).user = (s.conn c).user ∧ ¬ (c ∈ l ∧ Expired s c)
  notices : ∀ c, notices ac c t.log = notices ac c s.log +
    if (s.conn c).user ≠ none ∧ (t.conn c).user = none then 1 else 0
  client : ∀ u, isUserLoggedIn s (some u) = true → (t.users u).client = (s.users u).client
  lastActive : ∀ u, (t.users u).lastActive = (s.users u).lastActive
  live : ∀ u, isUserLoggedIn t (some u) = isUserLoggedIn s (some u)
  straight : ∀ c ∈ s.clients, ¬ Crossed t c
  server : t.isServer = true

section Pass

variable {s t : State} {l : List ConnId} {c : ConnId}

lemma Swept.refl (hserver : s.isServer = true) (h : ∀ c ∈ s.clients, ¬ Crossed s c) :
    Swept ac s [] s where
  user c := .inr ⟨rfl, by simp⟩
  notices c := by simp
  client u _ := rfl
  lastActive u := rfl
  live u := rfl
  straight := h
  server := hserver

/-- The next round. -/
lemma Swept.round (h : Swept ac s l t) (hmem : c ∈ s.clients) (hnew : c ∉ l) :
    Swept ac s (l ++ [c]) (sweepClient ac t c) := by
  have hsame : (t.conn c).user = (s.conn c).user := by
    rcases h.user c with ⟨-, hold, -⟩ | ⟨hsame, -⟩
    · exact absurd hold hnew
    · exact hsame
  by_cases hexp : Expired t c
  swap
  · -- the entry is fine
    have hexp' : ¬ Expired s c := fun ⟨u, hu, hdead⟩ =>
      hexp ⟨u, hsame.trans hu, (h.live u).trans hdead⟩
    rw [sweepClient_of_not_expired ac hexp]
    refine { h with user := fun d => ?_ }
    rcases h.user d with ⟨hnone, hold, hd⟩ | ⟨hd, hnot⟩
    · exact .inl ⟨hnone, List.mem_append_left _ hold, hd⟩
    · refine .inr ⟨hd, fun ⟨hin, hdexp⟩ => ?_⟩
      rcases List.mem_append.mp hin with hin | hin
      · exact hnot ⟨hin, hdexp⟩
      · exact hexp' (List.mem_singleton.mp hin ▸ hdexp)
  · -- its user points back at it, and is taken off
    obtain ⟨u, hu, hdead⟩ := hexp
    have hback : (t.users u).client = some c := by
      by_contra hne
      exact h.straight c hmem ⟨u, hu, hdead, hne⟩
    have hcore : (sweepClient ac t c).core = (unlink t u c).core := by
      rw [core_sweepClient ac hu hdead, unbind_of_client hback]
    have huser : ∀ d, ((sweepClient ac t c).conn d).user =
        if d = c then none else (t.conn d).user := fun d => by
      rw [user_eq_of_core hcore, user_unlink]
    have hclient : ∀ v, ((sweepClient ac t c).users v).client =
        if v = u then none else (t.users v).client := fun v => by
      rw [client_eq_of_core hcore, client_unlink]
    have hsexp : Expired s c := ⟨u, hsame ▸ hu, (h.live u) ▸ hdead⟩
    refine ⟨fun d => ?_, fun d => ?_, fun v hv => ?_, fun v => ?_, fun v => ?_, fun d hd => ?_, ?_⟩
    · rw [huser]
      by_cases hdc : d = c
      · rw [if_pos hdc]
        exact .inl ⟨rfl, by simp [hdc], hdc ▸ hsexp⟩
      · rw [if_neg hdc]
        simpa [hdc] using h.user d
    · rw [notices_sweepClient ac h.server hu hdead, h.notices, huser]
      by_cases hdc : d = c
      · subst hdc
        simp [← hsame, hu]
      · simp [hdc]
    · have hvu : v ≠ u := by
        rintro rfl
        rw [← h.live, hdead] at hv
        cases hv
      rw [hclient, if_neg hvu, h.client v hv]
    · rw [lastActive_eq_of_core hcore, lastActive_unlink, h.lastActive]
    · rw [isUserLoggedIn_sweepClient, h.live]
    · rintro ⟨v, hv, hvdead, hne⟩
      rw [huser] at hv
      rw [isUserLoggedIn_sweepClient] at hvdead
      split at hv
      · cases hv
      · next hdc =>
          have hstraight : (t.users v).client = some d := by
            by_contra hcross
            exact h.straight d hd ⟨v, hv, hvdead, hcross⟩
          refine hne ?_
          rw [hclient, if_neg, hstraight]
          rintro rfl
          exact hdc (Option.some.inj (hstraight.symm.trans hback))
    · have hserver := congrArg State.isServer hcore
      exact hserver.trans h.server

end Pass

/-! ## A whole pass -/

section Whole

variable {s : State}

lemma clients_foldl_sweepClient (s : State) (l : List ConnId) :
    (l.foldl (sweepClient ac) s).clients = s.clients := by
  induction l generalizing s with
  | nil => rfl
  | cons c l ih => rw [List.foldl_cons, ih, clients_sweepClient]

@[simp] lemma clients_timeThread (s : State) : (timeThread ac s).clients = s.clients :=
  clients_foldl_sweepClient ac s s.clients

/-- Where no entry has expired a pass does nothing. -/
lemma timeThread_of_complete (h : ∀ c ∈ s.clients, ¬ Expired s c) : timeThread ac s = s := by
  suffices hl : ∀ l : List ConnId, (∀ c ∈ l, ¬ Expired s c) → l.foldl (sweepClient ac) s = s from
    hl s.clients h
  intro l hl
  induction l with
  | nil => rfl
  | cons c l ih =>
      rw [List.foldl_cons, sweepClient_of_not_expired ac (hl c List.mem_cons_self)]
      exact ih fun d hd => hl d (List.mem_cons_of_mem _ hd)

/-- A pass does not get rid of the last crossed entry. -/
lemma crossed_timeThread (h : ∃ c ∈ s.clients, Crossed s c) :
    ∃ c ∈ s.clients, Crossed (timeThread ac s) c := by
  suffices hl : ∀ (l : List ConnId) (t : State), (∀ c ∈ l, c ∈ s.clients) →
      (∃ c ∈ s.clients, Crossed t c) → ∃ c ∈ s.clients, Crossed (l.foldl (sweepClient ac) t) c from
    hl s.clients s (fun _ h => h) h
  intro l
  induction l with
  | nil => exact fun t _ h => h
  | cons c l ih =>
      rintro t hl ⟨d, hd, hcrossed⟩
      refine ih _ (fun e he => hl e (List.mem_cons_of_mem _ he)) ?_
      rcases crossed_sweepClient ac (c := c) hcrossed with h | h
      · exact ⟨d, hd, h⟩
      · exact ⟨c, hl c List.mem_cons_self, h⟩

/-- A pass over straight entries. -/
lemma swept_timeThread (hserver : s.isServer = true) (hnodup : s.clients.Nodup)
    (h : ∀ c ∈ s.clients, ¬ Crossed s c) : Swept ac s s.clients (timeThread ac s) := by
  suffices hl : ∀ l : List ConnId, l.Nodup → (∀ c ∈ l, c ∈ s.clients) →
      Swept ac s l (l.foldl (sweepClient ac) s) from
    hl s.clients hnodup fun _ h => h
  intro l
  induction l using List.reverseRecOn with
  | nil => exact fun _ _ => .refl ac hserver h
  | append_singleton l c ih =>
      intro hl hmem
      rw [List.foldl_append, List.foldl_cons, List.foldl_nil]
      have hsplit := List.nodup_append.mp hl
      refine (ih hsplit.1 fun d hd => hmem d (List.mem_append_left _ hd)).round ac
        (hmem c (by simp)) fun hc => ?_
      exact hsplit.2.2 c hc c List.mem_cons_self rfl

lemma Swept.sweepOk (h : Swept ac s s.clients (timeThread ac s)) : SweepOk ac s := by
  have hcomplete : ∀ c ∈ (timeThread ac s).clients, ¬ Expired (timeThread ac s) c := by
    rintro c hc ⟨u, hu, hdead⟩
    rw [clients_timeThread] at hc
    rcases h.user c with ⟨hnone, -, -⟩ | ⟨hsame, hnot⟩
    · rw [hnone] at hu
      cases hu
    · exact hnot ⟨hc, u, hsame ▸ hu, (h.live u) ▸ hdead⟩
  refine ⟨hcomplete, fun u hlive => ⟨h.client u hlive, h.lastActive u, fun c hc => ?_⟩,
    h.notices, timeThread_of_complete ac hcomplete⟩
  rcases h.user c with ⟨-, -, v, hv, hdead⟩ | ⟨hsame, -⟩
  · rw [hc] at hv
    obtain rfl := Option.some.inj hv
    rw [hlive] at hdead
    cases hdead
  · rw [hsame, hc]

/-- With a crossed entry in the table a pass is not complete. -/
lemma not_sweepOk_of_crossed (h : ∃ c ∈ s.clients, Crossed s c) : ¬ SweepOk ac s := by
  intro hok
  obtain ⟨c, hc, u, hu, hdead, -⟩ := crossed_timeThread ac h
  refine hok.complete c ?_ ⟨u, hu, hdead⟩
  rwa [clients_timeThread]

/-- **The idle sweep.** In every reachable state a pass of the sweep does what it should exactly
if every connection of the table whose user is not logged in is the one that its user points
at. -/
theorem sweepOk_iff {p : Setup} {es : List Event} {s : State} (run : ServerRun ac p Always es s) :
    SweepOk ac s ↔
      ∀ c ∈ s.clients, ∀ u, (s.conn c).user = some u → isUserLoggedIn s (some u) = false →
        (s.users u).client = some c := by
  have hs := tableOk_run ac run
  constructor
  · intro hok c hc u hu hdead
    by_contra hne
    exact not_sweepOk_of_crossed ac ⟨c, hc, u, hu, hdead, hne⟩ hok
  · intro h
    refine (swept_timeThread ac hs.server hs.fds_nodup.of_map fun c hc => ?_).sweepOk ac
    rintro ⟨u, hu, hdead, hne⟩
    exact hne (h c hc u hu hdead)

end Whole

/-- Hans falls asleep on one connection, logs in on another, and falls asleep again. -/
def asleepTwice : List Event :=
  acceptAndServe 5 [loginAs "hans" "falcon"] ++ [.tick 400] ++
    acceptAndServe 6 [loginAs "hans" "falcon"] ++ [.tick 400]

/-- The sweep takes him off the second connection, and tells the first one, again and again. -/
theorem not_sweepOk_asleepTwice :
    ¬ ∀ (ac : Achelper) (p : Setup) (es : List Event) (s : State),
      ServerRun ac p Always es s → SweepOk ac s := by
  intro h
  obtain ⟨s, run, hc, hu, hdead, hclient⟩ := Run.exists_of_execute (step protobufWire) Always
    demo.init asleepTwice
    (fun s => 0 ∈ s.clients ∧ (s.conn 0).user = some 0 ∧ isUserLoggedIn s (some 0) = false ∧
      (s.users 0).client = some 1) (by decide +kernel)
  refine not_sweepOk_of_crossed protobufWire ⟨0, hc, 0, hu, hdead, ?_⟩
    (h protobufWire demo _ s run)
  rw [hclient]
  decide

/-- Of two sessions one has expired. -/
theorem sweepOk_demo :
    ∃ s, ServerRun protobufWire demo Always
        (acceptAndServe 5 [loginAs "hans" "falcon"] ++ [.tick 400] ++
          acceptAndServe 6 [loginAs "yoda" "wise"]) s ∧
      SweepOk protobufWire s := by
  obtain ⟨s, run, hclients, hhans, hyoda⟩ := Run.exists_of_execute (step protobufWire) Always
    demo.init
    (acceptAndServe 5 [loginAs "hans" "falcon"] ++ [.tick 400] ++
      acceptAndServe 6 [loginAs "yoda" "wise"])
    (fun s => s.clients = [0, 1] ∧ ((s.conn 0).user = some 0 ∧ (s.users 0).client = some 0) ∧
      (s.conn 1).user = some 1 ∧ (s.users 1).client = some 1) (by decide +kernel)
  refine ⟨s, run, (sweepOk_iff protobufWire run).mpr fun c hc u hu _ => ?_⟩
  rw [hclients] at hc
  rcases List.mem_pair.mp hc with rfl | rfl
  · obtain rfl := Option.some.inj (hhans.1.symm.trans hu)
    exact hhans.2
  · obtain rfl := Option.some.inj (hyoda.1.symm.trans hu)
    exact hyoda.2

end EpollChat

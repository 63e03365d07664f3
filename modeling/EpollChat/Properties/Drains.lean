import EpollChat.Properties.History

/-!
# Draining the output queues

The `EPOLLOUT` branch hands two queues to `im_send_buffer` one after the other: the outbuffer of
the connection, and then, if the connection's user passes the expiry test, the user's offline
buffer.  `drain` is what one such call does to the queue, the history and the registration, and
`networkWritable_eq` puts the two together.

Each call looks at its own queue only, and switches `EPOLLOUT` off where it leaves it empty.
-/

namespace EpollChat

variable (ac : Achelper)

/-! ## One queue -/

/-- The bytes of a queue that `send` takes. -/
def sentBytes (s : State) (q : Queue) (nsent : Option ℕ) : Bytes :=
  (s.pending q).take (nsent.getD 0)

/-- How many bytes `send` leaves in a queue. -/
def restLength (s : State) (q : Queue) (nsent : Option ℕ) : ℕ :=
  (s.pending q).length - nsent.getD 0

section ImSendBuffer

variable (s : State) (c : ConnId) (q : Queue) (n : Option ℕ)

lemma pending_imSendBufferDone {len k : ℕ} (hk : k ≤ (s.pending q).length) (q' : Queue) :
    (imSendBufferDone s c q len k).pending q' =
      if q' = q then (s.pending q).drop k else s.pending q' := by
  have hbuf : ∀ t : State, t.buf q = s.buf q →
      (t.setBuf q ((t.buf q).consume k)).pending q = (s.pending q).drop k := by
    intro t ht
    rw [State.pending_setBuf, if_pos rfl, ht]
    exact OutBuffer.pending_consume _ hk
  have hmod : (s.epollMod (s.conn c).fd false).buf q = s.buf q :=
    State.buf_congr (State.users_epollMod s _ _) (State.conn_epollMod s _ _) q
  unfold imSendBufferDone
  by_cases hq : q' = q
  · subst hq
    rw [if_pos rfl]
    split
    · exact hbuf _ hmod
    · exact hbuf s rfl
  · rw [if_neg hq, State.pending_setBuf, if_neg hq]
    split
    · exact State.pending_epollMod s _ _ q'
    · rfl

/-- What is left of the queues. -/
lemma pending_imSendBuffer (hsent : sendResult (s.pending q).length n) (q' : Queue) :
    (imSendBuffer s c q n).pending q' =
      if q' = q then (s.pending q).drop (n.getD 0) else s.pending q' := by
  unfold imSendBuffer
  dsimp only
  split
  · cases n with
    | none =>
        by_cases hq : q' = q <;> simp [hq]
    | some k =>
        have hk : k ≤ (s.pending q).length := hsent
        dsimp only
        rw [pending_imSendBufferDone _ c q (by rw [State.pending_emit]; exact hk)]
        simp
  · next hempty =>
      have hnil : s.pending q = [] := List.length_eq_zero_iff.mp (by omega)
      rw [pending_imSendBufferDone s c q (Nat.zero_le _)]
      by_cases hq : q' = q <;> simp [hq, hnil]

/-- What is written. -/
lemma log_imSendBuffer :
    (imSendBuffer s c q n).log = s.log ++ [.move (.take q c (sentBytes s q n))] ∨
      (imSendBuffer s c q n).log = s.log ∧ sentBytes s q n = [] := by
  have hdone : ∀ (t : State) (len k : ℕ), (imSendBufferDone t c q len k).log = t.log := by
    intro t len k
    unfold imSendBufferDone
    rw [State.log_setBuf]
    split <;> simp
  unfold imSendBuffer
  dsimp only
  split
  · cases n with
    | none => exact .inr ⟨rfl, by simp [sentBytes]⟩
    | some k => exact .inl (hdone _ _ _)
  · next hempty =>
      have hnil : s.pending q = [] := List.length_eq_zero_iff.mp (by omega)
      exact .inr ⟨hdone s _ _, by simp [sentBytes, hnil]⟩

/-- `EPOLLOUT` is switched off where the queue has become empty. -/
lemma epoll_imSendBuffer (hsent : sendResult (s.pending q).length n) (fd : ℕ) :
    (imSendBuffer s c q n).epoll fd =
      if fd = (s.conn c).fd ∧ restLength s q n = 0 then (s.epoll fd).map fun _ => false
      else s.epoll fd := by
  have hdone : ∀ (t : State) (len k : ℕ), t.conn = s.conn → t.epoll = s.epoll →
      (imSendBufferDone t c q len k).epoll fd =
        if fd = (s.conn c).fd ∧ len - k = 0 then (s.epoll fd).map fun _ => false
        else s.epoll fd := by
    intro t len k hconn hepoll
    unfold imSendBufferDone
    dsimp only
    rw [State.epoll_setBuf]
    split
    · next hzero => simp [State.epoll_epollMod, hconn, hepoll, hzero]
    · next hzero => rw [hepoll, if_neg fun h => hzero h.2]
  unfold imSendBuffer restLength
  dsimp only
  split
  · next hpos =>
      cases n with
      | none =>
          rw [if_neg]
          rintro ⟨-, h⟩
          exact absurd h (by simp only [Option.getD_none]; omega)
      | some k => exact hdone _ _ _ rfl rfl
  · next hempty =>
      have hlen : (s.pending q).length = 0 := by omega
      rw [hdone s _ _ rfl rfl]
      simp [hlen]

end ImSendBuffer

/-! ## The two queues -/

lemma inlineTest_congr {s s' : State} (h : s.core = s'.core) (c : ConnId) :
    inlineTest s c = inlineTest s' c := by
  have hactive : ∀ u, (s.users u).lastActive = (s'.users u).lastActive := fun u => by
    have h' := congrArg (fun t => (t.users u).lastActive) h
    exact h'
  have htimeout : s.loginTimeout = s'.loginTimeout := by
    have h' := congrArg State.loginTimeout h
    exact h'
  have hnow : s.now = s'.now := by
    have h' := congrArg State.now h
    exact h'
  unfold inlineTest
  rw [user_eq_of_core h]
  cases (s'.conn c).user with
  | none => rfl
  | some u => simp only [hactive, htimeout, hnow]

/-- The user the expiry test lets through is the connection's. -/
lemma user_of_inlineTest {s : State} {c : ConnId} {u : UserId} (h : inlineTest s c = some u) :
    (s.conn c).user = some u := by
  unfold inlineTest at h
  split at h
  · cases h
  · next v hv =>
      split at h
      · rw [← h, hv]
      · cases h

/-- A user who is logged in passes the expiry test on the connection that names him. -/
lemma inlineTest_of_loggedIn {s : State} {c : ConnId} {u : UserId}
    (hu : (s.conn c).user = some u) (h : isUserLoggedIn s (some u) = true) :
    inlineTest s c = some u := by
  unfold inlineTest
  rw [hu]
  exact if_pos (isUserLoggedIn_eq_true.mp h).2

/-- What `send` may return for the two queues. -/
def DrainResults (s : State) (c : ConnId) (n₁ n₂ : Option ℕ) : Prop :=
  sendResult (s.pending (.out c)).length n₁ ∧
    ∀ u ∈ inlineTest s c, sendResult (s.pending (.offline u)).length n₂

/-- The second queue of the branch, if there is one. -/
def drainOffline (s : State) (c : ConnId) (n₂ : Option ℕ) (t : State) : State :=
  match inlineTest s c with
  | some u => imSendBuffer t c (.offline u) n₂
  | none => t

lemma networkWritable_eq (s : State) (c : ConnId) (n₁ n₂ : Option ℕ) :
    networkWritable s c n₁ n₂ =
      (drainOffline s c n₂ (imSendBuffer (s.lock c) c (.out c) n₁)).unlock c := by
  have hcore : (imSendBuffer (s.lock c) c (.out c) n₁).core = s.core := by
    rw [core_imSendBuffer, State.core_lock]
  have htest := inlineTest_congr hcore c
  unfold networkWritable drainOffline
  cases h : inlineTest s c <;> simp only [htest, h]

/-- The state between the two drains. -/
def afterFirst (s : State) (c : ConnId) (n₁ : Option ℕ) : State :=
  imSendBuffer (s.lock c) c (.out c) n₁

/-- What a drain adds to the history is bytes written to its connection. -/
lemma mem_log_networkWritable {s : State} {c : ConnId} {n₁ n₂ : Option ℕ} {o : Obs}
    (h : o ∈ (networkWritable s c n₁ n₂).log) : o ∈ s.log ∨ ∃ q bs, o = .move (.take q c bs) := by
  have hsend : ∀ (t : State) (q : Queue) (n : Option ℕ), o ∈ (imSendBuffer t c q n).log →
      o ∈ t.log ∨ ∃ q bs, o = .move (.take q c bs) := by
    intro t q n hmem
    rcases log_imSendBuffer t c q n with hlog | ⟨hlog, -⟩ <;> rw [hlog] at hmem
    · rcases List.mem_append.mp hmem with hmem | hmem
      · exact .inl hmem
      · exact .inr ⟨q, _, List.mem_singleton.mp hmem⟩
    · exact .inl hmem
  have hfirst : o ∈ (afterFirst s c n₁).log → o ∈ s.log ∨ ∃ q bs, o = .move (.take q c bs) := by
    intro hmem
    have h' := hsend (s.lock c) (.out c) n₁ hmem
    rwa [State.log_lock] at h'
  rw [networkWritable_eq] at h
  have h' : o ∈ (drainOffline s c n₂ (afterFirst s c n₁)).log := h
  unfold drainOffline at h'
  cases hu : inlineTest s c with
  | none =>
      rw [hu] at h'
      exact hfirst h'
  | some u =>
      rw [hu] at h'
      exact (hsend _ _ _ h').elim hfirst .inr

/-- What a drain of the connection may write. -/
inductive DrainWrites (s : State) (c : ConnId) : Obs → Prop
  | out (bs : Bytes) : DrainWrites s c (.move (.take (.out c) c bs))
  | offline (u : UserId) (bs : Bytes) (passes : inlineTest s c = some u) :
      DrainWrites s c (.move (.take (.offline u) c bs))

lemma log_networkWritable (s : State) (c : ConnId) (n₁ n₂ : Option ℕ) :
    ∃ l, (networkWritable s c n₁ n₂).log = s.log ++ l ∧ ∀ o ∈ l, DrainWrites s c o := by
  have hsend : ∀ (t : State) (q : Queue) (n : Option ℕ),
      ∃ l, (imSendBuffer t c q n).log = t.log ++ l ∧ ∀ o ∈ l, ∃ bs, o = .move (.take q c bs) := by
    intro t q n
    rcases log_imSendBuffer t c q n with hlog | ⟨hlog, -⟩
    · exact ⟨_, hlog, fun o ho => ⟨_, List.mem_singleton.mp ho⟩⟩
    · exact ⟨[], by simpa using hlog, by simp⟩
  obtain ⟨l, hl, hout⟩ := hsend (s.lock c) (.out c) n₁
  rw [State.log_lock] at hl
  have hout' : ∀ o ∈ l, DrainWrites s c o := fun o ho => by
    obtain ⟨bs, rfl⟩ := hout o ho
    exact .out bs
  rw [networkWritable_eq]
  show ∃ l, (drainOffline s c n₂ _).log = s.log ++ l ∧ _
  unfold drainOffline
  cases hu : inlineTest s c with
  | none => exact ⟨l, hl, hout'⟩
  | some u =>
      obtain ⟨l', hl', hoffline⟩ := hsend (imSendBuffer (s.lock c) c (.out c) n₁) (.offline u) n₂
      refine ⟨l ++ l', by rw [hl', hl, List.append_assoc], fun o ho => ?_⟩
      rcases List.mem_append.mp ho with ho | ho
      · exact hout' o ho
      · obtain ⟨bs, rfl⟩ := hoffline o ho
        exact .offline u bs hu

/-- **What an event does to the queues**: it adds entries that it emits, or it drains a
connection. -/
lemma exec_cases {s : State} (hserver : s.isServer = true)
    (hfresh : s.pending (.out s.nconns) = []) (e : Event) :
    Adds (Emits ac s e) s (exec ac s e) ∨
      ∃ fd n₁ n₂ c, e = .writable fd n₁ n₂ ∧ pickConn s fd = some c ∧
        exec ac s e = networkWritable s c n₁ n₂ := by
  by_cases hwritable : ∀ fd n₁ n₂, e ≠ .writable fd n₁ n₂
  · exact .inl (exec_adds ac hserver hfresh hwritable)
  · push Not at hwritable
    obtain ⟨fd, n₁, n₂, rfl⟩ := hwritable
    rw [exec]
    cases hpick : pickConn s fd with
    | none => exact .inl (.refl s)
    | some c => exact .inr ⟨fd, n₁, n₂, c, rfl, hpick, rfl⟩

/-- **What an event adds to the history**: entries that it emits, or what its drain writes. -/
lemma log_exec {s : State} (hserver : s.isServer = true)
    (hfresh : s.pending (.out s.nconns) = []) (e : Event) :
    ∃ l, (exec ac s e).log = s.log ++ l ∧
      ∀ o ∈ l, Emits ac s e o ∨ ∃ fd n₁ n₂ c, e = .writable fd n₁ n₂ ∧
        pickConn s fd = some c ∧ DrainWrites s c o := by
  rcases exec_cases ac hserver hfresh e with ⟨l, hl, hemits⟩ | ⟨fd, n₁, n₂, c, rfl, hpick, hexec⟩
  · exact ⟨l, hl.log, fun o ho => .inl (hemits o ho)⟩
  · obtain ⟨l, hl, hwrites⟩ := log_networkWritable s c n₁ n₂
    rw [hexec]
    exact ⟨l, hl, fun o ho => .inr ⟨fd, n₁, n₂, c, rfl, hpick, hwrites o ho⟩⟩

section NetworkWritable

variable {s : State} {c : ConnId} {n₁ n₂ : Option ℕ} (h : DrainResults s c n₁ n₂)
include h

lemma pending_networkWritable (q : Queue) :
    (networkWritable s c n₁ n₂).pending q =
      if q = .out c then (s.pending q).drop (n₁.getD 0)
      else if ∃ u, inlineTest s c = some u ∧ q = .offline u then (s.pending q).drop (n₂.getD 0)
      else s.pending q := by
  have hfirst : ∀ q, (imSendBuffer (s.lock c) c (.out c) n₁).pending q =
      if q = .out c then (s.pending q).drop (n₁.getD 0) else s.pending q := by
    intro q
    rw [pending_imSendBuffer (s.lock c) c _ _ (by rw [State.pending_lock]; exact h.1)]
    by_cases hq : q = .out c
    · subst hq
      rw [if_pos rfl, if_pos rfl, State.pending_lock]
    · rw [if_neg hq, if_neg hq, State.pending_lock]
  rw [networkWritable_eq, State.pending_unlock]
  unfold drainOffline
  cases hu : inlineTest s c with
  | none => simp [hfirst]
  | some u =>
      have hoffline : (imSendBuffer (s.lock c) c (.out c) n₁).pending (.offline u) =
          s.pending (.offline u) := by
        rw [hfirst, if_neg (by simp)]
      dsimp only
      rw [pending_imSendBuffer _ c _ _ (by rw [hoffline]; exact h.2 u hu), hoffline, hfirst]
      by_cases hq : q = .offline u
      · subst hq
        simp
      · by_cases hc : q = .out c
        · subst hc
          simp
        · have hother : ¬ ∃ v, some u = some v ∧ q = .offline v := by
            rintro ⟨v, hv, hqv⟩
            exact hq (Option.some.inj hv ▸ hqv)
          rw [if_neg hq, if_neg hc, if_neg hc, if_neg hother]

lemma epoll_networkWritable (fd : ℕ) :
    (networkWritable s c n₁ n₂).epoll fd =
      if fd = (s.conn c).fd ∧ (restLength s (.out c) n₁ = 0 ∨
        ∃ u, inlineTest s c = some u ∧ restLength s (.offline u) n₂ = 0) then
        (s.epoll fd).map fun _ => false
      else s.epoll fd := by
  have hfirst := epoll_imSendBuffer (s.lock c) c (.out c) n₁
    (by rw [State.pending_lock]; exact h.1) fd
  have hrest : ∀ q n, restLength (s.lock c) q n = restLength s q n := fun q n => by
    rw [restLength, restLength, State.pending_lock]
  rw [State.conn_lock, State.epoll_lock, hrest] at hfirst
  rw [networkWritable_eq]
  show (drainOffline s c n₂ _).epoll fd = _
  unfold drainOffline
  cases hu : inlineTest s c with
  | none => simpa using hfirst
  | some u =>
      have hoffline : (imSendBuffer (s.lock c) c (.out c) n₁).pending (.offline u) =
          s.pending (.offline u) := by
        rw [pending_imSendBuffer (s.lock c) c _ _ (by rw [State.pending_lock]; exact h.1),
          if_neg (by simp), State.pending_lock]
      have hfd : ((imSendBuffer (s.lock c) c (.out c) n₁).conn c).fd = (s.conn c).fd :=
        fd_eq_of_core (by rw [core_imSendBuffer, State.core_lock]) c
      dsimp only
      rw [epoll_imSendBuffer _ c _ _ (by rw [hoffline]; exact h.2 u hu), hfirst, hfd,
        restLength, hoffline]
      show (if fd = _ ∧ restLength s (.offline u) n₂ = 0 then _ else _) = _
      by_cases hfd' : fd = (s.conn c).fd
      · by_cases h₁ : restLength s (.out c) n₁ = 0 <;>
          by_cases h₂ : restLength s (.offline u) n₂ = 0 <;>
          simp [hfd', h₁, h₂, Function.comp_def]
      · simp [hfd']

end NetworkWritable

end EpollChat

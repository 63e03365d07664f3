import EpollChat.Framework.Whereabouts
import EpollChat.Properties.Accounting

/-!
# Messages in the history

A chat message is an entry of the history, and what there is to know about it was settled when it
was queued: the queue, the position in the queue's stream, and the connection that the
recipient's session was on.  A write is an entry too, with the stretch of the stream it took and
the sessions there were at that moment.

`sessionOf` reads off the history which connection a user's session is on; that it is the
`client` pointer of the user is an invariant of every run (`sessionsLogged_run`).
-/

namespace EpollChat

variable (ac : Achelper)

/-! ## Sessions -/

/-- The connection that the history has a user's session on. -/
def sessionOf (u : UserId) (log : List Obs) : Option ConnId :=
  (log.filterMap fun
    | .login c v _ => if v = u then some (some c) else none
    | .logout v _ => if v = u then some none else none
    | _ => none).getLast?.join

lemma sessionOf_append (u : UserId) (log : List Obs) (o : Obs) :
    sessionOf u (log ++ [o]) =
      match o with
      | .login c v _ => if v = u then some c else sessionOf u log
      | .logout v _ => if v = u then none else sessionOf u log
      | _ => sessionOf u log := by
  unfold sessionOf
  cases o with
  | login c v password => by_cases h : v = u <;> simp [h]
  | logout v c => by_cases h : v = u <;> simp [h]
  | _ => simp

/-- The moves of queues do not count. -/
lemma sessionOf_append_moves {l : List Obs} (h : ∀ o ∈ l, o.isMove = true) (u : UserId)
    (log : List Obs) : sessionOf u (log ++ l) = sessionOf u log := by
  induction l using List.reverseRecOn with
  | nil => rw [List.append_nil]
  | append_singleton l o ih =>
      have hmove := h o (List.mem_append_right _ List.mem_cons_self)
      rw [← List.append_assoc, sessionOf_append]
      cases o with
      | move m => exact ih fun o ho => h o (List.mem_append_left _ ho)
      | _ => cases hmove

lemma sessionOf_sessions (u : UserId) (s : State) :
    sessionOf u s.sessions.log = sessionOf u s.log := by
  have hlog : s.sessions.log = s.log.filter Obs.isSession := rfl
  unfold sessionOf
  rw [hlog, List.filterMap_filter]
  congr 2
  refine List.filterMap_congr fun o _ => ?_
  cases o <;> rfl

/-- The history has the sessions there are. -/
def SessionsLogged (s : State) : Prop := ∀ u, sessionOf u s.log = (s.users u).client

lemma sessionsLogged_sessions {s : State} : SessionsLogged s.sessions ↔ SessionsLogged s := by
  unfold SessionsLogged
  simp only [sessionOf_sessions]
  rfl

lemma sessionsLogged_move {s s' : State} (h : SessionsLogged s)
    (move : SessionMove (fun _ _ _ => True) s s') : SessionsLogged s' := by
  cases move with
  | accept fd addr free idle =>
      rw [sessionsLogged_sessions]
      intro u
      rw [log_acceptClient, users_acceptClient]
      exact h u
  | begin fd isOpen idle => exact h
  | finish => exact h
  | active c serves =>
      intro u
      rw [client_updateLastActive]
      rcases updateLastActive_eq s c with heq | ⟨w, -, -, heq⟩ <;> rw [heq] <;> exact h u
  | bind c w username password serves found knows idle ok =>
      intro u
      have hlog : (bind s c w password).log = s.log ++ [.login c w password] := rfl
      rw [hlog, sessionOf_append, client_bind, h]
      simp only [eq_comm]
  | unlink w c bound =>
      intro u
      have hlog : (unlink s w c).log = s.log ++ [.logout w c] := rfl
      rw [hlog, sessionOf_append, client_unlink, h]
      simp only [eq_comm]
  | shut c own unbound => exact h
  | tick seconds => exact h

lemma sessionsLogged_run {p : Setup} {ok : State → Event → Prop} {es : List Event} {s : State}
    (run : ServerRun ac p ok es s) : SessionsLogged s := by
  refine run.invariant_of ?_ (fun run => tableOk_run ac run) ?_
  · intro u
    rw [(loaded_init p).log, ((loaded_init p).users u).1]
    rfl
  · intro s e s' hs h _ hstep
    have hmoves := sessions_step_any ac hs hstep
    exact sessionsLogged_sessions.mp
      (hmoves.invariant (fun _ _ h move => sessionsLogged_move h move)
        (sessionsLogged_sessions.mpr h))

/-! ## Messages and writes -/

/-- A chat message: its frame at a position of a queue's stream, and the connection that the
recipient's session was on when it was queued. -/
structure ChatMessage where
  queue : Queue
  start : ℕ
  frame : Bytes
  recipient : UserId
  session : Option ConnId

/-- The chat message that an entry is, after the history before it. -/
def chatOf : List Obs × Obs → Option ChatMessage
  | (before, .move (.put q (.chat u _) f)) =>
      some ⟨q, (Ledger.stream q (moves before)).length, f, u, sessionOf u before⟩
  | _ => none

/-- The chat messages of a history. -/
def chats (log : List Obs) : List ChatMessage := (entries log).filterMap chatOf

/-- A write: the stretch of a queue's stream that `send` took, and the sessions there were. -/
structure Write where
  queue : Queue
  start : ℕ
  conn : ConnId
  bytes : Bytes
  session : UserId → Option ConnId

/-- The write that an entry is, after the history before it. -/
def writeOf : List Obs × Obs → Option Write
  | (before, .move (.take q c bs)) =>
      some ⟨q, Ledger.taken q (moves before), c, bs, fun u => sessionOf u before⟩
  | _ => none

/-- The writes of a history. -/
def writes (log : List Obs) : List Write := (entries log).filterMap writeOf

/-- The write took bytes of the message. -/
def Write.Carries (w : Write) (m : ChatMessage) : Prop :=
  w.queue = m.queue ∧
    max w.start m.start < min (w.start + w.bytes.length) (m.start + m.frame.length)

instance (w : Write) (m : ChatMessage) : Decidable (w.Carries m) := by
  unfold Write.Carries
  infer_instance

/-- What has not been written of a message. -/
def ChatMessage.rest (m : ChatMessage) (log : List Obs) : Bytes :=
  m.frame.drop (Ledger.taken m.queue (moves log) - m.start)

section Entries

variable {log l : List Obs} {m : ChatMessage} {w : Write}

lemma chatOf_eq_some {p : List Obs × Obs} (h : chatOf p = some m) :
    ∃ v, p.2 = .move (.put m.queue (.chat m.recipient v) m.frame) ∧
      m.start = (Ledger.stream m.queue (moves p.1)).length ∧
        m.session = sessionOf m.recipient p.1 := by
  obtain ⟨before, o⟩ := p
  unfold chatOf at h
  split at h
  · next heq =>
      obtain ⟨rfl, rfl⟩ := Prod.mk.inj heq
      obtain rfl := Option.some.inj h
      exact ⟨_, rfl, rfl, rfl⟩
  · cases h

lemma writeOf_eq_some {p : List Obs × Obs} (h : writeOf p = some w) :
    p.2 = .move (.take w.queue w.conn w.bytes) ∧
      w.start = Ledger.taken w.queue (moves p.1) ∧ w.session = fun u => sessionOf u p.1 := by
  obtain ⟨before, o⟩ := p
  unfold writeOf at h
  split at h
  · next heq =>
      obtain ⟨rfl, rfl⟩ := Prod.mk.inj heq
      obtain rfl := Option.some.inj h
      exact ⟨rfl, rfl, rfl⟩
  · cases h

/-- The messages of a longer history. -/
lemma mem_chats_append :
    m ∈ chats (log ++ l) ↔
      m ∈ chats log ∨ ∃ p ∈ entries l, chatOf (log ++ p.1, p.2) = some m := by
  simp only [chats, entries_append, List.filterMap_append, List.mem_append, List.filterMap_map,
    List.mem_filterMap (l := entries l), Function.comp_apply]

/-- The writes of a longer history. -/
lemma mem_writes_append :
    w ∈ writes (log ++ l) ↔
      w ∈ writes log ∨ ∃ p ∈ entries l, writeOf (log ++ p.1, p.2) = some w := by
  simp only [writes, entries_append, List.filterMap_append, List.mem_append, List.filterMap_map,
    List.mem_filterMap (l := entries l), Function.comp_apply]

lemma mem_of_mem_entries {p : List Obs × Obs} (h : p ∈ entries l) : p.2 ∈ l := by
  obtain ⟨after, rfl⟩ := mem_entries.mp h
  exact List.mem_append_right _ List.mem_cons_self

/-- A message lies in its queue's stream. -/
lemma placed_of_mem_chats (h : m ∈ chats log) :
    (m.start, m.frame) ∈ placed 0 (Ledger.frames m.queue (moves log)) := by
  obtain ⟨⟨before, o⟩, hentry, hchat⟩ := List.mem_filterMap.mp h
  obtain ⟨after, rfl⟩ := mem_entries.mp hentry
  obtain ⟨v, ho, hstart, -⟩ := chatOf_eq_some hchat
  dsimp only at ho hstart
  rw [ho, hstart, moves_append]
  exact Ledger.placed_of_put (moves before) (moves after) m.queue _ m.frame

/-- What a write took has been taken. -/
lemma end_le_of_mem_writes (h : w ∈ writes log) :
    w.start + w.bytes.length ≤ Ledger.taken w.queue (moves log) := by
  obtain ⟨⟨before, o⟩, hentry, hwrite⟩ := List.mem_filterMap.mp h
  obtain ⟨after, rfl⟩ := mem_entries.mp hentry
  obtain ⟨ho, hstart, -⟩ := writeOf_eq_some hwrite
  dsimp only at ho hstart
  have hmoves : moves (before ++ o :: after) =
      moves before ++ [.take w.queue w.conn w.bytes] ++ moves after := by
    rw [ho, moves_append, List.append_assoc]
    rfl
  rw [hmoves, Ledger.taken_append, Ledger.taken_append, Ledger.taken_take, if_pos rfl, hstart]
  exact Nat.le_add_right _ _

end Entries

/-! ## Connections that stay open -/

/-- The event closes the connection. -/
def Closes (s : State) : Event → ConnId → Prop
  | .hangup fd, c => pickConn s fd = some c
  | .eof fd, c => pickConn s fd = some c
  | .request .logout, c => s.serving = some c ∧ isUserLoggedIn s (s.conn c).user = true
  | _, _ => False

section IsOpen

variable {s t : State} {d : ConnId}

lemma isOpen_congr (hsock : t.sock = s.sock) (hfd : (t.conn d).fd = (s.conn d).fd) :
    t.IsOpen d ↔ s.IsOpen d := by
  unfold State.IsOpen
  rw [hsock, hfd]

lemma isOpen_of_sessions (h : t.sessions = s.sessions) : t.IsOpen d ↔ s.IsOpen d := by
  have hsock : t.sessions.sock = s.sessions.sock := by rw [h]
  have hfd : (t.sessions.conn d).fd = (s.sessions.conn d).fd := by rw [h]
  exact isOpen_congr hsock hfd

lemma isOpen_of_unbind {u : Option UserId} (h : t.sessions = unbind s.sessions u) :
    t.IsOpen d ↔ s.IsOpen d := by
  have hsock : t.sessions.sock = s.sock := by
    rw [h, sock_unbind]
    rfl
  have hfd : (t.sessions.conn d).fd = (s.conn d).fd := by
    rw [h, fd_unbind]
    rfl
  exact isOpen_congr hsock hfd

lemma isOpen_updateLastActive (s : State) (c d : ConnId) :
    (updateLastActive s c).IsOpen d ↔ s.IsOpen d :=
  isOpen_congr (sock_updateLastActive s c) (by rw [conn_updateLastActive])

lemma isOpen_timeThread (s : State) (d : ConnId) : (timeThread ac s).IsOpen d ↔ s.IsOpen d := by
  unfold timeThread
  generalize s.clients = l
  induction l generalizing s with
  | nil => exact Iff.rfl
  | cons c l ih =>
      refine (ih _).trans ?_
      unfold sweepClient
      split
      · refine isOpen_of_unbind (u := (s.conn c).user) ?_
        rw [sendResponseToClient_eq, sessions_deliver, sessions_logoutUser]
      · exact Iff.rfl

/-- Closing a connection leaves the other descriptors open. -/
lemma isOpen_closeSocket {c : ConnId} (hopen : s.IsOpen d) (hfd : (s.conn d).fd ≠ (s.conn c).fd) :
    (closeSocket ac s c).IsOpen d := by
  have hsock : (closeSocket ac s c).sessions.sock =
      Function.update s.sock (s.conn c).fd none := by
    rw [sessions_closeSocket]
    show Function.update (unbind s.sessions _).sock _ _ = _
    rw [sock_unbind]
    rfl
  have hsame : ((closeSocket ac s c).sessions.conn d).fd = (s.conn d).fd := by
    rw [sessions_closeSocket]
    exact fd_unbind s.sessions _ d
  show (closeSocket ac s c).sessions.sock ((closeSocket ac s c).sessions.conn d).fd = some d
  rw [hsock, hsame, Function.update_of_ne hfd]
  exact hopen

lemma isOpen_serve (hs : TableOk s) {c : ConnId} (hserving : s.serving = some c) {req : Request}
    (hopen : s.IsOpen d) (hother : ∀ c, Closes s (.request req) c → c ≠ d) :
    (serve ac s c req).IsOpen d := by
  rcases sessions_serve_cases ac s c req with
    h | h | ⟨r, u, rfl, haccepted, -⟩ | ⟨rfl, hlive, h⟩
  · exact (isOpen_of_sessions h).mpr hopen
  · rw [← sessions_updateLastActive] at h
    exact (isOpen_of_sessions h).mpr ((isOpen_updateLastActive s c d).mpr hopen)
  · exact (isOpen_serve_accepted ac haccepted d).mpr hopen
  · rw [← sessions_updateLastActive] at h
    refine (isOpen_of_sessions h).mpr ((isOpen_updateLastActive _ c d).mpr ?_)
    have hne : c ≠ d := hother c ⟨hserving, hlive⟩
    refine isOpen_closeSocket ac hopen fun hfd => ?_
    -- nobody else has the descriptor of the connection that is served
    have hsock : s.sock (s.conn d).fd = some d := hopen
    rcases (hs.serving_ok c hserving).2 with hown | hnone
    · rw [← hfd, hsock] at hown
      exact hne (Option.some.inj hown).symm
    · rw [← hfd, hsock] at hnone
      cases hnone

/-- **An open connection stays open** in an event that does not close it. -/
lemma isOpen_exec (hs : TableOk s) {e : Event} (henabled : enabled s e) (hopen : s.IsOpen d)
    (hother : ∀ c, Closes s e c → c ≠ d) : (exec ac s e).IsOpen d := by
  have hclose : ∀ fd c, s.sock fd ≠ none → pickConn s fd = some c → c ≠ d →
      (closeSocket ac s c).IsOpen d := fun fd c hfd hpick hne =>
    isOpen_closeSocket ac hopen fun hsame =>
      hne ((hs.isOpen_of_pickConn hfd hpick).eq_of_fd hopen hsame.symm)
  cases e with
  | accept fd addr =>
      have hfd : (s.conn d).fd ≠ fd := by
        rintro rfl
        have hsock : s.sock (s.conn d).fd = some d := hopen
        rw [henabled.2] at hsock
        cases hsock
      show (acceptClient s fd addr).sock ((acceptClient s fd addr).conn d).fd = some d
      rw [sock_acceptClient, conn_acceptClient,
        Function.update_of_ne (hs.lt_of_isOpen hopen).ne, Function.update_of_ne hfd]
      exact hopen
  | hangup fd | eof fd =>
      rw [exec]
      cases hpick : pickConn s fd with
      | none => exact hopen
      | some c => exact hclose fd c henabled.2 hpick (hother c hpick)
  | readable fd => exact hopen
  | request req =>
      rw [exec]
      cases hserving : s.serving with
      | none => exact hopen
      | some c => exact isOpen_serve ac hs hserving hopen hother
  | readDone => exact hopen
  | writable fd n₁ n₂ =>
      rw [exec]
      cases hpick : pickConn s fd with
      | none => exact hopen
      | some c => exact (isOpen_iff_of_core (core_networkWritable s c n₁ n₂) d).mpr hopen
  | tick seconds => exact hopen
  | sweep => exact (isOpen_timeThread ac s d).mpr hopen

end IsOpen

end EpollChat

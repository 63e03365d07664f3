import EpollChat.Construction.Demo
import EpollChat.Properties.Messages

/-!
# No lost or duplicated message

An accepted chat message should be somewhere, and only there: written as a whole to a connection
of its recipient, or held, as a whole or with its head written, in a queue that is still going to
be drained to him.

Messages are lost where a connection is closed: `close_socket` and `pick_client` let go of the
outbuffer with whatever is in it.  A login pipelined behind a logout binds its user to a
connection that is closed already, and the messages for him go there.  And the offline buffer is
drained to whatever connection names the user, a frame at a time or not, so that a message can be
divided between two connections or written to one that a later login has left behind.
`KeepsChat` is the condition that none of this happens, and under it every message is in exactly
one place (`chat_kept_run`).
-/

namespace EpollChat

variable (ac : Achelper)

/-! ## Where a message is -/

/-- The queue is still going to be drained: an offline buffer, or the outbuffer of an open
connection. -/
def State.Served (s : State) : Queue → Prop
  | .out c => s.IsOpen c
  | .offline _ => True

instance (s : State) (q : Queue) : Decidable (s.Served q) :=
  match q with
  | .out c => inferInstanceAs (Decidable (s.IsOpen c))
  | .offline _ => .isTrue trivial

/-- The queue is the recipient's: his offline buffer, or the outbuffer of the connection that
his session was on when the message was queued. -/
def ChatMessage.Addressed (m : ChatMessage) : Prop :=
  m.queue = .offline m.recipient ∨ ∃ c, m.queue = .out c ∧ m.session = some c

/-- The message was written as a whole, once, to one connection and no other, and the recipient's
session was on that connection when the message was queued or whenever bytes of it were
written. -/
def Delivered (s : State) (m : ChatMessage) : Prop :=
  ∃ c, (∀ d, Ledger.received m.queue m.start m.frame.length d (moves s.log) =
      if d = c then cells m.queue m.start m.frame else []) ∧
    (m.session = some c ∨
      ∀ w ∈ writes s.log, w.conn = c → w.Carries m → w.session m.recipient = some c)

/-- What has not been written of the message is in a queue of the recipient that is going to be
drained, once and at its place, and what has been written of it is on one connection. -/
structure Held (s : State) (m : ChatMessage) : Prop where
  unsent : m.rest s.log ≠ []
  head : ∃ c, Ledger.WrittenTo m.queue m.start m.frame c (moves s.log)
  tail : ∃ pre post, s.pending m.queue = pre ++ m.rest s.log ++ post ∧
    pre.length = m.start - Ledger.taken m.queue (moves s.log)
  addressed : m.Addressed
  served : s.Served m.queue

/-! ## The condition -/

/-- No message waits in the outbuffer of the connection. -/
def NoUnsentChat (s : State) (c : ConnId) : Prop :=
  ∀ m ∈ chats s.log, m.queue = .out c → m.rest s.log = []

instance (s : State) (c : ConnId) : Decidable (NoUnsentChat s c) := by
  unfold NoUnsentChat
  infer_instance

instance (s : State) (u : UserId) (req : MessageRequest) (v : UserId) :
    Decidable (Addressed s u req v) := by
  unfold Addressed
  infer_instance

/-- The write goes to a connection that the recipient's session is on, or was on when the
message was queued. -/
def Write.Reaches (w : Write) (m : ChatMessage) : Prop :=
  m.session = some w.conn ∨ w.session m.recipient = some w.conn

instance (w : Write) (m : ChatMessage) : Decidable (w.Reaches m) := by
  unfold Write.Reaches
  infer_instance

/-- The write that a `send` from a queue amounts to. -/
def sendOf (s : State) (c : ConnId) (q : Queue) (n : Option ℕ) : Write where
  queue := q
  start := Ledger.taken q (moves s.log)
  conn := c
  bytes := sentBytes s q n
  session u := (s.users u).client

/-- The `send` keeps messages together and reaches their recipients. -/
def KeepsTogether (s : State) (c : ConnId) (q : Queue) (n : Option ℕ) : Prop :=
  Ledger.Continues (moves s.log) q c (sentBytes s q n) ∧
    ∀ m ∈ chats s.log, (sendOf s c q n).Carries m → (sendOf s c q n).Reaches m

instance (s : State) (c : ConnId) (q : Queue) (n : Option ℕ) :
    Decidable (KeepsTogether s c q n) := by
  unfold KeepsTogether
  infer_instance

/-- The condition on an event that it loses and divides no message.  A connection is closed only
when no message waits in its outbuffer, a message is accepted only for recipients who are not
bound to closed connections, and the offline buffer is drained to connections of its user and
without dividing a frame between two of them. -/
def KeepsChat (s : State) : Event → Prop
  | .hangup fd => ∀ c ∈ pickConn s fd, NoUnsentChat s c
  | .eof fd => ∀ c ∈ pickConn s fd, NoUnsentChat s c
  | .request .logout =>
      ∀ c ∈ s.serving, isUserLoggedIn s (s.conn c).user = true → NoUnsentChat s c
  | .request (.message req) =>
      ∀ c ∈ s.serving, ∀ u ∈ (s.conn c).user, isUserLoggedIn s (some u) = true →
        ∀ v ∈ s.first, Addressed s u req v → hasBlockedUser s v u = false →
          s.Served (sendTarget s v)
  | .writable fd _ n₂ =>
      ∀ c ∈ pickConn s fd, ∀ u ∈ inlineTest s c, KeepsTogether s c (.offline u) n₂
  | _ => True

instance (s : State) (e : Event) : Decidable (KeepsChat s e) :=
  match e with
  | .hangup fd | .eof fd => inferInstanceAs (Decidable (∀ c ∈ pickConn s fd, NoUnsentChat s c))
  | .request .logout =>
      inferInstanceAs (Decidable (∀ c ∈ s.serving,
        isUserLoggedIn s (s.conn c).user = true → NoUnsentChat s c))
  | .request (.message req) => by
      dsimp only [KeepsChat]
      infer_instance
  | .writable fd _ n₂ =>
      inferInstanceAs (Decidable (∀ c ∈ pickConn s fd, ∀ u ∈ inlineTest s c,
        KeepsTogether s c (.offline u) n₂))
  | .request (.login _) | .request (.block _) | .request (.unblock _) | .request (.whoelse _)
  | .request (.getip _) | .request (.regfile _) | .request (.regchunk _)
  | .request (.searchfile _) | .request (.unknown _) | .accept .. | .readable _ | .readDone
  | .tick _ | .sweep => .isTrue trivial

lemma noUnsentChat_of_closes {s : State} {e : Event} (h : KeepsChat s e) {c : ConnId}
    (hclose : Closes s e c) : NoUnsentChat s c := by
  cases e with
  | hangup fd => exact h c hclose
  | eof fd => exact h c hclose
  | request req =>
      cases req with
      | logout => exact h c hclose.1 hclose.2
      | _ => exact hclose.elim
  | _ => exact hclose.elim

/-! ## The invariant -/

/-- **Messages are kept.**  No frame is divided, a message is in a queue of its recipient, the
queue is drained as long as there is something left of the message, and whatever was written of
it was written to a connection of the recipient. -/
structure ChatsKept (s : State) : Prop where
  undivided : Ledger.Undivided (moves s.log)
  addressed : ∀ m ∈ chats s.log, m.Addressed
  served : ∀ m ∈ chats s.log, m.rest s.log ≠ [] → s.Served m.queue
  reached : ∀ w ∈ writes s.log, ∀ m ∈ chats s.log, w.Carries m → w.Reaches m

/-- The whole message has been taken, or there is some left. -/
lemma rest_eq_nil_iff {m : ChatMessage} {log : List Obs} :
    m.rest log = [] ↔ m.frame.length ≤ Ledger.taken m.queue (moves log) - m.start :=
  List.drop_eq_nil_iff

/-- Of what was delivered there is nothing left. -/
lemma Delivered.rest_eq_nil {s : State} {m : ChatMessage} (h : Delivered s m) :
    m.rest s.log = [] := by
  obtain ⟨c, hwhole, -⟩ := h
  have hc := hwhole c
  rw [if_pos rfl] at hc
  rw [rest_eq_nil_iff]
  by_cases hframe : m.frame = []
  · simp [hframe]
  · -- the last byte of the frame is on the connection, so it has been taken
    obtain ⟨init, b, hb⟩ := (List.eq_nil_or_concat m.frame).resolve_left hframe
    have hlast : (⟨m.queue, m.start + init.length, b⟩ : Cell Queue UInt8) ∈
        cells m.queue m.start m.frame := by
      rw [hb, List.concat_eq_append, cells_append, cells_cons]
      exact List.mem_append_right _ List.mem_cons_self
    rw [← hc] at hlast
    have hlt := Ledger.pos_lt_of_mem_wire (List.mem_of_mem_filter hlast)
    dsimp only at hlt
    rw [hb, List.length_concat]
    omega

/-- What is held has not been delivered. -/
lemma Held.not_delivered {s : State} {m : ChatMessage} (h : Held s m) : ¬ Delivered s m :=
  fun hdelivered => h.unsent hdelivered.rest_eq_nil

/-- **Every message is in exactly one place.** -/
lemma ChatsKept.xor {s : State} (h : ChatsKept s) (hacc : Accounted s) {m : ChatMessage}
    (hm : m ∈ chats s.log) : Xor (Delivered s m) (Held s m) := by
  have hplaced := placed_of_mem_chats hm
  obtain ⟨c, hwritten, -⟩ := h.undivided m.queue _ hplaced
  dsimp only at hwritten
  by_cases hrest : m.rest s.log = []
  · have hlen := rest_eq_nil_iff.mp hrest
    refine .inl ⟨⟨c, fun d => ?_, or_iff_not_imp_left.mpr fun hsession w hw hconn hcarries => ?_⟩,
      fun hheld => hheld.unsent hrest⟩
    · rw [hwritten d, List.take_of_length_le hlen]
    · rcases h.reached w hw m hm hcarries with hq | hw'
      · exact absurd (hconn ▸ hq) hsession
      · exact hconn ▸ hw'
  · have hheld : Held s m := by
      have hlt : Ledger.taken m.queue (moves s.log) < m.start + m.frame.length := by
        have hlt' := not_le.mp fun hle => hrest (rest_eq_nil_iff.mpr hle)
        omega
      obtain ⟨pre, post, hcontents, hpre⟩ := Ledger.contents_of_placed hplaced hlt
      refine ⟨hrest, ⟨c, hwritten⟩, ⟨pre, post, ?_, hpre⟩, h.addressed m hm, h.served m hm hrest⟩
      rw [← hacc.contents, hcontents]
      rfl
    exact .inr ⟨hheld, hheld.not_delivered⟩

/-! ## Adding -/

/-- An accepted message, when it is queued. -/
lemma chat_of_emits {s : State} {e : Event} {q : Queue} {v u : UserId} {f : Bytes}
    (h : Emits ac s e (.move (.put q (.chat v u) f))) :
    ∃ req c, e = .request (.message req) ∧ s.serving = some c ∧ (s.conn c).user = some u ∧
      isUserLoggedIn s (some u) = true ∧ Addressed s u req v ∧ hasBlockedUser s v u = false ∧
        q = sendTarget s v := by
  cases h with
  | chat req c _ _ serves own live addressed heard =>
      exact ⟨req, c, rfl, serves, own, live, addressed, heard, rfl⟩

/-- A message request only moves frames. -/
lemma isMove_of_emits_message {s : State} {req : MessageRequest} {o : Obs}
    (h : Emits ac s (.request (.message req)) o) : o.isMove = true := by
  cases h with
  | reply => rfl
  | chat => rfl
  | logout _ u c ends => exact ends.elim
  | loggedOut _ u v d rsp ends => exact ends.elim

/-- Who is addressed is in the list of users. -/
lemma mem_first_of_addressed {s : State} (hs : TableOk s) {u v : UserId} {req : MessageRequest}
    (h : Addressed s u req v) : v ∈ s.first := by
  unfold Addressed at h
  split at h
  · exact h.1
  · exact hs.find_known _ v h

/-- A new message is in the recipient's queue, which is served. -/
lemma new_chat {s s' : State} (hs : TableOk s) (hlogged : SessionsLogged s) {e : Event}
    (hok : KeepsChat s e) {l : List Obs} (hemits : ∀ o ∈ l, Emits ac s e o)
    {p : List Obs × Obs} (hp : p ∈ entries l) {m : ChatMessage}
    (hm : chatOf (s.log ++ p.1, p.2) = some m)
    (hopen : ∀ d, s.IsOpen d → (∀ c, Closes s e c → c ≠ d) → s'.IsOpen d) :
    m.Addressed ∧ s'.Served m.queue := by
  obtain ⟨u, ho, -, hsession⟩ := chatOf_eq_some hm
  have hemit := hemits _ (mem_of_mem_entries hp)
  dsimp only at ho hsession
  rw [ho] at hemit
  obtain ⟨req, c, rfl, hserving, hown, hlive, haddressed, hheard, hqueue⟩ := chat_of_emits ac hemit
  have hserved := hok c hserving u hown hlive _ (mem_first_of_addressed hs haddressed)
    haddressed hheard
  -- the session is the one there is, since a message request only moves frames
  have hbefore : ∀ o ∈ p.1, o.isMove = true := by
    intro o hmem
    obtain ⟨after, rfl⟩ := mem_entries.mp hp
    exact isMove_of_emits_message ac (hemits o (List.mem_append_left _ hmem))
  rw [sessionOf_append_moves hbefore, hlogged] at hsession
  rw [← hqueue] at hserved
  cases hq : m.queue with
  | out d =>
      rw [hq] at hqueue hserved
      obtain ⟨hclient, -⟩ := sendTarget_eq_out hqueue.symm
      refine ⟨.inr ⟨d, hq, hsession.trans hclient⟩, hopen d hserved fun c hclose => ?_⟩
      exact hclose.elim
  | offline v =>
      rw [hq] at hqueue
      obtain ⟨rfl, -⟩ := sendTarget_eq_offline hqueue.symm
      exact ⟨.inl hq, trivial⟩

/-- What only adds keeps the messages. -/
lemma ChatsKept.adds {s s' : State} (hs : TableOk s) (hacc : Accounted s)
    (hlogged : SessionsLogged s) (h : ChatsKept s) {e : Event} (hok : KeepsChat s e)
    {l : List Obs} (hl : Queues s s' l) (hemits : ∀ o ∈ l, Emits ac s e o)
    (hopen : ∀ d, s.IsOpen d → (∀ c, Closes s e c → c ≠ d) → s'.IsOpen d) : ChatsKept s' := by
  have hputs := hl.onlyPuts
  have htaken : ∀ q, Ledger.taken q (moves s'.log) = Ledger.taken q (moves s.log) := by
    intro q
    rw [hl.log, moves_append, Ledger.taken_append, hputs.taken, Nat.add_zero]
  have hrest : ∀ m : ChatMessage, m.rest s'.log = m.rest s.log := by
    intro m
    rw [ChatMessage.rest, ChatMessage.rest, htaken]
  -- a message is an old or a new one
  have hchats : ∀ m ∈ chats s'.log, m ∈ chats s.log ∨
      Ledger.taken m.queue (moves s.log) ≤ m.start ∧ m.Addressed ∧ s'.Served m.queue := by
    intro m hm
    rw [hl.log] at hm
    refine (mem_chats_append.mp hm).imp id ?_
    rintro ⟨p, hp, hnew⟩
    refine ⟨?_, new_chat ac hs hlogged hok hemits hp hnew hopen⟩
    obtain ⟨-, -, hstart, -⟩ := chatOf_eq_some hnew
    dsimp only at hstart
    rw [hstart, moves_append, Ledger.stream_append, List.length_append]
    exact Nat.le_add_right_of_le (hacc.valid.taken_le m.queue)
  have hwrites : ∀ w ∈ writes s'.log, w ∈ writes s.log := by
    intro w hw
    rw [hl.log] at hw
    refine (mem_writes_append.mp hw).resolve_right ?_
    rintro ⟨p, hp, hnew⟩
    obtain ⟨ho, -, -⟩ := writeOf_eq_some hnew
    have hmem := mem_of_mem_entries hp
    dsimp only at ho
    rw [ho] at hmem
    exact hl.no_take _ _ _ hmem
  refine ⟨?_, fun m hm => ?_, fun m hm hunsent => ?_, fun w hw m hm hcarries => ?_⟩
  · rw [hl.log, moves_append]
    have hboth := hputs.keeps (P := fun ms => Ledger.Valid ms ∧ Ledger.Undivided ms)
      (fun ms q t f hms => ⟨.put q t f hms.1, Ledger.undivided_put hms.1 hms.2 q t f⟩)
      ⟨hacc.valid, h.undivided⟩
    exact hboth.2
  · exact (hchats m hm).elim (h.addressed m) fun hnew => hnew.2.1
  · rw [hrest] at hunsent
    rcases hchats m hm with hm | hnew
    · have hserved := h.served m hm hunsent
      cases hq : m.queue with
      | offline u => trivial
      | out d =>
          rw [hq] at hserved
          refine hopen d hserved fun c hclose hcd => hunsent ?_
          exact noUnsentChat_of_closes hok hclose m hm (by rw [hq, hcd])
    · exact hnew.2.2
  · rcases hchats m hm with hm | ⟨hstart, -⟩
    · exact h.reached w (hwrites w hw) m hm hcarries
    · -- a new message lies behind everything that was written
      have hend := end_le_of_mem_writes (hwrites w hw)
      obtain ⟨hq, hlt⟩ := hcarries
      rw [hq] at hend
      omega

/-! ## Draining -/

lemma served_of_core {s t : State} (hcore : t.core = s.core) {q : Queue} (h : s.Served q) :
    t.Served q := by
  cases q with
  | offline u => trivial
  | out d => exact (isOpen_iff_of_core hcore d).mpr h

/-- What leaves the history and the core alone keeps the messages. -/
lemma ChatsKept.of_core {s t : State} (h : ChatsKept s) (hlog : t.log = s.log)
    (hcore : t.core = s.core) : ChatsKept t := by
  refine ⟨hlog ▸ h.undivided, hlog ▸ h.addressed, fun m hm hunsent => ?_, ?_⟩
  · rw [hlog] at hm hunsent
    exact served_of_core hcore (h.served m hm hunsent)
  · rw [hlog]
    exact h.reached

/-- Draining adds no message. -/
lemma chats_imSendBuffer {s : State} {c : ConnId} {q : Queue} {n : Option ℕ} {m : ChatMessage}
    (hm : m ∈ chats (imSendBuffer s c q n).log) : m ∈ chats s.log := by
  rcases log_imSendBuffer s c q n with hlog | ⟨hlog, -⟩ <;> rw [hlog] at hm
  · refine (mem_chats_append.mp hm).resolve_right ?_
    rintro ⟨p, hp, hnew⟩
    obtain rfl := List.mem_singleton.mp hp
    cases hnew
  · exact hm

/-- A `send` that keeps messages together keeps them. -/
lemma chatsKept_imSendBuffer {s : State} (hacc : Accounted s) (hlogged : SessionsLogged s)
    (h : ChatsKept s) {c : ConnId} {q : Queue} {n : Option ℕ} (hkeeps : KeepsTogether s c q n) :
    ChatsKept (imSendBuffer s c q n) := by
  have hcore := core_imSendBuffer s c q n
  rcases log_imSendBuffer s c q n with hlog | ⟨hlog, -⟩
  · obtain ⟨hcontinues, hreach⟩ := hkeeps
    have hpre : sentBytes s q n <+: Ledger.contents q (moves s.log) := by
      rw [hacc.contents]
      exact List.take_prefix _ _
    refine ⟨?_, fun m hm => h.addressed m (chats_imSendBuffer hm), fun m hm hunsent => ?_,
      fun w hw m hm hcarries => ?_⟩
    · rw [hlog, moves_append, moves_move]
      exact Ledger.undivided_take h.undivided hpre hcontinues
    · have hunsent' : m.rest s.log ≠ [] := by
        intro hnil
        rw [rest_eq_nil_iff] at hnil
        refine hunsent (rest_eq_nil_iff.mpr (hnil.trans ?_))
        rw [hlog, moves_append, Ledger.taken_append]
        omega
      exact served_of_core hcore (h.served m (chats_imSendBuffer hm) hunsent')
    · rw [hlog] at hw
      rcases mem_writes_append.mp hw with hw | ⟨p, hp, hnew⟩
      · exact h.reached w hw m (chats_imSendBuffer hm) hcarries
      · obtain rfl := List.mem_singleton.mp hp
        have hw : w = sendOf s c q n := by
          rw [sendOf, ← funext hlogged]
          simpa [writeOf] using hnew.symm
        subst hw
        exact hreach m (chats_imSendBuffer hm) hcarries
  · exact h.of_core hlog hcore

/-- The outbuffer is drained to the connection it belongs to. -/
lemma keepsTogether_out {s : State} (hacc : Accounted s) (h : ChatsKept s) (c : ConnId)
    (n : Option ℕ) : KeepsTogether s c (.out c) n := by
  refine ⟨Ledger.continues_of_own (hacc.own c) _, fun m hm hcarries => .inl ?_⟩
  have hq : m.queue = .out c := hcarries.1.symm
  rcases h.addressed m hm with hoffline | ⟨d, hout, hsession⟩
  · rw [hq] at hoffline
    cases hoffline
  · obtain rfl : c = d := by
      rw [hq] at hout
      injection hout
    exact hsession

/-- Draining another queue before makes no difference. -/
lemma KeepsTogether.other {s : State} {c : ConnId} {q q' : Queue} {n n' : Option ℕ}
    (hsent : sendResult (s.pending q).length n) (hq : q ≠ q') (h : KeepsTogether s c q' n') :
    KeepsTogether (imSendBuffer s c q n) c q' n' := by
  have hbytes : sentBytes (imSendBuffer s c q n) q' n' = sentBytes s q' n' := by
    rw [sentBytes, sentBytes, pending_imSendBuffer s c q n hsent, if_neg (Ne.symm hq)]
  have htaken : Ledger.taken q' (moves (imSendBuffer s c q n).log) =
      Ledger.taken q' (moves s.log) := by
    rcases log_imSendBuffer s c q n with hlog | ⟨hlog, -⟩ <;> rw [hlog]
    rw [moves_append, moves_move, Ledger.taken_append, Ledger.taken_take, if_neg hq, Nat.add_zero]
  have hsend : sendOf (imSendBuffer s c q n) c q' n' = sendOf s c q' n' := by
    have hclient : (fun u => ((imSendBuffer s c q n).users u).client) =
        fun u => (s.users u).client :=
      funext fun u => client_eq_of_core (core_imSendBuffer s c q n) u
    rw [sendOf, sendOf, hbytes, htaken, hclient]
  obtain ⟨hcontinues, hreach⟩ := h
  refine ⟨?_, fun m hm => ?_⟩
  · rw [hbytes]
    rcases log_imSendBuffer s c q n with hlog | ⟨hlog, -⟩ <;> rw [hlog]
    · rw [moves_append, moves_move]
      exact hcontinues.take_of_ne hq c _
    · exact hcontinues
  · rw [hsend]
    exact hreach m (chats_imSendBuffer hm)

lemma KeepsTogether.lock {s : State} {c : ConnId} {q : Queue} {n : Option ℕ}
    (h : KeepsTogether s c q n) (d : ConnId) : KeepsTogether (s.lock d) c q n := by
  have hbytes : sentBytes (s.lock d) q n = sentBytes s q n := by
    rw [sentBytes, sentBytes, State.pending_lock]
  have hsend : sendOf (s.lock d) c q n = sendOf s c q n := by
    rw [sendOf, sendOf, hbytes, State.log_lock, State.users_lock]
  unfold KeepsTogether
  rw [State.log_lock, hbytes, hsend]
  exact h

/-- Draining ends no session. -/
lemma sessionsLogged_imSendBuffer {s : State} (h : SessionsLogged s) (c : ConnId) (q : Queue)
    (n : Option ℕ) : SessionsLogged (imSendBuffer s c q n) := by
  intro u
  rw [client_eq_of_core (core_imSendBuffer s c q n), ← h u]
  rcases log_imSendBuffer s c q n with hlog | ⟨hlog, -⟩ <;> rw [hlog]
  exact sessionOf_append u s.log _

lemma chatsKept_networkWritable {s : State} (hacc : Accounted s) (hlogged : SessionsLogged s)
    (h : ChatsKept s) {c : ConnId} {n₁ n₂ : Option ℕ} (hresults : DrainResults s c n₁ n₂)
    (hkeeps : ∀ u ∈ inlineTest s c, KeepsTogether s c (.offline u) n₂) :
    ChatsKept (networkWritable s c n₁ n₂) := by
  have hlock : ChatsKept (s.lock c) := h.of_core (State.log_lock s c) (State.core_lock s c)
  have hlogged' : SessionsLogged (s.lock c) := by
    intro u
    rw [State.log_lock, State.users_lock]
    exact hlogged u
  have hfirst : ChatsKept (afterFirst s c n₁) :=
    chatsKept_imSendBuffer (hacc.lock c) hlogged' hlock
      (keepsTogether_out (hacc.lock c) hlock c n₁)
  rw [networkWritable_eq]
  refine ChatsKept.of_core (s := drainOffline s c n₂ (afterFirst s c n₁)) ?_ rfl rfl
  unfold drainOffline
  cases hu : inlineTest s c with
  | none => exact hfirst
  | some u =>
      have hsent : sendResult ((s.lock c).pending (.out c)).length n₁ := by
        rw [State.pending_lock]
        exact hresults.1
      have hsecond : KeepsTogether (afterFirst s c n₁) c (.offline u) n₂ :=
        ((hkeeps u hu).lock c).other hsent (by simp)
      exact chatsKept_imSendBuffer (accounted_afterFirst hacc hresults)
        (sessionsLogged_imSendBuffer hlogged' c _ n₁) hfirst hsecond

/-! ## All runs -/

lemma chatsKept_run {p : Setup} {es : List Event} {s : State}
    (run : ServerRun ac p KeepsChat es s) : ChatsKept s := by
  refine run.invariant_of (P := ChatsKept)
    (Q := fun s => TableOk s ∧ Accounted s ∧ SessionsLogged s) ?_
    (fun run => ⟨tableOk_run ac run, accounted_run ac run, sessionsLogged_run ac run⟩) ?_
  · have hlog := (loaded_init p).log
    refine ⟨?_, ?_, ?_, ?_⟩ <;> rw [hlog]
    · intro q x hx
      cases hx
    all_goals
      intro x hx
      cases hx
  · rintro s e s' ⟨hs, hacc, hlogged⟩ h hok hstep
    obtain ⟨henabled, -, rfl⟩ := (step_eq_some ac).mp hstep
    rcases exec_cases ac hs.server hacc.pending_fresh e with
      ⟨l, hl, hemits⟩ | ⟨fd, n₁, n₂, c, rfl, hpick, hexec⟩
    · exact h.adds ac hs hacc hlogged hok hl hemits fun d hopen hother =>
        isOpen_exec ac hs henabled hopen hother
    · obtain ⟨-, -, -, hresults⟩ := henabled
      rw [hexec]
      exact chatsKept_networkWritable hacc hlogged h (hresults c hpick) (hok c hpick)

/-- **No lost or duplicated message**, in every run that closes a connection only when no message
waits in its outbuffer, accepts no message for a user bound to a closed connection, and drains an
offline buffer to its user and without dividing a frame between two connections: every accepted
message is either written as a whole, once, to a connection of its recipient, or held once in a
queue of his. -/
theorem chat_kept_run {p : Setup} {es : List Event} {s : State}
    (run : ServerRun ac p KeepsChat es s) :
    ∀ m ∈ chats s.log, Xor (Delivered s m) (Held s m) :=
  fun _ hm => (chatsKept_run ac run).xor (accounted_run ac run) hm

/-- A message to yoda, who is not there, is written to him in two parts after his login.  Of
another one the head is written. -/
theorem chat_kept_demo :
    ∃ s, ServerRun protobufWire demo KeepsChat
        (acceptAndServe 5 [loginAs "hans" "falcon", messageTo "yoda" "hi"] ++
          acceptAndServe 6 [loginAs "yoda" "wise"] ++
          [.writable 6 (some 3) (some 12), .writable 6 (some 18) (some 4)] ++
          [.readable 5, .request (messageTo "yoda" "you there"), .readDone,
            .writable 6 (some 5) none]) s ∧
      ∃ m₁ ∈ chats s.log, ∃ m₂ ∈ chats s.log, Delivered s m₁ ∧ Held s m₂ := by
  obtain ⟨s, run, m₁, hm₁, m₂, hm₂, hrest₁, hrest₂⟩ := Run.exists_of_execute (step protobufWire)
    KeepsChat demo.init
    (acceptAndServe 5 [loginAs "hans" "falcon", messageTo "yoda" "hi"] ++
      acceptAndServe 6 [loginAs "yoda" "wise"] ++
      [.writable 6 (some 3) (some 12), .writable 6 (some 18) (some 4)] ++
      [.readable 5, .request (messageTo "yoda" "you there"), .readDone,
        .writable 6 (some 5) none])
    (fun s => ∃ m₁ ∈ chats s.log, ∃ m₂ ∈ chats s.log, m₁.rest s.log = [] ∧ m₂.rest s.log ≠ [])
    (by decide +kernel)
  have hplace := chat_kept_run protobufWire run
  refine ⟨s, run, m₁, hm₁, m₂, hm₂, ?_, ?_⟩
  · exact (hplace m₁ hm₁).or.resolve_right fun hheld => hheld.unsent hrest₁
  · exact (hplace m₂ hm₂).or.resolve_left fun hdelivered => hrest₂ hdelivered.rest_eq_nil

/-- Yoda hangs up with a message in his outbuffer, and it is gone. -/
theorem not_chat_kept_hangup :
    ¬ ∀ (ac : Achelper) (p : Setup) (es : List Event) (s : State), ServerRun ac p Always es s →
      ∀ m ∈ chats s.log, Xor (Delivered s m) (Held s m) := by
  intro h
  obtain ⟨s, run, m, hm, hrest, hgone⟩ := Run.exists_of_execute (step protobufWire) Always
    demo.init
    (acceptAndServe 6 [loginAs "yoda" "wise"] ++
      acceptAndServe 5 [loginAs "hans" "falcon", messageTo "yoda" "hi"] ++ [.hangup 6])
    (fun s => ∃ m ∈ chats s.log, m.rest s.log ≠ [] ∧ ¬ s.Served m.queue) (by decide +kernel)
  rcases (h protobufWire demo _ s run m hm).or with hdelivered | hheld
  · exact hrest hdelivered.rest_eq_nil
  · exact hgone hheld.served

end EpollChat

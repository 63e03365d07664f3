import EpollChat.Framework.WriteOrder
import EpollChat.Properties.ChatDelivery

/-!
# The order of the messages of a conversation

What a user writes to another should be read in the order it was written.  `message` puts a
message into one of two kinds of queues, the offline buffer of the recipient or the outbuffer of
the connection that he is on, and each is first in, first out.  But between the two there is no
order: the `EPOLLOUT` branch drains the outbuffer first, with what has been queued since the login,
and the offline buffer after it, with what was queued before.

The order is kept as long as a message is not queued apart from an earlier one that is still to be
written (`KeepsOrder`, `in_order_run`).
-/

namespace EpollChat

variable (ac : Achelper)

/-! ## Conversations -/

/-- The message from `u` to `v` that an entry is, after the history before it. -/
def messageOf (u v : UserId) (p : List Obs × Obs) : Option ChatMessage :=
  match p.2 with
  | .move (.put _ (.chat recipient sender) _) =>
      if recipient = v ∧ sender = u then chatOf p else none
  | _ => none

/-- The messages from `u` to `v`, in the order they were accepted. -/
def conversation (u v : UserId) (log : List Obs) : List ChatMessage :=
  (entries log).filterMap (messageOf u v)

/-- The bytes of a message. -/
def ChatMessage.bytes (m : ChatMessage) : List (Cell Queue UInt8) := cells m.queue m.start m.frame

/-- The message was written as a whole, to connections of its recipient. -/
def Written (s : State) (m : ChatMessage) : Prop :=
  m.rest s.log = [] ∧ ∀ w ∈ writes s.log, w.Carries m → w.Reaches m

instance (s : State) (m : ChatMessage) : Decidable (Written s m) := by
  unfold Written
  infer_instance

/-- The first message was completely written before any byte of the second. -/
def CompleteBefore (s : State) (m₁ m₂ : ChatMessage) : Prop :=
  Ledger.Precedes (Ledger.output (moves s.log)) m₁.bytes m₂.bytes

instance (s : State) (m₁ m₂ : ChatMessage) : Decidable (CompleteBefore s m₁ m₂) := by
  unfold CompleteBefore
  infer_instance

/-- **The order of conversations.** Of two messages of one user to another, both written to
connections of the recipient, the one that was accepted first was completely written before any
byte of the other. -/
def InOrder (s : State) : Prop :=
  ∀ u v, (conversation u v s.log).Pairwise fun m₁ m₂ =>
    Written s m₁ → Written s m₂ → CompleteBefore s m₁ m₂

/-! ## The condition -/

/-- The queue that a message from `u` to `v` goes to has all the earlier ones that are still to
be written, if it is drained at all. -/
def NoneApart (s : State) (u v : UserId) : Prop :=
  s.Served (sendTarget s v) → ∀ m ∈ conversation u v s.log, m.rest s.log ≠ [] →
    s.Served m.queue → m.queue = sendTarget s v

instance (s : State) (u v : UserId) : Decidable (NoneApart s u v) := by
  unfold NoneApart
  infer_instance

/-- The condition on an event: a message is accepted only if no earlier one of its conversation
is still to be written from another queue. -/
def KeepsOrder (s : State) : Event → Prop
  | .request (.message req) =>
      ∀ c ∈ s.serving, ∀ u ∈ (s.conn c).user, isUserLoggedIn s (some u) = true →
        ∀ v ∈ s.first, Addressed s u req v → hasBlockedUser s v u = false → NoneApart s u v
  | _ => True

instance (s : State) (e : Event) : Decidable (KeepsOrder s e) :=
  match e with
  | .request (.message req) => by
      dsimp only [KeepsOrder]
      infer_instance
  | .request (.login _) | .request .logout | .request (.block _) | .request (.unblock _)
  | .request (.whoelse _) | .request (.getip _) | .request (.regfile _) | .request (.regchunk _)
  | .request (.searchfile _) | .request (.unknown _) | .accept .. | .hangup _ | .eof _
  | .readable _ | .readDone | .writable .. | .tick _ | .sweep => .isTrue trivial

/-! ## Messages of a conversation -/

section Conversation

variable {u v : UserId} {log l : List Obs} {m : ChatMessage}

lemma messageOf_eq_some {p : List Obs × Obs} (h : messageOf u v p = some m) :
    chatOf p = some m ∧ p.2 = .move (.put m.queue (.chat v u) m.frame) := by
  unfold messageOf at h
  split at h
  · next q recipient sender f ho =>
      split at h
      · next huv =>
          refine ⟨h, ?_⟩
          obtain ⟨u', hentry, -, -⟩ := chatOf_eq_some h
          rw [ho] at hentry
          injection hentry with hentry
          injection hentry with hq hwhy hf
          injection hwhy with hrecipient hsender
          rw [ho, hq, hf, huv.1, huv.2]
      · cases h
  · cases h

lemma mem_chats_of_conversation (h : m ∈ conversation u v log) : m ∈ chats log := by
  obtain ⟨p, hp, hm⟩ := List.mem_filterMap.mp h
  exact List.mem_filterMap.mpr ⟨p, hp, (messageOf_eq_some hm).1⟩

/-- A longer history has more messages. -/
lemma conversation_append : conversation u v (log ++ l) = conversation u v log ++
    (entries l).filterMap fun p => messageOf u v (log ++ p.1, p.2) := by
  rw [conversation, entries_append, List.filterMap_append, List.filterMap_map]
  rfl

/-- Of two messages in one queue the first lies before the second. -/
lemma conversation_positions (u v : UserId) (log : List Obs) :
    (conversation u v log).Pairwise fun m₁ m₂ =>
      m₁.queue = m₂.queue → m₁.start + m₁.frame.length ≤ m₂.start := by
  induction log using List.reverseRecOn with
  | nil => exact .nil
  | append_singleton log o ih =>
      rw [conversation_append, List.pairwise_append]
      refine ⟨ih, ?_, fun m₁ hm₁ m₂ hm₂ hq => ?_⟩
      · have hentries : entries [o] = [([], o)] := rfl
        rw [hentries, List.filterMap_cons, List.filterMap_nil]
        split
        · exact .nil
        · exact List.pairwise_singleton _ _
      · obtain ⟨p, hp, hm₂⟩ := List.mem_filterMap.mp hm₂
        obtain rfl := List.mem_singleton.mp hp
        obtain ⟨-, -, hstart, -⟩ := chatOf_eq_some (messageOf_eq_some hm₂).1
        have hend := end_le_of_placed (placed_of_mem_chats (mem_chats_of_conversation hm₁))
        rw [hq, Nat.zero_add] at hend
        dsimp only at hstart hend
        rw [hstart, List.append_nil]
        exact hend

end Conversation

/-! ## The invariant -/

/-- Of two messages of a conversation the second does not overtake the first. -/
inductive Ranked (s : State) (m₁ m₂ : ChatMessage) : Prop
  /-- They are in one queue. -/
  | queue (same : m₁.queue = m₂.queue)
  /-- The first is not completely written, and will not be. -/
  | lost (unwritten : m₁.rest s.log ≠ []) (closed : ¬ s.Served m₁.queue)
  /-- They are in order so far, and the first is completely written, or the second will not be. -/
  | settled (order : CompleteBefore s m₁ m₂) (later : m₁.rest s.log = [] ∨ ¬ s.Served m₂.queue)

/-- No message overtakes an earlier one of its conversation. -/
def Ordered (s : State) : Prop := ∀ u v, (conversation u v s.log).Pairwise (Ranked s)

/-- What was completely written has been taken. -/
lemma ChatMessage.bytes_subset {s : State} (hacc : Accounted s) {m : ChatMessage}
    (hm : m ∈ chats s.log) (hrest : m.rest s.log = []) :
    m.bytes ⊆ Ledger.output (moves s.log) := by
  rw [rest_eq_nil_iff] at hrest
  by_cases hframe : m.frame = []
  · simp [ChatMessage.bytes, hframe]
  · have hpos := List.length_pos_of_ne_nil hframe
    refine Ledger.cells_subset_output hacc.valid (placed_of_mem_chats hm) ?_
    dsimp only
    omega

/-- A message is in a queue of a connection that exists. -/
lemma lt_of_mem_chats {s : State} (hacc : Accounted s) {m : ChatMessage} (hm : m ∈ chats s.log)
    {c : ConnId} (hq : m.queue = .out c) : c < s.nconns := by
  by_contra hge
  have hplaced := placed_of_mem_chats hm
  rw [hq, hacc.fresh c (not_lt.mp hge)] at hplaced
  cases hplaced

/-- Of two messages in order, both written, the first was completely written first. -/
lemma Ranked.completeBefore {s : State} (hacc : Accounted s) {m₁ m₂ : ChatMessage}
    (hm : m₁ ∈ chats s.log) (hpos : m₁.queue = m₂.queue → m₁.start + m₁.frame.length ≤ m₂.start)
    (h : Ranked s m₁ m₂) (hwritten : Written s m₁) : CompleteBefore s m₁ m₂ := by
  cases h with
  | queue same =>
      unfold CompleteBefore ChatMessage.bytes
      rw [← same]
      exact Ledger.precedes_of_queue hacc.valid (placed_of_mem_chats hm) (hpos same) m₂.frame
  | lost unwritten _ => exact absurd hwritten.1 unwritten
  | settled order _ => exact order

/-- Where no message overtakes another, conversations are in order. -/
lemma Ordered.inOrder {s : State} (hacc : Accounted s) (h : Ordered s) : InOrder s := by
  intro u v
  refine ((h u v).and (conversation_positions u v s.log)).imp_of_mem ?_
  rintro m₁ m₂ hm₁ - ⟨hranked, hpos⟩ hwritten -
  exact hranked.completeBefore hacc (mem_chats_of_conversation hm₁) hpos hwritten

/-! ## One step -/

/-- A closed connection stays closed. -/
lemma isOpen_of_step {s s' : State} (hs : TableOk s) {e : Event} (h : step ac s e = some s')
    {c : ConnId} (hc : c < s.nconns) (hopen : s'.IsOpen c) : s.IsOpen c := by
  have hmoves := sessions_step_any ac hs h
  have hkeep := hmoves.invariant
    (P := fun t => s.nconns ≤ t.nconns ∧ (t.IsOpen c → s.IsOpen c)) ?_
    ⟨le_rfl, fun h => h⟩
  · exact hkeep.2 hopen
  rintro t t' ⟨hle, ht⟩ move
  cases move with
  | accept fd addr free idle =>
      have hnconns : (acceptClient t fd addr).sessions.nconns = t.nconns + 1 :=
        nconns_acceptClient t fd addr
      have hne : c ≠ t.nconns := (lt_of_lt_of_le hc hle).ne
      refine ⟨by omega, fun hopen => ht ?_⟩
      have hsock : (acceptClient t fd addr).sock ((acceptClient t fd addr).conn c).fd = some c :=
        hopen
      rw [conn_acceptClient, Function.update_of_ne hne, sock_acceptClient] at hsock
      by_cases hfd : (t.conn c).fd = fd
      · rw [hfd, Function.update_self] at hsock
        exact absurd (Option.some.inj hsock).symm hne
      · rwa [Function.update_of_ne hfd] at hsock
  | begin fd isOpen idle => exact ⟨hle, ht⟩
  | finish => exact ⟨hle, ht⟩
  | active d serves =>
      rw [isOpen_updateLastActive]
      refine ⟨?_, ht⟩
      rcases updateLastActive_eq t d with heq | ⟨w, -, -, heq⟩ <;> rw [heq] <;> exact hle
  | bind d w username password serves found knows idle ok =>
      refine ⟨hle, fun hopen => ht ?_⟩
      unfold State.IsOpen at hopen
      rwa [fd_bind] at hopen
  | unlink w d bound =>
      refine ⟨hle, fun hopen => ht ?_⟩
      unfold State.IsOpen at hopen
      rwa [fd_unlink] at hopen
  | shut d own unbound =>
      refine ⟨hle, fun hopen => ht ?_⟩
      have hsock : Function.update t.sock (t.conn d).fd none (t.conn c).fd = some c := hopen
      by_cases hfd : (t.conn c).fd = (t.conn d).fd
      · rw [hfd, Function.update_self] at hsock
        cases hsock
      · rwa [Function.update_of_ne hfd] at hsock
  | tick seconds => exact ⟨hle, ht⟩

/-- The history grows, and bytes are taken from queues that are drained. -/
structure Grows (s s' : State) (l : List Obs) : Prop where
  log : s'.log = s.log ++ l
  served : ∀ q c bs, .move (.take q c bs) ∈ l → s.Served q
  closed : ∀ c, c < s.nconns → ¬ s.IsOpen c → ¬ s'.IsOpen c

namespace Grows

variable {s s' : State} {l : List Obs} (h : Grows s s' l)
include h

/-- What is no longer drained stays as it is. -/
lemma taken {q : Queue} (hq : ¬ s.Served q) :
    Ledger.taken q (moves s'.log) = Ledger.taken q (moves s.log) := by
  have hnone : Ledger.taken q (moves l) = 0 := Ledger.taken_eq_zero fun c bs hmem =>
    hq (h.served q c bs (mem_moves.mp hmem))
  rw [h.log, moves_append, Ledger.taken_append, hnone, Nat.add_zero]

lemma rest_eq_nil {m : ChatMessage} (hrest : m.rest s.log = []) : m.rest s'.log = [] := by
  rw [rest_eq_nil_iff] at hrest ⊢
  rw [h.log, moves_append, Ledger.taken_append]
  omega

lemma not_served (hacc : Accounted s) {m : ChatMessage} (hm : m ∈ chats s.log)
    (hclosed : ¬ s.Served m.queue) : ¬ s'.Served m.queue := by
  cases hq : m.queue with
  | offline u =>
      rw [hq] at hclosed
      exact absurd trivial hclosed
  | out c =>
      rw [hq] at hclosed
      exact h.closed c (lt_of_mem_chats hacc hm hq) hclosed

/-- Two messages stay in order. -/
lemma ranked (hacc : Accounted s) {m₁ m₂ : ChatMessage} (hm₁ : m₁ ∈ chats s.log)
    (hm₂ : m₂ ∈ chats s.log) (hranked : Ranked s m₁ m₂) : Ranked s' m₁ m₂ := by
  cases hranked with
  | queue same => exact .queue same
  | lost unwritten closed =>
      refine .lost ?_ (h.not_served hacc hm₁ closed)
      rwa [ChatMessage.rest, h.taken closed]
  | settled order later =>
      refine .settled ?_ (later.imp h.rest_eq_nil (h.not_served hacc hm₂))
      obtain ⟨out, hout, htakes⟩ := Ledger.output_append (moves s.log) (moves l)
      unfold CompleteBefore
      rw [h.log, moves_append, hout]
      refine Ledger.Precedes.append order ?_
      rcases later with hrest | hclosed
      · exact .inl (m₁.bytes_subset hacc hm₁ hrest)
      · refine .inr fun y hy hmem => hclosed ?_
        obtain ⟨c, bs, htake⟩ := htakes y hmem
        rw [← (mem_cells hy).1]
        exact h.served _ c bs (mem_moves.mp htake)

end Grows

/-- What is known of a new message. -/
lemma new_message {s : State} {e : Event} (hs : TableOk s) (hok : KeepsOrder s e)
    {l : List Obs}
    (hadded : ∀ o ∈ l, Emits ac s e o ∨ ∃ fd n₁ n₂ c, e = .writable fd n₁ n₂ ∧
      pickConn s fd = some c ∧ DrainWrites s c o)
    {u v : UserId} {p : List Obs × Obs} (hp : p ∈ entries l) {m : ChatMessage}
    (hm : messageOf u v (s.log ++ p.1, p.2) = some m) :
    m.queue = sendTarget s v ∧ NoneApart s u v ∧ ∀ q c bs, .move (.take q c bs) ∉ l := by
  obtain ⟨-, ho⟩ := messageOf_eq_some hm
  dsimp only at ho
  have hemits : Emits ac s e (.move (.put m.queue (.chat v u) m.frame)) := by
    rw [← ho]
    rcases hadded p.2 (mem_of_mem_entries hp) with hemits | ⟨fd, n₁, n₂, c, -, -, hwrites⟩
    · exact hemits
    · rw [ho] at hwrites
      cases hwrites
  obtain ⟨req, c, rfl, hserving, hown, hlive, haddressed, hheard, hqueue⟩ := chat_of_emits ac hemits
  refine ⟨hqueue, ?_, fun q d bs hmem => ?_⟩
  · exact hok c hserving u hown hlive v (mem_first_of_addressed hs haddressed) haddressed hheard
  · rcases hadded _ hmem with htake | ⟨fd, n₁, n₂, d, heq, -, -⟩
    · cases htake
    · cases heq

/-- A new message is behind the old ones of its conversation. -/
lemma Grows.ranked_new {s s' : State} {l : List Obs} (h : Grows s s' l) (hacc : Accounted s)
    {u v : UserId} {m₁ m₂ : ChatMessage} (hm₁ : m₁ ∈ conversation u v s.log)
    (hqueue : m₂.queue = sendTarget s v) (hapart : NoneApart s u v)
    (hunwritten : ∀ y ∈ m₂.bytes, y ∉ Ledger.output (moves s'.log))
    (hclosed : ¬ s.Served m₂.queue → ¬ s'.Served m₂.queue) : Ranked s' m₁ m₂ := by
  have horder : CompleteBefore s' m₁ m₂ := .of_disjoint hunwritten _
  by_cases hrest : m₁.rest s.log = []
  · exact .settled horder (.inl (h.rest_eq_nil hrest))
  by_cases hserved : s.Served m₁.queue
  · by_cases htarget : s.Served m₂.queue
    · refine .queue ?_
      rw [hqueue] at htarget ⊢
      exact hapart htarget m₁ hm₁ hrest hserved
    · exact .settled horder (.inr (hclosed htarget))
  · refine .lost ?_ (h.not_served hacc (mem_chats_of_conversation hm₁) hserved)
    rwa [ChatMessage.rest, h.taken hserved]

/-- **Every step that meets the condition keeps the order.** -/
lemma ordered_step {s s' : State} (hs : TableOk s) (hacc : Accounted s) (hacc' : Accounted s')
    (h : Ordered s) {e : Event} (hok : KeepsOrder s e) (hstep : step ac s e = some s') :
    Ordered s' := by
  have hclosed : ∀ c, c < s.nconns → ¬ s.IsOpen c → ¬ s'.IsOpen c := fun c hc hnot hopen =>
    hnot (isOpen_of_step ac hs hstep hc hopen)
  obtain ⟨henabled, -, rfl⟩ := (step_eq_some ac).mp hstep
  obtain ⟨l, hlog, hadded⟩ := log_exec ac hs.server hacc.pending_fresh e
  have hgrows : Grows s (exec ac s e) l := by
    refine ⟨hlog, fun q c bs hmem => ?_, hclosed⟩
    rcases hadded _ hmem with hemits | ⟨fd, n₁, n₂, d, rfl, hpick, hwrites⟩
    · cases hemits
    · cases hwrites with
      | out => exact hs.isOpen_of_pickConn henabled.2.1 hpick
      | offline => trivial
  intro u v
  rw [hlog, conversation_append, List.pairwise_append]
  refine ⟨?_, ?_, fun m₁ hm₁ m₂ hm₂ => ?_⟩
  · refine (h u v).imp_of_mem fun hm₁ hm₂ hranked => ?_
    exact hgrows.ranked hacc (mem_chats_of_conversation hm₁) (mem_chats_of_conversation hm₂) hranked
  · -- the new messages are in one queue
    refine List.pairwise_of_forall_mem_list fun m₁ hm₁ m₂ hm₂ => .queue ?_
    obtain ⟨p₁, hp₁, hm₁⟩ := List.mem_filterMap.mp hm₁
    obtain ⟨p₂, hp₂, hm₂⟩ := List.mem_filterMap.mp hm₂
    rw [(new_message ac hs hok hadded hp₁ hm₁).1, (new_message ac hs hok hadded hp₂ hm₂).1]
  · obtain ⟨p, hp, hnew⟩ := List.mem_filterMap.mp hm₂
    obtain ⟨hqueue, hapart, hnone⟩ := new_message ac hs hok hadded hp hnew
    refine hgrows.ranked_new hacc hm₁ hqueue hapart (fun y hy hmem => ?_) ?_
    · -- a new message lies behind everything that was written
      have hlt := Ledger.pos_lt_of_mem_output hacc'.valid hmem
      obtain ⟨hq, hle, -⟩ := mem_cells hy
      obtain ⟨-, -, hstart, -⟩ := chatOf_eq_some (messageOf_eq_some hnew).1
      have htaken : Ledger.taken m₂.queue (moves l) = 0 := Ledger.taken_eq_zero fun c bs hmem =>
        hnone m₂.queue c bs (mem_moves.mp hmem)
      dsimp only at hstart
      rw [hq, hlog, moves_append, Ledger.taken_append, htaken] at hlt
      rw [moves_append, Ledger.stream_append, List.length_append] at hstart
      have hvalid := hacc.valid.taken_le m₂.queue
      omega
    · intro hnot
      cases hq : m₂.queue with
      | offline w =>
          rw [hq] at hnot
          exact absurd trivial hnot
      | out c =>
          rw [hq] at hnot hqueue
          exact hclosed c (hs.client_lt v c (sendTarget_eq_out hqueue.symm).1) hnot

/-! ## All runs -/

/-- **Conversations are in order** in every run that accepts a message only if no earlier one of
its conversation is still to be written from another queue. -/
theorem in_order_run {p : Setup} {es : List Event} {s : State}
    (run : ServerRun ac p KeepsOrder es s) : InOrder s := by
  have hordered : Ordered s := by
    refine run.invariant_of (P := Ordered)
      (Q := fun s => TableOk s ∧ Accounted s) ?_
      (fun run => ⟨tableOk_run ac run, accounted_run ac run⟩) ?_
    · intro u v
      rw [(loaded_init p).log]
      exact .nil
    · rintro s e s' ⟨hs, hacc⟩ h hok hstep
      exact ordered_step ac hs hacc (accounted_step ac hs hacc hstep) h hok hstep
  exact hordered.inOrder (accounted_run ac run)

/-- Hans writes to yoda before yoda's login and after it, and the first message is written before
the second one is accepted. -/
theorem in_order_demo :
    ∃ s, ServerRun protobufWire demo KeepsOrder
        (acceptAndServe 5 [loginAs "hans" "falcon", messageTo "yoda" "one"] ++
          acceptAndServe 6 [loginAs "yoda" "wise"] ++ [.writable 6 (some 21) (some 17)] ++
          [.readable 5, .request (messageTo "yoda" "two"), .readDone,
            .writable 6 (some 17) none]) s ∧
      (conversation 0 1 s.log).length = 2 ∧
      (conversation 0 1 s.log).Pairwise (CompleteBefore s) := by
  obtain ⟨s, run, hlen, hwritten⟩ := Run.exists_of_execute (step protobufWire) KeepsOrder
    demo.init
    (acceptAndServe 5 [loginAs "hans" "falcon", messageTo "yoda" "one"] ++
      acceptAndServe 6 [loginAs "yoda" "wise"] ++ [.writable 6 (some 21) (some 17)] ++
      [.readable 5, .request (messageTo "yoda" "two"), .readDone, .writable 6 (some 17) none])
    (fun s => (conversation 0 1 s.log).length = 2 ∧ ∀ m ∈ conversation 0 1 s.log, Written s m)
    (by decide +kernel)
  have hinOrder : InOrder s := in_order_run protobufWire run
  refine ⟨s, run, hlen, (hinOrder 0 1).imp_of_mem fun hm₁ hm₂ h => ?_⟩
  exact h (hwritten _ hm₁) (hwritten _ hm₂)

/-- The same two messages, drained together after the second one: it is written first. -/
theorem not_in_order_login :
    ¬ ∀ (ac : Achelper) (p : Setup) (es : List Event) (s : State),
      ServerRun ac p Always es s → InOrder s := by
  intro h
  obtain ⟨s, run, hnot⟩ := Run.exists_of_execute (step protobufWire) Always demo.init
    (acceptAndServe 5 [loginAs "hans" "falcon", messageTo "yoda" "one"] ++
      acceptAndServe 6 [loginAs "yoda" "wise"] ++
      [.readable 5, .request (messageTo "yoda" "two"), .readDone,
        .writable 6 (some 38) (some 17)])
    (fun s => ¬ (conversation 0 1 s.log).Pairwise fun m₁ m₂ =>
      Written s m₁ → Written s m₂ → CompleteBefore s m₁ m₂) (by decide +kernel)
  exact hnot (h protobufWire demo _ s run 0 1)

end EpollChat

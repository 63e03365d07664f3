import EpollChat.Construction.Server

/-!
# Output and the core of the state

Most of what the server does is queueing responses.  `State.core` is the state without its output
side: the queues, the `EPOLLOUT` registrations, the queue moves in the history, the locks and the
fault.  Queueing a response does not change the core, and which queue a response goes into and
whether a user is logged in are functions of the core.

So the loops that queue responses one by one, deciding each time anew, are the same as first
making the list of deliveries and then carrying it out: `announce_eq` and `broadcastLoop_eq`.
Every other function of the server is then a change of the core followed by deliveries.
-/

namespace EpollChat

variable (ac : Achelper)

/-! ## The core -/

/-- The entry is a queue move. -/
def Obs.isMove : Obs → Bool
  | .move _ => true
  | _ => false

/-- The state without its output side. -/
def State.core (s : State) : State :=
  { s with
    users := fun u => { s.users u with buffer := OutBuffer.init }
    conn := fun c => { s.conn c with outbuffer := OutBuffer.init }
    epoll := fun _ => none
    held := []
    fault := none
    log := s.log.filter fun o => !o.isMove }

namespace State

variable (s : State)

@[simp] lemma core_raise (f : Fault) : (s.raise f).core = s.core := rfl

@[simp] lemma core_touch (c : ConnId) : (s.touch c).core = s.core := by
  unfold touch
  split <;> rfl

@[simp] lemma core_lock (c : ConnId) : (s.lock c).core = s.core := by
  unfold lock
  split <;> rfl

@[simp] lemma core_unlock (c : ConnId) : (s.unlock c).core = s.core := rfl

@[simp] lemma core_epollMod (fd : ℕ) (out : Bool) : (s.epollMod fd out).core = s.core := by
  unfold epollMod
  split <;> rfl

/-- A change of user records that leaves the buffer alone happens in the core. -/
lemma core_setUser (u : UserId) {f : User → User}
    (hf : ∀ v b, { f v with buffer := b } = f { v with buffer := b }) :
    (s.setUser u f).core = s.core.setUser u f := by
  unfold core setUser
  congr 1
  funext v
  by_cases h : v = u
  · subst h
    simp [hf]
  · simp [h]

/-- A change of connection records that leaves the outbuffer alone happens in the core. -/
lemma core_setConn (c : ConnId) {f : Conn → Conn}
    (hf : ∀ k b, { f k with outbuffer := b } = f { k with outbuffer := b }) :
    (s.setConn c f).core = s.core.setConn c f := by
  unfold core setConn
  congr 1
  funext d
  by_cases h : d = c
  · subst h
    simp [hf]
  · simp [h]

@[simp] lemma core_setBuf (q : Queue) (b : OutBuffer) : (s.setBuf q b).core = s.core := by
  unfold core
  cases q with
  | out c =>
      simp only [setBuf, setConn]
      congr 1
      funext d
      by_cases h : d = c
      · subst h
        simp
      · simp [h]
  | offline u =>
      simp only [setBuf, setUser]
      congr 1
      funext v
      by_cases h : v = u
      · subst h
        simp
      · simp [h]

@[simp] lemma core_emit_move (m : Move Queue ConnId Why UInt8) :
    (s.emit (.move m)).core = s.core := by
  simp [core, emit, Obs.isMove]

lemma core_emit {o : Obs} (h : o.isMove = false) : (s.emit o).core = s.core.emit o := by
  simp [core, emit, h]

end State

section SameCore

variable {s s' : State} (h : s.core = s'.core)
include h

lemma first_eq_of_core : s.first = s'.first := by
  have h' := congrArg State.first h
  exact h'

lemma fileDb_eq_of_core : s.fileDb = s'.fileDb := by
  have h' := congrArg State.fileDb h
  exact h'

lemma globalChunkId_eq_of_core : s.globalChunkId = s'.globalChunkId := by
  have h' := congrArg State.globalChunkId h
  exact h'

lemma sock_eq_of_core : s.sock = s'.sock := by
  have h' := congrArg State.sock h
  exact h'

lemma username_eq_of_core (u : UserId) : (s.users u).username = (s'.users u).username := by
  have h' := congrArg (fun t => (t.users u).username) h
  exact h'

lemma client_eq_of_core (u : UserId) : (s.users u).client = (s'.users u).client := by
  have h' := congrArg (fun t => (t.users u).client) h
  exact h'

lemma lastActive_eq_of_core (u : UserId) :
    (s.users u).lastActive = (s'.users u).lastActive := by
  have h' := congrArg (fun t => (t.users u).lastActive) h
  exact h'

lemma user_eq_of_core (c : ConnId) : (s.conn c).user = (s'.conn c).user := by
  have h' := congrArg (fun t => (t.conn c).user) h
  exact h'

lemma fd_eq_of_core (c : ConnId) : (s.conn c).fd = (s'.conn c).fd := by
  have h' := congrArg (fun t => (t.conn c).fd) h
  exact h'

lemma chunks_eq_of_core (c : ConnId) : (s.conn c).chunks = (s'.conn c).chunks := by
  have h' := congrArg (fun t => (t.conn c).chunks) h
  exact h'

lemma isOpen_iff_of_core (c : ConnId) : s.IsOpen c ↔ s'.IsOpen c := by
  unfold State.IsOpen
  rw [sock_eq_of_core h, fd_eq_of_core h]

end SameCore

/-- Whether a user is logged in is a matter of the core. -/
@[simp] lemma isUserLoggedIn_core (s : State) (u : Option UserId) :
    isUserLoggedIn s.core u = isUserLoggedIn s u := by
  cases u <;> rfl

lemma isUserLoggedIn_congr {s s' : State} (h : s.core = s'.core) (u : Option UserId) :
    isUserLoggedIn s u = isUserLoggedIn s' u := by
  rw [← isUserLoggedIn_core, h, isUserLoggedIn_core]

@[simp] lemma hasBlockedUser_core (s : State) (u v : UserId) :
    hasBlockedUser s.core u v = hasBlockedUser s u v := rfl

lemma hasBlockedUser_congr {s s' : State} (h : s.core = s'.core) (u v : UserId) :
    hasBlockedUser s u v = hasBlockedUser s' u v := by
  rw [← hasBlockedUser_core, h, hasBlockedUser_core]

/-! ## Deliveries -/

/-- A response on its way into an output queue. -/
structure Delivery where
  queue : Queue
  why : Why
  msg : IMResponse

/-- The frame of a delivery. -/
def Delivery.frame (d : Delivery) : Bytes := encodeIMResponseToBytes ac d.msg

/-- The descriptor that a queue is drained to, for a queue of one connection. -/
def State.fdOf (s : State) : Queue → Option ℕ
  | .out c => some (s.conn c).fd
  | .offline _ => none

/-- Queue a response, by way of the connection where the queue is a connection's. -/
def deliver (s : State) (d : Delivery) : State :=
  match d.queue with
  | .out c => sendResponseToClient ac s c d.why d.msg
  | .offline u => sendResponseTo ac s (.offline u) d.why d.msg

/-- Queue a list of responses. -/
def deliverAll (s : State) (ds : List Delivery) : State := ds.foldl (deliver ac) s

@[simp] lemma deliverAll_nil (s : State) : deliverAll ac s [] = s := rfl

@[simp] lemma deliverAll_cons (s : State) (d : Delivery) (ds : List Delivery) :
    deliverAll ac s (d :: ds) = deliverAll ac (deliver ac s d) ds := rfl

lemma sendResponseToClient_eq (s : State) (c : ConnId) (why : Why) (msg : IMResponse) :
    sendResponseToClient ac s c why msg = deliver ac s ⟨.out c, why, msg⟩ := rfl

section Fields

variable (s : State)

@[simp] lemma core_deliver (d : Delivery) : (deliver ac s d).core = s.core := by
  unfold deliver
  split <;> simp [sendResponseToClient, sendResponseTo]

@[simp] lemma core_deliverAll (ds : List Delivery) : (deliverAll ac s ds).core = s.core := by
  induction ds generalizing s with
  | nil => rfl
  | cons d ds ih => rw [deliverAll_cons, ih, core_deliver]

lemma pending_sendResponseTo (q : Queue) (why : Why) (msg : IMResponse) (q' : Queue) :
    (sendResponseTo ac s q why msg).pending q' =
      if q' = q then s.pending q' ++ encodeIMResponseToBytes ac msg else s.pending q' := by
  simp only [sendResponseTo, State.pending_emit, State.pending_setBuf]
  split
  · next h =>
      subst h
      exact OutBuffer.pending_append _ _
  · rfl

/-- A delivery adds its frame to its queue. -/
lemma pending_deliver (d : Delivery) (q : Queue) :
    (deliver ac s d).pending q =
      if q = d.queue then s.pending q ++ d.frame ac else s.pending q := by
  obtain ⟨queue, why, msg⟩ := d
  cases queue with
  | out c =>
      simp only [deliver, sendResponseToClient, State.pending_unlock, State.pending_epollMod,
        pending_sendResponseTo, State.pending_lock, State.pending_touch, Delivery.frame]
  | offline u =>
      simp only [deliver, pending_sendResponseTo, Delivery.frame]

/-- A delivery is one move in the history. -/
lemma log_deliver (d : Delivery) :
    (deliver ac s d).log = s.log ++ [.move (.put d.queue d.why (d.frame ac))] := by
  obtain ⟨queue, why, msg⟩ := d
  cases queue <;>
    simp [deliver, sendResponseToClient, sendResponseTo, Delivery.frame, State.emit,
      State.unlock]

/-- A delivery through a connection asks for `EPOLLOUT` on its descriptor. -/
lemma epoll_deliver (d : Delivery) (fd : ℕ) :
    (deliver ac s d).epoll fd =
      if s.fdOf d.queue = some fd then (s.epoll fd).map fun _ => true else s.epoll fd := by
  obtain ⟨queue, why, msg⟩ := d
  cases queue with
  | out c =>
      simp [deliver, sendResponseToClient, sendResponseTo, State.epoll_epollMod, State.unlock,
        State.emit, State.fdOf, eq_comm]
  | offline u => simp [deliver, sendResponseTo, State.emit, State.fdOf]

/-- A delivery through a connection leaves the users alone. -/
lemma users_deliver_out (c : ConnId) (why : Why) (msg : IMResponse) :
    (deliver ac s ⟨.out c, why, msg⟩).users = s.users := by
  simp [deliver, sendResponseToClient, sendResponseTo, State.unlock, State.emit, State.setBuf,
    State.setConn]

/-- A delivery through a connection appends to its outbuffer. -/
lemma conn_deliver_out (c : ConnId) (why : Why) (msg : IMResponse) :
    (deliver ac s ⟨.out c, why, msg⟩).conn =
      Function.update s.conn c
        { s.conn c with
          outbuffer := (s.conn c).outbuffer.append (encodeIMResponseToBytes ac msg) } := by
  simp [deliver, sendResponseToClient, sendResponseTo, State.unlock, State.emit, State.setBuf,
    State.setConn, State.buf]

@[simp] lemma held_deliver (d : Delivery) : (deliver ac s d).held = s.held := by
  obtain ⟨queue, why, msg⟩ := d
  cases queue <;>
    simp [deliver, sendResponseToClient, sendResponseTo, State.unlock, State.emit]

end Fields

/-! ## The loops that queue responses -/

/-- The queue `send_response_to_user` chooses. -/
def sendTarget (s : State) (u : UserId) : Queue :=
  match (s.users u).client with
  | some c => if isUserLoggedIn s (some u) then .out c else .offline u
  | none => .offline u

@[simp] lemma sendTarget_core (s : State) (u : UserId) : sendTarget s.core u = sendTarget s u := rfl

lemma sendTarget_congr {s s' : State} (h : s.core = s'.core) (u : UserId) :
    sendTarget s u = sendTarget s' u := by
  rw [← sendTarget_core, h, sendTarget_core]

/-- A response goes through a connection if the user is logged in on it. -/
lemma sendTarget_eq_out {s : State} {u : UserId} {c : ConnId} (h : sendTarget s u = .out c) :
    (s.users u).client = some c ∧ isUserLoggedIn s (some u) = true := by
  unfold sendTarget at h
  split at h
  · next d hd =>
      split at h
      · next hlive =>
          obtain rfl : d = c := by injection h
          exact ⟨hd, hlive⟩
      · cases h
  · cases h

/-- A response goes into the user's own offline buffer if he is not logged in. -/
lemma sendTarget_eq_offline {s : State} {u v : UserId} (h : sendTarget s u = .offline v) :
    v = u ∧ isUserLoggedIn s (some u) = false := by
  unfold sendTarget at h
  split at h
  · split at h
    · cases h
    · next hnot =>
        obtain rfl : u = v := by injection h
        exact ⟨rfl, by simpa using hnot⟩
  · next hnone =>
      obtain rfl : u = v := by injection h
      exact ⟨rfl, by simp [isUserLoggedIn, hnone]⟩

lemma sendResponseToUser_eq (s : State) (u : UserId) (why : Why) (msg : IMResponse) :
    sendResponseToUser ac s u why msg = deliver ac s ⟨sendTarget s u, why, msg⟩ := by
  unfold sendResponseToUser sendTarget
  cases (s.users u).client with
  | none => rfl
  | some c =>
      dsimp only
      split <;> rfl

/-- A loop that decides and queues in turn is the list of its first decisions, carried out. -/
lemma foldl_deliver {p : State → UserId → Bool} {d : State → UserId → Delivery}
    (hp : ∀ s s', s.core = s'.core → p s = p s') (hd : ∀ s s', s.core = s'.core → d s = d s')
    (l : List UserId) (s : State) :
    l.foldl (fun s v => if p s v then deliver ac s (d s v) else s) s =
      deliverAll ac s ((l.filter (p s)).map (d s)) := by
  induction l generalizing s with
  | nil => rfl
  | cons v l ih =>
      rw [List.foldl_cons, ih]
      by_cases h : p s v
      · have hcore := core_deliver ac s (d s v)
        simp only [h, if_true, List.filter_cons_of_pos, List.map_cons, deliverAll_cons,
          hp _ _ hcore, hd _ _ hcore]
      · simp [h]

/-- The response that carries a chat message. -/
def chatResponse (s : State) (sender : UserId) (msg : Bytes) : IMResponse :=
  encodeTextResponseToIMResponse ac ((s.users sender).username ++ text ": " ++ cstr msg) true

lemma chatResponse_congr {s s' : State} (h : s.core = s'.core) (sender : UserId) (msg : Bytes) :
    chatResponse ac s sender msg = chatResponse ac s' sender msg := by
  rw [chatResponse, chatResponse, username_eq_of_core h]

/-- `sendMessage` queues the message unless the recipient has blocked the sender. -/
lemma sendMessage_eq (s : State) (recipient sender : UserId) (msg : Bytes) :
    sendMessage ac s recipient sender msg =
      if hasBlockedUser s recipient sender then (s, false)
      else
        (deliver ac s
          ⟨sendTarget s recipient, .chat recipient sender, chatResponse ac s sender msg⟩, true) := by
  simp only [sendMessage, sendResponseToUser_eq, chatResponse]

/-- The announcements of `login` and `logoutUser`. -/
def announcements (s : State) (subject : UserId) (why : UserId → Why) (rsp : IMResponse) :
    List Delivery :=
  (s.first.filter fun v =>
    v ≠ subject ∧ isUserLoggedIn s (some v) ∧ ¬ hasBlockedUser s subject v).map
      fun v => ⟨sendTarget s v, why v, rsp⟩

lemma announce_eq (subject : UserId) (why : UserId → Why) (rsp : IMResponse) (s : State) :
    announce ac subject why rsp s = deliverAll ac s (announcements s subject why rsp) := by
  have h := foldl_deliver ac
    (p := fun s v => decide (v ≠ subject ∧ isUserLoggedIn s (some v) ∧
      ¬ hasBlockedUser s subject v))
    (d := fun s v => ⟨sendTarget s v, why v, rsp⟩)
    (fun s s' h => by
      funext v
      rw [isUserLoggedIn_congr h, hasBlockedUser_congr h])
    (fun s s' h => by
      funext v
      rw [sendTarget_congr h]) s.first s
  simpa only [announce, announcements, sendResponseToUser_eq, decide_eq_true_eq] using h

lemma announcements_congr {s s' : State} (h : s.core = s'.core) (subject : UserId)
    (why : UserId → Why) (rsp : IMResponse) :
    announcements s subject why rsp = announcements s' subject why rsp := by
  simp only [announcements, first_eq_of_core h, isUserLoggedIn_congr h, hasBlockedUser_congr h,
    sendTarget_congr h]

/-- The recipients of the announcements are other users who are logged in and whom the subject
has not blocked. -/
lemma mem_announcements {s : State} {subject : UserId} {why : UserId → Why} {rsp : IMResponse}
    {d : Delivery} (h : d ∈ announcements s subject why rsp) :
    ∃ v c, v ∈ s.first ∧ v ≠ subject ∧ isUserLoggedIn s (some v) = true ∧
      hasBlockedUser s subject v = false ∧
        (s.users v).client = some c ∧ d = ⟨.out c, why v, rsp⟩ := by
  obtain ⟨v, hv, rfl⟩ := List.mem_map.mp h
  obtain ⟨hmem, hcond⟩ := List.mem_filter.mp hv
  obtain ⟨hne, hlogged, hheard⟩ := of_decide_eq_true hcond
  obtain ⟨⟨c, hc⟩, -⟩ := isUserLoggedIn_eq_true.mp hlogged
  exact ⟨v, c, hmem, hne, hlogged, by simpa using hheard, hc,
    by simp only [sendTarget, hc, hlogged, if_true]⟩

/-- The deliveries of `cmd_message_impl`'s broadcast. -/
def broadcasts (s : State) (sender : UserId) (msg : Bytes) : List Delivery :=
  (s.first.filter fun v =>
    (v ≠ sender ∧ isUserLoggedIn s (some v)) ∧ ¬ hasBlockedUser s v sender).map
      fun v => ⟨sendTarget s v, .chat v sender, chatResponse ac s sender msg⟩

lemma fst_broadcastOne (sender : UserId) (msg : Bytes) (acc : State × Bool) (v : UserId) :
    (broadcastOne ac sender msg acc v).1 =
      if decide ((v ≠ sender ∧ isUserLoggedIn acc.1 (some v)) ∧
          ¬ hasBlockedUser acc.1 v sender) then
        deliver ac acc.1 ⟨sendTarget acc.1 v, .chat v sender, chatResponse ac acc.1 sender msg⟩
      else acc.1 := by
  by_cases hv : v ≠ sender ∧ isUserLoggedIn acc.1 (some v)
  · by_cases hblocked : hasBlockedUser acc.1 v sender
    · simp only [broadcastOne, if_pos hv, sendMessage_eq, hblocked, if_true, not_true, and_false,
        decide_false, Bool.false_eq_true, if_false]
    · simp [broadcastOne, sendMessage_eq, hblocked, hv]
  · simp only [broadcastOne, hv, false_and, decide_false, Bool.false_eq_true, if_false]

lemma broadcastLoop_eq (s : State) (sender : UserId) (msg : Bytes) :
    (broadcastLoop ac s sender msg).1 = deliverAll ac s (broadcasts ac s sender msg) := by
  have h := foldl_deliver ac
    (p := fun s v => decide ((v ≠ sender ∧ isUserLoggedIn s (some v)) ∧
      ¬ hasBlockedUser s v sender))
    (d := fun s v => ⟨sendTarget s v, .chat v sender, chatResponse ac s sender msg⟩)
    (fun s s' h => by
      funext v
      rw [isUserLoggedIn_congr h, hasBlockedUser_congr h])
    (fun s s' h => by
      funext v
      rw [sendTarget_congr h, chatResponse_congr ac h]) s.first s
  rw [broadcastLoop, broadcasts, ← h]
  exact (List.foldl_hom Prod.fst fun acc v => (fst_broadcastOne ac sender msg acc v).symm).symm

end EpollChat

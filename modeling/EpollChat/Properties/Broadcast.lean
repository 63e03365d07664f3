import EpollChat.Construction.Demo
import EpollChat.Framework.Pairing
import EpollChat.Properties.ClientProgram

/-!
# Broadcasts

A broadcast goes through the list of all users once.  Who receives it is decided by the state
before the loop, since queueing a frame changes neither sessions nor block lists: the loop is the
list `broadcasts` of deliveries, carried out.  With the users distinct and paired with their
connections, every receiver's outbuffer is the queue of exactly one of these deliveries, and a
user who has blocked the sender is left out and makes the request fail (`broadcastExact_serve`).
-/

namespace EpollChat

variable (ac : Achelper)

/-! ## Deliveries to one queue -/

/-- What a list of deliveries adds to a queue. -/
lemma pending_deliverAll (s : State) (ds : List Delivery) (q : Queue) :
    (deliverAll ac s ds).pending q =
      s.pending q ++ ((ds.filter fun d => d.queue = q).map (Delivery.frame ac)).flatten := by
  induction ds generalizing s with
  | nil => simp
  | cons d ds ih =>
      rw [deliverAll_cons, ih, pending_deliver]
      by_cases h : d.queue = q
      · simp [h]
      · simp [h, Ne.symm h]

/-- The user is logged in and is not the sender. -/
def Online (s : State) (sender v : UserId) : Prop := v ≠ sender ∧ isUserLoggedIn s (some v) = true

/-- The user receives the sender's broadcasts. -/
def Hears (s : State) (sender v : UserId) : Prop :=
  Online s sender v ∧ hasBlockedUser s v sender = false

/-- An online user of the list has blocked the sender. -/
def SomeBlocker (s : State) (sender : UserId) : Prop :=
  ∃ v ∈ s.first, Online s sender v ∧ hasBlockedUser s v sender = true

instance (s : State) (sender v : UserId) : Decidable (Online s sender v) := by
  unfold Online
  infer_instance

instance (s : State) (sender v : UserId) : Decidable (Hears s sender v) := by
  unfold Hears
  infer_instance

instance (s : State) (sender : UserId) : Decidable (SomeBlocker s sender) := by
  unfold SomeBlocker
  infer_instance

/-- The frame that carries the sender's text. -/
def chatFrame (s : State) (sender : UserId) (msg : Bytes) : Bytes :=
  encodeIMResponseToBytes ac (chatResponse ac s sender msg)

/-- The answer to a broadcast that was not delivered to everyone. -/
def broadcastFailure : IMResponse :=
  encodeTextToIMResponse ac
    (text "Your message could not be delivered to some of the recipients.") false

lemma broadcasts_eq (s : State) (sender : UserId) (msg : Bytes) :
    broadcasts ac s sender msg =
      (s.first.filter fun v => Hears s sender v).map fun v =>
        ⟨sendTarget s v, .chat v sender, chatResponse ac s sender msg⟩ := by
  rw [broadcasts]
  congr 1
  apply List.filter_congr
  intro v _
  rw [decide_eq_decide]
  simp only [Hears, Online, Bool.not_eq_true]

/-- The queue of a receiver is the outbuffer of its connection. -/
lemma sendTarget_of_hears {s : State} {sender v : UserId} (h : Hears s sender v) {d : ConnId}
    (hd : (s.users v).client = some d) : sendTarget s v = .out d := by
  simp only [sendTarget, hd, h.1.2, if_true]

/-! ## The loop -/

section Loop

variable (s : State) (sender : UserId) (msg : Bytes)

/-- A queue that is no receiver's outbuffer stays as it is. -/
lemma pending_broadcastLoop_of_ne {q : Queue}
    (h : ∀ v ∈ s.first, Hears s sender v → sendTarget s v ≠ q) :
    (broadcastLoop ac s sender msg).1.pending q = s.pending q := by
  rw [broadcastLoop_eq, pending_deliverAll, broadcasts_eq]
  have hnone : ((s.first.filter fun v => Hears s sender v).map fun v =>
      (⟨sendTarget s v, .chat v sender, chatResponse ac s sender msg⟩ : Delivery)).filter
        (fun d => d.queue = q) = [] := by
    rw [List.filter_eq_nil_iff]
    rintro d hd
    obtain ⟨v, hv, rfl⟩ := List.mem_map.1 hd
    obtain ⟨hmem, hhears⟩ := List.mem_filter.1 hv
    simpa using h v hmem (by simpa using hhears)
  rw [hnone, List.map_nil, List.flatten_nil, List.append_nil]

/-- A receiver's outbuffer gets the frame once. -/
lemma pending_broadcastLoop_of_hears (hnodup : s.first.Nodup)
    (hpaired : Paired (fun u => (s.users u).client) fun c => (s.conn c).user) {v : UserId}
    {d : ConnId} (hmem : v ∈ s.first) (hhears : Hears s sender v)
    (hd : (s.users v).client = some d) :
    (broadcastLoop ac s sender msg).1.pending (.out d) =
      s.pending (.out d) ++ chatFrame ac s sender msg := by
  rw [broadcastLoop_eq, pending_deliverAll, broadcasts_eq, List.filter_map]
  -- the only receiver with this connection is the user itself
  have honly : (s.first.filter fun w => Hears s sender w).filter
      ((fun e : Delivery => decide (e.queue = .out d)) ∘ fun w =>
        ⟨sendTarget s w, .chat w sender, chatResponse ac s sender msg⟩) = [v] := by
    rw [List.filter_filter]
    have hcongr : s.first.filter (fun w =>
        ((fun e : Delivery => decide (e.queue = .out d)) ∘ fun w =>
          ⟨sendTarget s w, .chat w sender, chatResponse ac s sender msg⟩) w &&
          decide (Hears s sender w)) = s.first.filter fun w => w == v := by
      apply List.filter_congr
      intro w _
      rw [Bool.eq_iff_iff]
      simp only [Function.comp, Bool.and_eq_true, decide_eq_true_eq, beq_iff_eq]
      constructor
      · rintro ⟨htarget, -⟩
        exact hpaired.injective (sendTarget_eq_out htarget).1 hd
      · rintro rfl
        exact ⟨sendTarget_of_hears hhears hd, hhears⟩
    rw [hcongr, List.filter_beq, List.count_eq_one_of_mem hnodup hmem, List.replicate_one]
  rw [honly, List.map_singleton, List.map_singleton, List.flatten_singleton]
  rfl

lemma core_broadcastOne (acc : State × Bool) (v : UserId) :
    (broadcastOne ac sender msg acc v).1.core = acc.1.core := by
  rw [fst_broadcastOne]
  split
  · exact core_deliver ac _ _
  · rfl

/-- One round keeps the verdict unless the user is online and has blocked the sender. -/
lemma snd_broadcastOne (acc : State × Bool) (v : UserId) :
    (broadcastOne ac sender msg acc v).2 =
      (acc.2 && !decide (Online acc.1 sender v ∧ hasBlockedUser acc.1 v sender = true)) := by
  unfold broadcastOne Online
  by_cases hv : v ≠ sender ∧ isUserLoggedIn acc.1 (some v) = true
  · rw [if_pos hv, sendMessage_eq]
    by_cases hblocked : hasBlockedUser acc.1 v sender = true
    · simp [hblocked, hv]
    · simp [hblocked]
  · rw [if_neg hv]
    simp [hv]

/-- The verdict of the loop: no online user has blocked the sender. -/
lemma snd_broadcastLoop : (broadcastLoop ac s sender msg).2 = !decide (SomeBlocker s sender) := by
  have hfold : ∀ (l : List UserId) (acc : State × Bool), acc.1.core = s.core →
      (l.foldl (broadcastOne ac sender msg) acc).2 =
        (acc.2 && !decide (∃ v ∈ l, Online s sender v ∧ hasBlockedUser s v sender = true)) := by
    intro l
    induction l with
    | nil => simp
    | cons v l ih =>
        intro acc hcore
        rw [List.foldl_cons, ih _ ((core_broadcastOne ac sender msg acc v).trans hcore),
          snd_broadcastOne]
        have honline : Online acc.1 sender v ↔ Online s sender v := by
          rw [Online, Online, isUserLoggedIn_congr hcore]
        rw [hasBlockedUser_congr hcore]
        simp only [honline, Bool.and_assoc, List.exists_mem_cons_iff, Bool.decide_or, Bool.not_or]
  rw [broadcastLoop, hfold s.first _ rfl, Bool.true_and]
  rfl

end Loop

/-! ## The request -/

/-- **A broadcast is exact**: what serving the request has changed in the queues, and how it was
answered. -/
structure BroadcastExact (s : State) (c : ConnId) (sender : UserId) (req : MessageRequest) :
    Prop where
  /-- One frame goes to every user who is logged in, is not the sender and has not blocked him. -/
  delivered : ∀ v ∈ s.first, ∀ d, Hears s sender v → (s.users v).client = some d →
    (serve ac s c (.message req)).pending (.out d) =
      s.pending (.out d) ++ chatFrame ac s sender req.msg
  /-- The outbuffers of all others stay as they are. -/
  others : ∀ d, d ≠ c → (∀ v ∈ s.first, Hears s sender v → (s.users v).client ≠ some d) →
    (serve ac s c (.message req)).pending (.out d) = s.pending (.out d)
  /-- So do all offline buffers. -/
  offline : ∀ v, (serve ac s c (.message req)).pending (.offline v) = s.pending (.offline v)
  /-- The sender gets the failure response or nothing. -/
  answered : (serve ac s c (.message req)).pending (.out c) =
    s.pending (.out c) ++
      if SomeBlocker s sender then encodeIMResponseToBytes ac (broadcastFailure ac) else []
  /-- The answer is a failure exactly when an online user has blocked the sender. -/
  fails : (∃ rsp, (runRequest ac s c (.message req)).2 = some rsp ∧ rsp.success = false) ↔
    SomeBlocker s sender

/-- The command on a broadcast of a logged-in user. -/
lemma cmdMessageImpl_broadcast {s : State} {c : ConnId} {sender : UserId} {req : MessageRequest}
    (hsender : (s.conn c).user = some sender) (hlogged : isUserLoggedIn s (some sender) = true)
    (hbroadcast : req.broadcast = true) :
    cmdMessageImpl ac s c req =
      ((broadcastLoop ac s sender req.msg).1,
        if SomeBlocker s sender then some (broadcastFailure ac) else none) := by
  have hsnd := snd_broadcastLoop ac s sender req.msg
  simp only [cmdMessageImpl, hsender, hlogged, hbroadcast, Bool.not_true, if_true,
    Bool.false_eq_true, if_false, hsnd]
  by_cases hblocker : SomeBlocker s sender <;> simp [hblocker, broadcastFailure]

lemma pending_updateLastActive (s : State) (c : ConnId) (q : Queue) :
    (updateLastActive s c).pending q = s.pending q := by
  unfold updateLastActive
  split
  · rfl
  · split
    · apply State.pending_setUser
      intro v
      rfl
    · rfl

/-- A broadcast runs the loop, and is answered if someone has blocked the sender. -/
lemma runRequest_broadcast {s : State} {c : ConnId} {sender : UserId} {req : MessageRequest}
    (hsender : (s.conn c).user = some sender) (hlogged : isUserLoggedIn s (some sender) = true)
    (hbroadcast : req.broadcast = true) :
    runRequest ac s c (.message req) =
      (updateLastActive (broadcastLoop ac s sender req.msg).1 c,
        if SomeBlocker s sender then some (broadcastFailure ac) else none) := by
  simp only [runRequest, runCommand, cmdMessageImpl_broadcast ac hsender hlogged hbroadcast]

/-- What waits after a broadcast: what the loop left, and the answer. -/
lemma pending_serve_broadcast {s : State} {c : ConnId} {sender : UserId} {req : MessageRequest}
    (hsender : (s.conn c).user = some sender) (hlogged : isUserLoggedIn s (some sender) = true)
    (hbroadcast : req.broadcast = true) (q : Queue) :
    (serve ac s c (.message req)).pending q =
      (broadcastLoop ac s sender req.msg).1.pending q ++
        if q = .out c ∧ SomeBlocker s sender then
          encodeIMResponseToBytes ac (broadcastFailure ac)
        else [] := by
  rw [serve, runRequest_broadcast ac hsender hlogged hbroadcast]
  by_cases hblocker : SomeBlocker s sender
  · simp only [hblocker, if_true, and_true, sendResponseToClient_eq, pending_deliver,
      pending_updateLastActive, Delivery.frame]
    split <;> simp
  · simp only [hblocker, if_false, and_false, List.append_nil, pending_updateLastActive]

/-- **Broadcasts.** In any state whose users are distinct and paired with their connections, for
every logged-in sender. -/
theorem broadcastExact_serve {s : State} {c : ConnId} {sender : UserId} {req : MessageRequest}
    (hnodup : s.first.Nodup)
    (hpaired : Paired (fun u => (s.users u).client) fun c => (s.conn c).user)
    (hsender : (s.conn c).user = some sender) (hlogged : isUserLoggedIn s (some sender) = true)
    (hbroadcast : req.broadcast = true) : BroadcastExact ac s c sender req := by
  have hclient : (s.users sender).client = some c := (hpaired sender c).2 hsender
  have hserve := pending_serve_broadcast ac hsender hlogged hbroadcast
  -- the sender's own connection is no receiver's
  have hown : ∀ v ∈ s.first, Hears s sender v → (s.users v).client ≠ some c :=
    fun v _ hhears hv => hhears.1.1 (hpaired.injective hv hclient)
  have htarget : ∀ (v : UserId) (d : ConnId), sendTarget s v = .out d →
      (s.users v).client = some d := fun v d h => (sendTarget_eq_out h).1
  refine ⟨fun v hmem d hhears hd => ?_, fun d hne hnot => ?_, fun v => ?_, ?_, ?_⟩
  · have hdc : d ≠ c := by
      rintro rfl
      exact hown v hmem hhears hd
    rw [hserve, pending_broadcastLoop_of_hears ac s sender req.msg hnodup hpaired hmem hhears hd]
    simp [hdc]
  · rw [hserve, pending_broadcastLoop_of_ne ac s sender req.msg
      fun v hmem hhears h => hnot v hmem hhears (htarget v d h)]
    simp [hne]
  · rw [hserve, pending_broadcastLoop_of_ne ac s sender req.msg fun w _ hhears h => ?_]
    · simp
    · have hoff := (sendTarget_eq_offline h).2
      rw [hhears.1.2] at hoff
      cases hoff
  · rw [hserve, pending_broadcastLoop_of_ne ac s sender req.msg
      fun v hmem hhears h => hown v hmem hhears (htarget v c h)]
    simp
  · rw [runRequest_broadcast ac hsender hlogged hbroadcast]
    by_cases hblocker : SomeBlocker s sender
    · refine iff_of_true ⟨broadcastFailure ac, ?_, rfl⟩ hblocker
      simp [hblocker]
    · simp [hblocker]

/-- The users hans, yoda and vader, whom nobody has logged in. -/
def threeUsers : State :=
  Setup.init { demo with
    now := 0
    credentials := demo.credentials ++ [(text "vader", text "helmet")] }

/-- All three are logged in, and vader, who is first in the list, has blocked hans. -/
def threeOnline : State :=
  blockUser (linkUser (linkUser (linkUser threeUsers 0 0) 1 1) 2 2) 2 0

/-- Linking two free ends keeps the pairing. -/
lemma paired_linkUser {s : State}
    (h : Paired (fun u => (s.users u).client) fun c => (s.conn c).user) {u : UserId} {c : ConnId}
    (hu : (s.users u).client = none) (hc : (s.conn c).user = none) :
    Paired (fun v => ((linkUser s u c).users v).client)
      fun d => ((linkUser s u c).conn d).user := by
  have hclient : (fun v => ((linkUser s u c).users v).client) =
      Function.update (fun v => (s.users v).client) u (some c) := by
    funext v
    rw [client_linkUser, Function.update_apply]
  have huser : (fun d => ((linkUser s u c).conn d).user) =
      Function.update (fun d => (s.conn d).user) c (some u) := by
    funext d
    rw [user_linkUser, Function.update_apply]
  rw [hclient, huser]
  exact (h.bind_iff u c).2 ⟨.inl hu, .inl hc⟩

lemma client_blockUser (s : State) (blocker u v : UserId) :
    ((blockUser s blocker u).users v).client = (s.users v).client := by
  unfold blockUser
  split
  · rfl
  split
  · rfl
  by_cases hv : v = blocker <;> simp [State.setUser, hv]

lemma conn_blockUser (s : State) (blocker u : UserId) :
    (blockUser s blocker u).conn = s.conn := by
  unfold blockUser
  split
  · rfl
  · split <;> rfl

lemma paired_threeOnline :
    Paired (fun u => (threeOnline.users u).client) fun c => (threeOnline.conn c).user := by
  have hloaded : Loaded threeUsers := loaded_init _
  have hnobody : Paired (fun u => (threeUsers.users u).client)
      fun c => (threeUsers.conn c).user := by
    intro u c
    simp [(hloaded.users u).1, hloaded.conn, newConn]
  simp only [threeOnline, client_blockUser, conn_blockUser]
  apply paired_linkUser _ rfl rfl
  apply paired_linkUser _ rfl rfl
  exact paired_linkUser hnobody rfl rfl

/-- yoda receives the message, and hans is told that not everyone did. -/
theorem broadcastExact_threeOnline :
    BroadcastExact protobufWire threeOnline 0 0 ⟨true, [], text "hello"⟩ :=
  broadcastExact_serve protobufWire (by decide) paired_threeOnline rfl (by decide) rfl

end EpollChat

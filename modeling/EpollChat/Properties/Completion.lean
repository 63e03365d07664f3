import EpollChat.Properties.Drains
import EpollChat.Properties.SessionPairing
import EpollChat.Properties.Teardown

/-!
# Events that complete

A step of the model does not complete where the program would lock a mutex it holds, follow a
pointer to a connection that was freed, store past the end of `clients[]` or past the block of a
chunk list.  The first two have one cause: a user who is bound to a connection that is not his,
or is gone.

While users and connections are paired neither happens.  Of the others, `HasRoom` says exactly where
they do: the table is full and the descriptor is new, or a chunk list would pass the largest
`int`.  So every event that the kernel can report to a server with paired sessions is handled to
its end exactly if there is room for it (`completes_iff`).

Signed sums are taken as they are here.  Where those of the chunk ids and of the times overflow is
said in `ChunkGrowth.lean` and `Deadlines.lean`.
-/

namespace EpollChat

variable (ac : Achelper)

/-! ## States without a fault -/

/-- There is no fault, the connections in `freed` were freed, the mutexes in `held` are locked, and
no user is bound to a connection that was freed. -/
structure Sound (freed held : List ConnId) (s : State) : Prop where
  fault : s.fault = none
  freed_eq : s.freed = freed
  held_eq : s.held = held
  client : ∀ u c, (s.users u).client = some c → c ∉ freed

lemma touch_of_not_freed {s : State} {c : ConnId} (h : c ∉ s.freed) : s.touch c = s := by
  unfold State.touch
  rw [if_neg h]

lemma fault_lock {s : State} {c : ConnId} (h : c ∉ s.held) : (s.lock c).fault = s.fault := by
  unfold State.lock
  rw [if_neg h]

/-- A delivery raises no fault, if its connection is neither freed nor locked. -/
lemma fault_deliver {s : State} {d : Delivery}
    (hd : ∀ c, d.queue = .out c → c ∉ s.freed ∧ c ∉ s.held) :
    (deliver ac s d).fault = s.fault := by
  obtain ⟨queue, why, msg⟩ := d
  rcases queue with c | u
  · obtain ⟨hfreed, hheld⟩ := hd c rfl
    simp only [deliver, sendResponseToClient, touch_of_not_freed hfreed]
    simpa [sendResponseTo, State.unlock, State.emit] using fault_lock hheld
  · simp [deliver, sendResponseTo, State.emit]

namespace Sound

variable {freed held held' : List ConnId} {s t : State}

/-- Who is bound to which connection, and which were freed, is in the core. -/
lemma of_core (h : Sound freed held s) (hcore : t.core = s.core) (hfault : t.fault = none)
    (hheld : t.held = held') : Sound freed held' t where
  fault := hfault
  freed_eq := by
    have hfreed := congrArg State.freed hcore
    exact Eq.trans hfreed h.freed_eq
  held_eq := hheld
  client u c hc := h.client u c (client_eq_of_core hcore u ▸ hc)

lemma touch (h : Sound freed held s) {c : ConnId} (hc : c ∉ freed) : s.touch c = s :=
  touch_of_not_freed (h.freed_eq ▸ hc)

lemma lock (h : Sound freed held s) {c : ConnId} (hc : c ∉ held) :
    Sound freed (c :: held) (s.lock c) := by
  refine h.of_core (State.core_lock s c) ?_ ?_
  · rw [fault_lock (h.held_eq ▸ hc), h.fault]
  · rw [State.held_lock, h.held_eq]

lemma deliver (h : Sound freed held s) {d : Delivery}
    (hd : ∀ c, d.queue = .out c → c ∉ freed ∧ c ∉ held) :
    Sound freed held (deliver ac s d) := by
  refine h.of_core (core_deliver ac s d) ?_ ((held_deliver ac s d).trans h.held_eq)
  rw [fault_deliver ac fun c hc => ⟨h.freed_eq ▸ (hd c hc).1, h.held_eq ▸ (hd c hc).2⟩, h.fault]

lemma deliverAll (h : Sound freed held s) {ds : List Delivery}
    (hds : ∀ d ∈ ds, ∀ c, d.queue = .out c → c ∉ freed ∧ c ∉ held) :
    Sound freed held (deliverAll ac s ds) := by
  induction ds generalizing s with
  | nil => exact h
  | cons d ds ih =>
      exact ih (h.deliver ac (hds d List.mem_cons_self)) fun d' hd' =>
        hds d' (List.mem_cons_of_mem _ hd')

/-- Telling other users, none of whom is bound to a locked connection. -/
lemma announce (h : Sound freed held s) {subject : UserId} {why : UserId → Why}
    {rsp : IMResponse}
    (hothers : ∀ v c, v ≠ subject → (s.users v).client = some c → c ∉ held) :
    Sound freed held (EpollChat.deliverAll ac s (announcements s subject why rsp)) := by
  refine h.deliverAll ac fun d hd c hc => ?_
  obtain ⟨v, e, -, hne, -, -, hclient, rfl⟩ := mem_announcements hd
  obtain rfl := Queue.out.inj hc
  exact ⟨h.client v e hclient, hothers v e hne hclient⟩

/-- A change of user records that binds nobody. -/
lemma setUser (h : Sound freed held s) (u : UserId) {f : User → User}
    (hf : ∀ v, (f v).client = v.client) : Sound freed held (s.setUser u f) :=
  { h with client := fun v c hc => h.client v c (State.client_setUser s u hf v ▸ hc) }

lemma unlink (h : Sound freed held s) (u : UserId) (c : ConnId) :
    Sound freed held (unlink s u c) := by
  refine { h with client := fun v d hd => ?_ }
  rw [client_unlink] at hd
  split at hd
  · cases hd
  · exact h.client v d hd

lemma updateLastActive (h : Sound freed held s) (c : ConnId) :
    Sound freed held (updateLastActive s c) := by
  rcases updateLastActive_eq s c with heq | ⟨u, -, -, heq⟩ <;> rw [heq]
  · exact h
  · exact h.setUser u fun _ => rfl

/-- Ending the session of a user, while nobody else is bound to a locked connection. -/
lemma logoutUser (h : Sound freed held s) (hserver : s.isServer = true) {u : UserId}
    (hothers : ∀ v c, v ≠ u → (s.users v).client = some c → c ∉ held) :
    Sound freed held (logoutUser ac s (some u)) := by
  rcases hc : (s.users u).client with _ | c
  · rw [logoutUser_of_none ac hc]
    exact h
  · rw [logoutUser_of_client ac hserver hc, h.touch (h.client u c hc)]
    refine (h.unlink u c).announce ac fun v d hne hd => ?_
    rw [client_unlink, if_neg hne] at hd
    exact hothers v d hne hd

/-- Closing a connection that is there, while nobody but its own user is bound to it. -/
lemma closeSocket (h : Sound freed [] s) (hserver : s.isServer = true) {c : ConnId}
    (hc : c ∉ freed) (hown : ∀ v, (s.users v).client = some c → (s.conn c).user = some v) :
    Sound freed [] (closeSocket ac s c) := by
  have hlogout : Sound freed [c] (EpollChat.logoutUser ac (s.lock c) (s.conn c).user) := by
    have hlocked : Sound freed [c] (s.lock c) := h.lock (by simp)
    rcases hu : (s.conn c).user with _ | u
    · exact hlocked
    · have hserver' : (s.lock c).isServer = true :=
        (congrArg State.isServer (State.core_lock s c)).trans hserver
      refine hlocked.logoutUser ac hserver' fun v d hne hd hmem => hne ?_
      rw [State.users_lock] at hd
      obtain rfl := List.mem_singleton.mp hmem
      exact Option.some.inj ((hown v hd).symm.trans hu)
  unfold EpollChat.closeSocket
  simp only [h.touch hc, State.conn_lock]
  refine ⟨hlogout.fault, hlogout.freed_eq, ?_, hlogout.client⟩
  show (EpollChat.logoutUser ac (s.lock c) (s.conn c).user).held.erase c = []
  rw [hlogout.held_eq]
  simp

/-! ### The commands -/

lemma cmdLoginImpl (h : Sound freed [] s) {c : ConnId} (hc : c ∉ freed) (r : LoginRequest) :
    Sound freed [] (cmdLoginImpl ac s c r).1 := by
  rcases haccepted : acceptedUser s r.username r.password with _ | u
  · obtain ⟨rsp, hrsp⟩ := cmdLoginImpl_of_refused ac (c := c) haccepted
    rw [hrsp]
    rcases refused_cases s r.username r.password with heq | ⟨u, attempts, lastBlocked, -, heq⟩
    · rwa [heq]
    · rw [heq]
      dsimp only
      exact h.setUser u fun _ => rfl
  · rw [cmdLoginImpl_of_accepted ac haccepted]
    have hrefresh : Sound freed [] (refresh s u) := by
      refine h.setUser u ?_
      exact fun _ => rfl
    have hannounced : Sound freed [] (EpollChat.deliverAll ac (refresh s u)
        (loginAnnouncements ac (refresh s u) u r.username)) := hrefresh.announce ac (by simp)
    refine { hannounced with client := fun v d hd => ?_ }
    -- the user is bound to the connection that is served
    by_cases hv : v = u
    · subst hv
      obtain rfl : c = d := by simpa [link, State.setConn, State.setUser, State.emit] using hd
      exact hc
    · refine hannounced.client v d ?_
      simpa [link, State.setConn, State.setUser, State.emit, hv] using hd

lemma cmdMessageImpl (h : Sound freed [] s) (c : ConnId) (r : MessageRequest) :
    Sound freed [] (cmdMessageImpl ac s c r).1 := by
  have htarget : ∀ v d, sendTarget s v = .out d → d ∉ freed ∧ d ∉ ([] : List ConnId) :=
    fun v d hd => ⟨h.client v d (sendTarget_eq_out hd).1, by simp⟩
  have hloop : ∀ u, Sound freed [] (broadcastLoop ac s u r.msg).1 := fun u => by
    rw [broadcastLoop_eq]
    refine h.deliverAll ac fun d hd e he => ?_
    obtain ⟨v, -, rfl⟩ := List.mem_map.mp hd
    exact htarget v e he
  have hsend : ∀ u v, Sound freed [] (sendMessage ac s v u r.msg).1 := fun u v => by
    rw [sendMessage_eq]
    split
    · exact h
    · exact h.deliver ac fun e he => htarget v e he
  unfold EpollChat.cmdMessageImpl
  split
  · exact h
  · next u hu =>
      split
      · exact h
      · split
        · have hu := hloop u
          dsimp only
          split <;> exact hu
        · split
          · exact h
          · next v hv =>
              have huv := hsend u v
              dsimp only
              split <;> exact huv

lemma cmdGetipImpl (h : Sound freed [] s) (c : ConnId) (r : UsernameRequest) :
    Sound freed [] (cmdGetipImpl ac s c r).1 := by
  rcases cmdGetipImpl_cases ac s c r with ⟨msg, heq⟩ | ⟨u, v, d, -, -, -, -, hclient, heq⟩ <;>
    rw [heq]
  · exact h
  · show Sound freed [] (s.touch d)
    rwa [h.touch (h.client v d hclient)]

lemma cmdSearchfileImpl (h : Sound freed [] s) (c : ConnId) (r : ChunksRequest) :
    Sound freed [] (cmdSearchfileImpl ac s c r).1 := by
  -- the walk over the users only reads
  have hwalk : ∀ (f : FileNode) wanted target, (usersWithChunks s f wanted target).1 = s := by
    intro f wanted target
    unfold usersWithChunks
    suffices hrounds : ∀ (l : List UserId) (acc : State × List UserId × (ℕ → Bool)),
        acc.1 = s → (l.foldl (userWithChunks f wanted target) acc).1 = s from hrounds _ _ rfl
    intro l
    induction l with
    | nil => exact fun _ hacc => hacc
    | cons u l ih =>
        rintro ⟨t, ret, mask⟩ rfl
        refine ih _ ?_
        unfold userWithChunks
        dsimp only
        split
        · next d _ hd => exact h.touch (h.client u d hd)
        · rfl
  unfold EpollChat.cmdSearchfileImpl
  split
  · exact h
  split
  · exact h
  · next f hf =>
      dsimp only
      generalize hfound : usersWithChunks s f _ _ = found
      have hsame : found.1 = s := hfound ▸ hwalk _ _ _
      split <;> exact hsame ▸ h

lemma cmdBlockImpl (h : Sound freed [] s) (c : ConnId) (r : UsernameRequest) :
    Sound freed [] (cmdBlockImpl ac s c r).1 := by
  rcases cmdBlockImpl_cases ac s c r with ⟨msg, heq⟩ | ⟨u, v, msg, -, -, -, -, heq⟩ <;> rw [heq]
  · exact h
  · unfold blockUser
    split
    · exact h
    split
    · exact h
    · dsimp only
      exact h.setUser u fun _ => rfl

lemma cmdUnblockImpl (h : Sound freed [] s) (c : ConnId) (r : UsernameRequest) :
    Sound freed [] (cmdUnblockImpl ac s c r).1 := by
  rcases cmdUnblockImpl_cases ac s c r with ⟨msg, heq⟩ | ⟨u, v, msg, -, -, -, heq⟩ <;> rw [heq]
  · exact h
  · dsimp only [unblockUser]
    exact h.setUser u fun _ => rfl

/-- Appending ids that fit. -/
lemma setChunks (h : Sound freed held s) (c : ConnId) {client : ChunkList} (ids : List UInt32)
    (hroom : client.nchunks.toNat + ids.length ≤ intMax) :
    Sound freed held (setChunks s c (appendChunks client ids)) := by
  rw [appendChunks, if_pos hroom]
  exact { h with }

lemma registerFile (h : Sound freed held s) {c : ConnId} {r : RegisterFileRequest}
    (hroom : (s.conn c).chunks.nchunks.toNat + r.chunks.toNat ≤ intMax) :
    Sound freed held (registerFile s c r) := by
  have hadded : Sound freed held { s with
      fileDb := (addFile s.fileDb s.globalChunkId r.filename r.chunks).1
      globalChunkId := s.globalChunkId + r.chunks } := { h with }
  refine { hadded.setChunks c ((List.range r.chunks.toNat).map fun j =>
    s.globalChunkId + UInt32.ofNat j) ?_ with }
  simpa using hroom

lemma registerChunks (h : Sound freed held s) {c : ConnId} {r : ChunksRequest} {f : FileNode}
    (hroom : (s.conn c).chunks.nchunks.toNat + (parsePackedUint32 r.chunks).length ≤ intMax) :
    Sound freed held (registerChunks s c r f) := by
  refine { h.setChunks c ((parsePackedUint32 r.chunks).map fun chunk =>
    f.chunkSid + chunk) ?_ with }
  simpa using hroom

end Sound

/-! ## Events there is room for -/

/-- **There is room for the event.** A new connection finds its slot or a free one, and a
registration keeps the chunk list within the largest `int`. -/
def HasRoom (s : State) : Event → Prop
  | .accept fd _ => pickClient s fd ≠ none ∨ s.clients.length < maxClients
  | .request (.regfile r) =>
      ∀ c ∈ s.serving, isUserLoggedIn s (s.conn c).user = true →
        findFile s.fileDb r.filename = none →
          (s.conn c).chunks.nchunks.toNat + r.chunks.toNat ≤ intMax
  | .request (.regchunk r) =>
      ∀ c ∈ s.serving, isUserLoggedIn s (s.conn c).user = true →
        findFile s.fileDb r.filename ≠ none →
          (s.conn c).chunks.nchunks.toNat + (parsePackedUint32 r.chunks).length ≤ intMax
  | _ => True

instance (s : State) (e : Event) : Decidable (HasRoom s e) :=
  match e with
  | .accept fd _ =>
      inferInstanceAs (Decidable (pickClient s fd ≠ none ∨ s.clients.length < maxClients))
  | .request (.regfile r) =>
      inferInstanceAs (Decidable (∀ c ∈ s.serving, isUserLoggedIn s (s.conn c).user = true →
        findFile s.fileDb r.filename = none →
          (s.conn c).chunks.nchunks.toNat + r.chunks.toNat ≤ intMax))
  | .request (.regchunk r) =>
      inferInstanceAs (Decidable (∀ c ∈ s.serving, isUserLoggedIn s (s.conn c).user = true →
        findFile s.fileDb r.filename ≠ none →
          (s.conn c).chunks.nchunks.toNat + (parsePackedUint32 r.chunks).length ≤ intMax))
  | .request (.login _) | .request (.message _) | .request (.block _) | .request (.unblock _)
  | .request .logout | .request (.whoelse _) | .request (.getip _) | .request (.searchfile _)
  | .request (.unknown _) | .hangup _ | .eof _ | .readable _ | .readDone | .writable .. | .tick _
  | .sweep => .isTrue trivial

section Serve

variable {freed : List ConnId} {s : State}

/-- A request that there is room for, on a connection that is there. -/
lemma Sound.runCommand (h : Sound freed [] s) (hserver : s.isServer = true) {c : ConnId}
    (hserving : s.serving = some c) (hc : c ∉ freed)
    (hown : ∀ v, (s.users v).client = some c → (s.conn c).user = some v) {req : Request}
    (hroom : HasRoom s (.request req)) : Sound freed [] (runCommand ac s c req).1 := by
  match req with
  | .login r => exact h.cmdLoginImpl ac hc r
  | .message r => exact h.cmdMessageImpl ac c r
  | .block r => exact h.cmdBlockImpl ac c r
  | .unblock r => exact h.cmdUnblockImpl ac c r
  | .logout =>
      show Sound freed [] (cmdLogoutImpl ac s c).1
      unfold cmdLogoutImpl
      split
      · exact h
      · exact h.closeSocket ac hserver hc hown
  | .whoelse r => exact h
  | .getip r => exact h.cmdGetipImpl ac c r
  | .regfile r =>
      show Sound freed [] (cmdRegfileImpl ac s c r).1
      rcases cmdRegfileImpl_cases ac s c r with ⟨_, heq⟩ | ⟨_, _, _, heq⟩ | ⟨_, free, live, heq⟩ <;>
        rw [heq]
      · exact h
      · exact { h with }
      · exact h.registerFile (hroom c hserving live free)
  | .regchunk r =>
      show Sound freed [] (cmdRegchunkImpl ac s c r).1
      unfold cmdRegchunkImpl
      split
      · exact h
      next live =>
      split
      · exact h
      next f found =>
      exact h.registerChunks (hroom c hserving (by simpa using live) (by simp [found]))
  | .searchfile r => exact h.cmdSearchfileImpl ac c r
  | .unknown t => exact h

/-- The state before the response to a request is queued. -/
lemma serve_eq (s : State) (c : ConnId) (req : Request) :
    serve ac s c req = (runRequest ac s c req).1 ∨
      ∃ rsp, serve ac s c req = deliver ac (runRequest ac s c req).1 ⟨.out c, .reply, rsp⟩ := by
  unfold serve
  rcases runRequest ac s c req with ⟨t, _ | rsp⟩
  · exact .inl rfl
  · exact .inr ⟨rsp, rfl⟩

lemma Sound.serve (h : Sound freed [] s) (hserver : s.isServer = true) {c : ConnId}
    (hserving : s.serving = some c) (hc : c ∉ freed)
    (hown : ∀ v, (s.users v).client = some c → (s.conn c).user = some v) {req : Request}
    (hroom : HasRoom s (.request req)) : Sound freed [] (serve ac s c req) := by
  have hrun : Sound freed [] (runRequest ac s c req).1 := by
    by_cases hunknown : ∃ t, req = .unknown t
    · obtain ⟨t, rfl⟩ := hunknown
      exact h
    · rw [runRequest_of_known ac s c fun t ht => hunknown ⟨t, ht⟩]
      exact (h.runCommand ac hserver hserving hc hown hroom).updateLastActive c
  rcases serve_eq ac s c req with heq | ⟨rsp, heq⟩ <;> rw [heq]
  · exact hrun
  · refine hrun.deliver ac fun d hd => ?_
    obtain rfl := Queue.out.inj hd
    exact ⟨hc, by simp⟩

end Serve

/-! ## The other events -/

section Exec

variable {freed : List ConnId} {s : State}

lemma Sound.timeThread (h : Sound freed [] s) (hserver : s.isServer = true)
    (hentries : ∀ c ∈ s.clients, c ∉ freed) : Sound freed [] (timeThread ac s) := by
  unfold EpollChat.timeThread
  -- the loop has come to `t`
  suffices hloop : ∀ (l : List ConnId) (t : State), (∀ c ∈ l, c ∉ freed) → t.isServer = true →
      Sound freed [] t → Sound freed [] (l.foldl (sweepClient ac) t) from
    hloop s.clients s hentries hserver h
  intro l
  induction l with
  | nil => exact fun _ _ _ ht => ht
  | cons c l ih =>
      intro t hl htserver ht
      refine ih _ (fun d hd => hl d (List.mem_cons_of_mem _ hd)) ?_ ?_
      · exact (fewer_sweepClient ac t c).server.trans htserver
      · unfold sweepClient
        split
        · rw [sendResponseToClient_eq]
          refine Sound.deliver ac ?_ fun d hd => ?_
          · rcases (t.conn c).user with _ | u
            · exact ht
            · exact ht.logoutUser ac htserver (by simp)
          · obtain rfl := Queue.out.inj hd
            exact ⟨hl c List.mem_cons_self, by simp⟩
        · exact ht

lemma Sound.networkWritable (h : Sound freed [] s) (c : ConnId) (n₁ n₂ : Option ℕ) :
    Sound freed [] (networkWritable s c n₁ n₂) := by
  have hsend : ∀ {t : State}, Sound freed [c] t → ∀ q n,
      Sound freed [c] (imSendBuffer t c q n) := by
    intro t ht q n
    have hsame : (imSendBuffer t c q n).fault = t.fault ∧ (imSendBuffer t c q n).held = t.held := by
      have hdone : ∀ (t : State) (len k : ℕ), (imSendBufferDone t c q len k).fault = t.fault ∧
          (imSendBufferDone t c q len k).held = t.held := by
        intro t len k
        unfold imSendBufferDone
        split <;> simp
      unfold imSendBuffer
      dsimp only
      split
      · rcases n with _ | k
        · exact ⟨rfl, rfl⟩
        · exact hdone _ _ _
      · exact hdone _ _ _
    exact ht.of_core (core_imSendBuffer t c q n) (hsame.1.trans ht.fault)
      (hsame.2.trans ht.held_eq)
  have hdrained : Sound freed [c]
      (drainOffline s c n₂ (imSendBuffer (s.lock c) c (.out c) n₁)) := by
    have hfirst := hsend (h.lock (c := c) (by simp)) (.out c) n₁
    unfold drainOffline
    split
    · exact hsend hfirst _ n₂
    · exact hfirst
  rw [networkWritable_eq]
  refine { hdrained with held_eq := ?_ }
  show List.erase _ c = []
  rw [hdrained.held_eq]
  simp

/-- Accepting raises a fault exactly if the table is full and the descriptor is new. -/
lemma fault_acceptClient (s : State) (fd : ℕ) (addr : SockAddr) :
    (acceptClient s fd addr).fault = none ↔
      s.fault = none ∧ (pickClient s fd ≠ none ∨ s.clients.length < maxClients) := by
  unfold acceptClient
  rcases hslot : pickClient s fd with _ | i
  · dsimp only
    by_cases hroom : s.clients.length < maxClients
    · simp [hroom]
    · simp [hroom, State.raise]
  · simp

/-- **The events of a sound state.** An event that there is room for raises no fault, and leaves no
mutex locked. -/
lemma Sound.exec (h : Sound s.freed [] s) (hs : TableOk s)
    (hentries : ∀ c ∈ s.clients, c ∉ s.freed)
    (hown : ∀ v c, (s.users v).client = some c → (s.conn c).user = some v) {e : Event}
    (hroom : HasRoom s e) : (exec ac s e).fault = none ∧ (exec ac s e).held = [] := by
  have hclose : ∀ fd, Sound s.freed [] (EpollChat.exec ac s (.hangup fd)) := fun fd => by
    rw [EpollChat.exec]
    split
    · next c hpick =>
        exact h.closeSocket ac hs.server (hentries c (pickConn_some hpick).1) fun v => hown v c
    · exact h
  rcases e with ⟨fd, addr⟩ | fd | fd | fd | req | _ | ⟨fd, n₁, n₂⟩ | seconds | _
  · refine ⟨(fault_acceptClient s fd addr).mpr ⟨h.fault, hroom⟩, ?_⟩
    obtain ⟨_, _, heq⟩ := acceptClient_eq s fd addr
    show (acceptClient s fd addr).held = []
    rw [heq]
    exact h.held_eq
  · exact ⟨(hclose fd).fault, (hclose fd).held_eq⟩
  · exact ⟨(hclose fd).fault, (hclose fd).held_eq⟩
  · exact ⟨h.fault, h.held_eq⟩
  · rw [EpollChat.exec]
    split
    · next c hserving =>
        have hserve := h.serve ac hs.server hserving
          (hentries c (hs.serving_ok c hserving).1) (fun v => hown v c) hroom
        exact ⟨hserve.fault, hserve.held_eq⟩
    · exact ⟨h.fault, h.held_eq⟩
  · exact ⟨h.fault, h.held_eq⟩
  · rw [EpollChat.exec]
    split
    · next c _ => exact ⟨(h.networkWritable c n₁ n₂).fault, (h.networkWritable c n₁ n₂).held_eq⟩
    · exact ⟨h.fault, h.held_eq⟩
  · exact ⟨h.fault, h.held_eq⟩
  · have hswept := h.timeThread ac hs.server hentries
    exact ⟨hswept.fault, hswept.held_eq⟩

end Exec

/-! ## An event without room -/

lemma fault_raise (s : State) (f : Fault) : (s.raise f).fault ≠ none := by
  unfold State.raise
  rcases s.fault with _ | g <;> simp

/-- A delivery does not undo a fault. -/
lemma fault_of_deliver {s : State} {d : Delivery} (h : (deliver ac s d).fault = none) :
    s.fault = none := by
  have htouch : ∀ (t : State) c, (t.touch c).fault = none → t.fault = none := fun t c ht => by
    unfold State.touch at ht
    split at ht
    · exact absurd ht (fault_raise t _)
    · exact ht
  have hlock : ∀ (t : State) c, (t.lock c).fault = none → t.fault = none := fun t c ht => by
    unfold State.lock at ht
    split at ht
    · exact absurd ht (fault_raise t _)
    · exact ht
  obtain ⟨queue, why, msg⟩ := d
  rcases queue with c | u
  · refine htouch s c (hlock _ c ?_)
    simpa [deliver, sendResponseToClient, sendResponseTo, State.unlock, State.emit] using h
  · simpa [deliver, sendResponseTo, State.emit] using h

/-- A request that was handled without a fault was run without one. -/
lemma fault_runCommand_of_serve {s : State} {c : ConnId} {req : Request}
    (hknown : ∀ t, req ≠ .unknown t) (h : (serve ac s c req).fault = none) :
    (runCommand ac s c req).1.fault = none := by
  have hrun : (runRequest ac s c req).1.fault = none := by
    rcases serve_eq ac s c req with heq | ⟨rsp, heq⟩ <;> rw [heq] at h
    · exact h
    · exact fault_of_deliver ac h
  rw [runRequest_of_known ac s c hknown] at hrun
  rcases updateLastActive_eq (runCommand ac s c req).1 c with heq | ⟨u, -, -, heq⟩ <;>
    rwa [heq] at hrun

/-- Ids that do not fit are stored outside the block. -/
lemma fault_setChunks {s : State} {c : ConnId} {client : ChunkList} {ids : List UInt32}
    (h : (setChunks s c (appendChunks client ids)).fault = none) :
    client.nchunks.toNat + ids.length ≤ intMax := by
  by_contra hlarge
  rw [appendChunks, if_neg hlarge] at h
  exact fault_raise s _ h

/-- A live connection registers a file that is not there. -/
lemma cmdRegfileImpl_of_free {s : State} {c : ConnId} {r : RegisterFileRequest}
    (live : isUserLoggedIn s (s.conn c).user = true) (free : findFile s.fileDb r.filename = none) :
    (cmdRegfileImpl ac s c r).1 = registerFile s c r := by
  have hadded := (addFile_of_none free s.globalChunkId r.chunks).1
  unfold cmdRegfileImpl registerFile
  rcases hadd : addFile s.fileDb s.globalChunkId r.filename r.chunks with ⟨fileDb, gid, o⟩
  rw [hadd] at hadded
  obtain ⟨rfl, rfl⟩ :
      gid = s.globalChunkId + r.chunks ∧ o = some ⟨r.chunks, s.globalChunkId⟩ := by
    simpa using hadded
  simp only [live, Bool.not_true, Bool.false_eq_true, if_false]

/-- A live connection registers chunks of a file that is there. -/
lemma cmdRegchunkImpl_of_found {s : State} {c : ConnId} {r : ChunksRequest} {f : FileNode}
    (live : isUserLoggedIn s (s.conn c).user = true)
    (found : findFile s.fileDb r.filename = some f) :
    (cmdRegchunkImpl ac s c r).1 = registerChunks s c r f := by
  unfold cmdRegchunkImpl registerChunks
  simp only [live, Bool.not_true, Bool.false_eq_true, if_false, found]

/-- **There is room for an event without a fault**, whatever state it happens in. -/
lemma hasRoom_of_fault {s : State} {e : Event} (h : (exec ac s e).fault = none) : HasRoom s e := by
  unfold HasRoom
  split
  · next fd addr => exact ((fault_acceptClient s fd addr).mp h).2
  · next r =>
      intro c hserving live free
      have hserve : (serve ac s c (.regfile r)).fault = none := by
        rw [Option.mem_def] at hserving
        simpa only [exec, hserving] using h
      have hcommand := fault_runCommand_of_serve ac (by simp) hserve
      rw [show runCommand ac s c (.regfile r) = cmdRegfileImpl ac s c r from rfl,
        cmdRegfileImpl_of_free ac live free] at hcommand
      simpa using fault_setChunks hcommand
  · next r =>
      intro c hserving live found
      obtain ⟨f, hf⟩ := Option.ne_none_iff_exists'.mp found
      have hserve : (serve ac s c (.regchunk r)).fault = none := by
        rw [Option.mem_def] at hserving
        simpa only [exec, hserving] using h
      have hcommand := fault_runCommand_of_serve ac (by simp) hserve
      rw [show runCommand ac s c (.regchunk r) = cmdRegchunkImpl ac s c r from rfl,
        cmdRegchunkImpl_of_found ac live hf] at hcommand
      simpa using fault_setChunks hcommand
  · trivial

/-! ## All runs -/

/-- No entry of the table was freed, and what was freed existed. -/
def FreedGone (s : State) : Prop :=
  (∀ c ∈ s.clients, c ∉ s.freed) ∧ ∀ c ∈ s.freed, c < s.nconns

/-- Session moves free what they take out of the table. -/
lemma freedGone_move {bindOk : State → ConnId → UserId → Prop} {s s' : State} (hs : TableOk s)
    (h : FreedGone s) (move : SessionMove bindOk s s') : FreedGone s' := by
  obtain ⟨hentries, hlt⟩ := h
  rcases move with ⟨fd, addr, free, idle⟩ | _ | _ | ⟨c, serves⟩ | _ | _ | _ | _
  · have hnodup : s.clients.Nodup := .of_map _ hs.fds_nodup
    have hfresh : s.nconns ∉ s.freed := fun hmem => Nat.lt_irrefl _ (hlt _ hmem)
    show (∀ c ∈ (acceptClient s fd addr).clients, c ∉ (acceptClient s fd addr).freed) ∧
      ∀ c ∈ (acceptClient s fd addr).freed, c < (acceptClient s fd addr).nconns
    rw [nconns_acceptClient]
    unfold acceptClient
    rcases hslot : pickClient s fd with _ | i
    · have hfreed : (if s.clients.length < maxClients then s
          else s.raise .tableOverflow).freed = s.freed := by split <;> rfl
      have hclients : (if s.clients.length < maxClients then s
          else s.raise .tableOverflow).clients = s.clients := by split <;> rfl
      dsimp only
      rw [hfreed, hclients]
      refine ⟨fun c hc => ?_, fun c hc => Nat.lt_succ_of_lt (hlt c hc)⟩
      rcases List.mem_append.mp hc with hc | hc
      · exact hentries c hc
      · exact List.mem_singleton.mp hc ▸ hfresh
    · obtain ⟨hi, -, -⟩ := List.findIdx?_eq_some_iff_getElem.mp hslot
      have hold : s.clients.getD i s.nconns = s.clients[i] := by simp [hi]
      dsimp only
      rw [hold]
      refine ⟨fun c hc hfreed => ?_, fun c hc => ?_⟩
      · obtain ⟨j, hj, rfl⟩ := List.mem_iff_getElem.mp hc
        rw [List.length_set] at hj
        rw [List.getElem_set] at hfreed
        split at hfreed
        · rcases List.mem_cons.mp hfreed with heq | hmem
          · have hlt' := hs.clients_lt _ (List.getElem_mem hi)
            rw [← heq] at hlt'
            exact Nat.lt_irrefl _ hlt'
          · exact hfresh hmem
        · next hij =>
            rcases List.mem_cons.mp hfreed with heq | hmem
            · exact hij ((hnodup.getElem_inj_iff).mp heq).symm
            · exact hentries _ (List.getElem_mem hj) hmem
      · rcases List.mem_cons.mp hc with rfl | hc
        · exact Nat.lt_succ_of_lt (hs.clients_lt _ (List.getElem_mem hi))
        · exact Nat.lt_succ_of_lt (hlt c hc)
  · exact ⟨hentries, hlt⟩
  · exact ⟨hentries, hlt⟩
  · rcases updateLastActive_eq s c with heq | ⟨u, -, -, heq⟩ <;> rw [heq] <;>
      exact ⟨hentries, hlt⟩
  · exact ⟨hentries, hlt⟩
  · exact ⟨hentries, hlt⟩
  · exact ⟨hentries, hlt⟩
  · exact ⟨hentries, hlt⟩

lemma freedGone_run {p : Setup} {ok : State → Event → Prop} {es : List Event} {s : State}
    (run : ServerRun ac p ok es s) : FreedGone s := by
  refine run.invariant_of ?_ (fun run => tableOk_run ac run) ?_
  · have hfreed : p.init.freed = [] := by
      unfold Setup.init
      generalize p.credentials = l
      suffices h : ∀ s : State, s.freed = [] →
          (l.foldl (fun s nw => (addUser s nw.1 nw.2).1) s).freed = [] from h _ rfl
      induction l with
      | nil => exact fun _ h => h
      | cons nw l ih => exact fun s h => ih _ h
    rw [FreedGone, hfreed]
    exact ⟨fun _ _ => List.not_mem_nil, fun _ h => absurd h List.not_mem_nil⟩
  · intro s e s' hs h _ hstep
    have hmoves := sessions_step_any ac hs hstep
    have h' := hmoves.invariant (P := fun t => TableOk t ∧ FreedGone t)
      (fun _ _ h move => ⟨tableOk_move h.1 move, freedGone_move h.1 h.2 move⟩)
      ⟨tableOk_sessions.mpr hs, h⟩
    exact h'.2

/-- With paired sessions, no user is bound to a connection that was freed. -/
lemma SessionsPaired.sound {s : State} (h : SessionsPaired s) (hs : TableOk s)
    (hgone : FreedGone s) (hfault : s.fault = none) (hheld : s.held = []) :
    Sound s.freed [] s where
  fault := hfault
  freed_eq := rfl
  held_eq := hheld
  client u c hc := hgone.1 c (hs.sock_ok _ c (h.isOpen u c hc)).1

/-- A server between two events: sessions are paired, nothing failed, and no mutex is locked. -/
structure Ready (s : State) : Prop where
  paired : SessionsPaired s
  fault : s.fault = none
  held : s.held = []

/-- An event is handled to its end, and no mutex stays locked, exactly if there is room for it. -/
lemma Ready.exec_iff {s : State} (h : Ready s) (hs : TableOk s) (hgone : FreedGone s) (e : Event) :
    (exec ac s e).fault = none ∧ (exec ac s e).held = [] ↔ HasRoom s e :=
  ⟨fun hexec => hasRoom_of_fault ac hexec.1, fun hroom =>
    (h.paired.sound hs hgone h.fault h.held).exec ac hs hgone.1
      (fun u c hc => (h.paired.paired u c).mp hc) hroom⟩

lemma Loaded.ready {s : State} (hs : Loaded s) : Ready s := ⟨hs.sessionsPaired, hs.fault, hs.held⟩

/-- A completed step of a ready server leads to a ready one. -/
lemma Ready.step {s s' : State} {e : Event} (h : Ready s) (hs : TableOk s) (hgone : FreedGone s)
    (hok : LoginsMeet BindsFree s e) (hstep : step ac s e = some s') : Ready s' := by
  have hpaired := h.paired.step ac hs hok hstep
  obtain ⟨-, hfault, rfl⟩ := (step_eq_some ac).mp hstep
  have hheld := ((h.exec_iff ac hs hgone e).mpr (hasRoom_of_fault ac hfault)).2
  exact ⟨hpaired, hfault, hheld⟩

lemma ready_run {p : Setup} {es : List Event} {s : State}
    (run : ServerRun ac p (LoginsMeet BindsFree) es s) : Ready s :=
  run.invariant_of (loaded_init p).ready
    (fun run => And.intro (tableOk_run ac run) (freedGone_run ac run))
    fun hs h hok hstep => h.step ac hs.1 hs.2 hok hstep

/-- **Completion.** In every run whose accepted logins bind free users to free open connections,
an event that the kernel can report is handled to its end exactly if there is room for it: no mutex
is locked twice, no freed connection is followed, and nothing is stored past the end of `clients[]`
or of the block of a chunk list.  Then no mutex stays locked. -/
theorem completes_iff {p : Setup} {es : List Event} {s : State}
    (run : ServerRun ac p (LoginsMeet BindsFree) es s) {e : Event} (he : enabled s e) :
    (∃ s', step ac s e = some s' ∧ s'.held = []) ↔ HasRoom s e := by
  have hexec := (ready_run ac run).exec_iff ac (tableOk_run ac run) (freedGone_run ac run) e
  rw [← hexec]
  constructor
  · rintro ⟨s', hstep, hheld⟩
    obtain ⟨-, hfault, rfl⟩ := (step_eq_some ac).mp hstep
    exact ⟨hfault, hheld⟩
  · rintro ⟨hfault, hheld⟩
    exact ⟨_, (step_eq_some ac).mpr ⟨he, hfault, rfl⟩, hheld⟩

/-- A second user messages the first, and the first connection hangs up. -/
theorem completes_iff_demo :
    ∃ s, ServerRun protobufWire demo (LoginsMeet BindsFree)
        (acceptAndServe 5 [loginAs "hans" "falcon"] ++
          acceptAndServe 6 [loginAs "yoda" "wise", messageTo "hans" "hi"]) s ∧
      enabled s (.hangup 5) ∧
      ((∃ s', step protobufWire s (.hangup 5) = some s' ∧ s'.held = []) ↔
        HasRoom s (.hangup 5)) := by
  obtain ⟨s, run, henabled⟩ := Run.exists_of_execute (step protobufWire) (LoginsMeet BindsFree)
    demo.init
    (acceptAndServe 5 [loginAs "hans" "falcon"] ++
      acceptAndServe 6 [loginAs "yoda" "wise", messageTo "hans" "hi"])
    (fun s => decide (enabled s (.hangup 5))) (by decide +kernel)
  have henabled := of_decide_eq_true henabled
  exact ⟨s, run, henabled, completes_iff protobufWire run henabled⟩

end EpollChat

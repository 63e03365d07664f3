import EpollChat.Properties.Deliveries

/-!
# What requests do

Every request but a login and a logout does one of five things to the state, besides its answer:
it only reads, it queues chat messages from the connection's user, it rewrites that user's block
list, it registers a file, or it registers chunks.  `CommandEffect` lists the five with what is
known where they happen, and `runCommand_effect` is the one case analysis over the commands.

A request on a connection without a live session is answered and does nothing
(`runCommand_of_not_loggedIn`).
-/

namespace EpollChat

variable (ac : Achelper)

/-- The requests that are neither a login nor a logout. -/
def Request.isQuiet : Request → Bool
  | .login _ => false
  | .logout => false
  | _ => true

/-- The users a message request is addressed to. -/
def Addressed (s : State) (sender : UserId) (req : MessageRequest) (v : UserId) : Prop :=
  if req.broadcast then v ∈ s.first ∧ v ≠ sender ∧ isUserLoggedIn s (some v) = true
  else findUser s req.username = some v

/-- The state after the registration of a file under a free name. -/
def registerFile (s : State) (c : ConnId) (req : RegisterFileRequest) : State :=
  let f : FileNode := ⟨req.chunks, s.globalChunkId⟩
  (setChunks
    { s with
      fileDb := (addFile s.fileDb s.globalChunkId req.filename req.chunks).1
      globalChunkId := s.globalChunkId + req.chunks } c
    (regAllFileChunk (s.conn c).chunks f)).emit (.regFile c (cstr req.filename))

/-- The state after the registration of chunks of a file. -/
def registerChunks (s : State) (c : ConnId) (req : ChunksRequest) (f : FileNode) : State :=
  (setChunks s c (regFileChunk (s.conn c).chunks f (parsePackedUint32 req.chunks))).emit
    (.regChunks c (cstr req.filename) (parsePackedUint32 req.chunks))

/-- A registration is refused, finds the name taken, or registers the file. -/
lemma cmdRegfileImpl_cases (s : State) (c : ConnId) (req : RegisterFileRequest) :
    (∃ msg, cmdRegfileImpl ac s c req =
        (s, some (encodeTextResponseToIMResponse ac msg false))) ∨
      (∃ f msg, findFile s.fileDb req.filename = some f ∧ cmdRegfileImpl ac s c req =
        ({ s with fileDb := (addFile s.fileDb s.globalChunkId req.filename req.chunks).1 },
          some (encodeTextResponseToIMResponse ac msg false))) ∨
      ∃ msg, findFile s.fileDb req.filename = none ∧
        isUserLoggedIn s (s.conn c).user = true ∧ cmdRegfileImpl ac s c req =
          (registerFile s c req, some (encodeTextResponseToIMResponse ac msg true)) := by
  unfold cmdRegfileImpl
  split
  · exact .inl ⟨_, rfl⟩
  next live =>
  have live : isUserLoggedIn s (s.conn c).user = true := by simpa using live
  rcases hadd : addFile s.fileDb s.globalChunkId req.filename req.chunks with ⟨fileDb, gid, o⟩
  have hdb : fileDb = (addFile s.fileDb s.globalChunkId req.filename req.chunks).1 := by rw [hadd]
  right
  cases hfind : findFile s.fileDb req.filename with
  | some f =>
      have hsnd := (addFile_of_some hfind s.globalChunkId req.chunks).1
      rw [hadd] at hsnd
      obtain ⟨rfl, rfl⟩ : gid = s.globalChunkId ∧ o = none := by simpa using hsnd
      exact .inl ⟨f, _, rfl, by rw [hdb]⟩
  | none =>
      have hsnd := (addFile_of_none hfind s.globalChunkId req.chunks).1
      rw [hadd] at hsnd
      obtain ⟨rfl, rfl⟩ :
          gid = s.globalChunkId + req.chunks ∧ o = some ⟨req.chunks, s.globalChunkId⟩ := by
        simpa using hsnd
      exact .inr ⟨_, rfl, live, by rw [hdb]; rfl⟩

/-- What a request other than a login or a logout does to the state. -/
inductive CommandEffect (s : State) (c : ConnId) : Request → State → Prop
  /-- It only reads, perhaps through other connections. -/
  | reads (req : Request) (cs : List ConnId) : CommandEffect s c req (cs.foldl State.touch s)
  /-- It queues messages to users it is addressed to. -/
  | messages (req : MessageRequest) (sender : UserId) (ds : List Delivery)
      (own : (s.conn c).user = some sender) (live : isUserLoggedIn s (some sender) = true)
      (chats : ∀ d ∈ ds, ∃ v, Addressed s sender req v ∧ hasBlockedUser s v sender = false ∧
        d = ⟨sendTarget s v, .chat v sender, chatResponse ac s sender req.msg⟩) :
      CommandEffect s c (.message req) (deliverAll ac s ds)
  /-- It rewrites the block list of the connection's user. -/
  | blocks (req : Request) (self : UserId) (f : List UserId → List UserId)
      (own : (s.conn c).user = some self) (live : isUserLoggedIn s (some self) = true) :
      CommandEffect s c req (s.setUser self fun v => { v with blocked := f v.blocked })
  /-- It registers a file under a taken name. -/
  | taken (req : RegisterFileRequest) (f : FileNode)
      (found : findFile s.fileDb req.filename = some f) :
      CommandEffect s c (.regfile req)
        { s with fileDb := (addFile s.fileDb s.globalChunkId req.filename req.chunks).1 }
  /-- It registers a file under a free name. -/
  | file (req : RegisterFileRequest) (free : findFile s.fileDb req.filename = none)
      (live : isUserLoggedIn s (s.conn c).user = true) :
      CommandEffect s c (.regfile req) (registerFile s c req)
  /-- It registers chunks of a file. -/
  | chunks (req : ChunksRequest) (f : FileNode)
      (found : findFile s.fileDb req.filename = some f)
      (live : isUserLoggedIn s (s.conn c).user = true) :
      CommandEffect s c (.regchunk req) (registerChunks s c req f)

namespace CommandEffect

variable {ac} {s : State} {c : ConnId}

lemma same (req : Request) : CommandEffect ac s c req s := .reads req []

/-! ## The commands one by one -/

lemma message (req : MessageRequest) :
    CommandEffect ac s c (.message req) (cmdMessageImpl ac s c req).1 := by
  unfold cmdMessageImpl
  split
  · exact same _
  · next sender own =>
      split
      · exact same _
      next live =>
      have live : isUserLoggedIn s (some sender) = true := by simpa using live
      split
      · next hbroadcast =>
          have hloop : CommandEffect ac s c (.message req)
              (broadcastLoop ac s sender req.msg).1 := by
            rw [broadcastLoop_eq]
            refine .messages req sender _ own live fun d hd => ?_
            obtain ⟨v, hv, rfl⟩ := List.mem_map.mp hd
            obtain ⟨hmem, hcond⟩ := List.mem_filter.mp hv
            obtain ⟨⟨hne, hlogged⟩, hblocked⟩ := of_decide_eq_true hcond
            refine ⟨v, ?_, by simpa using hblocked, rfl⟩
            rw [Addressed, if_pos hbroadcast]
            exact ⟨hmem, hne, hlogged⟩
          dsimp only
          split <;> exact hloop
      · next hbroadcast =>
          split
          · exact same _
          · next v hfind =>
              rw [sendMessage_eq]
              by_cases hblocked : hasBlockedUser s v sender
              · rw [if_pos hblocked]
                exact same _
              · rw [if_neg hblocked]
                refine .messages req sender [_] own live fun d hd => ?_
                obtain rfl := List.mem_singleton.mp hd
                refine ⟨v, ?_, by simpa using hblocked, rfl⟩
                rw [Addressed, if_neg hbroadcast]
                exact hfind

lemma block (req : UsernameRequest) :
    CommandEffect ac s c (.block req) (cmdBlockImpl ac s c req).1 := by
  rcases cmdBlockImpl_cases ac s c req with
    ⟨msg, hrefused⟩ | ⟨self, v, msg, own, live, hne, hnot, hblock⟩
  · rw [hrefused]
    exact same _
  · rw [hblock, blockUser, if_neg hne, if_neg (Bool.eq_false_iff.mp hnot)]
    exact .blocks _ self _ own live

lemma unblock (req : UsernameRequest) :
    CommandEffect ac s c (.unblock req) (cmdUnblockImpl ac s c req).1 := by
  rcases cmdUnblockImpl_cases ac s c req with
    ⟨msg, hrefused⟩ | ⟨self, v, msg, own, live, hblocked, hunblock⟩
  · rw [hrefused]
    exact same _
  · rw [hunblock]
    exact .blocks _ self (unblockLoop v) own live

lemma getip (req : UsernameRequest) :
    CommandEffect ac s c (.getip req) (cmdGetipImpl ac s c req).1 := by
  rcases cmdGetipImpl_cases ac s c req with ⟨msg, hrefused⟩ | ⟨_, _, d, -, -, -, -, -, hgetip⟩
  · rw [hrefused]
    exact same _
  · rw [hgetip]
    exact .reads _ [d]

lemma regfile (req : RegisterFileRequest) :
    CommandEffect ac s c (.regfile req) (cmdRegfileImpl ac s c req).1 := by
  rcases cmdRegfileImpl_cases ac s c req with
    ⟨msg, hrefused⟩ | ⟨f, msg, found, htaken⟩ | ⟨msg, free, live, hregister⟩
  · rw [hrefused]
    exact same _
  · rw [htaken]
    exact .taken req f found
  · rw [hregister]
    exact .file req free live

lemma regchunk (req : ChunksRequest) :
    CommandEffect ac s c (.regchunk req) (cmdRegchunkImpl ac s c req).1 := by
  unfold cmdRegchunkImpl
  split
  · exact same _
  next live =>
  have live : isUserLoggedIn s (s.conn c).user = true := by simpa using live
  split
  · exact same _
  next f found =>
  exact .chunks req f found live

lemma searchfile (req : ChunksRequest) :
    CommandEffect ac s c (.searchfile req) (cmdSearchfileImpl ac s c req).1 := by
  have hsearch : ∀ (f : FileNode) (wanted : ℕ → Bool) (target : ℕ),
      ∃ cs : List ConnId, (usersWithChunks s f wanted target).1 = cs.foldl State.touch s := by
    intro f wanted target
    unfold usersWithChunks
    generalize s.first = l
    suffices h : ∀ acc : State × List UserId × (ℕ → Bool),
        (∃ cs : List ConnId, acc.1 = cs.foldl State.touch s) →
          ∃ cs : List ConnId,
            (l.foldl (userWithChunks f wanted target) acc).1 = cs.foldl State.touch s from
      h _ ⟨[], rfl⟩
    induction l with
    | nil => exact fun _ h => h
    | cons u l ih =>
        intro acc hacc
        refine ih _ ?_
        obtain ⟨t, ret, mask⟩ := acc
        obtain ⟨cs, rfl⟩ := hacc
        unfold userWithChunks
        dsimp only
        split
        · next d _ _ => exact ⟨cs ++ [d], by simp⟩
        · exact ⟨cs, rfl⟩
  unfold cmdSearchfileImpl
  split
  · exact same _
  split
  · exact same _
  · dsimp only
    generalize hfound : usersWithChunks s _ _ _ = found
    obtain ⟨cs, hcs⟩ : ∃ cs : List ConnId, found.1 = cs.foldl State.touch s :=
      hfound ▸ hsearch _ _ _
    split <;>
    · rw [hcs]
      exact .reads _ cs

end CommandEffect

/-- **The case analysis over the commands.** -/
lemma runCommand_effect (s : State) (c : ConnId) {req : Request} (hquiet : req.isQuiet = true) :
    CommandEffect ac s c req (runCommand ac s c req).1 := by
  cases req with
  | login req => cases hquiet
  | logout => cases hquiet
  | message req => exact .message req
  | block req => exact .block req
  | unblock req => exact .unblock req
  | whoelse req => exact .same _
  | getip req => exact .getip req
  | regfile req => exact .regfile req
  | regchunk req => exact .regchunk req
  | searchfile req => exact .searchfile req
  | unknown type => exact .same _

/-- A request of a known type is run, and then the time of the last activity is refreshed. -/
lemma runRequest_of_known (s : State) (c : ConnId) {req : Request}
    (hknown : ∀ t, req ≠ .unknown t) :
    (runRequest ac s c req).1 = updateLastActive (runCommand ac s c req).1 c := by
  cases req with
  | unknown t => exact absurd rfl (hknown t)
  | _ => rfl

/-! ## Requests without a session -/

/-- Nothing but the outbuffer of `c` has changed: no user, block list, file, chunk list, session
pointer or other connection's buffer. -/
structure Untouched (s s' : State) (c : ConnId) : Prop where
  users : s'.users = s.users
  fileDb : s'.fileDb = s.fileDb
  globalChunkId : s'.globalChunkId = s.globalChunkId
  chunks : ∀ d, (s'.conn d).chunks = (s.conn d).chunks
  user : ∀ d, (s'.conn d).user = (s.conn d).user
  others : ∀ d, d ≠ c → s'.conn d = s.conn d

lemma untouched_deliver_out (s : State) (c : ConnId) (why : Why) (msg : IMResponse) :
    Untouched s (deliver ac s ⟨.out c, why, msg⟩) c := by
  have hcore := core_deliver ac s ⟨.out c, why, msg⟩
  refine ⟨users_deliver_out ac s c why msg, fileDb_eq_of_core hcore,
    globalChunkId_eq_of_core hcore, chunks_eq_of_core hcore, user_eq_of_core hcore,
    fun d hd => ?_⟩
  rw [conn_deliver_out, Function.update_of_ne hd]

/-- A request of a known type other than a login, on a connection without a live session, is
answered and does nothing. -/
lemma runCommand_of_not_loggedIn {s : State} {c : ConnId}
    (h : isUserLoggedIn s (s.conn c).user = false) {req : Request}
    (hlogin : ∀ r, req ≠ .login r) (hknown : ∀ t, req ≠ .unknown t) :
    runCommand ac s c req = (s, some (notLoggedIn ac)) := by
  cases req with
  | login r => exact absurd rfl (hlogin r)
  | unknown t => exact absurd rfl (hknown t)
  | logout => simp only [runCommand, cmdLogoutImpl, h, Bool.not_false, if_true]
  | whoelse r => simp only [runCommand, cmdWhoelseImpl, h, Bool.not_false, if_true]
  | regfile r => simp only [runCommand, cmdRegfileImpl, h, Bool.not_false, if_true]
  | regchunk r => simp only [runCommand, cmdRegchunkImpl, h, Bool.not_false, if_true]
  | searchfile r => simp only [runCommand, cmdSearchfileImpl, h, Bool.not_false, if_true]
  | message r =>
      cases hu : (s.conn c).user with
      | none => simp only [runCommand, cmdMessageImpl, hu]
      | some u =>
          rw [hu] at h
          simp only [runCommand, cmdMessageImpl, hu, h, Bool.not_false, if_true]
  | block r =>
      cases hu : (s.conn c).user with
      | none => simp only [runCommand, cmdBlockImpl, hu]
      | some u =>
          rw [hu] at h
          simp only [runCommand, cmdBlockImpl, hu, h, Bool.not_false, if_true]
  | unblock r =>
      cases hu : (s.conn c).user with
      | none => simp only [runCommand, cmdUnblockImpl, hu]
      | some u =>
          rw [hu] at h
          simp only [runCommand, cmdUnblockImpl, hu, h, Bool.not_false, if_true]
  | getip r =>
      cases hu : (s.conn c).user with
      | none => simp only [runCommand, cmdGetipImpl, hu]
      | some u =>
          rw [hu] at h
          simp only [runCommand, cmdGetipImpl, hu, h, Bool.not_false, if_true]

lemma updateLastActive_of_not_loggedIn {s : State} {c : ConnId}
    (h : isUserLoggedIn s (s.conn c).user = false) : updateLastActive s c = s := by
  unfold updateLastActive
  cases hu : (s.conn c).user with
  | none => rfl
  | some u =>
      rw [hu] at h
      simp only [h, Bool.false_eq_true, if_false]

/-- **A request without a session** has one effect: a failure response is queued for the
connection it came on. -/
lemma serve_of_not_loggedIn {s : State} {c : ConnId}
    (h : isUserLoggedIn s (s.conn c).user = false) {req : Request}
    (hlogin : ∀ r, req ≠ .login r) (hknown : ∀ t, req ≠ .unknown t) :
    serve ac s c req = deliver ac s ⟨.out c, .reply, notLoggedIn ac⟩ := by
  have hrun : runRequest ac s c req = (s, some (notLoggedIn ac)) := by
    have hcommand := runCommand_of_not_loggedIn ac h hlogin hknown
    cases req with
    | unknown t => exact absurd rfl (hknown t)
    | _ =>
        simp only [runRequest, hcommand, updateLastActive_of_not_loggedIn h]
  unfold serve
  rw [hrun]
  rfl

end EpollChat

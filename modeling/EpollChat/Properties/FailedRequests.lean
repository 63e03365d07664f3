import EpollChat.Construction.Demo
import EpollChat.Properties.SessionMachine

/-!
# Failed requests

A request that is answered with `success` false has failed before it wrote anything that lasts.
The handlers test first and write last, with two things to check.  `addFile` makes the trie nodes
of a name before it finds the name taken, and these nodes are blank, so that no lookup sees them.
And the time of the last activity is refreshed after every request, failed or not.

Logins and broadcasts are different: a wrong password is counted, and a broadcast that some
recipient has blocked is still delivered to the others.

`runCommand_of_failed` is the case analysis over the handlers.  `failed_unchanged` reads off it
what is the same afterwards, for every state whatsoever.
-/

namespace EpollChat

variable (ac : Achelper)

/-- The request is a login or a broadcast. -/
def Request.isLoginOrBroadcast : Request → Bool
  | .login _ => true
  | .message req => req.broadcast
  | _ => false

/-- Nothing has changed but the answer `rsp` to the requester's connection `c` and the time of its
user's last activity. -/
structure OnlyAnswered (s s' : State) (c : ConnId) (rsp : IMResponse) : Prop where
  /-- Block lists, credentials, lockout fields, offline buffers and session links. -/
  users : ∀ u, s'.users u = { s.users u with lastActive := (s'.users u).lastActive }
  /-- Only the requester's time of last activity. -/
  lastActive : ∀ u, (s.conn c).user ≠ some u → s'.users u = s.users u
  findUser : ∀ name, findUser s' name = findUser s name
  findFile : ∀ name, findFile s'.fileDb name = findFile s.fileDb name
  globalChunkId : s'.globalChunkId = s.globalChunkId
  /-- The connection's user, address, descriptor and chunk list. -/
  requester : s'.conn c = { s.conn c with outbuffer := (s'.conn c).outbuffer }
  answer : s'.pending (.out c) = s.pending (.out c) ++ encodeIMResponseToBytes ac rsp
  /-- The other connections, with their buffers and chunk lists. -/
  others : ∀ d, d ≠ c → s'.conn d = s.conn d
  table : s'.clients = s.clients ∧ s'.sock = s.sock ∧ s'.freed = s.freed

/-! ## The handlers -/

section Answered

variable {s t : State} {rsp rsp' : IMResponse}

lemma state_of_answered (h : (s, some rsp') = (t, some rsp)) : t = s := (Prod.mk.inj h).1.symm

/-- A success is not a failure. -/
lemma not_failed_of_answered (h : (s, some rsp') = (t, some rsp)) (hok : rsp'.success = true) :
    rsp.success ≠ false := by
  obtain ⟨-, hrsp⟩ := Prod.mk.inj h
  rw [← Option.some.inj hrsp, hok]
  exact Bool.noConfusion

end Answered

section Handlers

variable {ac} {s t : State} {c : ConnId} {rsp : IMResponse}

/-- A message that goes out is not answered. -/
lemma cmdMessageImpl_of_answered {req : MessageRequest} (hdirect : req.broadcast = false)
    (h : cmdMessageImpl ac s c req = (t, some rsp)) : t = s := by
  unfold cmdMessageImpl at h
  split at h
  · exact state_of_answered h
  next sender _ =>
  split at h
  · exact state_of_answered h
  rw [hdirect, if_neg Bool.false_ne_true] at h
  split at h
  · exact state_of_answered h
  next user _ =>
  rw [sendMessage_eq] at h
  by_cases hblocked : hasBlockedUser s user sender
  · rw [if_pos hblocked] at h
    exact state_of_answered h
  · rw [if_neg hblocked] at h
    cases (Prod.mk.inj h).2

/-- Neither is a logout. -/
lemma cmdLogoutImpl_of_answered (h : cmdLogoutImpl ac s c = (t, some rsp)) : t = s := by
  unfold cmdLogoutImpl at h
  split at h
  · exact state_of_answered h
  · cases (Prod.mk.inj h).2

variable (hfailed : rsp.success = false)
include hfailed

lemma cmdBlockImpl_of_failed {req : UsernameRequest}
    (h : cmdBlockImpl ac s c req = (t, some rsp)) : t = s := by
  rcases cmdBlockImpl_cases ac s c req with
    ⟨msg, hrefused⟩ | ⟨self, u, msg, -, -, -, -, hblock⟩
  · exact state_of_answered (hrefused.symm.trans h)
  · exact absurd hfailed (not_failed_of_answered (hblock.symm.trans h) rfl)

lemma cmdUnblockImpl_of_failed {req : UsernameRequest}
    (h : cmdUnblockImpl ac s c req = (t, some rsp)) : t = s := by
  rcases cmdUnblockImpl_cases ac s c req with
    ⟨msg, hrefused⟩ | ⟨self, u, msg, -, -, -, hunblock⟩
  · exact state_of_answered (hrefused.symm.trans h)
  · exact absurd hfailed (not_failed_of_answered (hunblock.symm.trans h) rfl)

lemma cmdGetipImpl_of_failed {req : UsernameRequest}
    (h : cmdGetipImpl ac s c req = (t, some rsp)) : t = s := by
  rcases cmdGetipImpl_cases ac s c req with ⟨msg, hrefused⟩ | ⟨_, _, d, -, -, -, -, -, hgetip⟩
  · exact state_of_answered (hrefused.symm.trans h)
  · exact absurd hfailed (not_failed_of_answered (hgetip.symm.trans h) rfl)

/-- A name that is taken has been walked down, and no lookup sees the nodes made on the way. -/
lemma cmdRegfileImpl_of_failed {req : RegisterFileRequest}
    (h : cmdRegfileImpl ac s c req = (t, some rsp)) :
    ∃ fileDb, (∀ name, findFile fileDb name = findFile s.fileDb name) ∧ t = { s with fileDb } := by
  rcases cmdRegfileImpl_cases ac s c req with
    ⟨msg, hrefused⟩ | ⟨f, msg, found, htaken⟩ | ⟨msg, -, -, hregister⟩
  · exact ⟨s.fileDb, fun _ => rfl, state_of_answered (hrefused.symm.trans h)⟩
  · exact ⟨_, (addFile_of_some found s.globalChunkId req.chunks).2,
      state_of_answered (htaken.symm.trans h)⟩
  · exact absurd hfailed (not_failed_of_answered (hregister.symm.trans h) rfl)

lemma cmdRegchunkImpl_of_failed {req : ChunksRequest}
    (h : cmdRegchunkImpl ac s c req = (t, some rsp)) : t = s := by
  unfold cmdRegchunkImpl at h
  split at h
  · exact state_of_answered h
  split at h
  · exact state_of_answered h
  · exact absurd hfailed (not_failed_of_answered h rfl)

lemma cmdSearchfileImpl_of_failed {req : ChunksRequest}
    (h : cmdSearchfileImpl ac s c req = (t, some rsp)) : t = s := by
  unfold cmdSearchfileImpl at h
  split at h
  · exact state_of_answered h
  split at h
  · exact state_of_answered h
  dsimp only at h
  -- whether numbers were requested, and whether all chunks are available
  repeat' split at h
  all_goals exact absurd hfailed (not_failed_of_answered h rfl)

/-- **A failed request** has left the state alone, but for blank nodes in the file trie. -/
lemma runCommand_of_failed {req : Request} (hkind : req.isLoginOrBroadcast = false)
    (h : runCommand ac s c req = (t, some rsp)) :
    ∃ fileDb, (∀ name, findFile fileDb name = findFile s.fileDb name) ∧ t = { s with fileDb } := by
  have hsame : t = s → ∃ fileDb, (∀ name, findFile fileDb name = findFile s.fileDb name) ∧
      t = { s with fileDb } := fun ht => ⟨s.fileDb, fun _ => rfl, ht⟩
  cases req with
  | login r => cases hkind
  | message r => exact hsame (cmdMessageImpl_of_answered hkind h)
  | whoelse r => exact hsame (Prod.mk.inj h).1.symm
  | block r => exact hsame (cmdBlockImpl_of_failed hfailed h)
  | unblock r => exact hsame (cmdUnblockImpl_of_failed hfailed h)
  | logout => exact hsame (cmdLogoutImpl_of_answered h)
  | getip r => exact hsame (cmdGetipImpl_of_failed hfailed h)
  | regfile r => exact cmdRegfileImpl_of_failed hfailed h
  | regchunk r => exact hsame (cmdRegchunkImpl_of_failed hfailed h)
  | searchfile r => exact hsame (cmdSearchfileImpl_of_failed hfailed h)
  | unknown type => cases h

end Handlers

/-! ## The answer -/

/-- The time of the last activity is refreshed after the handler, and then the answer is
queued. -/
lemma serve_of_failed {s : State} {c : ConnId} {req : Request} {rsp : IMResponse}
    (hkind : req.isLoginOrBroadcast = false) (hanswer : (runRequest ac s c req).2 = some rsp)
    (hfailed : rsp.success = false) :
    ∃ fileDb, (∀ name, findFile fileDb name = findFile s.fileDb name) ∧
      serve ac s c req =
        deliver ac (updateLastActive { s with fileDb } c) ⟨.out c, .reply, rsp⟩ := by
  have hknown : ∀ type, req ≠ .unknown type := by
    rintro type rfl
    cases hanswer
  have hsnd : (runCommand ac s c req).2 = some rsp := by
    cases req with
    | unknown type => exact absurd rfl (hknown type)
    | _ => exact hanswer
  have hcommand : runCommand ac s c req = ((runCommand ac s c req).1, some rsp) := by
    rw [← hsnd]
  obtain ⟨fileDb, hsame, ht⟩ := runCommand_of_failed hfailed hkind hcommand
  refine ⟨fileDb, hsame, ?_⟩
  have hfst := runRequest_of_known ac s c hknown
  rw [ht] at hfst
  have hrun : runRequest ac s c req = (updateLastActive { s with fileDb } c, some rsp) :=
    Prod.ext hfst hanswer
  unfold serve
  rw [hrun]
  rfl

/-- **Failed requests change nothing**, in whatever state: after a request other than a login and a
broadcast that is answered with `success` false, nothing has changed but the requester's own
output buffer and the time of its last activity. -/
theorem failed_unchanged {s : State} {c : ConnId} {req : Request} {rsp : IMResponse}
    (hkind : req.isLoginOrBroadcast = false) (hanswer : (runRequest ac s c req).2 = some rsp)
    (hfailed : rsp.success = false) : OnlyAnswered ac s (serve ac s c req) c rsp := by
  obtain ⟨fileDb, hsame, heq⟩ := serve_of_failed ac hkind hanswer hfailed
  rw [heq]
  generalize hfresh : updateLastActive { s with fileDb } c = t
  have hconn : t.conn = s.conn := by
    rw [← hfresh, conn_updateLastActive]
  have huser : ∀ u, t.users u = { s.users u with lastActive := (t.users u).lastActive } ∧
      ((s.conn c).user ≠ some u → t.users u = s.users u) := by
    intro u
    rw [← hfresh]
    rcases updateLastActive_eq { s with fileDb } c with h | ⟨v, hv, -, h⟩
    · rw [h]
      exact ⟨rfl, fun _ => rfl⟩
    · rw [h]
      by_cases hu : u = v
      · subst hu
        exact ⟨by simp [State.setUser], fun hne => absurd hv hne⟩
      · simp [State.setUser, hu]
  have hrest : t.root = s.root ∧ t.fileDb = fileDb ∧ t.globalChunkId = s.globalChunkId ∧
      t.clients = s.clients ∧ t.sock = s.sock ∧ t.freed = s.freed := by
    rw [← hfresh]
    rcases updateLastActive_eq { s with fileDb } c with h | ⟨v, -, -, h⟩ <;> rw [h] <;>
      exact ⟨rfl, rfl, rfl, rfl, rfl, rfl⟩
  obtain ⟨hroot, hfileDb, hgid, hclients, hsock, hfreed⟩ := hrest
  have hcore := core_deliver ac t ⟨.out c, .reply, rsp⟩
  have husers' := users_deliver_out ac t c .reply rsp
  have hconn' := conn_deliver_out ac t c .reply rsp
  have hpending := pending_deliver ac t ⟨.out c, .reply, rsp⟩ (.out c)
  generalize deliver ac t ⟨.out c, .reply, rsp⟩ = t' at hcore husers' hconn' hpending ⊢
  have hroot' := congrArg State.root hcore
  have hclients' := congrArg State.clients hcore
  have hfreed' := congrArg State.freed hcore
  exact {
    users := fun u => by rw [husers']; exact (huser u).1
    lastActive := fun u hu => by rw [husers']; exact (huser u).2 hu
    findUser := fun name => congrArg (fun r => (r.find (cstr name)).join) (hroot'.trans hroot)
    findFile := fun name => by rw [fileDb_eq_of_core hcore, hfileDb, hsame]
    globalChunkId := (globalChunkId_eq_of_core hcore).trans hgid
    requester := by rw [hconn', Function.update_self, hconn]
    answer := by
      rw [hpending, if_pos rfl, State.pending, State.buf, hconn]
      rfl
    others := fun d hd => by rw [hconn', Function.update_of_ne hd, hconn]
    table := ⟨hclients'.trans hclients, (sock_eq_of_core hcore).trans hsock,
      hfreed'.trans hfreed⟩ }

/-- hans registers a file twice. -/
theorem failed_unchanged_demo :
    ∃ s rsp, ServerRun protobufWire demo Always
        (acceptAndServe 5 [loginAs "hans" "falcon", .regfile ⟨text "a", 1⟩]) s ∧
      rsp.success = false ∧
        OnlyAnswered protobufWire s (serve protobufWire s 0 (.regfile ⟨text "a", 1⟩)) 0 rsp := by
  obtain ⟨s, run, hfails⟩ := Run.exists_of_execute (step protobufWire) Always demo.init
    (acceptAndServe 5 [loginAs "hans" "falcon", .regfile ⟨text "a", 1⟩])
    (fun s => (runRequest protobufWire s 0 (.regfile ⟨text "a", 1⟩)).2.any (!·.success) = true)
    (by decide +kernel)
  obtain ⟨rsp, hanswer, hfailed⟩ := (Option.any_eq_true _ _).mp hfails
  have hfailed : rsp.success = false := by simpa using hfailed
  exact ⟨s, rsp, run, hfailed, failed_unchanged protobufWire rfl hanswer hfailed⟩

end EpollChat

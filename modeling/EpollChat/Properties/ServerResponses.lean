import EpollChat.Construction.Encoders
import EpollChat.Properties.Accounting

/-!
# What the server says

`response.proto` has six responses, and three of them are for the clients among themselves.  The
server sends the other three only: a text, a text that ends the client, and an address
(`says_run`).  The walk through the server is that of `Properties/History.lean`, which does not
look at the responses.
-/

namespace EpollChat

variable (ac : Achelper)

/-- The responses of the server. -/
def Response.OfServer : Response → Prop
  | .text _ | .exit _ | .getip .. => True
  | _ => False

/-- What the entry queues, if it queues a frame, is a response of the server. -/
def Says (o : Obs) : Prop :=
  ∀ q why f, o = .move (.put q why f) →
    ∃ (success : Bool) (rsp : Response), rsp.OfServer ∧ f = rsp.frame ac success

/-- A response of the server as a command returns it. -/
def IMResponse.OfServer (imrsp : IMResponse) : Prop :=
  ∃ (success : Bool) (rsp : Response), rsp.OfServer ∧ imrsp = rsp.toIMResponse ac success

variable {ac}

lemma ofServer_text (msg : Bytes) (success : Bool) :
    IMResponse.OfServer ac (encodeTextResponseToIMResponse ac msg success) :=
  ⟨success, .text msg, trivial, rfl⟩

lemma ofServer_exit (txt : Bytes) (success : Bool) :
    IMResponse.OfServer ac (encodeExitTextToIMResponse ac txt success) :=
  ⟨success, .exit (cstr txt), trivial, rfl⟩

/-! ## The commands -/

/-- The answer of a command, if it has one. -/
def SomeOfServer (ac : Achelper) (answer : Option IMResponse) : Prop :=
  ∀ rsp ∈ answer, IMResponse.OfServer ac rsp

lemma someOfServer_text (msg : Bytes) (success : Bool) :
    SomeOfServer ac (some (encodeTextResponseToIMResponse ac msg success)) :=
  fun _ hrsp => Option.mem_some_iff.mp hrsp ▸ ofServer_text msg success

lemma someOfServer_exit (txt : Bytes) (success : Bool) :
    SomeOfServer ac (some (encodeExitTextToIMResponse ac txt success)) :=
  fun _ hrsp => Option.mem_some_iff.mp hrsp ▸ ofServer_exit txt success

lemma someOfServer_none : SomeOfServer ac none := fun _ hrsp => by cases hrsp

lemma someOfServer_login (s : State) (c : ConnId) (req : LoginRequest) :
    SomeOfServer ac (cmdLoginImpl ac s c req).2 := by
  unfold cmdLoginImpl
  split
  · exact someOfServer_text _ _
  · exact someOfServer_exit _ _
  · exact someOfServer_text _ _
  · exact someOfServer_exit _ _
  · exact someOfServer_exit _ _
  · exact someOfServer_none

lemma someOfServer_message (s : State) (c : ConnId) (req : MessageRequest) :
    SomeOfServer ac (cmdMessageImpl ac s c req).2 := by
  unfold cmdMessageImpl
  split
  · exact someOfServer_text _ _
  split
  · exact someOfServer_text _ _
  split
  · dsimp only
    split
    · exact someOfServer_text _ _
    · exact someOfServer_none
  · split
    · exact someOfServer_text _ _
    · dsimp only
      split
      · exact someOfServer_text _ _
      · exact someOfServer_none

lemma someOfServer_getip (s : State) (c : ConnId) (req : UsernameRequest) :
    SomeOfServer ac (cmdGetipImpl ac s c req).2 := by
  rcases cmdGetipImpl_cases ac s c req with ⟨msg, h⟩ | ⟨_, _, target, -, -, -, -, -, h⟩ <;> rw [h]
  · exact someOfServer_text _ _
  · exact fun _ hrsp => Option.mem_some_iff.mp hrsp ▸
      ⟨true, .getip (cstr req.username) (s.conn target).addr.bytes, trivial, rfl⟩

lemma someOfServer_searchfile (s : State) (c : ConnId) (req : ChunksRequest) :
    SomeOfServer ac (cmdSearchfileImpl ac s c req).2 := by
  unfold cmdSearchfileImpl
  dsimp only
  split
  · exact someOfServer_text _ _
  split
  · exact someOfServer_text _ _
  · -- whether chunks were asked for, and whether all of the file is there
    split <;> split <;> exact someOfServer_text _ _

/-- A command answers with a response of the server, or not at all. -/
lemma someOfServer_runCommand (s : State) (c : ConnId) (req : Request) :
    SomeOfServer ac (runCommand ac s c req).2 := by
  cases req with
  | login req => exact someOfServer_login s c req
  | message req => exact someOfServer_message s c req
  | getip req => exact someOfServer_getip s c req
  | searchfile req => exact someOfServer_searchfile s c req
  | block req =>
      show SomeOfServer ac (cmdBlockImpl ac s c req).2
      rcases cmdBlockImpl_cases ac s c req with ⟨_, h⟩ | ⟨_, _, _, -, -, -, -, h⟩ <;> rw [h] <;>
        exact someOfServer_text _ _
  | unblock req =>
      show SomeOfServer ac (cmdUnblockImpl ac s c req).2
      rcases cmdUnblockImpl_cases ac s c req with ⟨_, h⟩ | ⟨_, _, _, -, -, -, h⟩ <;> rw [h] <;>
        exact someOfServer_text _ _
  | whoelse req =>
      show SomeOfServer ac (cmdWhoelseImpl ac s c req)
      unfold cmdWhoelseImpl
      dsimp only
      split
      · exact someOfServer_text _ _
      · split <;> exact someOfServer_text _ _
  | logout =>
      show SomeOfServer ac (cmdLogoutImpl ac s c).2
      unfold cmdLogoutImpl
      split
      · exact someOfServer_text _ _
      · exact someOfServer_none
  | regfile req =>
      show SomeOfServer ac (cmdRegfileImpl ac s c req).2
      unfold cmdRegfileImpl
      dsimp only
      split
      · exact someOfServer_text _ _
      · split <;> exact someOfServer_text _ _
  | regchunk req =>
      show SomeOfServer ac (cmdRegchunkImpl ac s c req).2
      unfold cmdRegchunkImpl
      dsimp only
      split
      · exact someOfServer_text _ _
      · split <;> exact someOfServer_text _ _
  | unknown type => exact someOfServer_none

lemma someOfServer_runRequest (s : State) (c : ConnId) (req : Request) :
    SomeOfServer ac (runRequest ac s c req).2 := by
  have hanswer : (runRequest ac s c req).2 = (runCommand ac s c req).2 := by cases req <;> rfl
  rw [hanswer]
  exact someOfServer_runCommand s c req

/-! ## The entries of an event -/

lemma says_delivery {d : Delivery} (h : IMResponse.OfServer ac d.msg) :
    Says ac (.move (.put d.queue d.why (d.frame ac))) := by
  intro q why f hput
  obtain ⟨success, rsp, hrsp, hmsg⟩ := h
  obtain ⟨-, -, rfl⟩ : d.queue = q ∧ d.why = why ∧ d.frame ac = f := by simpa using hput
  exact ⟨success, rsp, hrsp, by rw [Delivery.frame, hmsg]; rfl⟩

lemma says_of_not_move {o : Obs} (h : o.isMove = false) : Says ac o := by
  rintro q why f rfl
  cases h

section Told

-- a property of the entries that are no frames, and of the frames that are no answers
variable {P : Obs → Prop} (hother : ∀ o : Obs, o.isMove = false → P o)
  (htold : ∀ d : Delivery, d.why ≠ .reply → IMResponse.OfServer ac d.msg →
    P (.move (.put d.queue d.why (d.frame ac))))
include hother htold

lemma told_logoutUser {s : State} (hserver : s.isServer = true) (o : Option UserId) :
    Adds P s (logoutUser ac s o) := by
  cases o with
  | none => exact .refl s
  | some u =>
      cases hc : (s.users u).client with
      | none =>
          rw [logoutUser_of_none ac hc]
          exact .refl s
      | some c =>
          rw [logoutUser_of_client ac hserver hc]
          have hunlink : Adds P (s.touch c) (unlink (s.touch c) u c) :=
            adds_unlink _ (hother _ rfl)
          refine (Adds.touch s c).trans (hunlink.trans ?_)
          refine adds_deliverAll ac _ fun d hd => ?_
          obtain ⟨v, e, -, -, -, -, -, rfl⟩ := mem_announcements hd
          exact htold _ Why.noConfusion (ofServer_text _ _)

lemma told_closeSocket {s : State} (hserver : s.isServer = true) (c : ConnId) :
    Adds P s (closeSocket ac s c) := by
  have hcore : ((s.touch c).lock c).core = s.core := by simp
  have hserver' : ((s.touch c).lock c).isServer = true :=
    (show ((s.touch c).lock c).core.isServer = s.core.isServer by rw [hcore]).trans hserver
  have hlock : Adds P s ((s.touch c).lock c) := .of_same (by simp) (by simp)
  exact hlock.trans ((told_logoutUser hother htold hserver' _).trans
    (.of_same rfl fun q => State.pending_congr rfl rfl q))

lemma told_cmdLoginImpl (s : State) (c : ConnId) (r : LoginRequest) :
    Adds P s (cmdLoginImpl ac s c r).1 := by
  cases haccepted : acceptedUser s r.username r.password with
  | none =>
      obtain ⟨rsp, hrsp⟩ := cmdLoginImpl_of_refused ac (c := c) haccepted
      rw [hrsp]
      exact adds_refused _ s r.username r.password
  | some u =>
      rw [cmdLoginImpl_of_accepted ac haccepted]
      refine (adds_refresh s u).trans (Adds.trans ?_ (adds_link _ (hother _ rfl)))
      refine adds_deliverAll ac _ fun d hd => ?_
      obtain ⟨v, e, -, -, -, -, -, rfl⟩ := mem_announcements hd
      exact htold _ Why.noConfusion (ofServer_text _ _)

lemma told_of_effect {s t : State} {c : ConnId} {req : Request}
    (h : CommandEffect ac s c req t) : Adds P s t := by
  cases h with
  | reads _ cs => exact .touches s cs
  | messages r u ds own live chats =>
      refine adds_deliverAll ac s fun d hd => ?_
      obtain ⟨v, -, -, rfl⟩ := chats d hd
      exact htold _ Why.noConfusion (ofServer_text _ _)
  | blocks => exact .setUser s _ fun _ => rfl
  | taken => exact .of_same rfl fun q => State.pending_congr rfl rfl q
  | file r free live =>
      refine Adds.trans ?_ ((adds_setChunks _ c _).trans (.emit rfl (hother _ rfl) _))
      exact .of_same rfl fun q => State.pending_congr rfl rfl q
  | chunks r f found live =>
      exact (adds_setChunks s c _).trans (.emit rfl (hother _ rfl) _)

lemma told_runRequest {s : State} (hserver : s.isServer = true) (c : ConnId) (req : Request) :
    Adds P s (runRequest ac s c req).1 := by
  have hcommand : Adds P s (runCommand ac s c req).1 := by
    cases hquiet : req.isQuiet with
    | true => exact told_of_effect hother htold (runCommand_effect ac s c hquiet)
    | false =>
        cases req with
        | login r => exact told_cmdLoginImpl hother htold s c r
        | logout =>
            show Adds _ s (cmdLogoutImpl ac s c).1
            unfold cmdLogoutImpl
            split
            · exact .refl s
            · exact told_closeSocket hother htold hserver c
        | _ => cases hquiet
  exact adds_runRequest ac hcommand

lemma told_timeThread {s : State} (hserver : s.isServer = true) :
    Adds P s (timeThread ac s) := by
  unfold timeThread
  generalize s.clients = l
  induction l generalizing s with
  | nil => exact .refl s
  | cons c l ih =>
      refine Adds.trans ?_ (ih ((fewer_sweepClient ac s c).server.trans hserver))
      unfold sweepClient
      split
      · refine (told_logoutUser hother htold hserver (s.conn c).user).trans ?_
        exact @adds_deliver ac _ _ ⟨.out c, .logOff, logOffResponse ac⟩
          (htold _ Why.noConfusion (ofServer_exit _ _))
      · exact .refl s

/-- Every event but a request and a drain. -/
lemma told_exec {s : State} (hserver : s.isServer = true)
    (hfresh : s.pending (.out s.nconns) = []) {e : Event} (hrequest : ∀ req, e ≠ .request req)
    (hwritable : ∀ fd n₁ n₂, e ≠ .writable fd n₁ n₂) : Adds P s (exec ac s e) := by
  cases e with
  | accept fd addr => exact adds_acceptClient hfresh fd addr
  | hangup fd | eof fd =>
      rw [exec]
      cases pickConn s fd with
      | none => exact .refl s
      | some c => exact told_closeSocket hother htold hserver c
  | readable fd => exact .of_same rfl fun q => State.pending_congr rfl rfl q
  | request req => exact absurd rfl (hrequest req)
  | readDone => exact .of_same rfl fun q => State.pending_congr rfl rfl q
  | writable fd n₁ n₂ => exact absurd rfl (hwritable fd n₁ n₂)
  | tick seconds => exact .of_same rfl fun q => State.pending_congr rfl rfl q
  | sweep => exact told_timeThread hother htold hserver

end Told

lemma says_told (d : Delivery) (_ : d.why ≠ .reply) (h : IMResponse.OfServer ac d.msg) :
    Says ac (.move (.put d.queue d.why (d.frame ac))) := says_delivery h

lemma says_serve {s : State} (hserver : s.isServer = true) (c : ConnId) (req : Request) :
    Adds (Says ac) s (serve ac s c req) :=
  adds_serve_of_run ac (told_runRequest (fun _ => says_of_not_move) says_told hserver c req)
    fun rsp hrsp => says_delivery (d := ⟨.out c, .reply, rsp⟩) (someOfServer_runRequest s c req rsp hrsp)

/-- Every event but a drain adds only what the server says. -/
lemma says_exec {s : State} (hserver : s.isServer = true)
    (hfresh : s.pending (.out s.nconns) = []) {e : Event}
    (hwritable : ∀ fd n₁ n₂, e ≠ .writable fd n₁ n₂) : Adds (Says ac) s (exec ac s e) := by
  by_cases hrequest : ∀ req, e ≠ .request req
  · exact told_exec (fun _ => says_of_not_move) says_told hserver hfresh hrequest hwritable
  · push Not at hrequest
    obtain ⟨req, rfl⟩ := hrequest
    rw [exec]
    cases s.serving with
    | none => exact .refl s
    | some c => exact says_serve hserver c req

/-- **What the server says**, in every run. -/
lemma says_run {p : Setup} {ok : State → Event → Prop} {es : List Event} {s : State}
    (run : ServerRun ac p ok es s) : ∀ o ∈ s.log, Says ac o := by
  refine run.invariant_of (P := fun t => ∀ o ∈ t.log, Says ac o) ?_
    (fun run => And.intro (tableOk_run ac run) (accounted_run ac run)) ?_
  · intro o ho
    rw [(loaded_init p).log] at ho
    cases ho
  · rintro s e s' ⟨hs, hacc⟩ ih - hstep o ho
    obtain ⟨-, -, rfl⟩ := (step_eq_some ac).mp hstep
    by_cases hwritable : ∀ fd n₁ n₂, e ≠ .writable fd n₁ n₂
    · obtain ⟨l, hl, hadded⟩ := @says_exec ac s hs.server hacc.pending_fresh e hwritable
      rw [hl.log] at ho
      exact (List.mem_append.mp ho).elim (ih o) (hadded o)
    · push Not at hwritable
      obtain ⟨fd, n₁, n₂, rfl⟩ := hwritable
      rw [exec] at ho
      cases hpick : pickConn s fd with
      | none =>
          rw [hpick] at ho
          exact ih o ho
      | some c =>
          rw [hpick] at ho
          rcases mem_log_networkWritable ho with ho | ⟨q, bs, rfl⟩
          · exact ih o ho
          · exact fun _ _ _ h => by cases h

end EpollChat

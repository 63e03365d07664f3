import EpollChat.Construction.Demo
import EpollChat.Properties.ClientProgram

/-!
# The login handshake of the client

`network_thread` unlocks `loginlock` after every read of every connection, and every response on
any connection sets `lastresponse`.  So the input thread takes the end of a read for the answer to
its login request, and the last response handled for what the answer says.

`Handshake` is that what the input thread has done is in order, and remains so whatever it does
before the network thread runs again.  `handshake_iff` is the exact condition for this to hold
throughout a run: `LoginReads`, which asks of every read that it has brought the answer, and of
the answer that nothing has been said after it.

In such a run the history is a number of rejected requests, then perhaps one more request with or
without its answer (`LoginLog`); this is the invariant.
-/

namespace EpollChat

variable (ac : Achelper)

/-! ## The history of the logins -/

/-- The answers of the server. -/
def loginAnswers (log : List LoginObs) : List Bool :=
  log.filterMap fun
    | .answered success => some success
    | _ => none

/-- The last login request has been answered, with this. -/
def LastAnswer (log : List LoginObs) (success : Bool) : Prop :=
  Client.unanswered log = 0 ∧ (loginAnswers log).getLast? = some success

/-- A login request may be made: it is the first, or the one before has been rejected. -/
def MayAsk (log : List LoginObs) : Prop := .asked ∉ log ∨ LastAnswer log false

/-- The input thread may leave the login loop: the server has accepted a login. -/
def MayEnter (log : List LoginObs) : Prop := .answered true ∈ log

/-- What may be added to the history. -/
def Allowed (log : List LoginObs) : LoginObs → Prop
  | .asked => MayAsk log
  | .answered _ => True
  | .entered => MayEnter log

/-- **The history is in order**: what precedes an entry allows it. -/
def Orderly (log : List LoginObs) : Prop :=
  ∀ pre o post, log = pre ++ o :: post → Allowed pre o

instance decidableMayAsk (log : List LoginObs) : Decidable (MayAsk log) := by
  unfold MayAsk LastAnswer
  infer_instance

lemma orderly_nil : Orderly [] := fun pre o post h => by simp at h

lemma orderly_snoc {log : List LoginObs} {o : LoginObs} :
    Orderly (log ++ [o]) ↔ Orderly log ∧ Allowed log o := by
  constructor
  · intro h
    refine ⟨fun pre o' post hlog => h pre o' (post ++ [o]) (by rw [hlog]; simp), ?_⟩
    exact h log o [] rfl
  · rintro ⟨hlog, ho⟩ pre o' post h
    rcases List.eq_nil_or_concat post with rfl | ⟨post, o'', rfl⟩
    · obtain ⟨rfl, hlast⟩ := List.append_inj' h rfl
      obtain rfl : o = o' := by simpa using hlast
      exact ho
    · have hsnoc : log ++ [o] = (pre ++ o' :: post) ++ [o''] := by simpa using h
      exact hlog pre o' post (List.append_inj' hsnoc rfl).1

/-! ## The property -/

/-- The event is one of the input thread in its first loop. -/
def ClientEvent.isLogin : ClientEvent → Bool
  | .lock => true
  | .check => true
  | .ask .. => true
  | _ => false

/-- **The handshake is in order**, and stays so whatever the input thread does next. -/
def Handshake (k : Client) : Prop :=
  ∀ es k', Run (Client.step ac) (fun _ e => e.isLogin = true) k es k' → Orderly k'.logins

/-! ## The condition -/

/-- The end of a read may unlock `loginlock`.  While the input thread waits for it, the login
request must have been answered, and nothing else said after that; when it is between locking the
mutex and sending a request, no read may end. -/
def MayUnlock (k : Client) : Prop :=
  (k.input = .locking → k.loginlock = true → LastAnswer k.logins k.lastresponse) ∧
    (k.input = .checking → k.lastresponse = true) ∧ k.input ≠ .asking

/-- The response ends the program. -/
def Response.isExit : Response → Bool
  | .exit _ => true
  | _ => false

/-- Every read that ends may unlock `loginlock`, no response contradicts the one the input thread
is about to look at, and a login request that is typed as a command may be made. -/
def LoginReads (k : Client) : ClientEvent → Prop
  | .response success rsp _ _ =>
      (k.input = .checking ∨ k.input = .locking ∧ k.loginlock = false) →
        rsp.isExit = true ∨ success = k.lastresponse
  | .readDone => MayUnlock k
  | .eof fd => ∀ c ∈ pickConn k.program fd, c ≠ serverConn → MayUnlock k
  | .command (.login ..) => MayAsk k.logins
  | _ => True

instance decidableMayUnlock (k : Client) : Decidable (MayUnlock k) := by
  unfold MayUnlock LastAnswer
  infer_instance

instance decidableLoginReads (k : Client) (e : ClientEvent) : Decidable (LoginReads k e) :=
  match e with
  | .response .. => by
      dsimp only [LoginReads]
      infer_instance
  | .readDone => inferInstanceAs (Decidable (MayUnlock k))
  | .eof _ => by
      dsimp only [LoginReads]
      infer_instance
  | .command (.login ..) => inferInstanceAs (Decidable (MayAsk k.logins))
  | .accept .. | .hangup _ | .readable _ | .writable .. | .lock | .check | .ask ..
  | .command (.startprivate _) | .command (.stopprivate _) | .command (.privateTo ..)
  | .command (.other _) => .isTrue trivial

/-! ## The shape of the history -/

/-- This many login requests, all rejected. -/
def rejections (n : ℕ) : List LoginObs := (List.replicate n [.asked, .answered false]).flatten

lemma rejections_succ (n : ℕ) : rejections (n + 1) = rejections n ++ [.asked, .answered false] := by
  simp [rejections, List.replicate_succ']

@[simp] lemma count_asked_rejections (n : ℕ) : (rejections n).count .asked = n := by
  induction n with
  | zero => rfl
  | succ n ih => rw [rejections_succ, List.count_append, ih]; rfl

@[simp] lemma count_true_rejections (n : ℕ) : (rejections n).count (.answered true) = 0 := by
  induction n with
  | zero => rfl
  | succ n ih => rw [rejections_succ, List.count_append, ih]; rfl

@[simp] lemma count_false_rejections (n : ℕ) : (rejections n).count (.answered false) = n := by
  induction n with
  | zero => rfl
  | succ n ih => rw [rejections_succ, List.count_append, ih]; rfl

/-- No request is open after rejections, and one is after another request. -/
lemma unanswered_rejections (n : ℕ) (success : Bool) :
    Client.unanswered (rejections n) = 0 ∧ Client.unanswered (rejections n ++ [.asked]) = 1 ∧
      Client.unanswered (rejections n ++ [.asked, .answered success]) = 0 := by
  cases success <;> simp [Client.unanswered, Nat.add_comm]

lemma mayAsk_rejections (n : ℕ) : MayAsk (rejections n) := by
  cases n with
  | zero => exact .inl (by simp [rejections])
  | succ n =>
      refine .inr ⟨(unanswered_rejections (n + 1) true).1, ?_⟩
      simp [rejections_succ, loginAnswers]

lemma not_mayEnter_rejections (n : ℕ) : ¬ MayEnter (rejections n) := by
  unfold MayEnter
  rw [← List.count_eq_zero, count_true_rejections]

lemma not_mayEnter_asked (n : ℕ) : ¬ MayEnter (rejections n ++ [.asked]) := by
  unfold MayEnter
  rw [← List.count_eq_zero]
  simp

lemma not_mayAsk_asked (n : ℕ) : ¬ MayAsk (rejections n ++ [.asked]) := by
  rintro (h | ⟨h, -⟩)
  · exact h (by simp)
  · rw [(unanswered_rejections n true).2.1] at h
    cases h

/-- After another answered request the input thread may enter or ask, as the answer says. -/
lemma lastAnswer_answered (n : ℕ) (success b : Bool) :
    LastAnswer (rejections n ++ [.asked, .answered success]) b ↔ success = b := by
  have hunanswered := (unanswered_rejections n success).2.2
  simp [LastAnswer, hunanswered, loginAnswers]

lemma mayAsk_answered_iff (n : ℕ) (success : Bool) :
    MayAsk (rejections n ++ [.asked, .answered success]) ↔ success = false := by
  unfold MayAsk
  rw [lastAnswer_answered]
  simp

lemma mayEnter_answered_iff (n : ℕ) (success : Bool) :
    MayEnter (rejections n ++ [.asked, .answered success]) ↔ success = true := by
  have h := not_mayEnter_rejections n
  unfold MayEnter at h ⊢
  simp [h, eq_comm]

/-- Where the handshake stands: the place of the input thread, whether `loginlock` is locked, what
`lastresponse` is, and the history. -/
inductive LoginLog : InputPhase → Bool → Bool → List LoginObs → Prop
  /-- There is no open request, and the input thread is about to see that. -/
  | again (n : ℕ) : LoginLog .locking false false (rejections n)
  | checking (n : ℕ) : LoginLog .checking true false (rejections n)
  | asking (flag : Bool) (n : ℕ) : LoginLog .asking true flag (rejections n)
  /-- The answer to the last request is waited for. -/
  | waiting (flag : Bool) (n : ℕ) : LoginLog .locking true flag (rejections n ++ [.asked])
  | heard (flag success : Bool) (n : ℕ) :
      LoginLog .locking true flag (rejections n ++ [.asked, .answered success])
  /-- The login has been accepted, and the input thread is about to see that. -/
  | accepted (n : ℕ) : LoginLog .locking false true (rejections n ++ [.asked, .answered true])
  | leaving (lock : Bool) (n : ℕ) :
      LoginLog .checking lock true (rejections n ++ [.asked, .answered true])
  | reading (lock flag : Bool) (log : List LoginObs) : LoginLog .reading lock flag log

/-- The history is in order, and has its shape while the program runs. -/
structure LoginOk (k : Client) : Prop where
  orderly : Orderly k.logins
  log : k.exited = false → LoginLog k.input k.loginlock k.lastresponse k.logins

/-- No request is open where the input thread is about to look at `lastresponse`. -/
lemma LoginLog.unanswered {phase : InputPhase} {lock flag : Bool} {log : List LoginObs}
    (h : LoginLog phase lock flag log)
    (hwhere : phase = .checking ∨ phase = .locking ∧ lock = false) :
    Client.unanswered log = 0 := by
  cases h with
  | again n => exact (unanswered_rejections n true).1
  | checking n => exact (unanswered_rejections n true).1
  | asking flag n => simp at hwhere
  | waiting flag n => simp at hwhere
  | heard flag success n => simp at hwhere
  | accepted n => exact (unanswered_rejections n true).2.2
  | leaving lock n => exact (unanswered_rejections n true).2.2
  | reading lock flag log => simp at hwhere

/-! ## What the handlers leave alone -/

section Frames

variable (k : Client)

/-- Handling a response leaves the handshake alone. -/
lemma handshake_handleResponse (c : ConnId) (rsp : Response) (env : Answers) :
    (k.handleResponse ac c rsp env).input = k.input ∧
      (k.handleResponse ac c rsp env).loginlock = k.loginlock ∧
      (k.handleResponse ac c rsp env).lastresponse = k.lastresponse ∧
      (k.handleResponse ac c rsp env).logins = k.logins := by
  unfold Client.handleResponse
  split
  · exact ⟨rfl, rfl, rfl, rfl⟩
  · exact ⟨rfl, rfl, rfl, rfl⟩
  · split <;> exact ⟨rfl, rfl, rfl, rfl⟩
  · exact ⟨rfl, rfl, rfl, rfl⟩
  · exact ⟨rfl, rfl, rfl, rfl⟩
  · split <;> exact ⟨rfl, rfl, rfl, rfl⟩
  · exact ⟨rfl, rfl, rfl, rfl⟩

/-- And ends the program only if it is an exit response. -/
lemma exited_handleResponse (c : ConnId) (rsp : Response) (env : Answers) :
    (k.handleResponse ac c rsp env).exited = true ↔ rsp.isExit = true ∨ k.exited = true := by
  unfold Client.handleResponse Response.isExit
  cases rsp with
  | exit msg => simp
  | getip username addr =>
      dsimp only
      split <;> simp
  | chunkDataResponse filename chunk data =>
      dsimp only
      split <;> simp
  | text msg => simp
  | privateRegistration username => simp
  | chunkDataRequest filename chunk => simp
  | unknown type => simp

/-- A command leaves the handshake alone, unless it is a login. -/
lemma handshake_gotCommand (cmd : Command) :
    (k.gotCommand ac cmd).input = k.input ∧
      (k.gotCommand ac cmd).loginlock = k.loginlock ∧
      (k.gotCommand ac cmd).lastresponse = k.lastresponse ∧
      ((k.gotCommand ac cmd).logins = k.logins ∨
        (∃ username password, cmd = .login username password) ∧
          (k.gotCommand ac cmd).logins = k.logins ++ [.asked]) := by
  unfold Client.gotCommand Client.parseCommand
  cases cmd with
  | login username password => exact ⟨rfl, rfl, rfl, .inr ⟨⟨_, _, rfl⟩, rfl⟩⟩
  | startprivate username => exact ⟨rfl, rfl, rfl, .inl rfl⟩
  | stopprivate username =>
      dsimp only
      split <;> exact ⟨rfl, rfl, rfl, .inl rfl⟩
  | privateTo username rsp =>
      dsimp only
      split <;> exact ⟨rfl, rfl, rfl, .inl rfl⟩
  | other req => cases req <;> exact ⟨rfl, rfl, rfl, .inl rfl⟩

end Frames

/-! ## The steps that the condition allows -/

/-- Where a read may end, the handshake goes on from there. -/
lemma LoginLog.unlock {k : Client} (h : LoginLog k.input k.loginlock k.lastresponse k.logins)
    (hmay : MayUnlock k) : LoginLog k.input false k.lastresponse k.logins := by
  unfold MayUnlock at hmay
  generalize k.input = phase, k.loginlock = lock, k.lastresponse = flag, k.logins = log at h hmay
  cases h with
  | again n => exact .again n
  | checking n => cases hmay.2.1 rfl
  | asking flag n => exact absurd rfl hmay.2.2
  | waiting flag n =>
      have hunanswered := (hmay.1 rfl rfl).1
      rw [(unanswered_rejections n true).2.1] at hunanswered
      cases hunanswered
  | heard flag success n =>
      obtain rfl := (lastAnswer_answered n success flag).mp (hmay.1 rfl rfl)
      cases success with
      | true => exact .accepted n
      | false =>
          have hagain := LoginLog.again (n + 1)
          rw [rejections_succ] at hagain
          exact hagain
  | accepted n => exact .accepted n
  | leaving lock n => exact .leaving false n
  | reading lock flag log => exact .reading false flag log

/-- A response that does not contradict the last one where that matters. -/
lemma LoginLog.response {k : Client} (h : LoginLog k.input k.loginlock k.lastresponse k.logins)
    {success answers : Bool} (hanswers : answers = true → 0 < Client.unanswered k.logins)
    (hsame : (k.input = .checking ∨ k.input = .locking ∧ k.loginlock = false) →
      success = k.lastresponse) :
    LoginLog k.input k.loginlock success
      (if answers then k.logins ++ [.answered success] else k.logins) := by
  generalize k.input = phase, k.loginlock = lock, k.lastresponse = flag, k.logins = log at *
  -- where no request is open, the response is no answer
  have hnone : Client.unanswered log = 0 → answers = false := fun hzero => by
    cases answers with
    | false => rfl
    | true => exact absurd (hanswers rfl) (by omega)
  cases h with
  | again n =>
      rw [hnone (unanswered_rejections n true).1, hsame (.inr ⟨rfl, rfl⟩)]
      exact .again n
  | checking n =>
      rw [hnone (unanswered_rejections n true).1, hsame (.inl rfl)]
      exact .checking n
  | asking flag n =>
      rw [hnone (unanswered_rejections n true).1]
      exact .asking success n
  | waiting flag n =>
      cases answers with
      | false => exact .waiting success n
      | true =>
          have hheard := LoginLog.heard success success n
          simpa using hheard
  | heard flag success' n =>
      rw [hnone (unanswered_rejections n success').2.2]
      exact .heard success success' n
  | accepted n =>
      rw [hnone (unanswered_rejections n true).2.2, hsame (.inr ⟨rfl, rfl⟩)]
      exact .accepted n
  | leaving lock n =>
      rw [hnone (unanswered_rejections n true).2.2, hsame (.inl rfl)]
      exact .leaving lock n
  | reading lock flag log => exact .reading lock success _

/-- A response is handled. -/
lemma LoginOk.response {k : Client} (hk : LoginOk k) (hexited : k.exited = false) {success : Bool}
    {rsp : Response} {env : Answers} {answers : Bool}
    (henabled : k.enabled (.response success rsp env answers))
    (hok : LoginReads k (.response success rsp env answers)) :
    LoginOk (k.exec ac (.response success rsp env answers)) := by
  obtain ⟨c, hserving⟩ := Option.ne_none_iff_exists'.mp henabled.1
  simp only [Client.exec, hserving]
  -- the flag and the bookkeeping are set first
  let k₁ : Client :=
    { k with
      lastresponse := success
      logins := if answers then k.logins ++ [.answered success] else k.logins }
  obtain ⟨hinput, hlock, hflag, hlogins⟩ := handshake_handleResponse ac k₁ c rsp env
  constructor
  · rw [hlogins]
    show Orderly (if answers then k.logins ++ [.answered success] else k.logins)
    split
    · exact orderly_snoc.mpr ⟨hk.orderly, trivial⟩
    · exact hk.orderly
  · intro hopen
    rw [hinput, hlock, hflag, hlogins]
    refine (hk.log hexited).response (fun h => (henabled.2.2 h).2) fun hwhere => ?_
    refine (hok hwhere).resolve_left fun hexit => ?_
    have hended := (exited_handleResponse ac k₁ c rsp env).mpr (.inl hexit)
    rw [hended] at hopen
    cases hopen

/-- The input thread tests `lastresponse`. -/
lemma LoginOk.check {k : Client} (hk : LoginOk k) (hexited : k.exited = false)
    (hinput : k.input = .checking) : LoginOk (k.exec ac .check) := by
  have hlog := hk.log hexited
  rw [hinput] at hlog
  simp only [Client.exec]
  split
  · next hflag =>
      refine ⟨orderly_snoc.mpr ⟨hk.orderly, ?_⟩, fun _ => .reading _ _ _⟩
      rw [hflag] at hlog
      generalize k.loginlock = lock, k.logins = log at hlog ⊢
      cases hlog with
      | leaving lock n => exact (mayEnter_answered_iff n true).mpr rfl
  · next hflag =>
      refine ⟨hk.orderly, fun _ => ?_⟩
      rw [Bool.not_eq_true] at hflag
      rw [hflag] at hlog
      show LoginLog .asking k.loginlock k.lastresponse k.logins
      rw [hflag]
      generalize k.loginlock = lock, k.logins = log at hlog ⊢
      cases hlog with
      | checking n => exact .asking false n

/-- The input thread sends a login request. -/
lemma LoginOk.ask {k : Client} (hk : LoginOk k) (hexited : k.exited = false)
    (hinput : k.input = .asking) (username password : Bytes) :
    LoginOk (k.exec ac (.ask username password)) := by
  have hlog := hk.log hexited
  rw [hinput] at hlog
  constructor
  · show Orderly (k.logins ++ [.asked])
    refine orderly_snoc.mpr ⟨hk.orderly, ?_⟩
    generalize k.loginlock = lock, k.lastresponse = flag, k.logins = log at hlog ⊢
    cases hlog with
    | asking flag n => exact mayAsk_rejections n
  · intro _
    show LoginLog .locking k.loginlock k.lastresponse (k.logins ++ [.asked])
    generalize k.loginlock = lock, k.lastresponse = flag, k.logins = log at hlog ⊢
    cases hlog with
    | asking flag n => exact .waiting flag n

lemma LoginOk.step {k k' : Client} {e : ClientEvent} (hk : LoginOk k) (hok : LoginReads k e)
    (hstep : k.step ac e = some k') : LoginOk k' := by
  obtain ⟨hexited, henabled, -, rfl⟩ := (client_step_eq_some ac).mp hstep
  have hlog := hk.log hexited
  cases e with
  | accept fd addr => exact ⟨hk.orderly, fun _ => hlog⟩
  | hangup fd =>
      simp only [Client.exec]
      cases pickConn k.program fd with
      | none => exact ⟨hk.orderly, fun _ => hlog⟩
      | some c => exact ⟨hk.orderly, fun _ => hlog⟩
  | eof fd =>
      cases hconn : pickConn k.program fd with
      | none =>
          simp only [Client.exec, hconn]
          exact ⟨hk.orderly, fun _ => hlog⟩
      | some c =>
          simp only [Client.exec, hconn]
          refine ⟨hk.orderly, fun hopen => hlog.unlock (hok c hconn fun hserver => ?_)⟩
          -- the end of the connection to the server ends the program
          simp [Client.close, hserver] at hopen
  | readable fd => exact ⟨hk.orderly, fun _ => hlog⟩
  | response success rsp env answers => exact hk.response ac hexited henabled hok
  | readDone => exact ⟨hk.orderly, fun _ => hlog.unlock hok⟩
  | writable fd nsent =>
      simp only [Client.exec]
      cases pickConn k.program fd with
      | none => exact ⟨hk.orderly, fun _ => hlog⟩
      | some c => exact ⟨hk.orderly, fun _ => hlog⟩
  | lock =>
      obtain ⟨hinput, hlock⟩ := henabled
      refine ⟨hk.orderly, fun _ => ?_⟩
      rw [hinput, hlock] at hlog
      show LoginLog .checking true k.lastresponse k.logins
      generalize k.lastresponse = flag, k.logins = log at hlog ⊢
      cases hlog with
      | again n => exact .checking n
      | accepted n => exact .leaving true n
  | check => exact hk.check ac hexited henabled
  | ask username password => exact hk.ask ac hexited henabled username password
  | command cmd =>
      have hinput : k.input = .reading := henabled
      obtain ⟨hinput', hlock, hflag, hlogins⟩ := handshake_gotCommand ac k cmd
      simp only [Client.exec]
      refine ⟨?_, fun _ => ?_⟩
      · rcases hlogins with h | ⟨⟨username, password, rfl⟩, h⟩
        · rw [h]
          exact hk.orderly
        · rw [h]
          exact orderly_snoc.mpr ⟨hk.orderly, hok⟩
      · rw [hinput', hinput]
        exact .reading _ _ _

/-! ## The steps that the condition forbids -/

/-- The program goes on, and no mutex is locked. -/
structure Client.Live (k : Client) : Prop where
  running : k.exited = false
  noFault : k.program.fault = none
  free : k.program.held = []

section Ahead

variable {ac : Achelper} {k : Client}

lemma Handshake.orderly (h : Handshake ac k) : Orderly k.logins := h [] k .nil

/-- What the input thread does keeps the handshake in order. -/
lemma Handshake.next (h : Handshake ac k) {k' : Client} {e : ClientEvent} (he : e.isLogin = true)
    (hstep : k.step ac e = some k') : Handshake ac k' :=
  fun _ k'' run => h _ k'' (Run.cons he hstep run)

variable (hlive : k.Live)
include hlive

lemma Handshake.lock (h : Handshake ac k) (hinput : k.input = .locking)
    (hlock : k.loginlock = false) :
    Handshake ac { k with loginlock := true, input := .checking } :=
  h.next (e := .lock) rfl
    ((client_step_eq_some ac).mpr ⟨hlive.running, ⟨hinput, hlock⟩, hlive.noFault, rfl⟩)

lemma Handshake.check (h : Handshake ac k) (hinput : k.input = .checking) :
    Handshake ac (k.exec ac .check) := by
  refine h.next (e := .check) rfl
    ((client_step_eq_some ac).mpr ⟨hlive.running, hinput, ?_, rfl⟩)
  simp only [Client.exec]
  split <;> exact hlive.noFault

lemma fault_ask (username password : Bytes) :
    (k.exec ac (.ask username password)).program.fault = none := by
  show (epollDoSendBuffer (askServer ac k.program _)).fault = none
  unfold epollDoSendBuffer askServer sendRequest
  rw [State.fault_epollMod]
  show ((k.program.lock serverConn).setBuf _ _).fault = none
  rw [State.fault_setBuf]
  unfold State.lock
  rw [hlive.free]
  exact hlive.noFault

lemma Handshake.ask (h : Handshake ac k) (hinput : k.input = .asking) :
    Handshake ac (k.exec ac (.ask [] [])) :=
  h.next (e := .ask [] []) rfl
    ((client_step_eq_some ac).mpr ⟨hlive.running, hinput, fault_ask hlive [] [], rfl⟩)

lemma Client.Live.ask : (k.exec ac (.ask [] [])).Live where
  running := hlive.running
  noFault := fault_ask hlive [] []
  free := (held_exec ac k (.ask [] [])).trans hlive.free

/-- Where the input thread is about to look at `lastresponse`, it says what the history says. -/
lemma Handshake.agrees (h : Handshake ac k)
    (hwhere : k.input = .checking ∨ k.input = .locking ∧ k.loginlock = false) :
    (k.lastresponse = true → MayEnter k.logins) ∧ (k.lastresponse = false → MayAsk k.logins) := by
  -- first at the test itself
  have hchecking : ∀ {k : Client}, k.Live → Handshake ac k → k.input = .checking →
      (k.lastresponse = true → MayEnter k.logins) ∧
        (k.lastresponse = false → MayAsk k.logins) := by
    intro k hlive h hinput
    have hcheck := h.check hlive hinput
    simp only [Client.exec] at hcheck
    constructor
    · intro hflag
      rw [if_pos hflag] at hcheck
      exact (orderly_snoc.mp hcheck.orderly).2
    · intro hflag
      rw [if_neg (by simp [hflag])] at hcheck
      have hlive' : Client.Live { k with input := .asking } :=
        ⟨hlive.running, hlive.noFault, hlive.free⟩
      exact (orderly_snoc.mp (hcheck.ask hlive' rfl).orderly).2
  rcases hwhere with hinput | ⟨hinput, hlock⟩
  · exact hchecking hlive h hinput
  · have hlive' : Client.Live { k with loginlock := true, input := .checking } :=
      ⟨hlive.running, hlive.noFault, hlive.free⟩
    have hagrees := hchecking hlive' (h.lock hlive hinput hlock) rfl
    exact hagrees

end Ahead

/-- After another request with the mutex open the input thread does not wait for the answer. -/
lemma not_handshake_asking {k : Client} (n : ℕ) (hlive : k.Live) (hinput : k.input = .asking)
    (hlock : k.loginlock = false) (hlogins : k.logins = rejections n) : ¬ Handshake ac k := by
  intro h
  have hagrees := (h.ask hlive hinput).agrees hlive.ask (.inr ⟨rfl, hlock⟩)
  change (k.lastresponse = true → MayEnter (k.logins ++ [.asked])) ∧
    (k.lastresponse = false → MayAsk (k.logins ++ [.asked])) at hagrees
  rw [hlogins] at hagrees
  cases hflag : k.lastresponse with
  | true => exact not_mayEnter_asked n (hagrees.1 hflag)
  | false => exact not_mayAsk_asked n (hagrees.2 hflag)

/-- Where a read has ended that may not, the input thread can go wrong. -/
lemma not_handshake_unlock {k k' : Client} (hlive : k'.Live)
    (hlog : LoginLog k.input k.loginlock k.lastresponse k.logins) (hnot : ¬ MayUnlock k)
    (hinput : k'.input = k.input) (hlock : k'.loginlock = false)
    (hflag : k'.lastresponse = k.lastresponse) (hlogins : k'.logins = k.logins) :
    ¬ Handshake ac k' := by
  intro h
  have hwaiting : k.input = .locking → (k.lastresponse = true → MayEnter k.logins) ∧
      (k.lastresponse = false → MayAsk k.logins) := fun hlocking => by
    rw [← hflag, ← hlogins]
    exact h.agrees hlive (.inr ⟨hinput.trans hlocking, hlock⟩)
  unfold MayUnlock at hnot
  generalize k.input = phase, k.loginlock = lock, k.lastresponse = flag, k.logins = log
    at hlog hnot hinput hflag hlogins hwaiting
  cases hlog with
  | again n => exact hnot (by simp)
  | checking n =>
      have hcheck := h.check hlive hinput
      simp only [Client.exec] at hcheck
      rw [if_neg (by simp [hflag])] at hcheck
      have hlive' : Client.Live { k' with input := .asking } :=
        ⟨hlive.running, hlive.noFault, hlive.free⟩
      exact not_handshake_asking ac n hlive' rfl hlock hlogins hcheck
  | asking flag n => exact not_handshake_asking ac n hlive hinput hlock hlogins h
  | waiting flag n =>
      cases flag with
      | true => exact not_mayEnter_asked n ((hwaiting rfl).1 rfl)
      | false => exact not_mayAsk_asked n ((hwaiting rfl).2 rfl)
  | heard flag success n =>
      refine hnot ⟨fun _ _ => (lastAnswer_answered n success flag).mpr ?_, by simp, by simp⟩
      cases flag with
      | true => exact (mayEnter_answered_iff n success).mp ((hwaiting rfl).1 rfl)
      | false => exact (mayAsk_answered_iff n success).mp ((hwaiting rfl).2 rfl)
  | accepted n => exact hnot (by simp)
  | leaving lock n => exact hnot (by simp)
  | reading lock flag log => exact hnot (by simp)

/-- Where a response has contradicted the one that the input thread is about to look at, the
input thread can go wrong. -/
lemma not_handshake_contradicted {k k' : Client} (hlive : k'.Live)
    (hlog : LoginLog k.input k.loginlock k.lastresponse k.logins)
    (hwhere : k.input = .checking ∨ k.input = .locking ∧ k.loginlock = false)
    (hinput : k'.input = k.input) (hlock : k'.loginlock = k.loginlock)
    (hflag : k'.lastresponse ≠ k.lastresponse)
    (hlogins : k'.logins = k.logins) : ¬ Handshake ac k' := by
  intro h
  have hagrees := h.agrees hlive (by rw [hinput, hlock]; exact hwhere)
  rw [hlogins] at hagrees
  generalize k'.lastresponse = flag' at hflag hagrees
  generalize k.input = phase, k.loginlock = lock, k.lastresponse = flag, k.logins = log
    at hlog hwhere hflag hagrees
  cases hlog with
  | again n =>
      rw [ne_eq, Bool.not_eq_false] at hflag
      exact not_mayEnter_rejections n (hagrees.1 hflag)
  | checking n =>
      rw [ne_eq, Bool.not_eq_false] at hflag
      exact not_mayEnter_rejections n (hagrees.1 hflag)
  | asking flag n => simp at hwhere
  | waiting flag n => simp at hwhere
  | heard flag success n => simp at hwhere
  | accepted n =>
      rw [ne_eq, Bool.not_eq_true] at hflag
      exact absurd ((mayAsk_answered_iff n true).mp (hagrees.2 hflag)) (by decide)
  | leaving lock n =>
      rw [ne_eq, Bool.not_eq_true] at hflag
      exact absurd ((mayAsk_answered_iff n true).mp (hagrees.2 hflag)) (by decide)
  | reading lock flag log => simp at hwhere

/-- A step that the condition forbids lets the input thread go wrong. -/
lemma not_handshake_step {k k' : Client} {e : ClientEvent} (hk : LoginOk k)
    (hheld : k.program.held = []) (hnot : ¬ LoginReads k e) (hstep : k.step ac e = some k') :
    ¬ Handshake ac k' := by
  obtain ⟨hexited, henabled, hfault, rfl⟩ := (client_step_eq_some ac).mp hstep
  have hlog := hk.log hexited
  have hlive : (k.exec ac e).exited = false → (k.exec ac e).Live := fun hopen =>
    ⟨hopen, hfault, (held_exec ac k e).trans hheld⟩
  cases e with
  | eof fd =>
      simp only [LoginReads, not_forall] at hnot
      obtain ⟨c, hconn, hserver, hnot⟩ := hnot
      have hconn' : pickConn k.program fd = some c := hconn
      simp only [Client.exec, hconn'] at hlive ⊢
      have hlive' := hlive (by simp [Client.close, hexited, hserver])
      exact not_handshake_unlock ac hlive' hlog hnot rfl rfl rfl rfl
  | response success rsp env answers =>
      obtain ⟨c, hserving⟩ := Option.ne_none_iff_exists'.mp henabled.1
      simp only [LoginReads, Classical.not_imp, not_or] at hnot
      obtain ⟨hwhere, hexit, hflag⟩ := hnot
      -- no request is open there, so the response is no answer
      obtain rfl : answers = false := by
        cases answers with
        | false => rfl
        | true => exact absurd (henabled.2.2 rfl).2 (by rw [hlog.unanswered hwhere]; decide)
      simp only [Client.exec, hserving] at hlive ⊢
      obtain ⟨hinput, hlock, hflag', hlogins⟩ := handshake_handleResponse ac
        { k with
          lastresponse := success
          logins := if false = true then k.logins ++ [.answered success] else k.logins } c rsp env
      have hopen := (exited_handleResponse ac
        { k with
          lastresponse := success
          logins := if false = true then k.logins ++ [.answered success] else k.logins }
        c rsp env).not.mpr (by simp [hexit, hexited])
      rw [Bool.not_eq_true] at hopen
      exact not_handshake_contradicted ac (hlive hopen) hlog hwhere hinput hlock
        (hflag' ▸ hflag) hlogins
  | readDone => exact not_handshake_unlock ac (hlive hexited) hlog hnot rfl rfl rfl rfl
  | command cmd =>
      intro h
      cases cmd with
      | login username password =>
          have horderly : Orderly (k.logins ++ [.asked]) := h.orderly
          exact hnot (orderly_snoc.mp horderly).2
      | startprivate username => exact hnot trivial
      | stopprivate username => exact hnot trivial
      | privateTo username rsp => exact hnot trivial
      | other req => exact hnot trivial
  | accept fd addr => exact absurd trivial hnot
  | hangup fd => exact absurd trivial hnot
  | readable fd => exact absurd trivial hnot
  | writable fd nsent => exact absurd trivial hnot
  | lock => exact absurd trivial hnot
  | check => exact absurd trivial hnot
  | ask username password => exact absurd trivial hnot

/-! ## Whole runs -/

lemma held_run {sock : ℕ} {serverAddress : SockAddr} {listenPort : UInt32}
    {ok : Client → ClientEvent → Prop} {es : List ClientEvent} {k : Client}
    (run : ClientRun ac sock serverAddress listenPort ok es k) : k.program.held = [] := by
  refine run.invariant (P := fun k => k.program.held = []) ?_ fun hheld _ h => ?_
  · obtain ⟨_, _, h⟩ := acceptClient_eq Client.blank sock serverAddress
    show (acceptClient Client.blank sock serverAddress).held = []
    rw [h]
    rfl
  · obtain ⟨-, -, -, rfl⟩ := (client_step_eq_some ac).mp h
    exact (held_exec ac _ _).trans hheld

lemma loginOk_init (sock : ℕ) (serverAddress : SockAddr) (listenPort : UInt32) :
    LoginOk (Client.init sock serverAddress listenPort) :=
  ⟨orderly_nil, fun _ => .again 0⟩

lemma loginOk_run {sock : ℕ} {serverAddress : SockAddr} {listenPort : UInt32}
    {es : List ClientEvent} {k : Client}
    (run : ClientRun ac sock serverAddress listenPort LoginReads es k) : LoginOk k :=
  run.invariant (loginOk_init sock serverAddress listenPort) fun hk hok h => hk.step ac hok h

/-- The condition says nothing about the input thread's own steps. -/
lemma loginReads_isLogin {k : Client} {e : ClientEvent} (h : e.isLogin = true) :
    LoginReads k e := by
  cases e <;> first | exact trivial | cases h

/-- The invariant is enough for the handshake to be in order, whatever the input thread does. -/
lemma LoginOk.handshake {k : Client} (hk : LoginOk k) : Handshake ac k := fun _ _ run =>
  (run.invariant (P := LoginOk) hk
    fun hk he h => hk.step ac (loginReads_isLogin he) h).orderly

/-- The handshake is in order throughout a run exactly if every read that ends may unlock
`loginlock`, no response contradicts the one the input thread is about to look at, and the login
requests typed as commands may be made. -/
theorem handshake_iff {sock : ℕ} {serverAddress : SockAddr} {listenPort : UInt32}
    {es : List ClientEvent} {k : Client}
    (run : ClientRun ac sock serverAddress listenPort Always es k) :
    Throughout (Client.step ac) (Client.init sock serverAddress listenPort) (Handshake ac) es k ↔
      ClientRun ac sock serverAddress listenPort LoginReads es k := by
  refine Run.throughout_iff (Q := fun k => LoginOk k ∧ k.program.held = [])
    ((loginOk_init sock serverAddress listenPort).handshake ac)
    (fun run => ⟨loginOk_run ac run, held_run ac run⟩) ?_ run
  rintro k e k' ⟨hk, hheld⟩ - hstep
  constructor
  · intro h
    by_contra hnot
    exact not_handshake_step ac hk hheld hnot hstep h
  · exact fun hok => (hk.step ac hok hstep).handshake ac

/-- The input thread asks for a login. -/
def askLogin (username password : String) : List ClientEvent :=
  [.lock, .check, .ask (text username) (text password)]

/-- One read on the descriptor 3 that brings the whole answer to a login. -/
def readAnswer (success : Bool) (msg : String) : List ClientEvent :=
  [.readable 3, .response success (.text (text msg)) ⟨none, none, false⟩ true, .readDone]

/-- The end of a read that has brought a part of the answer: the input thread asks again. -/
theorem not_orderly_partial_read :
    ∃ k, ClientRun protobufWire 3 demoAddr 4000 Always
        (askLogin "hans" "falcon" ++ [.writable 3 (some 21), .readable 3, .readDone] ++
          askLogin "hans" "falcon") k ∧
      ¬ Orderly k.logins := by
  obtain ⟨k, run, hlogins⟩ := Run.exists_of_execute (Client.step protobufWire) Always
    (Client.init 3 demoAddr 4000)
    (askLogin "hans" "falcon" ++ [.writable 3 (some 21), .readable 3, .readDone] ++
      askLogin "hans" "falcon")
    (fun k => k.logins = [.asked, .asked]) (by decide +kernel)
  refine ⟨k, run, fun h => ?_⟩
  rw [hlogins] at h
  have htwice : Orderly ([.asked] ++ [.asked]) := h
  have hmay : MayAsk [.asked] := (orderly_snoc.mp htwice).2
  exact absurd hmay (by decide)

/-- A rejected login and an accepted one, each answered in one read. -/
theorem handshake_demo :
    ∃ k, Throughout (Client.step protobufWire) (Client.init 3 demoAddr 4000)
        (Handshake protobufWire)
        (askLogin "hans" "wrong" ++ readAnswer false "password is wrong" ++
          askLogin "hans" "falcon" ++ readAnswer true "Welcome hans!" ++ [.lock, .check]) k ∧
      k.input = .reading := by
  obtain ⟨k, run, hinput⟩ := Run.exists_of_execute (Client.step protobufWire) LoginReads
    (Client.init 3 demoAddr 4000)
    (askLogin "hans" "wrong" ++ readAnswer false "password is wrong" ++
      askLogin "hans" "falcon" ++ readAnswer true "Welcome hans!" ++ [.lock, .check])
    (fun k => k.input = .reading) (by decide +kernel)
  exact ⟨k, (handshake_iff protobufWire run.always).mpr run, hinput⟩

end EpollChat

import EpollChat.Properties.ClientProgram
import EpollChat.Properties.Drains
import EpollChat.Properties.Wires

/-!
# What a client sends

A client puts requests into the outbuffer of its connection to the server, and responses into
those of the connections to its peers.  `Client.output` lists what an event puts where.  What a
connection has been sent and what still waits for it is, byte for byte, what was put there
(`sentTo_run`), so the peer receives the encodings of these messages one after the other.
-/

namespace EpollChat

variable (ac : Achelper)

/-! ## What is put into the outbuffers -/

/-- A message in an outbuffer of a client. -/
inductive Outgoing
  | request (req : IMRequest)
  | response (rsp : IMResponse)

/-- Its bytes on the wire. -/
def Outgoing.bytes : Outgoing → Bytes
  | .request req => encodeIMRequestToBytes ac req
  | .response rsp => encodeIMResponseToBytes ac rsp

namespace Client

/-- What a command puts into the outbuffers, with the connection. -/
def commandOutput (k : Client) : Command → List (ConnId × Outgoing)
  | .login username password =>
      [(serverConn, .request
        (loginRequest ac (k.loggedInUserName.getD (cstr username)) password k.listenPort))]
  | .startprivate username => [(serverConn, .request (startprivateRequest ac username))]
  | .stopprivate _ => []
  | .privateTo username rsp =>
      ((privateConn k.program username).map fun c => (c, .response rsp)).toList
  | .other req => (req.map fun req => (serverConn, .request req)).toList

/-- What handling a response puts into the outbuffers. -/
def responseOutput (k : Client) (c : ConnId) (env : Answers) :
    Response → List (ConnId × Outgoing)
  | .getip .. =>
      (env.connected.map fun _ =>
        (k.program.nconns,
          .response (privateRegistrationResponse ac k.loggedInUserName))).toList
  | .chunkDataRequest filename chunk =>
      [(c, .response (getChunkDataResponse ac k.loggedInUserName filename chunk env.stored))]
  | .chunkDataResponse filename chunk _ =>
      if env.writable then [(serverConn, .request (registerChunkRequest ac filename chunk))] else []
  | _ => []

/-- What an event puts into the outbuffers. -/
def output (k : Client) : ClientEvent → List (ConnId × Outgoing)
  | .response _ rsp env _ =>
      match k.program.serving with
      | some c => k.responseOutput ac c env rsp
      | none => []
  | .ask username password => k.commandOutput ac (.login username password)
  | .command cmd => k.commandOutput ac cmd
  | _ => []

end Client

/-- What a connection has been sent, and what waits in its outbuffer. -/
def State.sentTo (s : State) (c : ConnId) : Bytes :=
  Ledger.written c (moves s.log) ++ s.pending (.out c)

/-- From `s` to `s'`, the messages `l` have been put into the outbuffers. -/
def Puts (s s' : State) (l : List (ConnId × Outgoing)) : Prop :=
  ∀ c, s'.sentTo c = s.sentTo c ++ ((onConn c l).map (Outgoing.bytes ac)).flatten

variable {ac}

/-! ## The single updates -/

namespace Puts

variable {s t t' : State} {l l' : List (ConnId × Outgoing)}

lemma of_same (hlog : moves t.log = moves s.log)
    (hpending : ∀ c, t.pending (.out c) = s.pending (.out c)) : Puts ac s t [] := by
  intro c
  rw [State.sentTo, hlog, hpending]
  simp [State.sentTo]

lemma trans (h : Puts ac s t l) (h' : Puts ac t t' l') : Puts ac s t' (l ++ l') := by
  intro c
  rw [h' c, h c]
  simp

/-- Something was put into one outbuffer. -/
lemma single {d : ConnId} {m : Outgoing} (hwritten : ∀ c,
      Ledger.written c (moves t.log) = Ledger.written c (moves s.log))
    (hpending : ∀ c, t.pending (.out c) =
      if c = d then s.pending (.out c) ++ m.bytes ac else s.pending (.out c)) :
    Puts ac s t [(d, m)] := by
  intro c
  rw [State.sentTo, hwritten, hpending, onConn_singleton]
  by_cases h : c = d
  · simp [State.sentTo, h]
  · simp [State.sentTo, h, Ne.symm h]

end Puts

lemma puts_askServer (s : State) (req : IMRequest) :
    Puts ac s (askServer ac s req) [(serverConn, .request req)] := by
  unfold askServer sendRequest
  refine .single (fun c => ?_) fun c => ?_
  · show Ledger.written c (moves ((s.lock serverConn).setBuf _ _).log) = _
    rw [State.log_setBuf, State.log_lock]
  · rw [State.pending_unlock, State.pending_setBuf, State.pending_lock]
    have hbuf : (s.lock serverConn).buf (.out serverConn) = s.buf (.out serverConn) :=
      State.buf_congr (State.users_lock s _) (State.conn_lock s _) _
    rw [hbuf, OutBuffer.pending_append]
    by_cases h : c = serverConn
    · subst h
      simp [Outgoing.bytes, State.pending]
    · simp [h]

lemma puts_sendResponseToClient (s : State) (d : ConnId) (why : Why) (rsp : IMResponse) :
    Puts ac s (sendResponseToClient ac s d why rsp) [(d, .response rsp)] := by
  rw [sendResponseToClient_eq]
  refine .single (fun c => ?_) fun c => ?_
  · rw [log_deliver, moves_append, moves_move, Ledger.written_put]
  · rw [pending_deliver]
    by_cases h : c = d <;> simp [h, Outgoing.bytes, Delivery.frame]

lemma puts_epollMod (s : State) (fd : ℕ) (out : Bool) : Puts ac s (s.epollMod fd out) [] :=
  .of_same (by rw [State.log_epollMod]) fun _ => State.pending_epollMod s fd out _

/-- What `send` takes is sent. -/
lemma puts_imSendBuffer {s : State} {d : ConnId} {n : Option ℕ}
    (hsent : sendResult (s.pending (.out d)).length n) :
    Puts ac s (imSendBuffer s d (.out d) n) [] := by
  intro c
  rw [onConn_nil, List.map_nil, List.flatten_nil, List.append_nil, State.sentTo, State.sentTo,
    pending_imSendBuffer s d _ n hsent]
  have htake := List.take_append_drop (n.getD 0) (s.pending (.out d))
  rcases log_imSendBuffer s d (.out d) n with hlog | ⟨hlog, hnone⟩ <;> rw [hlog]
  · rw [moves_append, moves_move, Ledger.written_take]
    by_cases h : c = d
    · subst h
      rw [if_pos rfl, if_pos rfl, List.append_assoc, sentBytes, htake]
    · rw [if_neg (Ne.symm h), if_neg (by simpa using h), List.append_nil]
  · by_cases h : c = d
    · subst h
      rw [sentBytes] at hnone
      rw [hnone, List.nil_append] at htake
      rw [if_pos rfl, htake]
    · rw [if_neg (by simpa using h)]

/-- A connection is made with an empty outbuffer. -/
lemma sentTo_acceptClient {s : State} (hfresh : s.pending (.out s.nconns) = []) (fd : ℕ)
    (addr : SockAddr) (c : ConnId) : (acceptClient s fd addr).sentTo c = s.sentTo c := by
  obtain ⟨_, _, h⟩ := acceptClient_eq s fd addr
  have hpending : (acceptClient s fd addr).pending (.out c) = s.pending (.out c) := by
    by_cases hc : c = s.nconns
    · subst hc
      rw [hfresh, h]
      simp [State.pending, State.buf, newConn, OutBuffer.pending_init]
    · rw [h]
      simp [State.pending, State.buf, hc]
  rw [State.sentTo, State.sentTo, hpending, h]

lemma puts_acceptClient {s : State} (hfresh : s.pending (.out s.nconns) = []) (fd : ℕ)
    (addr : SockAddr) : Puts ac s (acceptClient s fd addr) [] := fun c => by
  rw [sentTo_acceptClient hfresh]
  exact (List.append_nil _).symm

lemma pending_linkUser (s : State) (u : UserId) (c : ConnId) (q : Queue) :
    (linkUser s u c).pending q = s.pending q := by
  refine (State.pending_setConn _ c ?_ q).trans (State.pending_setUser s u ?_ q) <;>
    exact fun _ => rfl

lemma puts_gotPrivateRegistration (s : State) (c : ConnId) (username : Bytes) :
    Puts ac s (gotPrivateRegistration s c username) [] := by
  unfold gotPrivateRegistration
  refine .of_same ?_ fun d => ?_
  · show moves (findOrAddUser s username).1.log = _
    unfold findOrAddUser
    cases findUser s username <;> rfl
  · rw [pending_linkUser]
    unfold findOrAddUser
    cases findUser s username <;> rfl

/-- Nobody is told that a peer has gone. -/
lemma logoutUser_of_peer {s : State} (hclient : s.isServer = false) {u : UserId} {c : ConnId}
    (hc : (s.users u).client = some c) : logoutUser ac s (some u) = unlink (s.touch c) u c := by
  have htouch : (s.touch c).isServer = false := by
    rw [← hclient]
    unfold State.touch
    split <;> rfl
  have hunlink : (unlink (s.touch c) u c).isServer = false := htouch
  unfold unlink at hunlink ⊢
  simp only [logoutUser, hc, hunlink, Bool.not_false, if_true]

lemma puts_logoutUser {s : State} (hclient : s.isServer = false) (o : Option UserId) :
    Puts ac s (logoutUser ac s o) [] := by
  cases o with
  | none => exact .of_same rfl fun _ => rfl
  | some u =>
      cases hc : (s.users u).client with
      | none =>
          rw [logoutUser_of_none ac hc]
          exact .of_same rfl fun _ => rfl
      | some c =>
          rw [logoutUser_of_peer hclient hc]
          refine .of_same ?_ fun d => ?_
          · show moves ((s.touch c).log ++ [.logout u c]) = _
            rw [State.log_touch, moves_append]
            exact List.append_nil _
          · unfold unlink
            rw [State.pending_emit]
            refine (State.pending_setUser _ u ?_ _).trans
              ((State.pending_setConn _ c ?_ _).trans (State.pending_touch s c _)) <;>
              exact fun _ => rfl

lemma puts_closeSocket {s : State} (hclient : s.isServer = false) (c : ConnId) :
    Puts ac s (closeSocket ac s c) [] := by
  have hpeer : ((s.touch c).lock c).isServer = false := by
    rw [← hclient]
    unfold State.lock State.touch
    split <;> split <;> rfl
  have hlock : Puts ac s ((s.touch c).lock c) [] :=
    .of_same (by rw [State.log_lock, State.log_touch]) fun d => by
      rw [State.pending_lock, State.pending_touch]
  exact hlock.trans ((puts_logoutUser hpeer _).trans
    (.of_same rfl fun d => State.pending_congr rfl rfl _))

/-! ## The events of a client -/

/-- The client is one, and what is not a connection yet has been sent nothing. -/
structure OutputOk (s : State) : Prop where
  client : s.isServer = false
  fresh : ∀ c, s.nconns ≤ c → s.sentTo c = []

lemma OutputOk.pending_fresh {s : State} (h : OutputOk s) : s.pending (.out s.nconns) = [] :=
  (List.append_eq_nil_iff.mp (h.fresh _ le_rfl)).2

section Events

variable {k : Client}

lemma puts_gotCommand (h : OutputOk k.program) (cmd : Command) :
    Puts ac k.program (k.gotCommand ac cmd).program (k.commandOutput ac cmd) := by
  have hlast : Puts ac (k.parseCommand ac cmd).program (k.gotCommand ac cmd).program [] :=
    puts_epollMod _ _ _
  rw [← List.append_nil (k.commandOutput ac cmd)]
  refine Puts.trans ?_ hlast
  cases cmd with
  | login username password => exact puts_askServer _ _
  | startprivate username => exact puts_askServer _ _
  | stopprivate username =>
      simp only [Client.parseCommand, Client.commandOutput]
      split
      · exact .of_same rfl fun _ => rfl
      · exact puts_closeSocket h.client _
  | privateTo username rsp =>
      simp only [Client.parseCommand, Client.commandOutput]
      split
      · next hconn =>
          rw [hconn]
          exact .of_same rfl fun _ => rfl
      · next c hconn =>
          rw [hconn]
          exact puts_sendResponseToClient _ _ _ _
  | other req =>
      cases req with
      | none => exact .of_same rfl fun _ => rfl
      | some req => exact puts_askServer _ _

lemma puts_handleResponse (h : OutputOk k.program) (c : ConnId) (rsp : Response) (env : Answers) :
    Puts ac k.program (k.handleResponse ac c rsp env).program (k.responseOutput ac c env rsp) := by
  cases rsp with
  | getip username addr =>
      simp only [Client.handleResponse, Client.responseOutput]
      cases env.connected with
      | none => exact .of_same rfl fun _ => rfl
      | some sock =>
          have hregistered : Puts ac k.program (connectedTo k.program sock username addr) [] :=
            (puts_acceptClient h.pending_fresh _ _).trans (puts_gotPrivateRegistration _ _ _)
          exact hregistered.trans (puts_sendResponseToClient _ _ _ _)
  | privateRegistration username => exact puts_gotPrivateRegistration _ _ _
  | chunkDataRequest filename chunk => exact puts_sendResponseToClient _ _ _ _
  | chunkDataResponse filename chunk data =>
      simp only [Client.handleResponse, Client.responseOutput]
      split
      · exact (puts_askServer _ _).trans (puts_epollMod _ _ _)
      · exact .of_same rfl fun _ => rfl
  | text | exit | unknown => exact .of_same rfl fun _ => rfl

/-- **What an event puts into the outbuffers.** -/
lemma puts_step (h : OutputOk k.program) {k' : Client} {e : ClientEvent}
    (hstep : k.step ac e = some k') : Puts ac k.program k'.program (k.output ac e) := by
  obtain ⟨-, henabled, -, rfl⟩ := (client_step_eq_some ac).mp hstep
  have hsame : Puts ac k.program k.program [] := .of_same rfl fun _ => rfl
  cases e with
  | accept fd addr => exact puts_acceptClient h.pending_fresh fd addr
  | hangup fd | eof fd =>
      simp only [Client.exec, Client.output]
      split
      · exact puts_closeSocket h.client _
      · exact hsame
  | readable fd => exact .of_same rfl fun _ => rfl
  | response success rsp env answers =>
      obtain ⟨c, hserving⟩ := Option.ne_none_iff_exists'.mp henabled.1
      simp only [Client.exec, Client.output, hserving]
      -- the flag and the bookkeeping are set first
      let k' : Client :=
        { k with
          lastresponse := success
          logins := if answers then k.logins ++ [.answered success] else k.logins }
      exact puts_handleResponse (k := k') h c rsp env
  | readDone => exact .of_same rfl fun _ => rfl
  | writable fd nsent =>
      simp only [Client.exec, Client.output]
      split
      · next c hpick =>
          have hsent := henabled.2.2.2 c hpick
          have hlock : Puts ac k.program (k.program.lock c) [] :=
            .of_same (by rw [State.log_lock]) fun _ => State.pending_lock _ _ _
          refine hlock.trans ((puts_imSendBuffer (n := nsent) ?_).trans
            (.of_same rfl fun _ => rfl))
          rwa [State.pending_lock]
      · exact hsame
  | lock => exact hsame
  | check =>
      simp only [Client.exec, Client.output]
      split <;> exact hsame
  | ask username password => exact puts_gotCommand h (.login username password)
  | command cmd => exact puts_gotCommand h cmd

/-! ## All runs -/

/-- A client stays one, and connections are only made. -/
lemma ProgramMove.grows {s s' : State} {r : Option (Bytes × ConnId)} (h : ProgramMove ac s r s') :
    s'.isServer = s.isServer ∧ s.nconns ≤ s'.nconns ∧
      ∀ username c, r = some (username, c) → c < s'.nconns := by
  have hregistered : ∀ (t : State) (c : ConnId) (username : Bytes),
      (gotPrivateRegistration t c username).isServer = t.isServer ∧
        (gotPrivateRegistration t c username).nconns = t.nconns := by
    intro t c username
    unfold gotPrivateRegistration findOrAddUser
    cases findUser t username <;> exact ⟨rfl, rfl⟩
  have hcore : ∀ {t t' : State}, t'.core = t.core → t'.isServer = t.isServer ∧
      t'.nconns = t.nconns := fun {t t'} hsame =>
    ⟨show t'.core.isServer = t.core.isServer by rw [hsame],
      show t'.core.nconns = t.core.nconns by rw [hsame]⟩
  cases h with
  | quiet same => exact ⟨(hcore same).1, (hcore same).2.ge, fun _ _ hr => by cases hr⟩
  | serve c known => exact ⟨rfl, le_rfl, fun _ _ hr => by cases hr⟩
  | accept fd addr =>
      refine ⟨?_, ?_, fun _ _ hr => by cases hr⟩
      · obtain ⟨_, _, h⟩ := acceptClient_eq s fd addr
        rw [h]
      · rw [nconns_acceptClient]
        exact Nat.le_succ _
  | close c same =>
      have hclose : ∀ t : State, ∀ o, (unbind t o).isServer = t.isServer ∧
          (unbind t o).nconns = t.nconns := by
        intro t o
        unfold unbind
        split
        · exact ⟨rfl, rfl⟩
        · split <;> exact ⟨rfl, rfl⟩
      have hclosed : (closeSocket ac s c).isServer = s.isServer ∧
          (closeSocket ac s c).nconns = s.nconns := by
        have h := core_closeSocket ac s c
        exact ⟨(congrArg State.isServer h).trans (hclose s.core _).1,
          (congrArg State.nconns h).trans (hclose s.core _).2⟩
      exact ⟨(hcore same).1.trans hclosed.1, ((hcore same).2.trans hclosed.2).ge,
        fun _ _ hr => by cases hr⟩
  | registered c username made =>
      obtain ⟨hserver, hnconns⟩ := hregistered s c username
      refine ⟨hserver, hnconns.ge, fun _ d hr => ?_⟩
      cases hr
      rwa [hnconns]
  | connected self sock username addr =>
      obtain ⟨hserver, hnconns⟩ := hcore (core_gotPrivateAddr ac s self sock username addr)
      obtain ⟨hserver', hnconns'⟩ :=
        hregistered (acceptClient s sock (SockAddr.ofBytes addr)) s.nconns username
      have hn : (gotPrivateAddr ac s self sock username addr).nconns = s.nconns + 1 := by
        rw [hnconns, connectedTo, hnconns', nconns_acceptClient]
      refine ⟨?_, hn ▸ Nat.le_succ _, fun _ d hr => ?_⟩
      · rw [hserver, connectedTo, hserver']
        obtain ⟨_, _, h⟩ := acceptClient_eq s sock (SockAddr.ofBytes addr)
        rw [h]
      · cases hr
        exact hn ▸ Nat.lt_succ_self _

/-- Everything is put into outbuffers that there are. -/
lemma output_lt (hs : ProgramOk k.program) {k' : Client} {e : ClientEvent}
    (hstep : k.step ac e = some k') : ∀ x ∈ k.output ac e, x.1 < k'.program.nconns := by
  obtain ⟨-, hle, hnew⟩ := (program_step ac hs hstep).grows
  have hold : ∀ c, c < k.program.nconns → c < k'.program.nconns := fun c hc => hc.trans_le hle
  have hcommand : ∀ cmd, ∀ x ∈ k.commandOutput ac cmd, x.1 < k'.program.nconns := by
    intro cmd x hx
    refine hold x.1 ?_
    cases cmd with
    | login | startprivate =>
        rw [List.mem_singleton.mp hx]
        exact hs.server_lt
    | stopprivate => exact absurd hx List.not_mem_nil
    | privateTo username rsp =>
        obtain ⟨c, hconn, rfl⟩ := Option.map_eq_some_iff.mp (Option.mem_toList.mp hx)
        obtain ⟨u, -, hu⟩ := Option.bind_eq_some_iff.mp hconn
        exact hs.client_lt u c hu
    | other req =>
        obtain ⟨_, -, rfl⟩ := Option.map_eq_some_iff.mp (Option.mem_toList.mp hx)
        exact hs.server_lt
  intro x hx
  cases e with
  | ask username password => exact hcommand (.login username password) x hx
  | command cmd => exact hcommand cmd x hx
  | response success rsp env answers =>
      simp only [Client.output] at hx
      split at hx
      · next c hserving =>
          cases rsp with
          | getip username addr =>
              obtain ⟨sock, hconnected, rfl⟩ :=
                Option.map_eq_some_iff.mp (Option.mem_toList.mp hx)
              refine hnew username k.program.nconns ?_
              simp [registration, hconnected]
          | chunkDataRequest filename chunk =>
              rw [List.mem_singleton.mp hx]
              exact hold c (hs.serving_lt c hserving)
          | chunkDataResponse filename chunk data =>
              simp only [Client.responseOutput] at hx
              split at hx
              · rw [List.mem_singleton.mp hx]
                exact hold serverConn hs.server_lt
              · exact absurd hx List.not_mem_nil
          | text | exit | privateRegistration | unknown => exact absurd hx List.not_mem_nil
      · exact absurd hx List.not_mem_nil
  | _ => exact absurd hx List.not_mem_nil

lemma onConn_eq_nil {α : Type} {c : ConnId} {l : List (ConnId × α)} (h : ∀ x ∈ l, x.1 ≠ c) :
    onConn c l = [] :=
  List.filterMap_eq_nil_iff.mpr fun x hx => if_neg (h x hx)

end Events

lemma outputOk_step {k k' : Client} {e : ClientEvent} (hs : ProgramOk k.program)
    (h : OutputOk k.program) (hstep : k.step ac e = some k') : OutputOk k'.program := by
  obtain ⟨hserver, hle, -⟩ := (program_step ac hs hstep).grows
  refine ⟨hserver.trans h.client, fun c hc => ?_⟩
  have hnone : onConn c (k.output ac e) = [] :=
    onConn_eq_nil fun x hx => ((output_lt hs hstep x hx).trans_le hc).ne
  rw [puts_step h hstep c, h.fresh c (hle.trans hc), hnone]
  rfl

section Runs

variable {sock : ℕ} {serverAddress : SockAddr} {listenPort : UInt32}
  {ok : Client → ClientEvent → Prop} {es : List ClientEvent} {k : Client}

lemma sentTo_init (c : ConnId) :
    (Client.init sock serverAddress listenPort).program.sentTo c = [] := by
  have hblank : ∀ d, Client.blank.sentTo d = [] := fun d => by
    have hpending : Client.blank.pending (.out d) = [] := OutBuffer.pending_init
    rw [State.sentTo, hpending]
    rfl
  have hfresh : Client.blank.pending (.out Client.blank.nconns) = [] := OutBuffer.pending_init
  exact (sentTo_acceptClient hfresh sock serverAddress c).trans (hblank c)

lemma outputOk_run (run : ClientRun ac sock serverAddress listenPort ok es k) :
    OutputOk k.program := by
  refine run.invariant_of (P := fun k => OutputOk k.program) ⟨?_, fun c _ => sentTo_init c⟩
    (fun run => programOk_run ac run) fun hs h _ hstep => outputOk_step hs h hstep
  obtain ⟨_, _, h⟩ := acceptClient_eq Client.blank sock serverAddress
  show (acceptClient Client.blank sock serverAddress).isServer = false
  rw [h]
  rfl

/-- **Output of a client.** What was sent on a connection and what waits for it is what the
events have put there, in order. -/
lemma sentTo_run (run : ClientRun ac sock serverAddress listenPort ok es k) (c : ConnId) :
    k.program.sentTo c =
      ((onConn c (trace (Client.step ac) (Client.output ac)
        (Client.init sock serverAddress listenPort) es)).map (Outgoing.bytes ac)).flatten := by
  induction run with
  | nil => exact sentTo_init c
  | snoc run _ hstep ih =>
      rw [trace_snoc run, onConn_append, puts_step (outputOk_run run) hstep c, ih]
      simp

end Runs

end EpollChat

import EpollChat.Construction.Client
import EpollChat.Properties.SessionMachine

/-!
# What the client does to its state

The client changes its users and connections in a few ways only: a connection is accepted, one is
closed, a peer registers on one, and one is made to a peer that the server has given the address
of.  `ProgramMove` lists them, `program_step` is the refinement, and `ProgramOk` is what they
keep: identities in use have been handed out.

The index of a move is the registration it makes, if it makes one: the name of the peer and the
connection its private session is bound to.

Mutexes are no part of a move.  Every event unlocks what it locks (`held_exec`).
-/

namespace EpollChat

variable (ac : Achelper)

/-! ## The user store -/

/-- The entry of the user store that a name has or is given. -/
def entryFor (s : State) (username : Bytes) : UserId := (findUser s username).getD s.nusers

lemma findOrAddUser_snd (s : State) (username : Bytes) :
    (findOrAddUser s username).2 = entryFor s username := by
  unfold findOrAddUser entryFor
  cases findUser s username <;> rfl

lemma findUser_findOrAddUser (s : State) (username : Bytes) :
    findUser (findOrAddUser s username).1 username = some (entryFor s username) := by
  unfold findOrAddUser entryFor
  cases h : findUser s username with
  | none =>
      dsimp only
      rw [findUser_addUser, if_pos rfl]
      rfl
  | some u => exact h

@[simp] lemma conn_findOrAddUser (s : State) (username : Bytes) :
    (findOrAddUser s username).1.conn = s.conn := by
  unfold findOrAddUser
  cases findUser s username <;> rfl

@[simp] lemma nconns_findOrAddUser (s : State) (username : Bytes) :
    (findOrAddUser s username).1.nconns = s.nconns := by
  unfold findOrAddUser
  cases findUser s username <;> rfl

/-! ## Registrations -/

section LinkUser

variable (s : State) (u : UserId) (c : ConnId)

lemma client_linkUser (v : UserId) :
    ((linkUser s u c).users v).client = if v = u then some c else (s.users v).client := by
  by_cases h : v = u <;> simp [linkUser, State.setConn, State.setUser, h]

lemma user_linkUser (d : ConnId) :
    ((linkUser s u c).conn d).user = if d = c then some u else (s.conn d).user := by
  by_cases h : d = c <;> simp [linkUser, State.setConn, State.setUser, h]

@[simp] lemma fd_linkUser (d : ConnId) : ((linkUser s u c).conn d).fd = (s.conn d).fd := by
  by_cases h : d = c <;> simp [linkUser, State.setConn, State.setUser, h]

end LinkUser

/-- The state in which a connection to a peer has been made, before the peer is told. -/
def connectedTo (s : State) (sock : ℕ) (username addr : Bytes) : State :=
  gotPrivateRegistration (acceptClient s sock (SockAddr.ofBytes addr)) s.nconns username

lemma core_gotPrivateAddr (s : State) (self : Option Bytes) (sock : ℕ) (username addr : Bytes) :
    (gotPrivateAddr ac s self sock username addr).core =
      (connectedTo s sock username addr).core := by
  unfold gotPrivateAddr
  dsimp only
  rw [sendResponseToClient_eq, core_deliver]
  rfl

/-! ## Closing -/

lemma client_unbind (s : State) (o : Option UserId) (v : UserId) :
    ((unbind s o).users v).client = if o = some v then none else (s.users v).client := by
  cases o with
  | none => rfl
  | some u =>
      cases hc : (s.users u).client with
      | none =>
          simp only [unbind, hc]
          split
          · next h => rw [← Option.some.inj h, hc]
          · rfl
      | some c =>
          simp only [unbind, hc, client_unlink, Option.some.injEq, eq_comm (a := u)]

lemma user_unbind (s : State) (o : Option UserId) (d : ConnId) :
    ((unbind s o).conn d).user =
      if (o.bind fun u => (s.users u).client) = some d then none else (s.conn d).user := by
  cases o with
  | none => rfl
  | some u =>
      cases hc : (s.users u).client with
      | none => simp [unbind, hc]
      | some c =>
          simp only [unbind, hc, user_unlink, Option.bind_some, Option.some.injEq,
            eq_comm (a := c)]

/-- `close_socket` takes the user its connection points at off its connection. -/
lemma client_closeSocket (s : State) (c : ConnId) (v : UserId) :
    ((closeSocket ac s c).users v).client =
      if (s.conn c).user = some v then none else (s.users v).client := by
  have hcore := congrArg (fun t => (t.users v).client) (core_closeSocket ac s c)
  exact hcore.trans (client_unbind s.core (s.conn c).user v)

/-- And takes that user off the connection the user points at. -/
lemma user_closeSocket (s : State) (c d : ConnId) :
    ((closeSocket ac s c).conn d).user =
      if ((s.conn c).user.bind fun u => (s.users u).client) = some d then none
      else (s.conn d).user := by
  have hcore := congrArg (fun t => (t.conn d).user) (core_closeSocket ac s c)
  exact hcore.trans (user_unbind s.core (s.conn c).user d)

/-! ## The invariant -/

/-- The identities in use have been handed out. -/
structure ProgramOk (s : State) : Prop where
  client_lt : ∀ u c, (s.users u).client = some c → c < s.nconns
  fresh : ∀ u, s.nusers ≤ u → (s.users u).client = none
  find_lt : ∀ name u, findUser s name = some u → u < s.nusers
  clients_lt : ∀ c ∈ s.clients, c < s.nconns
  serving_lt : ∀ c, s.serving = some c → c < s.nconns
  server_lt : serverConn < s.nconns

lemma programOk_core {s : State} : ProgramOk s.core ↔ ProgramOk s :=
  ⟨fun ⟨h₁, h₂, h₃, h₄, h₅, h₆⟩ => ⟨h₁, h₂, h₃, h₄, h₅, h₆⟩,
    fun ⟨h₁, h₂, h₃, h₄, h₅, h₆⟩ => ⟨h₁, h₂, h₃, h₄, h₅, h₆⟩⟩

/-- What the client can do to its users and connections. -/
inductive ProgramMove (s : State) : Option (Bytes × ConnId) → State → Prop
  | quiet {s' : State} (same : s'.core = s.core) : ProgramMove s none s'
  | serve (c : Option ConnId) (known : ∀ d, c = some d → d ∈ s.clients) :
      ProgramMove s none { s with serving := c }
  | accept (fd : ℕ) (addr : SockAddr) : ProgramMove s none (acceptClient s fd addr)
  | close (c : ConnId) {s' : State} (same : s'.core = (closeSocket ac s c).core) :
      ProgramMove s none s'
  | registered (c : ConnId) (username : Bytes) (made : c < s.nconns) :
      ProgramMove s (some (username, c)) (gotPrivateRegistration s c username)
  | connected (self : Option Bytes) (sock : ℕ) (username addr : Bytes) :
      ProgramMove s (some (username, s.nconns)) (gotPrivateAddr ac s self sock username addr)

/-! ## What the moves do -/

section Registered

variable {s : State} (hs : ProgramOk s)
include hs

lemma client_findOrAddUser (username : Bytes) (v : UserId) :
    ((findOrAddUser s username).1.users v).client = (s.users v).client := by
  unfold findOrAddUser
  cases findUser s username with
  | some u => rfl
  | none =>
      by_cases hv : v = s.nusers
      · subst hv
        rw [hs.fresh _ le_rfl]
        simp [addUser]
      · simp [addUser, hv]

lemma client_registered (c : ConnId) (username : Bytes) (v : UserId) :
    ((gotPrivateRegistration s c username).users v).client =
      if v = entryFor s username then some c else (s.users v).client := by
  unfold gotPrivateRegistration
  dsimp only
  rw [client_linkUser, findOrAddUser_snd, client_findOrAddUser hs]

omit hs in
lemma user_registered (c : ConnId) (username : Bytes) (d : ConnId) :
    ((gotPrivateRegistration s c username).conn d).user =
      if d = c then some (entryFor s username) else (s.conn d).user := by
  unfold gotPrivateRegistration
  dsimp only
  rw [user_linkUser, findOrAddUser_snd, conn_findOrAddUser]

lemma ProgramOk.registered {c : ConnId} (hc : c < s.nconns) (username : Bytes) :
    ProgramOk (gotPrivateRegistration s c username) := by
  have hnconns : (gotPrivateRegistration s c username).nconns = s.nconns :=
    nconns_findOrAddUser s username
  have hclients : (gotPrivateRegistration s c username).clients = s.clients ∧
      (gotPrivateRegistration s c username).serving = s.serving := by
    unfold gotPrivateRegistration findOrAddUser
    cases findUser s username <;> exact ⟨rfl, rfl⟩
  -- the entry is below the new bound, and nobody below the old one has gone
  have hbound : entryFor s username < (gotPrivateRegistration s c username).nusers ∧
      s.nusers ≤ (gotPrivateRegistration s c username).nusers ∧
      ∀ name u, findUser (gotPrivateRegistration s c username) name = some u →
        u < (gotPrivateRegistration s c username).nusers := by
    unfold gotPrivateRegistration findOrAddUser entryFor
    cases hfind : findUser s username with
    | some u => exact ⟨hs.find_lt _ u hfind, le_rfl, hs.find_lt⟩
    | none =>
        refine ⟨Nat.lt_succ_self _, Nat.le_succ _, fun name u h => ?_⟩
        have h' : findUser (addUser s username []).1 name = some u := h
        rw [findUser_addUser] at h'
        split at h'
        · obtain rfl := Option.some.inj h'
          exact Nat.lt_succ_self _
        · exact Nat.lt_succ_of_lt (hs.find_lt name u h')
  refine ⟨fun u d h => ?_, fun u h => ?_, hbound.2.2, ?_, ?_, hnconns ▸ hs.server_lt⟩
  · rw [client_registered hs] at h
    rw [hnconns]
    split at h
    · obtain rfl := Option.some.inj h
      exact hc
    · exact hs.client_lt u d h
  · have hne : u ≠ entryFor s username := (hbound.1.trans_le h).ne'
    rw [client_registered hs, if_neg hne]
    exact hs.fresh u (hbound.2.1.trans h)
  · rw [hclients.1, hnconns]
    exact hs.clients_lt
  · rw [hclients.2, hnconns]
    exact hs.serving_lt

lemma ProgramOk.accept (fd : ℕ) (addr : SockAddr) : ProgramOk (acceptClient s fd addr) := by
  have hclients := clients_acceptClient s fd addr
  obtain ⟨_, _, h⟩ := acceptClient_eq s fd addr
  refine ⟨?_, ?_, ?_, ?_, ?_, ?_⟩
  · rw [users_acceptClient, h]
    exact fun u c hu => Nat.lt_succ_of_lt (hs.client_lt u c hu)
  · rw [users_acceptClient, h]
    exact hs.fresh
  · rw [h]
    exact hs.find_lt
  · intro c hc
    rw [hclients] at hc
    rw [h]
    rcases mem_acceptedTable hc with hc | rfl
    · exact Nat.lt_succ_of_lt (hs.clients_lt c hc)
    · exact Nat.lt_succ_self _
  · rw [h]
    exact fun c hc => Nat.lt_succ_of_lt (hs.serving_lt c hc)
  · rw [h]
    exact Nat.succ_pos _

lemma ProgramOk.connected (sock : ℕ) (username addr : Bytes) :
    ProgramOk (connectedTo s sock username addr) := by
  refine (hs.accept sock _).registered ?_ username
  rw [nconns_acceptClient]
  exact Nat.lt_succ_self _

lemma ProgramOk.unbind (u : Option UserId) : ProgramOk (EpollChat.unbind s u) := by
  unfold EpollChat.unbind
  split
  · exact hs
  split
  · exact hs
  · next u c _ =>
      refine ⟨fun v d h => ?_, fun v h => ?_, hs.find_lt, hs.clients_lt, hs.serving_lt,
        hs.server_lt⟩
      · rw [client_unlink] at h
        split at h
        · cases h
        · exact hs.client_lt v d h
      · rw [client_unlink]
        split
        · rfl
        · exact hs.fresh v h

lemma ProgramOk.close (c : ConnId) : ProgramOk (closeSocket ac s c) := by
  rw [← programOk_core, core_closeSocket]
  obtain ⟨h₁, h₂, h₃, h₄, h₅, h₆⟩ := (programOk_core.mpr hs).unbind (s.conn c).user
  exact ⟨h₁, h₂, h₃, h₄, h₅, h₆⟩

/-- Every move keeps the invariant. -/
lemma ProgramOk.move {s' : State} {r : Option (Bytes × ConnId)} (h : ProgramMove ac s r s') :
    ProgramOk s' := by
  cases h with
  | quiet same => exact programOk_core.mp (same ▸ programOk_core.mpr hs)
  | serve c known => exact { hs with serving_lt := fun d hd => hs.clients_lt d (known d hd) }
  | accept fd addr => exact hs.accept fd addr
  | close c same => exact programOk_core.mp (same ▸ programOk_core.mpr (hs.close ac c))
  | registered c username made => exact hs.registered made username
  | connected self sock username addr =>
      rw [← programOk_core, core_gotPrivateAddr, programOk_core]
      exact hs.connected sock username addr

end Registered

/-! ## The events of the client -/

/-- The registration an event of the client makes. -/
def registration (k : Client) : ClientEvent → Option (Bytes × ConnId)
  | .response _ (.privateRegistration username) _ _ =>
      k.program.serving.map fun c => (username, c)
  | .response _ (.getip username _) env _ =>
      if env.connected.isSome then some (username, k.program.nconns) else none
  | _ => none

lemma core_askServer (s : State) (req : IMRequest) : (askServer ac s req).core = s.core := by
  unfold askServer sendRequest
  rw [State.core_unlock, State.core_setBuf, State.core_lock]

lemma core_epollDoSendBuffer (s : State) : (epollDoSendBuffer s).core = s.core :=
  State.core_epollMod s _ _

lemma core_sendResponseToClient (s : State) (c : ConnId) (why : Why) (msg : IMResponse) :
    (sendResponseToClient ac s c why msg).core = s.core :=
  core_deliver ac s ⟨.out c, why, msg⟩

/-- A command sends something, or closes a connection. -/
lemma program_gotCommand (k : Client) (cmd : Command) :
    ProgramMove ac k.program none (k.gotCommand ac cmd).program := by
  have hlast : (k.gotCommand ac cmd).program.core = (k.parseCommand ac cmd).program.core :=
    core_epollDoSendBuffer _
  cases cmd with
  | login username password => exact .quiet (hlast.trans (core_askServer ac k.program _))
  | startprivate username => exact .quiet (hlast.trans (core_askServer ac k.program _))
  | stopprivate username =>
      unfold Client.gotCommand Client.parseCommand at hlast ⊢
      dsimp only at hlast ⊢
      cases hconn : privateConn k.program username with
      | none =>
          rw [hconn] at hlast
          exact .quiet hlast
      | some c =>
          rw [hconn] at hlast
          exact .close c hlast
  | privateTo username rsp =>
      unfold Client.gotCommand Client.parseCommand at hlast ⊢
      dsimp only at hlast ⊢
      cases hconn : privateConn k.program username with
      | none =>
          rw [hconn] at hlast
          exact .quiet hlast
      | some c =>
          rw [hconn] at hlast
          exact .quiet (hlast.trans (core_sendResponseToClient ac k.program c _ rsp))
  | other req =>
      cases req with
      | none => exact .quiet hlast
      | some req => exact .quiet (hlast.trans (core_askServer ac k.program req))

/-- Handling a response. -/
lemma program_handleResponse {k : Client} (hs : ProgramOk k.program) {c : ConnId}
    (hserving : k.program.serving = some c) (success : Bool) (rsp : Response) (env : Answers)
    (answers : Bool) :
    ProgramMove ac k.program (registration k (.response success rsp env answers))
      (k.handleResponse ac c rsp env).program := by
  cases rsp with
  | text msg => exact .quiet rfl
  | exit msg => exact .quiet rfl
  | getip username addr =>
      cases hconnected : env.connected with
      | none =>
          simp only [registration, Client.handleResponse, hconnected]
          exact .quiet rfl
      | some sock =>
          simp only [registration, Client.handleResponse, hconnected]
          exact .connected k.loggedInUserName sock username addr
  | privateRegistration username =>
      simp only [registration, Client.handleResponse, hserving]
      exact .registered c username (hs.serving_lt c hserving)
  | chunkDataRequest filename chunk =>
      exact .quiet (core_sendResponseToClient ac k.program c _ _)
  | chunkDataResponse filename chunk data =>
      unfold Client.handleResponse
      dsimp only
      split
      · exact .quiet ((core_epollDoSendBuffer _).trans (core_askServer ac k.program _))
      · exact .quiet rfl
  | unknown type => exact .quiet rfl

lemma pickConn_mem {s : State} {fd : ℕ} {c : ConnId} (h : pickConn s fd = some c) :
    c ∈ s.clients := by
  obtain ⟨j, -, hj⟩ := Option.bind_eq_some_iff.mp h
  exact List.mem_of_getElem? hj

lemma client_step_eq_some {k k' : Client} {e : ClientEvent} :
    k.step ac e = some k' ↔
      k.exited = false ∧ k.enabled e ∧ (k.exec ac e).program.fault = none ∧ k.exec ac e = k' := by
  unfold Client.step
  split
  · next h => simp [h]
  · next h =>
      refine ⟨fun h' => by simp at h', ?_⟩
      rintro ⟨hexited, henabled, hfault, -⟩
      exact absurd ⟨hexited, henabled, hfault⟩ h

/-- **Every event of the client is one move.** -/
lemma program_step {k k' : Client} {e : ClientEvent} (hs : ProgramOk k.program)
    (h : k.step ac e = some k') :
    ProgramMove ac k.program (registration k e) k'.program := by
  obtain ⟨-, henabled, -, rfl⟩ := (client_step_eq_some ac).mp h
  cases e with
  | accept fd addr => exact .accept fd addr
  | hangup fd | eof fd =>
      simp only [registration, Client.exec]
      cases pickConn k.program fd with
      | none => exact .quiet rfl
      | some c => exact .close c rfl
  | readable fd => exact .serve _ fun d hd => pickConn_mem hd
  | response success rsp env answers =>
      obtain ⟨c, hserving⟩ := Option.ne_none_iff_exists'.mp henabled.1
      simp only [Client.exec, hserving]
      -- the flag and the bookkeeping are set first
      let k' : Client :=
        { k with
          lastresponse := success
          logins := if answers then k.logins ++ [.answered success] else k.logins }
      exact program_handleResponse (k := k') ac hs hserving success rsp env answers
  | readDone => exact .serve none fun d hd => by cases hd
  | writable fd nsent =>
      simp only [registration, Client.exec]
      cases pickConn k.program fd with
      | none => exact .quiet rfl
      | some c =>
          refine .quiet ?_
          rw [State.core_unlock, core_imSendBuffer, State.core_lock]
  | lock => exact .quiet rfl
  | check =>
      simp only [registration, Client.exec]
      split <;> exact .quiet rfl
  | ask username password => exact program_gotCommand ac k (.login username password)
  | command cmd => exact program_gotCommand ac k cmd

/-! ## Mutexes -/

lemma held_logoutUser (s : State) (u : Option UserId) : (logoutUser ac s u).held = s.held := by
  have hall : ∀ (ds : List Delivery) (t : State), (deliverAll ac t ds).held = t.held := by
    intro ds
    induction ds with
    | nil => exact fun _ => rfl
    | cons d ds ih => exact fun t => (ih _).trans (held_deliver ac t d)
  cases u with
  | none => rfl
  | some u =>
      unfold logoutUser
      dsimp only
      split
      · rfl
      split
      · exact State.held_touch s _
      · rw [announce_eq, hall]
        exact State.held_touch s _

lemma held_closeSocket (s : State) (c : ConnId) : (closeSocket ac s c).held = s.held := by
  unfold closeSocket
  dsimp only
  show (logoutUser ac ((s.touch c).lock c) (((s.touch c).lock c).conn c).user).held.erase c = _
  rw [held_logoutUser, State.held_lock, List.erase_cons_head, State.held_touch]

lemma held_askServer (s : State) (req : IMRequest) : (askServer ac s req).held = s.held := by
  unfold askServer sendRequest
  show (((s.lock serverConn).setBuf _ _).held).erase serverConn = _
  rw [State.held_setBuf, State.held_lock, List.erase_cons_head]

lemma held_sendResponseToClient (s : State) (c : ConnId) (why : Why) (msg : IMResponse) :
    (sendResponseToClient ac s c why msg).held = s.held :=
  held_deliver ac s ⟨.out c, why, msg⟩

lemma held_imSendBuffer (s : State) (c : ConnId) (q : Queue) (nsent : Option ℕ) :
    (imSendBuffer s c q nsent).held = s.held := by
  have hdone : ∀ (t : State) (len n : ℕ), (imSendBufferDone t c q len n).held = t.held := by
    intro t len n
    unfold imSendBufferDone
    dsimp only
    rw [State.held_setBuf]
    split
    · exact State.held_epollMod t _ _
    · rfl
  unfold imSendBuffer
  dsimp only
  split
  · cases nsent with
    | none => rfl
    | some n => exact hdone _ _ _
  · exact hdone _ _ _

lemma held_gotPrivateRegistration (s : State) (c : ConnId) (username : Bytes) :
    (gotPrivateRegistration s c username).held = s.held := by
  unfold gotPrivateRegistration findOrAddUser
  cases findUser s username <;> rfl

lemma held_acceptClient (s : State) (fd : ℕ) (addr : SockAddr) :
    (acceptClient s fd addr).held = s.held := by
  obtain ⟨_, _, h⟩ := acceptClient_eq s fd addr
  rw [h]

lemma held_gotCommand (k : Client) (cmd : Command) :
    (k.gotCommand ac cmd).program.held = k.program.held := by
  have hlast : (k.gotCommand ac cmd).program.held = (k.parseCommand ac cmd).program.held :=
    State.held_epollMod _ _ _
  rw [hlast]
  cases cmd with
  | login username password => exact held_askServer ac k.program _
  | startprivate username => exact held_askServer ac k.program _
  | stopprivate username =>
      simp only [Client.parseCommand]
      split
      · rfl
      · exact held_closeSocket ac k.program _
  | privateTo username rsp =>
      simp only [Client.parseCommand]
      split
      · rfl
      · exact held_sendResponseToClient ac k.program _ _ _
  | other req =>
      cases req with
      | none => rfl
      | some req => exact held_askServer ac k.program req

lemma held_handleResponse (k : Client) (c : ConnId) (rsp : Response) (env : Answers) :
    (k.handleResponse ac c rsp env).program.held = k.program.held := by
  cases rsp with
  | text msg => rfl
  | exit msg => rfl
  | getip username addr =>
      simp only [Client.handleResponse]
      split
      · rfl
      · refine (held_sendResponseToClient ac _ _ _ _).trans ?_
        exact (held_gotPrivateRegistration _ k.program.nconns username).trans
          (held_acceptClient _ _ _)
  | privateRegistration username => exact held_gotPrivateRegistration _ _ username
  | chunkDataRequest filename chunk => exact held_sendResponseToClient ac _ _ _ _
  | chunkDataResponse filename chunk data =>
      simp only [Client.handleResponse]
      split
      · exact (State.held_epollMod _ _ _).trans (held_askServer ac _ _)
      · rfl
  | unknown type => rfl

/-- No step of the client ends with a mutex locked that it found open. -/
lemma held_exec (k : Client) (e : ClientEvent) :
    (k.exec ac e).program.held = k.program.held := by
  cases e with
  | accept fd addr => exact held_acceptClient _ _ _
  | hangup fd | eof fd =>
      simp only [Client.exec]
      split
      · exact held_closeSocket ac k.program _
      · rfl
  | readable fd => rfl
  | response success rsp env answers =>
      simp only [Client.exec]
      split
      · exact held_handleResponse ac _ _ rsp env
      · rfl
  | readDone => rfl
  | writable fd nsent =>
      simp only [Client.exec]
      split
      · next c _ =>
          show (imSendBuffer (k.program.lock c) c (.out c) nsent).held.erase c = _
          rw [held_imSendBuffer, State.held_lock, List.erase_cons_head]
      · rfl
  | lock => rfl
  | check =>
      simp only [Client.exec]
      split <;> rfl
  | ask username password => exact held_gotCommand ac k (.login username password)
  | command cmd => exact held_gotCommand ac k cmd

/-! ## Runs -/

lemma programOk_init (sock : ℕ) (serverAddress : SockAddr) (listenPort : UInt32) :
    ProgramOk (Client.init sock serverAddress listenPort).program := by
  have hprogram : (Client.init sock serverAddress listenPort).program =
      acceptClient Client.blank sock serverAddress := rfl
  have hclients := clients_acceptClient Client.blank sock serverAddress
  obtain ⟨_, _, h⟩ := acceptClient_eq Client.blank sock serverAddress
  refine ⟨?_, ?_, ?_, ?_, ?_, ?_⟩
  · rw [hprogram, users_acceptClient]
    intro u c hu
    cases hu
  · rw [hprogram, users_acceptClient]
    exact fun u _ => rfl
  · rw [hprogram, h]
    intro name u hfind
    unfold findUser Client.blank State.blank at hfind
    cases hname : cstr name <;> simp [hname] at hfind
  · intro c hc
    rw [hprogram, hclients] at hc
    rw [hprogram, h]
    rcases mem_acceptedTable hc with hc | rfl
    · cases hc
    · exact Nat.lt_succ_self _
  · rw [hprogram, h]
    intro c hc
    cases hc
  · rw [hprogram, h]
    exact Nat.succ_pos _

/-- The runs of the client all of whose steps satisfy a side condition. -/
abbrev ClientRun (sock : ℕ) (serverAddress : SockAddr) (listenPort : UInt32)
    (ok : Client → ClientEvent → Prop) : List ClientEvent → Client → Prop :=
  Run (Client.step ac) ok (Client.init sock serverAddress listenPort)

/-- **Identities in use have been handed out, in every run.** -/
theorem programOk_run {sock : ℕ} {serverAddress : SockAddr} {listenPort : UInt32}
    {ok : Client → ClientEvent → Prop} {es : List ClientEvent} {k : Client}
    (run : ClientRun ac sock serverAddress listenPort ok es k) : ProgramOk k.program :=
  run.invariant (P := fun k => ProgramOk k.program) (programOk_init sock serverAddress listenPort)
    fun hs _ h => hs.move ac (program_step ac hs h)

end EpollChat

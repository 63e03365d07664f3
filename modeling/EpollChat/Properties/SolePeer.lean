import EpollChat.Properties.ClientProgram

/-!
# A client with one peer

The program of a client that has private connections with one peer only: every user it knows is
that peer.  What its program does with one connection leaves the others alone, and its slot for
the peer is filled and cleared with the connection that it does it to (`Touches`).
-/

namespace EpollChat

variable (ac : Achelper)

/-- Every user and connection of the program is about the peer of this name. -/
structure Sole (s : State) (name : Bytes) : Prop where
  ok : ProgramOk s
  user_entry : ∀ c u, (s.conn c).user = some u → findUser s name = some u
  client_entry : ∀ u c, (s.users u).client = some c → findUser s name = some u

/-- The program has changed nothing but the connection `c`, and perhaps its slot. -/
structure Touches (s s' : State) (name : Bytes) (c : ConnId) : Prop where
  sole : Sole s' name
  nconns_le : s.nconns ≤ s'.nconns
  isOpen : ∀ d, d < s.nconns → d ≠ c → (s'.IsOpen d ↔ s.IsOpen d)
  user : ∀ d, d < s.nconns → d ≠ c → (s'.conn d).user = (s.conn d).user

lemma sole_core {s : State} {name : Bytes} : Sole s.core name ↔ Sole s name :=
  ⟨fun ⟨h₁, h₂, h₃⟩ => ⟨programOk_core.mp h₁, h₂, h₃⟩,
    fun ⟨h₁, h₂, h₃⟩ => ⟨programOk_core.mpr h₁, h₂, h₃⟩⟩

lemma privateConn_congr {s s' : State} (h : s'.core = s.core) (name : Bytes) :
    privateConn s' name = privateConn s name := by
  have hcore : ∀ t : State, privateConn t.core name = privateConn t name := fun _ => rfl
  rw [← hcore, h, hcore]

section Program

variable {s : State} {name : Bytes} (hs : Sole s name)
include hs

/-- Output does not matter. -/
lemma Sole.quiet {s' : State} (h : s'.core = s.core) (c : ConnId) : Touches s s' name c where
  sole := sole_core.mp (h ▸ sole_core.mpr hs)
  nconns_le := by
    have hnconns := congrArg State.nconns h
    exact (Eq.trans hnconns rfl).ge
  isOpen d _ _ := isOpen_iff_of_core h d
  user d _ _ := user_eq_of_core h d

lemma Sole.accept {fd : ℕ} (hfree : s.sock fd = none) (addr : SockAddr) :
    Touches s (acceptClient s fd addr) name s.nconns ∧
      (acceptClient s fd addr).nconns = s.nconns + 1 ∧
      (acceptClient s fd addr).IsOpen s.nconns ∧
      ((acceptClient s fd addr).conn s.nconns).user = none ∧
      privateConn (acceptClient s fd addr) name = privateConn s name := by
  have huser : ∀ d u, ((acceptClient s fd addr).conn d).user = some u →
      (s.conn d).user = some u := by
    intro d u hu
    rw [conn_acceptClient] at hu
    by_cases hd : d = s.nconns
    · rw [hd, Function.update_self] at hu
      cases hu
    · rwa [Function.update_of_ne hd] at hu
  refine ⟨⟨⟨hs.ok.accept fd addr, ?_, ?_⟩, ?_, ?_, ?_⟩, ?_, ?_, ?_, ?_⟩
  · intro c u hu
    rw [findUser_acceptClient]
    exact hs.user_entry c u (huser c u hu)
  · intro u c hu
    rw [users_acceptClient] at hu
    rw [findUser_acceptClient]
    exact hs.client_entry u c hu
  · rw [nconns_acceptClient]
    exact Nat.le_succ _
  · intro d hd hne
    unfold State.IsOpen
    rw [conn_acceptClient, Function.update_of_ne hne, sock_acceptClient]
    by_cases hfd : (s.conn d).fd = fd
    · rw [hfd, Function.update_self, hfree]
      simp [hne.symm]
    · rw [Function.update_of_ne hfd]
  · intro d hd hne
    rw [conn_acceptClient, Function.update_of_ne hne]
  · exact nconns_acceptClient s fd addr
  · unfold State.IsOpen
    rw [conn_acceptClient, Function.update_self, sock_acceptClient]
    exact Function.update_self fd _ s.sock
  · rw [conn_acceptClient, Function.update_self]
    rfl
  · rw [privateConn, privateConn, findUser_acceptClient, users_acceptClient]

lemma Sole.registered {c : ConnId} (hc : c < s.nconns) :
    Touches s (gotPrivateRegistration s c name) name c ∧
      (gotPrivateRegistration s c name).nconns = s.nconns ∧
      ((gotPrivateRegistration s c name).IsOpen c ↔ s.IsOpen c) ∧
      ((gotPrivateRegistration s c name).conn c).user ≠ none ∧
      privateConn (gotPrivateRegistration s c name) name = some c := by
  have hfind : findUser (gotPrivateRegistration s c name) name = some (entryFor s name) :=
    findUser_findOrAddUser s name
  have hentry : ∀ u, findUser s name = some u → entryFor s name = u := fun u hu => by
    rw [entryFor, hu]
    rfl
  have hnconns : (gotPrivateRegistration s c name).nconns = s.nconns :=
    nconns_findOrAddUser s name
  have hopen : ∀ d, (gotPrivateRegistration s c name).IsOpen d ↔ s.IsOpen d := by
    intro d
    have hsock : (gotPrivateRegistration s c name).sock = s.sock := by
      unfold gotPrivateRegistration findOrAddUser
      cases findUser s name <;> rfl
    unfold State.IsOpen
    rw [hsock]
    unfold gotPrivateRegistration
    dsimp only
    rw [fd_linkUser, conn_findOrAddUser]
  refine ⟨⟨⟨hs.ok.registered hc name, ?_, ?_⟩, hnconns.ge, fun d _ _ => hopen d, ?_⟩, hnconns,
    hopen c, ?_, ?_⟩
  · intro d u hu
    rw [user_registered] at hu
    rw [hfind]
    split at hu
    · exact hu
    · exact congrArg some (hentry u (hs.user_entry d u hu))
  · intro u d hu
    rw [client_registered hs.ok] at hu
    rw [hfind]
    split at hu
    · next h => rw [h]
    · exact congrArg some (hentry u (hs.client_entry u d hu))
  · intro d _ hne
    rw [user_registered, if_neg hne]
  · rw [user_registered, if_pos rfl]
    simp
  · rw [privateConn, hfind, Option.bind_some, client_registered hs.ok, if_pos rfl]

/-- A connection that is not bound, or is the one of the session, is closed. -/
lemma Sole.close {c : ConnId} (hopen : s.IsOpen c)
    (hbound : (s.conn c).user ≠ none → privateConn s name = some c) :
    Touches s (closeSocket ac s c) name c ∧ (closeSocket ac s c).nconns = s.nconns ∧
      ¬ (closeSocket ac s c).IsOpen c ∧
      privateConn (closeSocket ac s c) name =
        if (s.conn c).user = none then privateConn s name else none := by
  have hcore := core_closeSocket ac s c
  have hunbind : ∀ o, (unbind s.core o).root = s.root ∧ (unbind s.core o).sock = s.sock ∧
      (unbind s.core o).nconns = s.nconns := by
    intro o
    unfold unbind
    split
    · exact ⟨rfl, rfl, rfl⟩
    split <;> exact ⟨rfl, rfl, rfl⟩
  have hfind : ∀ n, findUser (closeSocket ac s c) n = findUser s n := fun n => by
    have hshut := congrArg State.root hcore
    have hroot : (closeSocket ac s c).root = s.root := Eq.trans hshut (hunbind _).1
    rw [findUser, hroot, findUser]
  have hnconns : (closeSocket ac s c).nconns = s.nconns := by
    have hshut := congrArg State.nconns hcore
    exact Eq.trans hshut (hunbind _).2.2
  have hsock : (closeSocket ac s c).sock = Function.update s.sock (s.conn c).fd none := by
    have hshut := congrArg State.sock hcore
    exact Eq.trans hshut (by rw [shut, (hunbind _).2.1])
  have hfd : ∀ d, ((closeSocket ac s c).conn d).fd = (s.conn d).fd := fun d => by
    have hshut := congrArg (fun t => (t.conn d).fd) hcore
    exact Eq.trans hshut (fd_unbind s.core _ d)
  -- the user of the connection is on this connection, if it has one
  have hpartner : ∀ d, ((s.conn c).user.bind fun u => (s.users u).client) = some d → d = c := by
    intro d hd
    obtain ⟨u, hu, hud⟩ := Option.bind_eq_some_iff.mp hd
    have hslot := hbound (by rw [hu]; simp)
    rw [privateConn, hs.user_entry c u hu, Option.bind_some, hud] at hslot
    exact Option.some.inj hslot
  have huser : ∀ d, d ≠ c → ((closeSocket ac s c).conn d).user = (s.conn d).user := fun d hne => by
    rw [user_closeSocket, if_neg fun h => hne (hpartner d h)]
  refine ⟨⟨⟨hs.ok.close ac c, ?_, ?_⟩, hnconns.ge, ?_, fun d _ => huser d⟩, hnconns, ?_, ?_⟩
  · intro d u hu
    rw [user_closeSocket] at hu
    rw [hfind]
    split at hu
    · cases hu
    · exact hs.user_entry d u hu
  · intro u d hu
    rw [client_closeSocket] at hu
    rw [hfind]
    split at hu
    · cases hu
    · exact hs.client_entry u d hu
  · intro d _ hne
    unfold State.IsOpen at hopen ⊢
    rw [hsock, hfd]
    by_cases hsame : (s.conn d).fd = (s.conn c).fd
    · rw [hsame, Function.update_self, hopen]
      simp [hne.symm]
    · rw [Function.update_of_ne hsame]
  · unfold State.IsOpen
    rw [hsock, hfd, Function.update_self]
    simp
  · rw [privateConn, privateConn, hfind]
    cases huserc : (s.conn c).user with
    | none =>
        rw [if_pos rfl]
        refine congrArg _ (funext fun u => ?_)
        rw [client_closeSocket, huserc]
        simp
    | some v =>
        rw [if_neg (by simp), hs.user_entry c v huserc, Option.bind_some, client_closeSocket,
          huserc, if_pos rfl]

/-- A connection to the peer is made and bound. -/
lemma Sole.connected {fd : ℕ} (hfree : s.sock fd = none) (self : Option Bytes) (addr : Bytes) :
    Touches s (gotPrivateAddr ac s self fd name addr) name s.nconns ∧
      (gotPrivateAddr ac s self fd name addr).nconns = s.nconns + 1 ∧
      (gotPrivateAddr ac s self fd name addr).IsOpen s.nconns ∧
      ((gotPrivateAddr ac s self fd name addr).conn s.nconns).user ≠ none ∧
      privateConn (gotPrivateAddr ac s self fd name addr) name = some s.nconns := by
  obtain ⟨haccept, hnconns, hopen, -, -⟩ := hs.accept hfree (SockAddr.ofBytes addr)
  obtain ⟨hreg, hnconns', hopen', huser', hslot'⟩ :=
    haccept.sole.registered (c := s.nconns) (by rw [hnconns]; exact Nat.lt_succ_self _)
  have hcore := core_gotPrivateAddr ac s self fd name addr
  have hquiet := hreg.sole.quiet hcore s.nconns
  have hlt : ∀ {d}, d < s.nconns → d < (acceptClient s fd (SockAddr.ofBytes addr)).nconns :=
    fun hd => by
      rw [hnconns]
      exact Nat.lt_succ_of_lt hd
  refine ⟨⟨hquiet.sole, ?_, fun d hd hne => ?_, fun d hd hne => ?_⟩, ?_, ?_, ?_, ?_⟩
  · exact (haccept.nconns_le.trans hreg.nconns_le).trans hquiet.nconns_le
  · rw [isOpen_iff_of_core hcore]
    exact (hreg.isOpen d (hlt hd) hne).trans (haccept.isOpen d hd hne)
  · rw [user_eq_of_core hcore]
    exact (hreg.user d (hlt hd) hne).trans (haccept.user d hd hne)
  · have hn := congrArg State.nconns hcore
    exact Eq.trans hn (hnconns'.trans hnconns)
  · rw [isOpen_iff_of_core hcore]
    exact hopen'.mpr hopen
  · rw [user_eq_of_core hcore]
    exact huser'
  · rw [privateConn_congr hcore]
    exact hslot'

end Program

end EpollChat

import EpollChat.Construction.Demo
import EpollChat.Framework.Pairing
import EpollChat.Properties.ClientProgram

/-!
# Closing a private connection

`close_socket` ends the session of the user its connection points at, on whatever connection that
user points at.  A peer that registers twice, or on a connection that another name has registered
on, leaves pointers to partners that have moved on, and closing one of its connections then ends
another session, or none.

`ClosesOne` is that closing any connection to a peer ends its own session and leaves the others
alone, and `closesOne_iff` is the exact condition for it to hold throughout a run: every
registration is of a name without another connection, on a connection without another name.
-/

namespace EpollChat

variable (ac : Achelper)

/-- From `s` to `s'` the session on `c` has ended, and no other. -/
structure EndsOnly (s s' : State) (c : ConnId) : Prop where
  user : (s'.conn c).user = none
  client : ∀ u, (s'.users u).client ≠ some c
  otherUser : ∀ d, d ≠ c → (s'.conn d).user = (s.conn d).user
  otherClient : ∀ u d, d ≠ c → (s.users u).client = some d → (s'.users u).client = some d

/-- **Closing any connection to a peer ends its session and no other.** -/
def ClosesOne (k : Client) : Prop :=
  ∀ c, c ≠ serverConn → EndsOnly k.program (closeSocket ac k.program c) c

/-! ## The pairing of peers -/

/-- The connection to a peer that a user points at. -/
def peerOf (s : State) (u : UserId) : Option ConnId :=
  (s.users u).client.filter fun c => c ≠ serverConn

/-- The user that a connection to a peer points at. -/
def userOf (s : State) (c : ConnId) : Option UserId :=
  if c = serverConn then none else (s.conn c).user

/-- Users and connections to peers point at each other. -/
def PeersPaired (s : State) : Prop := Paired (peerOf s) (userOf s)

/-- The user of this name has no other connection to a peer, and the connection, if it is to a
peer, has no other user. -/
def Unlinked (s : State) (username : Bytes) (c : ConnId) : Prop :=
  (peerOf s (entryFor s username) = none ∨ peerOf s (entryFor s username) = some c) ∧
    (userOf s c = none ∨ userOf s c = some (entryFor s username))

/-- A registration is of an unlinked name on an unlinked connection. -/
def SoleLink (k : Client) (e : ClientEvent) : Prop :=
  ∀ r ∈ registration k e, Unlinked k.program r.1 r.2

instance decidableUnlinked (s : State) (username : Bytes) (c : ConnId) :
    Decidable (Unlinked s username c) := by
  unfold Unlinked
  infer_instance

instance decidableSoleLink (k : Client) (e : ClientEvent) : Decidable (SoleLink k e) := by
  unfold SoleLink
  infer_instance

lemma peerOf_eq_some {s : State} {u : UserId} {c : ConnId} :
    peerOf s u = some c ↔ (s.users u).client = some c ∧ c ≠ serverConn := by
  simp [peerOf, Option.filter_eq_some_iff]

/-- The peers are paired exactly when they are at every connection to one. -/
lemma peersPaired_iff {s : State} :
    PeersPaired s ↔
      ∀ c, c ≠ serverConn → ∀ u, (s.users u).client = some c ↔ (s.conn c).user = some u := by
  constructor
  · intro h c hc u
    have hpair := h u c
    rw [peerOf_eq_some, userOf, if_neg hc] at hpair
    simpa [hc] using hpair
  · intro h u c
    rw [peerOf_eq_some, userOf]
    split
    · next hc => simp [hc]
    · next hc => simp [hc, h c hc u]

/-- Closing a connection ends its session and no other exactly if the pointers agree there. -/
lemma endsOnly_iff {s : State} {c : ConnId} :
    EndsOnly s (closeSocket ac s c) c ↔
      ∀ u, (s.users u).client = some c ↔ (s.conn c).user = some u := by
  constructor
  · intro h u
    have hclient := h.client u
    have huser := h.user
    rw [client_closeSocket] at hclient
    rw [user_closeSocket] at huser
    constructor
    · intro hu
      by_contra hne
      rw [if_neg hne] at hclient
      exact hclient hu
    · intro hc
      rw [hc, Option.bind_some] at huser
      by_contra hne
      rw [if_neg hne] at huser
      cases huser
  · intro h
    have hpartner : ∀ d, ((s.conn c).user.bind fun u => (s.users u).client) = some d → d = c := by
      intro d hd
      obtain ⟨u, hu, hud⟩ := Option.bind_eq_some_iff.mp hd
      exact Option.some.inj (hud.symm.trans ((h u).mpr hu))
    refine ⟨?_, fun u => ?_, fun d hne => ?_, fun u d hne hu => ?_⟩
    · rw [user_closeSocket]
      cases hc : (s.conn c).user with
      | none => simp
      | some u => rw [Option.bind_some, if_pos ((h u).mpr hc)]
    · rw [client_closeSocket]
      split
      · simp
      · next hc => exact fun hu => hc ((h u).mp hu)
    · rw [user_closeSocket, if_neg fun hd => hne (hpartner d hd)]
    · have hc : (s.conn c).user ≠ some u := fun hc =>
        hne (Option.some.inj (hu.symm.trans ((h u).mpr hc)))
      rw [client_closeSocket, if_neg hc, hu]

lemma closesOne_iff_paired {k : Client} : ClosesOne ac k ↔ PeersPaired k.program := by
  rw [peersPaired_iff]
  exact forall₂_congr fun c _ => endsOnly_iff ac

/-! ## What the moves do to the pairing -/

lemma peersPaired_congr {s s' : State} (h : s'.core = s.core) : PeersPaired s' ↔ PeersPaired s := by
  have hcore : ∀ t : State, PeersPaired t.core ↔ PeersPaired t := fun _ => Iff.rfl
  rw [← hcore, h, hcore]

section Moves

variable {s : State} (hs : ProgramOk s) (hp : PeersPaired s)
include hs hp

/-- Nothing points at a connection that does not exist yet, and it points at nobody. -/
lemma userOf_nconns : userOf s s.nconns = none := by
  cases h : userOf s s.nconns with
  | none => rfl
  | some u =>
      have hpeer := peerOf_eq_some.mp ((hp u s.nconns).mpr h)
      exact absurd (hs.client_lt u _ hpeer.1) (lt_irrefl _)

lemma peersPaired_accept (fd : ℕ) (addr : SockAddr) : PeersPaired (acceptClient s fd addr) := by
  have hpeer : ∀ u, peerOf (acceptClient s fd addr) u = peerOf s u := fun u => by
    rw [peerOf, users_acceptClient, peerOf]
  have huser : ∀ c, userOf (acceptClient s fd addr) c = userOf s c := fun c => by
    by_cases hc : c = s.nconns
    · subst hc
      rw [userOf_nconns hs hp, userOf, conn_acceptClient, Function.update_self]
      simp [newConn]
    · rw [userOf, conn_acceptClient, Function.update_of_ne hc, userOf]
  intro u c
  rw [hpeer, huser]
  exact hp u c

omit hs in
lemma peersPaired_close (c : ConnId) : PeersPaired (closeSocket ac s c) := by
  have hends := peersPaired_iff.mp hp
  refine peersPaired_iff.mpr fun d hd u => ?_
  rw [client_closeSocket, user_closeSocket]
  by_cases hc : (s.conn c).user = some u
  · rw [if_pos hc, hc, Option.bind_some]
    split
    · simp
    · next hne => exact iff_of_false (by simp) fun h => hne ((hends d hd u).mpr h)
  · rw [if_neg hc]
    split
    · next hpartner =>
        -- somebody else was on this connection
        obtain ⟨v, hv, hvd⟩ := Option.bind_eq_some_iff.mp hpartner
        refine iff_of_false (fun h => hc ?_) (by simp)
        rw [hv, (hends d hd v).mp hvd |>.symm.trans ((hends d hd u).mp h)]
    · exact hends d hd u

lemma peersPaired_registered_iff (c : ConnId) (username : Bytes) :
    PeersPaired (gotPrivateRegistration s c username) ↔ Unlinked s username c := by
  by_cases hc : c = serverConn
  · subst hc
    have hpeer : peerOf (gotPrivateRegistration s serverConn username) =
        Function.update (peerOf s) (entryFor s username) none := by
      funext v
      rw [peerOf, client_registered hs, Function.update_apply]
      split
      · simp
      · rfl
    have huser : userOf (gotPrivateRegistration s serverConn username) = userOf s := by
      funext d
      by_cases hd : d = serverConn
      · simp [userOf, hd]
      · rw [userOf, user_registered, if_neg hd, if_neg hd, userOf, if_neg hd]
    rw [PeersPaired, hpeer, huser, hp.erase_iff]
    simp [Unlinked, userOf, peerOf_eq_some]
  · have hpeer : peerOf (gotPrivateRegistration s c username) =
        Function.update (peerOf s) (entryFor s username) (some c) := by
      funext v
      rw [peerOf, client_registered hs, Function.update_apply]
      split
      · simp [hc]
      · rfl
    have huser : userOf (gotPrivateRegistration s c username) =
        Function.update (userOf s) c (some (entryFor s username)) := by
      funext d
      rw [Function.update_apply]
      by_cases hd : d = serverConn
      · rw [if_neg (hd ▸ Ne.symm hc), userOf, if_pos hd, userOf, if_pos hd]
      · rw [userOf, user_registered, if_neg hd, userOf, if_neg hd]
    rw [PeersPaired, hpeer, huser, hp.bind_iff]
    rfl

/-- A move keeps the pairing exactly if the registration it makes, if any, is of an unlinked name
on an unlinked connection. -/
lemma peersPaired_move {s' : State} {r : Option (Bytes × ConnId)} (h : ProgramMove ac s r s') :
    PeersPaired s' ↔ ∀ x, r = some x → Unlinked s x.1 x.2 := by
  have hnone : ∀ {P : Prop}, P → (P ↔ ∀ x : Bytes × ConnId, none = some x → Unlinked s x.1 x.2) :=
    fun hP => iff_of_true hP fun x hx => by cases hx
  cases h with
  | quiet same => exact hnone ((peersPaired_congr same).mpr hp)
  | serve c known => exact hnone hp
  | accept fd addr => exact hnone (peersPaired_accept hs hp fd addr)
  | close c same => exact hnone ((peersPaired_congr same).mpr (peersPaired_close ac hp c))
  | registered c username made =>
      rw [peersPaired_registered_iff hs hp c username]
      simp
  | connected self sock username addr =>
      rw [peersPaired_congr (core_gotPrivateAddr ac s self sock username addr), connectedTo,
        peersPaired_registered_iff (hs.accept sock _) (peersPaired_accept hs hp sock _)]
      obtain ⟨_, _, haccept⟩ := acceptClient_eq s sock (SockAddr.ofBytes addr)
      have hentry : entryFor (acceptClient s sock (SockAddr.ofBytes addr)) username =
          entryFor s username := by
        rw [haccept]
        rfl
      have hpeer : peerOf (acceptClient s sock (SockAddr.ofBytes addr)) (entryFor s username) =
          peerOf s (entryFor s username) := by
        rw [peerOf, users_acceptClient, peerOf]
      have huser : userOf (acceptClient s sock (SockAddr.ofBytes addr)) s.nconns = none := by
        rw [userOf, conn_acceptClient, Function.update_self]
        simp [newConn]
      simp only [Unlinked, hentry, hpeer, huser, userOf_nconns hs hp, Option.some.injEq, forall_eq']

end Moves

/-! ## Whole runs -/

lemma peersPaired_init (sock : ℕ) (serverAddress : SockAddr) (listenPort : UInt32) :
    PeersPaired (Client.init sock serverAddress listenPort).program := by
  refine peersPaired_iff.mpr fun c hc u => ?_
  have hprogram : (Client.init sock serverAddress listenPort).program =
      acceptClient Client.blank sock serverAddress := rfl
  have hne : c ≠ Client.blank.nconns := hc
  rw [hprogram, users_acceptClient, conn_acceptClient, Function.update_of_ne hne]
  exact iff_of_false (fun h => by cases h) (fun h => by cases h)

/-- Closing a connection to a peer ends its session and no other, throughout a run, exactly if
every registration of the run is of an unlinked name on an unlinked connection. -/
theorem closesOne_iff {sock : ℕ} {serverAddress : SockAddr} {listenPort : UInt32}
    {es : List ClientEvent} {k : Client}
    (run : ClientRun ac sock serverAddress listenPort Always es k) :
    Throughout (Client.step ac) (Client.init sock serverAddress listenPort) (ClosesOne ac) es k ↔
      ClientRun ac sock serverAddress listenPort SoleLink es k := by
  refine Run.throughout_iff (Q := fun k => ProgramOk k.program) ?_
    (fun run => programOk_run ac run) ?_ run
  · rw [closesOne_iff_paired]
    exact peersPaired_init sock serverAddress listenPort
  · intro k e k' hs hcloses hstep
    rw [closesOne_iff_paired] at hcloses ⊢
    exact peersPaired_move ac hs hcloses (program_step ac hs hstep)

/-- A peer connects at the descriptor `fd` and registers under these names. -/
def peerRegisters (fd : ℕ) (names : List String) : List ClientEvent :=
  [.accept fd demoAddr, .readable fd] ++
    names.map (fun name =>
      .response true (.privateRegistration (text name)) ⟨none, none, false⟩ false) ++ [.readDone]

/-- A peer that registers on two connections: closing the first ends the session on the second,
and leaves its own. -/
theorem not_closesOne_two_connections :
    ∃ k, ClientRun protobufWire 3 demoAddr 4000 Always
        (peerRegisters 7 ["yoda"] ++ peerRegisters 8 ["yoda"]) k ∧
      ¬ ClosesOne protobufWire k := by
  obtain ⟨k, run, hclient, huser⟩ := Run.exists_of_execute (Client.step protobufWire) Always
    (Client.init 3 demoAddr 4000) (peerRegisters 7 ["yoda"] ++ peerRegisters 8 ["yoda"])
    (fun k => (k.program.users 0).client = some 2 ∧ (k.program.conn 1).user = some 0)
    (by decide +kernel)
  refine ⟨k, run, fun h => ?_⟩
  have hfirst := ((endsOnly_iff protobufWire).mp (h 1 (by decide)) 0).mpr huser
  rw [hclient] at hfirst
  exact absurd hfirst (by decide)

/-- Two peers register, one of them leaves, and comes back on a new connection. -/
theorem closesOne_demo :
    ∃ k, Throughout (Client.step protobufWire) (Client.init 3 demoAddr 4000)
        (ClosesOne protobufWire)
        (peerRegisters 7 ["yoda"] ++ peerRegisters 8 ["hans"] ++ [.eof 7] ++
          peerRegisters 7 ["yoda"]) k ∧
      (k.program.users 0).client = some 3 := by
  obtain ⟨k, run, hclient⟩ := Run.exists_of_execute (Client.step protobufWire) SoleLink
    (Client.init 3 demoAddr 4000)
    (peerRegisters 7 ["yoda"] ++ peerRegisters 8 ["hans"] ++ [.eof 7] ++
      peerRegisters 7 ["yoda"])
    (fun k => (k.program.users 0).client = some 3) (by decide +kernel)
  exact ⟨k, (closesOne_iff protobufWire run.always).mpr run, hclient⟩

end EpollChat

import EpollChat.Properties.Sessions
import EpollChat.Framework.Run
import Mathlib.Data.List.Nodup

/-!
# The session machine

`SessionMove` is everything that can happen to the session part of the state: accepting, binding
a user to a connection and taking it off again, closing a descriptor, serving, activity, and the
passing of time.  `sessions_exec` is the refinement: every event of the server is a sequence of
session moves, and a user is bound only where a login request is accepted.  What such a request
must satisfy is a parameter, so that results under a condition on logins and results without one
use the same machine.

`TableOk` is what holds of the connection table in every run: the entries have different
descriptors, every open socket is an entry, and the pointers lead to connections that exist.
-/

namespace EpollChat

variable (ac : Achelper)

/-! ## The connection table -/

/-- **The table is in order.** -/
structure TableOk (s : State) : Prop where
  /-- Two entries have different descriptors. -/
  fds_nodup : (s.clients.map fun c => (s.conn c).fd).Nodup
  /-- The entries exist. -/
  clients_lt : ∀ c ∈ s.clients, c < s.nconns
  /-- The connection of an open socket is an entry. -/
  sock_ok : ∀ fd c, s.sock fd = some c → c ∈ s.clients ∧ (s.conn c).fd = fd
  /-- Users are bound to connections that exist. -/
  client_lt : ∀ u c, (s.users u).client = some c → c < s.nconns
  /-- Connections that do not exist have no user. -/
  fresh : ∀ c, s.nconns ≤ c → (s.conn c).user = none
  /-- The connection that is being served is an entry, and nobody else has its descriptor. -/
  serving_ok : ∀ c, s.serving = some c →
    c ∈ s.clients ∧ (s.sock (s.conn c).fd = some c ∨ s.sock (s.conn c).fd = none)
  /-- The users that can be found are in the list of users. -/
  find_known : ∀ name u, findUser s name = some u → u ∈ s.first
  /-- The users that are bound are in the list of users. -/
  client_known : ∀ u c, (s.users u).client = some c → u ∈ s.first
  user_known : ∀ u c, (s.conn c).user = some u → u ∈ s.first
  /-- This is the server. -/
  server : s.isServer = true

/-- Open connections have different descriptors. -/
lemma State.IsOpen.eq_of_fd {s : State} {c d : ConnId} (hc : s.IsOpen c) (hd : s.IsOpen d)
    (h : (s.conn c).fd = (s.conn d).fd) : c = d := by
  unfold State.IsOpen at hc hd
  rw [h, hd] at hc
  exact (Option.some.inj hc).symm

/-- The table is a matter of sessions. -/
lemma tableOk_sessions {s : State} : TableOk s.sessions ↔ TableOk s :=
  ⟨fun ⟨h₁, h₂, h₃, h₄, h₅, h₆, h₇, h₈, h₉, h₁₀⟩ => ⟨h₁, h₂, h₃, h₄, h₅, h₆, h₇, h₈, h₉, h₁₀⟩,
    fun ⟨h₁, h₂, h₃, h₄, h₅, h₆, h₇, h₈, h₉, h₁₀⟩ => ⟨h₁, h₂, h₃, h₄, h₅, h₆, h₇, h₈, h₉, h₁₀⟩⟩

lemma pickConn_eq_find (s : State) (fd : ℕ) :
    pickConn s fd = s.clients.find? fun c => (s.conn c).fd = fd := by
  rw [List.find?_eq_bind_findIdx?_getElem?]
  rfl

@[simp] lemma pickConn_sessions (s : State) (fd : ℕ) : pickConn s.sessions fd = pickConn s fd :=
  rfl

lemma pickConn_some {s : State} {fd : ℕ} {c : ConnId} (h : pickConn s fd = some c) :
    c ∈ s.clients ∧ (s.conn c).fd = fd := by
  rw [pickConn_eq_find] at h
  exact ⟨List.mem_of_find?_eq_some h, by simpa using List.find?_some h⟩

namespace TableOk

variable {s : State} (hs : TableOk s)
include hs

/-- An entry is the one its descriptor selects. -/
lemma pickConn_of_mem {c : ConnId} (hc : c ∈ s.clients) :
    pickConn s (s.conn c).fd = some c := by
  have hsome : (pickConn s (s.conn c).fd).isSome := by
    rw [pickConn_eq_find, List.find?_isSome]
    exact ⟨c, hc, by simp⟩
  obtain ⟨d, hd⟩ := Option.isSome_iff_exists.mp hsome
  obtain ⟨hmem, hfd⟩ := pickConn_some hd
  rw [hd, List.inj_on_of_nodup_map hs.fds_nodup hmem hc hfd]

/-- An open descriptor selects the connection whose socket it is. -/
lemma pickConn_of_sock {fd : ℕ} {c : ConnId} (h : s.sock fd = some c) :
    pickConn s fd = some c := by
  obtain ⟨hmem, hfd⟩ := hs.sock_ok fd c h
  rw [← hfd]
  exact hs.pickConn_of_mem hmem

/-- The connection an event on an open descriptor is for is open. -/
lemma isOpen_of_pickConn {fd : ℕ} {c : ConnId} (hfd : s.sock fd ≠ none)
    (h : pickConn s fd = some c) : s.IsOpen c := by
  obtain ⟨d, hd⟩ := Option.ne_none_iff_exists'.mp hfd
  obtain rfl : d = c := Option.some.inj ((hs.pickConn_of_sock hd).symm.trans h)
  unfold State.IsOpen
  rw [(hs.sock_ok fd d hd).2, hd]

lemma lt_of_isOpen {c : ConnId} (hc : s.IsOpen c) : c < s.nconns :=
  hs.clients_lt c (hs.sock_ok _ c hc).1

end TableOk

/-! ## Accepting -/

/-- The table with the new connection in the slot of the old entry with its descriptor, or at
the end. -/
def acceptedTable (clients : List ConnId) (slot : Option ℕ) (c : ConnId) : List ConnId :=
  match slot with
  | some i => clients.set i c
  | none => clients ++ [c]

section Accept

variable (s : State) (fd : ℕ) (addr : SockAddr)

/-- What accepting changes. -/
lemma acceptClient_eq :
    ∃ freed fault, acceptClient s fd addr =
      { s with
        clients := acceptedTable s.clients (pickClient s fd) s.nconns
        conn := Function.update s.conn s.nconns (newConn fd addr)
        nconns := s.nconns + 1
        sock := Function.update s.sock fd (some s.nconns)
        epoll := Function.update s.epoll fd (some false)
        freed, fault } := by
  unfold acceptClient acceptedTable
  dsimp only
  cases pickClient s fd with
  | some i => exact ⟨_, _, rfl⟩
  | none =>
      dsimp only
      split <;> exact ⟨_, _, rfl⟩

@[simp] lemma users_acceptClient : (acceptClient s fd addr).users = s.users := by
  obtain ⟨_, _, h⟩ := acceptClient_eq s fd addr
  rw [h]

@[simp] lemma conn_acceptClient :
    (acceptClient s fd addr).conn = Function.update s.conn s.nconns (newConn fd addr) := by
  obtain ⟨_, _, h⟩ := acceptClient_eq s fd addr
  rw [h]

@[simp] lemma sock_acceptClient :
    (acceptClient s fd addr).sock = Function.update s.sock fd (some s.nconns) := by
  obtain ⟨_, _, h⟩ := acceptClient_eq s fd addr
  rw [h]

@[simp] lemma log_acceptClient : (acceptClient s fd addr).log = s.log := by
  obtain ⟨_, _, h⟩ := acceptClient_eq s fd addr
  rw [h]

@[simp] lemma nconns_acceptClient : (acceptClient s fd addr).nconns = s.nconns + 1 := by
  obtain ⟨_, _, h⟩ := acceptClient_eq s fd addr
  rw [h]

@[simp] lemma isUserLoggedIn_acceptClient (u : Option UserId) :
    isUserLoggedIn (acceptClient s fd addr) u = isUserLoggedIn s u := by
  obtain ⟨_, _, h⟩ := acceptClient_eq s fd addr
  rw [h]
  rfl

@[simp] lemma findUser_acceptClient (name : Bytes) :
    findUser (acceptClient s fd addr) name = findUser s name := by
  obtain ⟨_, _, h⟩ := acceptClient_eq s fd addr
  rw [h]
  rfl

lemma clients_acceptClient :
    (acceptClient s fd addr).clients = acceptedTable s.clients (pickClient s fd) s.nconns := by
  obtain ⟨_, _, h⟩ := acceptClient_eq s fd addr
  rw [h]

end Accept

lemma mem_acceptedTable {clients : List ConnId} {slot : Option ℕ} {c d : ConnId}
    (h : d ∈ acceptedTable clients slot c) : d ∈ clients ∨ d = c := by
  cases slot with
  | some i => exact List.mem_or_eq_of_mem_set h
  | none => simpa [acceptedTable] using h

/-- The entries after accepting: their descriptors differ, the new connection is one of them, and
the old ones with other descriptors stay. -/
lemma entries_acceptClient {s : State}
    (hnodup : (s.clients.map fun c => (s.conn c).fd).Nodup) (hlt : ∀ c ∈ s.clients, c < s.nconns)
    (fd : ℕ) (addr : SockAddr) :
    ((acceptClient s fd addr).clients.map fun d => ((acceptClient s fd addr).conn d).fd).Nodup ∧
      s.nconns ∈ (acceptClient s fd addr).clients ∧
        ∀ d ∈ s.clients, (s.conn d).fd ≠ fd → d ∈ (acceptClient s fd addr).clients := by
  have hnew : (acceptClient s fd addr).conn s.nconns = newConn fd addr := by simp
  have hmap : s.clients.map (fun d => ((acceptClient s fd addr).conn d).fd) =
      s.clients.map fun d => (s.conn d).fd :=
    List.map_congr_left fun d hd => by
      rw [conn_acceptClient, Function.update_of_ne (hlt d hd).ne]
  rw [clients_acceptClient]
  cases hslot : pickClient s fd with
  | some i =>
      obtain ⟨hi, hat, -⟩ := List.findIdx?_eq_some_iff_getElem.mp hslot
      simp only [acceptedTable, List.map_set, hmap, hnew]
      refine ⟨?_, List.mem_set hi s.nconns, fun d hd hne => ?_⟩
      · have hi' : i < (s.clients.map fun d => (s.conn d).fd).length := by simpa using hi
        have hsame : (newConn fd addr).fd = (s.clients.map fun d => (s.conn d).fd)[i] := by
          simpa [newConn] using (of_decide_eq_true hat).symm
        rw [hsame, List.set_getElem_self]
        exact hnodup
      · obtain ⟨j, hj, rfl⟩ := List.mem_iff_getElem.mp hd
        have hij : i ≠ j := fun h => hne (by subst h; exact of_decide_eq_true hat)
        exact List.mem_iff_getElem.mpr ⟨j, by simpa using hj, by simp [hij]⟩
  | none =>
      simp only [acceptedTable, List.map_append, List.map_singleton, hmap, hnew]
      refine ⟨?_, by simp, fun d hd _ => by simp [hd]⟩
      have hnone : ∀ d ∈ s.clients, (s.conn d).fd ≠ fd := by
        simpa using List.findIdx?_eq_none_iff.mp hslot
      rw [List.nodup_append]
      refine ⟨hnodup, by simp, fun x hx y hy => ?_⟩
      obtain ⟨d, hd, rfl⟩ := List.mem_map.mp hx
      obtain rfl : y = fd := by simpa [newConn] using hy
      exact hnone d hd

/-- Accepting keeps the table in order. -/
lemma TableOk.accept {s : State} (hs : TableOk s) (hidle : s.serving = none) (fd : ℕ)
    (addr : SockAddr) : TableOk (acceptClient s fd addr) := by
  obtain ⟨freed, fault, heq⟩ := acceptClient_eq s fd addr
  have hfirst : (acceptClient s fd addr).first = s.first := by rw [heq]
  have hserver : (acceptClient s fd addr).isServer = s.isServer := by rw [heq]
  have hserving : (acceptClient s fd addr).serving = s.serving := by rw [heq]
  have hold : ∀ d ∈ s.clients, (acceptClient s fd addr).conn d = s.conn d := fun d hd => by
    rw [conn_acceptClient, Function.update_of_ne (hs.clients_lt d hd).ne]
  have hnew : (acceptClient s fd addr).conn s.nconns = newConn fd addr := by simp
  have htable := entries_acceptClient hs.fds_nodup hs.clients_lt fd addr
  refine ⟨htable.1, ?_, ?_, ?_, ?_, ?_, ?_, ?_, ?_, hserver.trans hs.server⟩
  · intro d hd
    rw [clients_acceptClient] at hd
    rw [nconns_acceptClient]
    rcases mem_acceptedTable hd with hd | rfl
    · exact Nat.lt_succ_of_lt (hs.clients_lt d hd)
    · exact Nat.lt_succ_self _
  · intro fd' d hd
    rw [sock_acceptClient, Function.update_apply] at hd
    split at hd
    · next h =>
        obtain rfl := Option.some.inj hd
        exact ⟨htable.2.1, by rw [hnew, h]; rfl⟩
    · next h =>
        obtain ⟨hmem, hfd⟩ := hs.sock_ok fd' d hd
        exact ⟨htable.2.2 d hmem (hfd ▸ h), by rw [hold d hmem, hfd]⟩
  · intro u d hd
    rw [users_acceptClient] at hd
    rw [nconns_acceptClient]
    exact Nat.lt_succ_of_lt (hs.client_lt u d hd)
  · intro d hd
    rw [nconns_acceptClient] at hd
    have hne : d ≠ s.nconns := by omega
    rw [conn_acceptClient, Function.update_of_ne hne]
    exact hs.fresh d (by omega)
  · intro d hd
    rw [hserving, hidle] at hd
    cases hd
  · intro name u hu
    rw [findUser_acceptClient] at hu
    rw [hfirst]
    exact hs.find_known name u hu
  · intro u d hd
    rw [users_acceptClient] at hd
    rw [hfirst]
    exact hs.client_known u d hd
  · intro u d hd
    rw [conn_acceptClient, Function.update_apply] at hd
    rw [hfirst]
    split at hd
    · cases hd
    · exact hs.user_known u d hd

/-! ## The moves -/

/-- One thing that can happen to sessions.  `bindOk` is what is known of a connection and a user
when the user is bound to the connection. -/
inductive SessionMove (bindOk : State → ConnId → UserId → Prop) : State → State → Prop
  | accept {s : State} (fd : ℕ) (addr : SockAddr) (free : s.sock fd = none)
      (idle : s.serving = none) : SessionMove bindOk s (acceptClient s fd addr).sessions
  | begin {s : State} (fd : ℕ) (isOpen : s.sock fd ≠ none) (idle : s.serving = none) :
      SessionMove bindOk s { s with serving := pickConn s fd }
  | finish {s : State} : SessionMove bindOk s { s with serving := none }
  | active {s : State} (c : ConnId) (serves : s.serving = some c) :
      SessionMove bindOk s (updateLastActive s c)
  | bind {s : State} (c : ConnId) (u : UserId) (username password : Bytes)
      (serves : s.serving = some c) (found : findUser s username = some u)
      (knows : (s.users u).password = password) (idle : isUserLoggedIn s (some u) = false)
      (ok : bindOk s c u) : SessionMove bindOk s (bind s c u password)
  | unlink {s : State} (u : UserId) (c : ConnId) (bound : (s.users u).client = some c) :
      SessionMove bindOk s (unlink s u c)
  | shut {s : State} (c : ConnId)
      (own : s.sock (s.conn c).fd = some c ∨ s.sock (s.conn c).fd = none)
      (unbound : ∀ u, (s.conn c).user = some u → (s.users u).client = none) :
      SessionMove bindOk s (shut s (s.conn c).fd)
  | tick {s : State} (seconds : ℕ) : SessionMove bindOk s { s with now := s.now + seconds }

/-- Sequences of moves. -/
abbrev SessionMoves (bindOk : State → ConnId → UserId → Prop) : State → State → Prop :=
  Relation.ReflTransGen (SessionMove bindOk)

lemma SessionMove.mono {bindOk bindOk' : State → ConnId → UserId → Prop}
    (h : ∀ s c u, bindOk s c u → bindOk' s c u) {s s' : State}
    (move : SessionMove bindOk s s') : SessionMove bindOk' s s' := by
  cases move with
  | accept fd addr free idle => exact .accept fd addr free idle
  | begin fd isOpen idle => exact .begin fd isOpen idle
  | finish => exact .finish
  | active c serves => exact .active c serves
  | bind c u username password serves found knows idle ok =>
      exact .bind c u username password serves found knows idle (h _ c u ok)
  | unlink u c bound => exact .unlink u c bound
  | shut c own unbound => exact .shut c own unbound
  | tick seconds => exact .tick seconds

/-- What every move keeps, every sequence of moves keeps. -/
lemma SessionMoves.invariant {bindOk : State → ConnId → UserId → Prop} {P : State → Prop}
    (h : ∀ s s', P s → SessionMove bindOk s s' → P s') {s s' : State}
    (moves : SessionMoves bindOk s s') (hs : P s) : P s' := by
  induction moves with
  | refl => exact hs
  | tail _ move ih => exact h _ _ ih move

/-! ## Reads after the moves -/

section Reads

variable (s : State) (u v : UserId) (c d : ConnId)

lemma client_unlink :
    ((unlink s u c).users v).client = if v = u then none else (s.users v).client := by
  by_cases h : v = u <;> simp [unlink, State.setConn, State.setUser, State.emit, h]

lemma user_unlink :
    ((unlink s u c).conn d).user = if d = c then none else (s.conn d).user := by
  by_cases h : d = c <;> simp [unlink, State.setConn, State.setUser, State.emit, h]

@[simp] lemma fd_unlink : ((unlink s u c).conn d).fd = (s.conn d).fd := by
  by_cases h : d = c <;> simp [unlink, State.setConn, State.setUser, State.emit, h]

lemma client_bind (password : Bytes) :
    ((bind s c u password).users v).client = if v = u then some c else (s.users v).client := by
  by_cases h : v = u <;> simp [bind, State.setConn, State.setUser, State.emit, h]

lemma user_bind (password : Bytes) :
    ((bind s c u password).conn d).user = if d = c then some u else (s.conn d).user := by
  by_cases h : d = c <;> simp [bind, State.setConn, State.setUser, State.emit, h]

@[simp] lemma fd_bind (password : Bytes) :
    ((bind s c u password).conn d).fd = (s.conn d).fd := by
  by_cases h : d = c <;> simp [bind, State.setConn, State.setUser, State.emit, h]

end Reads

/-- A change of a user record that keeps the binding. -/
lemma State.client_setUser (s : State) (u : UserId) {f : User → User}
    (h : ∀ v, (f v).client = v.client) (v : UserId) :
    ((s.setUser u f).users v).client = (s.users v).client := by
  by_cases hv : v = u
  · subst hv
    simp [State.setUser, h]
  · simp [State.setUser, hv]

lemma updateLastActive_eq (s : State) (c : ConnId) :
    updateLastActive s c = s ∨ ∃ u, (s.conn c).user = some u ∧
      isUserLoggedIn s (some u) = true ∧
        updateLastActive s c = s.setUser u fun v => { v with lastActive := s.now } := by
  unfold updateLastActive
  cases hu : (s.conn c).user with
  | none => exact .inl rfl
  | some u =>
      dsimp only
      split
      · next h => exact .inr ⟨u, rfl, h, rfl⟩
      · exact .inl rfl

/-- Refreshing the time of the last activity changes no pointer. -/
@[simp] lemma client_updateLastActive (s : State) (c : ConnId) (v : UserId) :
    ((updateLastActive s c).users v).client = (s.users v).client := by
  rcases updateLastActive_eq s c with h | ⟨u, -, -, h⟩ <;> rw [h]
  rw [State.client_setUser]
  exact fun _ => rfl

@[simp] lemma conn_updateLastActive (s : State) (c : ConnId) :
    (updateLastActive s c).conn = s.conn := by
  rcases updateLastActive_eq s c with h | ⟨u, -, -, h⟩ <;> rw [h]
  rfl

@[simp] lemma sock_updateLastActive (s : State) (c : ConnId) :
    (updateLastActive s c).sock = s.sock := by
  rcases updateLastActive_eq s c with h | ⟨u, -, -, h⟩ <;> rw [h]
  rfl

/-! ## The refinement -/

section Refinement

variable {bindOk : State → ConnId → UserId → Prop}

lemma sessions_acceptClient (s : State) (fd : ℕ) (addr : SockAddr) :
    (acceptClient s fd addr).sessions = (acceptClient s.sessions fd addr).sessions := by
  have hpick : pickClient s.sessions fd = pickClient s fd := rfl
  have hconn : (fun c => (Function.update s.conn s.nconns (newConn fd addr) c).session) =
      fun c => (Function.update (fun d => (s.conn d).session) s.nconns (newConn fd addr)
        c).session := by
    funext c
    by_cases h : c = s.nconns
    · subst h
      simp
    · simp [h, Conn.session]
  have hlog : s.log.filter Obs.isSession = (s.log.filter Obs.isSession).filter Obs.isSession := by
    simp
  unfold acceptClient
  rw [hpick]
  cases pickClient s fd with
  | some i =>
      unfold State.sessions
      simp only [hconn, ← hlog]
      rfl
  | none =>
      unfold State.sessions
      dsimp only
      split <;>
      · simp only [State.raise, hconn, ← hlog]
        rfl

lemma moves_unbind (s : State) (u : Option UserId) : SessionMoves bindOk s (unbind s u) := by
  unfold unbind
  cases u with
  | none => exact .refl
  | some u =>
      dsimp only
      cases hc : (s.users u).client with
      | none => exact .refl
      | some c => exact .single (.unlink u c hc)

/-- After its user has been unbound, a connection names no bound user. -/
lemma unbound_unbind (s : State) (c : ConnId) (u : UserId)
    (h : ((unbind s (s.conn c).user).conn c).user = some u) :
    ((unbind s (s.conn c).user).users u).client = none := by
  cases hv : (s.conn c).user with
  | none =>
      rw [hv] at h
      cases h.symm.trans hv
  | some v =>
      rw [hv] at h
      unfold unbind at h ⊢
      cases hd : (s.users v).client with
      | none =>
          simp only [hd] at h ⊢
          obtain rfl : v = u := Option.some.inj (hv.symm.trans h)
          exact hd
      | some d =>
          simp only [hd] at h ⊢
          have huv : v = u := by
            by_cases hcd : c = d
            · subst hcd
              simp [unlink, State.setConn, State.setUser, State.emit] at h
            · have h' : (s.conn c).user = some u := by
                simpa [unlink, State.setConn, State.setUser, State.emit, hcd] using h
              exact Option.some.inj (hv.symm.trans h')
          subst huv
          simp [unlink, State.setConn, State.setUser, State.emit]

@[simp] lemma sock_unbind (s : State) (u : Option UserId) : (unbind s u).sock = s.sock := by
  unfold unbind
  split
  · rfl
  split <;> rfl

@[simp] lemma clients_unbind (s : State) (u : Option UserId) :
    (unbind s u).clients = s.clients := by
  unfold unbind
  split
  · rfl
  split <;> rfl

@[simp] lemma serving_unbind (s : State) (u : Option UserId) :
    (unbind s u).serving = s.serving := by
  unfold unbind
  split
  · rfl
  split <;> rfl

lemma moves_closeSocket {s : State} {c : ConnId}
    (own : s.sock (s.conn c).fd = some c ∨ s.sock (s.conn c).fd = none) :
    SessionMoves bindOk s.sessions (closeSocket ac s c).sessions := by
  rw [sessions_closeSocket]
  refine (moves_unbind s.sessions (s.conn c).user).tail ?_
  have hfd : ((unbind s.sessions (s.conn c).user).conn c).fd = (s.conn c).fd :=
    fd_unbind s.sessions _ c
  have hmove : SessionMove bindOk (unbind s.sessions (s.conn c).user) _ :=
    .shut c (by rw [hfd, sock_unbind]; exact own) (unbound_unbind s.sessions c)
  rwa [hfd] at hmove

lemma moves_sweepClient (s : State) (c : ConnId) :
    SessionMoves bindOk s.sessions (sweepClient ac s c).sessions := by
  unfold sweepClient
  split
  · rw [sendResponseToClient_eq, sessions_deliver, sessions_logoutUser]
    exact moves_unbind _ _
  · exact .refl

lemma moves_timeThread (s : State) :
    SessionMoves bindOk s.sessions (timeThread ac s).sessions := by
  unfold timeThread
  generalize s.clients = l
  induction l generalizing s with
  | nil => exact .refl
  | cons c l ih => exact (moves_sweepClient ac s c).trans (ih _)

/-- An accepted login binds. -/
lemma sessions_serve_accepted {s : State} {c : ConnId} {r : LoginRequest} {u : UserId}
    (h : acceptedUser s r.username r.password = some u) :
    (serve ac s c (.login r)).sessions =
      updateLastActive (bind s.sessions c u (cstr r.password)) c := by
  rw [sessions_congr (core_serve ac s c (.login r))]
  show (updateLastActive (cmdLoginImpl ac s c r).1 c).sessions = _
  rw [sessions_updateLastActive, cmdLoginImpl_of_accepted ac h, sessions_link_refresh]

/-- The pointers after an accepted login. -/
lemma client_serve_accepted {s : State} {c : ConnId} {r : LoginRequest} {u : UserId}
    (h : acceptedUser s r.username r.password = some u) (v : UserId) :
    ((serve ac s c (.login r)).users v).client =
      if v = u then some c else (s.users v).client := by
  have h' := congrArg (fun t => (t.users v).client) (sessions_serve_accepted ac (c := c) h)
  refine Eq.trans h' ?_
  rw [client_updateLastActive, client_bind]
  rfl

lemma user_serve_accepted {s : State} {c : ConnId} {r : LoginRequest} {u : UserId}
    (h : acceptedUser s r.username r.password = some u) (d : ConnId) :
    ((serve ac s c (.login r)).conn d).user = if d = c then some u else (s.conn d).user := by
  have h' := congrArg (fun t => (t.conn d).user) (sessions_serve_accepted ac (c := c) h)
  refine Eq.trans h' ?_
  rw [conn_updateLastActive, user_bind]
  rfl

lemma isOpen_serve_accepted {s : State} {c : ConnId} {r : LoginRequest} {u : UserId}
    (h : acceptedUser s r.username r.password = some u) (d : ConnId) :
    (serve ac s c (.login r)).IsOpen d ↔ s.IsOpen d := by
  have hsock := congrArg State.sock (sessions_serve_accepted ac (c := c) h)
  have hfd := congrArg (fun t => (t.conn d).fd) (sessions_serve_accepted ac (c := c) h)
  rw [sock_updateLastActive] at hsock
  simp only [conn_updateLastActive, fd_bind] at hfd
  have hsock' : (serve ac s c (.login r)).sock = s.sock := hsock
  have hfd' : ((serve ac s c (.login r)).conn d).fd = (s.conn d).fd := hfd
  unfold State.IsOpen
  rw [hsock', hfd']

/-- A refused login is activity at most. -/
lemma sessions_serve_refused {s : State} {c : ConnId} {r : LoginRequest}
    (h : acceptedUser s r.username r.password = none) :
    (serve ac s c (.login r)).sessions = updateLastActive s.sessions c := by
  rw [sessions_congr (core_serve ac s c (.login r))]
  show (updateLastActive (cmdLoginImpl ac s c r).1 c).sessions = _
  obtain ⟨rsp, hrsp⟩ := cmdLoginImpl_of_refused ac (c := c) h
  rw [sessions_updateLastActive, hrsp, sessions_refused]

/-- **What a request does to the sessions**: nothing, activity, a login that is accepted, or a
logout of a session. -/
lemma sessions_serve_cases (s : State) (c : ConnId) (req : Request) :
    (serve ac s c req).sessions = s.sessions ∨
      (serve ac s c req).sessions = updateLastActive s.sessions c ∨
      (∃ r u, req = .login r ∧ acceptedUser s r.username r.password = some u ∧
        (serve ac s c req).sessions =
          updateLastActive (bind s.sessions c u (cstr r.password)) c) ∨
      req = .logout ∧ isUserLoggedIn s (s.conn c).user = true ∧
        (serve ac s c req).sessions = updateLastActive (closeSocket ac s c).sessions c := by
  cases hquiet : req.isQuiet with
  | true =>
      rw [sessions_congr (core_serve ac s c req)]
      rcases sessions_runRequest_of_quiet ac s c hquiet with h | h
      · exact .inl h
      · exact .inr (.inl h)
  | false =>
      right
      cases req with
      | login r =>
          cases haccepted : acceptedUser s r.username r.password with
          | none => exact .inl (sessions_serve_refused ac haccepted)
          | some u =>
              exact .inr (.inl ⟨r, u, rfl, haccepted, sessions_serve_accepted ac haccepted⟩)
      | logout =>
          have hlogout : (serve ac s c .logout).sessions =
              updateLastActive (cmdLogoutImpl ac s c).1.sessions c := by
            rw [sessions_congr (core_serve ac s c .logout)]
            exact sessions_updateLastActive _ c
          rw [hlogout]
          unfold cmdLogoutImpl
          split
          · exact .inl rfl
          · next hlive => exact .inr (.inr ⟨rfl, by simpa using hlive, rfl⟩)
      | _ => cases hquiet

lemma moves_serve {s : State} (hs : TableOk s) {c : ConnId} (hserving : s.serving = some c)
    (req : Request)
    (hbind : ∀ r u, req = .login r → acceptedUser s r.username r.password = some u →
      bindOk s.sessions c u) :
    SessionMoves bindOk s.sessions (serve ac s c req).sessions := by
  rcases sessions_serve_cases ac s c req with
    hsame | hactive | ⟨r, u, hreq, haccepted, hlogin⟩ | ⟨-, -, hlogout⟩
  · rw [hsame]
  · rw [hactive]
    exact .single (.active c hserving)
  · obtain ⟨hfind, -, hpassword, hlogged⟩ := acceptedUser_eq_some.mp haccepted
    rw [hlogin]
    refine .tail (.single (.bind c u r.username (cstr r.password) hserving hfind
      hpassword ?_ (hbind r u hreq haccepted))) (.active c hserving)
    rw [isUserLoggedIn_sessions, hlogged]
  · rw [hlogout]
    refine (moves_closeSocket ac (hs.serving_ok c hserving).2).tail (.active c ?_)
    rw [sessions_closeSocket]
    show (unbind s.sessions (s.conn c).user).serving = some c
    rw [serving_unbind]
    exact hserving

/-- **The refinement.** An event of the server is a sequence of session moves, in which a user
is bound only where a login request is accepted. -/
theorem sessions_exec {s : State} (hs : TableOk s) {e : Event} (henabled : enabled s e)
    (hbind : ∀ c r u, e = .request (.login r) → s.serving = some c →
      acceptedUser s r.username r.password = some u → bindOk s.sessions c u) :
    SessionMoves bindOk s.sessions (exec ac s e).sessions := by
  cases e with
  | accept fd addr =>
      rw [exec, sessions_acceptClient]
      exact .single (.accept fd addr henabled.2 henabled.1)
  | hangup fd | eof fd =>
      rw [exec]
      cases hpick : pickConn s fd with
      | none => exact .refl
      | some c => exact moves_closeSocket ac (.inl (hs.isOpen_of_pickConn henabled.2 hpick))
  | readable fd => exact .single (.begin fd henabled.2 henabled.1)
  | request req =>
      rw [exec]
      cases hserving : s.serving with
      | none => exact .refl
      | some c =>
          exact moves_serve ac hs hserving req fun r u hreq h =>
            hbind c r u (by rw [hreq]) hserving h
  | readDone => exact .single .finish
  | writable fd nsent₁ nsent₂ =>
      rw [exec]
      cases hpick : pickConn s fd with
      | none => exact .refl
      | some c =>
          dsimp only
          rw [sessions_congr (core_networkWritable s c nsent₁ nsent₂)]
  | tick seconds => exact .single (.tick seconds)
  | sweep => exact moves_timeThread ac s

end Refinement

/-! ## The table in every run -/

/-- A change that keeps the table, closes descriptors at most, and binds entries and known users
at most, keeps the table in order. -/
lemma TableOk.of_frame {s s' : State} (hs : TableOk s) (hclients : s'.clients = s.clients)
    (hnconns : s'.nconns = s.nconns) (hfirst : s'.first = s.first) (hroot : s'.root = s.root)
    (hserver : s'.isServer = s.isServer) (hserving : s'.serving = s.serving)
    (hfd : ∀ c, (s'.conn c).fd = (s.conn c).fd)
    (hsock : ∀ fd c, s'.sock fd = some c → s.sock fd = some c)
    (hclient : ∀ u c, (s'.users u).client = some c →
      (s.users u).client = some c ∨ c ∈ s.clients ∧ u ∈ s.first)
    (huser : ∀ u c, (s'.conn c).user = some u →
      (s.conn c).user = some u ∨ c ∈ s.clients ∧ u ∈ s.first) : TableOk s' where
  fds_nodup := by
    simp only [hclients, hfd]
    exact hs.fds_nodup
  clients_lt c hc := by
    rw [hclients] at hc
    rw [hnconns]
    exact hs.clients_lt c hc
  sock_ok fd c h := by
    rw [hclients, hfd]
    exact hs.sock_ok fd c (hsock fd c h)
  client_lt u c h := by
    rw [hnconns]
    rcases hclient u c h with h | ⟨h, -⟩
    · exact hs.client_lt u c h
    · exact hs.clients_lt c h
  fresh c hc := by
    rw [hnconns] at hc
    by_contra hne
    obtain ⟨u, hu⟩ := Option.ne_none_iff_exists'.mp hne
    rcases huser u c hu with h | ⟨h, -⟩
    · rw [hs.fresh c hc] at h
      cases h
    · exact absurd (hs.clients_lt c h) (not_lt.mpr hc)
  serving_ok c h := by
    rw [hserving] at h
    obtain ⟨hmem, hown⟩ := hs.serving_ok c h
    rw [hclients, hfd]
    refine ⟨hmem, ?_⟩
    cases hd : s'.sock (s.conn c).fd with
    | none => exact .inr rfl
    | some d =>
        have hd' := hsock _ d hd
        rcases hown with h | h <;> rw [h] at hd'
        · exact .inl hd'.symm
        · cases hd'
  find_known name u h := by
    rw [hfirst]
    refine hs.find_known name u ?_
    rwa [findUser, hroot] at h
  client_known u c h := by
    rw [hfirst]
    rcases hclient u c h with h | ⟨-, h⟩
    · exact hs.client_known u c h
    · exact h
  user_known u c h := by
    rw [hfirst]
    rcases huser u c h with h | ⟨-, h⟩
    · exact hs.user_known u c h
    · exact h
  server := hserver.trans hs.server

/-- Session moves keep the table in order. -/
lemma tableOk_move {bindOk : State → ConnId → UserId → Prop} {s s' : State}
    (hs : TableOk s) (move : SessionMove bindOk s s') : TableOk s' := by
  cases move with
  | accept fd addr free idle => exact tableOk_sessions.mpr (hs.accept idle fd addr)
  | begin fd isOpen idle =>
      refine { hs with serving_ok := fun c h => ?_ }
      obtain ⟨hmem, hfd⟩ := pickConn_some h
      refine ⟨hmem, .inl ?_⟩
      have hopen := hs.isOpen_of_pickConn isOpen h
      exact hopen
  | finish => exact { hs with serving_ok := by simp }
  | active c serves =>
      rcases updateLastActive_eq s c with h | ⟨u, -, -, h⟩
      · rw [h]
        exact hs
      · refine hs.of_frame (by rw [h]; rfl) (by rw [h]; rfl) (by rw [h]; rfl) (by rw [h]; rfl)
          (by rw [h]; rfl) (by rw [h]; rfl) (by simp) (by simp) (fun v d hd => ?_)
          (fun v d hd => ?_)
        · exact .inl (by simpa using hd)
        · exact .inl (by simpa using hd)
  | bind c u username password serves found knows idle ok =>
      have hc := (hs.serving_ok c serves).1
      have hu := hs.find_known username u found
      refine hs.of_frame rfl rfl rfl rfl rfl rfl (fun d => fd_bind s u c d password)
        (fun _ _ h => h) (fun v d hd => ?_) (fun v d hd => ?_)
      · rw [client_bind] at hd
        split at hd
        · next hv =>
            obtain rfl := Option.some.inj hd
            exact .inr ⟨hc, hv ▸ hu⟩
        · exact .inl hd
      · rw [user_bind] at hd
        split at hd
        · next h =>
            obtain rfl := Option.some.inj hd
            exact .inr ⟨h ▸ hc, hu⟩
        · exact .inl hd
  | unlink u c bound =>
      refine hs.of_frame rfl rfl rfl rfl rfl rfl (fun d => fd_unlink s u c d) (fun _ _ h => h)
        (fun v d hd => ?_) (fun v d hd => ?_)
      · rw [client_unlink] at hd
        split at hd
        · cases hd
        · exact .inl hd
      · rw [user_unlink] at hd
        split at hd
        · cases hd
        · exact .inl hd
  | shut c own unbound =>
      refine hs.of_frame rfl rfl rfl rfl rfl rfl (fun _ => rfl) (fun fd d hd => ?_)
        (fun _ _ h => .inl h) (fun _ _ h => .inl h)
      simp only [shut, Function.update_apply] at hd
      split at hd
      · cases hd
      · exact hd
  | tick seconds => exact { hs with }

/-- A completed step is an enabled event without a fault. -/
lemma step_eq_some {s s' : State} {e : Event} :
    step ac s e = some s' ↔ enabled s e ∧ s'.fault = none ∧ exec ac s e = s' := by
  unfold step
  constructor
  · intro h
    split at h
    · next hcond =>
        obtain rfl := Option.some.inj h
        exact ⟨hcond.1, hcond.2, rfl⟩
    · cases h
  · rintro ⟨henabled, hfault, rfl⟩
    rw [if_pos ⟨henabled, hfault⟩]

/-- The condition on an event that an accepted login satisfies `P` in the state it is accepted
in. -/
def LoginsMeet (P : State → ConnId → UserId → Prop) (s : State) : Event → Prop
  | .request (.login r) =>
      ∀ c ∈ s.serving, ∀ u ∈ acceptedUser s r.username r.password, P s c u
  | _ => True

instance {P : State → ConnId → UserId → Prop} [∀ s c u, Decidable (P s c u)] (s : State)
    (e : Event) : Decidable (LoginsMeet P s e) :=
  match e with
  | .request (.login r) =>
      inferInstanceAs (Decidable (∀ c ∈ s.serving, ∀ u ∈ acceptedUser s r.username r.password,
        P s c u))
  | .request (.message _) | .request (.block _) | .request (.unblock _) | .request .logout
  | .request (.whoelse _) | .request (.getip _) | .request (.regfile _) | .request (.regchunk _)
  | .request (.searchfile _) | .request (.unknown _) | .accept .. | .hangup _ | .eof _
  | .readable _ | .readDone | .writable .. | .tick _ | .sweep => .isTrue trivial

/-- A step is a sequence of session moves. -/
lemma sessions_step {P : State → ConnId → UserId → Prop} (Q : State → ConnId → UserId → Prop)
    {s s' : State} {e : Event} (hs : TableOk s) (hok : LoginsMeet P s e)
    (hQ : ∀ s c u, P s c u → Q s.sessions c u) (h : step ac s e = some s') :
    SessionMoves Q s.sessions s'.sessions := by
  obtain ⟨henabled, -, rfl⟩ := (step_eq_some ac).mp h
  refine sessions_exec ac hs henabled fun c r u he hserving haccepted => hQ s c u ?_
  subst he
  exact hok c hserving u haccepted

/-- Whatever logins it accepts. -/
lemma sessions_step_any {s s' : State} {e : Event} (hs : TableOk s) (h : step ac s e = some s') :
    SessionMoves (fun _ _ _ => True) s.sessions s'.sessions := by
  refine sessions_step ac (P := fun _ _ _ => True) _ hs ?_ (fun _ _ _ h => h) h
  unfold LoginsMeet
  split <;> simp

/-- A step keeps the table in order. -/
lemma tableOk_step {s s' : State} {e : Event} (hs : TableOk s) (h : step ac s e = some s') :
    TableOk s' := by
  have hmoves := sessions_step_any ac hs h
  exact tableOk_sessions.mp
    (hmoves.invariant (fun _ _ h move => tableOk_move h move) (tableOk_sessions.mpr hs))

/-! ## The initial state -/

/-- What loading the credentials leaves as it was, and what it makes. -/
structure Loaded (s : State) : Prop where
  users : ∀ u, (s.users u).client = none ∧ (s.users u).blocked = [] ∧
    (s.users u).buffer.pending = []
  conn : s.conn = fun _ => newConn 0 ⟨[], [], [], []⟩
  nconns : s.nconns = 0
  clients : s.clients = []
  sock : s.sock = fun _ => none
  epoll : s.epoll = fun _ => none
  serving : s.serving = none
  log : s.log = []
  held : s.held = []
  fault : s.fault = none
  fileDb : s.fileDb = newTrieFileNode
  globalChunkId : s.globalChunkId = 0
  server : s.isServer = true
  find_known : ∀ name u, findUser s name = some u → u ∈ s.first

lemma loaded_blank (blockDuration loginTimeout now : ℤ) :
    Loaded (State.blank blockDuration loginTimeout now) := by
  refine ⟨fun u => ⟨rfl, rfl, rfl⟩, rfl, rfl, rfl, rfl, rfl, rfl, rfl, rfl, rfl, rfl, rfl, rfl,
    fun name u h => ?_⟩
  unfold findUser State.blank at h
  cases hname : cstr name <;> simp [hname] at h

lemma findUser_addUser (s : State) (username password name : Bytes) :
    findUser (addUser s username password).1 name =
      if cstr name = cstr username then some s.nusers else findUser s name := by
  show ((s.root.update none (fun _ => some s.nusers) (cstr username)).find
    (cstr name)).join = _
  split
  · next hname =>
      rw [hname, Trie.find_update_self]
      rfl
  · next hname =>
      have hfind := Trie.find_update_of_ne none (fun _ => some s.nusers) hname s.root
      have hjoin : ∀ o : Option (Option UserId), o.join = o.getD none := fun o => by
        cases o <;> rfl
      rw [findUser, hjoin, hjoin, hfind]

lemma Loaded.addUser {s : State} (hs : Loaded s) (username password : Bytes) :
    Loaded (addUser s username password).1 := by
  refine { hs with users := fun u => ?_, find_known := fun name u h => ?_ }
  · by_cases hu : u = s.nusers
    · subst hu
      simp [EpollChat.addUser]
    · simpa [EpollChat.addUser, hu] using hs.users u
  · show u ∈ s.nusers :: s.first
    rw [findUser_addUser] at h
    split at h
    · obtain rfl := Option.some.inj h
      exact List.mem_cons_self
    · exact List.mem_cons_of_mem _ (hs.find_known name u h)

lemma loaded_init (p : Setup) : Loaded p.init := by
  unfold Setup.init
  generalize p.credentials = l
  have hblank := loaded_blank p.blockDuration p.loginTimeout p.now
  generalize State.blank p.blockDuration p.loginTimeout p.now = s at hblank ⊢
  induction l generalizing s with
  | nil => exact hblank
  | cons nw l ih => exact ih _ (hblank.addUser nw.1 nw.2)

lemma Loaded.tableOk {s : State} (hs : Loaded s) : TableOk s where
  fds_nodup := by simp [hs.clients]
  clients_lt := by simp [hs.clients]
  sock_ok := by simp [hs.sock]
  client_lt u c h := by simp [(hs.users u).1] at h
  fresh c _ := by simp [hs.conn, newConn]
  serving_ok := by simp [hs.serving]
  find_known := hs.find_known
  client_known u c h := by simp [(hs.users u).1] at h
  user_known u c h := by simp [hs.conn, newConn] at h
  server := hs.server

/-- **The table is in order in every run.** -/
theorem tableOk_run {p : Setup} {ok : State → Event → Prop} {es : List Event} {s : State}
    (run : ServerRun ac p ok es s) : TableOk s :=
  run.invariant (loaded_init p).tableOk fun hs _ h => tableOk_step ac hs h

end EpollChat

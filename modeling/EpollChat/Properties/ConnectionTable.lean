import EpollChat.Construction.Demo
import EpollChat.Properties.SessionMachine
import Mathlib.Data.List.Dedup

/-!
# The connection table

The server and the client program share `pick_client`, which looks a descriptor up in `clients[]`
and, for a new connection, reuses the entry with its descriptor or takes the next index.  Entries
are never removed, and nothing compares the next index with `MAX_CLIENTS`.

`TableEvent` is what happens to the table: a descriptor comes from the kernel, a connection is
closed, a descriptor is looked up.  `Tracked` remembers beside the state the indices that were
stored to and the connection made last for each descriptor.  `tableSound_iff` says that the table
is sound exactly as long as no more than `MAX_CLIENTS` different descriptors have come up.
-/

namespace EpollChat

variable (ac : Achelper)

/-! ## Events -/

/-- What happens to the table. -/
inductive TableEvent
  /-- `accept` or `connect` has made a connection with this descriptor. -/
  | accept (fd : ℕ) (addr : SockAddr)
  /-- `close_socket` on an entry. -/
  | close (c : ConnId)
  /-- `pick_client` without `createNew`. -/
  | lookup (fd : ℕ)

/-- The state, with the indices that were stored to and the last connection made for each
descriptor. -/
structure Tracked where
  state : State
  stores : List ℕ
  latest : ℕ → Option ConnId

/-- What `pick_client` with `createNew` returns. -/
def storeIndex (s : State) (fd : ℕ) : ℕ := (pickClient s fd).getD s.clients.length

/-- One event.  The kernel gives a descriptor that is not open, and what is closed is an entry. -/
def tableStep (t : Tracked) : TableEvent → Option Tracked
  | .accept fd addr =>
      if t.state.sock fd = none then
        some
          { state := acceptClient t.state fd addr
            stores := t.stores ++ [storeIndex t.state fd]
            latest := Function.update t.latest fd (some t.state.nconns) }
      else none
  | .close c =>
      if c ∈ t.state.clients then some { t with state := closeSocket ac t.state c } else none
  | .lookup _ => some t

/-- The table of a program that has just started: the server, or the client. -/
def Tracked.init (p : Setup) (isServer : Bool) : Tracked where
  state := { p.init with isServer }
  stores := []
  latest := fun _ => none

/-- The descriptors that the kernel has given, in order. -/
def opened (es : List TableEvent) : List ℕ :=
  es.filterMap fun
    | .accept fd _ => some fd
    | _ => none

/-- **The table is sound.** -/
structure TableSound (t : Tracked) : Prop where
  /-- `nclients` is at most `MAX_CLIENTS`. -/
  bounded : t.state.clients.length ≤ maxClients
  /-- The entries have different descriptors. -/
  distinct : (t.state.clients.map fun c => (t.state.conn c).fd).Nodup
  /-- Every store was to an index of the array. -/
  stores : ∀ i ∈ t.stores, i < maxClients
  /-- A lookup finds the connection made last for the descriptor. -/
  lookup : ∀ fd, pickConn t.state fd = t.latest fd

/-! ## What every sequence of events keeps -/

/-- The table after these events. -/
structure TableKept (es : List TableEvent) (t : Tracked) : Prop where
  distinct : (t.state.clients.map fun c => (t.state.conn c).fd).Nodup
  clients_lt : ∀ c ∈ t.state.clients, c < t.state.nconns
  lookup : ∀ fd, pickConn t.state fd = t.latest fd
  known : ∀ fd, t.latest fd ≠ none ↔ fd ∈ opened es
  stored : ∀ i, i ∈ t.stores ↔ i < t.state.clients.length

/-- With different descriptors, a lookup finds the entry that has the descriptor. -/
lemma pickConn_eq_some_iff {s : State} (h : (s.clients.map fun c => (s.conn c).fd).Nodup)
    {fd : ℕ} {c : ConnId} :
    pickConn s fd = some c ↔ c ∈ s.clients ∧ (s.conn c).fd = fd := by
  constructor
  · exact pickConn_some
  · rintro ⟨hmem, rfl⟩
    have hsome : (pickConn s (s.conn c).fd).isSome := by
      rw [pickConn_eq_find, List.find?_isSome]
      exact ⟨c, hmem, by simp⟩
    obtain ⟨d, hd⟩ := Option.isSome_iff_exists.mp hsome
    obtain ⟨hmem', hfd⟩ := pickConn_some hd
    rw [hd, List.inj_on_of_nodup_map h hmem' hmem hfd]

/-- A lookup after accepting. -/
lemma pickConn_acceptClient {s : State} (hnodup : (s.clients.map fun c => (s.conn c).fd).Nodup)
    (hlt : ∀ c ∈ s.clients, c < s.nconns) (fd : ℕ) (addr : SockAddr) (fd' : ℕ) :
    pickConn (acceptClient s fd addr) fd' = if fd' = fd then some s.nconns else pickConn s fd' := by
  obtain ⟨hnodup', hnew, hstay⟩ := entries_acceptClient hnodup hlt fd addr
  have hfd : ((acceptClient s fd addr).conn s.nconns).fd = fd := by simp [newConn]
  have hold : ∀ d, d ≠ s.nconns → (acceptClient s fd addr).conn d = s.conn d := fun d hd => by
    rw [conn_acceptClient, Function.update_of_ne hd]
  by_cases h : fd' = fd
  · subst h
    rw [if_pos rfl, pickConn_eq_some_iff hnodup']
    exact ⟨hnew, hfd⟩
  · rw [if_neg h]
    refine Option.ext fun d => ?_
    rw [pickConn_eq_some_iff hnodup', pickConn_eq_some_iff hnodup]
    constructor
    · rintro ⟨hd, rfl⟩
      have hne : d ≠ s.nconns := fun heq => h (by rw [heq, hfd])
      rw [clients_acceptClient] at hd
      exact ⟨(mem_acceptedTable hd).resolve_right hne, by rw [hold d hne]⟩
    · rintro ⟨hd, rfl⟩
      exact ⟨hstay d hd h, by rw [hold d (hlt d hd).ne]⟩

/-- Accepting stores to an index that is in use afterwards, and takes at most the next one. -/
lemma length_acceptClient (s : State) (fd : ℕ) (addr : SockAddr) (i : ℕ) :
    i < (acceptClient s fd addr).clients.length ↔
      i < s.clients.length ∨ i = storeIndex s fd := by
  rw [clients_acceptClient, storeIndex]
  cases hslot : pickClient s fd with
  | some j =>
      obtain ⟨hj, -, -⟩ := List.findIdx?_eq_some_iff_getElem.mp hslot
      simp only [acceptedTable, List.length_set, Option.getD_some]
      omega
  | none =>
      simp only [acceptedTable, List.length_append, List.length_singleton, Option.getD_none]
      omega

lemma clients_closeSocket (s : State) (c : ConnId) :
    (closeSocket ac s c).clients = s.clients ∧ (closeSocket ac s c).nconns = s.nconns ∧
      ∀ d, ((closeSocket ac s c).conn d).fd = (s.conn d).fd := by
  have hcore := core_closeSocket ac s c
  have hunbind : (unbind s.core (s.conn c).user).clients = s.clients ∧
      (unbind s.core (s.conn c).user).nconns = s.nconns := by
    unfold unbind
    split
    · exact ⟨rfl, rfl⟩
    split <;> exact ⟨rfl, rfl⟩
  refine ⟨?_, ?_, fun d => ?_⟩
  · have h := congrArg State.clients hcore
    exact Eq.trans h hunbind.1
  · have h := congrArg State.nconns hcore
    exact Eq.trans h hunbind.2
  · have h := congrArg (fun t => (t.conn d).fd) hcore
    exact Eq.trans h (fd_unbind s.core _ d)

/-- A change of the state that keeps entries and descriptors. -/
lemma pickConn_of_entries {s s' : State} (hclients : s'.clients = s.clients)
    (hfd : ∀ c, (s'.conn c).fd = (s.conn c).fd) (fd : ℕ) : pickConn s' fd = pickConn s fd := by
  simp only [pickConn_eq_find, hclients, hfd]

lemma opened_snoc (es : List TableEvent) (e : TableEvent) :
    opened (es ++ [e]) = opened es ++ opened [e] := by
  simp [opened]

/-- One event. -/
lemma TableKept.step {es : List TableEvent} {t t' : Tracked} (h : TableKept es t) {e : TableEvent}
    (hstep : tableStep ac t e = some t') : TableKept (es ++ [e]) t' := by
  cases e with
  | accept fd addr =>
      simp only [tableStep] at hstep
      split at hstep
      · obtain rfl := Option.some.inj hstep
        obtain ⟨hnodup, -, -⟩ := entries_acceptClient h.distinct h.clients_lt fd addr
        refine ⟨hnodup, fun c hc => ?_, fun fd' => ?_, fun fd' => ?_, fun i => ?_⟩
        · change c ∈ (acceptClient t.state fd addr).clients at hc
          rw [clients_acceptClient] at hc
          show c < (acceptClient t.state fd addr).nconns
          rw [nconns_acceptClient]
          rcases mem_acceptedTable hc with hc | rfl
          · exact Nat.lt_succ_of_lt (h.clients_lt c hc)
          · exact Nat.lt_succ_self _
        · dsimp only
          rw [pickConn_acceptClient h.distinct h.clients_lt, Function.update_apply, h.lookup]
        · rw [opened_snoc]
          dsimp only
          rw [Function.update_apply]
          by_cases hfd : fd' = fd
          · simp [hfd, opened]
          · rw [if_neg hfd, h.known]
            simp [opened, hfd]
        · show i ∈ t.stores ++ [storeIndex t.state fd] ↔ _
          rw [length_acceptClient, List.mem_append, h.stored, List.mem_singleton]
      · cases hstep
  | close c =>
      simp only [tableStep] at hstep
      split at hstep
      · obtain rfl := Option.some.inj hstep
        obtain ⟨hclients, hnconns, hfd⟩ := clients_closeSocket ac t.state c
        refine ⟨?_, fun d hd => ?_, fun fd => ?_, fun fd => ?_, fun i => ?_⟩
        · simp only [hclients, hfd]
          exact h.distinct
        · dsimp only at hd ⊢
          rw [hclients] at hd
          rw [hnconns]
          exact h.clients_lt d hd
        · exact (pickConn_of_entries hclients hfd fd).trans (h.lookup fd)
        · rw [opened_snoc]
          simpa [opened] using h.known fd
        · dsimp only
          rw [hclients]
          exact h.stored i
      · cases hstep
  | lookup fd =>
      obtain rfl := Option.some.inj hstep
      refine ⟨h.distinct, h.clients_lt, h.lookup, fun fd' => ?_, h.stored⟩
      rw [opened_snoc]
      simpa [opened] using h.known fd'

lemma tableKept_init (p : Setup) (isServer : Bool) : TableKept [] (Tracked.init p isServer) := by
  have hclients : (Tracked.init p isServer).state.clients = [] := (loaded_init p).clients
  refine ⟨?_, fun c hc => ?_, fun fd => ?_, fun fd => ?_, fun i => ?_⟩
  · rw [hclients]
    exact List.nodup_nil
  · rw [hclients] at hc
    exact absurd hc List.not_mem_nil
  · rw [pickConn_eq_find, hclients]
    rfl
  · simp [Tracked.init, opened]
  · rw [hclients]
    simp [Tracked.init]

lemma tableKept_run {p : Setup} {isServer : Bool} {es : List TableEvent} {t : Tracked}
    (run : Run (tableStep ac) Always (Tracked.init p isServer) es t) : TableKept es t := by
  induction run with
  | nil => exact tableKept_init p isServer
  | snoc _ _ completes ih => exact ih.step ac completes

/-- The entries are as many as the descriptors that have come up. -/
lemma TableKept.length {es : List TableEvent} {t : Tracked} (h : TableKept es t) :
    t.state.clients.length = (opened es).dedup.length := by
  have hperm : (t.state.clients.map fun c => (t.state.conn c).fd).Perm (opened es).dedup := by
    refine (List.perm_ext_iff_of_nodup h.distinct (List.nodup_dedup _)).mpr fun fd => ?_
    rw [List.mem_dedup, ← h.known, ← h.lookup, Option.ne_none_iff_exists', List.mem_map]
    simp only [pickConn_eq_some_iff h.distinct]
  rw [← hperm.length_eq, List.length_map]

/-- **The connection table.** It is sound after a sequence of accepts, closes and lookups exactly
when at most `MAX_CLIENTS` different descriptors have come up. -/
theorem tableSound_iff {p : Setup} {isServer : Bool} {es : List TableEvent} {t : Tracked}
    (run : Run (tableStep ac) Always (Tracked.init p isServer) es t) :
    TableSound t ↔ (opened es).dedup.length ≤ maxClients := by
  have h := tableKept_run ac run
  rw [← h.length]
  constructor
  · exact fun hsound => hsound.bounded
  · exact fun hle => ⟨hle, h.distinct, fun i hi => ((h.stored i).mp hi).trans_le hle, h.lookup⟩

/-- Two connections, of which the first is closed and its descriptor comes up again. -/
theorem tableSound_demo :
    ∃ t, Run (tableStep protobufWire) Always (Tracked.init demo true)
        [.accept 5 demoAddr, .accept 6 demoAddr, .close 0, .accept 5 demoAddr, .lookup 5] t ∧
      TableSound t := by
  obtain ⟨t, run, -⟩ := Run.exists_of_execute (tableStep protobufWire) Always
    (Tracked.init demo true)
    [.accept 5 demoAddr, .accept 6 demoAddr, .close 0, .accept 5 demoAddr, .lookup 5]
    (fun _ => True) (by decide +kernel)
  exact ⟨t, run, (tableSound_iff protobufWire run).mpr (by decide)⟩

/-! ## Too many connections -/

/-- Connections with these descriptors, one after the other. -/
def accepts (fds : List ℕ) : List TableEvent := fds.map fun fd => .accept fd demoAddr

@[simp] lemma opened_accepts (fds : List ℕ) : opened (accepts fds) = fds := by
  simp [opened, accepts, List.filterMap_map]

/-- As many connections as there are descriptors can be open at once. -/
lemma run_accepts (n : ℕ) :
    ∃ t, Run (tableStep ac) Always (Tracked.init demo true) (accepts (List.range' 5 n)) t ∧
      ∀ fd, 5 + n ≤ fd → t.state.sock fd = none := by
  induction n with
  | zero =>
      refine ⟨Tracked.init demo true, .nil, fun fd _ => ?_⟩
      show demo.init.sock fd = none
      rw [(loaded_init demo).sock]
  | succ n ih =>
      obtain ⟨t, run, hfree⟩ := ih
      have hstep : tableStep ac t (.accept (5 + n) demoAddr) = some
          { state := acceptClient t.state (5 + n) demoAddr
            stores := t.stores ++ [storeIndex t.state (5 + n)]
            latest := Function.update t.latest (5 + n) (some t.state.nconns) } := by
        simp only [tableStep, hfree _ le_rfl, if_true]
      have run' := run.snoc trivial hstep
      rw [accepts, ← List.map_singleton (f := fun fd => TableEvent.accept fd demoAddr),
        ← List.map_append, ← List.range'_1_concat] at run'
      refine ⟨_, run', fun fd hfd => ?_⟩
      · have hne : fd ≠ 5 + n := by omega
        show (acceptClient t.state (5 + n) demoAddr).sock fd = none
        rw [sock_acceptClient, Function.update_of_ne hne]
        exact hfree fd (by omega)

/-- With 257 connections open at once, at the descriptors 5 to 261, the array is left. -/
theorem not_tableSound_257 :
    ¬ ∀ (ac : Achelper) (p : Setup) (isServer : Bool) (es : List TableEvent) (t : Tracked),
      Run (tableStep ac) Always (Tracked.init p isServer) es t → TableSound t := by
  intro h
  obtain ⟨t, run, -⟩ := run_accepts protobufWire (maxClients + 1)
  have hbound := (h protobufWire demo true _ t run).bounded
  rw [(tableKept_run protobufWire run).length, opened_accepts,
    List.dedup_eq_self.mpr (List.nodup_range' 1), List.length_range'] at hbound
  exact absurd hbound (Nat.not_succ_le_self maxClients)

end EpollChat

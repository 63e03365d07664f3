import EpollChat.Construction.Files
import EpollChat.Framework.Ledger

/-!
# The state of the program (`lib/auth.h`, `lib/client.h`, the globals of `server.c`)

Pointers to users and connections are abstract identities, and the heap is a function from
identities to records.  A freed connection keeps its record, and `freed` remembers that every
access to it is undefined.  The kernel's side is `sock`, the open connection socket at each file
descriptor, and `epoll`, the registration of each descriptor and whether it asks for `EPOLLOUT`.

Three fields are bookkeeping that no code reads.  `held` is the list of mutexes the running
step holds.  `fault` is set when a step does something that has no continuation: it locks a
mutex it already holds, or it leaves the defined behaviour of C.  `log` is the history: frames
queued, bytes written, logins, logouts and chunk registrations, in order.
-/

namespace EpollChat

/-- Identity of a `user_t`. -/
abbrev UserId := ℕ

/-- Identity of an `im_client_t`. -/
abbrev ConnId := ℕ

/-! ## History -/

/-- The output queues: the `outbuffer` of a connection and the offline `buffer` of a user. -/
inductive Queue
  | out (c : ConnId)
  | offline (u : UserId)
  deriving DecidableEq

/-- Why a response was queued. -/
inductive Why
  /-- The answer to a request. -/
  | reply
  /-- The sweep's notice to a connection it logged off. -/
  | logOff
  /-- A chat message accepted for `recipient`. -/
  | chat (recipient sender : UserId)
  /-- The announcement to `recipient` that `subject` has logged in. -/
  | loggedIn (recipient subject : UserId)
  /-- The announcement to `recipient` that `subject` has logged out. -/
  | loggedOut (recipient subject : UserId)
  deriving DecidableEq

/-- One entry of the history. -/
inductive Obs
  /-- A frame was queued, or bytes of a queue were written to a connection. -/
  | move (m : Move Queue ConnId Why UInt8)
  /-- A login on `c` returned 0 for `u`, with this password presented. -/
  | login (c : ConnId) (u : UserId) (password : Bytes)
  /-- `logoutUser` took `u` off the connection `c`. -/
  | logout (u : UserId) (c : ConnId)
  /-- `c` registered a file of this name. -/
  | regFile (c : ConnId) (filename : Bytes)
  /-- `c` registered these chunk numbers of the file of this name. -/
  | regChunks (c : ConnId) (filename : Bytes) (chunks : List UInt32)

/-- The queue moves of a history. -/
def moves (log : List Obs) : List (Move Queue ConnId Why UInt8) :=
  log.filterMap fun
    | .move m => some m
    | _ => none

@[simp] lemma moves_append (l l' : List Obs) : moves (l ++ l') = moves l ++ moves l' := by
  simp [moves]

@[simp] lemma moves_nil : moves [] = [] := rfl

@[simp] lemma moves_move (m : Move Queue ConnId Why UInt8) : moves [.move m] = [m] := rfl

/-! ## Records -/

/-- `struct sockaddr_in`, field by field as it lies in memory. -/
structure SockAddr where
  sinFamily : Bytes
  sinPort : Bytes
  sinAddr : Bytes
  sinZero : Bytes
  deriving DecidableEq

/-- The 16 bytes of a `struct sockaddr_in`. -/
def SockAddr.bytes (a : SockAddr) : Bytes := a.sinFamily ++ a.sinPort ++ a.sinAddr ++ a.sinZero

/-- `htons` of a `uint32_t` narrowed to a port, as it lies in memory. -/
def htons (port : UInt32) : Bytes :=
  [UInt8.ofNat (port.toNat / 256), UInt8.ofNat port.toNat]

/-- `user_t`. -/
structure User where
  username : Bytes
  password : Bytes
  lastLoggedIn : ℤ
  lastActive : ℤ
  lastBlocked : ℤ
  attempts : ℤ
  client : Option ConnId
  buffer : OutBuffer
  blocked : List UserId

/-- `im_client_t`, without the input buffer (see `Construction/Receive.lean`), the lock (see
`State.held`) and the close hooks, which the server never sets. -/
structure Conn where
  fd : ℕ
  user : Option UserId
  outbuffer : OutBuffer
  addr : SockAddr
  chunks : ChunkList

/-- What ends a run: a deadlock, or leaving the defined behaviour of C. -/
inductive Fault
  /-- A mutex is locked by the step that already holds it. -/
  | deadlock
  /-- A freed connection is accessed. -/
  | useAfterFree
  /-- A store outside `clients[]`. -/
  | tableOverflow
  /-- A store outside a heap block. -/
  | heapOverflow
  /-- A missing message field is dereferenced. -/
  | nullDereference
  deriving DecidableEq

/-- The state of the program. -/
structure State where
  isServer : Bool
  users : UserId → User
  nusers : ℕ
  first : List UserId
  root : Trie UInt8 (Option UserId)
  blockDuration : ℤ
  loginTimeout : ℤ
  conn : ConnId → Conn
  nconns : ℕ
  freed : List ConnId
  clients : List ConnId
  sock : ℕ → Option ConnId
  epoll : ℕ → Option Bool
  fileDb : FileTrie
  globalChunkId : UInt32
  now : ℤ
  serving : Option ConnId
  held : List ConnId
  fault : Option Fault
  log : List Obs

namespace State

/-! ## Primitive updates -/

/-- Change a user record. -/
def setUser (s : State) (u : UserId) (f : User → User) : State :=
  { s with users := Function.update s.users u (f (s.users u)) }

/-- Change a connection record. -/
def setConn (s : State) (c : ConnId) (f : Conn → Conn) : State :=
  { s with conn := Function.update s.conn c (f (s.conn c)) }

/-- Add an entry to the history. -/
def emit (s : State) (o : Obs) : State := { s with log := s.log ++ [o] }

/-- Record a fault.  The first one counts. -/
def raise (s : State) (f : Fault) : State := { s with fault := s.fault.or (some f) }

/-- Access a connection through a pointer. -/
def touch (s : State) (c : ConnId) : State :=
  if c ∈ s.freed then s.raise .useAfterFree else s

/-- `pthread_mutex_lock(&(client->lock))`: the mutex is the default, non-recursive one. -/
def lock (s : State) (c : ConnId) : State :=
  { (if c ∈ s.held then s.raise .deadlock else s) with held := c :: s.held }

/-- `pthread_mutex_unlock(&(client->lock))`. -/
def unlock (s : State) (c : ConnId) : State := { s with held := s.held.erase c }

/-- `epoll_ctl(epollfd, EPOLL_CTL_MOD, fd, …)` with `EPOLLIN`, and `EPOLLOUT` if `out`.  It fails
and changes nothing when the descriptor is not registered. -/
def epollMod (s : State) (fd : ℕ) (out : Bool) : State :=
  match s.epoll fd with
  | some _ => { s with epoll := Function.update s.epoll fd (some out) }
  | none => s

/-! ## Output queues -/

/-- The buffer of an output queue. -/
def buf (s : State) : Queue → OutBuffer
  | .out c => (s.conn c).outbuffer
  | .offline u => (s.users u).buffer

/-- The bytes waiting in an output queue. -/
def pending (s : State) (q : Queue) : Bytes := (s.buf q).pending

/-- Replace the buffer of an output queue. -/
def setBuf (s : State) (q : Queue) (b : OutBuffer) : State :=
  match q with
  | .out c => s.setConn c fun k => { k with outbuffer := b }
  | .offline u => s.setUser u fun v => { v with buffer := b }

/-- The connection is open: the kernel has its socket at its descriptor. -/
def IsOpen (s : State) (c : ConnId) : Prop := s.sock (s.conn c).fd = some c

instance (s : State) (c : ConnId) : Decidable (s.IsOpen c) := by
  unfold IsOpen
  infer_instance

/-! ## Reads after the primitive updates -/

section Reads

variable (s : State)

@[simp] lemma users_touch (c : ConnId) : (s.touch c).users = s.users := by
  unfold touch
  split <;> rfl

@[simp] lemma conn_touch (c : ConnId) : (s.touch c).conn = s.conn := by
  unfold touch
  split <;> rfl

@[simp] lemma log_touch (c : ConnId) : (s.touch c).log = s.log := by
  unfold touch
  split <;> rfl

@[simp] lemma epoll_touch (c : ConnId) : (s.touch c).epoll = s.epoll := by
  unfold touch
  split <;> rfl

@[simp] lemma sock_touch (c : ConnId) : (s.touch c).sock = s.sock := by
  unfold touch
  split <;> rfl

@[simp] lemma held_touch (c : ConnId) : (s.touch c).held = s.held := by
  unfold touch
  split <;> rfl

@[simp] lemma users_lock (c : ConnId) : (s.lock c).users = s.users := by
  unfold lock
  split <;> rfl

@[simp] lemma conn_lock (c : ConnId) : (s.lock c).conn = s.conn := by
  unfold lock
  split <;> rfl

@[simp] lemma log_lock (c : ConnId) : (s.lock c).log = s.log := by
  unfold lock
  split <;> rfl

@[simp] lemma epoll_lock (c : ConnId) : (s.lock c).epoll = s.epoll := by
  unfold lock
  split <;> rfl

@[simp] lemma sock_lock (c : ConnId) : (s.lock c).sock = s.sock := by
  unfold lock
  split <;> rfl

@[simp] lemma held_lock (c : ConnId) : (s.lock c).held = c :: s.held := rfl

@[simp] lemma users_epollMod (fd : ℕ) (out : Bool) : (s.epollMod fd out).users = s.users := by
  unfold epollMod
  split <;> rfl

@[simp] lemma conn_epollMod (fd : ℕ) (out : Bool) : (s.epollMod fd out).conn = s.conn := by
  unfold epollMod
  split <;> rfl

@[simp] lemma log_epollMod (fd : ℕ) (out : Bool) : (s.epollMod fd out).log = s.log := by
  unfold epollMod
  split <;> rfl

@[simp] lemma held_epollMod (fd : ℕ) (out : Bool) : (s.epollMod fd out).held = s.held := by
  unfold epollMod
  split <;> rfl

@[simp] lemma fault_epollMod (fd : ℕ) (out : Bool) : (s.epollMod fd out).fault = s.fault := by
  unfold epollMod
  split <;> rfl

/-- `epoll_ctl` with `EPOLL_CTL_MOD` changes the registration there is. -/
lemma epoll_epollMod (fd : ℕ) (out : Bool) (fd' : ℕ) :
    (s.epollMod fd out).epoll fd' =
      if fd' = fd then (s.epoll fd').map fun _ => out else s.epoll fd' := by
  unfold epollMod
  cases h : s.epoll fd with
  | none =>
      by_cases hfd : fd' = fd
      · simp [hfd, h]
      · simp [hfd]
  | some b =>
      by_cases hfd : fd' = fd
      · simp [hfd, h]
      · simp [hfd]

@[simp] lemma log_setBuf (q : Queue) (b : OutBuffer) : (s.setBuf q b).log = s.log := by
  cases q <;> rfl

@[simp] lemma epoll_setBuf (q : Queue) (b : OutBuffer) : (s.setBuf q b).epoll = s.epoll := by
  cases q <;> rfl

@[simp] lemma held_setBuf (q : Queue) (b : OutBuffer) : (s.setBuf q b).held = s.held := by
  cases q <;> rfl

@[simp] lemma fault_setBuf (q : Queue) (b : OutBuffer) : (s.setBuf q b).fault = s.fault := by
  cases q <;> rfl

@[simp] lemma fd_setBuf (q : Queue) (b : OutBuffer) (c : ConnId) :
    ((s.setBuf q b).conn c).fd = (s.conn c).fd := by
  cases q with
  | offline u => rfl
  | out d =>
      by_cases h : c = d
      · subst h
        simp [setBuf, setConn]
      · simp [setBuf, setConn, h]

lemma buf_congr {s s' : State} (hu : s'.users = s.users) (hc : s'.conn = s.conn) (q : Queue) :
    s'.buf q = s.buf q := by
  cases q <;> simp [buf, hu, hc]

lemma pending_congr {s s' : State} (hu : s'.users = s.users) (hc : s'.conn = s.conn)
    (q : Queue) : s'.pending q = s.pending q := by
  rw [pending, pending, buf_congr hu hc]

@[simp] lemma pending_raise (f : Fault) (q : Queue) : (s.raise f).pending q = s.pending q :=
  pending_congr rfl rfl q

@[simp] lemma pending_touch (c : ConnId) (q : Queue) : (s.touch c).pending q = s.pending q :=
  pending_congr (users_touch s c) (conn_touch s c) q

@[simp] lemma pending_lock (c : ConnId) (q : Queue) : (s.lock c).pending q = s.pending q :=
  pending_congr (users_lock s c) (conn_lock s c) q

@[simp] lemma pending_unlock (c : ConnId) (q : Queue) : (s.unlock c).pending q = s.pending q :=
  pending_congr rfl rfl q

@[simp] lemma pending_emit (o : Obs) (q : Queue) : (s.emit o).pending q = s.pending q :=
  pending_congr rfl rfl q

@[simp] lemma pending_epollMod (fd : ℕ) (out : Bool) (q : Queue) :
    (s.epollMod fd out).pending q = s.pending q :=
  pending_congr (users_epollMod s fd out) (conn_epollMod s fd out) q

lemma buf_setBuf (q : Queue) (b : OutBuffer) (q' : Queue) :
    (s.setBuf q b).buf q' = if q' = q then b else s.buf q' := by
  cases q with
  | out c =>
      cases q' with
      | out d => by_cases h : d = c <;> simp [setBuf, setConn, buf, h]
      | offline v => simp [setBuf, setConn, buf]
  | offline u =>
      cases q' with
      | out d => simp [setBuf, setUser, buf]
      | offline v => by_cases h : v = u <;> simp [setBuf, setUser, buf, h]

lemma pending_setUser (u : UserId) {f : User → User} (h : ∀ v, (f v).buffer = v.buffer)
    (q : Queue) : (s.setUser u f).pending q = s.pending q := by
  cases q with
  | out c => rfl
  | offline v =>
      by_cases hv : v = u
      · subst hv
        simp [pending, buf, setUser, h]
      · simp [pending, buf, setUser, hv]

lemma pending_setConn (c : ConnId) {f : Conn → Conn} (h : ∀ k, (f k).outbuffer = k.outbuffer)
    (q : Queue) : (s.setConn c f).pending q = s.pending q := by
  cases q with
  | offline u => rfl
  | out d =>
      by_cases hd : d = c
      · subst hd
        simp [pending, buf, setConn, h]
      · simp [pending, buf, setConn, hd]

lemma pending_setBuf (q : Queue) (b : OutBuffer) (q' : Queue) :
    (s.setBuf q b).pending q' = if q' = q then b.pending else s.pending q' := by
  rw [pending, buf_setBuf]
  split <;> rfl

end Reads

end State

end EpollChat

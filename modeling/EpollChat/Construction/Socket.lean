import EpollChat.Construction.State

/-!
# Sessions and sockets (`lib/auth.c`, `lib/socket.c`)

The functions that tie users to connections and put responses into the output queues.  The two
source files call each other, so they are one module here: queueing a response asks whether the
user is logged in, and logging a user in or out queues announcements.

`time(NULL)` is `State.now`, the same throughout a step.
-/

namespace EpollChat

variable (ac : Achelper)

/-! ## The user store -/

/-- `addUser`. -/
def addUser (s : State) (username password : Bytes) : State × UserId :=
  let newuser : User :=
    { username := cstr username, password := cstr password
      lastLoggedIn := -1, lastActive := -1, lastBlocked := -1, attempts := 0
      client := none, blocked := [], buffer := OutBuffer.init }
  let u := s.nusers
  ({ s with
      users := Function.update s.users u newuser
      nusers := u + 1
      first := u :: s.first
      root := s.root.update none (fun _ => some u) (cstr username) }, u)

/-- `findUser`. -/
def findUser (s : State) (username : Bytes) : Option UserId :=
  (s.root.find (cstr username)).join

/-- `isUserLoggedIn`. -/
def isUserLoggedIn (s : State) : Option UserId → Bool
  | none => false
  | some u =>
      match (s.users u).client with
      | none => false
      | some _ => (s.users u).lastActive + s.loginTimeout > s.now

lemma isUserLoggedIn_eq_true {s : State} {u : UserId} :
    isUserLoggedIn s (some u) = true ↔
      (∃ c, (s.users u).client = some c) ∧ (s.users u).lastActive + s.loginTimeout > s.now := by
  cases hc : (s.users u).client <;> simp [isUserLoggedIn, hc]

/-- `hasBlockedUser`. -/
def hasBlockedUser (s : State) (blocker u : UserId) : Bool := (s.users blocker).blocked.contains u

/-- `blockUser`. -/
def blockUser (s : State) (blocker u : UserId) : State :=
  if u = blocker then s
  else if hasBlockedUser s blocker u then s
  else s.setUser blocker fun v => { v with blocked := u :: v.blocked }

/-- The loop of `unblockUser`.  It steps past the node after a removed one without looking at
it. -/
def unblockLoop (u : UserId) : List UserId → List UserId
  | [] => []
  | v :: rest =>
      if v = u then
        match rest with
        | [] => []
        | w :: rest => w :: unblockLoop u rest
      else v :: unblockLoop u rest

/-- `unblockUser`. -/
def unblockUser (s : State) (blocker u : UserId) : State :=
  s.setUser blocker fun v => { v with blocked := unblockLoop u v.blocked }

/-! ## Queueing responses -/

/-- `send_response` on an output queue. -/
def sendResponseTo (s : State) (q : Queue) (why : Why) (msg : IMResponse) : State :=
  let bytes := encodeIMResponseToBytes ac msg
  (s.setBuf q ((s.buf q).append bytes)).emit (.move (.put q why bytes))

/-- `send_response_to_client`. -/
def sendResponseToClient (s : State) (c : ConnId) (why : Why) (msg : IMResponse) : State :=
  let s := (s.touch c).lock c
  let s := sendResponseTo ac s (.out c) why msg
  let s := s.epollMod (s.conn c).fd true
  s.unlock c

/-- `send_response_to_user`. -/
def sendResponseToUser (s : State) (u : UserId) (why : Why) (msg : IMResponse) : State :=
  match (s.users u).client with
  | some c =>
      if isUserLoggedIn s (some u) then sendResponseToClient ac s c why msg
      else sendResponseTo ac s (.offline u) why msg
  | none => sendResponseTo ac s (.offline u) why msg

/-- The loop of `login` and `logoutUser` that tells the other users: everyone logged in whom
`subject` has not blocked. -/
def announce (subject : UserId) (why : UserId → Why) (rsp : IMResponse) (s : State) : State :=
  s.first.foldl
    (fun s v =>
      if v ≠ subject ∧ isUserLoggedIn s (some v) ∧ ¬ hasBlockedUser s subject v then
        sendResponseToUser ac s v (why v) rsp
      else s) s

/-! ## Logging in and out -/

/-- `login`: the result code, and the user it stored through the pointer.
0: success; 1: user not found; 2: user blocked; 3: wrong password; 4: another session is in
place. -/
def login (s : State) (username password : Bytes) : State × ℕ × Option UserId :=
  let ct := s.now
  match findUser s username with
  | none => (s, 1, none)
  | some u =>
      if ct < (s.users u).lastBlocked then (s, 2, some u)
      else if (s.users u).password ≠ cstr password then
        let s := s.setUser u fun v => { v with attempts := v.attempts + 1 }
        if (s.users u).attempts = 3 then
          (s.setUser u fun v => { v with lastBlocked := ct + s.blockDuration, attempts := 0 },
            2, some u)
        else (s, 3, some u)
      else if isUserLoggedIn s (some u) then (s, 4, some u)
      else
        let s := s.setUser u fun v =>
          { v with attempts := 0, lastActive := s.now, lastLoggedIn := s.now }
        let rsp :=
          encodeTextResponseToIMResponse ac (cstr username ++ text " has logged in") true
        (announce ac u (.loggedIn · u) rsp s, 0, some u)

/-- `logoutUser`. -/
def logoutUser (s : State) : Option UserId → State
  | none => s
  | some u =>
      match (s.users u).client with
      | none => s
      | some c =>
          let s := (s.touch c).setConn c fun k => { k with user := none }
          let s := s.setUser u fun v => { v with client := none }
          let s := s.emit (.logout u c)
          if !s.isServer then s
          else
            let rsp :=
              encodeTextResponseToIMResponse ac ((s.users u).username ++ text " has logged out")
                true
            announce ac u (.loggedOut · u) rsp s

/-! ## Sockets -/

/-- `close_socket`.  `EPOLL_CTL_DEL` and `close` fail on a descriptor that is not open. -/
def closeSocket (s : State) (c : ConnId) : State :=
  let s := (s.touch c).lock c
  let s := logoutUser ac s (s.conn c).user
  let fd := (s.conn c).fd
  let s :=
    { s with
      epoll := Function.update s.epoll fd none
      sock := Function.update s.sock fd none }
  s.unlock c

/-- The bookkeeping of `im_send_buffer` on a queue of which `send` took `nsent` of `len` bytes. -/
def imSendBufferDone (s : State) (c : ConnId) (q : Queue) (len nsent : ℕ) : State :=
  let s := if len - nsent = 0 then s.epollMod (s.conn c).fd false else s
  s.setBuf q ((s.buf q).consume nsent)

/-- `im_send_buffer` on an output queue, with the result of `send` (`none` for -1).  With nothing
to send, `send` is not called. -/
def imSendBuffer (s : State) (c : ConnId) (q : Queue) (nsent : Option ℕ) : State :=
  let len := (s.pending q).length
  if len > 0 then
    match nsent with
    | none => s
    | some nsent =>
        imSendBufferDone (s.emit (.move (.take q c ((s.pending q).take nsent)))) c q len nsent
  else imSendBufferDone s c q len 0

/-- `pick_client` without `createNew`: the index of the first entry with this descriptor. -/
def pickClient (s : State) (sockfd : ℕ) : Option ℕ :=
  s.clients.findIdx? fun c => (s.conn c).fd = sockfd

/-- `MAX_CLIENTS`. -/
def maxClients : ℕ := 256

/-- The record `im_connection_accept` makes. -/
def newConn (sockfd : ℕ) (addr : SockAddr) : Conn :=
  { fd := sockfd, user := none, outbuffer := OutBuffer.init, addr, chunks := ChunkList.empty }

/-- `clients[pick_client(clients, fd, &nclients, true)] = im_connection_accept(epollfd, fd, addr)`:
an entry with the same descriptor is freed and its slot reused, otherwise the table grows. -/
def acceptClient (s : State) (sockfd : ℕ) (addr : SockAddr) : State :=
  let c := s.nconns
  let s :=
    match pickClient s sockfd with
    | some i => { s with clients := s.clients.set i c, freed := s.clients.getD i c :: s.freed }
    | none =>
        let s := if s.clients.length < maxClients then s else s.raise .tableOverflow
        { s with clients := s.clients ++ [c] }
  { s with
    conn := Function.update s.conn c (newConn sockfd addr)
    nconns := c + 1
    sock := Function.update s.sock sockfd (some c)
    epoll := Function.update s.epoll sockfd (some false) }

end EpollChat

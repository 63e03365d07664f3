import EpollChat.Construction.Receive

/-!
# The client program (`client.c`, `clientlib/`)

The client has the user store, the table of connections and the socket functions of `lib/` in
common with the server, so its state is a `State` with `isServer` false.  Its users are the peers
it has private sessions with, `p2pdb`.  Its first connection is the one to the server.

Two threads share the state.  `network_thread` handles the events of the sockets, and
`input_thread` asks for a login until `lastresponse` is set and then reads commands.  The mutex
`loginlock` is locked by the second and unlocked by the first, after every read.  A step is one
action of either thread; reading is split at the granularity of the handler, as for the server.

What the user types is an event, and so is what the kernel and the file system answer.
-/

namespace EpollChat

variable (ac : Achelper)

/-! ## Responses -/

/-- `parseIMResponseFromProtobufMsg`. -/
def parseIMResponseFromProtobufMsg (msg : ProtobufMessage) : Option IMResponse := do
  let type ← uint32Field msg 1
  let success ← boolField msg 2
  let value ← bytesField msg 3
  return { type, success, value }

/-- A parsed response: the six types of `response.proto`, and any other. -/
inductive Response
  | text (msg : Bytes)
  | exit (msg : Bytes)
  | getip (username addr : Bytes)
  | privateRegistration (username : Bytes)
  | chunkDataRequest (filename : Bytes) (chunk : UInt32)
  | chunkDataResponse (filename : Bytes) (chunk : UInt32) (data : Bytes)
  | unknown (type : UInt32)
  deriving DecidableEq

/-- The switch of `parse_response`, up to the parser each case calls. -/
def parseResponse (imrsp : IMResponse) : Option Response := do
  let msg := ac.decodeProtobufMsg imrsp.value
  match imrsp.type with
  | 1 => return .text (← bytesField (← msg) 1)
  | 2 => return .exit (← bytesField (← msg) 1)
  | 3 => return .getip (← bytesField (← msg) 1) (← bytesField (← msg) 2)
  | 4 => return .privateRegistration (← bytesField (← msg) 1)
  | 5 => return .chunkDataRequest (← bytesField (← msg) 1) (← uint32Field (← msg) 2)
  | 6 =>
      return .chunkDataResponse (← bytesField (← msg) 1) (← uint32Field (← msg) 2)
        (← bytesField (← msg) 3)
  | type => return .unknown type

/-! ## Requests -/

/-- `encodeIMRequestToBytes`. -/
def encodeIMRequestToBytes (req : IMRequest) : Bytes :=
  ac.encodeProtobufMsg [⟨1, .varint req.type.toNat⟩, ⟨2, .bytes req.value⟩]

/-- `send_request`. -/
def sendRequest (s : State) (c : ConnId) (req : IMRequest) : State :=
  s.setBuf (.out c) ((s.buf (.out c)).append (encodeIMRequestToBytes ac req))

/-- `clients[0]`, the connection to the server. -/
def serverConn : ConnId := 0

/-- `send_request` to the server, under the lock of the connection. -/
def askServer (s : State) (req : IMRequest) : State :=
  (sendRequest ac (s.lock serverConn) serverConn req).unlock serverConn

/-- `epoll_do_send_buffer`. -/
def epollDoSendBuffer (s : State) : State := s.epollMod (s.conn serverConn).fd true

/-- The request `cmd_login_impl` makes. -/
def loginRequest (username password : Bytes) (port : UInt32) : IMRequest :=
  { type := 1
    value := ac.encodeProtobufMsg
      [⟨1, .bytes username⟩, ⟨2, .bytes (cstr password)⟩, ⟨3, .varint port.toNat⟩] }

/-- The request `cmd_startprivate_impl` makes. -/
def startprivateRequest (username : Bytes) : IMRequest :=
  { type := 7, value := ac.encodeProtobufMsg [⟨1, .bytes (cstr username)⟩] }

/-- The request with which `writeFile` registers a chunk it has stored. -/
def registerChunkRequest (filename : Bytes) (chunk : UInt32) : IMRequest :=
  { type := 9
    value := ac.encodeProtobufMsg
      [⟨1, .bytes (cstr filename)⟩,
        ⟨2, .bytes [chunk.toUInt8, (chunk >>> 8).toUInt8, (chunk >>> 16).toUInt8,
          (chunk >>> 24).toUInt8]⟩] }

/-! ## Private sessions -/

/-- `findOrAddUser`. -/
def findOrAddUser (s : State) (username : Bytes) : State × UserId :=
  match findUser s username with
  | some u => (s, u)
  | none => addUser s username []

/-- `user->client = client; client->user = user`. -/
def linkUser (s : State) (u : UserId) (c : ConnId) : State :=
  (s.setUser u fun v => { v with client := some c }).setConn c fun k => { k with user := some u }

/-- The response that tells a peer who has connected.  `%s` prints NULL as "(null)". -/
def privateRegistrationResponse (loggedInUserName : Option Bytes) : IMResponse :=
  { type := 4, success := true
    value := ac.encodeProtobufMsg [⟨1, .bytes (loggedInUserName.getD (text "(null)"))⟩] }

/-- `memcpy(&client_addr, gr->addr.value, sizeof(struct sockaddr_in))`. -/
def SockAddr.ofBytes (b : Bytes) : SockAddr :=
  ⟨b.take 2, (b.drop 2).take 2, (b.drop 4).take 4, (b.drop 8).take 8⟩

/-- Case 3 of `parse_response`, once `connect` has succeeded on the descriptor `sock`. -/
def gotPrivateAddr (s : State) (loggedInUserName : Option Bytes) (sock : ℕ)
    (username addr : Bytes) : State :=
  let c := s.nconns
  let s := acceptClient s sock (SockAddr.ofBytes addr)
  let (s, nu) := findOrAddUser s username
  let s := linkUser s nu c
  sendResponseToClient ac s c .reply (privateRegistrationResponse ac loggedInUserName)

/-- Case 4 of `parse_response`. -/
def gotPrivateRegistration (s : State) (c : ConnId) (username : Bytes) : State :=
  let (s, user) := findOrAddUser s username
  linkUser s user c

/-- The connection of the private session with a user: `findUser(p2pdb, username)->client`. -/
def privateConn (s : State) (username : Bytes) : Option ConnId :=
  (findUser s username).bind fun u => (s.users u).client

/-! ## File chunks -/

/-- `getChunkDataResponse`, with what is read from the chunk file if it can be opened. -/
def getChunkDataResponse (loggedInUserName : Option Bytes) (filename : Bytes) (chunk : UInt32)
    (stored : Option Bytes) : IMResponse :=
  match stored with
  | none =>
      encodeTextToIMResponse ac
        (loggedInUserName.getD (text "(null)") ++ text " (private): chunk " ++
          decimal chunk.toNat ++ text " for file " ++ cstr filename ++
          text " does not exist on my end") false
  | some data =>
      { type := 6, success := true
        value := ac.encodeProtobufMsg
          [⟨1, .bytes (cstr filename)⟩, ⟨2, .varint chunk.toNat⟩, ⟨3, .bytes data⟩] }

/-! ## The program -/

/-- Where `input_thread` is. -/
inductive InputPhase
  /-- At `pthread_mutex_lock(&loginlock)`. -/
  | locking
  /-- At `if (lastresponse) break`. -/
  | checking
  /-- In `got_command("login", 5)`. -/
  | asking
  /-- In the second loop. -/
  | reading
  deriving DecidableEq

/-- What happened to the logins. -/
inductive LoginObs
  /-- A login request was queued. -/
  | asked
  /-- The server's answer to a login request was handled. -/
  | answered (success : Bool)
  /-- The input thread left the login loop. -/
  | entered
  deriving DecidableEq

/-- The state of the client.  `logins` is bookkeeping. -/
structure Client where
  program : State
  listenPort : UInt32
  loggedInUserName : Option Bytes
  lastresponse : Bool
  /-- `loginlock` is locked. -/
  loginlock : Bool
  input : InputPhase
  /-- The program has ended. -/
  exited : Bool
  logins : List LoginObs

/-- What the kernel and the file system answer while a response is handled. -/
structure Answers where
  /-- The descriptor on which `connect` succeeds. -/
  connected : Option ℕ
  /-- What is read from the chunk file. -/
  stored : Option Bytes
  /-- The chunk file can be opened for writing. -/
  writable : Bool

/-- A typed command.  What the server is asked for by the other commands is given by the
request. -/
inductive Command
  /-- `login`, and what is typed at the two prompts. -/
  | login (username password : Bytes)
  | startprivate (username : Bytes)
  | stopprivate (username : Bytes)
  /-- `private`, with the message or the request for a chunk. -/
  | privateTo (username : Bytes) (rsp : IMResponse)
  /-- A command that sends a request to the server, or fails. -/
  | other (req : Option IMRequest)

/-- What happens in the client. -/
inductive ClientEvent
  | accept (fd : ℕ) (addr : SockAddr)
  | hangup (fd : ℕ)
  /-- `EPOLLIN` on `fd`, where `recv` returns 0. -/
  | eof (fd : ℕ)
  /-- `EPOLLIN` on `fd`, where `recv` returns data: the receive loop begins. -/
  | readable (fd : ℕ)
  /-- The receive loop calls the handler on the next response.  `answers` tells whether the
  response is the server's answer to the oldest login request not yet answered. -/
  | response (success : Bool) (rsp : Response) (env : Answers) (answers : Bool)
  /-- The receive loop ends, and `loginlock` is unlocked. -/
  | readDone
  | writable (fd : ℕ) (nsent : Option ℕ)
  /-- The input thread gets `loginlock`. -/
  | lock
  /-- The input thread tests `lastresponse`. -/
  | check
  /-- The input thread sends a login request. -/
  | ask (username password : Bytes)
  /-- The input thread executes a command. -/
  | command (cmd : Command)

namespace Client

/-- `close_socket`.  The `close_callback` of the connection to the server ends the program. -/
def close (k : Client) (c : ConnId) : Client :=
  { k with program := closeSocket ac k.program c, exited := k.exited || c == serverConn }

/-- `cmd_login_impl`, and the queueing of its request.  The name is asked for the first time
only. -/
def login (k : Client) (username password : Bytes) : Client :=
  let username := k.loggedInUserName.getD (cstr username)
  { k with
    program := askServer ac k.program (loginRequest ac username password k.listenPort)
    loggedInUserName := some username
    logins := k.logins ++ [.asked] }

/-- `parse_response` on a parsed response. -/
def handleResponse (k : Client) (c : ConnId) (rsp : Response) (env : Answers) : Client :=
  match rsp with
  | .text _ => k
  | .exit _ => { k with exited := true }
  | .getip username addr =>
      match env.connected with
      | none => k
      | some sock =>
          { k with program := gotPrivateAddr ac k.program k.loggedInUserName sock username addr }
  | .privateRegistration username =>
      { k with program := gotPrivateRegistration k.program c username }
  | .chunkDataRequest filename chunk =>
      { k with
        program := sendResponseToClient ac k.program c .reply
          (getChunkDataResponse ac k.loggedInUserName filename chunk env.stored) }
  | .chunkDataResponse filename chunk _ =>
      if env.writable then
        { k with
          program :=
            epollDoSendBuffer (askServer ac k.program (registerChunkRequest ac filename chunk)) }
      else k
  | .unknown _ => k

/-- `parse_command` on a parsed command. -/
def parseCommand (k : Client) : Command → Client
  | .login username password => k.login ac username password
  | .startprivate username =>
      { k with program := askServer ac k.program (startprivateRequest ac username) }
  | .stopprivate username =>
      match privateConn k.program username with
      | none => k
      | some c => k.close ac c
  | .privateTo username rsp =>
      match privateConn k.program username with
      | none => k
      | some c => { k with program := sendResponseToClient ac k.program c .reply rsp }
  | .other none => k
  | .other (some req) => { k with program := askServer ac k.program req }

/-- `got_command` on a parsed command. -/
def gotCommand (k : Client) (cmd : Command) : Client :=
  let k := k.parseCommand ac cmd
  { k with program := epollDoSendBuffer k.program }

/-- The number of login requests that the server has not answered. -/
def unanswered (log : List LoginObs) : ℕ :=
  log.count .asked - (log.count (.answered true) + log.count (.answered false))

/-- The conditions under which an event can happen. -/
def enabled (k : Client) : ClientEvent → Prop
  | .accept fd _ => k.program.serving = none ∧ k.program.sock fd = none
  | .hangup fd => k.program.serving = none ∧ k.program.sock fd ≠ none
  | .eof fd => k.program.serving = none ∧ k.program.sock fd ≠ none
  | .readable fd => k.program.serving = none ∧ k.program.sock fd ≠ none
  | .response _ _ env answers =>
      k.program.serving ≠ none ∧ (∀ fd ∈ env.connected, k.program.sock fd = none) ∧
        (answers = true → k.program.serving = some serverConn ∧ 0 < unanswered k.logins)
  | .readDone => k.program.serving ≠ none
  | .writable fd nsent =>
      k.program.serving = none ∧ k.program.sock fd ≠ none ∧ k.program.epoll fd = some true ∧
        ∀ c ∈ pickConn k.program fd, sendResult (k.program.pending (.out c)).length nsent
  | .lock => k.input = .locking ∧ k.loginlock = false
  | .check => k.input = .checking
  | .ask .. => k.input = .asking
  | .command _ => k.input = .reading

instance decidableEnabled (k : Client) (e : ClientEvent) : Decidable (k.enabled e) :=
  match e with
  | .accept .. | .hangup _ | .eof _ | .readable _ | .response .. | .readDone | .writable ..
  | .lock | .check | .ask .. | .command _ => by
      dsimp only [enabled]
      infer_instance

/-- What an event does.  After a read of a connection that has an entry `loginlock` is
unlocked. -/
def exec (k : Client) : ClientEvent → Client
  | .accept fd addr => { k with program := acceptClient k.program fd addr }
  | .hangup fd =>
      match pickConn k.program fd with
      | some c => k.close ac c
      | none => k
  | .eof fd =>
      match pickConn k.program fd with
      | some c => { k.close ac c with loginlock := false }
      | none => k
  | .readable fd =>
      { k with program := { k.program with serving := pickConn k.program fd } }
  | .response success rsp env answers =>
      let logins := if answers then k.logins ++ [.answered success] else k.logins
      let k := { k with lastresponse := success, logins }
      match k.program.serving with
      | some c => k.handleResponse ac c rsp env
      | none => k
  | .readDone => { k with program := { k.program with serving := none }, loginlock := false }
  | .writable fd nsent =>
      match pickConn k.program fd with
      | some c =>
          { k with
            program := (imSendBuffer (k.program.lock c) c (.out c) nsent).unlock c }
      | none => k
  | .lock => { k with loginlock := true, input := .checking }
  | .check =>
      if k.lastresponse then
        { k with input := .reading, logins := k.logins ++ [.entered] }
      else { k with input := .asking }
  | .ask username password =>
      { k.gotCommand ac (.login username password) with input := .locking }
  | .command cmd => k.gotCommand ac cmd

/-- The transition function: the program has not ended, the event is enabled, and handling it
raises no fault. -/
def step (k : Client) (e : ClientEvent) : Option Client :=
  if k.exited = false ∧ k.enabled e ∧ (k.exec ac e).program.fault = none then
    some (k.exec ac e)
  else none

/-- The state before `main` connects, with an empty user store. -/
def blank : State := { State.blank 0 0 0 with isServer := false }

/-- The client when its threads start: connected to the server at the descriptor `sock`. -/
def init (sock : ℕ) (serverAddress : SockAddr) (listenPort : UInt32) : Client where
  program := acceptClient blank sock serverAddress
  listenPort := listenPort
  loggedInUserName := none
  lastresponse := false
  loginlock := false
  input := .locking
  exited := false
  logins := []

/-! ## The receive loop -/

/-- The decoder of `parse_response`. -/
def decodeResponse : Decoder UInt8 ProtobufMessage := fun cmd =>
  ac.decodeProtobufMsgWithNFields cmd 3

/-- `parse_response` from the decoded message on.  `env` gives what is answered while it runs, and
whether the server answers a login with the response. -/
def runResponse (env : Client → Response → Answers × Bool) (k : Client) (msg : ProtobufMessage) :
    Client × Option IMResponse :=
  match parseIMResponseFromProtobufMsg msg with
  | none => ({ k with program := k.program.raise .nullDereference }, none)
  | some imrsp =>
      match parseResponse ac imrsp with
      | none => ({ k with program := k.program.raise .nullDereference }, none)
      | some rsp =>
          (k.exec ac (.response imrsp.success rsp (env k rsp).1 (env k rsp).2), none)

/-- The receiver of a connection of the client. -/
def receiver (env : Client → Response → Answers × Bool) (c : ConnId) : Receiver Client where
  handler := decodingHandler (decodeResponse ac) (runResponse ac env)
  respond k rsp := { k with program := sendResponseToClient ac k.program c .reply rsp }
  close k := k.close ac c

end Client

end EpollChat

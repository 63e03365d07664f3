import EpollChat.Construction.Socket

/-!
# The server's commands (`serverlib/commands/*.c`)

Every command is a function from the state, the connection the request came on and the parsed
request to the new state and the response, if there is one.  The response is queued by the
caller (`im_receive_command`), not by the command.
-/

namespace EpollChat

variable (ac : Achelper)

/-- "You are not logged in", the answer to every request but a login on a connection without a
session. -/
def notLoggedIn : IMResponse :=
  encodeTextToIMResponse ac (text "You are not logged in") false

/-! ## Login and logout -/

/-- `cmd_login_impl`. -/
def cmdLoginImpl (s : State) (c : ConnId) (req : LoginRequest) : State × Option IMResponse :=
  match login ac s req.username req.password with
  | (s, 0, some user) =>
      let s := s.setConn c fun k => { k with user := some user }
      let s := s.setUser user fun v => { v with client := some c }
      let s := s.emit (.login c user (cstr req.password))
      let s := s.setConn c fun k => { k with addr := { k.addr with sinPort := htons req.port } }
      (s, some (encodeTextResponseToIMResponse ac
        (text "Welcome " ++ (s.users user).username ++ text "!") true))
  | (s, 1, _) => (s, some (encodeExitTextToIMResponse ac (text "user does not exist") false))
  | (s, 3, _) => (s, some (encodeTextToIMResponse ac (text "password is wrong") false))
  | (s, 2, _) =>
      (s, some (encodeExitTextToIMResponse ac (text "you are blocked! try again later") false))
  | (s, 4, _) =>
      (s, some (encodeExitTextToIMResponse ac (text "another session is in place") false))
  | (s, _, _) => (s, none)

/-- `cmd_logout_impl`. -/
def cmdLogoutImpl (s : State) (c : ConnId) : State × Option IMResponse :=
  if !isUserLoggedIn s (s.conn c).user then (s, some (notLoggedIn ac))
  else (closeSocket ac s c, none)

/-! ## Messages -/

/-- `sendMessage`. -/
def sendMessage (s : State) (recipient sender : UserId) (msg : Bytes) : State × Bool :=
  if hasBlockedUser s recipient sender then (s, false)
  else
    let rsp :=
      encodeTextResponseToIMResponse ac ((s.users sender).username ++ text ": " ++ cstr msg) true
    (sendResponseToUser ac s recipient (.chat recipient sender) rsp, true)

/-- One round of the broadcast loop of `cmd_message_impl`. -/
def broadcastOne (sender : UserId) (msg : Bytes) (acc : State × Bool) (v : UserId) :
    State × Bool :=
  if v ≠ sender ∧ isUserLoggedIn acc.1 (some v) then
    let (s, sent) := sendMessage ac acc.1 v sender msg
    (s, acc.2 && sent)
  else acc

/-- The broadcast loop of `cmd_message_impl`. -/
def broadcastLoop (s : State) (sender : UserId) (msg : Bytes) : State × Bool :=
  s.first.foldl (broadcastOne ac sender msg) (s, true)

/-- `cmd_message_impl`. -/
def cmdMessageImpl (s : State) (c : ConnId) (req : MessageRequest) :
    State × Option IMResponse :=
  match (s.conn c).user with
  | none => (s, some (notLoggedIn ac))
  | some sender =>
      if !isUserLoggedIn s (some sender) then (s, some (notLoggedIn ac))
      else if req.broadcast then
        let (s, success) := broadcastLoop ac s sender req.msg
        if !success then
          (s, some (encodeTextToIMResponse ac
            (text "Your message could not be delivered to some of the recipients.") false))
        else (s, none)
      else
        match findUser s req.username with
        | none =>
            (s, some (encodeTextToIMResponse ac
              (text "Recipient user does not exist on server.") false))
        | some user =>
            let (s, sent) := sendMessage ac s user sender req.msg
            if !sent then
              (s, some (encodeTextToIMResponse ac
                (text ("Your message couldn't be delivered because the recipient has " ++
                  "blocked you")) false))
            else (s, none)

/-! ## Who is online -/

/-- `loggedInUsersAfterTime`. -/
def loggedInUsersAfterTime (s : State) (threshold : ℤ) (currentlyOnline : Bool)
    (exclude : Option UserId) : List UserId :=
  s.first.filter fun u =>
    some u ≠ exclude ∧ (s.users u).lastActive ≥ threshold ∧
      (!currentlyOnline || isUserLoggedIn s (some u))

/-- `loggedInUsersInPastSeconds`. -/
def loggedInUsersInPastSeconds (s : State) (seconds : ℤ) (currentlyOnline : Bool)
    (exclude : Option UserId) : List UserId :=
  loggedInUsersAfterTime s (s.now - seconds) currentlyOnline exclude

/-- `loggedInUsers`. -/
def loggedInUsers (s : State) (currentlyOnline : Bool) (exclude : Option UserId) :
    List UserId :=
  loggedInUsersAfterTime s 0 currentlyOnline exclude

/-- The string `userLinkedListToString` writes; `NULL` for the empty list. -/
def userLinkedListToString (names : List Bytes) (separator : Bytes) : Option Bytes :=
  match names with
  | [] => none
  | names =>
      some (names.foldl (fun nxt name => (if nxt = [] then nxt else nxt ++ separator) ++ name) [])

/-- The names of a list of users. -/
def usernames (s : State) (list : List UserId) : List Bytes := list.map fun u => (s.users u).username

/-- `cmd_whoelse_impl`.  The `uint32` number of seconds becomes an `int`. -/
def cmdWhoelseImpl (s : State) (c : ConnId) (req : WhoElseRequest) : Option IMResponse :=
  let user := (s.conn c).user
  if !isUserLoggedIn s user then some (notLoggedIn ac)
  else
    let userHistory :=
      if req.limitTime then
        loggedInUsersInPastSeconds s req.pastSeconds.toInt32.toInt req.currentlyOnline user
      else loggedInUsers s req.currentlyOnline user
    match userLinkedListToString (usernames s userHistory) (text "\n") with
    | none => some (encodeTextToIMResponse ac (text "No other users other than you") false)
    | some rsp => some (encodeTextToIMResponse ac rsp true)

/-! ## Block lists -/

/-- `cmd_block_impl`. -/
def cmdBlockImpl (s : State) (c : ConnId) (req : UsernameRequest) : State × Option IMResponse :=
  let answer (s : State) (msg : Bytes) (success : Bool) :=
    (s, some (encodeTextResponseToIMResponse ac msg success))
  let name := cstr req.username
  match (s.conn c).user with
  | none => (s, some (notLoggedIn ac))
  | some self =>
      if !isUserLoggedIn s (some self) then (s, some (notLoggedIn ac))
      else
        match findUser s req.username with
        | none => answer s (name ++ text " is not present on server") false
        | some user =>
            if user = self then answer s (text "cannot block yourself") false
            else if hasBlockedUser s self user then
              answer s (name ++ text " is already blocked") false
            else answer (blockUser s self user) (name ++ text " is blocked") true

/-- `cmd_unblock_impl`. -/
def cmdUnblockImpl (s : State) (c : ConnId) (req : UsernameRequest) :
    State × Option IMResponse :=
  let answer (s : State) (msg : Bytes) (success : Bool) :=
    (s, some (encodeTextResponseToIMResponse ac msg success))
  let name := cstr req.username
  match (s.conn c).user with
  | none => (s, some (notLoggedIn ac))
  | some self =>
      if !isUserLoggedIn s (some self) then (s, some (notLoggedIn ac))
      else
        match findUser s req.username with
        | none => answer s (name ++ text " is not present on server") false
        | some user =>
            if user = self then answer s (text "cannot unblock yourself") false
            else if !hasBlockedUser s self user then
              answer s (name ++ text " is not blocked") false
            else answer (unblockUser s self user) (name ++ text " is unblocked") true

/-- A block request is refused, or blocks a user who was not blocked. -/
lemma cmdBlockImpl_cases (s : State) (c : ConnId) (req : UsernameRequest) :
    (∃ msg, cmdBlockImpl ac s c req =
        (s, some (encodeTextResponseToIMResponse ac msg false))) ∨
      ∃ self user msg, (s.conn c).user = some self ∧ isUserLoggedIn s (some self) = true ∧
        user ≠ self ∧ hasBlockedUser s self user = false ∧
        cmdBlockImpl ac s c req =
          (blockUser s self user, some (encodeTextResponseToIMResponse ac msg true)) := by
  unfold cmdBlockImpl
  split
  · exact .inl ⟨_, rfl⟩
  next self own =>
  split
  · exact .inl ⟨_, rfl⟩
  next live =>
  split
  · exact .inl ⟨_, rfl⟩
  next user _ =>
  split
  · exact .inl ⟨_, rfl⟩
  next hself =>
  split
  · exact .inl ⟨_, rfl⟩
  next hblocked =>
  exact .inr ⟨self, user, _, own, by simpa using live, hself, by simpa using hblocked, rfl⟩

/-- An unblock request is refused, or unblocks a user who was blocked. -/
lemma cmdUnblockImpl_cases (s : State) (c : ConnId) (req : UsernameRequest) :
    (∃ msg, cmdUnblockImpl ac s c req =
        (s, some (encodeTextResponseToIMResponse ac msg false))) ∨
      ∃ self user msg, (s.conn c).user = some self ∧ isUserLoggedIn s (some self) = true ∧
        hasBlockedUser s self user = true ∧
        cmdUnblockImpl ac s c req =
          (unblockUser s self user, some (encodeTextResponseToIMResponse ac msg true)) := by
  unfold cmdUnblockImpl
  split
  · exact .inl ⟨_, rfl⟩
  next self own =>
  split
  · exact .inl ⟨_, rfl⟩
  next live =>
  split
  · exact .inl ⟨_, rfl⟩
  next user _ =>
  split
  · exact .inl ⟨_, rfl⟩
  split
  · exact .inl ⟨_, rfl⟩
  next hblocked =>
  exact .inr ⟨self, user, _, own, by simpa using live, by simpa using hblocked, rfl⟩

/-! ## Addresses -/

/-- `cmd_getip_impl`. -/
def cmdGetipImpl (s : State) (c : ConnId) (req : UsernameRequest) : State × Option IMResponse :=
  let fail (msg : String) := (s, some (encodeTextToIMResponse ac (text msg) false))
  match (s.conn c).user with
  | none => (s, some (notLoggedIn ac))
  | some self =>
      if !isUserLoggedIn s (some self) then (s, some (notLoggedIn ac))
      else
        match findUser s req.username with
        | none => fail "User is not present on server"
        | some user =>
            if user = self then fail "Cannot startprivate with yourself"
            else if hasBlockedUser s user self then fail "Target has blocked you"
            else if !isUserLoggedIn s (some user) then fail "Target is not online"
            else
              match (s.users user).client with
              | none => fail "Target is not online"
              | some target =>
                  (s.touch target, some (encodeGetIPResponse ac (cstr req.username)
                    (s.conn target).addr.bytes))

/-- A request for an address is refused, or answered with the address of another user's
connection. -/
lemma cmdGetipImpl_cases (s : State) (c : ConnId) (req : UsernameRequest) :
    (∃ msg, cmdGetipImpl ac s c req =
        (s, some (encodeTextResponseToIMResponse ac msg false))) ∨
      ∃ self user target, (s.conn c).user = some self ∧
        findUser s req.username = some user ∧ user ≠ self ∧
        hasBlockedUser s user self = false ∧ (s.users user).client = some target ∧
        cmdGetipImpl ac s c req =
          (s.touch target, some (encodeGetIPResponse ac (cstr req.username)
            (s.conn target).addr.bytes)) := by
  unfold cmdGetipImpl
  split
  · exact .inl ⟨_, rfl⟩
  next self own =>
  split
  · exact .inl ⟨_, rfl⟩
  split
  · exact .inl ⟨_, rfl⟩
  next user found =>
  split
  · exact .inl ⟨_, rfl⟩
  next hself =>
  split
  · exact .inl ⟨_, rfl⟩
  next hblocked =>
  split
  · exact .inl ⟨_, rfl⟩
  split
  · exact .inl ⟨_, rfl⟩
  next target htarget =>
  exact .inr ⟨self, user, target, own, found, hself, by simpa using hblocked, htarget, rfl⟩

/-! ## Files -/

/-- Store the chunk list a registration made, or record that its loop left the block. -/
def setChunks (s : State) (c : ConnId) : Option ChunkList → State
  | some chunks => s.setConn c fun k => { k with chunks }
  | none => s.raise .heapOverflow

/-- `cmd_regfile_impl`. -/
def cmdRegfileImpl (s : State) (c : ConnId) (req : RegisterFileRequest) :
    State × Option IMResponse :=
  let answer (s : State) (msg : Bytes) (success : Bool) :=
    (s, some (encodeTextResponseToIMResponse ac msg success))
  let name := cstr req.filename
  if !isUserLoggedIn s (s.conn c).user then (s, some (notLoggedIn ac))
  else
    let (fileDb, globalChunkId, f) := addFile s.fileDb s.globalChunkId req.filename req.chunks
    let s := { s with fileDb, globalChunkId }
    match f with
    | none => answer s (name ++ text " already exists") false
    | some f =>
        let s := setChunks s c (regAllFileChunk (s.conn c).chunks f)
        answer (s.emit (.regFile c name)) (name ++ text " successfully registered") true

/-- `cmd_regchunk_impl`. -/
def cmdRegchunkImpl (s : State) (c : ConnId) (req : ChunksRequest) : State × Option IMResponse :=
  let answer (s : State) (msg : Bytes) (success : Bool) :=
    (s, some (encodeTextResponseToIMResponse ac msg success))
  let name := cstr req.filename
  if !isUserLoggedIn s (s.conn c).user then (s, some (notLoggedIn ac))
  else
    match findFile s.fileDb req.filename with
    | none => answer s (name ++ text " does not exist on server. Register it first") false
    | some f =>
        let chunks := parsePackedUint32 req.chunks
        let s := setChunks s c (regFileChunk (s.conn c).chunks f chunks)
        answer (s.emit (.regChunks c name chunks))
          (text "Successfully registered " ++ decimal chunks.length ++ text " chunks for " ++ name)
          true

/-- One round of the loop of `usersWithChunks`. -/
def userWithChunks (f : FileNode) (wantedchunkmask : ℕ → Bool) (chfcTarget : ℕ)
    (acc : State × List UserId × (ℕ → Bool)) (u : UserId) : State × List UserId × (ℕ → Bool) :=
  let (s, ret, haschunkmask) := acc
  match isUserLoggedIn s (some u), (s.users u).client with
  | true, some target =>
      let (verdict, haschunkmask) :=
        clientHasFileChunks (s.conn target).chunks f wantedchunkmask haschunkmask
      (s.touch target, if verdict = chfcTarget then ret ++ [u] else ret, haschunkmask)
  | _, _ => acc

/-- `usersWithChunks`: the users in database order, and the mask of chunks held by anybody. -/
def usersWithChunks (s : State) (f : FileNode) (wantedchunkmask : ℕ → Bool) (chfcTarget : ℕ) :
    State × List UserId × (ℕ → Bool) :=
  s.first.foldl (userWithChunks f wantedchunkmask chfcTarget) (s, [], fun _ => false)

/-- The mask of wanted chunks: the requested numbers that are below the chunk count. -/
def wantedMask (f : FileNode) (chunks : List UInt32) : ℕ → Bool :=
  chunks.foldl
    (fun mask k => if k < f.chunks then Function.update mask k.toNat true else mask) fun _ => false

/-- `cmd_searchfile_impl`. -/
def cmdSearchfileImpl (s : State) (c : ConnId) (req : ChunksRequest) :
    State × Option IMResponse :=
  let answer (s : State) (msg : Bytes) (success : Bool) :=
    (s, some (encodeTextResponseToIMResponse ac msg success))
  let name := cstr req.filename
  if !isUserLoggedIn s (s.conn c).user then (s, some (notLoggedIn ac))
  else
    match findFile s.fileDb req.filename with
    | none => answer s (name ++ text " is not available on server (not yet registered).") false
    | some f =>
        let chunks := parsePackedUint32 req.chunks
        let chfcTarget := if chunks = [] then 1 else 2
        let chfcDescription := text (if chunks = [] then "any" else "your requested")
        let (s, userlist, haschunkmask) := usersWithChunks s f (wantedMask f chunks) chfcTarget
        -- `%s` prints the string of an empty list, which is NULL, as "(null)"
        let userlistStr :=
          (userLinkedListToString (usernames s userlist) (text "\n")).getD (text "(null)")
        let haschunks := (List.range f.chunks.toNat).countP haschunkmask
        let header := name ++ text " is registered on server with " ++ decimal f.chunks.toNat
        if haschunks = f.chunks.toNat then
          answer s (header ++ text (" chunks. All chunks are " ++
              "currently available. Below are users with ") ++ chfcDescription ++
            text " chunks:\n" ++ userlistStr ++ text ("\n" ++
              "After downloading all chunks, cd into your clientdata directory " ++
              "and run `cat ") ++ name ++ text "/\x7b0.." ++ decimal (f.chunks - 1).toNat ++
            text "\x7d > " ++ name ++ text ".merged`") true
        else
          answer s (header ++ text " chunks. Only " ++ decimal haschunks ++
            text (" chunks are available (registered by currently online " ++
              "clients). Below are users with ") ++ chfcDescription ++
            text " chunks:\n" ++ userlistStr) true

/-! ## The command table -/

/-- The `run` entry that `enabled_commands` has for a request. -/
def runCommand (s : State) (c : ConnId) : Request → State × Option IMResponse
  | .login req => cmdLoginImpl ac s c req
  | .message req => cmdMessageImpl ac s c req
  | .block req => cmdBlockImpl ac s c req
  | .unblock req => cmdUnblockImpl ac s c req
  | .logout => cmdLogoutImpl ac s c
  | .whoelse req => (s, cmdWhoelseImpl ac s c req)
  | .getip req => cmdGetipImpl ac s c req
  | .regfile req => cmdRegfileImpl ac s c req
  | .regchunk req => cmdRegchunkImpl ac s c req
  | .searchfile req => cmdSearchfileImpl ac s c req
  | .unknown _ => (s, none)

/-- `if (isUserLoggedIn(db, client->user)) client->user->last_active = time(NULL)`. -/
def updateLastActive (s : State) (c : ConnId) : State :=
  match (s.conn c).user with
  | none => s
  | some u =>
      if isUserLoggedIn s (some u) then s.setUser u fun v => { v with lastActive := s.now } else s

/-- What `parse_command` does with a request it has parsed.  A type the table lacks is only
logged. -/
def runRequest (s : State) (c : ConnId) (req : Request) : State × Option IMResponse :=
  match req with
  | .unknown _ => (s, none)
  | req =>
      let (s, rsp) := runCommand ac s c req
      (updateLastActive s c, rsp)

end EpollChat

import EpollChat.Construction.Server
import EpollChat.Framework.SignedInt

/-!
# Times in 32 bits (`lib/auth.c`, `server.c`)

Times and durations are `int`.  The rest of the model computes with them in the integers; here are
the functions that add two of them or subtract one from another, with the overflow test.  Where
the sum or the difference does not fit, the behaviour is undefined, and the function has no
value.
-/

namespace EpollChat

open SignedInt

variable (ac : Achelper)

/-! ## Session deadlines -/

/-- `user->last_active + db->login_timeout > ct`. -/
def beforeDeadline (s : State) (u : UserId) : Option Bool := do
  let deadline ← checked 32 ((s.users u).lastActive + s.loginTimeout)
  return deadline > s.now

/-- `isUserLoggedIn`. -/
def isUserLoggedIn32 (s : State) : Option UserId → Option Bool
  | none => some false
  | some u =>
      match (s.users u).client with
      | none => some false
      | some _ => beforeDeadline s u

/-- The expiry test written out in `network_thread`. -/
def inlineTest32 (s : State) (c : ConnId) : Option (Option UserId) :=
  match (s.conn c).user with
  | none => some none
  | some u => do
      if ← beforeDeadline s u then return some u else return none

/-! ## Logging in -/

/-- `send_response_to_user`. -/
def sendResponseToUser32 (s : State) (u : UserId) (why : Why) (msg : IMResponse) :
    Option State :=
  match (s.users u).client with
  | some c => do
      if ← isUserLoggedIn32 s (some u) then return sendResponseToClient ac s c why msg
      else return sendResponseTo ac s (.offline u) why msg
  | none => some (sendResponseTo ac s (.offline u) why msg)

/-- One round of the loop of `login` that tells the other users. -/
def announceOne32 (subject : UserId) (why : UserId → Why) (rsp : IMResponse) (s : State)
    (v : UserId) : Option State :=
  if v = subject then some s
  else do
    if ← isUserLoggedIn32 s (some v) then
      if hasBlockedUser s subject v then return s else sendResponseToUser32 ac s v (why v) rsp
    else return s

/-- The loop of `login` that tells the other users. -/
def announce32 (subject : UserId) (why : UserId → Why) (rsp : IMResponse) (s : State) :
    Option State :=
  s.first.foldlM (announceOne32 ac subject why rsp) s

/-- `login`. -/
def login32 (s : State) (username password : Bytes) : Option (State × ℕ × Option UserId) :=
  let ct := s.now
  match findUser s username with
  | none => some (s, 1, none)
  | some u =>
      if ct < (s.users u).lastBlocked then some (s, 2, some u)
      else if (s.users u).password ≠ cstr password then
        let s := s.setUser u fun v => { v with attempts := v.attempts + 1 }
        if (s.users u).attempts = 3 then do
          let lastBlocked ← checked 32 (ct + s.blockDuration)
          return (s.setUser u fun v => { v with lastBlocked, attempts := 0 }, 2, some u)
        else some (s, 3, some u)
      else do
        if ← isUserLoggedIn32 s (some u) then return (s, 4, some u)
        else
          let s := s.setUser u fun v =>
            { v with attempts := 0, lastActive := s.now, lastLoggedIn := s.now }
          let rsp :=
            encodeTextResponseToIMResponse ac (cstr username ++ text " has logged in") true
          let s ← announce32 ac u (.loggedIn · u) rsp s
          return (s, 0, some u)

/-! ## Who was online -/

/-- `loggedInUsersInPastSeconds`. -/
def loggedInUsersInPastSeconds32 (s : State) (seconds : ℤ) (currentlyOnline : Bool)
    (exclude : Option UserId) : Option (List UserId) := do
  let threshold ← checked 32 (s.now - seconds)
  return loggedInUsersAfterTime s threshold currentlyOnline exclude

end EpollChat

import EpollChat.Construction.Encoders

/-!
# The commands of the client (`clientlib/commands/`)

What `parse_command` of the client does with a line, for all of its table.  Most commands make a
request out of the line; `login` and `register` ask for more, `private` and `stopprivate` act on a
private session.  The result is the `Command` that `Client.gotCommand` executes, together with the
file system, which only `register` changes.

There is no value where the program leaves the defined behaviour of C, or waits for input that
does not come.  `stdin` is what the calls of `fgets` read one after the other.
-/

namespace EpollChat

namespace Client

variable (ac : Achelper)

/-! ## Requests to the server -/

/-- `cmd_message_impl`.  The name ends at the first space. -/
def cmdMessageImpl (req : Bytes) : Option IMRequest :=
  let username := req.drop 8
  match username.dropWhile (· ≠ EpollChat.blank) with
  | [] => none
  | _ :: message =>
      some
        { type := 2
          value := encodeMessageRequestToBytes ac
            { broadcast := false, username := username.takeWhile (· ≠ EpollChat.blank), msg := message } }

/-- `cmd_broadcast_impl`. -/
def cmdBroadcastImpl (req : Bytes) : IMRequest :=
  { type := 2
    value := encodeMessageRequestToBytes ac
      { broadcast := true, username := [], msg := req.drop 10 } }

/-- `cmd_block_impl`. -/
def cmdBlockImpl (req : Bytes) : IMRequest :=
  { type := 4, value := encodeBlockRequestToBytes ac { username := req.drop 6 } }

/-- `cmd_unblock_impl`. -/
def cmdUnblockImpl (req : Bytes) : IMRequest :=
  { type := 5, value := encodeUnBlockRequestToBytes ac { username := req.drop 8 } }

/-- `cmd_logout_impl`. -/
def cmdLogoutImpl : IMRequest := { type := 6, value := encodeLogOutRequestToBytes ac }

/-- `atoi`, as it is stored in a `uint32_t`. -/
def atoi (s : Bytes) : UInt32 := UInt32.ofInt (strtol s).1

/-- `cmd_whoelsesince_impl`. -/
def cmdWhoelsesinceImpl (req : Bytes) : IMRequest :=
  { type := 3
    value := encodeWhoElseRequestToBytes ac
      { limitTime := true, pastSeconds := atoi (req.drop 13), currentlyOnline := false } }

/-- `cmd_whoelse_impl`. -/
def cmdWhoelseImpl : IMRequest :=
  { type := 3
    value := encodeWhoElseRequestToBytes ac
      { limitTime := false, pastSeconds := 0, currentlyOnline := true } }

/-- `cmd_searchfile_impl`. -/
def cmdSearchfileImpl (req : Bytes) : IMRequest :=
  { type := 10, value := encodeSearchFileRequestToBytes ac { filename := req.drop 11, chunks := [] } }

/-! ## Commands that ask for more -/

/-- What was typed at a prompt, of the line that `fgets` has read.  Of a line that begins with a
NUL the character before the buffer is overwritten. -/
def typedAtPrompt (line : Bytes) : Option Bytes :=
  if cstr line = [] then none else some (cstr line).dropLast

/-- The prompts of `cmd_login_impl`.  The name is asked for the first time only. -/
def cmdLoginImpl (loggedInUserName : Option Bytes) (stdin : List Bytes) : Option Command :=
  match loggedInUserName, stdin with
  | none, username :: password :: _ => do
      return .login (← typedAtPrompt username) (← typedAtPrompt password)
  | some username, password :: _ => do return .login username (← typedAtPrompt password)
  | _, _ => none

/-- `cmd_regfile_impl`: the questions, the directory of the chunks and the chunks, and the
request.  A chunk file that cannot be opened is written to through a null pointer. -/
def cmdRegfileImpl (malloc : ℕ → Bool) (d : Disk) (datapath : Bytes) (stdin : List Bytes) :
    Option (Disk × Option IMRequest) :=
  match chooseRegistration d stdin with
  | none => none
  | some none => some (d, none)
  | some (some r) =>
      if d.mkdir (chunkDir datapath r.filename) = none then some (d, none)
      else
        (r.split malloc d datapath).map fun d =>
          (d, some { type := 8, value := encodeRegisterFileRequestToBytes ac r.request })

/-! ## Commands of a private session -/

/-- The response that `cmd_private_impl` sends. -/
def privateResponse : PrivateMessage → IMResponse
  | .chunkDataRequest cdr =>
      { type := 5, success := true, value := encodeChunkDataRequestToBytes ac cdr }
  | .text msg => encodeTextToIMResponse ac msg true

/-- `private`, as a command. -/
def privateCommand (k : Client) (command : Bytes) : Option Command :=
  (cmdPrivateImpl k.program k.loggedInUserName command).map fun
    | none => .other none
    | some (_, msg) =>
        .privateTo ((command.drop 8).takeWhile (· ≠ EpollChat.blank)) (privateResponse ac msg)

/-! ## The table -/

/-- The command that a line is, with what it does to the file system.  A line that no command
begins is only logged. -/
def typedCommand (malloc : ℕ → Bool) (k : Client) (d : Disk) (datapath : Bytes)
    (stdin : List Bytes) (command : Bytes) : Option (Disk × Command) :=
  match selectCommand command with
  | none => some (d, .other none)
  | some .cmdLogin => (cmdLoginImpl k.loggedInUserName stdin).map fun cmd => (d, cmd)
  | some .cmdMessage => some (d, .other (cmdMessageImpl ac command))
  | some .cmdBroadcast => some (d, .other (some (cmdBroadcastImpl ac command)))
  | some .cmdBlock => some (d, .other (some (cmdBlockImpl ac command)))
  | some .cmdUnblock => some (d, .other (some (cmdUnblockImpl ac command)))
  | some .cmdLogout => some (d, .other (some (cmdLogoutImpl ac)))
  | some .cmdWhoelsesince => some (d, .other (some (cmdWhoelsesinceImpl ac command)))
  | some .cmdWhoelse => some (d, .other (some (cmdWhoelseImpl ac)))
  | some .cmdStartprivate => some (d, .startprivate (command.drop 13))
  | some .cmdPrivate => (privateCommand ac k command).map fun cmd => (d, cmd)
  | some .cmdStopprivate => some (d, .stopprivate (command.drop 12))
  | some .cmdRegfile =>
      (cmdRegfileImpl ac malloc d datapath stdin).map fun (d, req) => (d, .other req)
  | some .cmdSearchfile => some (d, .other (some (cmdSearchfileImpl ac command)))
  | some .cmdSearchchunk =>
      some (d, .other ((cmdSearchchunkImpl command).map fun req =>
        { type := 10, value := encodeSearchFileRequestToBytes ac req }))

/-- One round of the second loop of `input_thread`: a line is read and its command executed. -/
def inputRound (malloc : ℕ → Bool) (k : Client) (d : Disk) (datapath line : Bytes)
    (stdin : List Bytes) : Option (Disk × Client) := do
  let command ← readCommand line
  let (d, cmd) ← typedCommand ac malloc k d datapath stdin command
  return (d, k.gotCommand ac cmd)

end Client

end EpollChat

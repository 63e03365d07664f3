import EpollChat.Construction.ChunkNumbers

/-!
# Typed commands (`client.c`, `clientlib/command.c`, `clientlib/commands/`)

`input_thread` reads a line, takes the newline off, and `parse_command` runs the first command of
its table whose prefix the line has.  Modelled here are the commands with a file name in them:
`searchChunk` ends the name at the first space, and `private … download` reads it as a word of
`sscanf`.
-/

namespace EpollChat

/-! ## Lines -/

/-- `MAX_COMMAND`. -/
def maxCommand : ℕ := 32768

/-- `BUFSIZ`. -/
def bufsiz : ℕ := 8192

/-- `'\n'`. -/
def newline : UInt8 := 10

/-- `' '`. -/
def blank : UInt8 := 32

/-- `fgets(buf, n, stdin)`: what is read, up to a newline and at most `n - 1` bytes. -/
def fgets (n : ℕ) (stdin : Bytes) : Bytes :=
  (stdin.takeWhile (· ≠ newline) ++ (stdin.dropWhile (· ≠ newline)).take 1).take (n - 1)

/-- The command `input_thread` reads.  Of a line that begins with a NUL the character before the
buffer is overwritten, and there is no value. -/
def readCommand (stdin : Bytes) : Option Bytes :=
  let buf := cstr (fgets maxCommand stdin)
  if buf = [] then none else some buf.dropLast

/-! ## The table -/

/-- The commands of the client. -/
inductive CommandName
  | cmdLogin | cmdMessage | cmdBroadcast | cmdBlock | cmdUnblock | cmdLogout
  | cmdWhoelsesince | cmdWhoelse | cmdStartprivate | cmdPrivate | cmdStopprivate
  | cmdRegfile | cmdSearchfile | cmdSearchchunk
  deriving DecidableEq

/-- `im_command_t.prefix`. -/
def CommandName.start : CommandName → Bytes
  | .cmdLogin => text "login"
  | .cmdMessage => text "message "
  | .cmdBroadcast => text "broadcast "
  | .cmdBlock => text "block "
  | .cmdUnblock => text "unblock "
  | .cmdLogout => text "logout"
  | .cmdWhoelsesince => text "whoelsesince "
  | .cmdWhoelse => text "whoelse"
  | .cmdStartprivate => text "startprivate "
  | .cmdPrivate => text "private "
  | .cmdStopprivate => text "stopprivate "
  | .cmdRegfile => text "register"
  | .cmdSearchfile => text "searchFile "
  | .cmdSearchchunk => text "searchChunk "

/-- `enabled_commands`. -/
def enabledCommands : List CommandName :=
  [.cmdLogin, .cmdMessage, .cmdBroadcast, .cmdBlock, .cmdUnblock, .cmdLogout, .cmdWhoelsesince,
    .cmdWhoelse, .cmdStartprivate, .cmdPrivate, .cmdStopprivate, .cmdRegfile,
    .cmdSearchfile, .cmdSearchchunk]

/-- The command that `parse_command` runs on a line, if there is one. -/
def selectCommand (command : Bytes) : Option CommandName :=
  enabledCommands.find? fun cmd => cmd.start.isPrefixOf command

/-! ## `searchChunk` -/

/-- `cmd_searchchunk_impl`: the `SearchFileRequest` it encodes. -/
def cmdSearchchunkImpl (req : Bytes) : Option ChunksRequest :=
  let filename := req.drop 12
  match filename.dropWhile (· ≠ blank) with
  | [] => none
  | _ :: chunkseq =>
      let (nchunks, chunks) := packRepeatedUint32FromStr chunkseq
      if nchunks = 0 then none
      else some { filename := filename.takeWhile (· ≠ blank), chunks }

/-! ## `private` -/

structure ChunkDataRequest where
  filename : Bytes
  chunk : UInt32
  deriving DecidableEq

/-- What `private` sends. -/
inductive PrivateMessage
  | chunkDataRequest (cdr : ChunkDataRequest)
  | text (msg : Bytes)
  deriving DecidableEq

/-- `strtoul`: a number whose absolute value an `unsigned long` does not hold gives the largest. -/
def ulongOf (n : ℤ) : ℤ := if n.natAbs < 2 ^ 64 then n % 2 ^ 64 else 2 ^ 64 - 1

/-- `sscanf(message, "%s %u", filename, &chunk)` with the array `filename[BUFSIZ]`: the two items,
or nothing if fewer were stored.  There is no value where the word is longer than the array. -/
def sscanfNameChunk (message : Bytes) : Option (Option ChunkDataRequest) :=
  let (filename, rest) := nextToken isSpace message
  let number := rest.dropWhile isSpace
  if filename = [] then some none
  else if bufsiz ≤ filename.length then none
  else if strtolEnd number = number then some none
  else some (some { filename, chunk := UInt32.ofInt (ulongOf (numeral number)) })

/-- `cmd_private_impl`: the connection it sends to, and the message. -/
def cmdPrivateImpl (p2pdb : State) (loggedInUserName : Option Bytes) (req : Bytes) :
    Option (Option (ConnId × PrivateMessage)) :=
  let username := req.drop 8
  match username.dropWhile (· ≠ blank) with
  | [] => some none
  | _ :: message =>
      match privateConn p2pdb (username.takeWhile (· ≠ blank)) with
      | none => some none
      | some client =>
          if (text "download ").isPrefixOf message then
            (sscanfNameChunk (message.drop 9)).map fun cdr =>
              cdr.map fun cdr => (client, .chunkDataRequest cdr)
          else
            some (some (client, .text
              (loggedInUserName.getD (text "(null)") ++ text " (private): " ++ message)))

/-! ## A line and its request -/

/-- The request for a search that a line leads to. -/
def searchOfLine (stdin : Bytes) : Option ChunksRequest := do
  let command ← readCommand stdin
  if selectCommand command = some .cmdSearchchunk then cmdSearchchunkImpl command else none

/-- The private message that a line leads to. -/
def privateOfLine (p2pdb : State) (loggedInUserName : Option Bytes) (stdin : Bytes) :
    Option (ConnId × PrivateMessage) := do
  let command ← readCommand stdin
  if selectCommand command = some .cmdPrivate then
    (cmdPrivateImpl p2pdb loggedInUserName command).join
  else none

/-! ## Reading a line back -/

/-- A line is read as it was typed. -/
lemma readCommand_line {command : Bytes} (hnewline : newline ∉ command) (hnul : 0 ∉ command)
    (hlength : command.length + 1 < maxCommand) (stdin : Bytes) :
    readCommand (command ++ newline :: stdin) = some command := by
  have hkept : ∀ b ∈ command, (decide (b ≠ newline)) = true := by
    intro b hb
    apply decide_eq_true
    rintro rfl
    exact hnewline hb
  have hstop : ∀ b ∈ (newline :: stdin).head?, (decide (b ≠ newline)) = false := by simp
  have hfgets : fgets maxCommand (command ++ newline :: stdin) = command ++ [newline] := by
    rw [fgets, takeWhile_append_stop hkept hstop, dropWhile_append_stop hkept hstop]
    apply List.take_of_length_le
    rw [List.length_append, List.length_take_of_le (by simp)]
    omega
  have hcstr : cstr (command ++ [newline]) = command ++ [newline] := by
    rw [cstr, List.takeWhile_eq_self_iff]
    intro b hb
    apply decide_eq_true
    rintro rfl
    rcases List.mem_append.1 hb with hb | hb
    · exact hnul hb
    · exact absurd (List.mem_singleton.1 hb) (by decide)
  rw [readCommand, hfgets, hcstr, if_neg (by simp), List.dropLast_concat]

lemma selectCommand_searchchunk (args : Bytes) :
    selectCommand (text "searchChunk " ++ args) = some .cmdSearchchunk := rfl

lemma selectCommand_private (args : Bytes) :
    selectCommand (text "private " ++ args) = some .cmdPrivate := rfl

/-- The text before the first space, and what follows. -/
lemma takeWhile_blank {word : Bytes} (hword : blank ∉ word) (rest : Bytes) :
    (word ++ blank :: rest).takeWhile (· ≠ blank) = word ∧
      (word ++ blank :: rest).dropWhile (· ≠ blank) = blank :: rest := by
  have hkept : ∀ b ∈ word, (decide (b ≠ blank)) = true := by
    intro b hb
    apply decide_eq_true
    rintro rfl
    exact hword hb
  have hstop : ∀ b ∈ (blank :: rest).head?, (decide (b ≠ blank)) = false := by simp
  exact ⟨takeWhile_append_stop hkept hstop, dropWhile_append_stop hkept hstop⟩

/-! ## Decimal numbers -/

lemma digitsValue_decimal (n : ℕ) : digitsValue (decimal n) = n := by
  have hvalue := @Nat.ofDigitChars_ten_toDigits n
  rw [Nat.ofDigitChars_eq_foldl] at hvalue
  rw [digitsValue, decimal, List.foldl_map]
  refine (List.foldl_ext _ _ 0 fun value c hc => ?_).trans hvalue
  have hdigit := digit_of_mem_toDigits hc
  rw [UInt8.toNat_ofNat', Nat.mod_eq_of_lt (by omega)]
  rfl

/-- A printed number is one numeral. -/
lemma isNumeral_decimal (n : ℕ) : IsNumeral (decimal n) n := by
  refine ⟨[], [], 1, decimal n, rfl, by simp, .none, decimal_ne_nil n, fun b hb => ?_, ?_⟩
  · have := digit_of_mem_decimal hb
    simp only [isDigit, decide_eq_true_eq, UInt8.le_iff_toNat_le]
    exact this
  · rw [digitsValue_decimal, one_mul]

end EpollChat

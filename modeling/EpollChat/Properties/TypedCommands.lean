import EpollChat.Construction.ClientCommands
import EpollChat.Properties.ChunkScanner
import EpollChat.Properties.Codec
import EpollChat.Properties.CommandLine

/-!
# What a typed command means

`Intent` is what a user can want of the server, apart from how it is typed: the commands that are
one request.  `Intent.line` is how it is typed and `Intent.request` what the server should be
asked.  A line that is typed so leads to exactly that request: the bytes of it are added to what
waits for the server and its socket is watched for writing, nothing else changes, and the server
parses them as the request that was meant (`inputRound_intent`).

The table is searched from the front, and some commands begin with others: `whoelsesince` stands in
front of `whoelse`.  In the order it has, the longest command that a line begins with is run
(`selectCommand_iff`).
-/

namespace EpollChat

/-! ## The table -/

/-- No command hides a longer one behind it. -/
lemma enabledCommands_ordered :
    enabledCommands.Pairwise fun a b => ¬ a.start <+: b.start := by
  simp only [← List.isPrefixOf_iff_prefix]
  decide +kernel

lemma mem_enabledCommands (cmd : CommandName) : cmd ∈ enabledCommands := by
  cases cmd <;> decide

/-- **Dispatch.** The client runs the longest command that the line begins with. -/
theorem selectCommand_iff (command : Bytes) (cmd : CommandName) :
    selectCommand command = some cmd ↔
      IsLongest (fun w => ∃ cmd : CommandName, cmd.start = w) command cmd.start := by
  have htable : (fun w => ∃ cmd ∈ enabledCommands, cmd.start = w) =
      fun w => ∃ cmd : CommandName, cmd.start = w := by
    funext w
    simp only [mem_enabledCommands, true_and]
  rw [selectCommand, find?_isPrefixOf_eq_some_iff enabledCommands_ordered, htable]
  exact and_iff_right (mem_enabledCommands cmd)

/-! ## Intents -/

/-- What a user can want of the server with one command. -/
inductive Intent
  | message (username msg : Bytes)
  | broadcast (msg : Bytes)
  | block (username : Bytes)
  | unblock (username : Bytes)
  | logout
  | whoelse
  | whoelsesince (seconds : UInt32)
  | startprivate (username : Bytes)
  | searchFile (filename : Bytes)
  | searchChunk (filename : Bytes) (chunk : UInt32) (chunks : List UInt32)

namespace Intent

/-- The line, without its newline. -/
def line : Intent → Bytes
  | .message username msg => text "message " ++ (username ++ blank :: msg)
  | .broadcast msg => text "broadcast " ++ msg
  | .block username => text "block " ++ username
  | .unblock username => text "unblock " ++ username
  | .logout => text "logout"
  | .whoelse => text "whoelse"
  | .whoelsesince seconds => text "whoelsesince " ++ decimal seconds.toNat
  | .startprivate username => text "startprivate " ++ username
  | .searchFile filename => text "searchFile " ++ filename
  | .searchChunk filename chunk chunks =>
      text "searchChunk " ++
        (filename ++ (chunk :: chunks).flatMap fun k => blank :: decimal k.toNat)

/-- The request to the server. -/
def request : Intent → Request
  | .message username msg => .message ⟨false, username, msg⟩
  | .broadcast msg => .message ⟨true, [], msg⟩
  | .block username => .block ⟨username⟩
  | .unblock username => .unblock ⟨username⟩
  | .logout => .logout
  | .whoelse => .whoelse ⟨false, 0, true⟩
  | .whoelsesince seconds => .whoelse ⟨true, seconds, false⟩
  | .startprivate username => .getip ⟨username⟩
  | .searchFile filename => .searchfile ⟨filename, []⟩
  | .searchChunk filename chunk chunks =>
      .searchfile ⟨filename, (chunk :: chunks).flatMap littleEndian⟩

/-- A name that something else follows on the line has no space in it. -/
def NoBlank : Intent → Prop
  | .message name _ | .searchChunk name _ _ => blank ∉ name
  | _ => True

/-- An intent that can be typed on one line. -/
structure Typable (i : Intent) : Prop where
  no_newline : newline ∉ i.line
  no_nul : 0 ∉ i.line
  no_blank : i.NoBlank
  length : i.line.length + 1 < maxCommand

end Intent

/-! ## Numbers on a line -/

/-- A printed number after a space is a numeral as well. -/
lemma isNumeral_blank_decimal (n : ℕ) : IsNumeral (blank :: decimal n) n := by
  obtain ⟨space, sign, factor, digits, hw, hspace, hsign, hne, hdigits, hn⟩ := isNumeral_decimal n
  refine ⟨blank :: space, sign, factor, digits, by rw [hw]; rfl, ?_, hsign, hne, hdigits, hn⟩
  exact List.forall_mem_cons.2 ⟨by decide, hspace⟩

/-- Printed numbers after the first. -/
lemma numerals_append {w : Bytes} {n : ℕ} (hw : IsNumeral w n) (ks : List UInt32) :
    Numerals (w ++ ks.flatMap fun k => blank :: decimal k.toNat)
      ((n : ℤ) :: ks.map fun k => (k.toNat : ℤ)) := by
  induction ks generalizing w n with
  | nil =>
      rw [List.flatMap_nil, List.append_nil, List.map_nil]
      exact .last hw
  | cons k ks ih =>
      rw [List.flatMap_cons, List.map_cons]
      refine .cons hw ?_ (ih (isNumeral_blank_decimal k.toNat))
      simp only [List.cons_append, List.head?_cons, Option.mem_def, Option.some.injEq]
      rintro b rfl
      decide

lemma storedVal_toNat (k : UInt32) : storedVal k.toNat = k := by
  have hlt : k.toNat < 2 ^ 32 := k.toNat_lt
  have := @toNat_storedVal k.toNat ⟨by omega, by omega⟩
  apply UInt32.toNat_inj.1
  omega

/-- Printed chunk numbers are packed as they are. -/
lemma packRepeatedUint32FromStr_numbers (k : UInt32) (ks : List UInt32)
    (hnul : 0 ∉ decimal k.toNat ++ ks.flatMap fun k => blank :: decimal k.toNat) :
    packRepeatedUint32FromStr (decimal k.toNat ++ ks.flatMap fun k => blank :: decimal k.toNat) =
      (ks.length + 1, (k :: ks).flatMap littleEndian) := by
  have hcstr := List.takeWhile_eq_self_iff (p := fun b : UInt8 => decide (b ≠ 0)) |>.2
    fun b hb => decide_eq_true fun h => hnul (h ▸ hb)
  have hnumerals := numerals_append (isNumeral_decimal k.toNat) ks
  rw [← hcstr] at hnumerals
  rw [packRepeatedUint32FromStr_of_numerals hnumerals]
  simp [Function.comp_def, storedVal_toNat]

/-! ## The command of a line -/

section Commands

variable (ac : Achelper)

/-- The program with these bytes queued for the server and the socket of the server watched for
writing.  They are queued under the lock of the connection. -/
def queuedForServer (s : State) (frame : Bytes) : State :=
  { s with
    conn := Function.update s.conn serverConn
      { s.conn serverConn with outbuffer := (s.conn serverConn).outbuffer.append frame }
    epoll := fun fd =>
      if fd = (s.conn serverConn).fd then (s.epoll fd).map fun _ => true else s.epoll fd
    fault := if serverConn ∈ s.held then (s.raise .deadlock).fault else s.fault }

/-- What the client does to ask the server. -/
def asking (k : Client) (req : Request) : Client :=
  { k with program := epollDoSendBuffer (askServer ac k.program (req.toIMRequest ac)) }

/-- The line of an intent is the command that asks for it. -/
lemma typedCommand_line {i : Intent} (hi : i.Typable) (malloc : ℕ → Bool) (k : Client) (d : Disk)
    (datapath : Bytes) (stdin : List Bytes) :
    ∃ cmd, k.typedCommand ac malloc d datapath stdin i.line = some (d, cmd) ∧
      k.gotCommand ac cmd = asking ac k i.request := by
  cases i with
  | message username msg =>
      have hname : (Intent.message username msg).line.drop 8 = username ++ blank :: msg := rfl
      have hword := takeWhile_blank hi.no_blank msg
      have hcmd : Client.cmdMessageImpl ac (Intent.message username msg).line =
          some ((Request.message ⟨false, username, msg⟩).toIMRequest ac) := by
        simp only [Client.cmdMessageImpl, hname, hword.1, hword.2]
        rfl
      refine ⟨.other (some ((Request.message ⟨false, username, msg⟩).toIMRequest ac)), ?_, rfl⟩
      rw [← hcmd]
      rfl
  | broadcast msg => exact ⟨_, rfl, rfl⟩
  | block username => exact ⟨_, rfl, rfl⟩
  | unblock username => exact ⟨_, rfl, rfl⟩
  | logout => exact ⟨_, rfl, rfl⟩
  | whoelse => exact ⟨_, rfl, rfl⟩
  | whoelsesince seconds =>
      have hnumber := (@strtol_of_isNumeral _ _ (isNumeral_decimal seconds.toNat) [] (by simp)).1
      have hatoi : Client.atoi ((Intent.whoelsesince seconds).line.drop 13) = seconds := by
        show UInt32.ofInt (strtol (decimal seconds.toNat)).1 = seconds
        rw [strtol_fst]
        rw [List.append_nil] at hnumber
        rw [hnumber]
        exact storedVal_toNat seconds
      have hcmd : Client.cmdWhoelsesinceImpl ac (Intent.whoelsesince seconds).line =
          (Request.whoelse ⟨true, seconds, false⟩).toIMRequest ac := by
        rw [Client.cmdWhoelsesinceImpl, hatoi]
        rfl
      refine ⟨.other (some ((Request.whoelse ⟨true, seconds, false⟩).toIMRequest ac)), ?_, rfl⟩
      rw [← hcmd]
      rfl
  | startprivate username =>
      refine ⟨.startprivate username, rfl, ?_⟩
      have hcstr : cstr username = username :=
        List.takeWhile_eq_self_iff.2 fun b hb => decide_eq_true fun h =>
          hi.no_nul (List.mem_append_right _ (h ▸ hb))
      show asking ac k (.getip ⟨cstr username⟩) = _
      rw [hcstr]
      rfl
  | searchFile filename => exact ⟨_, rfl, rfl⟩
  | searchChunk filename chunk chunks =>
      have hname : (Intent.searchChunk filename chunk chunks).line.drop 12 =
          filename ++ blank :: (decimal chunk.toNat ++
            chunks.flatMap fun k => blank :: decimal k.toNat) := by
        simp only [Intent.line, List.flatMap_cons, List.cons_append]
        rfl
      have hword := takeWhile_blank hi.no_blank
        (decimal chunk.toNat ++ chunks.flatMap fun k => blank :: decimal k.toNat)
      have hnul : 0 ∉ decimal chunk.toNat ++ chunks.flatMap fun k => blank :: decimal k.toNat := by
        intro h
        refine hi.no_nul (List.mem_of_mem_drop (i := 12) ?_)
        rw [hname]
        exact List.mem_append_right _ (List.mem_cons_of_mem _ h)
      have hcmd : cmdSearchchunkImpl (Intent.searchChunk filename chunk chunks).line =
          some ⟨filename, (chunk :: chunks).flatMap littleEndian⟩ := by
        simp only [cmdSearchchunkImpl, hname, hword.1, hword.2,
          packRepeatedUint32FromStr_numbers chunk chunks hnul, Nat.succ_ne_zero, if_false]
      refine ⟨.other ((cmdSearchchunkImpl (Intent.searchChunk filename chunk chunks).line).map
        fun req => (Request.searchfile req).toIMRequest ac), rfl, ?_⟩
      rw [hcmd]
      rfl

/-- `EPOLL_CTL_MOD` on the socket of the server. -/
lemma epollDoSendBuffer_eq (s : State) :
    epollDoSendBuffer s =
      { s with epoll := fun fd =>
          if fd = (s.conn serverConn).fd then (s.epoll fd).map fun _ => true else s.epoll fd } := by
  unfold epollDoSendBuffer State.epollMod
  split
  · next b hb =>
      congr 1
      funext fd
      by_cases hfd : fd = (s.conn serverConn).fd
      · subst hfd
        simp [hb]
      · simp [hfd]
  · next hnone =>
      have hsame : (fun fd => if fd = (s.conn serverConn).fd then
          (s.epoll fd).map fun _ => true else s.epoll fd) = s.epoll := by
        funext fd
        split
        · next hfd => simp [hfd, hnone]
        · rfl
      rw [hsame]

/-- The program is all of the client that changes. -/
lemma asking_eq (k : Client) (req : Request) :
    asking ac k req = { k with program := queuedForServer k.program (req.frame ac) } := by
  have hlock : k.program.lock serverConn =
      { k.program with
        held := serverConn :: k.program.held
        fault := if serverConn ∈ k.program.held then (k.program.raise .deadlock).fault
          else k.program.fault } := by
    unfold State.lock
    split <;> rfl
  have hasked : askServer ac k.program (req.toIMRequest ac) =
      { k.program with
        conn := Function.update k.program.conn serverConn
          { k.program.conn serverConn with
            outbuffer := (k.program.conn serverConn).outbuffer.append (req.frame ac) }
        fault := if serverConn ∈ k.program.held then (k.program.raise .deadlock).fault
          else k.program.fault } := by
    unfold askServer sendRequest
    rw [hlock]
    simp [State.setBuf, State.setConn, State.buf, State.unlock, Request.frame]
  unfold asking queuedForServer
  rw [hasked, epollDoSendBuffer_eq]
  simp

/-- The bytes are added to what waits for the server, and to nothing else. -/
lemma pending_queuedForServer (s : State) (frame : Bytes) (q : Queue) :
    (queuedForServer s frame).pending q =
      s.pending q ++ if q = .out serverConn then frame else [] := by
  by_cases hq : q = .out serverConn
  · subst hq
    have hbuf : (queuedForServer s frame).buf (.out serverConn) =
        (s.buf (.out serverConn)).append frame := by simp [queuedForServer, State.buf]
    rw [State.pending, hbuf, OutBuffer.pending_append, if_pos rfl]
    rfl
  · have hbuf : (queuedForServer s frame).buf q = s.buf q := by
      cases q with
      | out c =>
          have hne : c ≠ serverConn := fun h => hq (congrArg Queue.out h)
          simp [queuedForServer, State.buf, hne]
      | offline u => rfl
    rw [State.pending, hbuf, if_neg hq, List.append_nil]
    rfl

end Commands

/-- A line bounds what its request holds. -/
lemma size_request_le (i : Intent) : i.request.size ≤ 4 * i.line.length := by
  cases i with
  | searchChunk filename chunk chunks =>
      have hpacked := length_flatMap_littleEndian (chunk :: chunks)
      have hnumbers : (chunk :: chunks).length ≤
          ((chunk :: chunks).flatMap fun k => blank :: decimal k.toNat).length := by
        generalize chunk :: chunks = ks
        induction ks with
        | nil => exact le_rfl
        | cons k ks ih =>
            simp only [List.flatMap_cons, List.length_append, List.length_cons] at ih ⊢
            omega
      simp only [Intent.request, Intent.line, Request.size, List.length_append] at hpacked ⊢
      omega
  | _ =>
      simp only [Intent.request, Intent.line, Request.size, List.length_append, List.length_cons,
        List.length_nil]
      omega

/-- **A typed command means its request.** A line that is typed for an intent queues the bytes of
the request for the server and has its socket watched for writing; nothing else of the client
changes, and the file system does not.  At the front of what the server receives, these bytes
are parsed as the request that was meant. -/
theorem inputRound_intent {ac : Achelper} (hac : ac.Lawful) (hd : Incremental (decodeCommand ac))
    {i : Intent} (hi : i.Typable) (malloc : ℕ → Bool) (k : Client) (d : Disk) (datapath : Bytes)
    (stdin : List Bytes) (typed rest : Bytes) :
    k.inputRound ac malloc d datapath (i.line ++ newline :: typed) stdin =
        some (d, { k with program := queuedForServer k.program (i.request.frame ac) }) ∧
      (∀ q, (queuedForServer k.program (i.request.frame ac)).pending q =
        k.program.pending q ++ if q = .out serverConn then i.request.frame ac else []) ∧
      parseFrame ac (i.request.frame ac ++ rest) =
        some (i.request, (i.request.frame ac).length) := by
  obtain ⟨cmd, htyped, hasked⟩ := typedCommand_line ac hi malloc k d datapath stdin
  have hround : k.inputRound ac malloc d datapath (i.line ++ newline :: typed) stdin =
      some (d, asking ac k i.request) := by
    rw [Client.inputRound, readCommand_line hi.no_newline hi.no_nul hi.length, ← hasked]
    simp only [Option.bind_eq_bind, Option.bind_some, htyped]
    rfl
  have hknown : i.request.Known := by cases i <;> trivial
  have hsize : i.request.size < 2 ^ 63 := by
    have hle := size_request_le i
    have hline := hi.length
    have hmax : 4 * maxCommand < 2 ^ 63 := by decide
    omega
  rw [asking_eq] at hround
  exact ⟨hround, pending_queuedForServer k.program (i.request.frame ac),
    parseFrame_frame hac hd hknown hsize rest⟩

/-- A search for two chunks. -/
theorem inputRound_search :
    ∃ k', (Client.init 3 demoAddr 0).inputRound protobufWire (fun _ => true) ⟨[], fun _ => none⟩ []
        ((Intent.searchChunk (text "notes") 3 [7]).line ++ newline :: []) [] =
          some (⟨[], fun _ => none⟩, k') ∧
      k'.program.pending (.out serverConn) =
        (Intent.searchChunk (text "notes") 3 [7]).request.frame protobufWire ∧
      parseFrame protobufWire
        ((Intent.searchChunk (text "notes") 3 [7]).request.frame protobufWire ++ []) =
          some (.searchfile ⟨text "notes", [3, 0, 0, 0, 7, 0, 0, 0]⟩,
            ((Intent.searchChunk (text "notes") 3 [7]).request.frame protobufWire).length) := by
  have hi : (Intent.searchChunk (text "notes") 3 [7]).Typable :=
    ⟨by decide +kernel, by decide +kernel, by unfold Intent.NoBlank; decide +kernel,
      by decide +kernel⟩
  obtain ⟨hround, hpending, hparse⟩ := inputRound_intent lawful_protobufWire
    (incremental_protobufWire 2) hi (fun _ => true) (Client.init 3 demoAddr 0)
    ⟨[], fun _ => none⟩ [] [] [] []
  exact ⟨_, hround, hpending _, hparse⟩

end EpollChat

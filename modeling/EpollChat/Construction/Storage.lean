import EpollChat.Construction.Client
import EpollChat.Framework.Chunks
import EpollChat.Framework.Paths
import EpollChat.Framework.SignedInt
import Mathlib.Data.List.DropRight

/-!
# Chunk files (`client.c`, `clientlib/commands/regfile.c`)

The client keeps the chunks of a file under its storage path `datapath`, in a directory of the
name of the file, each in a file of the number of the chunk.  It makes these files in two ways:
`cmd_regfile_impl` splits a local file, and `writeFile` stores what a peer has sent.  A peer gets
them through `getChunkDataResponse`.

The file system is a tree without links: a directory or the contents of a file at every place
that there is.  A path leads through directories, and `.` and `..` are steps in it.
-/

namespace EpollChat

open Chunks Paths SignedInt

/-! ## The file system -/

/-- What there is at a place. -/
inductive Entry
  | file (content : Bytes)
  | dir
  deriving DecidableEq

/-- The names from the root down. -/
abbrev Location := List Bytes

/-- The file system, and the directory that the client runs in. -/
structure Disk where
  cwd : Location
  entry : Location → Option Entry

/-- `'/'`. -/
def slash : UInt8 := 47

/-- A component of a path. -/
def component (name : Bytes) : Step Bytes :=
  if name = [] ∨ name = text "." then .stay else if name = text ".." then .up else .down name

/-- The components of a path. -/
def components (path : Bytes) : List (Step Bytes) := (path.splitOn slash).map component

/-- Where a path begins. -/
def origin (cwd : Location) (path : Bytes) : Location :=
  if path.head? = some slash then [] else cwd

/-- The place that a path leads to. -/
def locate (cwd : Location) (path : Bytes) : Location := walk (origin cwd path) (components path)

namespace Disk

variable (d : Disk)

/-- One component of a path is looked up in a directory. -/
def lookup (place : Location) (s : Step Bytes) : Option Location :=
  if d.entry place = some .dir then some (s.from place) else none

/-- The place that a path leads to, if every place on the way is a directory. -/
def resolve (path : Bytes) : Option Location :=
  if path = [] then none else (components path).foldlM d.lookup (origin d.cwd path)

/-- `stat`. -/
def stat (path : Bytes) : Option Entry := (d.resolve path).bind d.entry

/-- `fopen(path, "rb")`, and `fread` of all there is.  A directory can be opened, but not read. -/
def read (path : Bytes) : Option Bytes :=
  match d.stat path with
  | some (.file content) => some content
  | some .dir => some []
  | none => none

def set (place : Location) (e : Entry) : Disk :=
  { d with entry := Function.update d.entry place (some e) }

/-- `mkdir`.  Slashes at the end of the path do not count. -/
def mkdir (path : Bytes) : Option Disk :=
  match d.resolve (path.rdropWhile (· = slash)) with
  | some place => if d.entry place = none then some (d.set place .dir) else none
  | none => none

/-- `fopen(path, "wb")`, and `fwrite` of the data. -/
def write (path data : Bytes) : Option Disk :=
  match d.resolve path with
  | some place => if d.entry place = some .dir then none else some (d.set place (.file data))
  | none => none

end Disk

/-! ## The storage path -/

/-- `%ld`. -/
def decimalInt (n : ℤ) : Bytes := if n < 0 then 45 :: decimal n.natAbs else decimal n.natAbs

/-- `datapath`, from the time and the process id when the client is started. -/
def datapathAt (time : ℤ) (pid : ℕ) : Bytes :=
  text "clientdata." ++ decimalInt time ++ text "." ++ decimal pid

/-- The directory of a file: `"%s/%s"`. -/
def chunkDir (datapath filename : Bytes) : Bytes := datapath ++ slash :: cstr filename

/-- The file of a chunk: `"%s/%s/%u"`. -/
def chunkPath (datapath filename : Bytes) (chunk : ℕ) : Bytes :=
  chunkDir datapath filename ++ slash :: decimal chunk

/-! ## Serving and storing chunks -/

/-- What `fread` stores in the block that `malloc` was asked for.  `malloc` stands for the C
library: whether it returns a block of a size.  Nothing asks whether it did, and into NULL nothing
is read. -/
def readInto (malloc : ℕ → Bool) (size : ℕ) (data : Bytes) : Bytes :=
  if malloc size then data else []

/-- What `getChunkDataResponse` finds in the file of a chunk. -/
def storedChunk (d : Disk) (datapath filename : Bytes) (chunk : UInt32) : Option Bytes :=
  d.read (chunkPath datapath filename chunk.toNat)

/-- `writeFile`, and whether the file of the chunk could be opened. -/
def writeFile (d : Disk) (datapath filename : Bytes) (chunk : UInt32) (data : Bytes) :
    Disk × Bool :=
  let d := (d.mkdir (chunkDir datapath filename)).getD d
  match d.write (chunkPath datapath filename chunk.toNat) data with
  | some d => (d, true)
  | none => (d, false)

/-! ## Registering a file -/

/-- `isspace`. -/
def isSpace (b : UInt8) : Bool := b = 32 ∨ 9 ≤ b ∧ b ≤ 13

/-- `isdigit`. -/
def isDigit (b : UInt8) : Bool := 48 ≤ b ∧ b ≤ 57

/-- The number that a row of digits denotes. -/
def digitsValue (digits : Bytes) : ℕ := digits.foldl (fun n b => 10 * n + (b.toNat - 48)) 0

/-- The number at the front of a string, after white space and a sign; 0 if there is none. -/
def numeral (s : Bytes) : ℤ :=
  match s.dropWhile isSpace with
  | 45 :: s => -digitsValue (s.takeWhile isDigit)
  | 43 :: s => digitsValue (s.takeWhile isDigit)
  | s => digitsValue (s.takeWhile isDigit)

/-- `strtol` in base 10, and whether it sets `errno`: a number that a `long` does not hold gives
the nearest one that it holds. -/
def strtol (s : Bytes) : ℤ × Bool :=
  let n := numeral s
  if Fits 64 n then (n, false) else (if n < 0 then -2 ^ 63 else 2 ^ 63 - 1, true)

/-- The chunk size, from what was typed. -/
def chunkSize (inbuffer : Bytes) : ℤ :=
  let (chunksize, erange) := strtol (cstr inbuffer)
  if erange ∨ chunksize = 0 then 1024 else chunksize

/-- The number of chunks. -/
def chunkCount (bytes chunksize : ℤ) : ℤ :=
  let nchunks := bytes.tdiv chunksize
  if nchunks * chunksize < bytes then nchunks + 1 else nchunks

/-- What the user has chosen to register: the name of the file without its directory, what is
in it, and how it is cut. -/
structure Registration where
  filename : Bytes
  content : Bytes
  chunksize : ℤ
  nchunks : ℤ
  deriving DecidableEq

/-- The question that is asked until the answer begins with a `y` or an `n`.  Here and below
`stdin` is what the calls of `fgets` read one after the other, and there is no value if the input
ends while the program still asks. -/
def confirm : List Bytes → Option (Bool × List Bytes)
  | [] => none
  | inbuffer :: stdin =>
      if inbuffer.head? = some 121 ∨ inbuffer.head? = some 89 then some (true, stdin)
      else if inbuffer.head? = some 110 ∨ inbuffer.head? = some 78 then some (false, stdin)
      else confirm stdin

/-- The question for the path, until it is that of a regular file with something in it.  Of a
line that begins with a NUL the character before the buffer is overwritten. -/
def chooseFile (d : Disk) : List Bytes → Option ((Bytes × Bytes) × List Bytes)
  | [] => none
  | line :: stdin =>
      if cstr line = [] then none
      else
        let filepath := (cstr line).dropLast
        match d.stat filepath with
        | none => chooseFile d stdin
        | some .dir => chooseFile d stdin
        | some (.file content) =>
            if content = [] then chooseFile d stdin
            else some ((filepath.rtakeWhile (· ≠ slash), content), stdin)

/-- The registration of a file with this name and these contents, in chunks of the size that was
typed. -/
def fileRegistration (filename content inbuffer : Bytes) : Registration :=
  let chunksize := chunkSize inbuffer
  { filename, content, chunksize, nchunks := chunkCount content.length chunksize }

/-- The questions of `cmd_regfile_impl`.  Where a `no` is the answer nothing is registered. -/
def chooseRegistration (d : Disk) (stdin : List Bytes) : Option (Option Registration) := do
  let (sure, stdin) ← confirm stdin
  if !sure then return none
  else
    let ((filename, content), stdin) ← chooseFile d stdin
    match stdin with
    | [] => none
    | inbuffer :: stdin =>
        let (confirmed, _) ← confirm stdin
        return if confirmed then some (fileRegistration filename content inbuffer) else none

namespace Registration

variable (r : Registration)

/-- What the rounds of the splitting loop read into the one block of the chunk size.  The size goes
to `malloc` and to `fread` as a `size_t`. -/
def chunks (malloc : ℕ → Bool) : List Bytes :=
  let size := (r.chunksize % 2 ^ 64).toNat
  (chop size r.nchunks.toNat r.content).map (readInto malloc size)

/-- The files that the splitting loop writes, in order: the path and what is written. -/
def writes (malloc : ℕ → Bool) (datapath : Bytes) : List (Bytes × Bytes) :=
  (r.chunks malloc).zipIdx.map fun (chunk, i) => (chunkPath datapath r.filename i, chunk)

/-- The directory and the chunks are written.  There is no value where the directory cannot be
made, or a file not opened. -/
def split (malloc : ℕ → Bool) (d : Disk) (datapath : Bytes) : Option Disk := do
  let d ← d.mkdir (chunkDir datapath r.filename)
  (r.writes malloc datapath).foldlM (fun d w => d.write w.1 w.2) d

/-- The request to the server. -/
def request : RegisterFileRequest :=
  { filename := cstr r.filename, chunks := UInt32.ofInt r.nchunks }

end Registration

/-! ## Between two clients -/

section Transfer

variable (ac : Achelper)

/-- `parse_response` on the bytes of a response, up to the switch. -/
def decodeResponse (cmd : Bytes) : Option Response := do
  let (msg, _) ← ac.decodeProtobufMsgWithNFields cmd 3
  parseResponse ac (← parseIMResponseFromProtobufMsg msg)

/-- A chunk gets from the storage of a client to that of another: the first answers a request for
it, the second handles the answer.  There is no value if the chunk is not stored. -/
def fetchChunk (malloc : ℕ → Bool) (loggedInUserName : Option Bytes) (d : Disk)
    (datapath filename : Bytes) (datapath' : Bytes) (d' : Disk) (chunk : UInt32) :
    Option Disk := do
  let stored := (storedChunk d datapath filename chunk).map fun data =>
    readInto malloc data.length data
  let rsp := getChunkDataResponse ac loggedInUserName filename chunk stored
  match ← decodeResponse ac (encodeIMResponseToBytes ac rsp) with
  | .chunkDataResponse filename chunk data =>
      let (d', opened) := writeFile d' datapath' filename chunk data
      if opened then some d' else none
  | _ => none

end Transfer

/-- What is in the first chunk files of a file, in order, if they are all there. -/
def Disk.chunkFiles (d : Disk) (datapath filename : Bytes) (n : ℕ) : Option (List Bytes) :=
  (List.range n).mapM fun i => d.read (chunkPath datapath filename i)

/-! ## Names and numbers -/

lemma digit_of_mem_toDigits {n : ℕ} {c : Char} (h : c ∈ Nat.toDigits 10 n) :
    48 ≤ c.toNat ∧ c.toNat ≤ 57 := by
  have hdigit := Nat.isDigit_of_mem_toDigits (by decide) (by decide) h
  rw [Char.isDigit, Bool.and_eq_true, decide_eq_true_eq, decide_eq_true_eq] at hdigit
  exact hdigit

lemma digit_of_mem_decimal {n : ℕ} {b : UInt8} (h : b ∈ decimal n) : 48 ≤ b.toNat ∧ b.toNat ≤ 57 := by
  obtain ⟨c, hc, rfl⟩ := List.mem_map.1 h
  have hdigit := digit_of_mem_toDigits hc
  rw [UInt8.toNat_ofNat']
  omega

lemma decimal_ne_nil (n : ℕ) : decimal n ≠ [] := by
  rw [decimal, ne_eq, List.map_eq_nil_iff]
  exact Nat.toDigits_ne_nil

/-- The digits can be read back. -/
lemma toDigits_eq_decimal (n : ℕ) :
    Nat.toDigits 10 n = (decimal n).map fun b => Char.ofNat b.toNat := by
  rw [decimal, List.map_map]
  conv_lhs => rw [← List.map_id (Nat.toDigits 10 n)]
  apply List.map_congr_left
  intro c hc
  have hdigit := digit_of_mem_toDigits hc
  rw [Function.comp_apply, UInt8.toNat_ofNat', Nat.mod_eq_of_lt (by omega), Char.ofNat_toNat, id]

lemma decimal_injective : Function.Injective decimal := by
  intro m n h
  have hdigits : Nat.toDigits 10 m = Nat.toDigits 10 n := by
    rw [toDigits_eq_decimal, h, toDigits_eq_decimal]
  rw [← @Nat.ofDigitChars_ten_toDigits m, hdigits, Nat.ofDigitChars_ten_toDigits]

/-- A name that is not one of the special ones, and has no slash in it. -/
structure IsName (name : Bytes) : Prop where
  ne_nil : name ≠ []
  ne_dot : name ≠ text "."
  ne_dotdot : name ≠ text ".."
  no_slash : slash ∉ name

lemma IsName.components {name : Bytes} (h : IsName name) : components name = [.down name] := by
  rw [EpollChat.components, List.splitOn_eq_singleton h.no_slash, List.map_singleton, component,
    if_neg (by simp [h.ne_nil, h.ne_dot]), if_neg h.ne_dotdot]

lemma components_append (path more : Bytes) :
    components (path ++ slash :: more) = components path ++ components more := by
  rw [components, List.splitOn_append_cons_self, List.map_append]
  rfl

lemma isName_decimal (n : ℕ) : IsName (decimal n) where
  ne_nil := decimal_ne_nil n
  ne_dot h := by
    have hdot := @digit_of_mem_decimal n 46 (by rw [h]; decide)
    exact absurd hdot (by decide)
  ne_dotdot h := by
    have hdot := @digit_of_mem_decimal n 46 (by rw [h]; decide)
    exact absurd hdot (by decide)
  no_slash h := absurd (digit_of_mem_decimal h) (by decide)

lemma slash_notMem_decimalInt (n : ℤ) : slash ∉ decimalInt n := by
  have hdecimal := (isName_decimal n.natAbs).no_slash
  unfold decimalInt
  split
  · rw [List.mem_cons, not_or]
    exact ⟨by decide, hdecimal⟩
  · exact hdecimal

lemma isName_datapathAt (time : ℤ) (pid : ℕ) : IsName (datapathAt time pid) := by
  have hhead : (datapathAt time pid).head? = some 99 := by
    rw [datapathAt, List.append_assoc, List.append_assoc, List.head?_append]
    rfl
  refine ⟨fun h => ?_, fun h => ?_, fun h => ?_, ?_⟩
  · rw [h] at hhead
    exact absurd hhead (by decide)
  · rw [h] at hhead
    exact absurd hhead (by decide)
  · rw [h] at hhead
    exact absurd hhead (by decide)
  · simp only [datapathAt, List.mem_append, not_or]
    exact ⟨⟨⟨by decide, slash_notMem_decimalInt time⟩, by decide⟩, (isName_decimal pid).no_slash⟩

/-! ## Where the paths lead -/

lemma foldlM_lookup_nil {d : Disk} {place place' : Location} :
    [].foldlM d.lookup place = some place' ↔ place' = place := by
  rw [List.foldlM_nil]
  exact ⟨fun h => (Option.some.inj h).symm, fun h => congrArg some h.symm⟩

lemma foldlM_lookup_cons {d : Disk} {s : Step Bytes} {steps : List (Step Bytes)}
    {place place' : Location} :
    (s :: steps).foldlM d.lookup place = some place' ↔
      d.entry place = some .dir ∧ steps.foldlM d.lookup (s.from place) = some place' := by
  rw [List.foldlM_cons, Disk.lookup]
  split
  · next hdir => simp [hdir]
  · next hdir => simp [hdir]

/-- A path that leads to a place leads to the one that its components alone tell. -/
lemma foldlM_lookup {d : Disk} {steps : List (Step Bytes)} {place place' : Location}
    (h : steps.foldlM d.lookup place = some place') : place' = walk place steps := by
  induction steps generalizing place with
  | nil => exact foldlM_lookup_nil.1 h
  | cons s steps ih => exact ih (foldlM_lookup_cons.1 h).2

lemma resolve_eq_locate {d : Disk} {path : Bytes} {place : Location}
    (h : d.resolve path = some place) : path ≠ [] ∧ place = locate d.cwd path := by
  unfold Disk.resolve at h
  split at h
  · cases h
  · next hne => exact ⟨hne, foldlM_lookup h⟩

section Paths

variable {datapath : Bytes} (hdatapath : IsName datapath) (cwd : Location) (filename : Bytes)
include hdatapath

/-- A path that begins with a name does not begin at the root. -/
lemma origin_datapath (more : Bytes) : origin cwd (datapath ++ more) = cwd := by
  rw [origin, if_neg]
  intro h
  cases hcase : datapath with
  | nil => exact hdatapath.ne_nil hcase
  | cons b rest =>
      rw [hcase, List.cons_append, List.head?_cons, Option.some.injEq] at h
      exact hdatapath.no_slash (by rw [hcase, h]; exact List.mem_cons_self)

lemma locate_datapath : locate cwd datapath = cwd ++ [datapath] := by
  have horigin := origin_datapath hdatapath cwd []
  rw [List.append_nil] at horigin
  rw [locate, horigin, hdatapath.components, walk_down]

lemma locate_chunkDir :
    locate cwd (chunkDir datapath filename) =
      walk (cwd ++ [datapath]) (components (cstr filename)) := by
  rw [locate, chunkDir, origin_datapath hdatapath, components_append, hdatapath.components,
    walk_append, walk_down]

lemma locate_chunkPath (chunk : ℕ) :
    locate cwd (chunkPath datapath filename chunk) =
      walk (cwd ++ [datapath]) (components (cstr filename)) ++ [decimal chunk] := by
  rw [locate, chunkPath, components_append, (isName_decimal chunk).components, walk_append,
    walk_down, ← locate_chunkDir hdatapath, locate, chunkDir, List.append_assoc,
    origin_datapath hdatapath, origin_datapath hdatapath]

end Paths

end EpollChat

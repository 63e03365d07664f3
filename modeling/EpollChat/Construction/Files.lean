import EpollChat.Framework.Trie
import EpollChat.Construction.Proto

/-!
# The file registry and the chunk lists (`lib/file.c`)

A registered file is a trie node with a positive chunk count, and owns the chunk ids from
`chunkSid` on.  The ids come from one global counter, and every client has one flat list of the
ids it holds.  All id arithmetic is the code's own 32-bit arithmetic.

The chunk list grows by `realloc` and a loop with `int` counters.  Where the counters leave the
range of `int` the loop writes outside the block it allocated, so the two functions that grow
the list return `none` there.
-/

namespace EpollChat

/-- The two fields of `trie_file_t` besides the children. -/
structure FileNode where
  chunks : UInt32
  chunkSid : UInt32
  deriving DecidableEq

/-- `trie_file_t`. -/
abbrev FileTrie := Trie UInt8 FileNode

/-- The fields of a node `newTrieFileNode` makes.  It leaves `chunk_sid` unset, and no path reads
it while `chunks` is 0. -/
def blankFileNode : FileNode := { chunks := 0, chunkSid := 0 }

/-- `newTrieFileNode`. -/
def newTrieFileNode : FileTrie := .leaf blankFileNode

/-- `findFile`. -/
def findFile (root : FileTrie) (filename : Bytes) : Option FileNode :=
  match root.find (cstr filename) with
  | some curr => if curr.chunks > 0 then some curr else none
  | none => none

/-- `addFile`, with `global_chunk_id` passed through. -/
def addFile (root : FileTrie) (globalChunkId : UInt32) (filename : Bytes) (chunks : UInt32) :
    FileTrie × UInt32 × Option FileNode :=
  let curr := (root.find (cstr filename)).getD blankFileNode
  if curr.chunks > 0 then
    (root.update blankFileNode id (cstr filename), globalChunkId, none)
  else
    let curr := { chunkSid := globalChunkId, chunks }
    (root.update blankFileNode (fun _ => curr) (cstr filename), globalChunkId + chunks, some curr)

/-- `findFile` reads a missing node like a blank one. -/
lemma findFile_eq (root : FileTrie) (filename : Bytes) :
    findFile root filename =
      if ((root.find (cstr filename)).getD blankFileNode).chunks > 0 then
        some ((root.find (cstr filename)).getD blankFileNode)
      else none := by
  unfold findFile
  cases root.find (cstr filename) with
  | some curr => rfl
  | none => simp [blankFileNode]

@[simp] lemma findFile_newTrieFileNode (filename : Bytes) :
    findFile newTrieFileNode filename = none := by
  rw [findFile_eq]
  cases cstr filename <;> simp [newTrieFileNode, blankFileNode]

/-- The node found for a name depends on its C string only. -/
lemma findFile_congr (root : FileTrie) {filename filename' : Bytes}
    (h : cstr filename = cstr filename') : findFile root filename = findFile root filename' := by
  rw [findFile, findFile, h]

/-- Registering a name that is taken changes no file. -/
lemma addFile_of_some {root : FileTrie} {filename : Bytes} {f : FileNode}
    (h : findFile root filename = some f) (gid n : UInt32) :
    (addFile root gid filename n).2 = (gid, none) ∧
      ∀ name, findFile (addFile root gid filename n).1 name = findFile root name := by
  rw [findFile_eq] at h
  split at h
  · next hpos =>
      refine ⟨by simp only [addFile, if_pos hpos], fun name => ?_⟩
      simp only [addFile, if_pos hpos]
      by_cases hname : cstr name = cstr filename
      · simp only [findFile_eq, hname, Trie.find_update_self, Option.getD_some, id]
      · simp only [findFile_eq, Trie.find_update_of_ne _ _ hname]
  · cases h

/-- Registering a free name gives it the ids from the counter on. -/
lemma addFile_of_none {root : FileTrie} {filename : Bytes}
    (h : findFile root filename = none) (gid n : UInt32) :
    (addFile root gid filename n).2 = (gid + n, some ⟨n, gid⟩) ∧
      ∀ name, findFile (addFile root gid filename n).1 name =
        if cstr name = cstr filename then (if n > 0 then some ⟨n, gid⟩ else none)
        else findFile root name := by
  rw [findFile_eq] at h
  split at h
  · cases h
  · next hpos =>
      refine ⟨by simp only [addFile, if_neg hpos], fun name => ?_⟩
      simp only [addFile, if_neg hpos]
      by_cases hname : cstr name = cstr filename
      · simp only [findFile_eq, hname, Trie.find_update_self, Option.getD_some, if_pos]
      · simp only [findFile_eq, Trie.find_update_of_ne _ _ hname, if_neg hname]

/-- A registration keeps the files that are there. -/
lemma findFile_addFile_of_some {root : FileTrie} {name : Bytes} {f : FileNode}
    (h : findFile root name = some f) (gid : UInt32) (filename : Bytes) (n : UInt32) :
    findFile (addFile root gid filename n).1 name = some f := by
  cases hfile : findFile root filename with
  | some g => rw [(addFile_of_some hfile gid n).2, h]
  | none =>
      rw [(addFile_of_none hfile gid n).2, if_neg, h]
      intro hname
      rw [findFile_congr root hname, hfile] at h
      cases h

/-- The fields `nchunks` and `chunkids` of `im_client_t`. -/
structure ChunkList where
  nchunks : UInt32
  chunkids : List UInt32
  deriving DecidableEq

/-- `nchunks = 0`, `chunkids = NULL`. -/
def ChunkList.empty : ChunkList := { nchunks := 0, chunkids := [] }

/-- `INT_MAX`. -/
def intMax : ℕ := 2 ^ 31 - 1

/-- The `realloc` and the copying loop that `regAllFileChunk` and `regFileChunk` share. -/
def appendChunks (client : ChunkList) (ids : List UInt32) : Option ChunkList :=
  if client.nchunks.toNat + ids.length ≤ intMax then
    some
      { nchunks := client.nchunks + UInt32.ofNat ids.length
        chunkids := client.chunkids.take client.nchunks.toNat ++ ids }
  else none

/-- `regAllFileChunk`. -/
def regAllFileChunk (client : ChunkList) (file : FileNode) : Option ChunkList :=
  appendChunks client ((List.range file.chunks.toNat).map fun j => file.chunkSid + UInt32.ofNat j)

/-- `regFileChunk`. -/
def regFileChunk (client : ChunkList) (file : FileNode) (chunks : List UInt32) :
    Option ChunkList :=
  appendChunks client (chunks.map fun chunk => file.chunkSid + chunk)

/-- One round of the loop of `clientHasFileChunks`. -/
def hasFileChunk (file : FileNode) (wantedchunkmask : ℕ → Bool) (acc : ℕ × (ℕ → Bool))
    (id : UInt32) : ℕ × (ℕ → Bool) :=
  let sid := file.chunkSid
  let eid := sid + file.chunks
  if id ≥ sid ∧ id < eid then
    let ret := if acc.1 = 0 then 1 else acc.1
    (if wantedchunkmask (id - sid).toNat then 2 else ret,
      Function.update acc.2 (id - sid).toNat true)
  else acc

/-- `clientHasFileChunks`: the verdict, and the mask of chunks held with the client's own added.
0: doesn't have file; 1: has file but not desired chunks; 2: has desired chunks. -/
def clientHasFileChunks (client : ChunkList) (file : FileNode)
    (wantedchunkmask haschunkmask : ℕ → Bool) : ℕ × (ℕ → Bool) :=
  (client.chunkids.take client.nchunks.toNat).foldl (hasFileChunk file wantedchunkmask)
    (0, haschunkmask)

/-- `parse_packed_uint32` (`lib/socket.c`): the little-endian words of a byte string. -/
def parsePackedUint32 : Bytes → List UInt32
  | b₀ :: b₁ :: b₂ :: b₃ :: rest =>
      UInt32.ofNat (b₀.toNat + 2 ^ 8 * b₁.toNat + 2 ^ 16 * b₂.toNat + 2 ^ 24 * b₃.toNat) ::
        parsePackedUint32 rest
  | _ => []

end EpollChat

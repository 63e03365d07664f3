import EpollChat.Framework.Directory
import EpollChat.Framework.Simulation
import EpollChat.Properties.Accounting
import EpollChat.Properties.Activity
import EpollChat.Properties.Completion
import EpollChat.Properties.SearchFile

/-!
# The server is a directory of files

The server knows files by a trie with id ranges, and what a client holds by a list of ids on its
connection.  While the registrations fit (`Fitting`: the ids do not run out, chunk numbers are below
the count of their file, and the lists within `int`) this is the directory of
`Framework/Directory.lean`: every run of the server is a run of the directory
(`server_is_directory`).

So the answer to a search can be told from the history: the users it lists are those that are
logged in and on whose connection a requested chunk was registered (`search_history`).
-/

namespace EpollChat

variable (ac : Achelper)

/-! ## Registrations -/

/-- What a request to register a file tells the directory.  A file without chunks is none. -/
def publication (s : State) (c : ConnId) (r : RegisterFileRequest) :
    List (Listing ConnId Bytes) :=
  if isUserLoggedIn s (s.conn c).user = true ∧ findFile s.fileDb r.filename = none ∧
      0 < r.chunks.toNat then
    [.publish c (cstr r.filename) r.chunks.toNat]
  else []

/-- What a request to register chunks tells the directory. -/
def sharing (s : State) (c : ConnId) (r : ChunksRequest) :
    List (Listing ConnId Bytes) :=
  if isUserLoggedIn s (s.conn c).user = true ∧ findFile s.fileDb r.filename ≠ none then
    [.share c (cstr r.filename) ((parsePackedUint32 r.chunks).map UInt32.toNat)]
  else []

/-- What an event tells the directory. -/
def registrations (s : State) : Event → List (Listing ConnId Bytes)
  | .request (.regfile r) => (s.serving.map fun c => publication s c r).getD []
  | .request (.regchunk r) => (s.serving.map fun c => sharing s c r).getD []
  | _ => []

/-- The registrations fit. -/
def Fitting (s : State) (e : Event) : Prop := ChunksFit s e ∧ HasRoom s e

instance (s : State) (e : Event) : Decidable (Fitting s e) :=
  inferInstanceAs (Decidable (_ ∧ _))

/-- The client of the connection holds the id of the chunk of the file. -/
def HoldsChunk (s : State) (c : ConnId) (name : Bytes) (k : ℕ) : Prop :=
  ∃ f n, findFile s.fileDb name = some f ∧ n < f.chunks ∧ n.toNat = k ∧
    f.chunkSid + n ∈ (s.conn c).chunks.held

/-- The state shows the directory. -/
structure Catalogs (s : State) (d : Directory ConnId Bytes) : Prop where
  files : ∀ name, d.files (cstr name) = (findFile s.fileDb name).map fun f => f.chunks.toNat
  holds : ∀ c name k, (cstr name, k) ∈ d.holds c ↔ HoldsChunk s c name k
  /-- Connections that do not exist hold nothing. -/
  fresh : ∀ c, s.nconns ≤ c → d.holds c = ∅

variable {ac} {s t : State} {d : Directory ConnId Bytes}

lemma HoldsChunk.of_same (h : FilesSame s t) (c : ConnId) (name : Bytes) (k : ℕ) :
    HoldsChunk t c name k ↔ HoldsChunk s c name k := by
  unfold HoldsChunk
  rw [h.find, h.chunks]

/-- Files and chunk lists are the same. -/
lemma Catalogs.of_same (hd : Catalogs s d) (h : FilesSame s t) (hn : s.nconns ≤ t.nconns) :
    Catalogs t d where
  files name := by rw [h.find, hd.files]
  holds c name k := by rw [HoldsChunk.of_same h, hd.holds]
  fresh c hc := hd.fresh c (hn.trans hc)

/-! ## One registration -/

/-- Ids are appended to the chunk list of one connection. -/
lemma mem_held_setChunks (s : State) (c : ConnId) {ids : List UInt32}
    (hroom : (s.conn c).chunks.nchunks.toNat + ids.length ≤ intMax) (d : ConnId) (id : UInt32) :
    id ∈ ((setChunks s c (appendChunks (s.conn c).chunks ids)).conn d).chunks.held ↔
      id ∈ (s.conn d).chunks.held ∨ d = c ∧ id ∈ ids := by
  obtain ⟨client, happend⟩ : ∃ client, appendChunks (s.conn c).chunks ids = some client :=
    ⟨_, if_pos hroom⟩
  rw [happend]
  by_cases hd : d = c
  · subst hd
    have hheld := held_appendChunks happend
    simp [setChunks, State.setConn, hheld]
  · simp [setChunks, State.setConn, hd]

/-- The ids of the new file. -/
lemma mem_newIds {r : RegisterFileRequest} {n : UInt32} (hn : n < r.chunks) :
    s.globalChunkId + n ∈ newIds s r :=
  List.mem_map.mpr ⟨n.toNat, List.mem_range.mpr (UInt32.lt_iff_toNat_lt.mp hn), by simp⟩

/-- They are not below the counter. -/
lemma le_of_mem_newIds {r : RegisterFileRequest}
    (hfit : s.globalChunkId.toNat + r.chunks.toNat < 2 ^ 32) {id : UInt32} (hid : id ∈ newIds s r) :
    s.globalChunkId ≤ id := by
  obtain ⟨j, hj, rfl⟩ := List.mem_map.mp hid
  have hj' : j < r.chunks.toNat := List.mem_range.mp hj
  rw [UInt32.le_iff_toNat_le, UInt32.toNat_add, UInt32.toNat_ofNat']
  omega

/-- The ids of the files are below the counter. -/
lemma AllocOk.lt_of_owns {root : FileTrie} {gid : UInt32} (h : AllocOk root gid) {name : Bytes}
    {f : FileNode} (hf : findFile root name = some f) {id : UInt32} (howns : f.Owns id) : id < gid := by
  have hbelow := UInt32.le_iff_toNat_le.mp (h.below name f hf)
  have heid := UInt32.lt_iff_toNat_lt.mp howns.2
  exact UInt32.lt_iff_toNat_lt.mpr (by omega)

section RegisterFile

variable {c : ConnId} {r : RegisterFileRequest}

lemma findFile_registerFile (free : findFile s.fileDb r.filename = none) (name : Bytes) :
    findFile (registerFile s c r).fileDb name =
      if cstr name = cstr r.filename then
        if 0 < r.chunks.toNat then some ⟨r.chunks, s.globalChunkId⟩ else none
      else findFile s.fileDb name := by
  have hdb : (registerFile s c r).fileDb =
      (addFile s.fileDb s.globalChunkId r.filename r.chunks).1 := by
    unfold registerFile
    dsimp only
    rcases regAllFileChunk (s.conn c).chunks ⟨r.chunks, s.globalChunkId⟩ with _ | _ <;> rfl
  have hfind := (addFile_of_none free s.globalChunkId r.chunks).2 name
  rw [hdb, hfind]
  congr 1

lemma mem_held_registerFile
    (hroom : (s.conn c).chunks.nchunks.toNat + r.chunks.toNat ≤ intMax) (e : ConnId) (id : UInt32) :
    id ∈ ((registerFile s c r).conn e).chunks.held ↔
      id ∈ (s.conn e).chunks.held ∨ e = c ∧ id ∈ newIds s r := by
  have hlength : (newIds s r).length = r.chunks.toNat := by simp [newIds]
  rw [← hlength] at hroom
  exact mem_held_setChunks
    { s with
      fileDb := (addFile s.fileDb s.globalChunkId r.filename r.chunks).1
      globalChunkId := s.globalChunkId + r.chunks } c hroom e id

lemma nconns_registerFile (s : State) (c : ConnId) (r : RegisterFileRequest) :
    (registerFile s c r).nconns = s.nconns := by
  unfold registerFile
  dsimp only
  rcases regAllFileChunk (s.conn c).chunks ⟨r.chunks, s.globalChunkId⟩ with _ | _ <;> rfl

variable (h : IdsRegistered s) (free : findFile s.fileDb r.filename = none)
  (hfit : s.globalChunkId.toNat + r.chunks.toNat < 2 ^ 32)
  (hroom : (s.conn c).chunks.nchunks.toNat + r.chunks.toNat ≤ intMax)
include h free hfit hroom

/-- What is held of the other files stays. -/
lemma holdsChunk_registerFile_of_ne {name : Bytes} (hname : cstr name ≠ cstr r.filename)
    (e : ConnId) (k : ℕ) : HoldsChunk (registerFile s c r) e name k ↔ HoldsChunk s e name k := by
  unfold HoldsChunk
  rw [findFile_registerFile free, if_neg hname]
  refine exists_congr fun f => exists_congr fun n => and_congr_right fun hf =>
    and_congr_right fun hn => and_congr_right fun _ => ?_
  rw [mem_held_registerFile hroom]
  refine or_iff_left fun hnew => ?_
  have hlt := h.alloc.lt_of_owns hf (FileNode.owns_add (h.alloc.no_wrap _ f hf) hn)
  exact absurd hlt (UInt32.not_lt.mpr (le_of_mem_newIds hfit hnew.2))

/-- All of the new file is held by the client that registers it, and nothing by the others. -/
lemma holdsChunk_registerFile_self {name : Bytes} (hname : cstr name = cstr r.filename)
    (e : ConnId) (k : ℕ) :
    HoldsChunk (registerFile s c r) e name k ↔ e = c ∧ k < r.chunks.toNat := by
  unfold HoldsChunk
  rw [findFile_registerFile free, if_pos hname]
  constructor
  · rintro ⟨f, n, hf, hn, rfl, hheld⟩
    split at hf
    swap
    · cases hf
    obtain rfl := Option.some.inj hf
    refine ⟨?_, UInt32.lt_iff_toNat_lt.mp hn⟩
    rcases (mem_held_registerFile hroom e _).mp hheld with hold | hnew
    · -- what was held before is below the counter
      obtain ⟨name', f', n', hf', hn', hid, -⟩ := h.held e _ hold
      have hlt := h.alloc.lt_of_owns hf' (FileNode.owns_add (h.alloc.no_wrap _ f' hf') hn')
      exact absurd (hid ▸ hlt) (UInt32.not_lt.mpr (le_of_mem_newIds hfit (mem_newIds hn)))
    · exact hnew.1
  · rintro ⟨rfl, hk⟩
    have hlt : k < 2 ^ 32 := hk.trans r.chunks.toNat_lt
    have hn : UInt32.ofNat k < r.chunks := by
      rw [UInt32.lt_iff_toNat_lt, UInt32.toNat_ofNat']
      omega
    refine ⟨⟨r.chunks, s.globalChunkId⟩, UInt32.ofNat k, if_pos (by omega), hn, ?_, ?_⟩
    · rw [UInt32.toNat_ofNat']
      omega
    · exact (mem_held_registerFile hroom e _).mpr (.inr ⟨rfl, mem_newIds hn⟩)

lemma holdsChunk_registerFile (e : ConnId) (name : Bytes) (k : ℕ) :
    HoldsChunk (registerFile s c r) e name k ↔
      HoldsChunk s e name k ∨ c = e ∧ cstr r.filename = cstr name ∧ k < r.chunks.toNat := by
  by_cases hname : cstr name = cstr r.filename
  · have hnone : ¬ HoldsChunk s e name k := by
      rintro ⟨f, -, hf, -⟩
      rw [findFile_congr s.fileDb hname, free] at hf
      cases hf
    rw [holdsChunk_registerFile_self h free hfit hroom hname]
    simp only [hnone, false_or, hname, true_and, eq_comm]
  · rw [holdsChunk_registerFile_of_ne h free hfit hroom hname]
    exact (or_iff_left fun hreg => hname hreg.2.1.symm).symm

/-- A file is published, unless it has no chunks. -/
lemma Catalogs.registerFile (hd : Catalogs s d) (hc : c < s.nconns)
    (live : isUserLoggedIn s (s.conn c).user = true) :
    ∃ d', Run Directory.step Always d (publication s c r) d' ∧
      Catalogs (registerFile s c r) d' := by
  have hheld := holdsChunk_registerFile (c := c) h free hfit hroom
  by_cases hpos : 0 < r.chunks.toNat
  · have hfree : d.files (cstr r.filename) = none := by rw [hd.files, free, Option.map_none]
    rw [publication, if_pos ⟨live, free, hpos⟩]
    refine ⟨_, .single trivial (Directory.step_of_accepts ⟨hfree, hpos⟩), fun name => ?_,
      fun e name k => ?_, fun e he => ?_⟩
    · rw [findFile_registerFile free]
      by_cases hname : cstr name = cstr r.filename
      · simp [Directory.after, hname, hpos]
      · simp [Directory.after, hname, hd.files]
    · rw [Directory.mem_holds_after, hd.holds, hheld]
      rfl
    · rw [nconns_registerFile] at he
      simp [Directory.after, (hc.trans_le he).ne', hd.fresh e he]
  · rw [publication, if_neg fun hall => hpos hall.2.2]
    refine ⟨d, .nil, fun name => ?_, fun e name k => ?_, fun e he => ?_⟩
    · rw [findFile_registerFile free, hd.files]
      by_cases hname : cstr name = cstr r.filename
      · rw [if_pos hname, if_neg hpos, findFile_congr s.fileDb hname, free]
      · rw [if_neg hname]
    · rw [hd.holds, hheld]
      exact (or_iff_left fun hreg => hpos (Nat.zero_lt_of_lt hreg.2.2)).symm
    · exact hd.fresh e (nconns_registerFile s c r ▸ he)

end RegisterFile

section RegisterChunks

variable {c : ConnId} {r : ChunksRequest} {f : FileNode}

lemma mem_held_registerChunks
    (hroom : (s.conn c).chunks.nchunks.toNat + (parsePackedUint32 r.chunks).length ≤ intMax)
    (e : ConnId) (id : UInt32) :
    id ∈ ((registerChunks s c r f).conn e).chunks.held ↔
      id ∈ (s.conn e).chunks.held ∨ e = c ∧ id ∈ requestedIds r f := by
  have hlength : (requestedIds r f).length = (parsePackedUint32 r.chunks).length := by
    simp [requestedIds]
  rw [← hlength] at hroom
  exact mem_held_setChunks s c hroom e id

lemma fileDb_registerChunks (s : State) (c : ConnId) (r : ChunksRequest) (f : FileNode) :
    (registerChunks s c r f).fileDb = s.fileDb := by
  unfold registerChunks
  rcases regFileChunk (s.conn c).chunks f (parsePackedUint32 r.chunks) with _ | _ <;> rfl

lemma nconns_registerChunks (s : State) (c : ConnId) (r : ChunksRequest) (f : FileNode) :
    (registerChunks s c r f).nconns = s.nconns := by
  unfold registerChunks
  rcases regFileChunk (s.conn c).chunks f (parsePackedUint32 r.chunks) with _ | _ <;> rfl

variable (h : IdsRegistered s) (found : findFile s.fileDb r.filename = some f)
  (hfit : ∀ k ∈ parsePackedUint32 r.chunks, k < f.chunks)
  (hroom : (s.conn c).chunks.nchunks.toNat + (parsePackedUint32 r.chunks).length ≤ intMax)
include h found hfit hroom

lemma holdsChunk_registerChunks (e : ConnId) (name : Bytes) (k : ℕ) :
    HoldsChunk (registerChunks s c r f) e name k ↔
      HoldsChunk s e name k ∨ c = e ∧ cstr r.filename = cstr name ∧
        k ∈ (parsePackedUint32 r.chunks).map UInt32.toNat := by
  have howns : ∀ {name : Bytes} {g : FileNode} {n : UInt32}, findFile s.fileDb name = some g →
      n < g.chunks → g.Owns (g.chunkSid + n) :=
    fun hg hn => FileNode.owns_add (h.alloc.no_wrap _ _ hg) hn
  unfold HoldsChunk
  rw [fileDb_registerChunks]
  constructor
  · rintro ⟨g, n, hg, hn, rfl, hheld⟩
    rcases (mem_held_registerChunks hroom e _).mp hheld with hold | ⟨rfl, hnew⟩
    · exact .inl ⟨g, n, hg, hn, rfl, hold⟩
    · obtain ⟨m, hm, hid⟩ := List.mem_map.mp hnew
      obtain ⟨hname, rfl⟩ := h.alloc.identifies _ _ f g m n found hg (hfit m hm) hn hid
      exact .inr ⟨rfl, hname, List.mem_map_of_mem hm⟩
  · rintro (⟨g, n, hg, hn, rfl, hold⟩ | ⟨rfl, hname, hk⟩)
    · exact ⟨g, n, hg, hn, rfl, (mem_held_registerChunks hroom e _).mpr (.inl hold)⟩
    · obtain ⟨m, hm, rfl⟩ := List.mem_map.mp hk
      refine ⟨f, m, findFile_congr s.fileDb hname ▸ found, hfit m hm, rfl, ?_⟩
      exact (mem_held_registerChunks hroom c _).mpr (.inr ⟨rfl, List.mem_map_of_mem hm⟩)

/-- Chunks of a file are shared. -/
lemma Catalogs.registerChunks (hd : Catalogs s d) (hc : c < s.nconns)
    (live : isUserLoggedIn s (s.conn c).user = true) :
    ∃ d', Run Directory.step Always d (sharing s c r) d' ∧
      Catalogs (registerChunks s c r f) d' := by
  have hheld := holdsChunk_registerChunks (c := c) h found hfit hroom
  have hfile : d.files (cstr r.filename) = some f.chunks.toNat := by
    rw [hd.files, found, Option.map_some]
  have hsmall : ∀ k ∈ (parsePackedUint32 r.chunks).map UInt32.toNat, k < f.chunks.toNat := by
    intro k hk
    obtain ⟨m, hm, rfl⟩ := List.mem_map.mp hk
    exact UInt32.lt_iff_toNat_lt.mp (hfit m hm)
  rw [sharing, if_pos ⟨live, by rw [found]; exact Option.some_ne_none f⟩]
  refine ⟨_, .single trivial (Directory.step_of_accepts ⟨_, hfile, hsmall⟩), fun name => ?_,
    fun e name k => ?_, fun e he => ?_⟩
  · rw [fileDb_registerChunks]
    exact hd.files name
  · rw [Directory.mem_holds_after, hd.holds, hheld]
    rfl
  · rw [nconns_registerChunks] at he
    simp [Directory.after, (hc.trans_le he).ne', hd.fresh e he]

end RegisterChunks

/-! ## Runs -/

variable (ac) in
/-- The files after a request are those after its command. -/
lemma filesSame_runCommand (s : State) (c : ConnId) (req : Request) (h : ∀ t, req ≠ .unknown t) :
    FilesSame (runCommand ac s c req).1 (serve ac s c req) := by
  refine (filesSame_updateLastActive _ c).trans ?_
  rw [← runRequest_of_known ac s c h]
  exact .of_core (core_serve ac s c req)

variable (ac) in
/-- The requests the directory is told nothing of. -/
lemma filesSame_serve {c : ConnId} (hserving : s.serving = some c) {req : Request}
    (hfile : ∀ r, req = .regfile r →
      ¬ (isUserLoggedIn s (s.conn c).user = true ∧ findFile s.fileDb r.filename = none))
    (hchunk : ∀ r, req = .regchunk r →
      ¬ (isUserLoggedIn s (s.conn c).user = true ∧ findFile s.fileDb r.filename ≠ none)) :
    FilesSame s (serve ac s c req) ∧ registrations s (.request req) = [] := by
  constructor
  · rcases files_serve ac s c req with hsame | ⟨r, rfl, free, live, -⟩ | ⟨r, f, rfl, found, live, -⟩
    · exact hsame
    · exact absurd ⟨live, free⟩ (hfile r rfl)
    · exact absurd ⟨live, found ▸ Option.some_ne_none f⟩ (hchunk r rfl)
  · rcases req with _ | _ | _ | _ | _ | _ | _ | r | r | _ | _ <;> try rfl
    · rw [registrations, hserving, Option.map_some, Option.getD_some, publication,
        if_neg fun hall => hfile r rfl ⟨hall.1, hall.2.1⟩]
    · rw [registrations, hserving, Option.map_some, Option.getD_some, sharing,
        if_neg (hchunk r rfl)]

variable (ac) in
lemma Catalogs.serve (hs : TableOk s) (h : IdsRegistered s) (hd : Catalogs s d) {c : ConnId}
    (hserving : s.serving = some c) {req : Request} (hfit : Fitting s (.request req))
    (hn : s.nconns ≤ (serve ac s c req).nconns) :
    ∃ d', Run Directory.step Always d (registrations s (.request req)) d' ∧
      Catalogs (serve ac s c req) d' := by
  have hc : c < s.nconns := hs.clients_lt c (hs.serving_ok c hserving).1
  by_cases hfile : ∃ r, req = .regfile r ∧ isUserLoggedIn s (s.conn c).user = true ∧
      findFile s.fileDb r.filename = none
  · obtain ⟨r, rfl, live, free⟩ := hfile
    obtain ⟨d', run, hd'⟩ := Catalogs.registerFile h free (hfit.1 c hserving live free)
      (hfit.2 c hserving live free) hd hc live
    have hsame := filesSame_runCommand ac s c (.regfile r) fun _ heq => by cases heq
    rw [runCommand, cmdRegfileImpl_of_free ac live free] at hsame
    rw [registrations, hserving, Option.map_some, Option.getD_some]
    exact ⟨d', run, hd'.of_same hsame (nconns_registerFile s c r ▸ hn)⟩
  by_cases hchunk : ∃ r, req = .regchunk r ∧ isUserLoggedIn s (s.conn c).user = true ∧
      findFile s.fileDb r.filename ≠ none
  · obtain ⟨r, rfl, live, hfound⟩ := hchunk
    obtain ⟨f, found⟩ := Option.ne_none_iff_exists'.mp hfound
    obtain ⟨d', run, hd'⟩ := Catalogs.registerChunks h found (hfit.1 c hserving live f found)
      (hfit.2 c hserving live hfound) hd hc live
    have hsame := filesSame_runCommand ac s c (.regchunk r) fun _ heq => by cases heq
    rw [runCommand, cmdRegchunkImpl_of_found ac live found] at hsame
    rw [registrations, hserving, Option.map_some, Option.getD_some]
    exact ⟨d', run, hd'.of_same hsame (nconns_registerChunks s c r f ▸ hn)⟩
  obtain ⟨hsame, hnothing⟩ := filesSame_serve ac hserving
    (fun r heq hboth => hfile ⟨r, heq, hboth⟩) (fun r heq hboth => hchunk ⟨r, heq, hboth⟩)
  rw [hnothing]
  exact ⟨d, .nil, hd.of_same hsame hn⟩

lemma Catalogs.acceptClient (hd : Catalogs s d) (fd : ℕ) (addr : SockAddr) :
    Catalogs (acceptClient s fd addr) d := by
  obtain ⟨_, _, heq⟩ := acceptClient_eq s fd addr
  have hdb : (EpollChat.acceptClient s fd addr).fileDb = s.fileDb := by rw [heq]
  refine ⟨fun name => by rw [hdb, hd.files], fun c name k => ?_, fun c hc => ?_⟩
  · unfold HoldsChunk
    rw [hdb, conn_acceptClient]
    by_cases hc : c = s.nconns
    · subst hc
      rw [hd.fresh _ le_rfl, Function.update_self]
      simp [newConn, ChunkList.held, ChunkList.empty]
    · rw [Function.update_of_ne hc, hd.holds]
      rfl
  · rw [nconns_acceptClient] at hc
    exact hd.fresh c (by omega)

variable (ac) in
/-- Events other than requests and new connections leave the files alone. -/
lemma filesSame_exec (s : State) {e : Event} (haccept : ∀ fd addr, e ≠ .accept fd addr)
    (hrequest : ∀ req, e ≠ .request req) : FilesSame s (exec ac s e) := by
  rcases e with ⟨fd, addr⟩ | fd | fd | fd | req | _ | ⟨fd, n₁, n₂⟩ | seconds | _
  · exact absurd rfl (haccept fd addr)
  · simp only [exec]
    rcases pickConn s fd with _ | c
    · exact .refl s
    · exact filesSame_closeSocket ac s c
  · simp only [exec]
    rcases pickConn s fd with _ | c
    · exact .refl s
    · exact filesSame_closeSocket ac s c
  · exact ⟨fun _ => rfl, rfl, fun _ => rfl, fun _ _ h => h⟩
  · exact absurd rfl (hrequest req)
  · exact ⟨fun _ => rfl, rfl, fun _ => rfl, fun _ _ h => h⟩
  · simp only [exec]
    rcases pickConn s fd with _ | c
    · exact .refl s
    · exact .of_core (core_networkWritable s c n₁ n₂)
  · exact ⟨fun _ => rfl, rfl, fun _ => rfl, fun _ _ h => h⟩
  · exact filesSame_timeThread ac s

lemma registrations_of_other {e : Event} (hrequest : ∀ req, e ≠ .request req) :
    registrations s e = [] := by
  rcases e with _ | _ | _ | _ | req | _ | _ | _ | _
  case request => exact absurd rfl (hrequest req)
  all_goals rfl

variable (ac) in
/-- Every step of the server is followed by the directory. -/
lemma directory_follows :
    Follows (step ac) Fitting Directory.step Always registrations
      (fun s => TableOk s ∧ IdsRegistered s) Catalogs := by
  refine ⟨fun {s d e s'} ⟨hs, h⟩ hd hfit hstep => ?_⟩
  have hn := nconns_le_step ac hs hstep
  obtain ⟨-, -, rfl⟩ := (step_eq_some ac).mp hstep
  by_cases hrequest : ∃ req, e = .request req
  · obtain ⟨req, rfl⟩ := hrequest
    rcases hserving : s.serving with _ | c
    · have hsame : exec ac s (.request req) = s := by simp only [exec, hserving]
      have hnothing : registrations s (.request req) = [] := by
        rcases req with _ | _ | _ | _ | _ | _ | _ | _ | _ | _ | _ <;>
          simp only [registrations, hserving, Option.map_none, Option.getD_none]
      rw [hsame, hnothing]
      exact ⟨d, .nil, hd⟩
    · have heq : exec ac s (.request req) = serve ac s c req := by simp only [exec, hserving]
      rw [heq] at hn ⊢
      exact hd.serve ac hs h hserving hfit hn
  have hother : ∀ req, e ≠ .request req := fun req heq => hrequest ⟨req, heq⟩
  rw [registrations_of_other hother]
  by_cases haccept : ∃ fd addr, e = .accept fd addr
  · obtain ⟨fd, addr, rfl⟩ := haccept
    exact ⟨d, .nil, hd.acceptClient fd addr⟩
  · have hsame := filesSame_exec ac s (fun fd addr heq => haccept ⟨fd, addr, heq⟩) hother
    exact ⟨d, .nil, hd.of_same hsame hn⟩

lemma catalogs_init (p : Setup) : Catalogs p.init Directory.empty := by
  have hloaded := loaded_init p
  refine ⟨fun name => ?_, fun c name k => ?_, fun _ _ => rfl⟩
  · rw [hloaded.fileDb, findFile_newTrieFileNode]
    rfl
  · refine iff_of_false (Set.notMem_empty _) ?_
    rintro ⟨f, -, hf, -⟩
    rw [hloaded.fileDb, findFile_newTrieFileNode] at hf
    cases hf

variable (ac) in
lemma filesInvariant {p : Setup} {es : List Event} {s : State} (run : ServerRun ac p Fitting es s) :
    TableOk s ∧ IdsRegistered s :=
  ⟨run.invariant (loaded_init _).tableOk fun hs _ hstep => tableOk_step ac hs hstep,
    idsRegistered_run ac (run.weaken fun _ _ h => h.1)⟩

/-- No list has an id that stands for nothing. -/
lemma Catalogs.exists_of_held (hd : Catalogs s d) (h : IdsRegistered s) {c : ConnId} {id : UInt32}
    (hid : id ∈ (s.conn c).chunks.held) :
    ∃ name f n, findFile s.fileDb name = some f ∧ id = f.chunkSid + n ∧
      (cstr name, n.toNat) ∈ d.holds c := by
  obtain ⟨name, f, n, hf, hn, rfl, -⟩ := h.held c id hid
  exact ⟨name, f, n, hf, rfl, (hd.holds c name _).mpr ⟨f, n, hf, hn, rfl, hid⟩⟩

variable (ac) in
/-- **The server is a directory.** Every run whose registrations fit is a run of the directory, in
which every accepted request is one registration.  In the final state the directory has the files
that can be found, with their numbers of chunks, the client of a connection holds the chunks whose
ids are in its list, and every id in the list is that of such a chunk. -/
theorem server_is_directory {p : Setup} {es : List Event} {s : State}
    (run : ServerRun ac p Fitting es s) :
    ∃ d, Run Directory.step Always Directory.empty (trace (step ac) registrations p.init es) d ∧
      Catalogs s d ∧
      ∀ c, ∀ id ∈ (s.conn c).chunks.held, ∃ name f n, findFile s.fileDb name = some f ∧
        id = f.chunkSid + n ∧ (cstr name, n.toNat) ∈ d.holds c := by
  obtain ⟨d, drun, hd⟩ := (directory_follows ac).run (filesInvariant ac) (catalogs_init p) run
  exact ⟨d, drun, hd, fun _ _ hid => hd.exists_of_held (filesInvariant ac run).2 hid⟩

/-- hans registers a file of three chunks, yoda the last of them, and hans leaves. -/
def sharedFile : List Event :=
  acceptAndServe 5 [loginAs "hans" "falcon", .regfile ⟨text "a", 3⟩] ++
    acceptAndServe 6 [loginAs "yoda" "wise", .regchunk ⟨text "a", [2, 0, 0, 0]⟩] ++ [.hangup 5]

theorem server_is_directory_shared :
    ∃ (s : State) (d : Directory ConnId Bytes), ServerRun protobufWire demo Fitting sharedFile s ∧
      Run Directory.step Always Directory.empty
        (trace (step protobufWire) registrations demo.init sharedFile) d ∧ Catalogs s d := by
  obtain ⟨s, run, -⟩ := Run.exists_of_execute (step protobufWire) Fitting demo.init sharedFile
    (fun _ => True) (by decide +kernel)
  obtain ⟨d, drun, hd, -⟩ := server_is_directory protobufWire run
  exact ⟨s, d, run, drun, hd⟩

/-! ## Searching -/

/-- The user is logged in, and this chunk was registered on the connection of its session. -/
def Shares (s : State) (told : List (Listing ConnId Bytes)) (name : Bytes) (k : ℕ)
    (u : UserId) : Prop :=
  isUserLoggedIn s (some u) = true ∧
    ∃ e, (s.users u).client = some e ∧ ∃ x ∈ told, x.Registers e name k

/-- **The report is what the directory was told** of a file of `n` chunks. -/
structure SearchReport.Told (r : SearchReport) (s : State)
    (told : List (Listing ConnId Bytes)) (name : Bytes) (n : ℕ) (chunks : List UInt32) :
    Prop where
  /-- The users are in database order. -/
  order : r.users.Sublist s.first
  /-- Each is listed once. -/
  once : r.users.Nodup
  /-- They are the ones that share a requested chunk. -/
  users : ∀ u, u ∈ r.users ↔
    ∃ k < n, (chunks = [] ∨ k ∈ chunks.map UInt32.toNat) ∧ Shares s told name k u
  /-- The count is that of the chunks that somebody shares. -/
  available : r.available = {k | k < n ∧ ∃ u, Shares s told name k u}.ncard
  all : r.all = true ↔ ∀ k < n, ∃ u, Shares s told name k u

lemma offers_iff {told : List (Listing ConnId Bytes)} (hd : Catalogs s d)
    (run : Run Directory.step Always Directory.empty told d) {name : Bytes} {f : FileNode}
    (hf : findFile s.fileDb name = some f) {n : UInt32} (hn : n < f.chunks) (u : UserId) :
    Offers s f n u ↔ Shares s told (cstr name) n.toNat u := by
  have hheld : ∀ e, f.chunkSid + n ∈ (s.conn e).chunks.held ↔
      ∃ x ∈ told, x.Registers e (cstr name) n.toNat := fun e => by
    rw [← Directory.mem_holds_iff run, hd.holds]
    constructor
    · exact fun hheld => ⟨f, n, hf, hn, rfl, hheld⟩
    · rintro ⟨g, m, hg, -, hm, hheld⟩
      obtain rfl : f = g := Option.some.inj (hf.symm.trans hg)
      obtain rfl : m = n := UInt32.toNat_inj.mp hm
      exact hheld
  unfold Offers Shares
  simp only [hheld]

/-- A number below a count is a `uint32_t`. -/
lemma exists_toNat {n : UInt32} {k : ℕ} (hk : k < n.toNat) : ∃ m : UInt32, m < n ∧ m.toNat = k := by
  have hcast : (UInt32.ofNat k).toNat = k := UInt32.toNat_ofNat_of_lt' (hk.trans n.toNat_lt)
  exact ⟨UInt32.ofNat k, by rwa [UInt32.lt_iff_toNat_lt, hcast], hcast⟩

/-- An exact report is what the directory was told. -/
lemma SearchReport.Exact.told (hs : TableOk s) (honce : s.first.Nodup)
    {told : List (Listing ConnId Bytes)} (hd : Catalogs s d)
    (run : Run Directory.step Always Directory.empty told d) {name : Bytes} {f : FileNode}
    (hf : findFile s.fileDb name = some f) {r : SearchReport} {chunks : List UInt32}
    (hr : r.Exact s f chunks) : r.Told s told (cstr name) f.chunks.toNat chunks := by
  have hoffers := fun {n : UInt32} => offers_iff (n := n) hd run hf
  have hknown : ∀ {k u}, Shares s told (cstr name) k u → u ∈ s.first :=
    fun ⟨_, e, he, _⟩ => hs.client_known _ e he
  have hoffered : ∀ {n}, n < f.chunks →
      (Offered s f n ↔ ∃ u, Shares s told (cstr name) n.toNat u) := fun {n} hn => by
    constructor
    · rintro ⟨u, -, hu⟩
      exact ⟨u, (hoffers hn u).mp hu⟩
    · rintro ⟨u, hu⟩
      exact ⟨u, hknown hu, (hoffers hn u).mpr hu⟩
  refine ⟨hr.order, hr.once honce, fun u => ?_, ?_, ?_⟩
  · rw [hr.users]
    constructor
    · rintro ⟨-, n, hn, hchunks, hu⟩
      refine ⟨n.toNat, UInt32.lt_iff_toNat_lt.mp hn, hchunks.imp_right List.mem_map_of_mem, ?_⟩
      exact (hoffers hn u).mp hu
    · rintro ⟨k, hk, hchunks, hu⟩
      obtain ⟨n, hn, rfl⟩ := exists_toNat hk
      refine ⟨hknown hu, n, hn, hchunks.imp_right fun hmem => ?_, (hoffers hn u).mpr hu⟩
      obtain ⟨m, hm, heq⟩ := List.mem_map.mp hmem
      exact UInt32.toNat_inj.mp heq ▸ hm
  · have himage : UInt32.toNat '' {n | n < f.chunks ∧ Offered s f n} =
        {k | k < f.chunks.toNat ∧ ∃ u, Shares s told (cstr name) k u} := by
      ext k
      constructor
      · rintro ⟨n, ⟨hn, hoffer⟩, rfl⟩
        exact ⟨UInt32.lt_iff_toNat_lt.mp hn, (hoffered hn).mp hoffer⟩
      · rintro ⟨hk, hu⟩
        obtain ⟨n, hn, rfl⟩ := exists_toNat hk
        exact ⟨n, ⟨hn, (hoffered hn).mpr hu⟩, rfl⟩
    rw [hr.available, ← himage, Set.ncard_image_of_injective _ fun _ _ => UInt32.toNat_inj.mp]
  · rw [hr.all]
    constructor
    · intro hall k hk
      obtain ⟨n, hn, rfl⟩ := exists_toNat hk
      exact (hoffered hn).mp (hall n hn)
    · exact fun hall n hn => (hoffered hn).mpr (hall n.toNat (UInt32.lt_iff_toNat_lt.mp hn))

section Answer

variable {c : ConnId} {req : ChunksRequest} (hlive : isUserLoggedIn s (s.conn c).user = true)
include hlive

variable (ac) in
lemma searchfile_of_none (hfind : findFile s.fileDb req.filename = none) :
    (cmdSearchfileImpl ac s c req).2 = some (encodeTextResponseToIMResponse ac
      (cstr req.filename ++ text " is not available on server (not yet registered).") false) := by
  simp only [cmdSearchfileImpl, hlive, Bool.not_true, Bool.false_eq_true, if_false, hfind]

variable (ac) in
/-- The answer is the text of the report of the walk. -/
lemma searchfile_of_some {f : FileNode} (hfind : findFile s.fileDb req.filename = some f) :
    (cmdSearchfileImpl ac s c req).2 = some (encodeTextResponseToIMResponse ac
      ((searchReport s f (parsePackedUint32 req.chunks)).text s (cstr req.filename) f
        (parsePackedUint32 req.chunks)) true) := by
  have hcore := (walked_usersWithChunks s f (wantedMask f (parsePackedUint32 req.chunks))
    (if parsePackedUint32 req.chunks = [] then 1 else 2)).core
  simp only [cmdSearchfileImpl, hlive, Bool.not_true, Bool.false_eq_true, if_false, hfind,
    SearchReport.text, searchReport, decide_eq_true_eq]
  generalize usersWithChunks s f _ _ = found at hcore ⊢
  rw [usernames_congr hcore]
  by_cases hall : (List.range f.chunks.toNat).countP found.2.2 = f.chunks.toNat
  · simp only [if_pos hall]
  · simp only [if_neg hall]

end Answer

variable (ac) in
/-- **The answer to a search, from the history.** In every run whose registrations fit, a logged-in
client that searches for a file is told either that it is not there, and nobody has published it;
or its number of chunks, as it was published, and a report of who registered its chunks on the
connection of a live session. -/
theorem search_history {p : Setup} {es : List Event} {s : State}
    (run : ServerRun ac p Fitting es s) {c : ConnId} {req : ChunksRequest}
    (hlive : isUserLoggedIn s (s.conn c).user = true) :
    ((∀ e n, .publish e (cstr req.filename) n ∉ trace (step ac) registrations p.init es) ∧
      (cmdSearchfileImpl ac s c req).2 = some (encodeTextResponseToIMResponse ac
        (cstr req.filename ++ text " is not available on server (not yet registered).") false)) ∨
    ∃ (f : FileNode) (r : SearchReport),
      (∃ e, .publish e (cstr req.filename) f.chunks.toNat ∈
        trace (step ac) registrations p.init es) ∧
      r.Told s (trace (step ac) registrations p.init es) (cstr req.filename) f.chunks.toNat
        (parsePackedUint32 req.chunks) ∧
      (cmdSearchfileImpl ac s c req).2 = some (encodeTextResponseToIMResponse ac
        (r.text s (cstr req.filename) f (parsePackedUint32 req.chunks)) true) := by
  have hinv := filesInvariant ac run
  obtain ⟨d, drun, hd⟩ := (directory_follows ac).run (filesInvariant ac) (catalogs_init p) run
  have hfiles := hd.files req.filename
  rcases hfind : findFile s.fileDb req.filename with _ | f <;> rw [hfind] at hfiles
  · refine .inl ⟨fun e n hpublish => ?_, searchfile_of_none ac hlive hfind⟩
    rw [Option.map_none, (Directory.files_eq_some_iff drun).mpr ⟨e, hpublish⟩] at hfiles
    cases hfiles
  · refine .inr ⟨f, _, (Directory.files_eq_some_iff drun).mp hfiles, ?_,
      searchfile_of_some ac hlive hfind⟩
    exact (searchReport_exact (hinv.2.alloc.no_wrap _ f hfind) s _).told hinv.1
      (nodup_first (run.weaken fun _ _ _ => trivial)) hd drun hfind

/-- Once hans has left, yoda is told of the file and of who shares it. -/
theorem search_history_shared :
    ∃ s, ServerRun protobufWire demo Fitting sharedFile s ∧
      ∃ (f : FileNode) (r : SearchReport),
        r.Told s (trace (step protobufWire) registrations demo.init sharedFile) (text "a")
          f.chunks.toNat [] ∧
        (cmdSearchfileImpl protobufWire s 1 ⟨text "a", []⟩).2 =
          some (encodeTextResponseToIMResponse protobufWire (r.text s (text "a") f []) true) := by
  obtain ⟨s, run, hlive, hsuccess⟩ := Run.exists_of_execute (step protobufWire) Fitting demo.init
    sharedFile (fun s => isUserLoggedIn s (s.conn 1).user = true ∧
      ((cmdSearchfileImpl protobufWire s 1 ⟨text "a", []⟩).2.map IMResponse.success) = some true)
    (by decide +kernel)
  refine ⟨s, run, ?_⟩
  have hsearch : _ ∨ ∃ (f : FileNode) (r : SearchReport), _ ∧ _ ∧
      (cmdSearchfileImpl protobufWire s 1 ⟨text "a", []⟩).2 = _ :=
    search_history protobufWire run hlive
  rcases hsearch with ⟨-, hanswer⟩ | ⟨f, r, -, htold, hanswer⟩
  · rw [hanswer] at hsuccess
    cases hsuccess
  · exact ⟨f, r, htold, hanswer⟩

end EpollChat

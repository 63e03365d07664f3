import EpollChat.Construction.Demo
import EpollChat.Properties.ChunkAllocation
import EpollChat.Properties.SessionMachine

/-!
# Chunk registrations of different files

A client has one flat list of chunk ids for all files, and `clientHasFileChunks` reports the ids
in it that lie in the range of a file.  So a registration stays with the file it names if the
ranges of the files are disjoint, and if every registered number is below the chunk count of its
file.  The first is the allocation of `ChunkAllocation.lean`, which fails when the counter wraps.
The second is never checked: `cmd_regchunk_impl` adds `chunk_sid + chunk` for any number a
request holds, and a number past the end names a chunk of another file.

`ChunksFit` is the condition that neither happens.  In a run under it every id a client holds
was registered by a request naming the file whose chunk it is (`IdsRegistered`), and so the
reported chunks are exactly of this kind, and no request changes what is reported of a file it
does not name (`chunks_isolated_run`).
-/

namespace EpollChat

variable (ac : Achelper)

/-! ## The chunk list -/

/-- The ids in a chunk list. -/
def ChunkList.held (client : ChunkList) : List UInt32 :=
  client.chunkids.take client.nchunks.toNat

@[simp] lemma held_empty : ChunkList.empty.held = [] := rfl

/-- Growing a chunk list adds the ids at its end. -/
lemma held_appendChunks {client client' : ChunkList} {ids : List UInt32}
    (h : appendChunks client ids = some client') : client'.held = client.held ++ ids := by
  unfold appendChunks at h
  split at h
  · next hfit =>
      obtain rfl := Option.some.inj h
      have hcount : (client.nchunks + UInt32.ofNat ids.length).toNat =
          client.nchunks.toNat + ids.length := by
        have hmax : intMax < 2 ^ 32 := by decide
        rw [UInt32.toNat_add, UInt32.toNat_ofNat']
        omega
      unfold ChunkList.held
      dsimp only
      rw [hcount, List.take_of_length_le]
      rw [List.length_append, List.length_take]
      omega
  · cases h

/-- One round of the loop of `clientHasFileChunks` marks the chunk of an id the file owns. -/
lemma mask_hasFileChunk (f : FileNode) (wanted : ℕ → Bool) (acc : ℕ × (ℕ → Bool)) (id : UInt32)
    (k : ℕ) :
    (hasFileChunk f wanted acc id).2 k = true ↔
      acc.2 k = true ∨ f.Owns id ∧ (id - f.chunkSid).toNat = k := by
  unfold hasFileChunk
  dsimp only
  by_cases h : id ≥ f.chunkSid ∧ id < f.chunkSid + f.chunks
  · have howns : f.Owns id := h
    rw [if_pos h]
    by_cases hk : k = (id - f.chunkSid).toNat
    · subst hk
      simp [howns]
    · simp [hk, Ne.symm hk]
  · have hnot : ¬ f.Owns id := h
    simp [h, hnot]

/-- The reported chunks are those of the ids the file owns. -/
lemma mask_clientHasFileChunks (client : ChunkList) (f : FileNode) (wanted has : ℕ → Bool)
    (k : ℕ) :
    (clientHasFileChunks client f wanted has).2 k = true ↔
      has k = true ∨ ∃ id ∈ client.held, f.Owns id ∧ (id - f.chunkSid).toNat = k := by
  unfold clientHasFileChunks ChunkList.held
  generalize client.chunkids.take client.nchunks.toNat = ids
  suffices h : ∀ acc : ℕ × (ℕ → Bool),
      (ids.foldl (hasFileChunk f wanted) acc).2 k = true ↔
        acc.2 k = true ∨ ∃ id ∈ ids, f.Owns id ∧ (id - f.chunkSid).toNat = k from h (0, has)
  induction ids with
  | nil => simp
  | cons id ids ih =>
      intro acc
      rw [List.foldl_cons, ih, mask_hasFileChunk, or_assoc]
      simp only [List.mem_cons, exists_eq_or_imp]

/-- What is reported depends on the ids only. -/
lemma clientHasFileChunks_congr {client client' : ChunkList} (h : client'.held = client.held)
    (f : FileNode) (wanted has : ℕ → Bool) :
    clientHasFileChunks client' f wanted has = clientHasFileChunks client f wanted has := by
  show client'.held.foldl _ _ = client.held.foldl _ _
  rw [h]

/-- Ids that a file does not own do not change what is reported of it. -/
lemma clientHasFileChunks_append {client client' : ChunkList} {ids : List UInt32} {f : FileNode}
    (hheld : client'.held = client.held ++ ids) (hids : ∀ id ∈ ids, ¬ f.Owns id)
    (wanted has : ℕ → Bool) :
    clientHasFileChunks client' f wanted has = clientHasFileChunks client f wanted has := by
  have hskip : ∀ acc, ids.foldl (hasFileChunk f wanted) acc = acc := by
    intro acc
    clear hheld
    induction ids with
    | nil => rfl
    | cons id ids ih =>
        have hid : ¬ (id ≥ f.chunkSid ∧ id < f.chunkSid + f.chunks) :=
          hids id List.mem_cons_self
        have hround : hasFileChunk f wanted acc id = acc := by
          simp only [hasFileChunk, if_neg hid]
        rw [List.foldl_cons, hround]
        exact ih fun id hid => hids id (List.mem_cons_of_mem _ hid)
  show client'.held.foldl _ _ = client.held.foldl _ _
  rw [hheld, List.foldl_append, hskip]

/-! ## The condition and the invariant -/

/-- The condition on an event that the numbers of an accepted chunk registration are below the
chunk count, and that the range of a newly registered file does not reach the end of the id
space. -/
def ChunksFit (s : State) : Event → Prop
  | .request (.regfile req) =>
      ∀ c ∈ s.serving, isUserLoggedIn s (s.conn c).user = true →
        findFile s.fileDb req.filename = none →
          s.globalChunkId.toNat + req.chunks.toNat < 2 ^ 32
  | .request (.regchunk req) =>
      ∀ c ∈ s.serving, isUserLoggedIn s (s.conn c).user = true →
        ∀ f ∈ findFile s.fileDb req.filename, ∀ k ∈ parsePackedUint32 req.chunks, k < f.chunks
  | _ => True

/-- The numbers are tested one by one. -/
instance decidableForallMemLt (l : List UInt32) (n : UInt32) : Decidable (∀ k ∈ l, k < n) :=
  List.decidableBAll (· < n) l

instance (s : State) (e : Event) : Decidable (ChunksFit s e) :=
  match e with
  | .request (.regfile req) =>
      inferInstanceAs (Decidable (∀ c ∈ s.serving, isUserLoggedIn s (s.conn c).user = true →
        findFile s.fileDb req.filename = none →
          s.globalChunkId.toNat + req.chunks.toNat < 2 ^ 32))
  | .request (.regchunk req) =>
      inferInstanceAs (Decidable (∀ c ∈ s.serving, isUserLoggedIn s (s.conn c).user = true →
        ∀ f ∈ findFile s.fileDb req.filename, ∀ k ∈ parsePackedUint32 req.chunks, k < f.chunks))
  | .request (.login _) | .request (.message _) | .request (.block _) | .request (.unblock _)
  | .request .logout | .request (.whoelse _) | .request (.getip _) | .request (.searchfile _)
  | .request (.unknown _) | .accept .. | .hangup _ | .eof _ | .readable _ | .readDone
  | .writable .. | .tick _ | .sweep => .isTrue trivial

/-- A request on `c` that names the file has registered the chunk: the whole file, or this
number. -/
def Registered (log : List Obs) (c : ConnId) (name : Bytes) (k : UInt32) : Prop :=
  .regFile c name ∈ log ∨ ∃ chunks, .regChunks c name chunks ∈ log ∧ k ∈ chunks

/-- Every id a client holds is the id of a chunk that it has registered. -/
structure IdsRegistered (s : State) : Prop where
  alloc : AllocOk s.fileDb s.globalChunkId
  held : ∀ c, ∀ id ∈ (s.conn c).chunks.held, ∃ name f k,
    findFile s.fileDb name = some f ∧ k < f.chunks ∧ id = f.chunkSid + k ∧
      Registered s.log c (cstr name) k

/-- A reported chunk has been registered. -/
lemma IdsRegistered.registered {s : State} (h : IdsRegistered s) {c : ConnId} {name : Bytes}
    {f : FileNode} (hf : findFile s.fileDb name = some f) {wanted : ℕ → Bool} {k : ℕ}
    (hk : (clientHasFileChunks (s.conn c).chunks f wanted fun _ => false).2 k = true) :
    ∃ n : UInt32, n.toNat = k ∧ n < f.chunks ∧ Registered s.log c (cstr name) n := by
  rw [mask_clientHasFileChunks] at hk
  obtain hk | ⟨id, hid, howns, hk⟩ := hk
  · cases hk
  obtain ⟨name', f', n, hf', hn, rfl, hregistered⟩ := h.held c id hid
  -- the file that owns the id is the file it was registered for
  have howns' := FileNode.owns_add (h.alloc.no_wrap name' f' hf') hn
  have hname : cstr name = cstr name' := by
    by_contra hne
    exact h.alloc.disjoint name name' f f' hf hf' hne _ ⟨howns, howns'⟩
  obtain rfl : f' = f := by
    rw [findFile_congr s.fileDb hname, hf'] at hf
    exact Option.some.inj hf
  refine ⟨n, ?_, hn, hname ▸ hregistered⟩
  rw [← hk]
  congr 1
  rw [UInt32.add_comm, UInt32.add_sub_cancel]

/-! ## What leaves files and chunk lists alone -/

/-- Files, the id counter and chunk lists are the same, and registrations stay in the history. -/
structure FilesSame (s s' : State) : Prop where
  find : ∀ name, findFile s'.fileDb name = findFile s.fileDb name
  counter : s'.globalChunkId = s.globalChunkId
  chunks : ∀ c, (s'.conn c).chunks = (s.conn c).chunks
  log : ∀ o, o.isMove = false → o ∈ s.log → o ∈ s'.log

namespace FilesSame

variable {s t t' : State}

lemma refl (s : State) : FilesSame s s := ⟨fun _ => rfl, rfl, fun _ => rfl, fun _ _ h => h⟩

lemma trans (h : FilesSame s t) (h' : FilesSame t t') : FilesSame s t' where
  find name := (h'.find name).trans (h.find name)
  counter := h'.counter.trans h.counter
  chunks c := (h'.chunks c).trans (h.chunks c)
  log o ho hmem := h'.log o ho (h.log o ho hmem)

/-- They are in the core. -/
lemma of_core (h : t.core = s.core) : FilesSame s t where
  find name := by rw [fileDb_eq_of_core h]
  counter := globalChunkId_eq_of_core h
  chunks := chunks_eq_of_core h
  log o ho hmem := by
    have hlog := congrArg State.log h
    have hcore : o ∈ s.core.log := List.mem_filter.mpr ⟨hmem, by simpa using ho⟩
    rw [← hlog] at hcore
    exact (List.mem_filter.mp hcore).1

lemma core (s : State) : FilesSame s s.core where
  find _ := rfl
  counter := rfl
  chunks _ := rfl
  log _ ho hmem := List.mem_filter.mpr ⟨hmem, by simpa using ho⟩

lemma setUser (s : State) (u : UserId) (f : User → User) : FilesSame s (s.setUser u f) :=
  ⟨fun _ => rfl, rfl, fun _ => rfl, fun _ _ h => h⟩

lemma setConn (s : State) (c : ConnId) {f : Conn → Conn} (h : ∀ k, (f k).chunks = k.chunks) :
    FilesSame s (s.setConn c f) := by
  refine ⟨fun _ => rfl, rfl, fun d => ?_, fun _ _ h => h⟩
  by_cases hd : d = c
  · subst hd
    simp [State.setConn, h]
  · simp [State.setConn, hd]

lemma emit (s : State) (o : Obs) : FilesSame s (s.emit o) :=
  ⟨fun _ => rfl, rfl, fun _ => rfl, fun _ _ h => List.mem_append_left _ h⟩

end FilesSame

lemma filesSame_unlink (s : State) (u : UserId) (c : ConnId) : FilesSame s (unlink s u c) := by
  refine (FilesSame.setConn s c ?_).trans ((FilesSame.setUser _ u _).trans (.emit _ _))
  exact fun _ => rfl

lemma filesSame_unbind (s : State) (u : Option UserId) : FilesSame s (unbind s u) := by
  unfold unbind
  split
  · exact .refl s
  split
  · exact .refl s
  · exact filesSame_unlink s _ _

/-- Reading the core back. -/
lemma filesSame_of_core {s t : State} (h : FilesSame s t.core) : FilesSame s t where
  find := h.find
  counter := h.counter
  chunks := h.chunks
  log o ho hmem := (List.mem_filter.mp (h.log o ho hmem)).1

lemma filesSame_logoutUser (s : State) (u : Option UserId) :
    FilesSame s (logoutUser ac s u) := by
  apply filesSame_of_core
  rw [core_logoutUser]
  exact (FilesSame.core s).trans (filesSame_unbind s.core u)

lemma filesSame_closeSocket (s : State) (c : ConnId) : FilesSame s (closeSocket ac s c) := by
  apply filesSame_of_core
  rw [core_closeSocket]
  have hunbind := (FilesSame.core s).trans (filesSame_unbind s.core (s.conn c).user)
  exact ⟨hunbind.find, hunbind.counter, hunbind.chunks, hunbind.log⟩

lemma filesSame_updateLastActive (s : State) (c : ConnId) :
    FilesSame s (updateLastActive s c) := by
  rcases updateLastActive_eq s c with h | ⟨u, -, -, h⟩ <;> rw [h]
  · exact .refl s
  · exact .setUser s u _

lemma filesSame_link (s : State) (c : ConnId) (u : UserId) (r : LoginRequest) :
    FilesSame s (link s c u r) := by
  unfold link
  refine FilesSame.trans ((FilesSame.setConn s c ?_).trans ((FilesSame.setUser _ u _).trans
    (.emit _ _))) (.setConn _ c ?_) <;> exact fun _ => rfl

lemma filesSame_cmdLoginImpl (s : State) (c : ConnId) (r : LoginRequest) :
    FilesSame s (cmdLoginImpl ac s c r).1 := by
  cases haccepted : acceptedUser s r.username r.password with
  | none =>
      obtain ⟨rsp, hrsp⟩ := cmdLoginImpl_of_refused ac (c := c) haccepted
      rw [hrsp]
      show FilesSame s (refused s r.username r.password)
      rcases refused_cases s r.username r.password with hsame | ⟨u, attempts, lastBlocked, -, hcounted⟩
      · rw [hsame]
        exact .refl s
      · rw [hcounted]
        exact .setUser s u _
  | some u =>
      rw [cmdLoginImpl_of_accepted ac haccepted]
      have hannounced : FilesSame s (deliverAll ac (refresh s u)
          (loginAnnouncements ac (refresh s u) u r.username)) :=
        (FilesSame.setUser s u _).trans (.of_core (core_deliverAll ac _ _))
      exact hannounced.trans (filesSame_link _ c u r)

lemma filesSame_timeThread (s : State) : FilesSame s (timeThread ac s) := by
  unfold timeThread
  generalize s.clients = l
  induction l generalizing s with
  | nil => exact .refl s
  | cons c l ih =>
      refine FilesSame.trans ?_ (ih _)
      unfold sweepClient
      split
      · exact (filesSame_logoutUser ac s _).trans
          (.of_core (core_deliver ac _ ⟨.out c, .logOff, logOffResponse ac⟩))
      · exact .refl s

/-- A request is one of: a registration of a file under a free name, a registration of chunks of
a file, or something that leaves files alone. -/
lemma files_serve (s : State) (c : ConnId) (req : Request) :
    FilesSame s (serve ac s c req) ∨
    (∃ r, req = .regfile r ∧ findFile s.fileDb r.filename = none ∧
      isUserLoggedIn s (s.conn c).user = true ∧
        FilesSame (registerFile s c r) (serve ac s c req)) ∨
    ∃ r f, req = .regchunk r ∧ findFile s.fileDb r.filename = some f ∧
      isUserLoggedIn s (s.conn c).user = true ∧
        FilesSame (registerChunks s c r f) (serve ac s c req) := by
  by_cases hunknown : ∃ type, req = .unknown type
  · obtain ⟨type, rfl⟩ := hunknown
    exact .inl (.refl s)
  have hrest : FilesSame (runCommand ac s c req).1 (serve ac s c req) := by
    refine (filesSame_updateLastActive _ c).trans ?_
    rw [← runRequest_of_known ac s c fun type h => hunknown ⟨type, h⟩]
    exact .of_core (core_serve ac s c req)
  cases hquiet : req.isQuiet with
  | true =>
      have heffect := runCommand_effect ac s c hquiet
      generalize (runCommand ac s c req).1 = t at heffect hrest
      cases heffect with
      | reads _ cs => exact .inl ((FilesSame.of_core (core_touches s cs)).trans hrest)
      | messages r u ds => exact .inl ((FilesSame.of_core (core_deliverAll ac s ds)).trans hrest)
      | blocks _ u f => exact .inl ((FilesSame.setUser s u _).trans hrest)
      | taken r f found =>
          refine .inl (FilesSame.trans ?_ hrest)
          exact ⟨(addFile_of_some found s.globalChunkId r.chunks).2, rfl, fun _ => rfl, fun _ _ h => h⟩
      | file r free live => exact .inr (.inl ⟨r, rfl, free, live, hrest⟩)
      | chunks r f found live => exact .inr (.inr ⟨r, f, rfl, found, live, hrest⟩)
  | false =>
      left
      cases req with
      | login r => exact (filesSame_cmdLoginImpl ac s c r).trans hrest
      | logout =>
          refine FilesSame.trans ?_ hrest
          show FilesSame s (cmdLogoutImpl ac s c).1
          unfold cmdLogoutImpl
          split
          · exact .refl s
          · exact filesSame_closeSocket ac s c
      | _ => cases hquiet

/-! ## One registration -/

lemma IdsRegistered.of_same {s s' : State} (h : IdsRegistered s) (hsame : FilesSame s s') :
    IdsRegistered s' where
  alloc := hsame.counter ▸ h.alloc.congr hsame.find
  held c id hid := by
    rw [hsame.chunks] at hid
    obtain ⟨name, f, k, hf, hk, hidk, hregistered⟩ := h.held c id hid
    refine ⟨name, f, k, (hsame.find name).trans hf, hk, hidk, ?_⟩
    rcases hregistered with hfile | ⟨chunks, hchunks, hmem⟩
    · exact .inl (hsame.log _ rfl hfile)
    · exact .inr ⟨chunks, hsame.log _ rfl hchunks, hmem⟩

/-- What a registration adds to the chunk lists: nothing, or the ids to one of them. -/
lemma held_setChunks (s : State) (c : ConnId) (ids : List UInt32) (d : ConnId) :
    ((setChunks s c (appendChunks (s.conn c).chunks ids)).conn d).chunks.held =
        (s.conn d).chunks.held ∨
      d = c ∧ ((setChunks s c (appendChunks (s.conn c).chunks ids)).conn d).chunks.held =
        (s.conn d).chunks.held ++ ids := by
  cases happend : appendChunks (s.conn c).chunks ids with
  | none => exact .inl rfl
  | some client =>
      by_cases hd : d = c
      · subst hd
        refine .inr ⟨rfl, ?_⟩
        have hheld := held_appendChunks happend
        simp [setChunks, State.setConn, hheld]
      · left
        simp [setChunks, State.setConn, hd]

/-- The ids a file gets that is registered now. -/
def newIds (s : State) (r : RegisterFileRequest) : List UInt32 :=
  (List.range r.chunks.toNat).map fun j => s.globalChunkId + UInt32.ofNat j

/-- The ids of the chunk numbers of a request. -/
def requestedIds (r : ChunksRequest) (f : FileNode) : List UInt32 :=
  (parsePackedUint32 r.chunks).map fun chunk => f.chunkSid + chunk

lemma held_registerFile (s : State) (c : ConnId) (r : RegisterFileRequest) (d : ConnId) :
    ((registerFile s c r).conn d).chunks.held = (s.conn d).chunks.held ∨
      d = c ∧ ((registerFile s c r).conn d).chunks.held =
        (s.conn d).chunks.held ++ newIds s r :=
  held_setChunks
    { s with
      fileDb := (addFile s.fileDb s.globalChunkId r.filename r.chunks).1
      globalChunkId := s.globalChunkId + r.chunks } c (newIds s r) d

lemma held_registerChunks (s : State) (c : ConnId) (r : ChunksRequest) (f : FileNode)
    (d : ConnId) :
    ((registerChunks s c r f).conn d).chunks.held = (s.conn d).chunks.held ∨
      d = c ∧ ((registerChunks s c r f).conn d).chunks.held =
        (s.conn d).chunks.held ++ requestedIds r f :=
  held_setChunks s c (requestedIds r f) d

/-- What a request has registered stays registered. -/
lemma Registered.append {log : List Obs} {c : ConnId} {name : Bytes} {k : UInt32}
    (h : Registered log c name k) (l : List Obs) : Registered (log ++ l) c name k := by
  rcases h with hfile | ⟨chunks, hchunks, hmem⟩
  · exact .inl (List.mem_append_left l hfile)
  · exact .inr ⟨chunks, List.mem_append_left l hchunks, hmem⟩

/-- A registration that fits keeps the ids registered. -/
lemma idsRegistered_registerFile {s : State} (h : IdsRegistered s) (c : ConnId)
    {r : RegisterFileRequest} (free : findFile s.fileDb r.filename = none)
    (hfit : s.globalChunkId.toNat + r.chunks.toNat < 2 ^ 32) :
    IdsRegistered (registerFile s c r) := by
  have hlog : (registerFile s c r).log = s.log ++ [.regFile c (cstr r.filename)] := by
    unfold registerFile
    dsimp only
    cases regAllFileChunk (s.conn c).chunks ⟨r.chunks, s.globalChunkId⟩ <;> rfl
  have hdb : (registerFile s c r).fileDb =
      (addFile s.fileDb s.globalChunkId r.filename r.chunks).1 := by
    unfold registerFile
    dsimp only
    cases regAllFileChunk (s.conn c).chunks ⟨r.chunks, s.globalChunkId⟩ <;> rfl
  have hcounter : (registerFile s c r).globalChunkId = s.globalChunkId + r.chunks := by
    unfold registerFile
    dsimp only
    cases regAllFileChunk (s.conn c).chunks ⟨r.chunks, s.globalChunkId⟩ <;> rfl
  refine ⟨?_, fun d id hid => ?_⟩
  · rw [hdb, hcounter]
    exact h.alloc.register free hfit
  rw [hdb, hlog]
  have hold : id ∈ (s.conn d).chunks.held → ∃ name f k,
      findFile (addFile s.fileDb s.globalChunkId r.filename r.chunks).1 name = some f ∧
        k < f.chunks ∧ id = f.chunkSid + k ∧
          Registered (s.log ++ [.regFile c (cstr r.filename)]) d (cstr name) k := by
    intro hid
    obtain ⟨name, f, k, hf, hk, hidk, hregistered⟩ := h.held d id hid
    exact ⟨name, f, k, findFile_addFile_of_some hf _ _ _, hk, hidk, hregistered.append _⟩
  rcases held_registerFile s c r d with hsame | ⟨rfl, hadded⟩
  · exact hold (hsame ▸ hid)
  · rw [hadded] at hid
    rcases List.mem_append.mp hid with hid | hid
    · exact hold hid
    · -- an id of the new file
      obtain ⟨j, hj, rfl⟩ := List.mem_map.mp hid
      have hj' : j < r.chunks.toNat := List.mem_range.mp hj
      have hlt : UInt32.ofNat j < r.chunks := by
        have hcount : r.chunks.toNat < 2 ^ 32 := r.chunks.toNat_lt
        rw [UInt32.lt_iff_toNat_lt, UInt32.toNat_ofNat']
        omega
      have hpos : r.chunks > 0 := by
        rw [gt_iff_lt, UInt32.lt_iff_toNat_lt]
        exact Nat.lt_of_le_of_lt (Nat.zero_le j) hj'
      have hfile := (addFile_of_none free s.globalChunkId r.chunks).2 r.filename
      rw [if_pos rfl, if_pos hpos] at hfile
      exact ⟨r.filename, _, UInt32.ofNat j, hfile, hlt, rfl, .inl (by simp)⟩

lemma idsRegistered_registerChunks {s : State} (h : IdsRegistered s) (c : ConnId)
    {r : ChunksRequest} {f : FileNode} (found : findFile s.fileDb r.filename = some f)
    (hfit : ∀ k ∈ parsePackedUint32 r.chunks, k < f.chunks) :
    IdsRegistered (registerChunks s c r f) := by
  have hlog : (registerChunks s c r f).log =
      s.log ++ [.regChunks c (cstr r.filename) (parsePackedUint32 r.chunks)] := by
    unfold registerChunks
    cases regFileChunk (s.conn c).chunks f (parsePackedUint32 r.chunks) <;> rfl
  have hdb : (registerChunks s c r f).fileDb = s.fileDb := by
    unfold registerChunks
    cases regFileChunk (s.conn c).chunks f (parsePackedUint32 r.chunks) <;> rfl
  have hcounter : (registerChunks s c r f).globalChunkId = s.globalChunkId := by
    unfold registerChunks
    cases regFileChunk (s.conn c).chunks f (parsePackedUint32 r.chunks) <;> rfl
  refine ⟨hdb ▸ hcounter ▸ h.alloc, fun d id hid => ?_⟩
  rw [hdb, hlog]
  have hold : id ∈ (s.conn d).chunks.held → ∃ name g k,
      findFile s.fileDb name = some g ∧ k < g.chunks ∧ id = g.chunkSid + k ∧
        Registered (s.log ++ [.regChunks c (cstr r.filename) (parsePackedUint32 r.chunks)]) d
          (cstr name) k := by
    intro hid
    obtain ⟨name, g, k, hg, hk, hidk, hregistered⟩ := h.held d id hid
    exact ⟨name, g, k, hg, hk, hidk, hregistered.append _⟩
  rcases held_registerChunks s c r f d with hsame | ⟨rfl, hadded⟩
  · exact hold (hsame ▸ hid)
  · rw [hadded] at hid
    rcases List.mem_append.mp hid with hid | hid
    · exact hold hid
    · obtain ⟨k, hk, rfl⟩ := List.mem_map.mp hid
      exact ⟨r.filename, f, k, found, hfit k hk, rfl, .inr ⟨_, by simp, hk⟩⟩

/-! ## All runs -/

/-- A new connection holds no ids. -/
lemma idsRegistered_acceptClient {s : State} (h : IdsRegistered s) (fd : ℕ) (addr : SockAddr) :
    IdsRegistered (acceptClient s fd addr) := by
  obtain ⟨_, _, heq⟩ := acceptClient_eq s fd addr
  have hdb : (acceptClient s fd addr).fileDb = s.fileDb := by rw [heq]
  have hcounter : (acceptClient s fd addr).globalChunkId = s.globalChunkId := by rw [heq]
  refine ⟨hdb ▸ hcounter ▸ h.alloc, fun c id hid => ?_⟩
  rw [hdb, log_acceptClient]
  rw [conn_acceptClient, Function.update_apply] at hid
  split at hid
  · cases hid
  · exact h.held c id hid

lemma idsRegistered_exec {s : State} (h : IdsRegistered s) {e : Event} (hfit : ChunksFit s e) :
    IdsRegistered (exec ac s e) := by
  have hclose : ∀ c, IdsRegistered (closeSocket ac s c) :=
    fun c => h.of_same (filesSame_closeSocket ac s c)
  cases e with
  | accept fd addr => exact idsRegistered_acceptClient h fd addr
  | hangup fd | eof fd =>
      simp only [exec]
      cases pickConn s fd with
      | none => exact h
      | some c => exact hclose c
  | readable fd => exact h.of_same ⟨fun _ => rfl, rfl, fun _ => rfl, fun _ _ h => h⟩
  | request req =>
      simp only [exec]
      cases hserving : s.serving with
      | none => exact h
      | some c =>
          rcases files_serve ac s c req with hsame | ⟨r, rfl, free, live, hsame⟩ |
            ⟨r, f, rfl, found, live, hsame⟩
          · exact h.of_same hsame
          · exact (idsRegistered_registerFile h c free (hfit c hserving live free)).of_same hsame
          · exact (idsRegistered_registerChunks h c found (hfit c hserving live f found)).of_same hsame
  | readDone => exact h.of_same ⟨fun _ => rfl, rfl, fun _ => rfl, fun _ _ h => h⟩
  | writable fd n₁ n₂ =>
      simp only [exec]
      cases pickConn s fd with
      | none => exact h
      | some c => exact h.of_same (.of_core (core_networkWritable s c n₁ n₂))
  | tick seconds => exact h.of_same ⟨fun _ => rfl, rfl, fun _ => rfl, fun _ _ h => h⟩
  | sweep => exact h.of_same (filesSame_timeThread ac s)

lemma idsRegistered_run {p : Setup} {es : List Event} {s : State}
    (run : ServerRun ac p ChunksFit es s) : IdsRegistered s := by
  refine run.invariant ?_ ?_
  · have hload := loaded_init p
    refine ⟨?_, fun c id hid => ?_⟩
    · rw [hload.fileDb, hload.globalChunkId]
      exact allocOk_empty
    · rw [hload.conn] at hid
      cases hid
  · intro s e s' h hfit hstep
    obtain ⟨-, -, rfl⟩ := (step_eq_some ac).mp hstep
    exact idsRegistered_exec ac h hfit

/-- The file that a registration names. -/
def Names (name : Bytes) : Request → Prop
  | .regfile r => r.filename = name
  | .regchunk r => r.filename = name
  | _ => False

/-- A request that fits does not change what is reported of a file it does not name. -/
lemma reports_serve {s : State} (h : IdsRegistered s) {c : ConnId} (hserving : s.serving = some c)
    {req : Request} (hfit : ChunksFit s (.request req)) {name other : Bytes}
    (hnames : Names name req) (hne : cstr other ≠ cstr name) {g : FileNode}
    (hg : findFile s.fileDb other = some g) (d : ConnId) (wanted has : ℕ → Bool) :
    clientHasFileChunks ((serve ac s c req).conn d).chunks g wanted has =
      clientHasFileChunks (s.conn d).chunks g wanted has := by
  rcases files_serve ac s c req with hsame | ⟨r, rfl, free, live, hsame⟩ |
    ⟨r, f, rfl, found, live, hsame⟩
  · rw [hsame.chunks]
  · rw [hsame.chunks]
    have hrange := hfit c hserving live free
    have hids : ∀ id ∈ newIds s r, ¬ g.Owns id := by
      -- the new ids begin where the ranges of the old files end
      rintro id hid ⟨-, heid⟩
      obtain ⟨j, hj, rfl⟩ := List.mem_map.mp hid
      have hj' : j < r.chunks.toNat := List.mem_range.mp hj
      have hbelow := UInt32.le_iff_toNat_le.mp (h.alloc.below other g hg)
      rw [UInt32.lt_iff_toNat_lt, UInt32.toNat_add, UInt32.toNat_ofNat'] at heid
      omega
    rcases held_registerFile s c r d with hheld | ⟨-, hheld⟩
    · exact clientHasFileChunks_congr hheld g wanted has
    · exact clientHasFileChunks_append hheld hids wanted has
  · rw [hsame.chunks]
    obtain rfl : r.filename = name := hnames
    have hrange := hfit c hserving live f found
    have hids : ∀ id ∈ requestedIds r f, ¬ g.Owns id := by
      intro id hid howns
      obtain ⟨k, hk, rfl⟩ := List.mem_map.mp hid
      have howns' := FileNode.owns_add (h.alloc.no_wrap _ f found) (hrange k hk)
      exact h.alloc.disjoint other r.filename g f hg found hne _ ⟨howns, howns'⟩
    rcases held_registerChunks s c r f d with hheld | ⟨-, hheld⟩
    · exact clientHasFileChunks_congr hheld g wanted has
    · exact clientHasFileChunks_append hheld hids wanted has

/-- **Chunk registrations stay with their file**, in every run whose registrations fit: a chunk
reported of a file is below its count and was registered by a request naming the file, and a
registration does not change what is reported of another file. -/
theorem chunks_isolated_run {p : Setup} {es : List Event} {s : State}
    (run : ServerRun ac p ChunksFit es s) :
    (∀ name f, findFile s.fileDb name = some f → ∀ c wanted k,
      (clientHasFileChunks (s.conn c).chunks f wanted fun _ => false).2 k = true →
        ∃ n : UInt32, n.toNat = k ∧ n < f.chunks ∧ Registered s.log c (cstr name) n) ∧
    ∀ c, s.serving = some c → ∀ req, ChunksFit s (.request req) → ∀ name, Names name req →
      ∀ other g, cstr other ≠ cstr name → findFile s.fileDb other = some g →
        ∀ d wanted has,
          clientHasFileChunks ((exec ac s (.request req)).conn d).chunks g wanted has =
            clientHasFileChunks (s.conn d).chunks g wanted has := by
  have h := idsRegistered_run ac run
  refine ⟨fun name f hf c wanted k hk => h.registered hf hk, ?_⟩
  intro c hserving req hfit name hnames other g hne hg d wanted has
  simp only [exec, hserving]
  exact reports_serve ac h hserving hfit hnames hne hg d wanted has

/-- hans registers the files a and b of one chunk each, and yoda registers these chunks of a. -/
def registerDemo (chunks : Bytes) : List Event :=
  acceptAndServe 5 [loginAs "hans" "falcon", .regfile ⟨text "a", 1⟩, .regfile ⟨text "b", 1⟩] ++
    acceptAndServe 6 [loginAs "yoda" "wise", .regchunk ⟨text "a", chunks⟩]

/-- Chunk 0 of a, registered by yoda, is reported and registered. -/
theorem chunks_isolated_demo :
    ∃ s, ServerRun protobufWire demo ChunksFit (registerDemo [0, 0, 0, 0]) s ∧
      ∃ n : UInt32, n.toNat = 0 ∧ n < 1 ∧ Registered s.log 1 (cstr (text "a")) n := by
  obtain ⟨s, run, hfile, hreport⟩ := Run.exists_of_execute (step protobufWire) ChunksFit
    demo.init (registerDemo [0, 0, 0, 0])
    (fun s => findFile s.fileDb (text "a") = some ⟨1, 0⟩ ∧
      (clientHasFileChunks (s.conn 1).chunks ⟨1, 0⟩ (fun _ => false) fun _ => false).2 0 = true)
    (by decide +kernel)
  exact ⟨s, run, (chunks_isolated_run protobufWire run).1 _ _ hfile 1 _ 0 hreport⟩

/-- yoda registers chunk 1 of a, which has one chunk, and is reported as holding chunk 0 of b. -/
theorem not_chunks_isolated :
    ¬ ∀ (ac : Achelper) (p : Setup) (es : List Event) (s : State), ServerRun ac p Always es s →
      ∀ name f, findFile s.fileDb name = some f → ∀ c wanted k,
        (clientHasFileChunks (s.conn c).chunks f wanted fun _ => false).2 k = true →
          ∃ n : UInt32, n.toNat = k ∧ n < f.chunks ∧ Registered s.log c (cstr name) n := by
  intro h
  obtain ⟨s, run, hfile, hreport, hlog⟩ := Run.exists_of_execute (step protobufWire) Always
    demo.init (registerDemo [1, 0, 0, 0])
    (fun s => findFile s.fileDb (text "b") = some ⟨1, 1⟩ ∧
      (clientHasFileChunks (s.conn 1).chunks ⟨1, 1⟩ (fun _ => false) fun _ => false).2 0 = true ∧
      s.log.all fun
        | .regFile c name => c ≠ 1 ∨ name ≠ text "b"
        | .regChunks c name _ => c ≠ 1 ∨ name ≠ text "b"
        | _ => true)
    (by decide +kernel)
  obtain ⟨n, -, -, hregistered⟩ := h protobufWire demo _ s run _ _ hfile 1 _ 0 hreport
  have hname : cstr (text "b") = text "b" := by decide
  rw [hname] at hregistered
  rcases hregistered with hmem | ⟨chunks, hmem, -⟩ <;>
  · have hno := List.all_eq_true.mp hlog _ hmem
    simp at hno

end EpollChat

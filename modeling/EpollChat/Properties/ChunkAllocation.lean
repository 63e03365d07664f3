import EpollChat.Construction.Files

/-!
# Allocation of chunk ids

All registered files share one space of 32-bit chunk ids, and a file owns the ids from its
`chunkSid` up to its end `chunkSid + chunks`.  `AllocOk` says that this works: no range wraps,
different files own different ids, and every range lies below the counter that the next file
will start at.

`addFile` never checks the counter.  So the registry is in order exactly as long as the counts
of all accepted registrations sum to less than `2 ^ 32` (`allocOk_registry_iff`).  The first
registration beyond that wraps, and its file stays registered.
-/

namespace EpollChat

/-! ## The registry -/

/-- The file trie and the id counter after a sequence of `RegisterFile` requests, from a given
registry on. -/
def registerFiles (r : FileTrie × UInt32) (reqs : List RegisterFileRequest) :
    FileTrie × UInt32 :=
  reqs.foldl
    (fun r req =>
      let (fileDb, globalChunkId, _) := addFile r.1 r.2 req.filename req.chunks
      (fileDb, globalChunkId)) r

/-- The file trie and the id counter after a sequence of `RegisterFile` requests. -/
def registry (reqs : List RegisterFileRequest) : FileTrie × UInt32 :=
  registerFiles (newTrieFileNode, 0) reqs

/-- The range end `eid` of `clientHasFileChunks`, in its own 32-bit arithmetic. -/
def FileNode.eid (f : FileNode) : UInt32 := f.chunkSid + f.chunks

/-- The test of `clientHasFileChunks` for an id of a file. -/
def FileNode.Owns (f : FileNode) (id : UInt32) : Prop := f.chunkSid ≤ id ∧ id < f.eid

/-- **Allocation of chunk ids is in order.** -/
structure AllocOk (root : FileTrie) (globalChunkId : UInt32) : Prop where
  /-- The end of a range is past its start by the number of chunks. -/
  no_wrap : ∀ name f, findFile root name = some f →
    f.eid.toNat = f.chunkSid.toNat + f.chunks.toNat
  /-- No id is in the ranges of two files. -/
  disjoint : ∀ name name' f f', findFile root name = some f → findFile root name' = some f' →
    cstr name ≠ cstr name' → ∀ id, ¬ (f.Owns id ∧ f'.Owns id)
  /-- Every range lies below the counter. -/
  below : ∀ name f, findFile root name = some f → f.eid ≤ globalChunkId
  /-- A chunk id stands for one chunk of one file. -/
  identifies : ∀ name name' f f' k k', findFile root name = some f →
    findFile root name' = some f' → k < f.chunks → k' < f'.chunks →
    f.chunkSid + k = f'.chunkSid + k' → cstr name = cstr name' ∧ k = k'

/-- A chunk number below the count of a file that does not wrap has an id the file owns. -/
lemma FileNode.owns_add {f : FileNode} (h : f.eid.toNat = f.chunkSid.toNat + f.chunks.toNat)
    {k : UInt32} (hk : k < f.chunks) : f.Owns (f.chunkSid + k) := by
  have heid : f.eid.toNat < 2 ^ 32 := f.eid.toNat_lt
  rw [UInt32.lt_iff_toNat_lt] at hk
  have hadd : (f.chunkSid + k).toNat = f.chunkSid.toNat + k.toNat := by
    rw [UInt32.toNat_add]
    omega
  refine ⟨?_, ?_⟩
  · rw [UInt32.le_iff_toNat_le]
    omega
  · rw [UInt32.lt_iff_toNat_lt]
    omega

/-- Where no range wraps and no id has two owners, an id stands for one chunk. -/
lemma identifies_of_disjoint {root : FileTrie}
    (no_wrap : ∀ name f, findFile root name = some f →
      f.eid.toNat = f.chunkSid.toNat + f.chunks.toNat)
    (disjoint : ∀ name name' f f', findFile root name = some f → findFile root name' = some f' →
      cstr name ≠ cstr name' → ∀ id, ¬ (f.Owns id ∧ f'.Owns id))
    {name name' : Bytes} {f f' : FileNode} {k k' : UInt32} (hf : findFile root name = some f)
    (hf' : findFile root name' = some f') (hk : k < f.chunks) (hk' : k' < f'.chunks)
    (heq : f.chunkSid + k = f'.chunkSid + k') : cstr name = cstr name' ∧ k = k' := by
  have howns := FileNode.owns_add (no_wrap name f hf) hk
  have howns' := FileNode.owns_add (no_wrap name' f' hf') hk'
  by_cases hname : cstr name = cstr name'
  · obtain rfl : f = f' := by
      rw [findFile_congr root hname, hf'] at hf
      exact (Option.some.inj hf).symm
    exact ⟨hname, UInt32.add_right_inj _ |>.mp heq⟩
  · exact absurd ⟨howns, heq ▸ howns'⟩ (disjoint name name' f f' hf hf' hname _)

lemma allocOk_empty : AllocOk newTrieFileNode 0 where
  no_wrap := by simp
  disjoint := by simp
  below := by simp
  identifies := by simp

/-! ## One registration -/

/-- A registration whose count fits under the end of the id space keeps the allocation in
order. -/
lemma AllocOk.register {root : FileTrie} {gid : UInt32} (hok : AllocOk root gid)
    {filename : Bytes} (hfree : findFile root filename = none) {n : UInt32}
    (hfit : gid.toNat + n.toNat < 2 ^ 32) :
    AllocOk (addFile root gid filename n).1 (gid + n) := by
  have hspec := (addFile_of_none hfree gid n).2
  have hgid : (gid + n).toNat = gid.toNat + n.toNat := by
    rw [UInt32.toNat_add]
    omega
  -- a file of the new registry is the new one, or an old one, which ends at the old counter
  have hcases : ∀ name f, findFile (addFile root gid filename n).1 name = some f →
      (cstr name = cstr filename ∧ f = ⟨n, gid⟩) ∨
        (cstr name ≠ cstr filename ∧ findFile root name = some f) := by
    intro name f hf
    rw [hspec] at hf
    split at hf
    · next hname =>
        split at hf
        · exact .inl ⟨hname, (Option.some.inj hf).symm⟩
        · cases hf
    · next hname => exact .inr ⟨hname, hf⟩
  have hno_wrap : ∀ name f, findFile (addFile root gid filename n).1 name = some f →
      f.eid.toNat = f.chunkSid.toNat + f.chunks.toNat := by
    intro name f hf
    rcases hcases name f hf with ⟨-, rfl⟩ | ⟨-, hf⟩
    · exact hgid
    · exact hok.no_wrap name f hf
  have hdisjoint : ∀ name name' f f',
      findFile (addFile root gid filename n).1 name = some f →
      findFile (addFile root gid filename n).1 name' = some f' →
      cstr name ≠ cstr name' → ∀ id, ¬ (f.Owns id ∧ f'.Owns id) := by
    intro name name' f f' hf hf' hname id ⟨⟨hsid, heid⟩, hsid', heid'⟩
    rcases hcases name f hf with ⟨hn, rfl⟩ | ⟨-, hf⟩ <;>
      rcases hcases name' f' hf' with ⟨hn', rfl⟩ | ⟨-, hf'⟩
    · exact hname (hn.trans hn'.symm)
    · have hbelow := hok.below name' f' hf'
      exact absurd (UInt32.lt_of_lt_of_le heid' (UInt32.le_trans hbelow hsid)) (UInt32.lt_irrefl _)
    · have hbelow := hok.below name f hf
      exact absurd (UInt32.lt_of_lt_of_le heid (UInt32.le_trans hbelow hsid')) (UInt32.lt_irrefl _)
    · exact hok.disjoint name name' f f' hf hf' hname id ⟨⟨hsid, heid⟩, hsid', heid'⟩
  refine ⟨hno_wrap, hdisjoint, ?_, fun name name' f f' k k' hf hf' hk hk' heq =>
    identifies_of_disjoint hno_wrap hdisjoint hf hf' hk hk' heq⟩
  intro name f hf
  rcases hcases name f hf with ⟨-, rfl⟩ | ⟨-, hf⟩
  · exact UInt32.le_refl _
  · have hbelow := hok.below name f hf
    rw [UInt32.le_iff_toNat_le] at hbelow ⊢
    omega

/-- A registration whose count does not fit leaves a file that wraps. -/
lemma wraps_addFile_of_none {root : FileTrie} {gid : UInt32} {filename : Bytes}
    (hfree : findFile root filename = none) {n : UInt32} (hpos : 0 < n)
    (hover : 2 ^ 32 ≤ gid.toNat + n.toNat) :
    ∃ f, findFile (addFile root gid filename n).1 filename = some f ∧
      f.eid.toNat ≠ f.chunkSid.toNat + f.chunks.toNat := by
  refine ⟨⟨n, gid⟩, ?_, ?_⟩
  · rw [(addFile_of_none hfree gid n).2, if_pos rfl, if_pos hpos]
  · have := (FileNode.eid ⟨n, gid⟩).toNat_lt
    dsimp only
    omega

/-- A registration under a taken name, or of no chunks, keeps the allocation in order. -/
lemma AllocOk.congr {root root' : FileTrie} {gid : UInt32} (hok : AllocOk root gid)
    (h : ∀ name, findFile root' name = findFile root name) : AllocOk root' gid where
  no_wrap name f hf := hok.no_wrap name f (h name ▸ hf)
  disjoint name name' f f' hf hf' :=
    hok.disjoint name name' f f' (h name ▸ hf) (h name' ▸ hf')
  below name f hf := hok.below name f (h name ▸ hf)
  identifies name name' f f' k k' hf hf' :=
    hok.identifies name name' f f' k k' (h name ▸ hf) (h name' ▸ hf')

/-! ## Sequences of registrations -/

/-- The counts of the registrations that are accepted when the names `registered` are taken:
the first with a positive count under each new name. -/
def acceptedChunks (registered : List Bytes) : List RegisterFileRequest → ℕ
  | [] => 0
  | req :: reqs =>
      if cstr req.filename ∈ registered ∨ req.chunks = 0 then acceptedChunks registered reqs
      else req.chunks.toNat + acceptedChunks (cstr req.filename :: registered) reqs

/-- A file that is registered stays registered. -/
lemma findFile_registerFiles_of_some {name : Bytes} {f : FileNode}
    (reqs : List RegisterFileRequest) {r : FileTrie × UInt32}
    (h : findFile r.1 name = some f) : findFile (registerFiles r reqs).1 name = some f := by
  induction reqs generalizing r with
  | nil => exact h
  | cons req reqs ih => exact ih (findFile_addFile_of_some h r.2 req.filename req.chunks)

/-- From a registry in order, the allocation stays in order exactly when the counter and the
counts still to be accepted fit into the id space. -/
lemma allocOk_registerFiles_iff (reqs : List RegisterFileRequest) {root : FileTrie}
    {gid : UInt32} {registered : List Bytes} (hok : AllocOk root gid)
    (hnames : ∀ name, cstr name ∈ registered ↔ findFile root name ≠ none) :
    AllocOk (registerFiles (root, gid) reqs).1 (registerFiles (root, gid) reqs).2 ↔
      gid.toNat + acceptedChunks registered reqs < 2 ^ 32 := by
  induction reqs generalizing root gid registered with
  | nil =>
      have hlt : gid.toNat < 2 ^ 32 := gid.toNat_lt
      exact iff_of_true hok hlt
  | cons req reqs ih =>
      simp only [acceptedChunks]
      show AllocOk (registerFiles ((addFile root gid req.filename req.chunks).1,
          (addFile root gid req.filename req.chunks).2.1) reqs).1
        (registerFiles ((addFile root gid req.filename req.chunks).1,
          (addFile root gid req.filename req.chunks).2.1) reqs).2 ↔ _
      cases hfile : findFile root req.filename with
      | some f =>
          obtain ⟨hsnd, hspec⟩ := addFile_of_some hfile gid req.chunks
          have htaken : cstr req.filename ∈ registered := (hnames _).mpr (by simp [hfile])
          rw [hsnd, if_pos (.inl htaken)]
          exact ih (hok.congr hspec) fun name => by rw [hspec, hnames]
      | none =>
          obtain ⟨hsnd, hspec⟩ := addFile_of_none hfile gid req.chunks
          have hnew : cstr req.filename ∉ registered := fun h => (hnames _).mp h hfile
          rw [hsnd]
          by_cases hzero : req.chunks = 0
          · have hkeep : ∀ name,
                findFile (addFile root gid req.filename req.chunks).1 name =
                  findFile root name := by
              intro name
              rw [hspec, hzero, if_neg (UInt32.lt_irrefl 0)]
              split
              · next hname => rw [findFile_congr root hname, hfile]
              · rfl
            have hgid : gid + req.chunks = gid := by rw [hzero, UInt32.add_zero]
            rw [if_pos (.inr hzero), hgid]
            exact ih (hok.congr hkeep) fun name => by rw [hkeep, hnames]
          · have hpos : 0 < req.chunks := by
              rw [UInt32.lt_iff_toNat_lt]
              have : req.chunks.toNat ≠ 0 := fun h => hzero (UInt32.toNat_inj.mp h)
              exact Nat.pos_of_ne_zero this
            rw [if_neg (not_or.mpr ⟨hnew, hzero⟩), ← Nat.add_assoc]
            by_cases hfit : gid.toNat + req.chunks.toNat < 2 ^ 32
            · have hgid : (gid + req.chunks).toNat = gid.toNat + req.chunks.toNat := by
                rw [UInt32.toNat_add]
                omega
              rw [← hgid]
              refine ih (hok.register hfile hfit) fun name => ?_
              rw [hspec, List.mem_cons, hnames, if_pos hpos]
              by_cases hname : cstr name = cstr req.filename <;> simp [hname]
            · obtain ⟨f, hf, hwrap⟩ := wraps_addFile_of_none hfile hpos (not_lt.mp hfit)
              refine iff_of_false (fun h => hwrap ?_) (by omega)
              exact h.no_wrap _ _ (findFile_registerFiles_of_some reqs hf)

/-- **Chunk id allocation.** After any sequence of registrations the ranges of all files do not
wrap, are disjoint and lie below the counter, exactly when the accepted counts sum to less than
`2 ^ 32`. -/
theorem allocOk_registry_iff (reqs : List RegisterFileRequest) :
    AllocOk (registry reqs).1 (registry reqs).2 ↔ acceptedChunks [] reqs < 2 ^ 32 := by
  have hnames : ∀ name, cstr name ∈ ([] : List Bytes) ↔ findFile newTrieFileNode name ≠ none := by
    simp
  have h := allocOk_registerFiles_iff reqs allocOk_empty hnames
  simpa [registry] using h

/-- Three registrations of `0x60000000` chunks each: the third range wraps. -/
theorem not_allocOk_registry :
    ¬ ∀ reqs : List RegisterFileRequest, AllocOk (registry reqs).1 (registry reqs).2 := by
  intro h
  have hok := h [⟨text "a", 0x60000000⟩, ⟨text "b", 0x60000000⟩, ⟨text "c", 0x60000000⟩]
  have hfile : findFile (registry [⟨text "a", 0x60000000⟩, ⟨text "b", 0x60000000⟩,
      ⟨text "c", 0x60000000⟩]).1 (text "c") = some ⟨0x60000000, 0xC0000000⟩ := by decide
  have hwrap := hok.no_wrap _ _ hfile
  revert hwrap
  decide

end EpollChat

import EpollChat.Construction.ChunkGrowth
import EpollChat.Properties.ChunkIsolation

/-!
# Growth of the chunk list

A client's chunk list grows by the ids of a registered file (`regAllFileChunk`) or by the chunks
of a file that a client reports (`regFileChunk`).  `GrowthOk` says that a growth works: the count
asked of `realloc` is the sum of the two lengths, the stores stay inside the block, no counter
overflows, and the list afterwards is the old one followed by the new ids.

The counters are `int`, the counts `uint32_t` from the network.  So a growth works exactly as
long as every counter ends at `INT_MAX` or below (`growthOk_iff`).  Beyond that it may be the
size of the block that wraps, and then the stores run past it.
-/

namespace EpollChat

open SignedInt

/-- The ids that `regAllFileChunk` appends. -/
def FileNode.ids (f : FileNode) : List UInt32 :=
  (List.range f.chunks.toNat).map fun j => f.chunkSid + UInt32.ofNat j

@[simp] lemma length_ids (f : FileNode) : f.ids.length = f.chunks.toNat := by
  rw [FileNode.ids, List.length_map, List.length_range]

/-- The ids that `regFileChunk` appends. -/
def FileNode.idsOf (f : FileNode) (chunks : List UInt32) : List UInt32 :=
  chunks.map fun chunk => f.chunkSid + chunk

@[simp] lemma length_idsOf (f : FileNode) (chunks : List UInt32) :
    (f.idsOf chunks).length = chunks.length :=
  List.length_map _

/-- **The growth fits its allocation.** -/
structure GrowthOk (client : ChunkList) (ids : List UInt32) (growth : Option Growth) : Prop where
  /-- No counter overflows. -/
  completes : growth.isSome
  /-- The count asked of `realloc` is exact. -/
  requested : ∀ g ∈ growth, g.requested.toNat = client.nchunks.toNat + ids.length
  /-- Every store is inside the block. -/
  inside : ∀ g ∈ growth, ∀ s ∈ g.stores, 0 ≤ s.1 ∧ s.1 < g.requested.toNat
  /-- The list is the old one followed by the new ids. -/
  appended : ∀ g ∈ growth, g.chunkids client.chunkids = (client.chunkids ++ ids).map some

instance (client : ChunkList) (ids : List UInt32) (growth : Option Growth) :
    Decidable (GrowthOk client ids growth) :=
  decidable_of_iff
    (growth.isSome ∧ (∀ g ∈ growth, g.requested.toNat = client.nchunks.toNat + ids.length) ∧
      (∀ g ∈ growth, ∀ s ∈ g.stores, 0 ≤ s.1 ∧ s.1 < g.requested.toNat) ∧
      ∀ g ∈ growth, g.chunkids client.chunkids = (client.chunkids ++ ids).map some)
    ⟨fun h => ⟨h.1, h.2.1, h.2.2.1, h.2.2.2⟩, fun h => ⟨h.1, h.2, h.3, h.4⟩⟩

/-! ## The two loops -/

section Loop

variable {σ : Type*} {count : UInt32} {next : σ → Option σ} {value : ℕ → σ → UInt32}
  {client : ChunkList} {k : σ}

lemma growChunks_eq_some_iff {g : Growth} :
    growChunks count next value client k = some g ↔
      Fits 32 (converted 32 client.nchunks.toNat + count.toNat) ∧ Fits 32 (0 + count.toNat) ∧
        ∃ trace : ℕ → σ, trace 0 = k ∧
          (∀ m < count.toNat, next (trace m) = some (trace (m + 1))) ∧
          g = ⟨client.nchunks + count,
            storesOf value (converted 32 client.nchunks.toNat) 0 trace count.toNat,
            client.nchunks + count⟩ := by
  have hstores := fun stores =>
    @storeLoop_eq_some_iff σ count next value count.toNat (converted 32 client.nchunks.toNat) 0 k
      stores (fits_converted (by decide) _) (by decide) le_rfl (Nat.zero_add _)
  unfold growChunks
  simp only [Option.bind_eq_bind, Option.bind_eq_some_iff, hstores]
  constructor
  · rintro ⟨stores, ⟨hi, hj, trace, hk, hnext, rfl⟩, hg⟩
    exact ⟨hi, hj, trace, hk, hnext, (Option.some.inj hg).symm⟩
  · rintro ⟨hi, hj, trace, hk, hnext, rfl⟩
    exact ⟨_, ⟨hi, hj, trace, hk, hnext, rfl⟩, rfl⟩

variable (value) in
/-- Where no counter passes `INT_MAX`, the growth works. -/
lemma growthOk_of_trace (hlen : client.chunkids.length = client.nchunks.toNat)
    (hfit : client.nchunks.toNat + count.toNat ≤ intMax) (trace : ℕ → σ) (h₀ : trace 0 = k)
    (hnext : ∀ m < count.toNat, next (trace m) = some (trace (m + 1))) :
    GrowthOk client ((List.range count.toNat).map fun m => value m (trace m))
      (growChunks count next value client k) := by
  have hmax : intMax < 2 ^ 31 := by decide
  have hconv : converted 32 client.nchunks.toNat = client.nchunks.toNat :=
    converted_of_fits (by decide) ⟨by omega, by omega⟩
  have hreq : (client.nchunks + count).toNat = client.nchunks.toNat + count.toNat := by
    rw [UInt32.toNat_add]
    omega
  have hg : growChunks count next value client k =
      some ⟨client.nchunks + count, storesOf value client.nchunks.toNat 0 trace count.toNat,
        client.nchunks + count⟩ := by
    rw [growChunks_eq_some_iff, hconv]
    exact ⟨⟨by omega, by omega⟩, ⟨by omega, by omega⟩, trace, h₀, hnext, rfl⟩
  rw [hg]
  refine ⟨rfl, ?_, ?_, ?_⟩
  · rintro g ⟨rfl⟩
    rw [hreq, List.length_map, List.length_range]
  · rintro g ⟨rfl⟩ s hs
    obtain ⟨m, hm, rfl⟩ := List.mem_map.1 hs
    have hm := List.mem_range.1 hm
    simp only [hreq]
    omega
  · rintro g ⟨rfl⟩
    have hblock := @foldl_store σ value 0 le_rfl trace count.toNat
      (client.chunkids.map some)
    rw [List.length_map, hlen] at hblock
    have htake : client.chunkids.take (client.nchunks.toNat + count.toNat) = client.chunkids :=
      List.take_of_length_le (by omega)
    simp only [Growth.chunkids, Growth.block, hreq]
    rw [htake, show client.nchunks.toNat + count.toNat - client.chunkids.length = count.toNat by omega,
      hblock, List.take_of_length_le, List.map_append]
    · simp [storesOf]
    · simp [storesOf, hlen]

/-- A growth that works and appends anything ends with its counters at `INT_MAX` or below. -/
lemma GrowthOk.trace {ids : List UInt32}
    (h : GrowthOk client ids (growChunks count next value client k)) (hpos : 0 < count.toNat) :
    client.nchunks.toNat + count.toNat ≤ intMax ∧ ∃ trace : ℕ → σ, trace 0 = k ∧
      ∀ m < count.toNat, next (trace m) = some (trace (m + 1)) := by
  obtain ⟨g, hg⟩ := Option.isSome_iff_exists.1 h.completes
  obtain ⟨hi, -, trace, hk, hnext, rfl⟩ := growChunks_eq_some_iff.1 hg
  refine ⟨?_, trace, hk, hnext⟩
  -- the first store is at `i = (int)nchunks`, which is negative from `2 ^ 31` on
  have hfirst := (h.inside _ hg (converted 32 client.nchunks.toNat + (0 : ℕ), value 0 (trace 0))
    (List.mem_map.2 ⟨0, List.mem_range.2 hpos, rfl⟩)).1
  have hlt : client.nchunks.toNat < 2 ^ 31 := by
    by_contra hge
    have hneg := @converted_neg 32 client.nchunks.toNat (by decide) (by omega)
      (by exact_mod_cast client.nchunks.toNat_lt)
    omega
  have hmax : intMax = 2 ^ 31 - 1 := rfl
  rw [converted_of_fits (by decide) ⟨by omega, by omega⟩] at hi
  have hend : (client.nchunks.toNat : ℤ) + count.toNat < 2 ^ 31 := hi.2
  omega

/-- A growth by nothing works. -/
lemma growthOk_zero (hlen : client.chunkids.length = client.nchunks.toNat)
    (hcount : count.toNat = 0) : GrowthOk client [] (growChunks count next value client k) := by
  have hzero : count = 0 := UInt32.toNat_inj.1 hcount
  have hg : growChunks count next value client k = some ⟨client.nchunks, [], client.nchunks⟩ := by
    rw [growChunks_eq_some_iff, hcount]
    refine ⟨?_, by decide, fun _ => k, rfl, fun m hm => absurd hm (Nat.not_lt_zero m), ?_⟩
    · simpa using fits_converted (by decide) _
    · rw [hzero, UInt32.add_zero, storesOf_zero]
  rw [hg]
  refine ⟨rfl, ?_, ?_, ?_⟩
  · rintro g ⟨rfl⟩
    rfl
  · rintro g ⟨rfl⟩ s hs
    cases hs
  · rintro g ⟨rfl⟩
    rw [Growth.chunkids, List.foldl_nil, Growth.block, hlen, Nat.sub_self, List.replicate_zero,
      List.append_nil, List.append_nil, ← hlen, List.take_length, ← List.length_map (f := some),
      List.take_length]

end Loop

/-! ## When the growth works -/

lemma ofInt_natCast (n : ℕ) : UInt32.ofInt n = UInt32.ofNat n := by
  apply UInt32.toNat_inj.1
  rw [UInt32.ofInt, UInt32.toNat_ofNat', UInt32.toNat_ofNat']
  omega

/-- An id that was taken to an `int` comes back. -/
lemma ofInt_converted (n : UInt32) : UInt32.ofInt (converted 32 n.toNat) = n := by
  have hmod : converted 32 n.toNat % 2 ^ 32 = n.toNat % 2 ^ 32 := Int.bmod_emod
  rw [UInt32.ofInt, hmod]
  apply UInt32.toNat_inj.1
  rw [UInt32.toNat_ofNat']
  have hlt := n.toNat_lt
  omega

/-- The ids are the values of `k`. -/
lemma ids_eq_of_trace (file : FileNode) :
    file.ids = (List.range file.chunks.toNat).map fun m : ℕ =>
      UInt32.ofInt (converted 32 file.chunkSid.toNat + m) := by
  apply List.map_congr_left
  intro m _
  rw [UInt32.ofInt_add, ofInt_converted, ofInt_natCast]

/-- `regAllFileChunk` counts up to `nchunks + chunks` and up to the end of the ids. -/
lemma growthOk_regAllFileChunk_iff {client : ChunkList}
    (hlen : client.chunkids.length = client.nchunks.toNat) (file : FileNode) :
    GrowthOk client file.ids (regAllFileChunkGrowth client file) ↔
      file.chunks.toNat = 0 ∨ client.nchunks.toNat + file.chunks.toNat ≤ intMax ∧
        converted 32 file.chunkSid.toNat + file.chunks.toNat ≤ intMax := by
  have hmax : intMax = 2 ^ 31 - 1 := rfl
  have hsid : Fits 32 (converted 32 file.chunkSid.toNat) := fits_converted (by decide) _
  constructor
  · intro h
    by_cases hcount : file.chunks.toNat = 0
    · exact .inl hcount
    · obtain ⟨hend, trace, h₀, hnext⟩ := h.trace (Nat.pos_of_ne_zero hcount)
      rw [← h₀] at hsid ⊢
      have hk : trace 0 + file.chunks.toNat < 2 ^ 31 := (fits_of_trace hsid hnext).2
      rw [hmax] at hend ⊢
      exact .inr ⟨hend, by omega⟩
  · rintro (hcount | ⟨hend, hk⟩)
    · have hids : file.ids = [] := List.eq_nil_of_length_eq_zero (by rwa [length_ids])
      rw [hids]
      exact growthOk_zero hlen hcount
    · have hlo : (-2 ^ 31 : ℤ) ≤ converted 32 file.chunkSid.toNat := hsid.1
      have hfit : Fits 32 (converted 32 file.chunkSid.toNat + file.chunks.toNat) :=
        ⟨by omega, by omega⟩
      rw [ids_eq_of_trace]
      exact growthOk_of_trace (fun _ k => UInt32.ofInt k) hlen hend
        (fun m : ℕ => converted 32 file.chunkSid.toNat + m)
        (by rw [Nat.cast_zero, add_zero]) fun m hm => checked_add_one hsid hfit hm

/-- `regFileChunk` counts up to `nchunks` and the length of the list. -/
lemma growthOk_regFileChunk_iff {client : ChunkList}
    (hlen : client.chunkids.length = client.nchunks.toNat) (file : FileNode)
    (chunks : List UInt32) :
    GrowthOk client (file.idsOf chunks) (regFileChunkGrowth client file chunks) ↔
      chunks.length = 0 ∨ client.nchunks.toNat + chunks.length ≤ intMax := by
  have hmax : intMax = 2 ^ 31 - 1 := rfl
  by_cases hlt : chunks.length < 2 ^ 32
  · have hcount : (UInt32.ofNat chunks.length).toNat = chunks.length := by
      rw [UInt32.toNat_ofNat', Nat.mod_eq_of_lt hlt]
    have hgrow : regFileChunkGrowth client file chunks =
        growChunks (UInt32.ofNat chunks.length) some
          (fun j _ => file.chunkSid + chunks.getD j 0) client () := by
      rw [regFileChunkGrowth, countChunks_eq, if_pos hlt]
      rfl
    rw [hgrow]
    constructor
    · intro h
      by_cases hzero : chunks.length = 0
      · exact .inl hzero
      · have hend := (h.trace (by omega)).1
        rw [hcount] at hend
        exact .inr hend
    · rintro (hzero | hend)
      · rw [List.eq_nil_of_length_eq_zero hzero]
        exact growthOk_zero hlen rfl
      · have hids : file.idsOf chunks =
            (List.range (UInt32.ofNat chunks.length).toNat).map fun m =>
              file.chunkSid + chunks.getD m 0 := by
          rw [hcount]
          apply List.ext_getElem
          · rw [length_idsOf, List.length_map, List.length_range]
          · intro m hm _
            rw [length_idsOf] at hm
            simp [FileNode.idsOf, hm]
        rw [hids]
        have hfit : client.nchunks.toNat + (UInt32.ofNat chunks.length).toNat ≤ intMax := by
          rwa [hcount]
        exact growthOk_of_trace (fun j _ => file.chunkSid + chunks.getD j 0) hlen hfit
          (fun _ => ()) rfl fun _ _ => rfl
  · rw [regFileChunkGrowth, countChunks_eq, if_neg hlt]
    constructor
    · intro h
      cases h.completes
    · intro h
      omega

/-- **The growth of the chunk list fits its allocation exactly as long as every counter ends at
`INT_MAX` or below**, for every client, every file and every list of chunks. -/
theorem growthOk_iff (client : ChunkList)
    (hlen : client.chunkids.length = client.nchunks.toNat) (file : FileNode) :
    (GrowthOk client file.ids (regAllFileChunkGrowth client file) ↔
      file.chunks.toNat = 0 ∨ client.nchunks.toNat + file.chunks.toNat ≤ intMax ∧
        converted 32 file.chunkSid.toNat + file.chunks.toNat ≤ intMax) ∧
    ∀ chunks, GrowthOk client (file.idsOf chunks) (regFileChunkGrowth client file chunks) ↔
      chunks.length = 0 ∨ client.nchunks.toNat + chunks.length ≤ intMax :=
  ⟨growthOk_regAllFileChunk_iff hlen file, growthOk_regFileChunk_iff hlen file⟩

/-- A client with the chunk 0 registers a file of two chunks, and reports one of them again. -/
theorem growthOk_demo :
    GrowthOk ⟨1, [0]⟩ (FileNode.ids ⟨2, 1⟩) (regAllFileChunkGrowth ⟨1, [0]⟩ ⟨2, 1⟩) ∧
      GrowthOk ⟨1, [0]⟩ (FileNode.idsOf ⟨2, 1⟩ [1]) (regFileChunkGrowth ⟨1, [0]⟩ ⟨2, 1⟩ [1]) :=
  have h := growthOk_iff ⟨1, [0]⟩ rfl ⟨2, 1⟩
  ⟨h.1.2 (by decide), (h.2 [1]).2 (by decide)⟩

/-- A client with one chunk registers a file of `2 ^ 32 - 1` chunks: the count asked of `realloc`
is 0. -/
theorem not_growthOk_wrapped :
    ¬ ∀ (client : ChunkList) (file : FileNode),
      client.chunkids.length = client.nchunks.toNat →
        GrowthOk client file.ids (regAllFileChunkGrowth client file) := by
  intro h
  have hok := h ⟨1, [0]⟩ ⟨0xFFFFFFFF, 1⟩ rfl
  obtain ⟨g, hg⟩ := Option.isSome_iff_exists.1 hok.completes
  have hrequested := hok.requested g hg
  obtain ⟨-, -, _, -, -, rfl⟩ := growChunks_eq_some_iff.1 hg
  rw [length_ids] at hrequested
  have hsum : (1 + 0xFFFFFFFF : UInt32).toNat = 0 := by decide
  have hcount : (0xFFFFFFFF : UInt32).toNat = 0xFFFFFFFF := by decide
  simp only [hsum, hcount] at hrequested
  omega

/-! ## The lists of a running server -/

/-- The stored count is the length of the list, and fits an `int`. -/
structure ChunkList.Counted (client : ChunkList) : Prop where
  length : client.chunkids.length = client.nchunks.toNat
  max : client.nchunks.toNat ≤ intMax

lemma ChunkList.Counted.append {client client' : ChunkList} (h : client.Counted)
    {ids : List UInt32} (happend : appendChunks client ids = some client') :
    client'.Counted ∧ client'.chunkids = client.chunkids ++ ids := by
  have hmax : intMax < 2 ^ 31 := by decide
  unfold appendChunks at happend
  split at happend
  · next hfit =>
      obtain rfl := Option.some.inj happend
      have hcount : (client.nchunks + UInt32.ofNat ids.length).toNat =
          client.nchunks.toNat + ids.length := by
        rw [UInt32.toNat_add, UInt32.toNat_ofNat']
        omega
      have htake : client.chunkids.take client.nchunks.toNat = client.chunkids :=
        List.take_of_length_le h.length.le
      refine ⟨⟨?_, ?_⟩, by rw [htake]⟩
      · rw [htake, List.length_append, h.length, hcount]
      · rwa [hcount]
  · cases happend

/-- A growth that fits its allocation grows the list of the model by the same ids. -/
lemma ChunkList.Counted.regAllFileChunk_eq {client : ChunkList} (h : client.Counted)
    {file : FileNode} (hok : GrowthOk client file.ids (regAllFileChunkGrowth client file)) :
    ∃ client', regAllFileChunk client file = some client' ∧ client'.Counted ∧
      client'.chunkids = client.chunkids ++ file.ids := by
  have hfit : client.nchunks.toNat + file.ids.length ≤ intMax := by
    have hmax := h.max
    rw [length_ids]
    rcases (growthOk_regAllFileChunk_iff h.length file).1 hok with hzero | ⟨hend, -⟩ <;> omega
  exact ⟨_, if_pos hfit, h.append (if_pos hfit)⟩

/-- The same of `regFileChunk`. -/
lemma ChunkList.Counted.regFileChunk_eq {client : ChunkList} (h : client.Counted)
    {file : FileNode} {chunks : List UInt32}
    (hok : GrowthOk client (file.idsOf chunks) (regFileChunkGrowth client file chunks)) :
    ∃ client', regFileChunk client file chunks = some client' ∧ client'.Counted ∧
      client'.chunkids = client.chunkids ++ file.idsOf chunks := by
  have hfit : client.nchunks.toNat + (file.idsOf chunks).length ≤ intMax := by
    have hmax := h.max
    rw [length_idsOf]
    rcases (growthOk_regFileChunk_iff h.length file chunks).1 hok with hzero | hend <;> omega
  exact ⟨_, if_pos hfit, h.append (if_pos hfit)⟩

lemma counted_setChunks (s : State) (h : ∀ d, (s.conn d).chunks.Counted) (c : ConnId)
    (ids : List UInt32) (d : ConnId) :
    ((setChunks s c (appendChunks (s.conn c).chunks ids)).conn d).chunks.Counted := by
  cases happend : appendChunks (s.conn c).chunks ids with
  | none => exact h d
  | some client =>
      by_cases hd : d = c
      · subst hd
        simpa [setChunks, State.setConn] using ((h d).append happend).1
      · simpa [setChunks, State.setConn, hd] using h d

variable (ac : Achelper)

lemma counted_exec {s : State} (h : ∀ c, (s.conn c).chunks.Counted) (e : Event) :
    ∀ c, ((exec ac s e).conn c).chunks.Counted := by
  have hsame : ∀ {t t' : State}, (∀ c, (t.conn c).chunks.Counted) → FilesSame t t' →
      ∀ c, (t'.conn c).chunks.Counted := by
    intro t t' ht hfiles c
    rw [hfiles.chunks]
    exact ht c
  cases e with
  | accept fd addr =>
      intro c
      simp only [exec]
      rw [conn_acceptClient, Function.update_apply]
      split
      · exact ⟨rfl, Nat.zero_le _⟩
      · exact h c
  | hangup fd | eof fd =>
      simp only [exec]
      cases pickConn s fd with
      | none => exact h
      | some c => exact hsame h (filesSame_closeSocket ac s c)
  | readable fd => exact h
  | request req =>
      simp only [exec]
      cases s.serving with
      | none => exact h
      | some c =>
          rcases files_serve ac s c req with hfiles | ⟨r, -, -, -, hfiles⟩ |
            ⟨r, f, -, -, -, hfiles⟩
          · exact hsame h hfiles
          · have hfile : ∀ d, ((registerFile s c r).conn d).chunks.Counted :=
              counted_setChunks { s with
                fileDb := (addFile s.fileDb s.globalChunkId r.filename r.chunks).1
                globalChunkId := s.globalChunkId + r.chunks } h c (newIds s r)
            exact hsame hfile hfiles
          · have hchunks : ∀ d, ((registerChunks s c r f).conn d).chunks.Counted :=
              counted_setChunks s h c (requestedIds r f)
            exact hsame hchunks hfiles
  | readDone => exact h
  | writable fd n₁ n₂ =>
      simp only [exec]
      cases pickConn s fd with
      | none => exact h
      | some c => exact hsame h (.of_core (core_networkWritable s c n₁ n₂))
  | tick seconds => exact h
  | sweep => exact hsame h (filesSame_timeThread ac s)

/-- In every run the stored count of every client is the length of its list. -/
lemma counted_run {ok : State → Event → Prop} {p : Setup} {es : List Event} {s : State}
    (run : ServerRun ac p ok es s) (c : ConnId) : (s.conn c).chunks.Counted := by
  refine run.invariant (P := fun s => ∀ c, (s.conn c).chunks.Counted) ?_ ?_ c
  · intro c
    rw [(loaded_init p).conn]
    exact ⟨rfl, Nat.zero_le _⟩
  · intro s e s' h _ hstep
    obtain ⟨-, -, rfl⟩ := (step_eq_some ac).mp hstep
    exact counted_exec ac h e

end EpollChat

import EpollChat.Construction.Files
import EpollChat.Framework.SignedInt

/-!
# Growing the chunk list, store by store (`lib/file.c`)

`regAllFileChunk` and `regFileChunk` ask `realloc` for a larger block and fill it in a loop.  The
count they ask for is a sum in `uint32_t`, and the counters of the loop are `int`.  Here the two
functions are taken apart: the count asked for, every store of the loop with its index, and the
overflow test of every increment.  Where a counter overflows the behaviour is undefined, and the
function has no value.
-/

namespace EpollChat

open SignedInt

/-- What `realloc` is asked for, the stores of the loop in their order, and the new `nchunks`. -/
structure Growth where
  requested : UInt32
  stores : List (ℤ × UInt32)
  nchunks : UInt32
  deriving DecidableEq

section Loop

variable {σ : Type*} (count : UInt32) (next : σ → Option σ) (value : ℕ → σ → UInt32)

/-- The loop both functions end in, for `j` from its value up to `count`: the stores at the index
`i`.  What a function counts besides `i` and `j` is `k`.  The comparison is one of `uint32_t`, to
which `j` is converted. -/
def storeLoop (i j : ℤ) (k : σ) : Option (List (ℤ × UInt32)) :=
  if (j % 2 ^ 32).toNat < count.toNat then
    match checked 32 (i + 1), _hj : checked 32 (j + 1), next k with
    | some i', some j', some k' =>
        (storeLoop i' j' k').map fun stores => (i, value j.toNat k) :: stores
    | _, _, _ => none
  else some []
termination_by (2 ^ 31 - j).toNat
decreasing_by
  have hj' := checked_eq_some_iff.1 _hj
  have hmax : j + 1 < 2 ^ 31 := hj'.1.2
  omega

/-- The `realloc` and the loop that the two functions share. -/
def growChunks (client : ChunkList) (k : σ) : Option Growth := do
  let requested := client.nchunks + count
  let stores ← storeLoop count next value (converted 32 client.nchunks.toNat) 0 k
  return { requested, stores, nchunks := client.nchunks + count }

end Loop

/-- `regAllFileChunk`, whose `k` is the next id, an `int` as well. -/
def regAllFileChunkGrowth (client : ChunkList) (file : FileNode) : Option Growth :=
  growChunks file.chunks (fun k => checked 32 (k + 1)) (fun _ k => UInt32.ofInt k) client
    (converted 32 file.chunkSid.toNat)

/-- The loop of `regFileChunk` that counts the chunks up to the terminating `NULL`.  The count is
a `uint32_t`: back at 0 it would go on for ever. -/
def countChunks (chunks : List UInt32) (count : UInt32) : Option UInt32 :=
  if (chunks[count.toNat]?).isNone then some count
  else if _h : count + 1 = 0 then none
  else countChunks chunks (count + 1)
termination_by 2 ^ 32 - count.toNat
decreasing_by
  have hlt := count.toNat_lt
  have hsucc : (count + 1).toNat ≠ 0 := fun h => _h (UInt32.toNat_inj.1 h)
  rw [UInt32.toNat_add] at hsucc ⊢
  simp only [UInt32.toNat_one] at hsucc ⊢
  omega

/-- `regFileChunk`, which has no `k`. -/
def regFileChunkGrowth (client : ChunkList) (file : FileNode) (chunks : List UInt32) :
    Option Growth := do
  let count ← countChunks chunks 0
  growChunks count some (fun j _ => file.chunkSid + chunks.getD j 0) client ()

/-- The block before the loop: `realloc` keeps the ids that there is room for, and leaves the
rest of the block unset. -/
def Growth.block (g : Growth) (chunkids : List UInt32) : List (Option UInt32) :=
  (chunkids.take g.requested.toNat).map some ++
    List.replicate (g.requested.toNat - chunkids.length) none

/-- One store.  A store outside the block changes nothing in it. -/
def Growth.store (block : List (Option UInt32)) (s : ℤ × UInt32) : List (Option UInt32) :=
  if 0 ≤ s.1 then block.set s.1.toNat (some s.2) else block

/-- The first `nchunks` elements of the block after the loop. -/
def Growth.chunkids (g : Growth) (chunkids : List UInt32) : List (Option UInt32) :=
  (g.stores.foldl Growth.store (g.block chunkids)).take g.nchunks.toNat

/-! ## What the loop does -/

section Loop

variable {σ : Type*} {count : UInt32} {next : σ → Option σ} {value : ℕ → σ → UInt32}

lemma mod_toNat_of_fits {j : ℤ} (hj : Fits 32 j) (h₀ : 0 ≤ j) : (j % 2 ^ 32).toNat = j.toNat := by
  have hmax : j < 2 ^ 31 := hj.2
  omega

/-- One round of the loop. -/
lemma storeLoop_round {i j : ℤ} {k : σ} {stores : List (ℤ × UInt32)} (hj : Fits 32 j)
    (h₀ : 0 ≤ j) (hlt : j.toNat < count.toNat) :
    storeLoop count next value i j k = some stores ↔
      Fits 32 (i + 1) ∧ Fits 32 (j + 1) ∧ ∃ k' rest, next k = some k' ∧
        storeLoop count next value (i + 1) (j + 1) k' = some rest ∧
        stores = (i, value j.toNat k) :: rest := by
  rw [storeLoop, mod_toNat_of_fits hj h₀, if_pos hlt]
  split
  · next i' j' k' hi' hj' hk' =>
      obtain ⟨hfi, rfl⟩ := checked_eq_some_iff.1 hi'
      obtain ⟨hfj, rfl⟩ := checked_eq_some_iff.1 hj'
      rw [Option.map_eq_some_iff]
      constructor
      · rintro ⟨rest, hrest, rfl⟩
        exact ⟨hfi, hfj, k', rest, hk', hrest, rfl⟩
      · rintro ⟨-, -, k'', rest, hk'', hrest, rfl⟩
        obtain rfl := Option.some.inj (hk'.symm.trans hk'')
        exact ⟨rest, hrest, rfl⟩
  · next hnone =>
      constructor
      · intro h
        cases h
      · rintro ⟨hfi, hfj, k', rest, hk', -, -⟩
        exact absurd hk' (hnone _ _ k' (checked_of_fits hfi) (checked_of_fits hfj))

/-- The stores of `n` rounds from `i`, `j` and the values `trace` of `k` on. -/
def storesOf (value : ℕ → σ → UInt32) (i j : ℤ) (trace : ℕ → σ) (n : ℕ) : List (ℤ × UInt32) :=
  (List.range n).map fun m : ℕ => (i + m, value (j.toNat + m) (trace m))

@[simp] lemma storesOf_zero (i j : ℤ) (trace : ℕ → σ) : storesOf value i j trace 0 = [] := rfl

lemma storesOf_succ {i j : ℤ} (h₀ : 0 ≤ j) (trace : ℕ → σ) (n : ℕ) :
    storesOf value i j trace (n + 1) =
      (i, value j.toNat (trace 0)) ::
        storesOf value (i + 1) (j + 1) (fun m => trace (m + 1)) n := by
  have hj' : (j + 1).toNat = j.toNat + 1 := by omega
  simp only [storesOf, List.range_succ_eq_map, List.map_cons, List.map_map, Nat.cast_zero,
    add_zero, hj']
  congr 1
  apply List.map_congr_left
  intro m _
  simp only [Function.comp_apply, Nat.succ_eq_add_one]
  rw [show i + ((m + 1 : ℕ) : ℤ) = i + 1 + m by omega,
    show j.toNat + (m + 1) = j.toNat + 1 + m by omega]

/-- Stores from the end of the set part of a block on set one element after the other. -/
lemma foldl_store {j : ℤ} (h₀ : 0 ≤ j) (trace : ℕ → σ) (n : ℕ) (done : List (Option UInt32)) :
    (storesOf value done.length j trace n).foldl Growth.store
        (done ++ List.replicate n none) =
      done ++ (storesOf value done.length j trace n).map fun s => some s.2 := by
  induction n generalizing j trace done with
  | zero => simp
  | succ n ih =>
      have hstore : Growth.store (done ++ List.replicate (n + 1) none)
          (done.length, value j.toNat (trace 0)) =
          (done ++ [some (value j.toNat (trace 0))]) ++ List.replicate n none := by
        rw [Growth.store, if_pos (Int.natCast_nonneg _), Int.toNat_natCast,
          List.replicate_succ, List.set_append_right _ _ le_rfl, Nat.sub_self, List.set_cons_zero,
          List.append_assoc, List.singleton_append]
      have hih := ih (by omega : 0 ≤ j + 1) (fun m => trace (m + 1))
        (done ++ [some (value j.toNat (trace 0))])
      rw [List.length_append, List.length_singleton, Nat.cast_add, Nat.cast_one] at hih
      rw [storesOf_succ h₀, List.foldl_cons, hstore, hih, List.map_cons, List.append_assoc,
        List.singleton_append]

/-- **The loop.**  With `n` rounds to go it completes exactly if all its counters go `n` up, and
then it stores at the `n` indices from `i` on. -/
lemma storeLoop_eq_some_iff {n : ℕ} {i j : ℤ} {k : σ} {stores : List (ℤ × UInt32)}
    (hi : Fits 32 i) (hj : Fits 32 j) (h₀ : 0 ≤ j) (hn : j.toNat + n = count.toNat) :
    storeLoop count next value i j k = some stores ↔
      Fits 32 (i + n) ∧ Fits 32 (j + n) ∧ ∃ trace : ℕ → σ, trace 0 = k ∧
        (∀ m < n, next (trace m) = some (trace (m + 1))) ∧
        stores = storesOf value i j trace n := by
  induction n generalizing i j k stores with
  | zero =>
      rw [storeLoop, mod_toNat_of_fits hj h₀, if_neg (by omega)]
      simp only [Nat.cast_zero, add_zero, hi, hj, true_and, Nat.not_lt_zero, IsEmpty.forall_iff,
        implies_true, storesOf_zero, Option.some.injEq]
      constructor
      · intro h
        exact ⟨fun _ => k, rfl, h.symm⟩
      · rintro ⟨_, _, h⟩
        exact h.symm
  | succ n ih =>
      have hshift : ∀ x : ℤ, x + 1 + (n : ℤ) = x + ((n + 1 : ℕ) : ℤ) := fun x => by omega
      rw [storeLoop_round hj h₀ (by omega)]
      constructor
      · rintro ⟨hfi, hfj, k', rest, hk', hrest, rfl⟩
        obtain ⟨hin, hjn, trace, rfl, hnext, rfl⟩ :=
          (ih hfi hfj (by omega) (by omega)).1 hrest
        rw [hshift] at hin hjn
        -- the values of `k` from this round on
        refine ⟨hin, hjn, fun m => if m = 0 then k else trace (m - 1), rfl, ?_,
          (storesOf_succ h₀ (fun m => if m = 0 then k else trace (m - 1)) n).symm⟩
        intro m hm
        match m with
        | 0 => exact hk'
        | m + 1 => exact hnext m (by omega)
      · rintro ⟨hin, hjn, trace, rfl, hnext, rfl⟩
        have hfi : Fits 32 (i + 1) := hi.of_le hin (by omega) (by omega)
        have hfj : Fits 32 (j + 1) := hj.of_le hjn (by omega) (by omega)
        rw [← hshift] at hin hjn
        exact ⟨hfi, hfj, trace 1, _, hnext 0 (by omega),
          (ih hfi hfj (by omega) (by omega)).2
            ⟨hin, hjn, fun m => trace (m + 1), rfl, fun m hm => hnext (m + 1) (by omega), rfl⟩,
          storesOf_succ h₀ trace n⟩

end Loop

/-! ## Counting -/

/-- The count ends at the `NULL`, if a `uint32_t` gets that far. -/
lemma countChunks_from (chunks : List UInt32) (count : UInt32)
    (hle : count.toNat ≤ chunks.length) :
    countChunks chunks count =
      if chunks.length < 2 ^ 32 then some (UInt32.ofNat chunks.length) else none := by
  fun_induction countChunks chunks count with
  | case1 count hnone =>
      have hlen : chunks.length = count.toNat := by
        rw [Option.isNone_iff_eq_none, List.getElem?_eq_none_iff] at hnone
        omega
      rw [if_pos (hlen ▸ count.toNat_lt), hlen, UInt32.ofNat_toNat]
  | case2 count hsome hzero =>
      rw [if_neg]
      rw [Option.isNone_iff_eq_none, List.getElem?_eq_none_iff] at hsome
      have hsucc : (count + 1).toNat = 0 := by rw [hzero, UInt32.toNat_zero]
      rw [UInt32.toNat_add, UInt32.toNat_one] at hsucc
      have hlt := count.toNat_lt
      omega
  | case3 count hsome hzero ih =>
      rw [Option.isNone_iff_eq_none, List.getElem?_eq_none_iff] at hsome
      apply ih
      rw [UInt32.toNat_add, UInt32.toNat_one]
      omega

lemma countChunks_eq (chunks : List UInt32) :
    countChunks chunks 0 =
      if chunks.length < 2 ^ 32 then some (UInt32.ofNat chunks.length) else none :=
  countChunks_from chunks 0 (Nat.zero_le _)

end EpollChat

import EpollChat.Construction.Commands
import Mathlib.Data.List.ReduceOption

/-!
# Name lists, byte by byte (`userLinkedListToString` of `lib/auth.c`)

`userLinkedListToString` goes over its list twice.  The first loop adds up what to allocate, with
two bytes for every separator; the second one writes, and knows the first name by `nxt` still being
at the front of the block.  Here the block has a size, and a write outside it has no value.  A node
of the list is the name of its user, or `none` where the code has a NULL.
-/

namespace EpollChat

/-! ## Blocks with a size -/

/-- A block that `malloc` has returned. -/
structure HeapBlock where
  size : ℕ
  bytes : ℕ → UInt8

namespace HeapBlock

/-- A write of one byte. -/
def set (b : HeapBlock) (i : ℕ) (v : UInt8) : Option HeapBlock :=
  if i < b.size then some { b with bytes := Function.update b.bytes i v } else none

/-- Writes of some bytes, one after the other. -/
def write (b : HeapBlock) (i : ℕ) : Bytes → Option HeapBlock
  | [] => some b
  | v :: vs => (b.set i v).bind fun b => b.write (i + 1) vs

/-- The block begins with these bytes. -/
def Holds (b : HeapBlock) (bytes : Bytes) : Prop := slice b.bytes 0 bytes.length = bytes

lemma slice_update (block : ℕ → UInt8) (i : ℕ) (v : UInt8) :
    slice (Function.update block i v) 0 (i + 1) = slice block 0 i ++ [v] := by
  rw [slice_add]
  congr 1
  · refine slice_congr fun j hj => ?_
    rw [Function.update_of_ne (by omega)]
  · rw [slice, List.range_one, List.map_singleton, Nat.zero_add, Nat.add_zero,
      Function.update_self]

/-- A byte is written behind others if the block goes on there. -/
lemma Holds.set {b : HeapBlock} {bytes : Bytes} (h : b.Holds bytes) (hroom : bytes.length < b.size)
    (v : UInt8) :
    ∃ b', b.set bytes.length v = some b' ∧ b'.size = b.size ∧ b'.Holds (bytes ++ [v]) := by
  refine ⟨_, if_pos hroom, rfl, ?_⟩
  unfold Holds at h ⊢
  rw [List.length_append, List.length_singleton, slice_update, h]

/-- The same for several bytes. -/
lemma Holds.write {b : HeapBlock} {bytes vs : Bytes} (h : b.Holds bytes)
    (hroom : (bytes ++ vs).length ≤ b.size) :
    ∃ b', b.write bytes.length vs = some b' ∧ b'.size = b.size ∧ b'.Holds (bytes ++ vs) := by
  induction vs generalizing b bytes with
  | nil =>
      rw [List.append_nil]
      exact ⟨b, rfl, rfl, h⟩
  | cons v vs ih =>
      have hfirst : bytes.length < b.size := by
        rw [List.length_append, List.length_cons] at hroom
        omega
      rw [List.append_cons] at hroom ⊢
      obtain ⟨b₁, hset, hsize₁, hholds₁⟩ := h.set hfirst v
      obtain ⟨b₂, hwrite, hsize₂, hholds₂⟩ := ih hholds₁ (hroom.trans_eq hsize₁.symm)
      refine ⟨b₂, ?_, hsize₂.trans hsize₁, hholds₂⟩
      rw [HeapBlock.write, hset]
      rwa [List.length_append] at hwrite

/-- The string at a block that begins with some bytes and a NUL. -/
lemma Holds.cstr_eq {b : HeapBlock} {bytes : Bytes} (h : b.Holds (bytes ++ [0]))
    (hroom : bytes.length < b.size) (hnul : 0 ∉ bytes) :
    cstr (slice b.bytes 0 b.size) = bytes := by
  obtain ⟨k, hk⟩ := Nat.exists_eq_add_of_le (Nat.succ_le_of_lt hroom)
  have hlen : (bytes ++ [0]).length = bytes.length + 1 := by
    rw [List.length_append, List.length_singleton]
  rw [Holds, hlen] at h
  rw [hk, Nat.succ_eq_add_one, slice_add, h, List.append_assoc, List.singleton_append,
    cstr_append_nul, cstr, List.takeWhile_eq_self_iff]
  intro v hv
  have hne : v ≠ 0 := fun hzero => hnul (hzero ▸ hv)
  simpa using hne

end HeapBlock

/-! ## The two loops -/

/-- A round of the first loop: two bytes for a separator, and the name. -/
def addName (ret : ℕ) : Option Bytes → ℕ
  | some username => ret + (2 + (cstr username).length)
  | none => ret

/-- The first loop. -/
def nameListSize (list : List (Option Bytes)) : ℕ := list.foldl addName 0

/-- A round of the second loop: the separator if this is not the first name, and the name. -/
def writeName (separator username : Bytes) (str : HeapBlock) (nxt : ℕ) :
    Option (HeapBlock × ℕ) := do
  let (str, nxt) ←
    if nxt ≠ 0 then
      (str.write nxt (cstr separator)).map fun str => (str, nxt + (cstr separator).length)
    else some (str, nxt)
  let str ← str.write nxt (cstr username)
  return (str, nxt + (cstr username).length)

/-- The second loop: the block, and the offset `nxt`. -/
def writeNames (separator : Bytes) : List (Option Bytes) → HeapBlock → ℕ →
    Option (HeapBlock × ℕ)
  | [], str, nxt => some (str, nxt)
  | none :: list, str, nxt => writeNames separator list str nxt
  | some username :: list, str, nxt => do
      let (str, nxt) ← writeName separator username str nxt
      writeNames separator list str nxt

/-- `userLinkedListToString`: what it returns, and the block at `*str`, unless a write is outside
it.  What `malloc` leaves in the block is `garbage`.  With a user in the list `ret` does not wrap. -/
def userLinkedListToStringBlock (garbage : ℕ → UInt8) (list : List (Option Bytes)) (separator : Bytes) :
    Option (ℕ × Option HeapBlock) :=
  if list = [] then some (0, none)
  else do
    let ret := nameListSize list - 2
    let (str, nxt) ← writeNames separator list { size := ret + 1, bytes := garbage } 0
    let str ← str.set nxt 0
    return (ret, some str)

end EpollChat

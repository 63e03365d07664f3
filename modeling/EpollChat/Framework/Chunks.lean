import Mathlib.Data.List.Basic
import Mathlib.Tactic.Common
import Mathlib.Tactic.Ring

/-!
# Cutting a list into pieces

`chop size n l` cuts `n` pieces of `size` elements off the front of a list, the way `n` reads of a
stream do: where the list ends first, a piece is shorter or empty.

A number of pieces covers a list if they have room for it and the last one is needed
(`Covers`).  Then all but the last have their full length, the last is not empty, and one after
the other they are the list again.

The pieces can be put into a store one by one, in any order and any number of times.  Where a step
stores the piece of its key and keeps the others (`Collects`), all of them are there in the end
(`collect`).
-/

namespace EpollChat

namespace Chunks

variable {α : Type*}

/-- The first `n` pieces of `size` elements. -/
def chop (size : ℕ) : ℕ → List α → List (List α)
  | 0, _ => []
  | n + 1, l => l.take size :: chop size n (l.drop size)

@[simp] lemma length_chop (size n : ℕ) (l : List α) : (chop size n l).length = n := by
  induction n generalizing l with
  | zero => rfl
  | succ n ih => rw [chop, List.length_cons, ih]

/-- The pieces one after the other. -/
lemma flatten_chop (size n : ℕ) (l : List α) : (chop size n l).flatten = l.take (n * size) := by
  induction n generalizing l with
  | zero => simp [chop]
  | succ n ih =>
      rw [chop, List.flatten_cons, ih, ← List.take_add]
      congr 1
      ring

/-- One of the pieces. -/
lemma getElem?_chop {size n i : ℕ} (hi : i < n) (l : List α) :
    (chop size n l)[i]? = some ((l.drop (i * size)).take size) := by
  induction n generalizing i l with
  | zero => omega
  | succ n ih =>
      cases i with
      | zero => simp [chop]
      | succ i =>
          rw [chop, List.getElem?_cons_succ, ih (by omega), List.drop_drop]
          congr 3
          ring

/-- `n` pieces have room for `length` elements, and one less has not. -/
structure Covers (size n length : ℕ) : Prop where
  enough : length ≤ n * size
  needed : (n - 1) * size < length

lemma Covers.pos {size n length : ℕ} (h : Covers size n length) : 0 < n := by
  by_contra hn
  obtain rfl : n = 0 := by omega
  have henough := h.enough
  have hneeded := h.needed
  omega

/-- The pieces are the list. -/
lemma Covers.flatten {size n : ℕ} {l : List α} (h : Covers size n l.length) :
    (chop size n l).flatten = l := by
  rw [flatten_chop, List.take_of_length_le h.enough]

/-- Only the last piece may be shorter, and it is not empty. -/
lemma Covers.length_piece {size n : ℕ} {l piece : List α} (h : Covers size n l.length) {i : ℕ}
    (hpiece : (chop size n l)[i]? = some piece) :
    (i + 1 < n → piece.length = size) ∧ 0 < piece.length ∧ piece.length ≤ size := by
  have hi : i < n := by
    have hlt := (List.getElem?_eq_some_iff.1 hpiece).1
    rwa [length_chop] at hlt
  rw [getElem?_chop hi] at hpiece
  obtain rfl := Option.some.inj hpiece
  have hlast : i * size ≤ (n - 1) * size := Nat.mul_le_mul_right size (by omega)
  have hneeded := h.needed
  rw [List.length_take, List.length_drop]
  refine ⟨fun hnot => ?_, ?_, min_le_left _ _⟩
  · have hnext : (i + 1) * size ≤ (n - 1) * size := Nat.mul_le_mul_right size (by omega)
    rw [Nat.add_mul, Nat.one_mul] at hnext
    omega
  · have hsize : 0 < size := by
      by_contra hzero
      obtain rfl : size = 0 := by omega
      have henough := h.enough
      omega
    omega

/-! ## Collecting the pieces -/

section Collect

variable {σ κ ι β : Type*}

/-- A step stores the piece of its key, and keeps those that are stored under other keys. -/
structure Collects (get : σ → ι → Option β) (key : κ → ι) (piece : ι → β)
    (op : σ → κ → Option σ) (k : κ) : Prop where
  stores : ∀ s s', op s k = some s' → get s' (key k) = some (piece (key k))
  keeps : ∀ s s' i b, op s k = some s' → i ≠ key k → get s i = some b → get s' i = some b

variable {get : σ → ι → Option β} {key : κ → ι} {piece : ι → β} {op : σ → κ → Option σ}
  {ks : List κ} {s s' : σ}

lemma keep (h : ∀ k ∈ ks, Collects get key piece op k) (hrun : ks.foldlM op s = some s') {i : ι}
    (hi : get s i = some (piece i)) : get s' i = some (piece i) := by
  induction ks generalizing s with
  | nil =>
      obtain rfl : s = s' := Option.some.inj hrun
      exact hi
  | cons k ks ih =>
      rw [List.forall_mem_cons] at h
      rw [List.foldlM_cons] at hrun
      obtain ⟨next, hnext, hrun⟩ := Option.bind_eq_some_iff.1 hrun
      apply ih h.2 hrun
      by_cases hkey : i = key k
      · subst hkey
        exact h.1.stores s next hnext
      · exact h.1.keeps s next i _ hnext hkey hi

/-- All the pieces are stored in the end. -/
lemma collect (h : ∀ k ∈ ks, Collects get key piece op k) (hrun : ks.foldlM op s = some s')
    {k : κ} (hk : k ∈ ks) : get s' (key k) = some (piece (key k)) := by
  induction ks generalizing s with
  | nil => cases hk
  | cons first ks ih =>
      rw [List.forall_mem_cons] at h
      rw [List.foldlM_cons] at hrun
      obtain ⟨next, hnext, hrest⟩ := Option.bind_eq_some_iff.1 hrun
      rcases List.mem_cons.1 hk with rfl | hk
      · exact keep h.2 hrest (h.1.stores s next hnext)
      · exact ih h.2 hrest hk

end Collect

end Chunks

end EpollChat

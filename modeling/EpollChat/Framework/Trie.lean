import Mathlib.Logic.Function.Basic
import Mathlib.Data.List.Basic
import Mathlib.Tactic.Lemma

/-!
# Tries with a value at every node

`Trie κ α` is a rooted tree whose children are indexed by keys `κ` and whose every node, also
an interior one, carries a value.  `Trie.find` follows a word down the tree, and `Trie.update`
walks the same word, making the missing nodes on the way with a blank value, and then rewrites
the value it ends at.  The two agree on the word itself (`find_update_self`); on any other word
an update changes nothing except that a missing node may have become a blank one
(`find_update_of_ne`), which is exactly what makes a trie usable as a map when "absent" is
encoded by the blank value.
-/

namespace EpollChat

/-- A trie node: a value, and a possibly missing child for every key. -/
inductive Trie (κ α : Type)
  | node (value : α) (child : κ → Option (Trie κ α))

namespace Trie

variable {κ α : Type}

/-- The value of a node. -/
def value : Trie κ α → α
  | node a _ => a

/-- The child of a node under a key. -/
def child : Trie κ α → κ → Option (Trie κ α)
  | node _ f => f

/-- A node without children. -/
def leaf (a : α) : Trie κ α := node a fun _ => none

@[simp] lemma value_node (a : α) (f : κ → Option (Trie κ α)) : (node a f).value = a := rfl

@[simp] lemma child_node (a : α) (f : κ → Option (Trie κ α)) : (node a f).child = f := rfl

@[simp] lemma value_leaf (a : α) : (leaf a : Trie κ α).value = a := rfl

@[simp] lemma child_leaf (a : α) (k : κ) : (leaf a : Trie κ α).child k = none := rfl

/-- Follow a word down from a node; `none` where a child on the way is missing. -/
def find : Trie κ α → List κ → Option α
  | t, [] => some t.value
  | t, k :: ks => (t.child k).bind fun t' => t'.find ks

@[simp] lemma find_nil (t : Trie κ α) : t.find [] = some t.value := by
  rw [find]

@[simp] lemma find_cons (t : Trie κ α) (k : κ) (ks : List κ) :
    t.find (k :: ks) = (t.child k).bind fun t' => t'.find ks := by
  rw [find]

section Update

variable [DecidableEq κ]

/-- Walk a word down from a node, making missing nodes with the value `blank`, and rewrite the
value it ends at. -/
def update (blank : α) (f : α → α) : List κ → Trie κ α → Trie κ α
  | [], t => node (f t.value) t.child
  | k :: ks, t =>
      node t.value (Function.update t.child k
        (some (update blank f ks ((t.child k).getD (leaf blank)))))

@[simp] lemma value_update_cons (blank : α) (f : α → α) (k : κ) (ks : List κ) (t : Trie κ α) :
    (update blank f (k :: ks) t).value = t.value := rfl

@[simp] lemma child_update_cons (blank : α) (f : α → α) (k : κ) (ks : List κ) (t : Trie κ α)
    (k' : κ) :
    (update blank f (k :: ks) t).child k' =
      if k' = k then some (update blank f ks ((t.child k).getD (leaf blank)))
      else t.child k' := by
  simp [update, Function.update_apply]

/-- The value found at the updated word itself: the old one, or the blank of a node just made,
rewritten. -/
lemma find_update_self (blank : α) (f : α → α) (ks : List κ) (t : Trie κ α) :
    (update blank f ks t).find ks = some (f ((t.find ks).getD blank)) := by
  induction ks generalizing t with
  | nil => rfl
  | cons k ks ih =>
      simp only [find_cons, child_update_cons, if_true, Option.bind_some, ih]
      congr 2
      cases h : t.child k with
      | some t' => simp
      | none => cases ks <;> simp

/-- Any other word finds what it found before, except that a missing node may have become a
blank one. -/
lemma find_update_of_ne (blank : α) (f : α → α) {ks ks' : List κ} (h : ks' ≠ ks)
    (t : Trie κ α) :
    ((update blank f ks t).find ks').getD blank = (t.find ks').getD blank := by
  induction ks generalizing t ks' with
  | nil =>
      obtain ⟨k, rest, rfl⟩ := List.exists_cons_of_ne_nil h
      simp [update]
  | cons k ks ih =>
      cases ks' with
      | nil => simp
      | cons k' ks' =>
          by_cases hk : k' = k
          · subst hk
            have hne : ks' ≠ ks := fun e => h (by rw [e])
            simp only [find_cons, child_update_cons, if_true, Option.bind_some]
            rw [ih hne]
            cases t.child k' with
            | some t' => simp
            | none => cases ks' <;> simp
          · simp [hk]

end Update

end Trie

end EpollChat

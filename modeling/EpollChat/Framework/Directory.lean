import EpollChat.Framework.Run
import Mathlib.Data.Set.Insert

/-!
# A directory of shared files

Clients publish files under names, each with a number of chunks, and share chunks of files that
others have published.  The directory knows of every file its number of chunks, and of every client
the chunks it holds: all of a file that it published, and those that it shared.

A name is published once (`files_eq_some_iff`), and a client holds what it has registered
(`mem_holds_iff`).
-/

namespace EpollChat

/-- What clients tell the directory. -/
inductive Listing (κ ν : Type*)
  /-- A new file, of which the client has every chunk. -/
  | publish (c : κ) (name : ν) (n : ℕ)
  /-- Some chunks of a file that there is. -/
  | share (c : κ) (name : ν) (chunks : List ℕ)

/-- The files with their numbers of chunks, and what every client holds. -/
structure Directory (κ ν : Type*) where
  files : ν → Option ℕ
  holds : κ → Set (ν × ℕ)

variable {κ ν : Type*}

/-- The client registers this chunk of this file. -/
def Listing.Registers (c : κ) (name : ν) (k : ℕ) : Listing κ ν → Prop
  | .publish c' name' n => c' = c ∧ name' = name ∧ k < n
  | .share c' name' chunks => c' = c ∧ name' = name ∧ k ∈ chunks

namespace Directory

/-- There are no files. -/
def empty : Directory κ ν where
  files := fun _ => none
  holds := fun _ => ∅

/-- When a registration is accepted: the name is free, or the file has these chunks. -/
def Accepts (d : Directory κ ν) : Listing κ ν → Prop
  | .publish _ name n => d.files name = none ∧ 0 < n
  | .share _ name chunks => ∃ n, d.files name = some n ∧ ∀ k ∈ chunks, k < n

open Classical in
/-- What a registration does. -/
noncomputable def after (d : Directory κ ν) : Listing κ ν → Directory κ ν
  | .publish c name n =>
      { files := Function.update d.files name (some n)
        holds := Function.update d.holds c (d.holds c ∪ {x | x.1 = name ∧ x.2 < n}) }
  | .share c name chunks =>
      { d with holds := Function.update d.holds c (d.holds c ∪ {x | x.1 = name ∧ x.2 ∈ chunks}) }

open Classical in
/-- The transition function. -/
noncomputable def step (d : Directory κ ν) (r : Listing κ ν) : Option (Directory κ ν) :=
  if d.Accepts r then some (d.after r) else none

variable {d : Directory κ ν} {r : Listing κ ν} {c : κ} {name : ν} {k : ℕ}

lemma step_of_accepts (h : d.Accepts r) : d.step r = some (d.after r) := if_pos h

lemma step_eq_some {d' : Directory κ ν} : d.step r = some d' ↔ d.Accepts r ∧ d' = d.after r := by
  unfold step
  by_cases h : d.Accepts r <;> simp [h, eq_comm]

lemma mem_holds_after : (name, k) ∈ (d.after r).holds c ↔ (name, k) ∈ d.holds c ∨ r.Registers c name k := by
  rcases r with ⟨c', name', n⟩ | ⟨c', name', chunks⟩ <;> by_cases hc : c = c'
  · subst hc
    simp [after, Listing.Registers, eq_comm]
  · simp [after, Listing.Registers, hc, Ne.symm hc]
  · subst hc
    simp [after, Listing.Registers, eq_comm]
  · simp [after, Listing.Registers, hc, Ne.symm hc]

/-- A client holds the chunks that it has registered. -/
lemma mem_holds_iff {rs : List (Listing κ ν)} (run : Run step Always empty rs d) :
    (name, k) ∈ d.holds c ↔ ∃ r ∈ rs, r.Registers c name k := by
  induction run with
  | nil => simp [empty]
  | snoc run _ completes ih =>
      obtain ⟨-, rfl⟩ := step_eq_some.mp completes
      rw [mem_holds_after, ih]
      simp [or_and_right, exists_or]

/-- A file has the number of chunks it was published with. -/
lemma files_eq_some_iff {rs : List (Listing κ ν)} (run : Run step Always empty rs d) {n : ℕ} :
    d.files name = some n ↔ ∃ c, .publish c name n ∈ rs := by
  induction run with
  | nil => simp [empty]
  | @snoc rs' d d' r run _ completes ih =>
      obtain ⟨haccepts, rfl⟩ := step_eq_some.mp completes
      rcases r with ⟨c', name', n'⟩ | ⟨c', name', chunks⟩
      · by_cases hname : name = name'
        · subst hname
          have hfresh : ∀ c, .publish c name n ∉ rs' := fun c hc => by
            have hold := ih.mpr ⟨c, hc⟩
            rw [haccepts.1] at hold
            cases hold
          simp [after, hfresh, eq_comm]
        · simp [after, hname, ih]
      · simp [after, ih]

end Directory

end EpollChat

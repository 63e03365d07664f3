import Mathlib.Data.List.Basic
import Mathlib.Data.List.Infix
import Mathlib.Tactic.Common

/-!
# Walking through a tree of names

A place in a tree is the list of the names from the root down to it, and a path is a list of
steps: stay, go up, or go down to a name.  At the root, up stays at the root.

A walk does two things: it climbs a number of levels, and then it goes down through a list of
names.  `route` finds both from the steps alone, and `walk_eq` says that they are the walk, from
wherever it begins.  So a walk ends inside the place it began in exactly if it goes down through
the names it climbed (`prefix_walk_iff`).
-/

namespace EpollChat

namespace Paths

variable {ν : Type*}

/-- A step. -/
inductive Step (ν : Type*)
  | stay
  | up
  | down (name : ν)
  deriving DecidableEq

/-- Where a step leads. -/
def Step.from (place : List ν) : Step ν → List ν
  | .stay => place
  | .up => place.dropLast
  | .down name => place ++ [name]

/-- Where a walk ends. -/
def walk (place : List ν) (steps : List (Step ν)) : List ν := steps.foldl Step.from place

/-- How many levels a walk climbs, and through which names it goes down then. -/
structure Route (ν : Type*) where
  ups : ℕ
  names : List ν
  deriving DecidableEq

/-- One more step. -/
def Route.step (r : Route ν) : Step ν → Route ν
  | .stay => r
  | .up =>
      match r.names with
      | [] => { ups := r.ups + 1, names := [] }
      | _ :: _ => { r with names := r.names.dropLast }
  | .down name => { r with names := r.names ++ [name] }

/-- The route of a walk. -/
def route (steps : List (Step ν)) : Route ν := steps.foldl Route.step { ups := 0, names := [] }

/-- A place strictly inside another. -/
def Below (dir place : List ν) : Prop := dir <+: place ∧ place ≠ dir

instance [DecidableEq ν] (dir place : List ν) : Decidable (Below dir place) := by
  unfold Below
  infer_instance

@[simp] lemma walk_nil (place : List ν) : walk place [] = place := rfl

lemma walk_append (place : List ν) (steps more : List (Step ν)) :
    walk place (steps ++ more) = walk (walk place steps) more :=
  List.foldl_append

lemma walk_down (place : List ν) (name : ν) : walk place [.down name] = place ++ [name] := rfl

lemma Step.from_route (place : List ν) (r : Route ν) (s : Step ν) :
    s.from (place.take (place.length - r.ups) ++ r.names) =
      place.take (place.length - (r.step s).ups) ++ (r.step s).names := by
  cases s with
  | stay => rfl
  | up =>
      obtain ⟨ups, names⟩ := r
      cases names with
      | nil =>
          simp only [Step.from, Route.step, List.append_nil]
          rw [List.dropLast_eq_take, List.take_take, List.length_take]
          congr 1
          omega
      | cons name names =>
          simp only [Step.from, Route.step]
          rw [List.dropLast_append_of_ne_nil (List.cons_ne_nil name names)]
  | down name => simp only [Step.from, Route.step, List.append_assoc]

/-- A walk goes along its route. -/
lemma walk_eq (place : List ν) (steps : List (Step ν)) :
    walk place steps = place.take (place.length - (route steps).ups) ++ (route steps).names := by
  induction steps using List.reverseRecOn with
  | nil => simp [route]
  | append_singleton steps s ih =>
      have hroute : route (steps ++ [s]) = (route steps).step s := by
        rw [route, List.foldl_append]
        rfl
      rw [walk_append, ih, hroute]
      exact Step.from_route place (route steps) s

/-- The last `ups` names of the place are the first names that the route goes down through. -/
def Route.Returns (place : List ν) (r : Route ν) : Prop :=
  place.drop (place.length - r.ups) <+: r.names

instance [DecidableEq ν] (place : List ν) (r : Route ν) : Decidable (r.Returns place) := by
  unfold Route.Returns
  infer_instance

/-- A walk ends inside the place it began in exactly if it goes down through the names that it
climbed. -/
lemma prefix_walk_iff (place : List ν) (steps : List (Step ν)) :
    place <+: walk place steps ↔ (route steps).Returns place := by
  have hsplit : (place <+: walk place steps) ↔
      place.take (place.length - (route steps).ups) ++
          place.drop (place.length - (route steps).ups) <+:
        place.take (place.length - (route steps).ups) ++ (route steps).names := by
    rw [List.take_append_drop, walk_eq]
  rw [hsplit, List.prefix_append_right_inj, Route.Returns]

/-- It ends where it began if it goes down through these names only. -/
lemma walk_eq_self_iff (place : List ν) (steps : List (Step ν)) :
    walk place steps = place ↔
      (route steps).names = place.drop (place.length - (route steps).ups) := by
  have hsplit : walk place steps = place ↔
      place.take (place.length - (route steps).ups) ++ (route steps).names =
        place.take (place.length - (route steps).ups) ++
          place.drop (place.length - (route steps).ups) := by
    rw [List.take_append_drop, walk_eq]
  rw [hsplit, List.append_cancel_left_eq]

/-- What is in a place inside a directory, or in the directory, is strictly inside. -/
lemma below_append_singleton (dir place : List ν) (name : ν) :
    Below dir (place ++ [name]) ↔ dir <+: place := by
  constructor
  · rintro ⟨hinside, hne⟩
    rcases List.prefix_concat_iff.1 hinside with heq | hinside
    · exact absurd heq.symm hne
    · exact hinside
  · intro hinside
    refine ⟨hinside.trans (List.prefix_append place [name]), fun heq => ?_⟩
    have hle := hinside.length_le
    rw [← heq, List.length_append, List.length_singleton] at hle
    omega

end Paths

end EpollChat

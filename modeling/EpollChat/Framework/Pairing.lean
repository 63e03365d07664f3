import Mathlib.Logic.Function.Basic
import Mathlib.Tactic.Common

/-!
# One-to-one pairings kept as two pointer maps

Two kinds of objects point at each other through optional fields.  `Paired f g` says that the
two maps are inverse to each other, which is the law of a partial equivalence.  The three ways
such fields are written are clearing both ends of a pair (`Paired.unbind`), clearing one end, and
setting both ends without having looked at the old partners.  `Paired.erase_iff` and
`Paired.bind_iff` say when the last two are right: when the end was clear, and when neither end
had another partner.
-/

namespace EpollChat

variable {α β : Type*}

/-- The two maps are inverse to each other. -/
def Paired (f : α → Option β) (g : β → Option α) : Prop := ∀ a b, f a = some b ↔ g b = some a

namespace Paired

variable {f : α → Option β} {g : β → Option α}

/-- Nobody shares a partner. -/
lemma injective (h : Paired f g) {a a' : α} {b : β} (ha : f a = some b) (ha' : f a' = some b) :
    a = a' :=
  Option.some.inj (((h a b).mp ha).symm.trans ((h a' b).mp ha'))

variable [DecidableEq α] [DecidableEq β]

/-- Clearing both ends of a pair. -/
lemma unbind (h : Paired f g) {a : α} {b : β} (hab : f a = some b) :
    Paired (Function.update f a none) (Function.update g b none) := by
  intro a' b'
  by_cases ha : a' = a
  · subst ha
    by_cases hb : b' = b
    · subst hb
      simp
    · have hne : g b' ≠ some a' := fun hg => hb (Option.some.inj (((h a' b').mpr hg).symm.trans hab))
      simp [hb, hne]
  · by_cases hb : b' = b
    · subst hb
      have hne : f a' ≠ some b' := fun hf => ha (h.injective hf hab)
      simp [ha, hne]
    · simpa [ha, hb] using h a' b'

omit [DecidableEq β] in
/-- Clearing one end only is right exactly when it was clear. -/
lemma erase_iff (h : Paired f g) (a : α) : Paired (Function.update f a none) g ↔ f a = none := by
  constructor
  · intro hnew
    cases hfa : f a with
    | none => rfl
    | some b =>
        have hback := (hnew a b).mpr ((h a b).mp hfa)
        rw [Function.update_self] at hback
        cases hback
  · intro hfa
    rw [← hfa, Function.update_eq_self]
    exact h

/-- Setting both ends of a pair is right exactly when neither end had another partner. -/
lemma bind_iff (h : Paired f g) (a : α) (b : β) :
    Paired (Function.update f a (some b)) (Function.update g b (some a)) ↔
      (f a = none ∨ f a = some b) ∧ (g b = none ∨ g b = some a) := by
  constructor
  · intro hnew
    refine ⟨?_, ?_⟩
    · -- the old partner of `a` would still point at `a`
      cases hfa : f a with
      | none => exact .inl rfl
      | some b' =>
          by_cases hb : b' = b
          · exact .inr (by rw [hb])
          · have hback := (hnew a b').mpr (by simpa [hb] using (h a b').mp hfa)
            rw [Function.update_self] at hback
            exact absurd (Option.some.inj hback).symm hb
    · cases hgb : g b with
      | none => exact .inl rfl
      | some a' =>
          by_cases ha : a' = a
          · exact .inr (by rw [ha])
          · have hback := (hnew a' b).mp (by simpa [ha] using (h a' b).mpr hgb)
            rw [Function.update_self] at hback
            exact absurd (Option.some.inj hback).symm ha
  · rintro ⟨hfa, hgb⟩ a' b'
    by_cases ha : a' = a
    · subst ha
      by_cases hb : b' = b
      · subst hb
        simp
      · have hne : g b' ≠ some a' := fun hg => by
          rcases hfa with hfa | hfa <;> rw [(h a' b').mpr hg] at hfa
          · cases hfa
          · exact hb (Option.some.inj hfa)
        simpa [hb, Ne.symm hb] using hne
    · by_cases hb : b' = b
      · subst hb
        have hne : f a' ≠ some b' := fun hf => by
          rcases hgb with hgb | hgb <;> rw [(h a' b').mp hf] at hgb
          · cases hgb
          · exact ha (Option.some.inj hgb)
        simpa [ha, Ne.symm ha] using hne
      · simpa [ha, hb] using h a' b'

end Paired

end EpollChat

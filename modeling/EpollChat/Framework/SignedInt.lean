import Mathlib.Algebra.Order.Ring.Int
import Mathlib.Data.Option.Basic
import Mathlib.Tactic.Common

/-!
# Signed machine integers

A signed type of `w` bits holds the integers from `-2 ^ (w - 1)` up to `2 ^ (w - 1)`, the end
excluded.  The result of an arithmetic operation that it does not hold is undefined: `checked` is
the result with this test, and is `none` where the operation overflows.  A conversion is never
undefined, but takes the residue that the type holds: `converted`.

Between two values the type holds every value (`Fits.of_le`), so a counter that runs from one to
the other never overflows on the way.
-/

namespace EpollChat

namespace SignedInt

/-- The type of `w` bits holds the integer. -/
def Fits (w : ℕ) (x : ℤ) : Prop := -2 ^ (w - 1) ≤ x ∧ x < 2 ^ (w - 1)

instance (w : ℕ) (x : ℤ) : Decidable (Fits w x) := by
  unfold Fits
  infer_instance

/-- The result of an operation, where the type holds it. -/
def checked (w : ℕ) (x : ℤ) : Option ℤ := if Fits w x then some x else none

/-- The result of a conversion. -/
def converted (w : ℕ) (x : ℤ) : ℤ := Int.bmod x (2 ^ w)

variable {w : ℕ} {x y z : ℤ}

lemma Fits.of_le (hx : Fits w x) (hz : Fits w z) (hxy : x ≤ y) (hyz : y ≤ z) : Fits w y :=
  ⟨hx.1.trans hxy, hyz.trans_lt hz.2⟩

lemma checked_of_fits (h : Fits w x) : checked w x = some x := if_pos h

lemma checked_eq_some_iff : checked w x = some y ↔ Fits w x ∧ x = y := by
  unfold checked
  split
  · next h => simp [h]
  · next h => simp [h]

/-- The range of the type, in halves of its number of values. -/
lemma fits_iff_half (hw : 0 < w) :
    Fits w x ↔ -(((2 ^ w : ℕ) : ℤ) / 2) ≤ x ∧ x < (((2 ^ w : ℕ) : ℤ) + 1) / 2 := by
  obtain ⟨v, rfl⟩ : ∃ v, w = v + 1 := ⟨w - 1, by omega⟩
  rw [Fits, Nat.add_sub_cancel, pow_succ, ← Nat.cast_ofNat (R := ℤ), ← Nat.cast_pow]
  constructor <;> rintro ⟨hlo, hhi⟩ <;> constructor <;> omega

/-- The type holds a converted value. -/
lemma fits_converted (hw : 0 < w) (x : ℤ) : Fits w (converted w x) :=
  (fits_iff_half hw).2 ⟨Int.le_bmod (Nat.two_pow_pos w), Int.bmod_lt (Nat.two_pow_pos w)⟩

/-- Converting changes no value that the type holds. -/
lemma converted_of_fits (hw : 0 < w) (hx : Fits w x) : converted w x = x :=
  Int.bmod_eq_of_le ((fits_iff_half hw).1 hx).1 ((fits_iff_half hw).1 hx).2

/-- A value of the unsigned type past the range comes out negative. -/
lemma converted_neg (hw : 0 < w) (hlo : 2 ^ (w - 1) ≤ x) (hhi : x < 2 ^ w) :
    converted w x < 0 := by
  have hpow : (2 : ℤ) ^ w = 2 ^ (w - 1) * 2 := by rw [← pow_succ, Nat.sub_add_cancel hw]
  have hshift : converted w x = converted w (x - 2 ^ w) := by
    unfold converted
    rw [← Nat.cast_ofNat (R := ℤ), ← Nat.cast_pow, Int.sub_bmod_right]
  rw [hshift, converted_of_fits hw ⟨by omega, by omega⟩]
  omega

/-- A counter can go up to a value that the type holds. -/
lemma checked_add_one {k : ℤ} {n m : ℕ} (hk : Fits w k) (hend : Fits w (k + n)) (hm : m < n) :
    checked w (k + m + 1) = some (k + (m + 1 : ℕ)) := by
  rw [checked_eq_some_iff]
  push_cast
  exact ⟨hk.of_le hend (by omega) (by omega), by omega⟩

/-- A counter that went `n` up is at a value that the type holds. -/
lemma fits_of_trace {trace : ℕ → ℤ} {n : ℕ} (h₀ : Fits w (trace 0))
    (hnext : ∀ m < n, checked w (trace m + 1) = some (trace (m + 1))) :
    Fits w (trace 0 + n) := by
  have htrace : ∀ m ≤ n, trace m = trace 0 + m ∧ Fits w (trace m) := by
    intro m hm
    induction m with
    | zero => exact ⟨by simp, h₀⟩
    | succ m ih =>
        obtain ⟨hfits, heq⟩ := checked_eq_some_iff.1 (hnext m (by omega))
        have hm' := (ih (by omega)).1
        rw [heq] at hfits
        refine ⟨?_, hfits⟩
        push_cast
        omega
  rw [← (htrace n le_rfl).1]
  exact (htrace n le_rfl).2

end SignedInt

end EpollChat

import Mathlib.Algebra.Order.Ring.Int
import Mathlib.Data.List.Basic
import Mathlib.Tactic.Linarith
import Mathlib.Tactic.Ring

/-!
# Lockout counters

A gate counts failed attempts.  The failure that fills the count up to `limit` closes the gate
for `penalty` units of time and starts the count again, and so does a success without closing.
Nothing is counted while the gate is closed.

`Admitted` says that a history of attempts is one that an open gate let through, in order of
time.  `failuresIn_le` bounds the failures of such a history in a window: a window of `k` times
the penalty without a success has at most `k` times the limit of them.  It is the sum of the
bound for one penalty (`failuresIn_penalty_le`), in which the gate closes at most once.
-/

namespace EpollChat

/-- An attempt that was counted: when, and whether it succeeded. -/
structure Attempt where
  time : ℤ
  success : Bool

/-- The failures since the last success or closing, and the end of the last closing. -/
structure Gate where
  failures : ℕ
  closedUntil : ℤ

namespace Gate

variable (limit : ℕ) (penalty : ℤ)

/-- What a counted attempt does to the gate. -/
def record (g : Gate) (a : Attempt) : Gate :=
  if a.success then { g with failures := 0 }
  else if g.failures + 1 = limit then ⟨0, a.time + penalty⟩
  else { g with failures := g.failures + 1 }

/-- The gate after a history. -/
def after (g : Gate) (h : List Attempt) : Gate := h.foldl (record limit penalty) g

@[simp] lemma after_nil (g : Gate) : g.after limit penalty [] = g := rfl

@[simp] lemma after_cons (g : Gate) (a : Attempt) (h : List Attempt) :
    g.after limit penalty (a :: h) = (g.record limit penalty a).after limit penalty h := rfl

@[simp] lemma after_append (g : Gate) (h h' : List Attempt) :
    g.after limit penalty (h ++ h') = (g.after limit penalty h).after limit penalty h' := by
  simp [after]

/-- Every attempt of the history came when the gate was open, in order of time. -/
def Admitted : Gate → List Attempt → Prop
  | _, [] => True
  | g, a :: h =>
      g.closedUntil ≤ a.time ∧ (∀ b ∈ h, a.time ≤ b.time) ∧
        Admitted (g.record limit penalty a) h

variable {limit penalty}

/-- One more attempt, after all the others. -/
lemma admitted_snoc {g : Gate} {h : List Attempt} {a : Attempt}
    (admitted : g.Admitted limit penalty h)
    (isOpen : (g.after limit penalty h).closedUntil ≤ a.time) (late : ∀ b ∈ h, b.time ≤ a.time) :
    g.Admitted limit penalty (h ++ [a]) := by
  induction h generalizing g with
  | nil => exact ⟨isOpen, by simp, trivial⟩
  | cons b h ih =>
      obtain ⟨hopen, hlate, hrest⟩ := admitted
      refine ⟨hopen, fun c hc => ?_, ih hrest isOpen fun c hc => late c (List.mem_cons_of_mem b hc)⟩
      rcases List.mem_append.mp hc with hc | hc
      · exact hlate c hc
      · obtain rfl := List.mem_singleton.mp hc
        exact late b List.mem_cons_self

/-! ## The count and the closings -/

/-- The count stays below the limit. -/
lemma failures_record_lt (hlimit : 0 < limit) {g : Gate} (hg : g.failures < limit) (a : Attempt) :
    (g.record limit penalty a).failures < limit := by
  unfold record
  split
  · exact hlimit
  split
  · exact hlimit
  · next hne => exact lt_of_le_of_ne hg hne

lemma failures_after_lt (hlimit : 0 < limit) {g : Gate} (hg : g.failures < limit)
    (h : List Attempt) : (g.after limit penalty h).failures < limit := by
  induction h generalizing g with
  | nil => exact hg
  | cons a h ih => exact ih (failures_record_lt hlimit hg a)

/-- A closing ends no earlier than the closings before it. -/
lemma closedUntil_le_record (hpenalty : 0 ≤ penalty) {g : Gate} {a : Attempt}
    (isOpen : g.closedUntil ≤ a.time) : g.closedUntil ≤ (g.record limit penalty a).closedUntil := by
  unfold record
  split
  · exact le_rfl
  split
  · exact isOpen.trans (Int.le_add_of_nonneg_right hpenalty)
  · exact le_rfl

/-! ## Windows -/

/-- The failures of a history in the window of this length from `t` on. -/
def failuresIn (t length : ℤ) (h : List Attempt) : ℕ :=
  h.countP fun a => !a.success && decide (t ≤ a.time ∧ a.time < t + length)

lemma failuresIn_cons (t length : ℤ) (a : Attempt) (h : List Attempt) :
    failuresIn t length (a :: h) = failuresIn t length h +
      if a.success = false ∧ t ≤ a.time ∧ a.time < t + length then 1 else 0 := by
  unfold failuresIn
  rw [List.countP_cons]
  congr 1
  cases a.success <;> simp

/-- A history that begins after the window. -/
lemma failuresIn_eq_zero {t length : ℤ} {h : List Attempt}
    (late : ∀ a ∈ h, t + length ≤ a.time) : failuresIn t length h = 0 := by
  unfold failuresIn
  rw [List.countP_eq_zero]
  intro a ha
  have hlate := late a ha
  simp only [Bool.and_eq_true, Bool.not_eq_true', decide_eq_true_eq, not_and, not_lt]
  exact fun _ _ => hlate

/-- The failures in a window of two parts. -/
lemma failuresIn_add (t : ℤ) {l l' : ℤ} (hl : 0 ≤ l) (hl' : 0 ≤ l') (h : List Attempt) :
    failuresIn t (l + l') h = failuresIn t l h + failuresIn (t + l) l' h := by
  induction h with
  | nil => rfl
  | cons a h ih =>
      rw [failuresIn_cons, failuresIn_cons, failuresIn_cons, ih]
      have hsplit : (if a.success = false ∧ t ≤ a.time ∧ a.time < t + (l + l') then 1 else 0) =
          (if a.success = false ∧ t ≤ a.time ∧ a.time < t + l then 1 else 0) +
            if a.success = false ∧ t + l ≤ a.time ∧ a.time < t + l + l' then 1 else 0 := by
        cases a.success
        · simp only [true_and]
          split <;> split <;> split <;> omega
        · simp
      rw [hsplit]
      omega

/-- From inside the window on, only the failures up to the limit are left. -/
lemma failuresIn_inside {t : ℤ} (g : Gate) (hg : g.failures < limit) {h : List Attempt}
    (admitted : g.Admitted limit penalty h) (inside : ∀ a ∈ h, t ≤ a.time)
    (quiet : ∀ a ∈ h, a.time < t + penalty → a.success = false) :
    failuresIn t penalty h ≤ limit - g.failures := by
  induction h generalizing g with
  | nil => exact Nat.zero_le _
  | cons a h ih =>
      obtain ⟨-, hlate, hrest⟩ := admitted
      have ht : t ≤ a.time := inside a List.mem_cons_self
      by_cases hend : t + penalty ≤ a.time
      · rw [failuresIn_eq_zero]
        · exact Nat.zero_le _
        · intro b hb
          rcases List.mem_cons.mp hb with rfl | hb
          · exact hend
          · exact hend.trans (hlate b hb)
      have hlt : a.time < t + penalty := not_le.mp hend
      have hfail : a.success = false := quiet a List.mem_cons_self hlt
      rw [failuresIn_cons, if_pos ⟨hfail, ht, hlt⟩]
      by_cases hfull : g.failures + 1 = limit
      · -- the gate closes for longer than the window lasts
        have hclosed : (g.record limit penalty a).closedUntil = a.time + penalty := by
          simp [record, hfail, hfull]
        rw [failuresIn_eq_zero]
        · omega
        · cases h with
          | nil => simp
          | cons b h =>
              obtain ⟨hopen, hlater, -⟩ := hrest
              rw [hclosed] at hopen
              intro c hc
              rcases List.mem_cons.mp hc with rfl | hc
              · linarith
              · have := hlater c hc
                linarith
      · have hcount : (g.record limit penalty a).failures = g.failures + 1 := by
          simp [record, hfail, hfull]
        have hlt' : (g.record limit penalty a).failures < limit := by
          rw [hcount]
          exact lt_of_le_of_ne hg hfull
        have hbound := ih (g.record limit penalty a) hlt' hrest
          (fun b hb => inside b (List.mem_cons_of_mem a hb))
          (fun b hb => quiet b (List.mem_cons_of_mem a hb))
        rw [hcount] at hbound
        omega

/-- In a window as long as the penalty the gate closes at most once. -/
lemma failuresIn_penalty_le {t : ℤ} (hlimit : 0 < limit) (g : Gate) (hg : g.failures < limit)
    {h : List Attempt} (admitted : g.Admitted limit penalty h)
    (quiet : ∀ a ∈ h, t ≤ a.time → a.time < t + penalty → a.success = false) :
    failuresIn t penalty h ≤ limit := by
  induction h generalizing g with
  | nil => exact Nat.zero_le _
  | cons a h ih =>
      by_cases ht : t ≤ a.time
      · refine (failuresIn_inside g hg admitted (fun b hb => ?_) fun b hb => ?_).trans
          (Nat.sub_le _ _)
        · rcases List.mem_cons.mp hb with rfl | hb
          · exact ht
          · exact ht.trans (admitted.2.1 b hb)
        · refine quiet b hb ?_
          rcases List.mem_cons.mp hb with rfl | hb
          · exact ht
          · exact ht.trans (admitted.2.1 b hb)
      · rw [failuresIn_cons, if_neg fun h => ht h.2.1, add_zero]
        exact ih (g.record limit penalty a) (failures_record_lt hlimit hg a) admitted.2.2
          fun b hb => quiet b (List.mem_cons_of_mem a hb)

/-- **The bound.** In a window of `k` times the penalty without a success there are at most `k`
times the limit of failures. -/
theorem failuresIn_le (hlimit : 0 < limit) (hpenalty : 0 ≤ penalty) (g : Gate)
    (hg : g.failures < limit) {h : List Attempt} (admitted : g.Admitted limit penalty h)
    (t : ℤ) (k : ℕ)
    (quiet : ∀ a ∈ h, t ≤ a.time → a.time < t + k * penalty → a.success = false) :
    failuresIn t (k * penalty) h ≤ limit * k := by
  induction k generalizing t with
  | zero =>
      unfold failuresIn
      rw [Nat.mul_zero, Nat.le_zero, List.countP_eq_zero]
      intro a _
      simp only [Bool.and_eq_true, Bool.not_eq_true', decide_eq_true_eq, not_and, not_lt]
      intro _ ht
      simpa using ht
  | succ k ih =>
      have hk : 0 ≤ (k : ℤ) * penalty := Int.mul_nonneg (Int.natCast_nonneg k) hpenalty
      have hlength : ((k + 1 : ℕ) : ℤ) * penalty = penalty + k * penalty := by
        push_cast
        ring
      rw [hlength] at quiet ⊢
      rw [failuresIn_add t hpenalty hk, Nat.mul_succ, Nat.add_comm (limit * k)]
      refine Nat.add_le_add (failuresIn_penalty_le hlimit g hg admitted fun a ha hfrom hto => ?_)
        (ih (t + penalty) fun a ha hfrom hto => ?_)
      · exact quiet a ha hfrom (by linarith)
      · exact quiet a ha (by linarith) (by linarith)

end Gate

end EpollChat

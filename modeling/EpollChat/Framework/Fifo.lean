import EpollChat.Framework.Run
import Mathlib.Algebra.Ring.Nat

/-!
# First in, first out

Two general facts behind the byte queues.  `Run.fifo`: if every step of a run puts something at
the end of a view and takes something off its front, then the view is everything that was put but
for what was taken.  `WhileLoop` is the meaning of a `while` loop as a relation, so that a result
in it says that the loop ends.
-/

namespace EpollChat

variable {σ ε α : Type*}

/-! ## Queues -/

/-- **First in, first out.** `Q` is what is known of the states of the run. -/
lemma Run.fifo {step : σ → ε → Option σ} {ok : σ → ε → Prop} {init s : σ} {es : List ε}
    {Q : σ → Prop} (view : σ → List α) (put : ε → List α) (taken : ε → ℕ)
    (hinit : view init = []) (hQ : ∀ {es s}, Run step ok init es s → Q s)
    (hstep : ∀ {s e s'}, Q s → step s e = some s' → taken e ≤ (view s ++ put e).length ∧
      view s' = (view s ++ put e).drop (taken e))
    (run : Run step ok init es s) :
    (es.map taken).sum ≤ (es.flatMap put).length ∧
      view s = (es.flatMap put).drop (es.map taken).sum := by
  induction run with
  | nil => exact ⟨Nat.zero_le _, hinit⟩
  | @snoc es s s' e run _ completes ih =>
      obtain ⟨hle, hview⟩ := ih
      obtain ⟨htaken, hview'⟩ := hstep (hQ run) completes
      rw [hview, List.length_append, List.length_drop] at htaken
      rw [hview, ← List.drop_append_of_le_length hle, List.drop_drop] at hview'
      rw [List.flatMap_append, List.flatMap_singleton, List.map_append, List.sum_append,
        List.map_singleton, List.sum_singleton]
      refine ⟨?_, hview'⟩
      rw [List.length_append]
      omega

/-! ## Loops -/

/-- `while (guard) body`, as a relation between the states before and after. -/
inductive WhileLoop (guard : σ → Prop) (body : σ → σ) : σ → σ → Prop
  | done {s : σ} (stops : ¬ guard s) : WhileLoop guard body s s
  | next {s t : σ} (goes : guard s) (rest : WhileLoop guard body (body s) t) :
      WhileLoop guard body s t

/-- A loop that ends does so with its guard false. -/
lemma WhileLoop.not_guard {guard : σ → Prop} {body : σ → σ} {s t : σ}
    (loop : WhileLoop guard body s t) : ¬ guard t := by
  induction loop with
  | done stops => exact stops
  | next _ _ ih => exact ih

end EpollChat

import Mathlib.Data.List.Basic
import Mathlib.Tactic.Lemma

/-!
# Finite runs of a partial transition function

A system is a partial transition function `step : σ → ε → Option σ` over labelled events:
`none` means that the event is not enabled, or that the step never completes.  `Run step ok
init es s` says that the events `es`, taken in order from `init`, all complete and end in `s`,
and that every one of them was taken in a state where `ok` allowed it.  The side condition
`ok` is what a conditional result restricts a run by; the unrestricted runs are those over
`Always`.

`Run.invariant` is the one induction of the development: what holds initially and is kept by
every allowed step holds at the end of every run.  `Run.invariant_of` is the same with an
invariant already known, and `Run.of_execute` builds a run by evaluation.
-/

namespace EpollChat

variable {σ ε : Type*}

/-- A run that takes the events `es` from `init` to `s`, every event in a state that `ok`
allows it in. -/
inductive Run (step : σ → ε → Option σ) (ok : σ → ε → Prop) (init : σ) : List ε → σ → Prop
  | nil : Run step ok init [] init
  | snoc {es : List ε} {s s' : σ} {e : ε} (run : Run step ok init es s) (allowed : ok s e)
      (completes : step s e = some s') : Run step ok init (es ++ [e]) s'

/-- The side condition of an unrestricted run. -/
def Always : σ → ε → Prop := fun _ _ => True

instance (s : σ) (e : ε) : Decidable (Always s e) := .isTrue trivial

namespace Run

variable {step : σ → ε → Option σ} {ok ok' : σ → ε → Prop} {init s : σ} {es : List ε}

/-- **Invariants.** What holds initially and is kept by every allowed step holds at the end of
every run. -/
lemma invariant {P : σ → Prop} (hinit : P init)
    (hstep : ∀ {s e s'}, P s → ok s e → step s e = some s' → P s')
    (run : Run step ok init es s) : P s := by
  induction run with
  | nil => exact hinit
  | snoc _ allowed completes ih => exact hstep ih allowed completes

/-- A run under a side condition is a run under every weaker one. -/
lemma weaken (h : ∀ s e, ok s e → ok' s e) (run : Run step ok init es s) :
    Run step ok' init es s := by
  induction run with
  | nil => exact .nil
  | snoc _ allowed completes ih => exact .snoc ih (h _ _ allowed) completes

lemma always (run : Run step ok init es s) : Run step Always init es s :=
  run.weaken fun _ _ _ => trivial

/-- The same, with what every unrestricted run satisfies. -/
lemma weaken_of {Q : σ → Prop} (hQ : ∀ {es s}, Run step Always init es s → Q s)
    (h : ∀ s e, Q s → ok s e → ok' s e) (run : Run step ok init es s) :
    Run step ok' init es s := by
  induction run with
  | nil => exact .nil
  | snoc run allowed completes ih => exact ih.snoc (h _ _ (hQ run.always) allowed) completes

/-- An invariant `P` proved relative to a fact `Q` that every unrestricted run satisfies. -/
lemma invariant_of {P Q : σ → Prop} (hinit : P init)
    (hQ : ∀ {es s}, Run step Always init es s → Q s)
    (hstep : ∀ {s e s'}, Q s → P s → ok s e → step s e = some s' → P s')
    (run : Run step ok init es s) : P s := by
  induction run with
  | nil => exact hinit
  | snoc run allowed completes ih => exact hstep (hQ run.always) ih allowed completes

/-- The last step of a run. -/
lemma of_snoc {s' : σ} {e : ε} (run : Run step ok init (es ++ [e]) s') :
    ∃ s, Run step ok init es s ∧ ok s e ∧ step s e = some s' := by
  generalize hes : es ++ [e] = l at run
  cases run with
  | nil => simp at hes
  | snoc run allowed completes =>
      obtain ⟨rfl, hlast⟩ := List.append_inj' hes rfl
      obtain rfl := (List.cons.inj hlast).1
      exact ⟨_, run, allowed, completes⟩

/-- The events decide where a run ends. -/
lemma unique {s' : σ} (run : Run step ok init es s) (run' : Run step ok' init es s') :
    s = s' := by
  induction run generalizing s' with
  | nil =>
      generalize hes : ([] : List ε) = l at run'
      cases run' with
      | nil => rfl
      | snoc => simp at hes
  | snoc _ _ completes ih =>
      obtain ⟨t, run'', -, completes'⟩ := run'.of_snoc
      rw [ih run'', completes'] at completes
      exact (Option.some.inj completes).symm

/-- A condition that agrees with `ok'` wherever `ok'` has allowed everything so far allows the
same runs.  `Q` is what is known of the runs that `ok'` allows. -/
lemma iff_of {Q : σ → Prop} (hQ : ∀ {es s}, Run step ok' init es s → Q s)
    (h : ∀ {s e s'}, Q s → step s e = some s' → (ok s e ↔ ok' s e))
    (run : Run step Always init es s) : Run step ok init es s ↔ Run step ok' init es s := by
  induction run with
  | nil => exact iff_of_true .nil .nil
  | snoc run _ completes ih =>
      constructor
      · intro hrun
        obtain ⟨t, hbefore, hok, -⟩ := hrun.of_snoc
        obtain rfl := run.unique hbefore
        have hbefore' := ih.mp hbefore
        exact hbefore'.snoc ((h (hQ hbefore') completes).mp hok) completes
      · intro hrun
        obtain ⟨t, hbefore, hok, -⟩ := hrun.of_snoc
        obtain rfl := run.unique hbefore
        exact (ih.mpr hbefore).snoc ((h (hQ hbefore) completes).mpr hok) completes

/-- A condition on the events alone. -/
lemma forall_iff {P : ε → Prop} (run : Run step Always init es s) :
    Run step (fun _ e => P e) init es s ↔ ∀ e ∈ es, P e := by
  constructor
  · intro hrun
    induction hrun with
    | nil => simp
    | snoc hrun allowed _ ih =>
        intro e he
        rcases List.mem_append.mp he with he | he
        · exact ih hrun.always e he
        · rwa [List.mem_singleton.mp he]
  · intro h
    induction run with
    | nil => exact .nil
    | snoc _ _ completes ih =>
        refine .snoc (ih fun e he => h e (List.mem_append_left _ he)) (h _ ?_) completes
        exact List.mem_append_right _ List.mem_cons_self

end Run

/-! ## What holds throughout a run -/

/-- `P` holds in every state of the run, from the first to the last. -/
def Throughout (step : σ → ε → Option σ) (init : σ) (P : σ → Prop) (es : List ε) (s : σ) : Prop :=
  Run step (fun t _ => P t) init es s ∧ P s

/-- **Exact conditions.** If `P` holds initially and a step leads from `P` to `P` exactly when
`ok` allows it, then `P` holds throughout a run exactly when `ok` allows all its steps.  `Q` is
what is known of the allowed runs. -/
lemma Run.throughout_iff {step : σ → ε → Option σ} {ok : σ → ε → Prop} {init s : σ}
    {es : List ε} {P Q : σ → Prop} (hinit : P init)
    (hQ : ∀ {es s}, Run step ok init es s → Q s)
    (hstep : ∀ {s e s'}, Q s → P s → step s e = some s' → (P s' ↔ ok s e))
    (run : Run step Always init es s) : Throughout step init P es s ↔ Run step ok init es s := by
  induction run with
  | nil => exact ⟨fun _ => .nil, fun _ => ⟨.nil, hinit⟩⟩
  | snoc run _ completes ih =>
      constructor
      · rintro ⟨hrun, hP⟩
        obtain ⟨t, hrun', hPt, hstep'⟩ := hrun.of_snoc
        obtain rfl := run.unique hrun'
        have hok := ih.mp ⟨hrun', hPt⟩
        exact hok.snoc ((hstep (hQ hok) hPt completes).mp hP) completes
      · intro hrun
        obtain ⟨t, hrun', hok, hstep'⟩ := hrun.of_snoc
        obtain rfl := run.unique hrun'
        obtain ⟨hbefore, hPt⟩ := ih.mpr hrun'
        exact ⟨hbefore.snoc hPt completes, (hstep (hQ hrun') hPt completes).mpr hok⟩

/-! ## Runs by evaluation -/

/-- Take the events in order, giving up at the first one that is not allowed or does not
complete. -/
def execute (step : σ → ε → Option σ) (ok : σ → ε → Prop) [∀ s e, Decidable (ok s e)]
    (s : σ) : List ε → Option σ
  | [] => some s
  | e :: es => if ok s e then (step s e).bind fun s' => execute step ok s' es else none

lemma Run.cons {step : σ → ε → Option σ} {ok : σ → ε → Prop} {s s' s'' : σ} {e : ε}
    {es : List ε} (allowed : ok s e) (completes : step s e = some s')
    (run : Run step ok s' es s'') : Run step ok s (e :: es) s'' := by
  induction run with
  | nil =>
      have hnil : Run step ok s [] s := .nil
      exact hnil.snoc allowed completes
  | snoc _ allowed' completes' ih => exact .snoc ih allowed' completes'

lemma Run.of_execute {step : σ → ε → Option σ} {ok : σ → ε → Prop}
    [∀ s e, Decidable (ok s e)] {es : List ε} {s s' : σ}
    (h : execute step ok s es = some s') : Run step ok s es s' := by
  induction es generalizing s with
  | nil =>
      obtain rfl : s = s' := by simpa [execute] using h
      exact .nil
  | cons e es ih =>
      simp only [execute] at h
      split at h
      · next allowed =>
          obtain ⟨t, completes, rest⟩ := Option.bind_eq_some_iff.mp h
          exact .cons allowed completes (ih rest)
      · cases h

/-- A run of which only the events are given, with a test of the state it ends in. -/
lemma Run.exists_of_execute (step : σ → ε → Option σ) (ok : σ → ε → Prop)
    [∀ s e, Decidable (ok s e)] (s : σ) (es : List ε) (P : σ → Prop) [DecidablePred P]
    (h : (execute step ok s es).any (fun s' => decide (P s')) = true) :
    ∃ s', Run step ok s es s' ∧ P s' := by
  obtain ⟨s', hexec, hP⟩ := (Option.any_eq_true _ _).mp h
  exact ⟨s', .of_execute hexec, of_decide_eq_true hP⟩

end EpollChat

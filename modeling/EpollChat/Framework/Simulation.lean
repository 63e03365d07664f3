import EpollChat.Framework.Run

/-!
# Simulation and observation

A system implements another one if each of its steps is a finite run of the other.  `events`
gives that run, from the state before the step and the event, and `abs` the state of the other
system.  Then every run is a run of the other system (`Simulates.run`), whose events are the ones
that the steps gave one after the other.

Where the state of the other system is not a function of the state, the two are related, and every
step is followed by a run to a related state (`Follows.run`).

`trace` is what is observed along a run, in order.  If every step is observed as the run it stands
for, the whole run is (`Simulates.trace_eq`).
-/

namespace EpollChat

variable {σ τ ε ζ ο : Type*}

/-! ## Runs one after the other -/

namespace Run

variable {step : σ → ε → Option σ} {ok : σ → ε → Prop} {init s s' : σ} {es es' : List ε} {e : ε}

lemma append (run : Run step ok init es s) (run' : Run step ok s es' s') :
    Run step ok init (es ++ es') s' := by
  induction run' with
  | nil => rwa [List.append_nil]
  | snoc _ allowed completes ih =>
      rw [← List.append_assoc]
      exact ih.snoc allowed completes

lemma single (allowed : ok s e) (completes : step s e = some s') : Run step ok s [e] s' :=
  .cons allowed completes .nil

end Run

/-! ## Traces -/

/-- What is observed while the events are taken in order. -/
def trace (step : σ → ε → Option σ) (obs : σ → ε → List ο) : σ → List ε → List ο
  | _, [] => []
  | s, e :: es => obs s e ++ ((step s e).map fun s' => trace step obs s' es).getD []

section Trace

variable {step : σ → ε → Option σ} {ok : σ → ε → Prop} {obs : σ → ε → List ο} {init s : σ}
  {es : List ε}

@[simp] lemma trace_nil (s : σ) : trace step obs s [] = [] := rfl

lemma trace_cons {s' : σ} {e : ε} (completes : step s e = some s') (es : List ε) :
    trace step obs s (e :: es) = obs s e ++ trace step obs s' es := by
  rw [trace, completes]
  rfl

/-- The observations of a run, and then those of what follows it. -/
lemma trace_append (run : Run step ok init es s) (es' : List ε) :
    trace step obs init (es ++ es') = trace step obs init es ++ trace step obs s es' := by
  induction run generalizing es' with
  | nil => rfl
  | snoc _ _ completes ih =>
      rw [List.append_assoc, ih, ih, List.singleton_append, trace_cons completes,
        trace_cons completes, trace_nil, List.append_nil, List.append_assoc]

lemma trace_snoc (run : Run step ok init es s) (e : ε) :
    trace step obs init (es ++ [e]) = trace step obs init es ++ obs s e := by
  rw [trace_append run, trace]
  cases step s e <;> simp

@[simp] lemma trace_singleton (s : σ) (e : ε) : trace step obs s [e] = obs s e := by
  rw [trace]
  cases step s e <;> simp

variable (obs) in
/-- What holds of the observations of every step holds of all that is observed along a run. -/
lemma trace_forall (run : Run step ok init es s) {P : ο → Prop}
    (h : ∀ {s e s'}, ok s e → step s e = some s' → ∀ o ∈ obs s e, P o) :
    ∀ o ∈ trace step obs init es, P o := by
  induction run with
  | nil => exact fun _ ho => absurd ho List.not_mem_nil
  | snoc run allowed completes ih =>
      rw [trace_snoc run]
      exact List.forall_mem_append.mpr ⟨ih, h allowed completes⟩

/-- Where an observation was made. -/
lemma trace_split (run : Run step ok init es s) {xs ys : List ο} {x : ο}
    (h : trace step obs init es = xs ++ x :: ys) :
    ∃ es₁ e es₂ s₁ as bs, es = es₁ ++ e :: es₂ ∧ Run step ok init es₁ s₁ ∧
      obs s₁ e = as ++ x :: bs ∧ xs = trace step obs init es₁ ++ as := by
  induction run generalizing ys with
  | nil => simp at h
  | @snoc es s s' e run _ _ ih =>
      rw [trace_snoc run] at h
      rcases List.append_eq_append_iff.mp h with ⟨as, hxs, hobs⟩ | ⟨as, hes, hobs⟩
      · exact ⟨es, e, [], s, as, ys, rfl, run, hobs, hxs⟩
      rcases as with _ | ⟨a, as⟩
      · rw [List.append_nil] at hes
        exact ⟨es, e, [], s, [], ys, rfl, run, hobs.symm, by rw [hes, List.append_nil]⟩
      · obtain ⟨rfl, rfl⟩ := List.cons.inj hobs
        obtain ⟨es₁, e', es₂, s₁, bs, cs, rfl, run₁, hobs₁, hxs⟩ := ih hes
        exact ⟨es₁, e', es₂ ++ [e], s₁, bs, cs, by simp, run₁, hobs₁, hxs⟩

variable (step obs) in
/-- What is observed through a filter. -/
lemma trace_filterMap {ο' : Type*} (f : ο → Option ο') (s : σ) (es : List ε) :
    trace step (fun s e => (obs s e).filterMap f) s es =
      (trace step obs s es).filterMap f := by
  induction es generalizing s with
  | nil => rfl
  | cons e es ih =>
      rw [trace, trace, List.filterMap_append]
      cases step s e <;> simp [ih]

end Trace

/-! ## Simulation -/

section Simulation

variable (step : σ → ε → Option σ) (ok : σ → ε → Prop) (astep : τ → ζ → Option τ)
  (aok : τ → ζ → Prop) (abs : σ → τ) (events : σ → ε → List ζ) (inv : σ → Prop)

/-- Every allowed step from a state that satisfies the invariant is a run of the other system. -/
structure Simulates : Prop where
  matched : ∀ {s e s'}, inv s → ok s e → step s e = some s' →
    Run astep aok (abs s) (events s e) (abs s')

variable {step ok astep aok abs events inv} (h : Simulates step ok astep aok abs events inv)
  {init s : σ} {es : List ε}
include h

/-- **Every run is a run of the other system.** -/
lemma Simulates.run (hinv : ∀ {es s}, Run step ok init es s → inv s)
    (run : Run step ok init es s) :
    Run astep aok (abs init) (trace step events init es) (abs s) := by
  induction run with
  | nil => exact .nil
  | snoc run allowed completes ih =>
      rw [trace_snoc run]
      exact ih.append (h.matched (hinv run) allowed completes)

/-- What is observed of the run is what is observed of the other one. -/
lemma Simulates.trace_eq (hinv : ∀ {es s}, Run step ok init es s → inv s) {obs : σ → ε → List ο}
    {aobs : τ → ζ → List ο}
    (hobs : ∀ {s e s'}, inv s → ok s e → step s e = some s' →
      trace astep aobs (abs s) (events s e) = obs s e)
    (run : Run step ok init es s) :
    trace astep aobs (abs init) (trace step events init es) = trace step obs init es := by
  induction run with
  | nil => rfl
  | snoc run allowed completes ih =>
      rw [trace_snoc run, trace_snoc run, trace_append (h.run hinv run), ih,
        hobs (hinv run) allowed completes]

end Simulation

/-! ## Simulation up to a relation -/

section Relation

variable (step : σ → ε → Option σ) (ok : σ → ε → Prop) (astep : τ → ζ → Option τ)
  (aok : τ → ζ → Prop) (events : σ → ε → List ζ) (inv : σ → Prop) (rel : σ → τ → Prop)

/-- From related states, every allowed step can be followed to related states. -/
structure Follows : Prop where
  matched : ∀ {s t e s'}, inv s → rel s t → ok s e → step s e = some s' →
    ∃ t', Run astep aok t (events s e) t' ∧ rel s' t'

variable {step ok astep aok events inv rel}

/-- **Every run is followed to a related state.** -/
lemma Follows.run (h : Follows step ok astep aok events inv rel) {init s : σ} {ainit : τ}
    {es : List ε} (hinv : ∀ {es s}, Run step ok init es s → inv s) (hinit : rel init ainit)
    (run : Run step ok init es s) :
    ∃ t, Run astep aok ainit (trace step events init es) t ∧ rel s t := by
  induction run with
  | nil => exact ⟨ainit, .nil, hinit⟩
  | snoc run allowed completes ih =>
      obtain ⟨t, arun, hrel⟩ := ih
      obtain ⟨t', arun', hrel'⟩ := h.matched (hinv run) hrel allowed completes
      rw [trace_snoc run]
      exact ⟨t', arun.append arun', hrel'⟩

end Relation

end EpollChat

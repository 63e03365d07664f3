import EpollChat.Construction.Demo
import EpollChat.Construction.EventLoop

/-!
# Connections that wait to be accepted

The listening socket is edge-triggered, and the loop accepts one connection for a report of it.
A report that stands for two arrivals leaves one of them waiting, and so does one that stands
behind an event after which the loop leaves the batch.

`Noticed` is that no connection waits unnoticed: the queue is empty or another report is due.
`noticed_iff` is the exact condition for it to hold after every batch of a run.
-/

namespace EpollChat

section Loops

variable {σ ι ο : Type*} (nt : NetworkThread σ ι ο)

/-- **No connection waits unnoticed.** -/
def Noticed (k : Loop σ) : Prop := k.queue = [] ∨ k.unreported = true

/-- The loop leaves the batch at this report: a read or a write has been handled, or no entry has
the descriptor of an error. -/
def leaves (program : σ) : Report ι ο → Bool
  | .failed fd => !nt.finds program fd
  | .listening _ => false
  | .input .. => true
  | .output .. => true

/-- The part of a batch that the loop gets to. -/
def reached (k : Loop σ) : List (Handled ι ο) → List (Handled ι ο)
  | [] => []
  | x :: rest =>
      x :: if leaves nt k.program x.1 then []
        else reached (x.2.foldl Loop.arrive (handle nt k x.1).1) rest

/-- If the listening socket is reported, another connection arrives while the batch is handled,
or the loop gets to the report, `accept` succeeds and no second connection waits. -/
def NoneLeft (k : Loop σ) : LoopEvent σ ι ο → Prop
  | .batch events =>
      reportsListening events = true →
        (∃ x ∈ reached nt (k.reported events) events, x.2 ≠ []) ∨
          k.queue.length ≤ (reached nt (k.reported events) events).countP fun x => x.1.accepts
  | _ => True

/-! ## One batch -/

lemma arrive_foldl (k : Loop σ) (arrivals : List SockAddr) :
    (arrivals.foldl Loop.arrive k).queue = k.queue ++ arrivals ∧
      (arrivals.foldl Loop.arrive k).unreported = (k.unreported || !arrivals.isEmpty) := by
  induction arrivals generalizing k with
  | nil => simp
  | cons addr arrivals ih =>
      obtain ⟨hqueue, hunreported⟩ := ih (k.arrive addr)
      rw [List.foldl_cons, hqueue, hunreported]
      simp [Loop.arrive]

/-- What one report does to the kernel's side, and whether the loop goes on. -/
lemma handle_spec (k : Loop σ) (r : Report ι ο) :
    (handle nt k r).1.queue = (if r.accepts then k.queue.tail else k.queue) ∧
      (handle nt k r).1.unreported = k.unreported ∧ (handle nt k r).2 = leaves nt k.program r := by
  cases r with
  | failed fd =>
      by_cases h : nt.finds k.program fd = true <;> simp [handle, leaves, Report.accepts, h]
  | listening newsockfd =>
      cases newsockfd with
      | none => exact ⟨rfl, rfl, rfl⟩
      | some newsockfd =>
          cases hqueue : k.queue with
          | nil => simp [handle, leaves, Report.accepts, hqueue]
          | cons addr queue => simp [handle, leaves, Report.accepts, hqueue]
  | input fd i =>
      by_cases h : nt.finds k.program fd = true <;> simp [handle, leaves, Report.accepts, h]
  | output fd o =>
      by_cases h : nt.finds k.program fd = true <;> simp [handle, leaves, Report.accepts, h]

/-- A connection that arrives while the batch is handled is reported later. -/
lemma unreported_handleAll {k : Loop σ} {events : List (Handled ι ο)}
    (h : k.unreported = true ∨ ∃ x ∈ reached nt k events, x.2 ≠ []) :
    (handleAll nt k events).unreported = true := by
  induction events generalizing k with
  | nil =>
      rcases h with h | ⟨x, hx, -⟩
      · exact h
      · exact absurd hx List.not_mem_nil
  | cons x rest ih =>
      obtain ⟨-, hhandle, hleave⟩ := handle_spec nt k x.1
      obtain ⟨-, hunreported⟩ := arrive_foldl (handle nt k x.1).1 x.2
      rw [hhandle] at hunreported
      simp only [handleAll, reached, hleave] at h ⊢
      split
      · next hleaves =>
          rw [hunreported]
          rw [if_pos hleaves] at h
          rcases h with h | ⟨y, hy, hne⟩
          · simp [h]
          · obtain rfl := List.mem_singleton.mp hy
            simp [hne]
      · next hleaves =>
          rw [if_neg hleaves] at h
          refine ih ?_
          rw [hunreported]
          rcases h with h | ⟨y, hy, hne⟩
          · simp [h]
          · rcases List.mem_cons.mp hy with rfl | hy
            · simp [hne]
            · exact .inr ⟨y, hy, hne⟩

/-- If none arrives, every report of the listening socket that the loop gets to takes one. -/
lemma queue_handleAll {k : Loop σ} {events : List (Handled ι ο)}
    (h : ∀ x ∈ reached nt k events, x.2 = []) :
    (handleAll nt k events).queue =
        k.queue.drop ((reached nt k events).countP fun x => x.1.accepts) ∧
      (handleAll nt k events).unreported = k.unreported := by
  induction events generalizing k with
  | nil => simp [handleAll, reached]
  | cons x rest ih =>
      obtain ⟨hqueue, hhandle, hleave⟩ := handle_spec nt k x.1
      have hx : x.2 = [] := h x (by simp [reached])
      have htail : ∀ n, (if x.1.accepts then k.queue.tail else k.queue).drop n =
          k.queue.drop (n + if x.1.accepts then 1 else 0) := fun n => by
        split
        · rw [List.drop_tail]
        · rfl
      simp only [handleAll, reached, hleave, hx, List.foldl_nil] at h ⊢
      rw [List.countP_cons]
      split
      · refine ⟨?_, hhandle⟩
        have hdrop := htail 0
        rw [List.drop_zero] at hdrop
        rw [hqueue, hdrop]
        simp
      · next hleaves =>
          rw [if_neg hleaves] at h
          obtain ⟨hrest, hunreported⟩ := ih fun y hy => h y (List.mem_cons_of_mem x hy)
          exact ⟨by rw [hrest, hqueue, htail], hunreported.trans hhandle⟩

/-! ## Whole runs -/

/-- After a batch no connection waits unnoticed exactly if `NoneLeft` said so before. -/
lemma noticed_batch {k : Loop σ} {events : List (Handled ι ο)} (hnoticed : Noticed k) :
    Noticed (handleAll nt (k.reported events) events) ↔ NoneLeft nt k (.batch events) := by
  by_cases harrivals : ∃ x ∈ reached nt (k.reported events) events, x.2 ≠ []
  · have hafter : Noticed (handleAll nt (k.reported events) events) :=
      .inr (unreported_handleAll nt (.inr harrivals))
    exact iff_of_true hafter fun _ => .inl harrivals
  · push Not at harrivals
    obtain ⟨hqueue, hunreported⟩ := queue_handleAll nt harrivals
    by_cases hreport : reportsListening events = true
    · -- the report is used up, so the queue must be empty
      have hdue : (handleAll nt (k.reported events) events).unreported = false := by
        rw [hunreported]
        simp [Loop.reported, hreport]
      have hleft : NoneLeft nt k (.batch events) ↔
          k.queue.length ≤ (reached nt (k.reported events) events).countP fun x => x.1.accepts := by
        constructor
        · intro h
          rcases h hreport with ⟨x, hx, hne⟩ | h
          · exact absurd (harrivals x hx) hne
          · exact h
        · exact fun h _ => .inr h
      rw [hleft, Noticed, hdue, hqueue, ← List.drop_eq_nil_iff]
      simp [Loop.reported]
    · have hkept : (k.reported events).unreported = k.unreported := by
        simp [Loop.reported, hreport]
      have hafter : Noticed (handleAll nt (k.reported events) events) := by
        rcases hnoticed with h | h
        · left
          rw [hqueue]
          have hempty : (k.reported events).queue = [] := h
          rw [hempty, List.drop_nil]
        · right
          rw [hunreported, hkept, h]
      exact iff_of_true hafter fun h => absurd h hreport

/-- No connection waits unnoticed throughout a run exactly if every batch leaves none. -/
theorem noticed_iff {program : σ} {es : List (LoopEvent σ ι ο)} {k : Loop σ}
    (run : Run (loopStep nt) Always (Loop.init program) es k) :
    Throughout (loopStep nt) (Loop.init program) Noticed es k ↔
      Run (loopStep nt) (NoneLeft nt) (Loop.init program) es k := by
  have hinit : Noticed (Loop.init program) := .inl rfl
  refine Run.throughout_iff (Q := fun _ => True) hinit (fun _ => trivial) ?_ run
  intro k e k' _ hnoticed hstep
  cases e with
  | arrive addr =>
      obtain rfl : k.arrive addr = k' := Option.some.inj hstep
      exact iff_of_true (.inr rfl) trivial
  | elsewhere program' =>
      obtain rfl : { k with program := program' } = k' := Option.some.inj hstep
      exact iff_of_true hnoticed trivial
  | batch events =>
      simp only [loopStep, Option.ite_none_right_eq_some, Option.some.injEq] at hstep
      obtain ⟨-, rfl⟩ := hstep
      exact noticed_batch nt hnoticed

instance decidableNoticed (k : Loop σ) : Decidable (Noticed k) :=
  inferInstanceAs (Decidable (k.queue = [] ∨ k.unreported = true))

instance decidableNoneLeft (k : Loop σ) (e : LoopEvent σ ι ο) : Decidable (NoneLeft nt k e) :=
  match e with
  | .arrive _ => .isTrue trivial
  | .elsewhere _ => .isTrue trivial
  | .batch _ => by
      dsimp only [NoneLeft]
      infer_instance

end Loops

/-! ## The two programs -/

section Programs

variable {σ ι ο ε : Type*} {nt : NetworkThread σ ι ο} {exec : σ → ε → σ}
  {events : σ → List SockAddr → Report ι ο → List ε}

lemma program_arrive_foldl (k : Loop σ) (arrivals : List SockAddr) :
    (arrivals.foldl Loop.arrive k).program = k.program := by
  induction arrivals generalizing k with
  | nil => rfl
  | cons addr arrivals ih => exact ih (k.arrive addr)

/-- If handling a report is a sequence of events of a program, handling a batch is one. -/
lemma handleAll_events
    (h : ∀ k r, (handle nt k r).1.program = (events k.program k.queue r).foldl exec k.program)
    (k : Loop σ) (batch : List (Handled ι ο)) :
    ∃ es : List ε, (handleAll nt k batch).program = es.foldl exec k.program := by
  induction batch generalizing k with
  | nil => exact ⟨[], rfl⟩
  | cons x rest ih =>
      rw [handleAll]
      split
      · exact ⟨_, (program_arrive_foldl _ x.2).trans (h k x.1)⟩
      · obtain ⟨es, hes⟩ := ih (x.2.foldl Loop.arrive (handle nt k x.1).1)
        refine ⟨events k.program k.queue x.1 ++ es, ?_⟩
        rw [hes, program_arrive_foldl, h, List.foldl_append]

end Programs

variable (ac : Achelper)

/-- The events of the server that handling a report consists of. -/
def serverEvents (s : State) (queue : List SockAddr) :
    Report ServerInput (Option ℕ × Option ℕ) → List Event
  | .failed fd => if (pickClient s fd).isSome then [.hangup fd] else []
  | .listening none => []
  | .listening (some newsockfd) => queue.head?.toList.map (.accept newsockfd)
  | .input fd .closed => if (pickClient s fd).isSome then [.eof fd] else []
  | .input fd (.requests reqs) =>
      if (pickClient s fd).isSome then
        [.readable fd] ++ reqs.map .request ++ [.readDone]
      else []
  | .output fd sent => if (pickClient s fd).isSome then [.writable fd sent.1 sent.2] else []

/-- A batch of the server's loop is handled by a sequence of the server's events. -/
theorem handleAll_serverThread (k : Loop State)
    (batch : List (Handled ServerInput (Option ℕ × Option ℕ))) :
    ∃ es : List Event,
      (handleAll (serverThread ac) k batch).program = es.foldl (exec ac) k.program := by
  refine @handleAll_events _ _ _ _ _ _ serverEvents (fun k r => ?_) k batch
  cases r with
  | failed fd =>
      by_cases h : (pickClient k.program fd).isSome = true <;>
        simp [handle, serverThread, serverEvents, h]
  | listening newsockfd =>
      cases newsockfd with
      | none => rfl
      | some newsockfd =>
          cases hqueue : k.queue with
          | nil => simp [handle, serverEvents, hqueue]
          | cons addr queue => simp [handle, serverThread, serverEvents, hqueue]
  | input fd i =>
      cases i <;> by_cases h : (pickClient k.program fd).isSome = true <;>
        simp [handle, serverThread, serverEvents, h]
  | output fd sent =>
      by_cases h : (pickClient k.program fd).isSome = true <;>
        simp [handle, serverThread, serverEvents, h]

/-- The events of the client that handling a report consists of. -/
def clientEvents (k : Client) (queue : List SockAddr) :
    Report ClientInput (Option ℕ) → List ClientEvent
  | .failed fd => if (pickClient k.program fd).isSome then [.hangup fd] else []
  | .listening none => []
  | .listening (some newsockfd) => queue.head?.toList.map (.accept newsockfd)
  | .input fd .closed => if (pickClient k.program fd).isSome then [.eof fd] else []
  | .input fd (.responses rsps) =>
      if (pickClient k.program fd).isSome then
        [.readable fd] ++ rsps.map (fun r => .response r.1 r.2.1 r.2.2.1 r.2.2.2) ++ [.readDone]
      else []
  | .output fd nsent => if (pickClient k.program fd).isSome then [.writable fd nsent] else []

/-- A batch of the client's loop is handled by a sequence of the client's events. -/
theorem handleAll_clientThread (k : Loop Client)
    (batch : List (Handled ClientInput (Option ℕ))) :
    ∃ es : List ClientEvent,
      (handleAll (clientThread ac) k batch).program = es.foldl (Client.exec ac) k.program := by
  refine @handleAll_events _ _ _ _ _ _ clientEvents (fun k r => ?_) k batch
  cases r with
  | failed fd =>
      by_cases h : (pickClient k.program.program fd).isSome = true <;>
        simp [handle, clientThread, clientEvents, h]
  | listening newsockfd =>
      cases newsockfd with
      | none => rfl
      | some newsockfd =>
          cases hqueue : k.queue with
          | nil => simp [handle, clientEvents, hqueue]
          | cons addr queue => simp [handle, clientThread, clientEvents, hqueue]
  | input fd i =>
      cases i <;> by_cases h : (pickClient k.program.program fd).isSome = true <;>
        simp [handle, clientThread, clientEvents, h]
  | output fd nsent =>
      by_cases h : (pickClient k.program.program fd).isSome = true <;>
        simp [handle, clientThread, clientEvents, h]

/-! ## Runs of the server -/

/-- Two connections arrive, and one report stands for both. -/
def twoArrivals : List (LoopEvent State ServerInput (Option ℕ × Option ℕ)) :=
  [.arrive demoAddr, .arrive demoAddr, .batch [(.listening (some 5), [])]]

/-- The second connection waits, and no report of it is due. -/
theorem not_noticed_two_arrivals :
    ∃ k, Run (loopStep (serverThread protobufWire)) Always (Loop.init demo.init) twoArrivals k ∧
      ¬ Noticed k :=
  Run.exists_of_execute _ _ _ _ (fun k => ¬ Noticed k) (by decide +kernel)

/-- A connection arrives while the first is accepted, and is accepted at the next report. -/
def oneByOne : List (LoopEvent State ServerInput (Option ℕ × Option ℕ)) :=
  [.arrive demoAddr, .batch [(.listening (some 5), [demoAddr])],
    .batch [(.listening (some 6), []), (.input 5 (.requests [loginAs "hans" "falcon"]), [])]]

theorem noticed_demo :
    ∃ k, Throughout (loopStep (serverThread protobufWire)) (Loop.init demo.init) Noticed
        oneByOne k ∧
      k.program.clients = [0, 1] := by
  obtain ⟨k, run, hclients⟩ := Run.exists_of_execute
    (loopStep (serverThread protobufWire)) (NoneLeft (serverThread protobufWire))
    (Loop.init demo.init) oneByOne (fun k => k.program.clients = [0, 1]) (by decide +kernel)
  exact ⟨k, (noticed_iff _ run.always).mpr run, hclients⟩

end EpollChat

import EpollChat.Construction.Demo
import EpollChat.Properties.PrivateEvents

/-!
# Agreement on private sessions

Each side keeps one connection for its session with the other, the last one that a registration
was handled on or that it made itself, and a connection that is closed ends the session on
whatever connection that is.  Where connections between the two overlap, the sides can end up
with one of them in a session and the other not.

Where each connection is made only after all earlier ones are spent, the two agree whenever
nothing is undelivered (`agreement_run`).
-/

namespace EpollChat

variable (ac : Achelper)

/-! ## The property -/

namespace Pair

/-- Nothing is undelivered on any connection between the two. -/
def Quiescent (q : Pair) : Prop :=
  ∀ l ∈ q.links, ∀ p, l.conn p ≠ none ∧ (q.OpenAt p l → l.unsent p = [] ∧ l.flight p = [])

/-- The side's entry for the other has a live client. -/
def Live (q : Pair) (p : Side) : Prop := ∃ c ∈ q.slot p, (q.program p).IsOpen c

/-- **Agreement.** Either both sides have a private session with the other, or neither has. -/
def Agreement (q : Pair) : Prop := q.Live .a ↔ q.Live .b

instance decidableLive (q : Pair) (p : Side) : Decidable (q.Live p) := by
  unfold Live
  infer_instance

instance decidableQuiescent (q : Pair) : Decidable q.Quiescent :=
  decidable_of_iff
    (∀ l ∈ q.links, ∀ p ∈ [Side.a, Side.b],
      l.conn p ≠ none ∧ (q.OpenAt p l → l.unsent p = [] ∧ l.flight p = []))
    ⟨fun h l hl p => h l hl p (by cases p <;> simp), fun h l hl p _ => h l hl p⟩

/-! ## The condition -/

/-- A connection is made when all earlier ones are spent. -/
def SoleCall (q : Pair) : PairEvent → Prop
  | .start .. => ∀ l ∈ q.links, q.Spent l
  | _ => True

instance decidableSoleCall (q : Pair) (e : PairEvent) : Decidable (q.SoleCall e) :=
  match e with
  | .start .. => inferInstanceAs (Decidable (∀ l ∈ q.links, q.Spent l))
  | .accept .. | .send .. | .deliver .. | .stop _ => .isTrue trivial

/-! ## Runs -/

lemma step_eq_some {q q' : Pair} {e : PairEvent} (h : q.step ac e = some q') :
    q.enabled e ∧ q.exec ac e = q' := by
  unfold step at h
  split at h
  · next henabled => exact ⟨henabled.1, Option.some.inj h⟩
  · cases h

/-- **Every event keeps the invariant.** -/
lemma Ok.step {q q' : Pair} {e : PairEvent} (hq : q.Ok) (hsole : q.SoleCall e)
    (h : q.step ac e = some q') : q'.Ok := by
  obtain ⟨henabled, rfl⟩ := step_eq_some ac h
  cases e with
  | start p fd addr => exact hq.start ac henabled hsole
  | accept p i fd addr => exact hq.accept ac henabled
  | send p i nsent => exact hq.send ac henabled
  | deliver p i => exact hq.deliver ac henabled
  | stop p => exact hq.stop ac p

lemma ok_init (name : Side → Bytes) (sock : Side → ℕ) (serverAddress : SockAddr) :
    (init name sock serverAddress).Ok := by
  have hconn : ∀ (p : Side) (c : ConnId) (u : UserId),
      (((init name sock serverAddress).program p).conn c).user ≠ some u := by
    intro p c u hu
    have hprogram : (init name sock serverAddress).program p =
        acceptClient Client.blank (sock p) serverAddress := rfl
    rw [hprogram, conn_acceptClient] at hu
    by_cases hc : c = Client.blank.nconns
    · rw [hc, Function.update_self] at hu
      cases hu
    · rw [Function.update_of_ne hc] at hu
      cases hu
  have hclient : ∀ (p : Side) (u : UserId) (c : ConnId),
      (((init name sock serverAddress).program p).users u).client ≠ some c := by
    intro p u c hu
    have hprogram : (init name sock serverAddress).program p =
        acceptClient Client.blank (sock p) serverAddress := rfl
    rw [hprogram, users_acceptClient] at hu
    cases hu
  refine ⟨fun p => ⟨programOk_init (sock p) serverAddress 0, ?_, ?_⟩, ?_, ?_, ?_, .inr ?_⟩
  · exact fun c u hu => absurd hu (hconn p c u)
  · exact fun u c hu => absurd hu (hclient p u c)
  · intro i l p c h
    cases h
  · intro i j l l' p c h
    cases h
  · intro i l h
    cases h
  · intro p
    rw [slot, privateConn]
    cases hfind : findUser ((init name sock serverAddress).program p)
        ((init name sock serverAddress).name p.other) with
    | none => rfl
    | some u =>
        rw [Option.bind_some]
        exact Option.eq_none_iff_forall_ne_some.mpr (hclient p u)

/-- In a quiescent state nothing is on its way to an end that has not gone. -/
lemma Active.incoming_eq_nil {q : Pair} {l : Link} (h : q.Active l) (hquiet : q.Quiescent)
    (hl : l ∈ q.links) {p : Side} (hgone : ¬ q.Gone p l) :
    l.flight p ++ l.unsent p.other = [] := by
  have hopen : ∀ r, ¬ q.Gone r l → l.unsent r = [] ∧ l.flight r = [] := by
    intro r hr
    obtain ⟨hconn, hdelivered⟩ := hquiet l hl r
    refine hdelivered ?_
    by_contra hclosed
    exact hr ⟨hconn, hclosed⟩
  rw [(hopen p hgone).2, List.nil_append]
  by_cases hother : q.Gone p.other l
  · exact ((h p.other).of_gone hother).2
  · exact (hopen p.other hother).1

/-- In a quiescent state an end that is open is bound, and so is the other. -/
lemma Active.bound_of_quiescent {q : Pair} {l : Link} (h : q.Active l) (hquiet : q.Quiescent)
    (hl : l ∈ q.links) {p : Side} (hgone : ¬ q.Gone p l) : q.Live p ∧ ¬ q.Gone p.other l := by
  have hnil := h.incoming_eq_nil hquiet hl hgone
  cases h p with
  | bare _ _ incoming =>
      rw [hnil] at incoming
      cases incoming
  | bound c conn isOpen _ slot incoming =>
      refine ⟨⟨c, slot, isOpen⟩, fun hother => ?_⟩
      rw [hnil, farewell, if_pos hother] at incoming
      cases incoming
  | gone gone _ _ => exact absurd gone hgone

/-- The two agree when nothing is undelivered. -/
lemma Ok.agreement {q : Pair} (hq : q.Ok) (hquiet : q.Quiescent) : q.Agreement := by
  have hslot : ∀ p, q.slot p = none → ¬ q.Live p := by
    rintro p hnone ⟨c, hc, -⟩
    rw [hnone] at hc
    cases hc
  rcases hq.slots with ⟨l, hl, hactive⟩ | hnone
  · have hmem := List.mem_of_getElem? hl
    have hlive : ∀ p, q.Live p → q.Live p.other := by
      intro p hp
      have hopen : ¬ q.Gone p l := fun hgone => hslot p ((hactive p).of_gone hgone).1 hp
      have hother := (hactive.bound_of_quiescent hquiet hmem hopen).2
      exact (hactive.bound_of_quiescent hquiet hmem hother).1
    exact ⟨hlive .a, hlive .b⟩
  · exact iff_of_false (hslot .a (hnone .a)) (hslot .b (hnone .b))

/-- The runs of the pair all of whose steps satisfy a side condition. -/
abbrev PairRun (name : Side → Bytes) (sock : Side → ℕ) (serverAddress : SockAddr)
    (ok : Pair → PairEvent → Prop) : List PairEvent → Pair → Prop :=
  Run (Pair.step ac) ok (init name sock serverAddress)

end Pair

open Pair

/-- **Agreement on private sessions.** In every run of two clients in which each connection is
made when the earlier ones are spent, the two agree in every state in which nothing is
undelivered. -/
theorem agreement_run {name : Side → Bytes} {sock : Side → ℕ} {serverAddress : SockAddr}
    {es : List PairEvent} {q : Pair} (run : PairRun ac name sock serverAddress SoleCall es q)
    (hquiet : q.Quiescent) : q.Agreement := by
  have hok : q.Ok := run.invariant (P := Ok) (ok_init name sock serverAddress)
    fun hq hsole hstep => hq.step ac hsole hstep
  exact hok.agreement hquiet

/-! ## Two runs -/

/-- The clients of hans and yoda. -/
def demoName : Side → Bytes
  | .a => text "hans"
  | .b => text "yoda"

/-- A private session from the side `p` on the connection `i`, up to the registration. -/
def startsPrivate (p : Side) (fd : ℕ) : List PairEvent :=
  [.start p fd [], .send p 0 (some 12)]

/-- hans starts a private session, ends it and starts another one before yoda has handled
anything of the first.  yoda handles the second connection first, and takes the end of the first
connection for the end of the session. -/
theorem not_agreement_overlapping :
    ∃ q, PairRun protobufWire demoName (fun _ => 3) demoAddr Always
        (startsPrivate .a 7 ++ [.accept .b 0 8 demoAddr, .stop .a] ++ startsPrivate .a 7 ++
          [.accept .b 0 9 demoAddr, .deliver .b 0, .deliver .b 1, .deliver .b 1]) q ∧
      q.Quiescent ∧ ¬ q.Agreement := by
  obtain ⟨q, run, hquiet, hlive, hdead⟩ := Run.exists_of_execute (Pair.step protobufWire) Always
    (init demoName (fun _ => 3) demoAddr)
    (startsPrivate .a 7 ++ [.accept .b 0 8 demoAddr, .stop .a] ++ startsPrivate .a 7 ++
      [.accept .b 0 9 demoAddr, .deliver .b 0, .deliver .b 1, .deliver .b 1])
    (fun q => q.Quiescent ∧ q.Live .a ∧ ¬ q.Live .b) (by decide +kernel)
  exact ⟨q, run, hquiet, fun h => hdead (h.mp hlive)⟩

/-- hans starts a session, yoda ends it, and starts another one when hans has been told. -/
theorem agreement_demo :
    ∃ q, PairRun protobufWire demoName (fun _ => 3) demoAddr SoleCall
        (startsPrivate .a 7 ++ [.accept .b 0 8 demoAddr, .deliver .b 0, .stop .b, .deliver .a 0] ++
          startsPrivate .b 9 ++ [.accept .a 0 11 demoAddr, .deliver .a 0]) q ∧
      q.Quiescent ∧ q.Live .a ∧ q.Live .b := by
  obtain ⟨q, run, hquiet, hlive⟩ := Run.exists_of_execute (Pair.step protobufWire) SoleCall
    (init demoName (fun _ => 3) demoAddr)
    (startsPrivate .a 7 ++ [.accept .b 0 8 demoAddr, .deliver .b 0, .stop .b, .deliver .a 0] ++
      startsPrivate .b 9 ++ [.accept .a 0 11 demoAddr, .deliver .a 0])
    (fun q => q.Quiescent ∧ q.Live .a) (by decide +kernel)
  exact ⟨q, run, hquiet, hlive, (agreement_run protobufWire run hquiet).mp hlive⟩

end EpollChat

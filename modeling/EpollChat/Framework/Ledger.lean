import Mathlib.Algebra.Ring.Nat
import Mathlib.Data.List.Basic
import Mathlib.Data.List.Infix
import Mathlib.Logic.Function.Basic
import Mathlib.Tactic.Common

/-!
# Queues of frames drained into byte streams

A ledger records what happened to a family of byte queues: whole frames are *put* into a queue,
and runs of bytes are *taken* off its front and written to a sink.  Several queues may be
drained into one sink and one queue into several sinks, and nothing makes a run of bytes end
where a frame does.

`Ledger.contents` is what a ledger leaves in a queue, and `Ledger.Valid` says that every run of
bytes was taken off the front of its queue.  `Ledger.wire` is what a sink received, byte by byte
with its provenance: a `Cell` names the queue a byte came from and its position in the stream of
all bytes ever put there, so that a byte has one identity wherever it is written.

`Ledger.Framed` is the framing law of a sink: what it received is a prefix of a concatenation of
whole frames.  A frame is *cut* when its queue has been drained to a position strictly inside
it.  `CleanLedger.lean` derives the law from a local condition on the taking moves: no run is
taken while another queue's frame is cut on the same sink, and a cut frame is only continued on
the sink it was begun on.
-/

namespace EpollChat

/-- One move of a ledger over queues `Q`, sinks `C`, tags `T` and bytes `B`. -/
inductive Move (Q C T B : Type)
  | put (q : Q) (tag : T) (frame : List B)
  | take (q : Q) (c : C) (bytes : List B)

/-- A byte with its provenance: the queue it was put into, and its position among all the bytes
ever put there. -/
structure Cell (Q B : Type) where
  queue : Q
  pos : ℕ
  byte : B
  deriving DecidableEq

/-- The cells of a run of bytes that starts at a position of a queue's stream. -/
def cells {Q B : Type} (q : Q) (start : ℕ) (bytes : List B) : List (Cell Q B) :=
  (bytes.zipIdx start).map fun p => ⟨q, p.2, p.1⟩

section Cells

variable {Q B : Type}

@[simp] lemma cells_nil (q : Q) (n : ℕ) : cells q n ([] : List B) = [] := rfl

@[simp] lemma length_cells (q : Q) (n : ℕ) (bs : List B) : (cells q n bs).length = bs.length := by
  simp [cells]

lemma cells_cons (q : Q) (n : ℕ) (b : B) (bs : List B) :
    cells q n (b :: bs) = ⟨q, n, b⟩ :: cells q (n + 1) bs := by
  simp [cells]

lemma cells_append (q : Q) (n : ℕ) (bs bs' : List B) :
    cells q n (bs ++ bs') = cells q n bs ++ cells q (n + bs.length) bs' := by
  simp [cells, List.zipIdx_append]

@[simp] lemma map_byte_cells (q : Q) (n : ℕ) (bs : List B) :
    (cells q n bs).map Cell.byte = bs := by
  induction bs generalizing n with
  | nil => rfl
  | cons b bs ih => rw [cells_cons, List.map_cons, ih]

lemma mem_cells {q : Q} {n : ℕ} {bs : List B} {x : Cell Q B} (h : x ∈ cells q n bs) :
    x.queue = q ∧ n ≤ x.pos ∧ x.pos < n + bs.length := by
  induction bs generalizing n with
  | nil => cases h
  | cons b bs ih =>
      rw [cells_cons] at h
      rcases List.mem_cons.mp h with rfl | h
      · simp
      · obtain ⟨h₁, h₂, h₃⟩ := ih h
        refine ⟨h₁, by omega, ?_⟩
        simp only [List.length_cons]
        omega

end Cells

/-- The frames of a list with the positions they start at in its concatenation, counted from
`start`. -/
def placed {B : Type} : ℕ → List (List B) → List (ℕ × List B)
  | _, [] => []
  | start, f :: fs => (start, f) :: placed (start + f.length) fs

namespace Ledger

variable {Q C T B : Type} [DecidableEq Q]

/-- The frames put into a queue, in order. -/
def frames (q : Q) (l : List (Move Q C T B)) : List (List B) :=
  l.filterMap fun
    | .put q' _ f => if q' = q then some f else none
    | .take .. => none

/-- The runs of bytes taken from a queue, in order, with the sinks they went to. -/
def takes (q : Q) (l : List (Move Q C T B)) : List (C × List B) :=
  l.filterMap fun
    | .put .. => none
    | .take q' c bs => if q' = q then some (c, bs) else none

/-- All bytes ever put into a queue. -/
def stream (q : Q) (l : List (Move Q C T B)) : List B := (frames q l).flatten

/-- How many bytes were taken from a queue. -/
def taken (q : Q) (l : List (Move Q C T B)) : ℕ := ((takes q l).map fun p => p.2.length).sum

/-- What a ledger leaves in a queue. -/
def contents (q : Q) (l : List (Move Q C T B)) : List B := (stream q l).drop (taken q l)

/-- Every run of bytes was taken off the front of its queue. -/
inductive Valid : List (Move Q C T B) → Prop
  | nil : Valid []
  | put {l} (q : Q) (t : T) (f : List B) : Valid l → Valid (l ++ [.put q t f])
  | take {l} (q : Q) (c : C) (bs : List B) : Valid l → bs <+: contents q l →
      Valid (l ++ [.take q c bs])

section Append

variable (q : Q) (l l' : List (Move Q C T B))

@[simp] lemma frames_append : frames q (l ++ l') = frames q l ++ frames q l' := by
  simp [frames]

@[simp] lemma takes_append : takes q (l ++ l') = takes q l ++ takes q l' := by
  simp [takes]

@[simp] lemma stream_append : stream q (l ++ l') = stream q l ++ stream q l' := by
  simp [stream]

@[simp] lemma taken_append : taken q (l ++ l') = taken q l + taken q l' := by
  simp [taken]

@[simp] lemma frames_nil : frames q ([] : List (Move Q C T B)) = [] := rfl

@[simp] lemma stream_nil : stream q ([] : List (Move Q C T B)) = [] := rfl

@[simp] lemma taken_nil : taken q ([] : List (Move Q C T B)) = 0 := rfl

@[simp] lemma frames_put (q' : Q) (t : T) (f : List B) :
    frames q ([.put q' t f] : List (Move Q C T B)) = if q' = q then [f] else [] := by
  by_cases h : q' = q <;> simp [frames, h]

@[simp] lemma frames_take (q' : Q) (c : C) (bs : List B) :
    frames q ([.take q' c bs] : List (Move Q C T B)) = [] := by
  simp [frames]

@[simp] lemma stream_put (q' : Q) (t : T) (f : List B) :
    stream q ([.put q' t f] : List (Move Q C T B)) = if q' = q then f else [] := by
  by_cases h : q' = q <;> simp [stream, h]

@[simp] lemma stream_take (q' : Q) (c : C) (bs : List B) :
    stream q ([.take q' c bs] : List (Move Q C T B)) = [] := by
  simp [stream]

@[simp] lemma taken_put (q' : Q) (t : T) (f : List B) :
    taken q ([.put q' t f] : List (Move Q C T B)) = 0 := by
  simp [taken, takes]

@[simp] lemma taken_take (q' : Q) (c : C) (bs : List B) :
    taken q ([.take q' c bs] : List (Move Q C T B)) = if q' = q then bs.length else 0 := by
  by_cases h : q' = q <;> simp [taken, takes, h]

end Append

lemma contents_take_self (l : List (Move Q C T B)) (q : Q) (c : C) (bs : List B) :
    contents q (l ++ [.take q c bs]) = (contents q l).drop bs.length := by
  simp [contents]

lemma contents_take_of_ne {l : List (Move Q C T B)} {q q' : Q} (c : C) (bs : List B)
    (h : q' ≠ q) : contents q (l ++ [.take q' c bs]) = contents q l := by
  simp [contents, h]

lemma Valid.taken_le {l : List (Move Q C T B)} (h : Valid l) (q : Q) :
    taken q l ≤ (stream q l).length := by
  induction h with
  | nil => simp
  | put q' t f _ ih =>
      simp only [taken_append, taken_put, stream_append, List.length_append]
      omega
  | @take l q' c bs _ hpre ih =>
      have hlen := hpre.length_le
      simp only [contents, List.length_drop] at hlen
      simp only [taken_append, taken_take, stream_append, stream_take, List.append_nil]
      by_cases h : q' = q
      · subst h
        rw [if_pos rfl]
        omega
      · rw [if_neg h]
        exact ih

/-! ## What a sink received -/

section Wire

variable [DecidableEq C]

/-- What a sink receives from a ledger whose queues have already been drained to the given
positions. -/
def wireFrom (c : C) : (Q → ℕ) → List (Move Q C T B) → List (Cell Q B)
  | _, [] => []
  | pos, .put .. :: l => wireFrom c pos l
  | pos, .take q d bs :: l =>
      (if d = c then cells q (pos q) bs else []) ++
        wireFrom c (Function.update pos q (pos q + bs.length)) l

/-- Everything a sink received, with the provenance of every byte. -/
def wire (c : C) (l : List (Move Q C T B)) : List (Cell Q B) := wireFrom c (fun _ => 0) l

/-- The bytes a sink received. -/
def written (c : C) (l : List (Move Q C T B)) : List B := (wire c l).map Cell.byte

lemma wireFrom_append (c : C) (pos : Q → ℕ) (l l' : List (Move Q C T B)) :
    wireFrom c pos (l ++ l') =
      wireFrom c pos l ++ wireFrom c (fun q => pos q + taken q l) l' := by
  induction l generalizing pos with
  | nil => simp [wireFrom]
  | cons m l ih =>
      cases m with
      | put q t f =>
          have htaken : ∀ q', taken q' (.put q t f :: l : List (Move Q C T B)) = taken q' l :=
            fun q' => by
              rw [← List.singleton_append, taken_append, taken_put, Nat.zero_add]
          simp only [List.cons_append, wireFrom, ih, htaken]
      | take q d bs =>
          simp only [List.cons_append, wireFrom, ih, List.append_assoc]
          congr 3
          funext q'
          rw [← List.singleton_append, taken_append, taken_take]
          by_cases h : q' = q
          · subst h
            simp [Nat.add_assoc]
          · simp [h, Ne.symm h]

@[simp] lemma wire_nil (c : C) : wire c ([] : List (Move Q C T B)) = [] := rfl

@[simp] lemma wire_put (c : C) (l : List (Move Q C T B)) (q : Q) (t : T) (f : List B) :
    wire c (l ++ [.put q t f]) = wire c l := by
  simp [wire, wireFrom_append, wireFrom]

lemma wire_take (c : C) (l : List (Move Q C T B)) (q : Q) (d : C) (bs : List B) :
    wire c (l ++ [.take q d bs]) =
      wire c l ++ if d = c then cells q (taken q l) bs else [] := by
  simp [wire, wireFrom_append, wireFrom]

lemma written_put (c : C) (l : List (Move Q C T B)) (q : Q) (t : T) (f : List B) :
    written c (l ++ [.put q t f]) = written c l := by
  rw [written, wire_put]
  rfl

lemma written_take (c : C) (l : List (Move Q C T B)) (q : Q) (d : C) (bs : List B) :
    written c (l ++ [.take q d bs]) = written c l ++ if d = c then bs else [] := by
  rw [written, wire_take, List.map_append]
  split <;> simp [written]

/-- The cells of the frames put into the queues. -/
def IsFrame (l : List (Move Q C T B)) (b : List (Cell Q B)) : Prop :=
  ∃ q, ∃ p ∈ placed 0 (frames q l), b = cells q p.1 p.2

/-- **The framing law.** What a sink received is a prefix of a concatenation of whole frames,
byte for byte and with one provenance throughout each frame. -/
def Framed (c : C) (l : List (Move Q C T B)) : Prop :=
  ∃ blocks : List (List (Cell Q B)),
    (∀ b ∈ blocks, IsFrame l b) ∧ wire c l <+: blocks.flatten

/-- The front frame of a queue is cut: it has been taken in part. -/
def Cut (q : Q) (l : List (Move Q C T B)) : Prop :=
  ∃ p ∈ placed 0 (frames q l), p.1 < taken q l ∧ taken q l < p.1 + p.2.length

instance (q : Q) (l : List (Move Q C T B)) : Decidable (Cut q l) := by
  unfold Cut
  infer_instance

/-- The sink that received the last byte taken from a queue. -/
def lastSink (q : Q) (l : List (Move Q C T B)) : Option C :=
  (((takes q l).filter fun p => !p.2.isEmpty).getLast?).map Prod.fst

/-- The front frame of the queue is cut, and was begun on the sink `c`. -/
def CutOn (q : Q) (c : C) (l : List (Move Q C T B)) : Prop :=
  Cut q l ∧ lastSink q l = some c

instance (q : Q) (c : C) (l : List (Move Q C T B)) : Decidable (CutOn q c l) := by
  unfold CutOn
  infer_instance

end Wire

end Ledger

end EpollChat

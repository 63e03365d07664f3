import EpollChat.Framework.Whereabouts

/-!
# The order in which bytes are written

`Ledger.output` is everything a ledger wrote, whatever the sink, in the order it was written.
Every queue is first in, first out: the bytes of one queue are written in the order of its stream
(`output_queue`), so of two stretches of one stream the first is written as a whole before the
second is begun (`precedes_of_queue`).  Between two queues there is no order, and a stretch
precedes one of another queue only if it was written before the other was begun
(`Precedes.append`).
-/

namespace EpollChat

namespace Ledger

variable {Q C T B : Type} [DecidableEq Q]

/-- The bytes that were written, on any sink, in order. -/
def output (l : List (Move Q C T B)) : List (Cell Q B) :=
  (entries l).flatMap fun
    | (before, .take q _ bs) => cells q (taken q before) bs
    | _ => []

@[simp] lemma output_nil : output ([] : List (Move Q C T B)) = [] := rfl

@[simp] lemma output_put (l : List (Move Q C T B)) (q : Q) (t : T) (f : List B) :
    output (l ++ [.put q t f]) = output l := by
  simp [output, entries_append, entries]

@[simp] lemma output_take (l : List (Move Q C T B)) (q : Q) (c : C) (bs : List B) :
    output (l ++ [.take q c bs]) = output l ++ cells q (taken q l) bs := by
  simp [output, entries_append, entries]

/-- What is written later comes from takes. -/
lemma output_append (l l' : List (Move Q C T B)) :
    ∃ out, output (l ++ l') = output l ++ out ∧
      ∀ x ∈ out, ∃ c bs, .take x.queue c bs ∈ l' := by
  refine ⟨_, by rw [output, entries_append, List.flatMap_append]; rfl, fun x hx => ?_⟩
  obtain ⟨p, hp, hcells⟩ := List.mem_flatMap.mp hx
  obtain ⟨⟨before, m⟩, hentry, rfl⟩ := List.mem_map.mp hp
  obtain ⟨after, hl'⟩ := mem_entries.mp hentry
  have hmem : m ∈ l' := by
    rw [hl']
    exact List.mem_append_right _ List.mem_cons_self
  cases m with
  | put q t f => cases hcells
  | take q c bs =>
      obtain ⟨hq, -, -⟩ := mem_cells hcells
      rw [hq]
      exact ⟨c, bs, hmem⟩

/-- Nothing is taken where there is no take. -/
lemma taken_eq_zero {l : List (Move Q C T B)} {q : Q} (h : ∀ c bs, .take q c bs ∉ l) :
    taken q l = 0 := by
  have hnil : takes q l = [] := by
    refine List.filterMap_eq_nil_iff.mpr fun m hm => ?_
    cases m with
    | put q' t f => rfl
    | take q' c bs =>
        refine if_neg ?_
        rintro rfl
        exact h c bs hm
  rw [taken, hnil]
  rfl

/-! ## One queue -/

/-- **First in, first out.** The bytes of a queue are written in the order of its stream. -/
lemma output_queue {l : List (Move Q C T B)} (h : Valid l) (q : Q) :
    (output l).filter (fun x => x.queue = q) = cells q 0 ((stream q l).take (taken q l)) := by
  induction h with
  | nil => simp
  | @put l q' t f hl ih =>
      rw [output_put, ih, stream_append, taken_append, taken_put, Nat.add_zero,
        List.take_append_of_le_length (hl.taken_le q)]
  | @take l q' c bs hl hpre ih =>
      rw [output_take, List.filter_append, ih, stream_append, stream_take, List.append_nil,
        taken_append, taken_take]
      by_cases hq : q' = q
      · subst hq
        have hcells : (cells q' (taken q' l) bs).filter (fun x => x.queue = q') =
            cells q' (taken q' l) bs :=
          List.filter_eq_self.mpr fun x hx => decide_eq_true (mem_cells hx).1
        have hbytes : bs = ((stream q' l).drop (taken q' l)).take bs.length :=
          List.prefix_iff_eq_take.mp hpre
        have hlen : ((stream q' l).take (taken q' l)).length = taken q' l :=
          List.length_take_of_le (hl.taken_le q')
        rw [hcells, if_pos rfl, List.take_add, cells_append, hlen, Nat.zero_add, ← hbytes]
      · have hcells : (cells q' (taken q' l) bs).filter (fun x => x.queue = q) = [] :=
          List.filter_eq_nil_iff.mpr fun x hx hin =>
            hq ((mem_cells hx).1.symm.trans (of_decide_eq_true hin))
        rw [hcells, if_neg hq, List.append_nil, Nat.add_zero]

/-- What was written of a queue. -/
lemma mem_output {l : List (Move Q C T B)} (h : Valid l) {x : Cell Q B} :
    x ∈ output l ↔ x ∈ cells x.queue 0 ((stream x.queue l).take (taken x.queue l)) := by
  rw [← output_queue h, List.mem_filter]
  simp

lemma pos_lt_of_mem_output {l : List (Move Q C T B)} (h : Valid l) {x : Cell Q B}
    (hx : x ∈ output l) : x.pos < taken x.queue l := by
  obtain ⟨-, -, hlt⟩ := mem_cells ((mem_output h).mp hx)
  rw [Nat.zero_add, List.length_take] at hlt
  exact lt_of_lt_of_le hlt (Nat.min_le_left _ _)

/-- A frame lies in the stream of its queue. -/
lemma cells_subset_of_placed {l : List (Move Q C T B)} {q : Q} {p : ℕ × List B}
    (hp : p ∈ placed 0 (frames q l)) {n : ℕ} (hn : p.1 + p.2.length ≤ n) :
    cells q p.1 p.2 ⊆ cells q 0 ((stream q l).take n) := by
  obtain ⟨before, after, hflat, hpos⟩ := flatten_of_placed hp
  rw [Nat.zero_add] at hpos
  have hstream : stream q l = before ++ p.2 ++ after := hflat
  have hlen : (before ++ p.2).length ≤ n := by
    rw [List.length_append]
    omega
  rw [hstream, List.take_append, List.take_of_length_le hlen, cells_append, cells_append,
    Nat.zero_add, ← hpos]
  exact fun x hx => List.mem_append_left _ (List.mem_append_right _ hx)

/-- A frame that was taken as a whole was written. -/
lemma cells_subset_output {l : List (Move Q C T B)} (h : Valid l) {q : Q} {p : ℕ × List B}
    (hp : p ∈ placed 0 (frames q l)) (htaken : p.1 + p.2.length ≤ taken q l) :
    cells q p.1 p.2 ⊆ output l := by
  intro x hx
  obtain ⟨rfl, -, -⟩ := mem_cells hx
  exact (mem_output h).mpr (cells_subset_of_placed hp htaken hx)

/-! ## Before and after -/

/-- All of `xs` comes before any of `ys`. -/
def Precedes {α : Type*} (out xs ys : List α) : Prop :=
  ∀ p ∈ entries out, p.2 ∈ ys → xs ⊆ p.1

instance {α : Type*} [DecidableEq α] (out xs ys : List α) : Decidable (Precedes out xs ys) := by
  unfold Precedes
  infer_instance

lemma Precedes.of_disjoint {α : Type*} {out ys : List α} (h : ∀ y ∈ ys, y ∉ out)
    (xs : List α) : Precedes out xs ys := by
  intro p hp hy
  obtain ⟨after, rfl⟩ := mem_entries.mp hp
  exact absurd (List.mem_append_right _ List.mem_cons_self) (h p.2 hy)

/-- More is written: none of `ys`, or after all of `xs`. -/
lemma Precedes.append {α : Type*} {out out' xs ys : List α} (h : Precedes out xs ys)
    (hlater : xs ⊆ out ∨ ∀ y ∈ ys, y ∉ out') : Precedes (out ++ out') xs ys := by
  intro p hp hy
  rw [entries_append] at hp
  rcases List.mem_append.mp hp with hp | hp
  · exact h p hp hy
  · obtain ⟨p', hp', rfl⟩ := List.mem_map.mp hp
    obtain ⟨after, rfl⟩ := mem_entries.mp hp'
    rcases hlater with hall | hnone
    · exact fun x hx => List.mem_append_left _ (hall hx)
    · exact absurd (List.mem_append_right _ List.mem_cons_self) (hnone _ hy)

omit [DecidableEq Q] in
/-- The cells before a cell of a run are those of lower positions. -/
lemma cells_eq_append {q : Q} {n : ℕ} {bs : List B} {before after : List (Cell Q B)}
    {x : Cell Q B} (h : cells q n bs = before ++ x :: after) :
    before = cells q n (bs.take (x.pos - n)) := by
  induction bs generalizing n before with
  | nil => simp at h
  | cons b bs ih =>
      rw [cells_cons] at h
      cases before with
      | nil =>
          obtain ⟨rfl, -⟩ := List.cons.inj h
          simp
      | cons y before =>
          obtain ⟨rfl, hrest⟩ := List.cons.inj h
          have hx : x ∈ cells q (n + 1) bs := by
            rw [hrest]
            exact List.mem_append_right _ List.mem_cons_self
          have hpos : x.pos - n = x.pos - (n + 1) + 1 := by
            have hle := (mem_cells hx).2.1
            omega
          rw [hpos, List.take_succ_cons, cells_cons, ← ih hrest]

/-- **Of two frames of one queue the first is written before the second.** -/
theorem precedes_of_queue {l : List (Move Q C T B)} (h : Valid l) {q : Q} {p : ℕ × List B}
    (hp : p ∈ placed 0 (frames q l)) {start : ℕ} (hle : p.1 + p.2.length ≤ start)
    (frame : List B) : Precedes (output l) (cells q p.1 p.2) (cells q start frame) := by
  rintro ⟨before, y⟩ hentry hy x hx
  dsimp only at hy ⊢
  obtain ⟨after, hout⟩ := mem_entries.mp hentry
  obtain ⟨hqueue, hpos, -⟩ := mem_cells hy
  -- before the byte `y` all bytes of lower positions were written
  have hfilter := output_queue h q
  rw [hout, List.filter_append, List.filter_cons_of_pos (by simp [hqueue])] at hfilter
  have hbefore := cells_eq_append hfilter.symm
  have hlt := pos_lt_of_mem_output h (x := y)
    (by rw [hout]; exact List.mem_append_right _ List.mem_cons_self)
  rw [hqueue] at hlt
  rw [Nat.sub_zero, List.take_take, Nat.min_eq_left hlt.le] at hbefore
  have hmem : x ∈ before.filter (fun x => x.queue = q) := by
    rw [hbefore]
    exact cells_subset_of_placed hp (by omega) hx
  exact List.mem_of_mem_filter hmem

end Ledger

end EpollChat

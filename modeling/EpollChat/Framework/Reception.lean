import EpollChat.Framework.WriteOrder
import Mathlib.Data.List.Perm.Subperm

/-!
# What a sink has received whole

A framed sink has received a row of whole frames and perhaps the beginning of one more
(`Framed.split`).  The frames of one queue among them are in the order they were put there, each
once (`pairwise_of_cells`).  Where a queue is drained into this sink only, they are its first frames
(`prefix_of_wire`), and every frame that was taken as a whole is among them (`mem_of_taken`).
-/

namespace EpollChat

section Placed

variable {B : Type}

lemma nodup_placed {fs : List (List B)} (hne : ∀ f ∈ fs, f ≠ []) (n : ℕ) :
    (placed n fs).Nodup := by
  induction fs generalizing n with
  | nil => exact .nil
  | cons f fs ih =>
      obtain ⟨hf, hne⟩ := List.forall_mem_cons.mp hne
      refine List.nodup_cons.mpr ⟨fun hmem => ?_, ih hne _⟩
      have hle := le_of_placed hmem
      have hpos := List.length_pos_iff.mpr hf
      dsimp only at hle
      omega

/-- Frames that lie one after another from the start on are the first ones. -/
lemma prefix_placed {Q : Type} {q : Q} {n : ℕ} {fs : List (List B)} (hne : ∀ f ∈ fs, f ≠ [])
    {ps : List (ℕ × List B)} (hps : ∀ p ∈ ps, p ∈ placed n fs)
    (h : (ps.map fun p => cells q p.1 p.2).flatten <+: cells q n fs.flatten) :
    ps <+: placed n fs := by
  induction ps generalizing n fs with
  | nil => exact List.nil_prefix
  | cons p ps ih =>
      obtain ⟨hp, hrest⟩ := List.forall_mem_cons.mp hps
      -- the first cell of a frame that is there
      have hfirst : ∀ p' : ℕ × List B, p'.2 ≠ [] → ∃ b bs, p'.2 = b :: bs ∧
          cells q p'.1 p'.2 = ⟨q, p'.1, b⟩ :: cells q (p'.1 + 1) bs := fun p' hp' => by
        obtain ⟨b, bs, heq⟩ := List.exists_cons_of_ne_nil hp'
        exact ⟨b, bs, heq, by rw [heq, cells_cons]⟩
      rcases fs with _ | ⟨f, fs⟩
      · cases hp
      obtain ⟨hf, hne⟩ := List.forall_mem_cons.mp hne
      rw [List.map_cons, List.flatten_cons, List.flatten_cons, cells_append] at h
      rcases List.mem_cons.mp hp with rfl | hlater
      · -- the rest of the frames lies behind the first
        dsimp only at h
        rw [List.prefix_append_right_inj] at h
        refine (List.prefix_cons_inj _).mpr (ih hne (fun p' hp' => ?_) h)
        rcases List.mem_cons.mp (hrest p' hp') with rfl | hmem
        · obtain ⟨b, bs, -, hcells⟩ := hfirst (n, f) hf
          have hin : (⟨q, n, b⟩ : Cell Q B) ∈ cells q (n + f.length) fs.flatten :=
            h.subset (List.mem_flatten_of_mem (List.mem_map_of_mem hp')
              (hcells ▸ List.mem_cons_self))
          have hle := (mem_cells hin).2.1
          have hpos := List.length_pos_iff.mpr hf
          dsimp only at hle
          omega
        · exact hmem
      · -- the first frame starts at the start
        have hle := le_of_placed hlater
        obtain ⟨b, bs, -, hcells⟩ := hfirst p (hne _ (mem_of_placed hlater))
        obtain ⟨b', bs', -, hcells'⟩ := hfirst (n, f) hf
        have hpos := List.length_pos_iff.mpr hf
        dsimp only at hcells'
        rw [hcells, hcells', List.cons_append, List.cons_append, List.cons_prefix_cons] at h
        have hstart := congrArg Cell.pos h.1
        dsimp only at hstart
        omega

end Placed

namespace Ledger

variable {Q C T B : Type} [DecidableEq Q]

/-- A frame of a queue with the position of its first byte. -/
abbrev Placed (Q B : Type) := Q × ℕ × List B

/-- The cells of a placed frame. -/
def Placed.cells (x : Placed Q B) : List (Cell Q B) := EpollChat.cells x.1 x.2.1 x.2.2

/-- The frame was put there. -/
def Placed.In (x : Placed Q B) (l : List (Move Q C T B)) : Prop := x.2 ∈ placed 0 (frames x.1 l)

/-! ## Order -/

/-- What one sink received is in the order of all that was written. -/
lemma wire_sublist_output [DecidableEq C] (c : C) (l : List (Move Q C T B)) :
    (wire c l).Sublist (output l) := by
  induction l using List.reverseRecOn with
  | nil => exact List.Sublist.slnil
  | append_singleton l m ih =>
      cases m with
      | put q t f =>
          rw [wire_put, output_put]
          exact ih
      | take q d bs =>
          rw [wire_take, output_take]
          refine ih.append ?_
          split
          · exact List.Sublist.refl _
          · exact List.nil_sublist _

omit [DecidableEq Q] in
lemma pairwise_cells (q : Q) (n : ℕ) (bs : List B) :
    (cells q n bs).Pairwise fun x y => x.pos < y.pos := by
  induction bs generalizing n with
  | nil => exact List.Pairwise.nil
  | cons b bs ih =>
      rw [cells_cons]
      exact List.pairwise_cons.mpr ⟨fun y hy => (mem_cells hy).2.1, ih (n + 1)⟩

/-- A sink receives the bytes of one queue in the order of its stream, each once. -/
lemma pairwise_wire [DecidableEq C] {l : List (Move Q C T B)} (h : Valid l) (c : C) :
    (wire c l).Pairwise fun x y => x.queue = y.queue → x.pos < y.pos := by
  refine List.pairwise_iff_forall_sublist.mpr fun {x y} hsub hqueue => ?_
  have hfilter : ((wire c l).filter fun z => z.queue = x.queue).Pairwise
      fun z w => z.pos < w.pos := by
    refine List.Pairwise.sublist ((wire_sublist_output c l).filter _) ?_
    rw [output_queue h]
    exact pairwise_cells x.queue 0 _
  rw [List.pairwise_filter, List.pairwise_iff_forall_sublist] at hfilter
  exact hfilter hsub (by simp) (by simp [hqueue])

omit [DecidableEq Q] in
/-- So whole frames of one queue are received in the order they were put there. -/
lemma pairwise_of_cells {ps : List (Placed Q B)} (hne : ∀ x ∈ ps, x.2.2 ≠ [])
    (h : (ps.map Placed.cells).flatten.Pairwise fun x y =>
      x.queue = y.queue → x.pos < y.pos) :
    ps.Pairwise fun x y => x.1 = y.1 → x.2.1 < y.2.1 := by
  -- the first cell of a frame stands for it
  have hfirst : ∀ x : Placed Q B, x.2.2 ≠ [] → ∃ b, (⟨x.1, x.2.1, b⟩ : Cell Q B) ∈ x.cells := by
    rintro ⟨q, n, f⟩ hf
    cases f with
    | nil => exact absurd rfl hf
    | cons b f => exact ⟨b, by rw [Placed.cells, cells_cons]; exact List.mem_cons_self⟩
  induction ps with
  | nil => exact List.Pairwise.nil
  | cons x ps ih =>
      rw [List.map_cons, List.flatten_cons, List.pairwise_append] at h
      obtain ⟨-, hrest, hbetween⟩ := h
      refine List.pairwise_cons.mpr
        ⟨fun y hy hqueue => ?_, ih (fun z hz => hne z (List.mem_cons_of_mem _ hz)) hrest⟩
      obtain ⟨b, hb⟩ := hfirst x (hne x List.mem_cons_self)
      obtain ⟨b', hb'⟩ := hfirst y (hne y (List.mem_cons_of_mem _ hy))
      exact hbetween _ hb _ (List.mem_flatten.mpr ⟨_, List.mem_map_of_mem hy, hb'⟩) hqueue

/-! ## Whole frames -/

variable [DecidableEq C]

/-- Whole frames, and perhaps the beginning of one more. -/
lemma Framed.split {l : List (Move Q C T B)} {c : C} (h : Framed c l) :
    ∃ (ps : List (Placed Q B)) (tail : List (Cell Q B)), (∀ x ∈ ps, x.In l) ∧
      wire c l = (ps.map Placed.cells).flatten ++ tail ∧
      (tail = [] ∨ ∃ x : Placed Q B, x.In l ∧ tail <+: x.cells ∧ tail ≠ x.cells) := by
  obtain ⟨blocks, hblocks, hpre⟩ := h
  generalize wire c l = w at hpre
  induction blocks generalizing w with
  | nil =>
      rw [List.flatten_nil, List.prefix_nil] at hpre
      exact ⟨[], [], by simp, by simpa using hpre, .inl rfl⟩
  | cons b blocks ih =>
      obtain ⟨q, p, hp, rfl⟩ := hblocks b List.mem_cons_self
      rw [List.flatten_cons] at hpre
      rcases List.prefix_or_prefix_of_prefix hpre (List.prefix_append (cells q p.1 p.2) _) with
        hshort | ⟨w', rfl⟩
      · by_cases hwhole : w = cells q p.1 p.2
        · exact ⟨[(q, p)], [], by simpa [Placed.In] using hp, by simp [Placed.cells, hwhole],
            .inl rfl⟩
        · exact ⟨[], w, by simp, by simp, .inr ⟨(q, p), hp, hshort, hwhole⟩⟩
      · obtain ⟨ps, tail, hps, rfl, htail⟩ :=
          ih (fun b hb => hblocks b (List.mem_cons_of_mem _ hb)) w'
            ((List.prefix_append_right_inj _).mp hpre)
        refine ⟨(q, p) :: ps, tail, List.forall_mem_cons.mpr ⟨hp, hps⟩, ?_, htail⟩
        rw [List.map_cons, List.flatten_cons, List.append_assoc]
        rfl

/-- A queue that is drained into one sink only. -/
lemma filter_wire {l : List (Move Q C T B)} {q : Q} {c : C}
    (hown : ∀ d bs, .take q d bs ∈ l → d = c) :
    (wire c l).filter (fun x => x.queue = q) = (output l).filter fun x => x.queue = q := by
  induction l using List.reverseRecOn with
  | nil => rfl
  | append_singleton l m ih =>
      have hbefore := ih fun d bs hmem => hown d bs (List.mem_append_left _ hmem)
      cases m with
      | put q' t f => rw [wire_put, output_put, hbefore]
      | take q' d bs =>
          rw [wire_take, output_take, List.filter_append, List.filter_append, hbefore]
          congr 1
          by_cases hq : q' = q
          · subst hq
            rw [if_pos (hown d bs (List.mem_append_right _ List.mem_cons_self))]
          · have hnone : (cells q' (taken q' l) bs).filter (fun x => x.queue = q) = [] :=
              List.filter_eq_nil_iff.mpr fun x hx hin =>
                hq ((mem_cells hx).1.symm.trans (of_decide_eq_true hin))
            split
            · rfl
            · rw [hnone]
              rfl

/-- A frame that was taken as a whole is one of the whole frames that the sink has received. -/
lemma mem_of_taken {l : List (Move Q C T B)} (hvalid : Valid l) {c : C} {x : Placed Q B}
    (hx : x.In l) (hown : ∀ d bs, .take x.1 d bs ∈ l → d = c)
    (htaken : x.2.1 + x.2.2.length ≤ taken x.1 l) (hne : x.2.2 ≠ []) {ps : List (Placed Q B)}
    {tail : List (Cell Q B)} (hps : ∀ y ∈ ps, y.In l)
    (hwire : wire c l = (ps.map Placed.cells).flatten ++ tail)
    (htail : tail = [] ∨ ∃ y : Placed Q B, y.In l ∧ tail <+: y.cells ∧ tail ≠ y.cells) :
    x ∈ ps := by
  have hsub : x.cells ⊆ wire c l := by
    intro cell hcell
    have hout := cells_subset_output hvalid hx htaken hcell
    have hq := (mem_cells hcell).1
    have hfilter : cell ∈ (output l).filter fun y => y.queue = x.1 :=
      List.mem_filter.mpr ⟨hout, decide_eq_true hq⟩
    rw [← filter_wire hown] at hfilter
    exact (List.mem_filter.mp hfilter).1
  -- a cell of the frame is in no other frame
  have hsame : ∀ (y : Placed Q B), y.In l → ∀ cell ∈ x.cells, cell ∈ y.cells → y = x := by
    intro y hy cell hcx hcy
    obtain ⟨hqx, hlx, hux⟩ := mem_cells hcx
    obtain ⟨hqy, hly, huy⟩ := mem_cells hcy
    obtain ⟨q, p⟩ := x
    obtain ⟨q', p'⟩ := y
    obtain rfl : q' = q := hqy.symm.trans hqx
    obtain rfl : p' = p := placed_unique hy hx ⟨hly, huy⟩ ⟨hlx, hux⟩
    rfl
  by_contra hnot
  have hcells : x.cells ⊆ tail := by
    intro cell hcell
    have hmem := hsub hcell
    rw [hwire] at hmem
    rcases List.mem_append.mp hmem with hmem | hmem
    · obtain ⟨b, hb, hcell'⟩ := List.mem_flatten.mp hmem
      obtain ⟨y, hy, rfl⟩ := List.mem_map.mp hb
      exact absurd (hsame y (hps y hy) cell hcell hcell' ▸ hy) hnot
    · exact hmem
  have hpos : 0 < x.cells.length := by
    rw [Placed.cells, length_cells]
    exact List.length_pos_iff.mpr hne
  obtain ⟨first, hfirst⟩ := List.exists_mem_of_length_pos hpos
  rcases htail with rfl | ⟨y, hy, hpre, hcut⟩
  · exact absurd (hcells hfirst) List.not_mem_nil
  · -- the frame that is cut is this one, but all of it is there
    obtain rfl := hsame y hy first hfirst (hpre.subset (hcells hfirst))
    have hnodup : y.cells.Nodup :=
      (pairwise_cells y.1 y.2.1 y.2.2).imp fun hlt heq => hlt.ne (congrArg Cell.pos heq)
    exact hcut (hpre.eq_of_length_le (hnodup.subperm hcells).length_le)

/-- The frames of a queue that is drained into one sink only are received from the first one on,
with none left out. -/
lemma prefix_of_wire {l : List (Move Q C T B)} (hvalid : Valid l) {q : Q} {c : C}
    (hown : ∀ d bs, .take q d bs ∈ l → d = c) (hne : ∀ f ∈ frames q l, f ≠ [])
    {ps : List (Placed Q B)} {tail : List (Cell Q B)} (hps : ∀ x ∈ ps, x.In l)
    (hwire : wire c l = (ps.map Placed.cells).flatten ++ tail) :
    (ps.filter fun x => x.1 = q).map Prod.snd <+: placed 0 (frames q l) := by
  have hblocks : ((ps.map Placed.cells).flatten).filter (fun x => x.queue = q) =
      (((ps.filter fun x => x.1 = q).map Prod.snd).map fun p => cells q p.1 p.2).flatten := by
    clear hps hwire
    induction ps with
    | nil => rfl
    | cons x ps ih =>
        obtain ⟨q', p⟩ := x
        rw [List.map_cons, List.flatten_cons, List.filter_append, ih]
        by_cases hq : q' = q
        · subst hq
          have hall : (Placed.cells (q', p)).filter (fun x => x.queue = q') = cells q' p.1 p.2 :=
            List.filter_eq_self.mpr fun x hx => decide_eq_true (mem_cells hx).1
          simp [hall]
        · have hnone : (Placed.cells (q', p)).filter (fun x => x.queue = q) = [] :=
            List.filter_eq_nil_iff.mpr fun x hx hin =>
              hq ((mem_cells hx).1.symm.trans (of_decide_eq_true hin))
          simp [hnone, hq]
  have hqueue := output_queue hvalid q
  rw [← filter_wire hown, hwire, List.filter_append, hblocks] at hqueue
  refine prefix_placed (q := q) hne (fun p hp => ?_) ?_
  · obtain ⟨x, hx, rfl⟩ := List.mem_map.mp hp
    obtain ⟨hmem, hxq⟩ := List.mem_filter.mp hx
    obtain rfl := of_decide_eq_true hxq
    exact hps x hmem
  · have hall := cells_append q 0 ((stream q l).take (taken q l)) ((stream q l).drop (taken q l))
    rw [List.take_append_drop, ← hqueue] at hall
    show _ <+: cells q 0 (stream q l)
    rw [hall, List.append_assoc]
    exact List.prefix_append _ _

end Ledger

end EpollChat

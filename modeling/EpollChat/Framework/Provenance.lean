import EpollChat.Framework.Whereabouts

/-!
# Where a received byte comes from

A ledger records with every frame a tag, which says why the frame was put into its queue.
`Ledger.tagAt` looks up the tag of a position of a queue's stream.  Every byte that a sink has
received lies in a frame that was put there, so it has a tag, and it was written in a move that
the ledger records (`Ledger.moves_of_wire`).  A policy on the two kinds of moves is then a policy
on the bytes that arrive.
-/

namespace EpollChat

namespace Ledger

variable {Q C T B : Type} [DecidableEq Q]

/-- The tag of the frame that a position of a queue's stream lies in. -/
def tagAt (q : Q) : List (Move Q C T B) → ℕ → Option T
  | [], _ => none
  | .put q' t f :: l, n =>
      if q' = q then if n < f.length then some t else tagAt q l (n - f.length) else tagAt q l n
  | .take .. :: l, n => tagAt q l n

/-- A position that the stream reaches has a tag, and a frame was put there with it. -/
lemma exists_tagAt {q : Q} {l : List (Move Q C T B)} {n : ℕ} (h : n < (stream q l).length) :
    ∃ t f, tagAt q l n = some t ∧ .put q t f ∈ l := by
  induction l generalizing n with
  | nil => exact absurd h (Nat.not_lt_zero n)
  | cons m l ih =>
      rw [← List.singleton_append, stream_append, List.length_append] at h
      rcases m with ⟨q', t, f⟩ | ⟨q', c, bs⟩
      · rw [stream_put] at h
        rw [tagAt]
        by_cases hq : q' = q
        · subst hq
          rw [if_pos rfl] at h ⊢
          by_cases hn : n < f.length
          · exact ⟨t, f, if_pos hn, List.mem_cons_self⟩
          · obtain ⟨t', f', htag, hmem⟩ := @ih (n - f.length) (by omega)
            exact ⟨t', f', (if_neg hn).trans htag, List.mem_cons_of_mem _ hmem⟩
        · rw [if_neg hq] at h ⊢
          obtain ⟨t', f', htag, hmem⟩ := @ih n (by simpa using h)
          exact ⟨t', f', htag, List.mem_cons_of_mem _ hmem⟩
      · obtain ⟨t', f', htag, hmem⟩ := @ih n (by simpa using h)
        exact ⟨t', f', htag, List.mem_cons_of_mem _ hmem⟩

/-- The tag of a frame's first position is the tag it was put with. -/
lemma put_of_placed {q : Q} {l : List (Move Q C T B)} {k n : ℕ} {f : List B}
    (h : (n, f) ∈ placed k (frames q l)) (hf : f ≠ []) :
    k ≤ n ∧ ∃ t, tagAt q l (n - k) = some t ∧ .put q t f ∈ l := by
  induction l generalizing k with
  | nil => exact absurd h List.not_mem_nil
  | cons m l ih =>
      rw [← List.singleton_append, frames_append] at h
      rcases m with ⟨q', t, f'⟩ | ⟨q', c, bs⟩
      · rw [frames_put] at h
        rw [tagAt]
        by_cases hq : q' = q
        · subst hq
          rw [if_pos rfl, List.singleton_append] at h
          rw [if_pos rfl]
          rcases List.mem_cons.mp h with heq | h
          · obtain ⟨rfl, rfl⟩ := Prod.mk.inj heq
            have hpos : 0 < f.length := List.length_pos_iff.mpr hf
            exact ⟨le_rfl, t, if_pos (by omega), List.mem_cons_self⟩
          · obtain ⟨hle, t', htag, hput⟩ := ih h
            refine ⟨by omega, t', ?_, List.mem_cons_of_mem _ hput⟩
            rw [if_neg (by omega), Nat.sub_sub]
            exact htag
        · rw [if_neg hq, List.nil_append] at h
          rw [if_neg hq]
          obtain ⟨hle, t', htag, hput⟩ := ih h
          exact ⟨hle, t', htag, List.mem_cons_of_mem _ hput⟩
      · rw [frames_take, List.nil_append] at h
        obtain ⟨hle, t', htag, hput⟩ := ih h
        exact ⟨hle, t', htag, List.mem_cons_of_mem _ hput⟩

/-- The frames that were put into a queue with one tag. -/
def tagged [DecidableEq T] (q : Q) (t : T) (l : List (Move Q C T B)) : List (List B) :=
  l.filterMap fun
    | .put q' t' f => if q' = q ∧ t' = t then some f else none
    | .take .. => none

/-- The frames of a queue whose positions have a tag. -/
lemma filter_placed [DecidableEq T] {q : Q} {l : List (Move Q C T B)}
    (hne : ∀ f ∈ frames q l, f ≠ []) (k : ℕ) (t : T) :
    ((placed k (frames q l)).filter fun p => tagAt q l (p.1 - k) = some t).map Prod.snd =
      tagged q t l := by
  induction l generalizing k with
  | nil => rfl
  | cons m l ih =>
      rw [← List.singleton_append, frames_append] at hne ⊢
      have hrest : ∀ f ∈ frames q l, f ≠ [] := fun f hf => hne f (List.mem_append_right _ hf)
      have ih := fun k => ih hrest k
      rcases m with ⟨q', t', f⟩ | ⟨q', c, bs⟩
      · rw [frames_put] at hne ⊢
        by_cases hq : q' = q
        · subst hq
          rw [if_pos rfl] at hne ⊢
          have hpos := List.length_pos_iff.mpr (hne f List.mem_cons_self)
          have hhead : tagAt q' ([Move.put q' t' f] ++ l : List (Move Q C T B)) (k - k) = some t' := by
            simp [tagAt, hpos]
          have htail : ((placed (k + f.length) (frames q' l)).filter fun p =>
              tagAt q' ([Move.put q' t' f] ++ l) (p.1 - k) = some t) =
                (placed (k + f.length) (frames q' l)).filter fun p =>
                  tagAt q' l (p.1 - (k + f.length)) = some t := by
            refine List.filter_congr fun p hp => ?_
            have hle := le_of_placed hp
            have hsub : p.1 - k - f.length = p.1 - (k + f.length) := by omega
            rw [List.singleton_append, tagAt, if_pos rfl, if_neg (by omega), hsub]
          have hplaced : placed k ([f] ++ frames q' l) =
              (k, f) :: placed (k + f.length) (frames q' l) := rfl
          have htagged : tagged q' t ([Move.put q' t' f] ++ l) =
              if t' = t then f :: tagged q' t l else tagged q' t l := by
            by_cases ht : t' = t <;> simp [tagged, ht]
          rw [hplaced, List.filter_cons, hhead, htail, htagged]
          by_cases ht : t' = t <;> simp [ht, ih]
        · have htag : ∀ n, tagAt q ([Move.put q' t' f] ++ l) n = tagAt q l n := fun n => by
            rw [List.singleton_append, tagAt, if_neg hq]
          simp only [if_neg hq, List.nil_append, htag, ih]
          simp [tagged, hq]
      · have htag : ∀ n, tagAt q ([Move.take q' c bs] ++ l) n = tagAt q l n := fun _ => rfl
        simp only [frames_take, List.nil_append, htag, ih]
        simp [tagged]

/-- What was a ledger before more happened. -/
lemma Valid.of_prefix {l l' : List (Move Q C T B)} (h : Valid l') (hpre : l <+: l') :
    Valid l := by
  induction h with
  | nil => exact List.prefix_nil.mp hpre ▸ .nil
  | put q t f hvalid ih =>
      rcases List.prefix_concat_iff.mp hpre with rfl | hpre
      · exact .put q t f hvalid
      · exact ih hpre
  | take q c bs hvalid hfront ih =>
      rcases List.prefix_concat_iff.mp hpre with rfl | hpre
      · exact .take q c bs hvalid hfront
      · exact ih hpre

variable [DecidableEq C]

/-- A received byte was written. -/
lemma exists_take_of_wire {l : List (Move Q C T B)} {c : C} {x : Cell Q B} (h : x ∈ wire c l) :
    ∃ bs, .take x.queue c bs ∈ l := by
  induction l using List.reverseRecOn with
  | nil => exact absurd h List.not_mem_nil
  | append_singleton l m ih =>
      have hold : x ∈ wire c l → ∃ bs, .take x.queue c bs ∈ l ++ [m] := fun hx =>
        (ih hx).imp fun _ hmem => List.mem_append_left _ hmem
      rcases m with ⟨q, t, f⟩ | ⟨q, d, bs⟩
      · exact hold (wire_put c l q t f ▸ h)
      · rw [wire_take] at h
        refine (List.mem_append.mp h).elim hold fun hnew => ?_
        split at hnew
        · next hd =>
            subst hd
            obtain rfl := (mem_cells hnew).1
            exact ⟨bs, List.mem_append_right _ List.mem_cons_self⟩
        · exact absurd hnew List.not_mem_nil

/-- **Where a received byte comes from**: the frame it was put there with, and the move that
wrote it. -/
theorem moves_of_wire {l : List (Move Q C T B)} (hvalid : Valid l) {c : C} {x : Cell Q B}
    (h : x ∈ wire c l) :
    ∃ t f bs, tagAt x.queue l x.pos = some t ∧ .put x.queue t f ∈ l ∧
      .take x.queue c bs ∈ l := by
  have hlt := (pos_lt_of_mem_wire h).trans_le (hvalid.taken_le x.queue)
  obtain ⟨t, f, htag, hput⟩ := exists_tagAt hlt
  obtain ⟨bs, htake⟩ := exists_take_of_wire h
  exact ⟨t, f, bs, htag, hput, htake⟩

end Ledger

end EpollChat

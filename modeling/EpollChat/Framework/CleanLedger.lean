import EpollChat.Framework.Ledger

/-!
# Clean ledgers are framed

A taking move is *clean* if it leaves frames together: no other queue has a cut frame on the same
sink, and the queue's own cut frame, if there is one, was begun on that sink.  `framed_of_clean`
derives the framing law of every sink from this local condition.

The invariant is `Tidy`: what a sink received is a row of whole frames and a beginning of one
more frame, which is empty unless that frame is cut and was begun there.  A run of bytes is
taken one byte at a time, and the byte at a position belongs to exactly one frame
(`exists_placed`, `placed_unique`), so the byte extends the beginning it finds or starts a new
one.
-/

namespace EpollChat

/-! ## Positions and frames -/

section Placed

variable {B : Type}

lemma placed_append (n : ℕ) (fs gs : List (List B)) :
    placed n (fs ++ gs) = placed n fs ++ placed (n + fs.flatten.length) gs := by
  induction fs generalizing n with
  | nil => simp [placed]
  | cons g fs ih => simp [placed, ih, Nat.add_assoc]

/-- A frame lies in the concatenation at the position it is placed at. -/
lemma flatten_of_placed {n : ℕ} {fs : List (List B)} {p : ℕ × List B} (h : p ∈ placed n fs) :
    ∃ before after, fs.flatten = before ++ p.2 ++ after ∧ p.1 = n + before.length := by
  induction fs generalizing n with
  | nil => cases h
  | cons f fs ih =>
      rcases List.mem_cons.mp h with rfl | h
      · exact ⟨[], fs.flatten, by simp, by simp⟩
      · obtain ⟨before, after, hflat, hpos⟩ := ih h
        refine ⟨f ++ before, after, ?_, ?_⟩
        · rw [List.flatten_cons, hflat]
          simp
        · rw [hpos, List.length_append]
          omega

lemma mem_of_placed {n : ℕ} {fs : List (List B)} {p : ℕ × List B} (h : p ∈ placed n fs) :
    p.2 ∈ fs := by
  induction fs generalizing n with
  | nil => cases h
  | cons f fs ih =>
      rcases List.mem_cons.mp h with rfl | h
      · exact List.mem_cons_self
      · exact List.mem_cons_of_mem _ (ih h)

/-- Every position in the concatenation is in a frame. -/
lemma exists_placed {n i : ℕ} {fs : List (List B)} (hn : n ≤ i)
    (hi : i < n + fs.flatten.length) : ∃ p ∈ placed n fs, p.1 ≤ i ∧ i < p.1 + p.2.length := by
  induction fs generalizing n with
  | nil =>
      simp only [List.flatten_nil, List.length_nil] at hi
      omega
  | cons f fs ih =>
      rw [List.flatten_cons, List.length_append] at hi
      by_cases hf : i < n + f.length
      · exact ⟨(n, f), List.mem_cons_self, hn, hf⟩
      · obtain ⟨p, hp, hpos⟩ := ih (n := n + f.length) (by omega) (by omega)
        exact ⟨p, List.mem_cons_of_mem _ hp, hpos⟩

@[simp] lemma map_snd_placed (n : ℕ) (fs : List (List B)) : (placed n fs).map Prod.snd = fs := by
  induction fs generalizing n with
  | nil => rfl
  | cons f fs ih => simp [placed, ih]

lemma le_of_placed {n : ℕ} {fs : List (List B)} {p : ℕ × List B} (h : p ∈ placed n fs) :
    n ≤ p.1 := by
  obtain ⟨before, -, -, hpos⟩ := flatten_of_placed h
  omega

/-- And before the end of the concatenation. -/
lemma end_le_of_placed {n : ℕ} {fs : List (List B)} {p : ℕ × List B} (h : p ∈ placed n fs) :
    p.1 + p.2.length ≤ n + fs.flatten.length := by
  obtain ⟨before, after, hflat, hpos⟩ := flatten_of_placed h
  rw [hflat, List.length_append, List.length_append]
  omega

/-- And in only one. -/
lemma placed_unique {n i : ℕ} {fs : List (List B)} {p p' : ℕ × List B} (hp : p ∈ placed n fs)
    (hp' : p' ∈ placed n fs) (h : p.1 ≤ i ∧ i < p.1 + p.2.length)
    (h' : p'.1 ≤ i ∧ i < p'.1 + p'.2.length) : p = p' := by
  induction fs generalizing n with
  | nil => cases hp
  | cons f fs ih =>
      have hrest : ∀ x ∈ placed (n + f.length) fs, n + f.length ≤ x.1 := fun x hx =>
        le_of_placed hx
      rcases List.mem_cons.mp hp with rfl | hp <;> rcases List.mem_cons.mp hp' with rfl | hp'
      · rfl
      · have := hrest p' hp'
        dsimp only at h
        omega
      · have := hrest p hp
        dsimp only at h'
        omega
      · exact ih hp hp'

end Placed

namespace Ledger

variable {Q C T B : Type} [DecidableEq Q]

/-! ## Sinks and cuts -/

lemma lastSink_put (l : List (Move Q C T B)) (q q' : Q) (t : T) (f : List B) :
    lastSink q (l ++ [.put q' t f]) = lastSink q l := by
  simp [lastSink, takes]

lemma lastSink_take (l : List (Move Q C T B)) (q q' : Q) (c : C) (bs : List B) :
    lastSink q (l ++ [.take q' c bs]) = if q' = q ∧ bs ≠ [] then some c else lastSink q l := by
  by_cases hq : q' = q
  · by_cases hbs : bs = []
    · simp [lastSink, takes, hq, hbs]
    · have hnonempty : bs.isEmpty = false := by simpa using hbs
      simp [lastSink, takes, hq, hbs, hnonempty]
  · simp [lastSink, takes, hq]

/-- The queue a move is about. -/
def queueOf : Move Q C T B → Q
  | .put q _ _ => q
  | .take q _ _ => q

lemma mem_queues_of_cut {l : List (Move Q C T B)} {q : Q} (h : Cut q l) :
    q ∈ l.map queueOf := by
  by_contra hnone
  have hframes : frames q l = [] := by
    refine List.filterMap_eq_nil_iff.mpr fun m hm => ?_
    cases m with
    | take => rfl
    | put q' t f =>
        have hne : q' ≠ q := by
          rintro rfl
          exact hnone (List.mem_map.mpr ⟨_, hm, rfl⟩)
        simp [hne]
  obtain ⟨p, hp, -⟩ := h
  rw [hframes] at hp
  cases hp

lemma cut_put {l : List (Move Q C T B)} (hl : ∀ q, taken q l ≤ (stream q l).length) (q q' : Q)
    (t : T) (f : List B) : Cut q (l ++ [.put q' t f]) ↔ Cut q l := by
  unfold Cut
  rw [taken_append, taken_put, Nat.add_zero, frames_append, frames_put]
  split
  · rw [placed_append]
    constructor
    · rintro ⟨p, hp, hcut⟩
      rcases List.mem_append.mp hp with hp | hp
      · exact ⟨p, hp, hcut⟩
      · -- the new frame begins behind everything that was taken
        obtain rfl := List.mem_singleton.mp hp
        have hle : taken q l ≤ (frames q l).flatten.length := hl q
        dsimp only at hcut
        omega
    · rintro ⟨p, hp, hcut⟩
      exact ⟨p, List.mem_append_left _ hp, hcut⟩
  · rw [List.append_nil]

lemma placed_put {l : List (Move Q C T B)} {q q' : Q} {t : T} {f : List B} {p : ℕ × List B}
    (h : p ∈ placed 0 (frames q l)) : p ∈ placed 0 (frames q (l ++ [.put q' t f])) := by
  rw [frames_append, frames_put]
  split
  · rw [placed_append]
    exact List.mem_append_left _ h
  · rwa [List.append_nil]

/-! ## One byte -/

/-- There is a byte to take only if the stream goes on. -/
lemma taken_lt_of_prefix {l : List (Move Q C T B)} {q : Q} {b : B} (h : [b] <+: contents q l) :
    taken q l < (stream q l).length := by
  have hlen := h.length_le
  simp only [contents, List.length_drop, List.length_singleton] at hlen
  omega

/-- The next byte continues the frame that it is in. -/
lemma take_succ_of_prefix {l : List (Move Q C T B)} {q : Q} {b : B} (h : [b] <+: contents q l)
    {p : ℕ × List B} (hp : p ∈ placed 0 (frames q l)) (hle : p.1 ≤ taken q l)
    (hlt : taken q l < p.1 + p.2.length) :
    p.2.take (taken q l + 1 - p.1) = p.2.take (taken q l - p.1) ++ [b] := by
  obtain ⟨rest, hrest⟩ := h
  obtain ⟨before, after, hflat, hpos⟩ := flatten_of_placed hp
  rw [Nat.zero_add] at hpos
  have hget : (stream q l)[taken q l]? = some b := by
    have h0 := congrArg (fun x => x[0]?) hrest
    simpa [contents, eq_comm] using h0
  have hb : p.2[taken q l - p.1]? = some b := by
    have hstream : stream q l = before ++ p.2 ++ after := hflat
    rw [hstream, List.getElem?_append_left (by rw [List.length_append]; omega),
      List.getElem?_append_right (by omega)] at hget
    rwa [hpos]
  have hsub : taken q l + 1 - p.1 = taken q l - p.1 + 1 := by omega
  rw [hsub, List.take_add_one, hb]
  rfl

/-! ## Clean moves -/

/-- Taking these bytes from the queue leaves frames together on the sink. -/
def CleanTake (l : List (Move Q C T B)) (q : Q) (c : C) (bs : List B) : Prop :=
  bs ≠ [] → (∀ q', q' ≠ q → ¬ CutOn q' c l) ∧ (Cut q l → lastSink q l = some c)

/-- Only the queues that occur can be cut. -/
lemma cleanTake_iff {l : List (Move Q C T B)} {q : Q} {c : C} {bs : List B} :
    CleanTake l q c bs ↔
      (bs ≠ [] → (∀ q' ∈ l.map queueOf, q' ≠ q → ¬ CutOn q' c l) ∧
        (Cut q l → lastSink q l = some c)) := by
  refine imp_congr Iff.rfl (and_congr ⟨fun h q' _ => h q', fun h q' hq hcut => ?_⟩ Iff.rfl)
  exact h q' (mem_queues_of_cut hcut.1) hq hcut

instance [DecidableEq C] [DecidableEq B] (l : List (Move Q C T B)) (q : Q) (c : C) (bs : List B) :
    Decidable (CleanTake l q c bs) :=
  decidable_of_iff _ cleanTake_iff.symm

/-- Every run of bytes was taken off the front of its queue, and cleanly. -/
inductive Clean : List (Move Q C T B) → Prop
  | nil : Clean []
  | put {l} (q : Q) (t : T) (f : List B) : Clean l → Clean (l ++ [.put q t f])
  | take {l} (q : Q) (c : C) (bs : List B) : Clean l → bs <+: contents q l →
      CleanTake l q c bs → Clean (l ++ [.take q c bs])

lemma Clean.valid {l : List (Move Q C T B)} (h : Clean l) : Valid l := by
  induction h with
  | nil => exact .nil
  | put q t f _ ih => exact .put q t f ih
  | take q c bs _ hpre _ ih => exact .take q c bs ih hpre

variable [DecidableEq C]

/-! ## Equivalent ledgers -/

/-- Two ledgers that agree on everything the framing law speaks about. -/
structure Same (l l' : List (Move Q C T B)) : Prop where
  frames : ∀ q, frames q l = frames q l'
  taken : ∀ q, taken q l = taken q l'
  wire : ∀ c, wire c l = wire c l'
  lastSink : ∀ q, lastSink q l = lastSink q l'

namespace Same

variable {l l' : List (Move Q C T B)}

lemma symm (h : Same l l') : Same l' l :=
  ⟨fun q => (h.frames q).symm, fun q => (h.taken q).symm, fun c => (h.wire c).symm,
    fun q => (h.lastSink q).symm⟩

lemma cut_iff (h : Same l l') (q : Q) : Cut q l ↔ Cut q l' := by
  unfold Cut
  rw [h.frames, h.taken]

lemma cutOn_iff (h : Same l l') (q : Q) (c : C) : CutOn q c l ↔ CutOn q c l' := by
  unfold CutOn
  rw [h.cut_iff, h.lastSink]

end Same

/-- Taking no bytes changes nothing. -/
lemma same_take_nil (l : List (Move Q C T B)) (q : Q) (c : C) : Same (l ++ [.take q c []]) l where
  frames q' := by simp
  taken q' := by simp
  wire d := by simp [wire_take]
  lastSink q' := by simp [lastSink_take]

/-- Taking a run of bytes is taking its first byte and then the others. -/
lemma same_take_cons (l : List (Move Q C T B)) (q : Q) (c : C) (b : B) (bs : List B) :
    Same (l ++ [.take q c [b]] ++ [.take q c bs]) (l ++ [.take q c (b :: bs)]) where
  frames q' := by
    rw [frames_append, frames_append, frames_append]
    simp
  taken q' := by
    rw [taken_append, taken_append, taken_append, taken_take, taken_take, taken_take]
    by_cases hq : q = q'
    · simp only [hq, if_true, List.length_cons, List.length_nil]
      omega
    · simp [hq]
  wire d := by
    rw [wire_take, wire_take, wire_take, taken_append, taken_take, if_pos rfl, List.append_assoc]
    by_cases hd : c = d
    · simp [hd, cells_cons]
    · simp [hd]
  lastSink q' := by
    rw [lastSink_take, lastSink_take, lastSink_take]
    by_cases hq : q = q' <;> simp [hq]

lemma CleanTake.of_same {l l' : List (Move Q C T B)} (h : Same l l') {q : Q} {c : C} {bs : List B}
    (hclean : CleanTake l q c bs) : CleanTake l' q c bs := by
  intro hbs
  obtain ⟨hother, hown⟩ := hclean hbs
  refine ⟨fun q' hq' hcut => hother q' hq' ((h.cutOn_iff q' c).mpr hcut), fun hcut => ?_⟩
  rw [← h.lastSink]
  exact hown ((h.cut_iff q).mpr hcut)

/-! ## The invariant -/

/-- What the sink received is whole frames and a beginning of the frame that is cut on it, if
one is. -/
def Tidy (c : C) (l : List (Move Q C T B)) : Prop :=
  ∃ blocks : List (List (Cell Q B)), (∀ b ∈ blocks, IsFrame l b) ∧
    ((wire c l = blocks.flatten ∧ ∀ q, ¬ CutOn q c l) ∨
      ∃ q, ∃ p ∈ placed 0 (frames q l), (p.1 < taken q l ∧ taken q l < p.1 + p.2.length) ∧
        wire c l = blocks.flatten ++ cells q p.1 (p.2.take (taken q l - p.1)) ∧
          lastSink q l = some c ∧ ∀ q', q' ≠ q → ¬ CutOn q' c l)

lemma IsFrame.of_same {l l' : List (Move Q C T B)} (h : Same l l') {b : List (Cell Q B)}
    (hb : IsFrame l b) : IsFrame l' b := by
  obtain ⟨q, p, hp, rfl⟩ := hb
  rw [h.frames] at hp
  exact ⟨q, p, hp, rfl⟩

lemma Tidy.of_same {l l' : List (Move Q C T B)} (h : Same l l') {c : C} (ht : Tidy c l) :
    Tidy c l' := by
  obtain ⟨blocks, hblocks, hrest⟩ := ht
  refine ⟨blocks, fun b hb => (hblocks b hb).of_same h, ?_⟩
  rcases hrest with ⟨hwire, hno⟩ | ⟨q, p, hp, hcut, hwire, hlast, hno⟩
  · exact .inl ⟨h.wire c ▸ hwire, fun q hq => hno q ((h.cutOn_iff q c).mpr hq)⟩
  · refine .inr ⟨q, p, h.frames q ▸ hp, h.taken q ▸ hcut, ?_, h.lastSink q ▸ hlast,
      fun q' hq' hcut' => hno q' hq' ((h.cutOn_iff q' c).mpr hcut')⟩
    rw [← h.wire, ← h.taken]
    exact hwire

/-- A tidy sink is framed: the beginning is completed by the rest of its frame. -/
lemma Tidy.framed {l : List (Move Q C T B)} {c : C} (h : Tidy c l) : Framed c l := by
  obtain ⟨blocks, hblocks, ⟨hwire, -⟩ | ⟨q, p, hp, -, hwire, -⟩⟩ := h
  · exact ⟨blocks, hblocks, hwire ▸ List.prefix_refl _⟩
  · refine ⟨blocks ++ [cells q p.1 p.2], fun b hb => ?_, ?_⟩
    · rcases List.mem_append.mp hb with hb | hb
      · exact hblocks b hb
      · exact ⟨q, p, hp, List.mem_singleton.mp hb⟩
    · rw [hwire, List.flatten_append, List.flatten_singleton]
      refine (List.prefix_append_right_inj _).mpr ?_
      refine ⟨cells q (p.1 + (p.2.take (taken q l - p.1)).length) (p.2.drop (taken q l - p.1)), ?_⟩
      rw [← cells_append, List.take_append_drop]

/-! ## Putting -/

lemma tidy_put {l : List (Move Q C T B)} (hl : ∀ q, taken q l ≤ (stream q l).length) {c : C}
    (h : Tidy c l) (q : Q) (t : T) (f : List B) : Tidy c (l ++ [.put q t f]) := by
  have hcutOn : ∀ q', CutOn q' c (l ++ [.put q t f]) ↔ CutOn q' c l := fun q' => by
    rw [CutOn, CutOn, cut_put hl, lastSink_put]
  obtain ⟨blocks, hblocks, hrest⟩ := h
  refine ⟨blocks, fun b hb => ?_, ?_⟩
  · obtain ⟨q', p, hp, rfl⟩ := hblocks b hb
    exact ⟨q', p, placed_put hp, rfl⟩
  · rcases hrest with ⟨hwire, hno⟩ | ⟨q', p, hp, hcut, hwire, hlast, hno⟩
    · exact .inl ⟨by rw [wire_put, hwire], fun q' => by rw [hcutOn]; exact hno q'⟩
    · refine .inr ⟨q', p, placed_put hp, by simpa using hcut, ?_, ?_, fun q'' hq'' => ?_⟩
      · rw [wire_put, hwire, taken_append, taken_put, Nat.add_zero]
      · rw [lastSink_put, hlast]
      · rw [hcutOn]
        exact hno q'' hq''

/-! ## Taking -/

/-- On another sink nothing changes: the queue's cut frame was not begun there. -/
lemma tidy_take_other {l : List (Move Q C T B)} {q : Q} {c d : C} {b : B} (hd : d ≠ c)
    (hclean : Cut q l → lastSink q l = some c) (h : Tidy d l) :
    Tidy d (l ++ [.take q c [b]]) := by
  have hwire : wire d (l ++ [.take q c [b]]) = wire d l := by
    rw [wire_take, if_neg (Ne.symm hd), List.append_nil]
  have hframes : ∀ q', frames q' (l ++ [.take q c [b]]) = frames q' l := by simp
  have htaken : ∀ q', q' ≠ q → taken q' (l ++ [.take q c [b]]) = taken q' l := fun q' hq' => by
    rw [taken_append, taken_take, if_neg (Ne.symm hq'), Nat.add_zero]
  have hcutOn : ∀ q', CutOn q' d (l ++ [.take q c [b]]) → q' ≠ q ∧ CutOn q' d l := by
    rintro q' ⟨hcut, hlast⟩
    rw [lastSink_take] at hlast
    split at hlast
    · exact absurd (Option.some.inj hlast).symm hd
    · next hne =>
        have hq' : q' ≠ q := fun h => hne ⟨h.symm, by simp⟩
        refine ⟨hq', ?_, hlast⟩
        unfold Cut at hcut ⊢
        rwa [hframes, htaken q' hq'] at hcut
  obtain ⟨blocks, hblocks, hrest⟩ := h
  refine ⟨blocks, fun x hx => ?_, ?_⟩
  · obtain ⟨q', p, hp, rfl⟩ := hblocks x hx
    exact ⟨q', p, by rwa [hframes], rfl⟩
  · rcases hrest with ⟨hw, hno⟩ | ⟨q', p, hp, hcut, hw, hlast, hno⟩
    · exact .inl ⟨hwire.trans hw, fun q' h => hno q' (hcutOn q' h).2⟩
    · have hq' : q' ≠ q := by
        rintro rfl
        have hsame := hclean ⟨p, hp, hcut⟩
        rw [hlast] at hsame
        exact hd (Option.some.inj hsame)
      refine .inr ⟨q', p, by rwa [hframes], by rwa [htaken q' hq'], ?_, ?_, fun q'' hq'' h => ?_⟩
      · rw [hwire, htaken q' hq', hw]
      · rw [lastSink_take, if_neg fun h => hq' h.1.symm, hlast]
      · exact hno q'' hq'' (hcutOn q'' h).2

/-- On the sink itself the byte extends the beginning that is there, or starts a frame. -/
lemma tidy_take_self {l : List (Move Q C T B)} {q : Q} {c : C} {b : B}
    (hpre : [b] <+: contents q l) (hclean : CleanTake l q c [b]) (h : Tidy c l) :
    Tidy c (l ++ [.take q c [b]]) := by
  obtain ⟨hother, hown⟩ := hclean (by simp)
  have hlt : taken q l < 0 + (frames q l).flatten.length := by
    rw [Nat.zero_add]
    exact taken_lt_of_prefix hpre
  -- the frame that the byte belongs to
  obtain ⟨p, hp, hle, hlt'⟩ := exists_placed (Nat.zero_le (taken q l)) hlt
  have hbyte := take_succ_of_prefix hpre hp hle hlt'
  -- what the sink has is whole frames and the beginning of this frame
  have hbegun : ∃ blocks : List (List (Cell Q B)), (∀ x ∈ blocks, IsFrame l x) ∧
      wire c l = blocks.flatten ++ cells q p.1 (p.2.take (taken q l - p.1)) := by
    obtain ⟨blocks, hblocks, ⟨hw, hno⟩ | ⟨q', p', hp', hcut, hw, hlast, -⟩⟩ := h
    · refine ⟨blocks, hblocks, ?_⟩
      have hstart : taken q l = p.1 := by
        by_contra hne
        have hcut : Cut q l := ⟨p, hp, by omega, hlt'⟩
        exact hno q ⟨hcut, hown hcut⟩
      rw [hw, hstart]
      simp
    · obtain rfl : q' = q := by
        by_contra hne
        exact hother q' hne ⟨⟨p', hp', hcut⟩, hlast⟩
      obtain rfl := placed_unique hp hp' ⟨hle, hlt'⟩ ⟨hcut.1.le, hcut.2⟩
      exact ⟨blocks, hblocks, hw⟩
  obtain ⟨blocks, hblocks, hw⟩ := hbegun
  have hframes : ∀ q', frames q' (l ++ [.take q c [b]]) = frames q' l := by simp
  have htaken : taken q (l ++ [.take q c [b]]) = taken q l + 1 := by simp
  have hwire : wire c (l ++ [.take q c [b]]) =
      blocks.flatten ++ cells q p.1 (p.2.take (taken q l + 1 - p.1)) := by
    have hlen : p.1 + (p.2.take (taken q l - p.1)).length = taken q l := by
      rw [List.length_take]
      omega
    rw [wire_take, if_pos rfl, hw, hbyte, cells_append, hlen, List.append_assoc]
  have hblocks' : ∀ x ∈ blocks, IsFrame (l ++ [.take q c [b]]) x := by
    intro x hx
    obtain ⟨q', p', hp', rfl⟩ := hblocks x hx
    exact ⟨q', p', by rwa [hframes], rfl⟩
  have hno : ∀ q', q' ≠ q → ¬ CutOn q' c (l ++ [.take q c [b]]) := by
    rintro q' hq' ⟨hcut, hlast⟩
    refine hother q' hq' ⟨?_, ?_⟩
    · unfold Cut at hcut ⊢
      rwa [hframes, taken_append, taken_take, if_neg (Ne.symm hq'), Nat.add_zero] at hcut
    · rwa [lastSink_take, if_neg fun h => hq' h.1.symm] at hlast
  by_cases hend : taken q l + 1 < p.1 + p.2.length
  · refine ⟨blocks, hblocks', .inr ⟨q, p, by rwa [hframes], ?_, ?_, ?_, hno⟩⟩
    · rw [htaken]
      omega
    · rw [hwire, htaken]
    · simp [lastSink_take]
  · -- the frame is complete
    have hwhole : p.2.take (taken q l + 1 - p.1) = p.2 := List.take_of_length_le (by omega)
    refine ⟨blocks ++ [cells q p.1 p.2], fun x hx => ?_, .inl ⟨?_, fun q' => ?_⟩⟩
    · rcases List.mem_append.mp hx with hx | hx
      · exact hblocks' x hx
      · exact ⟨q, p, by rwa [hframes], List.mem_singleton.mp hx⟩
    · rw [hwire, hwhole]
      simp
    · by_cases hq' : q' = q
      · subst hq'
        rintro ⟨⟨p', hp', hcut⟩, -⟩
        rw [hframes] at hp'
        rw [htaken] at hcut
        have hsame := placed_unique (i := taken q' l) hp hp' ⟨hle, hlt'⟩ ⟨by omega, by omega⟩
        subst hsame
        omega
      · exact hno q' hq'

/-- A clean run of bytes keeps every sink tidy. -/
lemma tidy_take {l : List (Move Q C T B)} {q : Q} {c : C} {bs : List B}
    (hpre : bs <+: contents q l) (hclean : CleanTake l q c bs) (h : ∀ d, Tidy d l) :
    ∀ d, Tidy d (l ++ [.take q c bs]) := by
  induction bs generalizing l with
  | nil => exact fun d => (h d).of_same (same_take_nil l q c).symm
  | cons b bs ih =>
      obtain ⟨hother, hown⟩ := hclean (by simp)
      obtain ⟨rest, hrest⟩ := hpre
      have hfirst : ∀ d, Tidy d (l ++ [.take q c [b]]) := by
        intro d
        by_cases hd : d = c
        · subst hd
          exact tidy_take_self ⟨bs ++ rest, hrest⟩ (fun _ => ⟨hother, hown⟩) (h d)
        · exact tidy_take_other hd hown (h d)
      have hrest' : bs <+: contents q (l ++ [.take q c [b]]) := by
        rw [contents_take_self, ← hrest]
        exact ⟨rest, rfl⟩
      have hclean' : CleanTake (l ++ [.take q c [b]]) q c bs := by
        refine fun _ => ⟨fun q' hq' hcut => hother q' hq' ?_, fun _ => by simp [lastSink_take]⟩
        obtain ⟨hcut, hlast⟩ := hcut
        refine ⟨?_, ?_⟩
        · unfold Cut at hcut ⊢
          simpa [Ne.symm hq'] using hcut
        · rwa [lastSink_take, if_neg fun h => hq' h.1.symm] at hlast
      exact fun d => (ih hrest' hclean' hfirst d).of_same (same_take_cons l q c b bs)

/-! ## The theorem -/

lemma tidy_of_clean {l : List (Move Q C T B)} (h : Clean l) : ∀ c, Tidy c l := by
  induction h with
  | nil => exact fun c => ⟨[], by simp, .inl ⟨rfl, fun q => by simp [CutOn, Cut, placed]⟩⟩
  | put q t f hl ih => exact fun c => tidy_put hl.valid.taken_le (ih c) q t f
  | take q c bs _ hpre hclean ih => exact tidy_take hpre hclean ih

/-- What a framed sink received is, in bytes, a prefix of a concatenation of frames. -/
lemma Framed.bytes {l : List (Move Q C T B)} {c : C} (h : Framed c l) :
    ∃ fs : List (List B), (∀ f ∈ fs, ∃ q, f ∈ frames q l) ∧ written c l <+: fs.flatten := by
  obtain ⟨blocks, hblocks, hpre⟩ := h
  refine ⟨blocks.map fun b => b.map Cell.byte, fun f hf => ?_, ?_⟩
  · obtain ⟨b, hb, rfl⟩ := List.mem_map.mp hf
    obtain ⟨q, p, hp, rfl⟩ := hblocks b hb
    rw [map_byte_cells]
    exact ⟨q, mem_of_placed hp⟩
  · have h := hpre.map Cell.byte
    rwa [List.map_flatten] at h

/-- On a framed sink the second byte continues the frame of the first one, unless that has only
one byte. -/
lemma Framed.second {l : List (Move Q C T B)} {c : C} (h : Framed c l) {x y : Cell Q B}
    {rest : List (Cell Q B)} (hwire : wire c l = x :: y :: rest) :
    y.queue = x.queue ∨
      ∃ p ∈ placed 0 (frames x.queue l), x.pos + 1 = p.1 + p.2.length := by
  obtain ⟨blocks, hblocks, hpre⟩ := h
  rw [hwire] at hpre
  clear hwire
  induction blocks with
  | nil => exact absurd (List.prefix_nil.mp hpre) (by simp)
  | cons b blocks ih =>
      obtain ⟨q, p, hp, rfl⟩ := hblocks b List.mem_cons_self
      obtain ⟨start, f⟩ := p
      match f, hp, hpre with
      | [], _, hpre => exact ih (fun b hb => hblocks b (List.mem_cons_of_mem _ hb)) hpre
      | [b₁], hp, hpre =>
          simp only [List.flatten_cons, cells_cons, List.cons_append, List.cons_prefix_cons] at hpre
          obtain ⟨rfl, -⟩ := hpre
          exact .inr ⟨_, hp, rfl⟩
      | b₁ :: b₂ :: f, hp, hpre =>
          simp only [List.flatten_cons, cells_cons, List.cons_append, List.cons_prefix_cons] at hpre
          obtain ⟨rfl, rfl, -⟩ := hpre
          exact .inl rfl

/-- **Clean ledgers are framed.** -/
theorem framed_of_clean {l : List (Move Q C T B)} (h : Clean l) (c : C) : Framed c l :=
  (tidy_of_clean h c).framed

end Ledger

end EpollChat

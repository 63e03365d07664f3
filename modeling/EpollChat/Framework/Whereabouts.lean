import EpollChat.Framework.CleanLedger

/-!
# Where a frame is

A frame of a ledger can be in two places: the bytes of it that were taken are on the sinks, and
the others are in its queue.  `WrittenTo` says of a frame that its taken bytes are on one sink,
once and in order, and on no other, and `Undivided` says it of every frame.

The only condition is that a cut frame is continued where it was begun (`Continues`).  Unlike a
clean take this does not ask what else is cut on the sink: a frame that is interleaved with
another one is still written once.
-/

namespace EpollChat

/-! ## Histories -/

section Entries

variable {α : Type*}

/-- The entries of a history, each with the history before it. -/
def entries : List α → List (List α × α)
  | [] => []
  | x :: l => ([], x) :: (entries l).map fun p => (x :: p.1, p.2)

lemma entries_append (l l' : List α) :
    entries (l ++ l') = entries l ++ (entries l').map fun p => (l ++ p.1, p.2) := by
  induction l with
  | nil => simp [entries]
  | cons x l ih => simp [entries, ih, Function.comp_def]

lemma mem_entries {l : List α} {p : List α × α} :
    p ∈ entries l ↔ ∃ after, l = p.1 ++ p.2 :: after := by
  induction l generalizing p with
  | nil => simp [entries]
  | cons x l ih =>
      obtain ⟨before, y⟩ := p
      constructor
      · intro h
        rcases List.mem_cons.mp h with h | h
        · obtain ⟨rfl, rfl⟩ := Prod.mk.inj h
          exact ⟨l, rfl⟩
        · obtain ⟨p, hp, heq⟩ := List.mem_map.mp h
          obtain ⟨rfl, rfl⟩ := Prod.mk.inj heq
          obtain ⟨after, rfl⟩ := ih.mp hp
          exact ⟨after, rfl⟩
      · rintro ⟨after, h⟩
        cases before with
        | nil =>
            obtain ⟨rfl, rfl⟩ := List.cons.inj h
            exact List.mem_cons_self
        | cons z before =>
            obtain ⟨rfl, rfl⟩ := List.cons.inj h
            exact List.mem_cons_of_mem _ (List.mem_map.mpr ⟨(before, y), ih.mpr ⟨after, rfl⟩, rfl⟩)

end Entries

namespace Ledger

variable {Q C T B : Type} [DecidableEq Q]

/-! ## Where frames lie -/

/-- A frame lies where the stream ended when it was put. -/
lemma placed_of_put (before after : List (Move Q C T B)) (q : Q) (t : T) (f : List B) :
    ((stream q before).length, f) ∈ placed 0 (frames q (before ++ .put q t f :: after)) := by
  rw [List.append_cons, frames_append, frames_append, frames_put, if_pos rfl, List.append_assoc,
    placed_append, placed_append, Nat.zero_add]
  exact List.mem_append_right _ (List.mem_append_left _ List.mem_cons_self)

/-- What was not taken of a frame is in its queue, behind what was not taken before it. -/
lemma contents_of_placed {l : List (Move Q C T B)} {q : Q} {p : ℕ × List B}
    (hp : p ∈ placed 0 (frames q l)) (hlt : taken q l < p.1 + p.2.length) :
    ∃ pre post, contents q l = pre ++ p.2.drop (taken q l - p.1) ++ post ∧
      pre.length = p.1 - taken q l := by
  obtain ⟨before, after, hflat, hpos⟩ := flatten_of_placed hp
  rw [Nat.zero_add] at hpos
  have hstream : stream q l = before ++ p.2 ++ after := hflat
  refine ⟨before.drop (taken q l), after, ?_, by rw [List.length_drop, hpos]⟩
  rw [contents, hstream, List.drop_append_of_le_length (by rw [List.length_append]; omega),
    List.drop_append, hpos]

/-! ## The last sink -/

lemma mem_of_lastSink {l : List (Move Q C T B)} {q : Q} {c : C} (h : lastSink q l = some c) :
    ∃ bs, .take q c bs ∈ l := by
  unfold lastSink at h
  obtain ⟨⟨d, bs⟩, hlast, rfl⟩ := Option.map_eq_some_iff.mp h
  have hmem := List.mem_of_mem_filter (List.mem_of_getLast? hlast)
  obtain ⟨m, hm, heq⟩ := List.mem_filterMap.mp hmem
  cases m with
  | put => cases heq
  | take q' d' bs' =>
      dsimp only at heq
      split at heq
      · next hq =>
          obtain ⟨rfl, rfl⟩ := Prod.mk.inj (Option.some.inj heq)
          exact ⟨bs', hq ▸ hm⟩
      · cases heq

lemma lastSink_ne_none {l : List (Move Q C T B)} {q : Q} (h : 0 < taken q l) :
    lastSink q l ≠ none := by
  intro hnone
  unfold lastSink at hnone
  rw [Option.map_eq_none_iff, List.getLast?_eq_none_iff, List.filter_eq_nil_iff] at hnone
  have hzero : ∀ n ∈ (takes q l).map fun p => p.2.length, n = 0 := by
    intro n hn
    obtain ⟨p, hp, rfl⟩ := List.mem_map.mp hn
    simpa using hnone p hp
  rw [taken, List.sum_eq_zero_iff_forall_eq_nat.mpr hzero] at h
  exact absurd h (lt_irrefl 0)

/-- The run of bytes continues the cut frame, if there is one, on the sink it was begun on. -/
def Continues (l : List (Move Q C T B)) (q : Q) (c : C) (bs : List B) : Prop :=
  bs ≠ [] → Cut q l → lastSink q l = some c

instance [DecidableEq C] [DecidableEq B] (l : List (Move Q C T B)) (q : Q) (c : C) (bs : List B) :
    Decidable (Continues l q c bs) := by
  unfold Continues
  infer_instance

/-- A queue that is taken to one sink is continued there. -/
lemma continues_of_own {l : List (Move Q C T B)} {q : Q} {c : C}
    (hown : ∀ d bs, .take q d bs ∈ l → d = c) (bs : List B) : Continues l q c bs := by
  rintro - ⟨p, -, hlt, -⟩
  obtain ⟨d, hd⟩ := Option.ne_none_iff_exists'.mp (lastSink_ne_none (Nat.zero_lt_of_lt hlt))
  obtain ⟨bs', hmem⟩ := mem_of_lastSink hd
  rw [hd, hown d bs' hmem]

/-- Taking from another queue makes no difference. -/
lemma Continues.take_of_ne {l : List (Move Q C T B)} {q q' : Q} {c : C} {bs : List B}
    (h : Continues l q c bs) (hq : q' ≠ q) (d : C) (bs' : List B) :
    Continues (l ++ [.take q' d bs']) q c bs := by
  intro hbs hcut
  rw [lastSink_take, if_neg fun h => hq h.1]
  refine h hbs ?_
  unfold Cut at hcut ⊢
  rwa [frames_append, frames_take, List.append_nil, taken_append, taken_take, if_neg hq,
    Nat.add_zero] at hcut

variable [DecidableEq C]

/-! ## What a sink received of a frame -/

/-- What a sink received of a stretch of a queue's stream. -/
def received (q : Q) (start len : ℕ) (c : C) (l : List (Move Q C T B)) : List (Cell Q B) :=
  (wire c l).filter fun x => x.queue = q ∧ start ≤ x.pos ∧ x.pos < start + len

lemma pos_lt_of_mem_wire {l : List (Move Q C T B)} {c : C} {x : Cell Q B} (h : x ∈ wire c l) :
    x.pos < taken x.queue l := by
  induction l using List.reverseRecOn with
  | nil => cases h
  | append_singleton l m ih =>
      rw [taken_append]
      cases m with
      | put q t f =>
          rw [wire_put] at h
          exact Nat.lt_add_right _ (ih h)
      | take q d bs =>
          rw [wire_take] at h
          rcases List.mem_append.mp h with h | h
          · exact Nat.lt_add_right _ (ih h)
          · split at h
            · obtain ⟨hq, -, hlt⟩ := mem_cells h
              rw [hq, taken_take, if_pos rfl]
              exact hlt
            · cases h

section Received

variable (l : List (Move Q C T B)) (q q' : Q) (start len : ℕ) (c d : C)

@[simp] lemma received_put (t : T) (f : List B) :
    received q start len d (l ++ [.put q' t f]) = received q start len d l := by
  rw [received, wire_put, received]

/-- A run of bytes from elsewhere. -/
lemma received_take_other {bs : List B}
    (h : q' = q → taken q l + bs.length ≤ start ∨ start + len ≤ taken q l) :
    received q start len d (l ++ [.take q' c bs]) = received q start len d l := by
  rw [received, wire_take, List.filter_append, received]
  have hnone : (if c = d then cells q' (taken q' l) bs else []).filter
      (fun x => decide (x.queue = q ∧ start ≤ x.pos ∧ x.pos < start + len)) = [] := by
    refine List.filter_eq_nil_iff.mpr fun x hx hin => ?_
    obtain ⟨hq, hle, hlt⟩ := of_decide_eq_true hin
    split at hx
    · obtain ⟨hq', hle', hlt'⟩ := mem_cells hx
      obtain rfl : q' = q := hq'.symm.trans hq
      have hdisjoint := h rfl
      omega
    · cases hx
  rw [hnone, List.append_nil]

/-- A byte of the stretch. -/
lemma received_take_byte {b : B} (hle : start ≤ taken q l) (hlt : taken q l < start + len) :
    received q start len d (l ++ [.take q c [b]]) =
      received q start len d l ++ if c = d then [⟨q, taken q l, b⟩] else [] := by
  rw [received, wire_take, List.filter_append, received, cells_cons, cells_nil]
  by_cases hc : c = d
  · simp [hc, hle, hlt]
  · simp [hc]

end Received

/-- **Written once.**  Of the frame at `start`, the sink `c` received the bytes that were taken,
once and in order, and no other sink received any. -/
def WrittenTo (q : Q) (start : ℕ) (frame : List B) (c : C) (l : List (Move Q C T B)) : Prop :=
  ∀ d, received q start frame.length d l =
    if d = c then cells q start (frame.take (taken q l - start)) else []

/-- A frame that was not begun is on no sink. -/
lemma WrittenTo.of_not_begun {l : List (Move Q C T B)} {q : Q} {start : ℕ} {frame : List B}
    (h : taken q l ≤ start) (c : C) : WrittenTo q start frame c l := by
  intro d
  have hnone : received q start frame.length d l = [] := by
    refine List.filter_eq_nil_iff.mpr fun x hx hin => ?_
    obtain ⟨rfl, hle, -⟩ := of_decide_eq_true hin
    have hlt := pos_lt_of_mem_wire hx
    omega
  rw [hnone, Nat.sub_eq_zero_of_le h, List.take_zero, cells_nil, ite_self]

lemma WrittenTo.of_same {l l' : List (Move Q C T B)} (h : Same l l') {q : Q} {start : ℕ}
    {frame : List B} {c : C} (hwritten : WrittenTo q start frame c l) :
    WrittenTo q start frame c l' := by
  intro d
  have hd := hwritten d
  unfold received at hd ⊢
  rwa [h.wire, h.taken] at hd

/-- **No frame is divided.**  What was taken of a frame was written once, and if the frame is
cut, that was to the last sink of its queue. -/
def Undivided (l : List (Move Q C T B)) : Prop :=
  ∀ q, ∀ p ∈ placed 0 (frames q l), ∃ c, WrittenTo q p.1 p.2 c l ∧
    (p.1 < taken q l → taken q l < p.1 + p.2.length → lastSink q l = some c)

lemma Undivided.of_same {l l' : List (Move Q C T B)} (h : Same l l') (hl : Undivided l) :
    Undivided l' := by
  intro q p hp
  rw [← h.frames] at hp
  obtain ⟨c, hwritten, hlast⟩ := hl q p hp
  rw [← h.taken, ← h.lastSink]
  exact ⟨c, hwritten.of_same h, hlast⟩

lemma undivided_put [Inhabited C] {l : List (Move Q C T B)} (hvalid : Valid l)
    (h : Undivided l) (q : Q) (t : T) (f : List B) : Undivided (l ++ [.put q t f]) := by
  have htaken : ∀ q', taken q' (l ++ [.put q t f]) = taken q' l := by simp
  intro q' p hp
  rw [htaken, lastSink_put]
  have hold : p ∈ placed 0 (frames q' l) ∨ taken q' l ≤ p.1 := by
    rw [frames_append, frames_put] at hp
    split at hp
    · rw [placed_append] at hp
      refine (List.mem_append.mp hp).imp id fun hnew => ?_
      obtain rfl := List.mem_singleton.mp hnew
      have hle : taken q' l ≤ (frames q' l).flatten.length := hvalid.taken_le q'
      omega
    · exact .inl (by rwa [List.append_nil] at hp)
  rcases hold with hold | hle
  · obtain ⟨c, hwritten, hlast⟩ := h q' p hold
    refine ⟨c, fun d => ?_, hlast⟩
    rw [received_put, htaken]
    exact hwritten d
  · refine ⟨default, .of_not_begun ?_ default, fun hlt => absurd hlt (not_lt.mpr hle)⟩
    rwa [htaken]

/-- A byte that continues the cut frame where it was begun, or begins a frame. -/
lemma undivided_take_byte {l : List (Move Q C T B)} (h : Undivided l) {q : Q} {c : C} {b : B}
    (hpre : [b] <+: contents q l) (hcont : Cut q l → lastSink q l = some c) :
    Undivided (l ++ [.take q c [b]]) := by
  intro q' p hp
  have hframes : frames q' (l ++ [.take q c [b]]) = frames q' l := by simp
  rw [hframes] at hp
  obtain ⟨d, hwritten, hlast⟩ := h q' p hp
  by_cases hq : q = q'
  · subst hq
    have htaken : taken q (l ++ [.take q c [b]]) = taken q l + 1 := by simp
    have hsink : lastSink q (l ++ [.take q c [b]]) = some c := by simp [lastSink_take]
    rw [htaken, hsink]
    by_cases hin : p.1 ≤ taken q l ∧ taken q l < p.1 + p.2.length
    · -- the byte is the frame's, and what there is of it is on `c` already
      obtain ⟨hle, hlt⟩ := hin
      have hbegun : WrittenTo q p.1 p.2 c l := by
        rcases hle.lt_or_eq with hcut | hstart
        · obtain rfl : d = c :=
            Option.some.inj ((hlast hcut hlt).symm.trans (hcont ⟨p, hp, hcut, hlt⟩))
          exact hwritten
        · exact .of_not_begun hstart.ge c
      refine ⟨c, fun e => ?_, fun _ _ => rfl⟩
      have hlen : p.1 + (p.2.take (taken q l - p.1)).length = taken q l := by
        rw [List.length_take]
        omega
      rw [received_take_byte l q p.1 _ c e hle hlt, hbegun e, htaken,
        take_succ_of_prefix hpre hp hle hlt, cells_append, hlen, cells_cons, cells_nil]
      by_cases he : e = c
      · simp [he]
      · simp [he, Ne.symm he]
    · refine ⟨d, fun e => ?_, fun hlt hlt' => absurd ⟨by omega, by omega⟩ hin⟩
      have hsame : p.2.take (taken q l + 1 - p.1) = p.2.take (taken q l - p.1) := by
        by_cases hbefore : taken q l < p.1
        · rw [Nat.sub_eq_zero_of_le hbefore.le, Nat.sub_eq_zero_of_le hbefore]
        · rw [List.take_of_length_le (by omega), List.take_of_length_le (by omega)]
      rw [received_take_other l q q p.1 _ c e fun _ => ?_, hwritten e, htaken, hsame]
      rw [List.length_singleton]
      omega
  · have htaken : taken q' (l ++ [.take q c [b]]) = taken q' l := by simp [hq]
    rw [htaken, lastSink_take, if_neg fun h => hq h.1]
    refine ⟨d, fun e => ?_, hlast⟩
    rw [received_take_other l q' q p.1 _ c e fun h => absurd h hq, hwritten e, htaken]

lemma undivided_take {l : List (Move Q C T B)} (h : Undivided l) {q : Q} {c : C} {bs : List B}
    (hpre : bs <+: contents q l) (hcont : Continues l q c bs) :
    Undivided (l ++ [.take q c bs]) := by
  induction bs generalizing l with
  | nil => exact h.of_same (same_take_nil l q c).symm
  | cons b bs ih =>
      obtain ⟨rest, hrest⟩ := hpre
      have hfirst : Undivided (l ++ [.take q c [b]]) :=
        undivided_take_byte h ⟨bs ++ rest, hrest⟩ (hcont (by simp))
      have hrest' : bs <+: contents q (l ++ [.take q c [b]]) := by
        rw [contents_take_self, ← hrest]
        exact ⟨rest, rfl⟩
      have hcont' : Continues (l ++ [.take q c [b]]) q c bs := fun _ _ => by simp [lastSink_take]
      exact (ih hfirst hrest' hcont').of_same (same_take_cons l q c b bs)

end Ledger

end EpollChat

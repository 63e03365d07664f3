import Mathlib.Data.List.Infix
import Mathlib.Tactic.Common

/-!
# Longest match

A scanner takes the tokens of a language `T` off the front of a text one by one, each of them the
longest that stands there.  `Munch T s ws rest` says that this takes the tokens `ws` off `s` and
comes to `rest`.

How many tokens that can be depends on what merges.  If a token of one symbol merges with any token
in front of it, then all tokens but the first have two symbols (`Munch.two_mul_length_le`).  If two
tokens either merge or stay apart whatever follows, then every text that is made of tokens in some
way is taken to its end (`exists_munch`).

A table of prefixes that is searched from the front finds the longest one, if no entry hides a
longer one behind it (`find?_isPrefixOf_eq_some_iff`).
-/

namespace EpollChat

variable {α : Type*} {T : List α → Prop}

/-- The longest token at the front of a text. -/
structure IsLongest (T : List α → Prop) (s w : List α) : Prop where
  token : T w
  front : w <+: s
  longest : ∀ v, T v → v <+: s → v.length ≤ w.length

/-- Longest match takes the tokens `ws` off `s` and leaves `rest`. -/
inductive Munch (T : List α → Prop) : List α → List (List α) → List α → Prop
  | nil {s : List α} : Munch T s [] s
  | cons {w s rest : List α} {ws : List (List α)} (first : IsLongest T (w ++ s) w)
      (others : Munch T s ws rest) : Munch T (w ++ s) (w :: ws) rest

lemma IsLongest.unique {s w w' : List α} (h : IsLongest T s w) (h' : IsLongest T s w') : w = w' := by
  have hlen : w.length = w'.length :=
    le_antisymm (h'.longest w h.token h.front) (h.longest w' h'.token h'.front)
  exact (List.prefix_of_prefix_length_le h.front h'.front hlen.le).eq_of_length hlen

namespace Munch

variable {s rest : List α} {ws : List (List α)}

lemma flatten (h : Munch T s ws rest) : s = ws.flatten ++ rest := by
  induction h with
  | nil => rfl
  | cons _ _ ih => rw [List.flatten_cons, List.append_assoc, ← ih]

lemma token (h : Munch T s ws rest) : ∀ w ∈ ws, T w := by
  induction h with
  | nil => exact fun _ hw => absurd hw List.not_mem_nil
  | cons first _ ih => exact List.forall_mem_cons.mpr ⟨first.token, ih⟩

/-- There is one way to take a text to its end. -/
lemma unique (hne : ∀ w, T w → w ≠ []) {ws' : List (List α)} (h : Munch T s ws [])
    (h' : Munch T s ws' []) : ws = ws' := by
  generalize hrest : ([] : List α) = rest at h
  induction h generalizing ws' with
  | nil =>
      subst hrest
      cases ws' with
      | nil => rfl
      | cons w ws' =>
          have hflat := h'.flatten
          have hw := hne w (h'.token w List.mem_cons_self)
          simp [hw] at hflat
  | @cons w s rest ws first others ih =>
      generalize htext : w ++ s = text at h'
      cases h' with
      | nil =>
          have hw := hne w first.token
          simp [hw] at htext
      | @cons w' s' _ ws' first' others' =>
          rw [htext] at first
          obtain rfl := first.unique first'
          obtain rfl := List.append_cancel_left htext
          rw [ih others' hrest]

section Length

variable (hne : ∀ w, T w → w ≠ []) (hmerge : ∀ w a, T w → T [a] → T (w ++ [a]))
include hne hmerge

/-- Behind another token there is none of one symbol. -/
lemma two_le_length (h : Munch T s ws rest) : ∀ w ∈ ws.tail, 2 ≤ w.length := by
  induction h with
  | nil => exact fun _ hw => absurd hw List.not_mem_nil
  | @cons w s rest ws first others ih =>
      cases others with
      | nil => exact fun _ hw => absurd hw List.not_mem_nil
      | @cons v s _ ws second others =>
          refine List.forall_mem_cons.mpr ⟨?_, ih⟩
          by_contra hshort
          have hpos := List.length_pos_of_ne_nil (hne v second.token)
          obtain ⟨a, rfl⟩ := List.length_eq_one_iff.mp (by omega : v.length = 1)
          have hlonger := first.longest (w ++ [a]) (hmerge w a first.token second.token)
            ⟨s, List.append_assoc w [a] s⟩
          rw [List.length_append, List.length_singleton] at hlonger
          omega

/-- **The number of tokens** is at most half the number of symbols taken, rounded up. -/
lemma two_mul_length_le (h : Munch T s ws rest) :
    2 * ws.length + rest.length ≤ s.length + 1 := by
  have htail : ∀ {vs : List (List α)}, (∀ v ∈ vs, 2 ≤ v.length) →
      2 * vs.length ≤ vs.flatten.length := by
    intro vs hvs
    induction vs with
    | nil => exact le_rfl
    | cons v vs ih =>
        obtain ⟨hv, hvs⟩ := List.forall_mem_cons.mp hvs
        have := ih hvs
        rw [List.flatten_cons, List.length_append, List.length_cons]
        omega
  have hlen := congrArg List.length h.flatten
  rw [List.length_append] at hlen
  have htokens := h.token
  have htwo := two_le_length hne hmerge h
  cases ws with
  | nil =>
      rw [List.flatten_nil] at hlen
      simp only [List.length_nil] at hlen ⊢
      omega
  | cons w ws =>
      have hpos := List.length_pos_of_ne_nil (hne w (htokens w List.mem_cons_self))
      have hws := htail htwo
      rw [List.flatten_cons, List.length_append] at hlen
      rw [List.length_cons]
      rw [List.tail_cons] at hws
      omega

end Length

end Munch

/-- **Texts made of tokens** are taken to their end. -/
lemma exists_munch (happend : ∀ u v, T u → T v → T (u ++ v) ∨ ∀ s, IsLongest T (u ++ (v ++ s)) u)
    {ws : List (List α)} (hws : ws ≠ []) (htokens : ∀ w ∈ ws, T w) :
    ∃ ws', ws' ≠ [] ∧ Munch T ws.flatten ws' [] := by
  induction hn : ws.length generalizing ws with
  | zero => exact absurd (List.length_eq_zero_iff.mp hn) hws
  | succ n ih =>
      obtain ⟨u, ws, rfl⟩ := List.exists_cons_of_ne_nil hws
      obtain ⟨hu, hrest⟩ := List.forall_mem_cons.mp htokens
      cases ws with
      | nil =>
          have hlongest : IsLongest T (u ++ []) u := by
            rw [List.append_nil]
            exact ⟨hu, List.prefix_rfl, fun v _ hv => hv.length_le⟩
          exact ⟨[u], List.cons_ne_nil _ _, .cons hlongest .nil⟩
      | cons v ws =>
          have hlen : (v :: ws).length = n := Nat.succ.inj hn
          obtain ⟨hv, hws⟩ := List.forall_mem_cons.mp hrest
          rcases happend u v hu hv with hmerged | hapart
          · have hmunch := @ih ((u ++ v) :: ws) (List.cons_ne_nil _ _)
              (List.forall_mem_cons.mpr ⟨hmerged, hws⟩) hlen
            rwa [List.flatten_cons, List.append_assoc] at hmunch
          · obtain ⟨ws', -, hmunch⟩ := @ih (v :: ws) (List.cons_ne_nil _ _) hrest hlen
            exact ⟨u :: ws', List.cons_ne_nil _ _, .cons (hapart ws.flatten) hmunch⟩

/-! ## Tables of prefixes -/

/-- In a table where no entry hides a longer one behind it, the first entry that a text begins with
is the longest one. -/
lemma find?_isPrefixOf_eq_some_iff [BEq α] [LawfulBEq α] {κ : Type*} {table : List κ}
    {start : κ → List α} (hordered : table.Pairwise fun a b => ¬ start a <+: start b)
    {s : List α} {a : κ} :
    table.find? (fun k => (start k).isPrefixOf s) = some a ↔
      a ∈ table ∧ IsLongest (fun w => ∃ k ∈ table, start k = w) s (start a) := by
  have hlongest : ∀ {b}, table.find? (fun k => (start k).isPrefixOf s) = some b →
      IsLongest (fun w => ∃ k ∈ table, start k = w) s (start b) ∧
        ∀ k ∈ table, start k = start b → k = b := by
    intro b hfind
    have hmem := List.mem_of_find?_eq_some hfind
    obtain ⟨hb, before, after, rfl, hbefore⟩ := List.find?_eq_some_iff_append.mp hfind
    rw [List.isPrefixOf_iff_prefix] at hb
    -- an earlier entry is not at the front, and a later one does not begin with this one
    have hearlier : ∀ k ∈ before, ¬ start k <+: s := fun k hk hv => by
      have hno := hbefore k hk
      rw [List.isPrefixOf_iff_prefix.mpr hv] at hno
      cases hno
    have hlater : ∀ k ∈ after, ¬ start b <+: start k :=
      (List.pairwise_cons.mp (List.pairwise_append.mp hordered).2.1).1
    refine ⟨⟨⟨b, hmem, rfl⟩, hb, ?_⟩, fun k hk hstart => ?_⟩
    · rintro v ⟨k, hk, rfl⟩ hv
      rcases List.mem_append.mp hk with hk | hk
      · exact absurd hv (hearlier k hk)
      rcases List.mem_cons.mp hk with rfl | hk
      · exact le_rfl
      by_contra hlt
      exact hlater k hk (List.prefix_of_prefix_length_le hb hv (by omega))
    · rcases List.mem_append.mp hk with hk | hk
      · exact absurd (hstart ▸ hb) (hearlier k hk)
      rcases List.mem_cons.mp hk with rfl | hk
      · rfl
      exact absurd (hstart ▸ List.prefix_refl _) (hlater k hk)
  constructor
  · intro hfind
    exact ⟨List.mem_of_find?_eq_some hfind, (hlongest hfind).1⟩
  · rintro ⟨hmem, ha⟩
    have hsome : (table.find? fun k => (start k).isPrefixOf s).isSome := by
      rw [List.find?_isSome]
      exact ⟨a, hmem, List.isPrefixOf_iff_prefix.mpr ha.front⟩
    obtain ⟨b, hfind⟩ := Option.isSome_iff_exists.mp hsome
    obtain ⟨hlong, honly⟩ := hlongest hfind
    rw [hfind, honly a hmem (ha.unique hlong)]

end EpollChat

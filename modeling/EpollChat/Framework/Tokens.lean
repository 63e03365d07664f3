import Mathlib.Data.List.DropRight
import Mathlib.Data.List.TakeWhile
import Mathlib.Tactic.Lemma

/-!
# Tokens between separators

The tokens of a text are its non-empty stretches between separators.  A scanner takes them off
the front one by one: it skips separators and takes what follows up to the next one
(`nextToken`).  The two agree (`tokens_eq_cons`), and a token taken shortens what is left, so that
a loop over a scanner can be reasoned about as a recursion over `tokens`.
-/

namespace EpollChat

section Stretch

variable {α : Type} {p : α → Bool} {l rest : List α}

/-- A stretch that satisfies `p`, up to where `p` fails first. -/
lemma takeWhile_append_stop (hl : ∀ a ∈ l, p a = true) (hrest : ∀ a ∈ rest.head?, p a = false) :
    (l ++ rest).takeWhile p = l := by
  rw [List.takeWhile_append_of_pos hl]
  cases rest with
  | nil => rw [List.takeWhile_nil, List.append_nil]
  | cons a rest => rw [List.takeWhile_cons_of_neg (by simp [hrest a rfl]), List.append_nil]

/-- What comes after the stretch. -/
lemma dropWhile_append_stop (hl : ∀ a ∈ l, p a = true) (hrest : ∀ a ∈ rest.head?, p a = false) :
    (l ++ rest).dropWhile p = rest := by
  rw [List.dropWhile_append_of_pos hl]
  cases rest with
  | nil => rfl
  | cons a rest => exact List.dropWhile_cons_of_neg (by simp [hrest a rfl])

/-- What is left after dropping does not begin with something droppable. -/
lemma head?_dropWhile_stop (p : α → Bool) (l : List α) :
    ∀ a ∈ (l.dropWhile p).head?, p a = false := by
  intro a ha
  have := List.head?_dropWhile_not p l
  rw [Option.mem_def.1 ha] at this
  simpa using this

end Stretch

section Tokens

variable {α : Type} (sep : α → Bool)

/-- The tokens of a text. -/
def tokens (l : List α) : List (List α) := (l.splitOnP sep).filter fun w => !w.isEmpty

/-- The first token of a text, empty if there is none, and the text after it. -/
def nextToken (l : List α) : List α × List α :=
  let rest := l.dropWhile sep
  (rest.takeWhile fun a => !sep a, rest.dropWhile fun a => !sep a)

variable {sep}

@[simp] lemma tokens_nil : tokens sep [] = [] := by
  simp [tokens]

lemma tokens_cons_of_sep {a : α} (h : sep a = true) (l : List α) :
    tokens sep (a :: l) = tokens sep l := by
  simp [tokens, List.splitOnP_cons_eq_if_modifyHead, h]

/-- Separators in front do not matter. -/
lemma tokens_dropWhile (l : List α) : tokens sep (l.dropWhile sep) = tokens sep l := by
  induction l with
  | nil => rfl
  | cons a l ih =>
      by_cases h : sep a = true
      · rw [List.dropWhile_cons_of_pos h, ih, tokens_cons_of_sep h]
      · rw [List.dropWhile_cons_of_neg h]

lemma nextToken_dropWhile (l : List α) : nextToken sep (l.dropWhile sep) = nextToken sep l := by
  rw [nextToken, nextToken, List.dropWhile_idempotent]

/-- A stretch without separators, followed by nothing or by a separator, is the first token. -/
lemma tokens_append {w : List α} (hne : w ≠ []) (hw : ∀ a ∈ w, sep a = false) {rest : List α}
    (hrest : ∀ a ∈ rest.head?, sep a = true) : tokens sep (w ++ rest) = w :: tokens sep rest := by
  cases rest with
  | nil =>
      rw [List.append_nil, tokens, List.splitOnP_eq_singleton hw, tokens_nil]
      simp [hne]
  | cons a rest =>
      have ha : sep a = true := hrest a rfl
      rw [tokens, List.splitOnP_append_cons_of_forall_mem hw a ha rest, tokens_cons_of_sep ha]
      simp [hne, tokens]

lemma nextToken_append (l : List α) :
    (nextToken sep l).1 ++ (nextToken sep l).2 = l.dropWhile sep :=
  List.takeWhile_append_dropWhile

/-- A stretch without separators, followed by nothing or by a separator, is what is taken. -/
lemma nextToken_eq {w : List α} (hne : w ≠ []) (hw : ∀ a ∈ w, sep a = false) {rest : List α}
    (hrest : ∀ a ∈ rest.head?, sep a = true) : nextToken sep (w ++ rest) = (w, rest) := by
  have hdrop : (w ++ rest).dropWhile sep = w ++ rest := by
    obtain ⟨a, w, rfl⟩ := List.exists_cons_of_ne_nil hne
    exact List.dropWhile_cons_of_neg (by simp [hw a])
  have hkept : ∀ a ∈ w, (!sep a) = true := fun a ha => by simp [hw a ha]
  have hstop : ∀ a ∈ rest.head?, (!sep a) = false := fun a ha => by simp [hrest a ha]
  rw [nextToken, hdrop, takeWhile_append_stop hkept hstop, dropWhile_append_stop hkept hstop]

/-- Without a first token the text is read to its end. -/
lemma nextToken_snd_eq_nil {l : List α} (h : (nextToken sep l).1 = []) :
    (nextToken sep l).2 = [] := by
  cases hl : l.dropWhile sep with
  | nil => simp [nextToken, hl]
  | cons a rest =>
      have ha : sep a = false := by
        have := List.head?_dropWhile_not sep l
        simpa [hl] using this
      simp [nextToken, hl, ha] at h

/-- Without a first token there are no tokens. -/
lemma tokens_eq_nil {l : List α} (h : (nextToken sep l).1 = []) : tokens sep l = [] := by
  rw [← tokens_dropWhile, ← nextToken_append, h, nextToken_snd_eq_nil h, List.append_nil,
    tokens_nil]

/-- The first token, and the tokens of the text after it. -/
lemma tokens_eq_cons {l : List α} (h : (nextToken sep l).1 ≠ []) :
    tokens sep l = (nextToken sep l).1 :: tokens sep (nextToken sep l).2 := by
  rw [← tokens_dropWhile, ← nextToken_append l]
  apply tokens_append h
  · intro a ha
    have := List.mem_takeWhile_imp ha
    simpa using this
  · intro a ha
    have := head?_dropWhile_stop (fun a => !sep a) (l.dropWhile sep) a ha
    simpa using this

/-- Taking a token shortens the text. -/
lemma length_nextToken_lt {l : List α} (h : (nextToken sep l).1 ≠ []) :
    (nextToken sep l).2.length < l.length := by
  have hpos := List.length_pos_of_ne_nil h
  have hsum := congrArg List.length (@nextToken_append _ sep l)
  have hle := List.length_dropWhile_le sep l
  rw [List.length_append] at hsum
  omega

/-- A token is a stretch of the text without separators. -/
lemma nextToken_not_sep {l : List α} : ∀ a ∈ (nextToken sep l).1, sep a = false := by
  intro a ha
  have := List.mem_takeWhile_imp ha
  simpa using this

end Tokens

end EpollChat

import Mathlib.Data.List.Infix
import Mathlib.Tactic.Common

/-!
# Incremental decoding of a stream of frames

A decoder looks at the front of a byte stream and answers with a message and the number of
bytes it occupies, or with `none` when it has not seen enough.  A *frame* is a nonempty byte
string that the decoder takes whole.  `Incremental` is the contract that makes such a stream
readable piece by piece: what follows a frame does not matter, and a proper prefix of a frame is
always too little.

Under the contract a stream has at most one reading as frames followed by an incomplete tail
(`Incremental.unique`), and a partial reading of a prefix of the stream extends to the reading
of the whole (`Incremental.split`).  These two facts are what a receiver that consumes frames as
they become complete has to be checked against.
-/

namespace EpollChat

/-- A decoder: the message at the front of a byte string, and the number of bytes it takes. -/
abbrev Decoder (B M : Type) := List B → Option (M × ℕ)

section Framing

variable {B M : Type} (dec : Decoder B M)

/-- A frame: a nonempty byte string that the decoder takes whole. -/
def WholeFrame (f : List B) : Prop := f ≠ [] ∧ ∃ m, dec f = some (m, f.length)

/-- A proper prefix of a frame. -/
def Incomplete (t : List B) : Prop := ∃ f, WholeFrame dec f ∧ t <+: f ∧ t ≠ f

/-- No frame is complete at the front. -/
def Stalled (t : List B) : Prop := ∀ f, WholeFrame dec f → ¬ f <+: t

/-- **The contract of a decoder.** -/
structure Incremental : Prop where
  /-- What follows a frame does not matter. -/
  append : ∀ f, WholeFrame dec f → ∀ rest, dec (f ++ rest) = dec f
  /-- A proper prefix of a frame is too little. -/
  incomplete : ∀ t, Incomplete dec t → dec t = none

variable {dec}

/-- A decoder whose answer survives more input, and that never reads more than it is given,
meets the contract. -/
lemma Incremental.of_stable
    (h : ∀ s m n, dec s = some (m, n) → n ≤ s.length ∧ ∀ rest, dec (s ++ rest) = some (m, n)) :
    Incremental dec where
  append f hf rest := by
    obtain ⟨m, hm⟩ := hf.2
    rw [(h f m f.length hm).2, hm]
  incomplete t ht := by
    obtain ⟨f, ⟨-, m, hm⟩, ⟨rest, rfl⟩, hne⟩ := ht
    cases hdec : dec t with
    | none => rfl
    | some p =>
        obtain ⟨hlen, hstable⟩ := h t p.1 p.2 hdec
        rw [hstable rest, Option.some.injEq] at hm
        obtain rfl : rest = [] := by
          have hcount : p.2 = (t ++ rest).length := congrArg Prod.snd hm
          rw [List.length_append] at hcount
          exact List.length_eq_zero_iff.mp (by omega)
        exact absurd (List.append_nil t).symm hne

lemma WholeFrame.incomplete_nil {f : List B} (hf : WholeFrame dec f) : Incomplete dec [] :=
  ⟨f, hf, List.nil_prefix, Ne.symm hf.1⟩

lemma stalled_nil : Stalled dec [] := fun _ hf hpre => hf.1 (List.prefix_nil.mp hpre)

/-- The front of a stream of frames holds its first frame whole, or is a proper prefix of a
frame. -/
lemma stream_front {fs : List (List B)} {t s : List B} (hfs : ∀ f ∈ fs, WholeFrame dec f)
    (ht : Incomplete dec t) (h : s <+: fs.flatten ++ t) :
    Incomplete dec s ∨ ∃ f fs', fs = f :: fs' ∧ f <+: s := by
  cases fs with
  | nil =>
      obtain ⟨g, hg, hpre, hne⟩ := ht
      have hst : s <+: t := by simpa using h
      refine .inl ⟨g, hg, hst.trans hpre, ?_⟩
      rintro rfl
      have hlen := hst.length_le
      exact hne (hpre.eq_of_length (Nat.le_antisymm hpre.length_le hlen))
  | cons f fs =>
      have hf : f <+: (f :: fs).flatten ++ t := ⟨fs.flatten ++ t, by simp⟩
      by_cases hle : f.length ≤ s.length
      · exact .inr ⟨f, fs, rfl, List.prefix_of_prefix_length_le hf h hle⟩
      · refine .inl ⟨f, hfs f List.mem_cons_self,
          List.prefix_of_prefix_length_le h hf (by omega), ?_⟩
        rintro rfl
        exact hle le_rfl

namespace Incremental

variable (hd : Incremental dec)
include hd

/-- A frame at the front is decoded as on its own. -/
lemma dec_of_prefix {f s : List B} (hf : WholeFrame dec f) (h : f <+: s) : dec s = dec f := by
  obtain ⟨rest, rfl⟩ := h
  exact hd.append f hf rest

/-- Where the decoder gives up, no frame is complete. -/
lemma stalled_of_none {t : List B} (h : dec t = none) : Stalled dec t := by
  intro f hf hpre
  obtain ⟨m, hm⟩ := hf.2
  rw [hd.dec_of_prefix hf hpre, hm] at h
  cases h

lemma stalled {t : List B} (h : Incomplete dec t) : Stalled dec t :=
  hd.stalled_of_none (hd.incomplete t h)

/-- Two frames at the front of one stream are the same. -/
lemma frame_unique {f g s : List B} (hf : WholeFrame dec f) (hg : WholeFrame dec g) (hfs : f <+: s)
    (hgs : g <+: s) : f = g := by
  obtain ⟨m, hm⟩ := hf.2
  obtain ⟨m', hm'⟩ := hg.2
  have hlen : f.length = g.length := by
    have h := (hd.dec_of_prefix hf hfs).symm.trans (hd.dec_of_prefix hg hgs)
    rw [hm, hm'] at h
    injection h with h
    injection h
  exact (List.prefix_of_prefix_length_le hfs hgs hlen.le).eq_of_length hlen

/-- Frames read off the front of a stream of frames are its first frames. -/
lemma split {gs fs : List (List B)} {t s : List B} (hgs : ∀ g ∈ gs, WholeFrame dec g)
    (hfs : ∀ f ∈ fs, WholeFrame dec f) (ht : Incomplete dec t)
    (h : gs.flatten ++ s <+: fs.flatten ++ t) :
    ∃ rest, fs = gs ++ rest ∧ s <+: rest.flatten ++ t := by
  induction gs generalizing fs with
  | nil => exact ⟨fs, rfl, h⟩
  | cons g gs ih =>
      have hg := hgs g List.mem_cons_self
      have hpre : g <+: fs.flatten ++ t :=
        List.IsPrefix.trans ⟨gs.flatten ++ s, by simp⟩ h
      rcases stream_front hfs ht hpre with hinc | ⟨f, fs', rfl, hf⟩
      · exact absurd (List.prefix_refl g) (hd.stalled hinc g hg)
      · obtain rfl : f = g :=
          hd.frame_unique (hfs f List.mem_cons_self) hg hf (List.prefix_refl g)
        have h' : gs.flatten ++ s <+: fs'.flatten ++ t := by
          simpa [List.append_assoc, List.prefix_append_right_inj] using h
        obtain ⟨rest, rfl, hrest⟩ :=
          ih (fun g hg => hgs g (List.mem_cons_of_mem _ hg))
            (fun f hf => hfs f (List.mem_cons_of_mem _ hf)) h'
        exact ⟨rest, rfl, hrest⟩

/-- **A stream has one reading** as frames followed by a tail in which no frame is complete. -/
lemma unique {gs fs : List (List B)} {t s : List B} (hgs : ∀ g ∈ gs, WholeFrame dec g)
    (hfs : ∀ f ∈ fs, WholeFrame dec f) (ht : Incomplete dec t) (hs : Stalled dec s)
    (h : gs.flatten ++ s = fs.flatten ++ t) : gs = fs ∧ s = t := by
  obtain ⟨rest, rfl, -⟩ := hd.split (s := s) hgs hfs ht ⟨[], by rw [List.append_nil, h]⟩
  have hrest : s = rest.flatten ++ t := by simpa using h
  cases rest with
  | nil => exact ⟨by simp, by simpa using hrest⟩
  | cons f rest =>
      refine absurd ?_ (hs f (hfs f (by simp)))
      exact ⟨rest.flatten ++ t, by rw [hrest]; simp⟩

end Incremental

end Framing

end EpollChat

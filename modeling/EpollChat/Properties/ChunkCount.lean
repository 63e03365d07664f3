import EpollChat.Construction.Storage
import Mathlib.Data.List.Nodup
import Mathlib.Order.Bounds.Basic

/-!
# The number of chunks of a registered file

`cmd_regfile_impl` reads the chunk size with `strtol`, divides, corrects the quotient, splits the
file in a loop up to the quotient, and sends it as a `uint32_t`.  `CountOk` says that these agree:
the size is positive, the count is the least that covers the file, so many files are written, and
so many chunks are announced.

Only a zero and a number out of range are replaced by the default size.  So a negative size goes
through, and then the count is negative, or covers nothing; and nothing bounds the count where it
is sent (`countOk_iff`).
-/

namespace EpollChat

open Chunks Paths SignedInt

/-- **The counts of a registration agree.** -/
structure CountOk (malloc : ℕ → Bool) (datapath : Bytes) (r : Registration) : Prop where
  /-- The chunk size is positive. -/
  positive : 0 < r.chunksize
  /-- The count is the least whose chunks have room for the file. -/
  least : IsLeast {n : ℤ | (r.content.length : ℤ) ≤ n * r.chunksize} r.nchunks
  /-- The splitting loop writes so many files, all different ones. -/
  written : ((r.writes malloc datapath).length : ℤ) = r.nchunks ∧
    ((r.writes malloc datapath).map Prod.fst).Nodup
  /-- The server is told the count. -/
  sent : (r.request.chunks.toNat : ℤ) = r.nchunks

variable {malloc : ℕ → Bool}

/-! ## The files of the loop -/

lemma chunkPath_injective (datapath filename : Bytes) :
    Function.Injective (chunkPath datapath filename) := by
  intro m n h
  rw [chunkPath, chunkPath, List.append_cancel_left_eq, List.cons.injEq] at h
  exact decimal_injective h.2

lemma length_chunks (malloc : ℕ → Bool) (r : Registration) :
    (r.chunks malloc).length = r.nchunks.toNat := by
  rw [Registration.chunks, List.length_map, length_chop]

/-- The loop writes the files of the numbers from 0 on. -/
lemma paths_writes (r : Registration) (datapath : Bytes) :
    (r.writes malloc datapath).map Prod.fst =
      (List.range r.nchunks.toNat).map (chunkPath datapath r.filename) := by
  have hlen := length_chunks malloc r
  rw [Registration.writes, List.map_map, ← hlen, List.range_eq_range', ← List.zipIdx_map_snd,
    List.map_map]
  rfl

lemma length_writes (r : Registration) (datapath : Bytes) :
    (r.writes malloc datapath).length = r.nchunks.toNat := by
  rw [Registration.writes, List.length_map, List.length_zipIdx, length_chunks]

lemma nodup_writes (r : Registration) (datapath : Bytes) :
    ((r.writes malloc datapath).map Prod.fst).Nodup := by
  rw [paths_writes]
  exact List.Nodup.map (chunkPath_injective datapath r.filename) List.nodup_range

/-! ## The division -/

/-- For a positive size the corrected quotient is the least count that covers the bytes. -/
lemma isLeast_chunkCount {bytes chunksize : ℤ} (hbytes : 0 ≤ bytes) (hsize : 0 < chunksize) :
    IsLeast {n : ℤ | bytes ≤ n * chunksize} (chunkCount bytes chunksize) := by
  have hle : bytes / chunksize * chunksize ≤ bytes := Int.ediv_mul_le bytes hsize.ne'
  have hlt : bytes < (bytes / chunksize + 1) * chunksize :=
    Int.lt_ediv_add_one_mul_self bytes hsize
  rw [chunkCount, Int.tdiv_eq_ediv_of_nonneg hbytes]
  generalize bytes / chunksize = q at hle hlt
  split
  · next hmore =>
      refine ⟨hlt.le, fun m hm => ?_⟩
      by_contra hless
      have hmul : m * chunksize ≤ q * chunksize :=
        Int.mul_le_mul_of_nonneg_right (by omega) hsize.le
      exact absurd (hm.trans hmul) (by omega)
  · next hexact =>
      refine ⟨not_lt.1 hexact, fun m hm => ?_⟩
      by_contra hless
      have hmul : m * chunksize ≤ (q - 1) * chunksize :=
        Int.mul_le_mul_of_nonneg_right (by omega) hsize.le
      rw [Int.sub_mul, Int.one_mul] at hmul
      exact absurd (hm.trans hmul) (by omega)

/-- The server is told the count as a `uint32_t`. -/
lemma toNat_request (r : Registration) : (r.request.chunks.toNat : ℤ) = r.nchunks % 2 ^ 32 := by
  have hmod := Int.emod_nonneg r.nchunks (by decide : (2 ^ 32 : ℤ) ≠ 0)
  have hlt := Int.emod_lt_of_pos r.nchunks (by decide : (0 : ℤ) < 2 ^ 32)
  rw [Registration.request, UInt32.ofInt, UInt32.toNat_ofNat', Nat.mod_eq_of_lt (by omega),
    Int.toNat_of_nonneg hmod]

/-- With a positive size, everything agrees if the count fits a `uint32_t`. -/
lemma countOk_iff_of_pos {r : Registration} (hsize : 0 < r.chunksize)
    (hcount : r.nchunks = chunkCount r.content.length r.chunksize) (datapath : Bytes) :
    CountOk malloc datapath r ↔ (r.content.length : ℤ) ≤ (2 ^ 32 - 1) * r.chunksize := by
  have hleast : IsLeast {n : ℤ | (r.content.length : ℤ) ≤ n * r.chunksize} r.nchunks :=
    hcount ▸ isLeast_chunkCount (Int.natCast_nonneg _) hsize
  have hpos : 0 ≤ r.nchunks := by
    by_contra hneg
    have hmul := Int.mul_neg_of_neg_of_pos (not_le.1 hneg) hsize
    have hroom : (r.content.length : ℤ) ≤ r.nchunks * r.chunksize := hleast.1
    omega
  constructor
  · intro h
    have hlt : r.nchunks < 2 ^ 32 := by
      rw [← h.sent, toNat_request]
      exact Int.emod_lt_of_pos _ (by decide)
    have hroom : (r.content.length : ℤ) ≤ r.nchunks * r.chunksize := hleast.1
    exact hroom.trans (Int.mul_le_mul_of_nonneg_right (by omega) hsize.le)
  · intro h
    have hmax : r.nchunks ≤ 2 ^ 32 - 1 := hleast.2 h
    refine ⟨hsize, hleast, ⟨?_, nodup_writes r datapath⟩, ?_⟩
    · rw [length_writes, Int.toNat_of_nonneg hpos]
    · rw [toNat_request, Int.emod_eq_of_lt hpos (by omega)]

/-! ## What is typed -/

/-- The size is the number that was typed, unless this is 0 or out of the range of a `long`. -/
lemma chunkSize_eq (inbuffer : Bytes) :
    chunkSize inbuffer =
      if Fits 64 (numeral (cstr inbuffer)) ∧ numeral (cstr inbuffer) ≠ 0 then
        numeral (cstr inbuffer)
      else 1024 := by
  by_cases hfits : Fits 64 (numeral (cstr inbuffer))
  · have hstrtol : strtol (cstr inbuffer) = (numeral (cstr inbuffer), false) := if_pos hfits
    rw [chunkSize, hstrtol]
    by_cases hzero : numeral (cstr inbuffer) = 0
    · simp [hzero]
    · simp [hzero, hfits]
  · have hstrtol : (strtol (cstr inbuffer)).2 = true := by rw [strtol, if_neg hfits]
    simp [chunkSize, hstrtol, hfits]

/-- **The counts of a registration agree exactly if the size that was typed is not negative and
the file has at most `2 ^ 32 - 1` chunks**: of the typed size, or of the default one where the
number is 0 or no `long`. -/
theorem countOk_iff (malloc : ℕ → Bool) (datapath filename content inbuffer : Bytes) :
    CountOk malloc datapath (fileRegistration filename content inbuffer) ↔
      let n := numeral (cstr inbuffer)
      (0 < n ∧ n < 2 ^ 63 ∧ (content.length : ℤ) ≤ (2 ^ 32 - 1) * n) ∨
        ((n = 0 ∨ n < -2 ^ 63 ∨ 2 ^ 63 ≤ n) ∧ (content.length : ℤ) ≤ (2 ^ 32 - 1) * 1024) := by
  have hiff := fun hpos =>
    @countOk_iff_of_pos malloc (fileRegistration filename content inbuffer) hpos rfl datapath
  have hpositive : CountOk malloc datapath (fileRegistration filename content inbuffer) →
      0 < chunkSize inbuffer := CountOk.positive
  have hsize := chunkSize_eq inbuffer
  simp only [fileRegistration] at hiff hpositive ⊢
  generalize numeral (cstr inbuffer) = n at hsize ⊢
  have hrange : Fits 64 n ↔ -2 ^ 63 ≤ n ∧ n < 2 ^ 63 := Iff.rfl
  by_cases htyped : Fits 64 n ∧ n ≠ 0
  · -- the number is the size
    rw [if_pos htyped] at hsize
    rw [hsize] at hiff hpositive ⊢
    rw [hrange] at htyped
    constructor
    · intro h
      have hpos := hpositive h
      exact .inl ⟨hpos, htyped.1.2, (hiff hpos).1 h⟩
    · rintro (⟨hpos, -, hfew⟩ | ⟨hout, -⟩)
      · exact (hiff hpos).2 hfew
      · omega
  · -- the default is the size
    rw [if_neg htyped] at hsize
    rw [hsize] at hiff ⊢
    rw [hrange] at htyped
    rw [hiff (by decide)]
    constructor
    · intro hfew
      exact .inr ⟨by omega, hfew⟩
    · rintro (⟨hpos, hmax, -⟩ | ⟨-, hfew⟩)
      · omega
      · exact hfew

/-- The chunk size -1 is typed for a file of five bytes: the count is -5, and 4294967291 chunks are
announced. -/
theorem not_countOk_negative :
    ¬ ∀ (malloc : ℕ → Bool) (datapath filename content inbuffer : Bytes), content ≠ [] →
      CountOk malloc datapath (fileRegistration filename content inbuffer) := by
  intro h
  have hok := h (fun _ => true) (text "clientdata.1.2") (text "a") (text "hello") (text "-1\n")
    (by decide)
  exact absurd hok.positive (by decide)

/-! ## What the questions lead to -/

/-- A registration is of a regular file that is not empty, under the last name of its path. -/
lemma chooseFile_eq_some {d : Disk} {stdin stdin' : List Bytes} {filename content : Bytes}
    (h : chooseFile d stdin = some ((filename, content), stdin')) :
    content ≠ [] ∧ ∃ line ∈ stdin, d.stat (cstr line).dropLast = some (.file content) ∧
      filename = (cstr line).dropLast.rtakeWhile (· ≠ slash) := by
  induction stdin with
  | nil => cases h
  | cons line stdin ih =>
      have hlater : chooseFile d stdin = some ((filename, content), stdin') →
          content ≠ [] ∧ ∃ found ∈ line :: stdin,
            d.stat (cstr found).dropLast = some (.file content) ∧
              filename = (cstr found).dropLast.rtakeWhile (· ≠ slash) := by
        intro hstdin
        obtain ⟨hcontent, found, hfound, hspec⟩ := ih hstdin
        exact ⟨hcontent, found, List.mem_cons_of_mem line hfound, hspec⟩
      rw [chooseFile] at h
      split at h
      · cases h
      · dsimp only at h
        split at h
        · exact hlater h
        · exact hlater h
        · next hstat =>
            split at h
            · exact hlater h
            · next hcontent =>
                cases h
                exact ⟨hcontent, line, List.mem_cons_self, hstat, rfl⟩

lemma mem_of_confirm {stdin rest : List Bytes} {answer : Bool}
    (h : confirm stdin = some (answer, rest)) : ∀ line ∈ rest, line ∈ stdin := by
  induction stdin with
  | nil => cases h
  | cons inbuffer stdin ih =>
      rw [confirm] at h
      intro line hline
      apply List.mem_cons_of_mem
      split at h
      · cases h
        exact hline
      · split at h
        · cases h
          exact hline
        · exact ih h line hline

/-- What is registered is what was chosen and typed. -/
lemma chooseRegistration_eq_some {d : Disk} {stdin : List Bytes} {r : Registration}
    (h : chooseRegistration d stdin = some (some r)) :
    ∃ filename content inbuffer lines rest, (∀ line ∈ lines, line ∈ stdin) ∧
      chooseFile d lines = some ((filename, content), rest) ∧
        r = fileRegistration filename content inbuffer := by
  unfold chooseRegistration at h
  obtain ⟨⟨sure, lines⟩, hsure, h⟩ := Option.bind_eq_some_iff.1 h
  cases sure with
  | false => cases h
  | true =>
      obtain ⟨⟨⟨filename, content⟩, rest⟩, hchoose, h⟩ := Option.bind_eq_some_iff.1 h
      cases rest with
      | nil => cases h
      | cons inbuffer stdin =>
          obtain ⟨⟨confirmed, _⟩, hconfirm, hanswer⟩ := Option.bind_eq_some_iff.1 h
          cases confirmed with
          | false => cases hanswer
          | true =>
              obtain rfl := Option.some.inj (Option.some.inj hanswer)
              exact ⟨filename, content, inbuffer, lines, _, mem_of_confirm hsure, hchoose, rfl⟩

end EpollChat

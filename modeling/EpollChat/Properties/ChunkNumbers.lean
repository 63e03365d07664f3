import EpollChat.Construction.ChunkNumbers

/-!
# Chunk numbers on the wire

The numbers of a chunk list are packed by the client and read back by the server.  What is stored
for a number is its `long` cut to 32 bits, and `strtol`'s range error is not looked at.  A number
from 0 to `2 ^ 32 - 1` is therefore read back as it is, and any other is read back as the number
of another chunk (`chunksSurvive_iff`).
-/

namespace EpollChat

open SignedInt

/-- **The chunk numbers of a string survive the wire.** -/
structure ChunksSurvive (str : Bytes) : Prop where
  /-- What is accepted is a sequence of numerals. -/
  numerals : (packRepeatedUint32FromStr str).1 ≠ 0 → ∃ ns, Numerals (cstr str) ns
  /-- The server reads the integers that the numerals denote. -/
  kept : (packRepeatedUint32FromStr str).1 ≠ 0 → ∀ ns, Numerals (cstr str) ns →
    (parsePackedUint32 (packRepeatedUint32FromStr str).2).map (fun v => (v.toNat : ℤ)) = ns
  /-- A numeral that is no `uint32_t` makes the whole string rejected. -/
  rejected : ∀ ns, Numerals (cstr str) ns → (∃ n ∈ ns, n < 0 ∨ 2 ^ 32 ≤ n) →
    (packRepeatedUint32FromStr str).1 = 0

/-- A number that a `uint32_t` holds is stored as it is. -/
lemma toNat_storedVal {n : ℤ} (h : 0 ≤ n ∧ n < 2 ^ 32) : ((storedVal n).toNat : ℤ) = n := by
  have hfits : Fits 64 n := by
    unfold Fits
    omega
  rw [storedVal, longOf, if_pos hfits, UInt32.ofInt, UInt32.toNat_ofNat']
  omega

/-- A sequence of numerals is accepted. -/
lemma packRepeatedUint32FromStr_of_numerals {str : Bytes} {ns : List ℤ}
    (h : Numerals (cstr str) ns) :
    packRepeatedUint32FromStr str = (ns.length, (ns.map storedVal).flatMap littleEndian) := by
  simp only [packRepeatedUint32FromStr, scanVals_of_numerals h, if_true, List.length_map]

/-- What is accepted is a sequence of numerals. -/
lemma numerals_of_accepted {str : Bytes} (haccepted : (packRepeatedUint32FromStr str).1 ≠ 0) :
    ∃ ns, Numerals (cstr str) ns := by
  apply numerals_of_scanVals
  by_contra hrejected
  apply haccepted
  simp only [packRepeatedUint32FromStr, if_neg hrejected]

lemma Numerals.length_ne_zero {s : Bytes} {ns : List ℤ} (h : Numerals s ns) : ns.length ≠ 0 := by
  cases h <;> simp

/-- **Requested chunk numbers.** They survive the wire exactly when every numeral of the string
denotes a `uint32_t`. -/
theorem chunksSurvive_iff (str : Bytes) :
    ChunksSurvive str ↔ ∀ ns, Numerals (cstr str) ns → ∀ n ∈ ns, 0 ≤ n ∧ n < 2 ^ 32 := by
  constructor
  · intro hsurvive ns hns n hn
    by_contra hout
    have hzero := hsurvive.rejected ns hns ⟨n, hn, by omega⟩
    rw [packRepeatedUint32FromStr_of_numerals hns] at hzero
    exact hns.length_ne_zero hzero
  · intro hrange
    refine ⟨numerals_of_accepted, fun _ ns hns => ?_, fun ns hns => ?_⟩
    · rw [packRepeatedUint32FromStr_of_numerals hns, parsePackedUint32_flatMap, List.map_map]
      have hid : ∀ n ∈ ns, ((fun v : UInt32 => (v.toNat : ℤ)) ∘ storedVal) n = id n :=
        fun n hn => toNat_storedVal (hrange ns hns n hn)
      rw [List.map_congr_left hid, List.map_id]
    · rintro ⟨n, hn, hout⟩
      have := hrange ns hns n hn
      omega

/-- The chunk number `2 ^ 32 + 1` is accepted, and sent as the number 1. -/
theorem not_chunksSurvive_large : ¬ ∀ str : Bytes, ChunksSurvive str := by
  intro h
  have hnumerals : Numerals (cstr (text "4294967297")) [4294967297] :=
    .last ⟨[], [], 1, text "4294967297", by decide, by simp, .none, by decide,
      List.all_eq_true.1 (by decide), by decide⟩
  have hzero := (h (text "4294967297")).rejected _ hnumerals ⟨4294967297, by simp, by simp⟩
  rw [packRepeatedUint32FromStr_of_numerals hnumerals] at hzero
  cases hzero

end EpollChat

import EpollChat.Construction.Storage
import EpollChat.Framework.Tokens

/-!
# Chunk numbers (`pack_repeated_uint32_from_str` of `lib/socket.c`)

The chunk numbers of a command are read with `strtol`, one after the other from where the last
call stopped, until one stops at the end of the string.  A call that does not move means that the
string is no sequence of numbers, and then all of it is rejected.

`strtol` returns a `long`, and what is stored is a `uint32_t`.
-/

namespace EpollChat

open SignedInt

/-! ## `strtol` and where it stops -/

/-- A sign at the front, as a factor, and the string after it. -/
def splitSign : Bytes → ℤ × Bytes
  | 45 :: s => (-1, s)
  | 43 :: s => (1, s)
  | s => (1, s)

/-- `*endptr` of `strtol`: the string after the digits, and the string itself where there are
none. -/
def strtolEnd (s : Bytes) : Bytes :=
  let (_, digits) := splitSign (s.dropWhile isSpace)
  if digits.takeWhile isDigit = [] then s else digits.dropWhile isDigit

/-- The `long` nearest to a number. -/
def longOf (n : ℤ) : ℤ := if Fits 64 n then n else if n < 0 then -2 ^ 63 else 2 ^ 63 - 1

lemma strtol_fst (s : Bytes) : (strtol s).1 = longOf (numeral s) := by
  simp only [strtol, longOf, apply_ite Prod.fst]

lemma numeral_eq (s : Bytes) :
    numeral s = (splitSign (s.dropWhile isSpace)).1 *
      digitsValue ((splitSign (s.dropWhile isSpace)).2.takeWhile isDigit) := by
  rw [numeral]
  generalize s.dropWhile isSpace = t
  split
  · rw [splitSign, neg_one_mul]
  · rw [splitSign, one_mul]
  · next h45 h43 => rw [splitSign.eq_3 t h45 h43, one_mul]

/-! ## Numerals -/

/-- An optional sign, and the factor it stands for. -/
inductive IsSign : Bytes → ℤ → Prop
  | none : IsSign [] 1
  | plus : IsSign [43] 1
  | minus : IsSign [45] (-1)

/-- A token of `strtol` and the integer it denotes: white space, an optional sign, digits. -/
def IsNumeral (w : Bytes) (n : ℤ) : Prop :=
  ∃ space sign factor digits, w = space ++ (sign ++ digits) ∧
    (∀ b ∈ space, isSpace b = true) ∧ IsSign sign factor ∧
    digits ≠ [] ∧ (∀ b ∈ digits, isDigit b = true) ∧ n = factor * digitsValue digits

/-- The string is a sequence of tokens, and these are the integers they denote.  No token could be
longer. -/
inductive Numerals : Bytes → List ℤ → Prop
  | last {w : Bytes} {n : ℤ} (h : IsNumeral w n) : Numerals w [n]
  | cons {w rest : Bytes} {n : ℤ} {ns : List ℤ} (h : IsNumeral w n)
      (hrest : ∀ b ∈ rest.head?, isDigit b = false) (hns : Numerals rest ns) :
      Numerals (w ++ rest) (n :: ns)

lemma isSpace_of_isDigit {b : UInt8} (h : isDigit b = true) : isSpace b = false := by
  simp only [isDigit, isSpace, decide_eq_true_eq, decide_eq_false_iff_not, UInt8.le_iff_toNat_le,
    ← UInt8.toNat_inj] at h ⊢
  simp only [UInt8.reduceToNat] at h ⊢
  omega

lemma splitSign_spec (t : Bytes) : ∃ sign, IsSign sign (splitSign t).1 ∧
    t = sign ++ (splitSign t).2 := by
  unfold splitSign
  split
  · exact ⟨[45], .minus, rfl⟩
  · exact ⟨[43], .plus, rfl⟩
  · exact ⟨[], .none, rfl⟩

/-- Digits do not begin with a sign. -/
lemma splitSign_append {sign : Bytes} {factor : ℤ} (hsign : IsSign sign factor) {b : UInt8}
    (hb : isDigit b = true) (rest : Bytes) :
    splitSign (sign ++ b :: rest) = (factor, b :: rest) := by
  cases hsign with
  | none =>
      rw [List.nil_append]
      unfold splitSign
      split
      · next h =>
          obtain rfl := (List.cons.inj h).1
          cases hb
      · next h =>
          obtain rfl := (List.cons.inj h).1
          cases hb
      · rfl
  | plus => rfl
  | minus => rfl

/-- In front of something that is no digit, `strtol` reads a token whole and stops after it. -/
lemma strtol_of_isNumeral {w : Bytes} {n : ℤ} (h : IsNumeral w n) {rest : Bytes}
    (hrest : ∀ b ∈ rest.head?, isDigit b = false) :
    numeral (w ++ rest) = n ∧ strtolEnd (w ++ rest) = rest := by
  obtain ⟨space, sign, factor, digits, rfl, hspace, hsign, hne, hdigits, rfl⟩ := h
  obtain ⟨b, digits, rfl⟩ := List.exists_cons_of_ne_nil hne
  have hb : isDigit b = true := hdigits b List.mem_cons_self
  have hdrop : (space ++ (sign ++ b :: digits) ++ rest).dropWhile isSpace =
      sign ++ b :: (digits ++ rest) := by
    rw [List.append_assoc, List.append_assoc]
    apply dropWhile_append_stop hspace
    cases hsign with
    | none => simpa using isSpace_of_isDigit hb
    | plus => simpa using (by decide : isSpace 43 = false)
    | minus => simpa using (by decide : isSpace 45 = false)
  have htake : (b :: (digits ++ rest)).takeWhile isDigit = b :: digits :=
    takeWhile_append_stop hdigits hrest
  have hafter : (b :: (digits ++ rest)).dropWhile isDigit = rest :=
    dropWhile_append_stop hdigits hrest
  refine ⟨?_, ?_⟩
  · rw [numeral_eq, hdrop, splitSign_append hsign hb, htake]
  · simp only [strtolEnd, hdrop, splitSign_append hsign hb, htake, hafter, List.cons_ne_nil,
      if_false]

/-- Where `strtol` moves, it has read a token. -/
lemma isNumeral_of_strtolEnd {s : Bytes} (h : strtolEnd s ≠ s) :
    ∃ w, IsNumeral w (numeral s) ∧ s = w ++ strtolEnd s ∧
      ∀ b ∈ (strtolEnd s).head?, isDigit b = false := by
  have hsplit := splitSign_spec (s.dropWhile isSpace)
  obtain ⟨sign, hsign, ht⟩ := hsplit
  by_cases hdigits : (splitSign (s.dropWhile isSpace)).2.takeWhile isDigit = []
  · exact absurd (by simp only [strtolEnd, hdigits, if_pos]) h
  have hend : strtolEnd s = (splitSign (s.dropWhile isSpace)).2.dropWhile isDigit := by
    simp only [strtolEnd, hdigits, if_false]
  rw [hend, numeral_eq]
  refine ⟨s.takeWhile isSpace ++ (sign ++ (splitSign (s.dropWhile isSpace)).2.takeWhile isDigit),
    ⟨_, sign, _, _, rfl, fun b => List.mem_takeWhile_imp, hsign, hdigits,
      fun b => List.mem_takeWhile_imp, rfl⟩, ?_, ?_⟩
  · rw [List.append_assoc, List.append_assoc, List.takeWhile_append_dropWhile, ← ht,
      List.takeWhile_append_dropWhile]
  · exact head?_dropWhile_stop isDigit _

lemma length_strtolEnd_lt {s : Bytes} (h : strtolEnd s ≠ s) : (strtolEnd s).length < s.length := by
  obtain ⟨w, ⟨space, sign, factor, digits, hw, -, -, hne, -⟩, hs, -⟩ := isNumeral_of_strtolEnd h
  have hpos := List.length_pos_of_ne_nil hne
  have hlen := congrArg List.length hs
  simp only [hw, List.length_append] at hlen
  omega

/-! ## The scanning loop -/

/-- The loop of `pack_repeated_uint32_from_str`: what it stores in `vals`, and whether it came to
the end of the string. -/
def scanVals (s : Bytes) : List UInt32 × Bool :=
  let val := UInt32.ofInt (strtol s).1
  let e := strtolEnd s
  if h : e = s then ([val], false)
  else if e = [] then ([val], true)
  else
    have := length_strtolEnd_lt h
    let (vals, ok) := scanVals e
    (val :: vals, ok)
termination_by s.length

/-- The variables of that loop, and whether it has been left and with what result. -/
structure ScanState where
  s : Bytes
  vals : List UInt32
  result : Option Bool

/-- One round of it. -/
def scanRound (t : ScanState) : ScanState :=
  let vals := t.vals ++ [UInt32.ofInt (strtol t.s).1]
  let e := strtolEnd t.s
  if e = t.s then { t with vals, result := some false }
  else if e = [] then { t with vals, result := some true }
  else { t with s := e, vals }

/-- A `uint32_t` as it lies in memory. -/
def littleEndian (v : UInt32) : Bytes :=
  [v.toUInt8, (v >>> 8).toUInt8, (v >>> 16).toUInt8, (v >>> 24).toUInt8]

/-- `pack_repeated_uint32_from_str`: the number of values, and `bytes`. -/
def packRepeatedUint32FromStr (str : Bytes) : ℕ × Bytes :=
  let (vals, ok) := scanVals (cstr str)
  if ok then (vals.length, vals.flatMap littleEndian) else (0, [])

/-- The four bytes of a word make the word. -/
lemma ofNat_littleEndian (v : UInt32) :
    UInt32.ofNat (v.toUInt8.toNat + 2 ^ 8 * (v >>> 8).toUInt8.toNat +
      2 ^ 16 * (v >>> 16).toUInt8.toNat + 2 ^ 24 * (v >>> 24).toUInt8.toNat) = v := by
  have hlt : v.toNat < 2 ^ 32 := v.toNat_lt
  have h8 : (v >>> 8).toNat = v.toNat / 2 ^ 8 := by
    rw [UInt32.toNat_shiftRight, Nat.shiftRight_eq_div_pow]
    rfl
  have h16 : (v >>> 16).toNat = v.toNat / 2 ^ 16 := by
    rw [UInt32.toNat_shiftRight, Nat.shiftRight_eq_div_pow]
    rfl
  have h24 : (v >>> 24).toNat = v.toNat / 2 ^ 24 := by
    rw [UInt32.toNat_shiftRight, Nat.shiftRight_eq_div_pow]
    rfl
  apply UInt32.toNat_inj.1
  rw [UInt32.toNat_ofNat', UInt32.toNat_toUInt8, UInt32.toNat_toUInt8, UInt32.toNat_toUInt8,
    UInt32.toNat_toUInt8, h8, h16, h24]
  omega

/-- `parse_packed_uint32` reads back the values of a list. -/
lemma parsePackedUint32_flatMap (vals : List UInt32) :
    parsePackedUint32 (vals.flatMap littleEndian) = vals := by
  induction vals with
  | nil => rfl
  | cons v vals ih =>
      rw [List.flatMap_cons, littleEndian, List.cons_append, List.cons_append, List.cons_append,
        List.cons_append, List.nil_append, parsePackedUint32, ih, ofNat_littleEndian]

/-! ## The scanner on numerals -/

/-- What the loop stores for a number. -/
def storedVal (n : ℤ) : UInt32 := UInt32.ofInt (longOf n)

lemma Numerals.ne_nil {s : Bytes} {ns : List ℤ} (h : Numerals s ns) : s ≠ [] := by
  have hnumeral : ∀ {w : Bytes} {n : ℤ}, IsNumeral w n → w ≠ [] := by
    rintro w n ⟨space, sign, factor, digits, rfl, -, -, hne, -⟩
    simp [hne]
  cases h with
  | last h => exact hnumeral h
  | cons h => simp [hnumeral h]

/-- A token alone. -/
lemma scanVals_of_isNumeral {w : Bytes} {n : ℤ} (h : IsNumeral w n) :
    scanVals w = ([storedVal n], true) := by
  have hne := (Numerals.last h).ne_nil
  have hstrtol := @strtol_of_isNumeral w n h [] (by simp)
  rw [List.append_nil] at hstrtol
  rw [scanVals]
  simp only [strtol_fst, hstrtol.1, hstrtol.2, if_pos, dif_neg (Ne.symm hne)]
  rfl

/-- A token in front of others. -/
lemma scanVals_append {w rest : Bytes} {n : ℤ} (h : IsNumeral w n)
    (hrest : ∀ b ∈ rest.head?, isDigit b = false) (hne : rest ≠ []) :
    scanVals (w ++ rest) = (storedVal n :: (scanVals rest).1, (scanVals rest).2) := by
  have hw := (Numerals.last h).ne_nil
  have hstrtol := strtol_of_isNumeral h hrest
  have hmoved : rest ≠ w ++ rest := by simpa using hw
  rw [scanVals]
  simp only [strtol_fst, hstrtol.1, hstrtol.2, dif_neg hmoved, if_neg hne]
  rfl

/-- The scanner comes to the end of a sequence of numerals. -/
lemma scanVals_of_numerals {s : Bytes} {ns : List ℤ} (h : Numerals s ns) :
    scanVals s = (ns.map storedVal, true) := by
  induction h with
  | last h => exact scanVals_of_isNumeral h
  | cons h hrest hns ih => rw [scanVals_append h hrest hns.ne_nil, ih, List.map_cons]

/-- Only there does it come to the end. -/
lemma numerals_of_scanVals {s : Bytes} (h : (scanVals s).2 = true) : ∃ ns, Numerals s ns := by
  induction hn : s.length using Nat.strong_induction_on generalizing s with
  | _ n ih =>
    subst hn
    by_cases hmoved : strtolEnd s = s
    · rw [scanVals] at h
      simp [hmoved] at h
    obtain ⟨w, hw, hs, hrest⟩ := isNumeral_of_strtolEnd hmoved
    by_cases hend : strtolEnd s = []
    · rw [hend, List.append_nil] at hs
      rw [hs]
      exact ⟨_, .last hw⟩
    · have hscan := scanVals_append hw hrest hend
      rw [← hs] at hscan
      rw [hscan] at h
      obtain ⟨ns, hns⟩ := ih _ (length_strtolEnd_lt hmoved) h rfl
      rw [hs]
      exact ⟨_, .cons hw hrest hns⟩

end EpollChat

import EpollChat.Framework.Fifo
import EpollChat.Framework.LongestMatch
import EpollChat.Properties.ChunkNumbers

/-!
# The scanner of chunk lists

`pack_repeated_uint32_from_str` stores the values of a string in an array with room for one more
than half its length.  That is enough: behind another token a token has a sign or white space in
front of its digits, which it would otherwise have shared, and the failed call that also stores a
value has a byte left to fail at (`length_scanVals_le`).

What is accepted is a string made of tokens in any way, since two tokens that do not merge stay
apart (`merges_or_apart`), and its tokens are counted by longest match (`chunkScan`).
-/

namespace EpollChat

/-! ## Tokens -/

/-- A token of the scanner: white space, an optional sign, digits. -/
def IsToken (w : Bytes) : Prop := ∃ n, IsNumeral w n

namespace IsToken

variable {u v w : Bytes}

lemma ne_nil (h : IsToken w) : w ≠ [] := by
  obtain ⟨n, space, sign, factor, digits, rfl, -, -, hne, -⟩ := h
  simp [hne]

/-- A token may go on with digits. -/
lemma append_digits (h : IsToken w) {ds : Bytes} (hds : ∀ b ∈ ds, isDigit b = true) :
    IsToken (w ++ ds) := by
  obtain ⟨n, space, sign, factor, digits, rfl, hspace, hsign, hne, hdigits, -⟩ := h
  refine ⟨_, space, sign, factor, digits ++ ds, ?_, hspace, hsign, ?_, ?_, rfl⟩
  · simp only [List.append_assoc]
  · simp [hne]
  · exact List.forall_mem_append.mpr ⟨hdigits, hds⟩

/-- A token is all digits, or does not begin with one. -/
lemma digits_or_stop (h : IsToken w) :
    (∀ b ∈ w, isDigit b = true) ∨ ∀ b ∈ w.head?, isDigit b = false := by
  obtain ⟨n, space, sign, factor, digits, rfl, hspace, hsign, hne, hdigits, -⟩ := h
  cases space with
  | cons b space =>
      right
      intro b' hb'
      obtain rfl := Option.some.inj hb'
      by_contra hdigit
      have hnot := isSpace_of_isDigit (Bool.eq_true_of_not_eq_false hdigit)
      rw [hspace b List.mem_cons_self] at hnot
      cases hnot
  | nil =>
      cases hsign with
      | none => exact .inl (by simpa using hdigits)
      | plus => exact .inr (by simp [show isDigit 43 = false from rfl])
      | minus => exact .inr (by simp [show isDigit 45 = false from rfl])

/-- In front of something that is no digit a token is the longest one. -/
lemma isLongest (h : IsToken w) {rest : Bytes} (hrest : ∀ b ∈ rest.head?, isDigit b = false) :
    IsLongest IsToken (w ++ rest) w := by
  refine ⟨h, List.prefix_append _ _, ?_⟩
  rintro v hv ⟨t, ht⟩
  -- with the digits that follow it, `v` is what `strtol` takes, and so is `w`
  have hv' : IsToken (v ++ t.takeWhile isDigit) :=
    hv.append_digits fun b hb => List.mem_takeWhile_imp hb
  obtain ⟨n, hn⟩ := hv'
  obtain ⟨m, hm⟩ := h
  have hstop := (strtol_of_isNumeral hn (head?_dropWhile_stop isDigit t)).2
  rw [List.append_assoc, List.takeWhile_append_dropWhile, ht, (strtol_of_isNumeral hm hrest).2]
    at hstop
  have hlen := congrArg List.length ht
  have hle := List.length_dropWhile_le isDigit t
  rw [List.length_append, List.length_append] at hlen
  rw [hstop] at hlen
  omega

/-- What follows the longest token is no digit. -/
lemma stop_of_isLongest {rest : Bytes} (h : IsLongest IsToken (w ++ rest) w) :
    ∀ b ∈ rest.head?, isDigit b = false := by
  cases rest with
  | nil => exact fun b hb => by cases hb
  | cons d rest =>
      intro b hb
      obtain rfl := Option.some.inj hb
      by_contra hdigit
      have hds : ∀ b ∈ [d], isDigit b = true := by simpa using hdigit
      have hlonger := h.longest (w ++ [d]) (h.token.append_digits hds) ⟨rest, by simp⟩
      rw [List.length_append, List.length_singleton] at hlonger
      omega

end IsToken

/-- A token of one byte merges with any token in front of it. -/
lemma merge_singleton (w : Bytes) (b : UInt8) (hw : IsToken w) (hb : IsToken [b]) :
    IsToken (w ++ [b]) := by
  apply hw.append_digits
  obtain ⟨n, space, sign, factor, digits, heq, -, -, hne, hdigits, -⟩ := hb
  obtain ⟨d, hd⟩ := List.exists_mem_of_ne_nil digits hne
  have hmem : d ∈ [b] := by
    rw [heq, ← List.append_assoc]
    exact List.mem_append_right _ hd
  rw [List.mem_singleton] at hmem
  intro b' hb'
  rw [List.mem_singleton.mp hb', ← hmem]
  exact hdigits d hd

/-- Two tokens merge, or stay apart whatever follows them. -/
lemma merges_or_apart (u v : Bytes) (hu : IsToken u) (hv : IsToken v) :
    IsToken (u ++ v) ∨ ∀ s, IsLongest IsToken (u ++ (v ++ s)) u := by
  rcases hv.digits_or_stop with hdigits | hstop
  · exact .inl (hu.append_digits hdigits)
  · refine .inr fun s => hu.isLongest ?_
    rwa [List.head?_append_of_ne_nil _ hv.ne_nil]

/-! ## The loop -/

/-- The scanner takes tokens off the string by longest match, and stores a value for each of them.
It stores one more where it fails, which it does in front of something or before any token. -/
lemma munch_scanVals (s : Bytes) : ∃ ws rest, Munch IsToken s ws rest ∧
    ((scanVals s).1.length = ws.length ∨
      (scanVals s).1.length = ws.length + 1 ∧ (rest = [] → ws = [])) := by
  induction hn : s.length using Nat.strong_induction_on generalizing s with
  | _ n ih =>
    subst hn
    by_cases hmoved : strtolEnd s = s
    · refine ⟨[], s, .nil, .inr ⟨?_, fun _ => rfl⟩⟩
      rw [scanVals]
      simp only [hmoved, dif_pos, List.length_singleton, List.length_nil]
    obtain ⟨w, hw, hs, hrest⟩ := isNumeral_of_strtolEnd hmoved
    have hfirst : IsLongest IsToken (w ++ strtolEnd s) w := IsToken.isLongest ⟨_, hw⟩ hrest
    by_cases hend : strtolEnd s = []
    · have hscan := scanVals_of_isNumeral hw
      rw [hend] at hs hfirst
      refine ⟨[w], [], ?_, .inl ?_⟩
      · rw [hs]
        exact .cons hfirst .nil
      · rw [hs, List.append_nil, hscan, List.length_singleton, List.length_singleton]
    · have hscan := scanVals_append hw hrest hend
      rw [← hs] at hscan
      obtain ⟨ws, rest, hmunch, hlen⟩ := ih _ (length_strtolEnd_lt hmoved) (strtolEnd s) rfl
      refine ⟨w :: ws, rest, ?_, ?_⟩
      · rw [hs]
        exact .cons hfirst hmunch
      · rw [hscan, List.length_cons, List.length_cons]
        refine hlen.imp (congrArg (· + 1)) fun h => ⟨congrArg (· + 1) h.1, fun hnil => ?_⟩
        -- nothing is left only if nothing was there
        have hflat := hmunch.flatten
        rw [h.2 hnil, hnil] at hflat
        exact absurd hflat hend

/-- **The array is long enough.** -/
lemma length_scanVals_le (s : Bytes) : (scanVals s).1.length ≤ 1 + s.length / 2 := by
  obtain ⟨ws, rest, hmunch, hlen⟩ := munch_scanVals s
  have hmax := hmunch.two_mul_length_le (fun _ => IsToken.ne_nil) merge_singleton
  rcases hlen with hlen | ⟨hlen, hfailed⟩
  · omega
  · by_cases hrest : rest = []
    · rw [hfailed hrest, List.length_nil] at hlen
      omega
    · have hpos := List.length_pos_of_ne_nil hrest
      omega

/-- The loop ends, with what `scanVals` computes. -/
lemma whileLoop_scanRound (s : Bytes) (vals : List UInt32) :
    ∃ s', WhileLoop (fun t => t.result = none) scanRound { s, vals, result := none }
      { s := s', vals := vals ++ (scanVals s).1, result := some (scanVals s).2 } := by
  induction hn : s.length using Nat.strong_induction_on generalizing s vals with
  | _ n ih =>
    subst hn
    by_cases hmoved : strtolEnd s = s
    · refine ⟨s, .next rfl ?_⟩
      rw [scanVals, scanRound]
      simp only [hmoved, if_pos, dif_pos]
      exact .done (by simp)
    by_cases hend : strtolEnd s = []
    · refine ⟨s, .next rfl ?_⟩
      rw [scanVals, scanRound]
      simp only [if_neg hmoved, dif_neg hmoved, if_pos hend]
      exact .done (by simp)
    · obtain ⟨s', hloop⟩ := ih _ (length_strtolEnd_lt hmoved) (strtolEnd s)
        (vals ++ [UInt32.ofInt (strtol s).1]) rfl
      refine ⟨s', .next rfl ?_⟩
      rw [scanVals, scanRound]
      simp only [if_neg hmoved, dif_neg hmoved, if_neg hend]
      rwa [List.append_assoc, List.singleton_append] at hloop

/-! ## What is accepted -/

/-- What longest match takes to the end is a sequence of numerals. -/
lemma numerals_of_munch {s : Bytes} {ws : List Bytes} (h : Munch IsToken s ws [])
    (hws : ws ≠ []) : ∃ ns, Numerals s ns ∧ ns.length = ws.length := by
  generalize hrest : ([] : Bytes) = rest at h
  induction h with
  | nil => exact absurd rfl hws
  | @cons w s rest ws first others ih =>
      subst hrest
      obtain ⟨n, hn⟩ := first.token
      cases ws with
      | nil =>
          obtain rfl : s = [] := others.flatten
          rw [List.append_nil]
          exact ⟨[n], .last hn, rfl⟩
      | cons v ws =>
          obtain ⟨ns, hns, hlen⟩ := ih (List.cons_ne_nil _ _) rfl
          exact ⟨n :: ns, .cons hn (IsToken.stop_of_isLongest first) hns, congrArg (· + 1) hlen⟩

/-- A sequence of numerals is taken to the end. -/
lemma munch_of_numerals {s : Bytes} {ns : List ℤ} (h : Numerals s ns) :
    ∃ ws, Munch IsToken s ws [] ∧ ws.length = ns.length := by
  induction h with
  | @last w n h =>
      have hfirst : IsLongest IsToken (w ++ []) w := IsToken.isLongest ⟨n, h⟩ (by simp)
      have hmunch := Munch.cons hfirst .nil
      rw [List.append_nil] at hmunch
      exact ⟨[w], hmunch, rfl⟩
  | @cons w rest n ns h hrest hns ih =>
      obtain ⟨ws, hmunch, hlen⟩ := ih
      have hfirst : IsLongest IsToken (w ++ rest) w := IsToken.isLongest ⟨n, h⟩ hrest
      exact ⟨w :: ws, .cons hfirst hmunch, congrArg (· + 1) hlen⟩

lemma length_flatMap_littleEndian (vals : List UInt32) :
    (vals.flatMap littleEndian).length = 4 * vals.length := by
  induction vals with
  | nil => rfl
  | cons v vals ih =>
      rw [List.flatMap_cons, List.length_append, ih, littleEndian, List.length_cons]
      simp only [List.length_cons, List.length_nil]
      omega

/-- **The scanner on a string.** -/
structure ChunkScan (str : Bytes) : Prop where
  /-- The loop ends, with the values it has stored. -/
  ends : ∃ s, WhileLoop (fun t => t.result = none) scanRound
    { s := cstr str, vals := [], result := none }
    { s, vals := (scanVals (cstr str)).1, result := some (scanVals (cstr str)).2 }
  /-- They fit the array of `1 + strlen(str) / 2` values. -/
  fits : (scanVals (cstr str)).1.length ≤ 1 + (cstr str).length / 2
  /-- Accepted is what is made of tokens. -/
  accepts : 0 < (packRepeatedUint32FromStr str).1 ↔
    ∃ ws, ws ≠ [] ∧ (∀ w ∈ ws, IsToken w) ∧ cstr str = ws.flatten
  /-- The count is that of the tokens by longest match, and four bytes are sent for each. -/
  counts : 0 < (packRepeatedUint32FromStr str).1 → ∃ ws, Munch IsToken (cstr str) ws [] ∧
    (∀ ws', Munch IsToken (cstr str) ws' [] → ws' = ws) ∧
    (packRepeatedUint32FromStr str).1 = ws.length ∧
    (packRepeatedUint32FromStr str).2.length = 4 * ws.length
  /-- Nothing is sent of what is rejected. -/
  rejects : ¬ 0 < (packRepeatedUint32FromStr str).1 → packRepeatedUint32FromStr str = (0, [])

/-- **The chunk list scanner.** For every string. -/
theorem chunkScan (str : Bytes) : ChunkScan str := by
  have hnumerals : 0 < (packRepeatedUint32FromStr str).1 → ∃ ns, Numerals (cstr str) ns :=
    fun hpos => numerals_of_accepted hpos.ne'
  refine ⟨?_, length_scanVals_le _, ⟨fun hpos => ?_, ?_⟩, fun hpos => ?_, fun hzero => ?_⟩
  · have hloop := whileLoop_scanRound (cstr str) []
    rwa [List.nil_append] at hloop
  · obtain ⟨ns, hns⟩ := hnumerals hpos
    obtain ⟨ws, hmunch, hlen⟩ := munch_of_numerals hns
    have hflat := hmunch.flatten
    rw [List.append_nil] at hflat
    refine ⟨ws, fun hnil => hns.length_ne_zero ?_, hmunch.token, hflat⟩
    rw [← hlen, hnil, List.length_nil]
  · rintro ⟨ws, hws, htokens, hflat⟩
    obtain ⟨ws', hws', hmunch⟩ := exists_munch merges_or_apart hws htokens
    rw [← hflat] at hmunch
    obtain ⟨ns, hns, -⟩ := numerals_of_munch hmunch hws'
    rw [packRepeatedUint32FromStr_of_numerals hns]
    exact Nat.pos_of_ne_zero hns.length_ne_zero
  · obtain ⟨ns, hns⟩ := hnumerals hpos
    obtain ⟨ws, hmunch, hlen⟩ := munch_of_numerals hns
    refine ⟨ws, hmunch, fun ws' hmunch' => ?_, ?_, ?_⟩
    · exact hmunch'.unique (fun _ => IsToken.ne_nil) hmunch
    · rw [packRepeatedUint32FromStr_of_numerals hns, hlen]
    · rw [packRepeatedUint32FromStr_of_numerals hns, length_flatMap_littleEndian,
        List.length_map, hlen]
  · have hrejected : (scanVals (cstr str)).2 ≠ true := by
      intro hok
      obtain ⟨ns, hns⟩ := numerals_of_scanVals hok
      rw [packRepeatedUint32FromStr_of_numerals hns] at hzero
      exact hzero (Nat.pos_of_ne_zero hns.length_ne_zero)
    simp only [packRepeatedUint32FromStr, if_neg hrejected]

end EpollChat

import EpollChat.Construction.NameLists

/-!
# Name lists are joined within their allocation

The size that `userLinkedListToString` allocates counts two bytes for every separator and takes
two away for the one that is not written.  With separators of at most two bytes and names that are
not empty, the second loop stays inside the block and leaves the names joined by the separator
(`namesJoined`).

`joinName` is a round of the second loop on what has been written, and the string is its fold over
the names.
-/

namespace EpollChat

variable {separator : Bytes}

/-! ## Joining -/

/-- What is written once a name is. -/
def joinName (separator written username : Bytes) : Bytes :=
  (if written = [] then written else written ++ separator) ++ username

lemma length_le_joinName (written username : Bytes) :
    written.length ≤ (joinName separator written username).length := by
  unfold joinName
  split <;> simp only [List.length_append] <;> omega

lemma length_le_foldl_joinName (names : List Bytes) (written : Bytes) :
    written.length ≤ (names.foldl (joinName separator) written).length := by
  induction names generalizing written with
  | nil => exact le_rfl
  | cons name names ih => exact (length_le_joinName written name).trans (ih _)

/-- Behind something every name gets a separator. -/
lemma foldl_joinName {written : Bytes} (hwritten : written ≠ []) (names : List Bytes) :
    names.foldl (joinName separator) written = written ++ names.flatMap (separator ++ ·) := by
  induction names generalizing written with
  | nil => rw [List.foldl_nil, List.flatMap_nil, List.append_nil]
  | cons name names ih =>
      have hjoin : joinName separator written name = written ++ (separator ++ name) := by
        rw [joinName, if_neg hwritten, List.append_assoc]
      rw [List.foldl_cons, hjoin, ih (by simp [hwritten]), List.flatMap_cons, List.append_assoc]

/-- A first name and others are joined by the separator in front of each of the others. -/
lemma intercalate_cons (name : Bytes) (names : List Bytes) :
    separator.intercalate (name :: names) = name ++ names.flatMap (separator ++ ·) := by
  induction names generalizing name with
  | nil => rw [List.intercalate_singleton, List.flatMap_nil, List.append_nil]
  | cons v names ih =>
      rw [List.intercalate_cons_cons, ih, List.flatMap_cons, List.append_assoc, List.append_assoc]

/-- The fold joins names that are not empty. -/
lemma foldl_joinName_nil {names : List Bytes} (hnames : ∀ name ∈ names, name ≠ []) :
    names.foldl (joinName separator) [] = separator.intercalate names := by
  cases names with
  | nil => rw [List.foldl_nil, List.intercalate_nil]
  | cons name names =>
      have hname : name ≠ [] := hnames name List.mem_cons_self
      rw [List.foldl_cons, joinName, if_pos rfl, List.nil_append, foldl_joinName hname,
        intercalate_cons]

/-- So does `userLinkedListToString` as the commands use it. -/
lemma userLinkedListToString_eq {names : List Bytes} (hne : names ≠ [])
    (hnames : ∀ name ∈ names, name ≠ []) :
    userLinkedListToString names separator = some (separator.intercalate names) := by
  rw [← foldl_joinName_nil hnames]
  cases names with
  | nil => exact absurd rfl hne
  | cons name names => rfl

lemma nul_notMem_intercalate (hsep : 0 ∉ separator) {names : List Bytes}
    (hnames : ∀ name ∈ names, 0 ∉ name) : 0 ∉ separator.intercalate names := by
  cases names with
  | nil => simp
  | cons name names =>
      rw [intercalate_cons, List.mem_append, List.mem_flatMap]
      rintro (hmem | ⟨v, hv, hmem⟩)
      · exact hnames name List.mem_cons_self hmem
      · rcases List.mem_append.mp hmem with hmem | hmem
        · exact hsep hmem
        · exact hnames v (List.mem_cons_of_mem _ hv) hmem

/-! ## The first loop -/

/-- Two bytes and the length, for every name. -/
lemma nameListSize_eq (list : List (Option Bytes)) :
    nameListSize list = ((list.reduceOption.map cstr).map (2 + ·.length)).sum := by
  suffices h : ∀ ret,
      list.foldl addName ret = ret + ((list.reduceOption.map cstr).map (2 + ·.length)).sum by
    rw [nameListSize, h, Nat.zero_add]
  induction list with
  | nil => exact fun _ => rfl
  | cons user list ih =>
      intro ret
      rw [List.foldl_cons, ih]
      cases user with
      | none => rw [List.reduceOption_cons_of_none, addName]
      | some username =>
          rw [List.reduceOption_cons_of_some, List.map_cons, List.map_cons, List.sum_cons, addName,
            Nat.add_assoc]

/-- With short separators the joined names fit what the first loop adds up. -/
lemma length_intercalate_le (hsep : separator.length ≤ 2) {names : List Bytes}
    (hne : names ≠ []) :
    (separator.intercalate names).length + 2 ≤ (names.map (2 + ·.length)).sum := by
  have hothers (names : List Bytes) :
      (names.flatMap (separator ++ ·)).length ≤ (names.map (2 + ·.length)).sum := by
    induction names with
    | nil => exact le_rfl
    | cons name names ih =>
        rw [List.flatMap_cons, List.map_cons, List.sum_cons, List.length_append,
          List.length_append]
        omega
  obtain ⟨name, names, rfl⟩ := List.exists_cons_of_ne_nil hne
  have := hothers names
  rw [intercalate_cons, List.length_append, List.map_cons, List.sum_cons]
  omega

/-! ## The second loop -/

/-- A round appends to what has been written. -/
lemma writeName_spec {str : HeapBlock} {written username : Bytes} (h : str.Holds written)
    (hroom : (joinName (cstr separator) written (cstr username)).length ≤ str.size) :
    ∃ str', writeName separator username str written.length =
        some (str', (joinName (cstr separator) written (cstr username)).length) ∧
      str'.size = str.size ∧ str'.Holds (joinName (cstr separator) written (cstr username)) := by
  unfold joinName at hroom ⊢
  by_cases hwritten : written = []
  · rw [if_pos hwritten] at hroom ⊢
    obtain ⟨str', hwrite, hsize, hholds⟩ := h.write hroom
    refine ⟨str', ?_, hsize, hholds⟩
    have hnxt : ¬ written.length ≠ 0 := by simp [hwritten]
    rw [writeName, if_neg hnxt, Option.bind_eq_bind, Option.bind_some]
    dsimp only
    rw [hwrite, List.length_append]
    rfl
  · rw [if_neg hwritten] at hroom ⊢
    have hfirst : (written ++ cstr separator).length ≤ str.size := by
      rw [List.length_append] at hroom
      omega
    obtain ⟨str₁, hwrite₁, hsize₁, hholds₁⟩ := h.write hfirst
    obtain ⟨str₂, hwrite₂, hsize₂, hholds₂⟩ := hholds₁.write (hroom.trans_eq hsize₁.symm)
    refine ⟨str₂, ?_, hsize₂.trans hsize₁, hholds₂⟩
    have hnxt : written.length ≠ 0 := by simpa using hwritten
    rw [List.length_append] at hwrite₂ ⊢
    rw [writeName, if_pos hnxt, hwrite₁, Option.map_some, Option.bind_eq_bind, Option.bind_some]
    dsimp only
    rw [hwrite₂, List.length_append]
    rfl

/-- The loop writes the fold. -/
lemma writeNames_spec {list : List (Option Bytes)} {str : HeapBlock} {written : Bytes}
    (h : str.Holds written)
    (hroom : ((list.reduceOption.map cstr).foldl (joinName (cstr separator)) written).length ≤
      str.size) :
    ∃ str', writeNames separator list str written.length = some (str',
        ((list.reduceOption.map cstr).foldl (joinName (cstr separator)) written).length) ∧
      str'.size = str.size ∧
      str'.Holds ((list.reduceOption.map cstr).foldl (joinName (cstr separator)) written) := by
  induction list generalizing str written with
  | nil => exact ⟨str, rfl, rfl, h⟩
  | cons user list ih =>
      cases user with
      | none =>
          rw [List.reduceOption_cons_of_none] at hroom ⊢
          exact ih h hroom
      | some username =>
          rw [List.reduceOption_cons_of_some, List.map_cons, List.foldl_cons] at hroom ⊢
          have hround := (length_le_foldl_joinName _ _).trans hroom
          obtain ⟨str₁, hname, hsize₁, hholds₁⟩ := writeName_spec h hround
          obtain ⟨str₂, hnames, hsize₂, hholds₂⟩ := ih hholds₁ (hroom.trans_eq hsize₁.symm)
          refine ⟨str₂, ?_, hsize₂.trans hsize₁, hholds₂⟩
          rw [writeNames, hname]
          exact hnames

/-! ## The string -/

/-- **The names are joined** by the separator in the block, of which `ret` and one more bytes were
allocated. -/
structure NamesJoined (names : List Bytes) (separator : Bytes) (ret : ℕ) (str : HeapBlock) :
    Prop where
  allocated : str.size = ret + 1
  /-- The joined names and the NUL are at the front of the block. -/
  holds : str.Holds (separator.intercalate names ++ [0])
  /-- The string at the block is the joined names. -/
  string : cstr (slice str.bytes 0 str.size) = separator.intercalate names
  length_le : (separator.intercalate names).length ≤ ret
  /-- It is what the commands answer with. -/
  answered : userLinkedListToString names separator = some (separator.intercalate names)

/-- **Name lists.** For every list with a user in it and names that are not empty, and separators
of at most the two bytes that are allowed for, of which the callers' has one. -/
theorem namesJoined (garbage : ℕ → UInt8) {list : List (Option Bytes)}
    (husers : list.reduceOption ≠ [])
    (hnames : ∀ username ∈ list.reduceOption, cstr username ≠ [])
    (hsep : (cstr separator).length ≤ 2) :
    ∃ ret str, userLinkedListToStringBlock garbage list separator = some (ret, some str) ∧
      NamesJoined (list.reduceOption.map cstr) (cstr separator) ret str := by
  have hne : list.reduceOption.map cstr ≠ [] := by simpa using husers
  have hnonempty : ∀ name ∈ list.reduceOption.map cstr, name ≠ [] := by simpa using hnames
  have hnul : 0 ∉ (cstr separator).intercalate (list.reduceOption.map cstr) := by
    apply nul_notMem_intercalate (nul_notMem_cstr separator)
    intro name hname
    obtain ⟨username, -, rfl⟩ := List.mem_map.mp hname
    exact nul_notMem_cstr username
  have hlist : list ≠ [] := by
    rintro rfl
    exact husers rfl
  have hfold := @foldl_joinName_nil (cstr separator) _ hnonempty
  have hle := length_intercalate_le hsep hne
  rw [← nameListSize_eq] at hle
  obtain ⟨str₁, hloop, hsize₁, hholds₁⟩ := @writeNames_spec separator list
    { size := nameListSize list - 2 + 1, bytes := garbage } [] rfl (by rw [hfold]; dsimp only; omega)
  rw [hfold] at hloop hholds₁
  rw [List.length_nil] at hloop
  dsimp only at hsize₁
  have hroom : ((cstr separator).intercalate (list.reduceOption.map cstr)).length < str₁.size := by
    omega
  obtain ⟨str₂, hset, hsize₂, hholds₂⟩ := hholds₁.set hroom 0
  refine ⟨nameListSize list - 2, str₂, ?_, hsize₂.trans hsize₁, hholds₂, ?_, by omega, ?_⟩
  · rw [userLinkedListToStringBlock, if_neg hlist]
    dsimp only
    rw [hloop, Option.bind_eq_bind, Option.bind_some]
    dsimp only
    rw [hset]
    rfl
  · exact hholds₂.cstr_eq (hroom.trans_eq hsize₂.symm) hnul
  · exact userLinkedListToString_eq hne hnonempty

/-- The list of two users, and a node without one behind them. -/
theorem namesJoined_two : ∃ ret str,
    userLinkedListToStringBlock (fun _ => 170) [some (text "hans"), some (text "yoda"), none]
      (text "\n") = some (ret, some str) ∧
      NamesJoined [text "hans", text "yoda"] (text "\n") ret str :=
  namesJoined (fun _ => 170) (by decide) (by decide) (by decide)

end EpollChat

import EpollChat.Construction.CommandLine
import EpollChat.Construction.Demo
import EpollChat.Properties.ChunkNumbers
import EpollChat.Properties.FileTransfer

/-!
# File names in commands

A registered file has the part after the last slash of a typed path as its name, which may hold
anything but a slash and a newline (`registrable_of_chooseFile`).  `searchChunk` takes the name to
end at the first space and `private … download` reads it as a word, so a name can be used in both
exactly when there is no white space in it (`usable_iff`).
-/

namespace EpollChat

/-- What the name of a registered file can be. -/
structure Registrable (name : Bytes) : Prop where
  ne_nil : name ≠ []
  no_slash : slash ∉ name
  no_newline : newline ∉ name
  no_nul : 0 ∉ name

/-- A user there is a private session with, on the connection `c`, whose name can be typed. -/
structure KnownUser (p2pdb : State) (user : Bytes) (c : ConnId) : Prop where
  no_blank : blank ∉ user
  no_newline : newline ∉ user
  no_nul : 0 ∉ user
  connected : privateConn p2pdb user = some c

/-- The line `searchChunk <name> <k>`, without its newline. -/
def searchLine (name : Bytes) (k : UInt32) : Bytes :=
  text "searchChunk " ++ (name ++ blank :: decimal k.toNat)

/-- The line `private <user> download <name> <k>`, without its newline. -/
def downloadLine (user name : Bytes) (k : UInt32) : Bytes :=
  text "private " ++ (user ++ blank :: (text "download " ++ (name ++ blank :: decimal k.toNat)))

/-- **The name can be used** in the two commands with a chunk number.  `stdin` is what is typed
after the line, and `c` is the connection of the session with `user`. -/
structure Usable (p2pdb : State) (loggedInUserName : Option Bytes) (c : ConnId)
    (user name : Bytes) (k : UInt32) (stdin : Bytes) : Prop where
  /-- A search is for this name and this chunk. -/
  search : ∃ req, searchOfLine (searchLine name k ++ newline :: stdin) = some req ∧
    req.filename = name ∧ parsePackedUint32 req.chunks = [k]
  /-- A download is for this name and this chunk. -/
  download :
    privateOfLine p2pdb loggedInUserName (downloadLine user name k ++ newline :: stdin) =
      some (c, .chunkDataRequest { filename := name, chunk := k })

/-! ## What is registered -/

/-- `fgets` reads a newline at the end only. -/
lemma newline_notMem_dropLast_fgets (n : ℕ) (stdin : Bytes) :
    newline ∉ (fgets n stdin).dropLast := by
  intro hmem
  have hline : newline ∉ stdin.takeWhile (· ≠ newline) := fun h => by
    simpa using List.mem_takeWhile_imp h
  rw [fgets, List.dropLast_eq_take, List.take_take, List.take_append_of_le_length] at hmem
  · exact hline (List.mem_of_mem_take hmem)
  · have hone : ((stdin.dropWhile (· ≠ newline)).take 1).length ≤ 1 := List.length_take_le _ _
    rw [List.length_take, List.length_append]
    omega

/-- A string cut short keeps its newlines out. -/
lemma newline_notMem_dropLast_of_prefix {s t : Bytes} (h : s <+: t)
    (ht : newline ∉ t.dropLast) : newline ∉ s.dropLast := by
  obtain ⟨more, rfl⟩ := h
  intro hmem
  apply ht
  cases more with
  | nil => rwa [List.append_nil]
  | cons b more =>
      rw [List.dropLast_append_of_ne_nil (List.cons_ne_nil b more)]
      exact List.mem_append_left _ (List.mem_of_mem_dropLast hmem)

/-- The name of a file that is chosen from lines of `fgets`. -/
lemma registrable_of_chooseFile {d : Disk} {stdin stdin' : List Bytes} {filename content : Bytes}
    (hstdin : ∀ line ∈ stdin, ∃ input, line = fgets bufsiz input)
    (h : chooseFile d stdin = some ((filename, content), stdin')) :
    Registrable filename ∧ filename.length < bufsiz := by
  obtain ⟨-, line, hline, hstat, rfl⟩ := chooseFile_eq_some h
  obtain ⟨input, rfl⟩ := hstdin line hline
  have hsuffix := List.rtakeWhile_suffix (· ≠ slash) (cstr (fgets bufsiz input)).dropLast
  have hcstr : cstr (fgets bufsiz input) <+: fgets bufsiz input := List.takeWhile_prefix _
  refine ⟨⟨rtakeWhile_ne_nil_of_stat hstat, fun hslash => ?_, fun hnewline => ?_, fun hnul => ?_⟩,
    ?_⟩
  · simpa using List.mem_rtakeWhile_imp hslash
  · exact newline_notMem_dropLast_of_prefix hcstr (newline_notMem_dropLast_fgets _ _)
      (hsuffix.mem hnewline)
  · have hnonzero := List.mem_takeWhile_imp (List.mem_of_mem_dropLast (hsuffix.mem hnul))
    simp at hnonzero
  · have hread : (fgets bufsiz input).length ≤ bufsiz - 1 := List.length_take_le _ _
    have hsize : bufsiz - 1 < bufsiz := by decide
    have hcut := hcstr.length_le
    have hle := hsuffix.length_le
    rw [List.length_dropLast] at hle
    omega

/-! ## Numbers in a line -/

lemma nul_notMem_decimal (n : ℕ) : 0 ∉ decimal n := fun h =>
  absurd (digit_of_mem_decimal h) (by decide)

lemma newline_notMem_decimal (n : ℕ) : newline ∉ decimal n := fun h =>
  absurd (digit_of_mem_decimal h) (by decide)

/-- A printed chunk number is packed as it is. -/
lemma packRepeatedUint32FromStr_decimal (k : UInt32) :
    packRepeatedUint32FromStr (decimal k.toNat) = (1, littleEndian k) := by
  have hcstr : cstr (decimal k.toNat) = decimal k.toNat := by
    rw [cstr, List.takeWhile_eq_self_iff]
    intro b hb
    apply decide_eq_true
    rintro rfl
    exact nul_notMem_decimal _ hb
  have hnumerals : Numerals (cstr (decimal k.toNat)) [k.toNat] := by
    rw [hcstr]
    exact .last (isNumeral_decimal _)
  have hstored : storedVal k.toNat = k := by
    have hlt : k.toNat < 2 ^ 32 := k.toNat_lt
    have := @toNat_storedVal k.toNat ⟨by omega, by omega⟩
    apply UInt32.toNat_inj.1
    omega
  rw [packRepeatedUint32FromStr_of_numerals hnumerals, List.map_singleton, hstored]
  simp

/-- `%u` reads a printed chunk number. -/
lemma ofInt_ulongOf (k : UInt32) : UInt32.ofInt (ulongOf k.toNat) = k := by
  have hlt : k.toNat < 2 ^ 32 := k.toNat_lt
  have hulong : ulongOf k.toNat = k.toNat := by
    rw [ulongOf, if_pos (by omega)]
    omega
  apply UInt32.toNat_inj.1
  rw [hulong, UInt32.ofInt, UInt32.toNat_ofNat']
  omega

/-! ## The two commands -/

section Lines

variable {name user : Bytes} {k : UInt32}

/-- The name and the number at the end of a line, with a byte that is in neither. -/
lemma notMem_args {b : UInt8} (hname : b ∉ name) (hblank : b ≠ blank)
    (hnumber : b ∉ decimal k.toNat) : b ∉ name ++ blank :: decimal k.toNat := by
  simp [hname, hblank, hnumber]

lemma searchOfLine_searchLine (hname : Registrable name)
    (hlength : (searchLine name k).length + 1 < maxCommand) (stdin : Bytes) :
    searchOfLine (searchLine name k ++ newline :: stdin) =
      cmdSearchchunkImpl (searchLine name k) := by
  have hnewline : newline ∉ searchLine name k := by
    have := notMem_args hname.no_newline (by decide) (newline_notMem_decimal k.toNat)
    exact List.not_mem_append (by decide) this
  have hnul : 0 ∉ searchLine name k := by
    have := notMem_args hname.no_nul (by decide) (nul_notMem_decimal k.toNat)
    exact List.not_mem_append (by decide) this
  have hselect : selectCommand (searchLine name k) = some .cmdSearchchunk :=
    selectCommand_searchchunk _
  rw [searchOfLine, readCommand_line hnewline hnul hlength stdin]
  simp only [Option.bind_eq_bind, Option.bind_some, hselect, if_pos]

lemma privateOfLine_downloadLine {p2pdb : State} {c : ConnId} (hname : Registrable name)
    (huser : KnownUser p2pdb user c)
    (hlength : (downloadLine user name k).length + 1 < maxCommand)
    (loggedInUserName : Option Bytes) (stdin : Bytes) :
    privateOfLine p2pdb loggedInUserName (downloadLine user name k ++ newline :: stdin) =
      ((sscanfNameChunk (name ++ blank :: decimal k.toNat)).join).map
        fun cdr => (c, .chunkDataRequest cdr) := by
  have hline : ∀ b : UInt8, b ∉ text "private " → b ∉ text "download " → b ≠ blank → b ∉ user →
      b ∉ name → b ∉ decimal k.toNat → b ∉ downloadLine user name k := by
    intro b hprivate hdownload hne hb' hb hnumber
    apply List.not_mem_append hprivate
    apply List.not_mem_append hb'
    apply List.not_mem_cons_of_ne_of_not_mem hne
    exact List.not_mem_append hdownload (notMem_args hb hne hnumber)
  have hread := readCommand_line
    (hline newline (by decide) (by decide) (by decide) huser.no_newline hname.no_newline
      (newline_notMem_decimal _))
    (hline 0 (by decide) (by decide) (by decide) huser.no_nul hname.no_nul
      (nul_notMem_decimal _))
    hlength stdin
  have hselect : selectCommand (downloadLine user name k) = some .cmdPrivate :=
    selectCommand_private _
  have hdrop : (downloadLine user name k).drop 8 =
      user ++ blank :: (text "download " ++ (name ++ blank :: decimal k.toNat)) := rfl
  have hcut := takeWhile_blank huser.no_blank (text "download " ++ (name ++ blank :: decimal k.toNat))
  have hdownload : (text "download ").isPrefixOf
      (text "download " ++ (name ++ blank :: decimal k.toNat)) = true := rfl
  have hargs : (text "download " ++ (name ++ blank :: decimal k.toNat)).drop 9 =
      name ++ blank :: decimal k.toNat := rfl
  rw [privateOfLine, hread]
  simp only [Option.bind_eq_bind, Option.bind_some, hselect, if_pos, cmdPrivateImpl, hdrop,
    hcut.1, hcut.2, huser.connected, hdownload, hargs]
  cases sscanfNameChunk (name ++ blank :: decimal k.toNat) with
  | none => rfl
  | some cdr => cases cdr <;> rfl

/-- The name that `sscanf` stores is the first word. -/
lemma filename_of_sscanfNameChunk {message : Bytes} {cdr : ChunkDataRequest}
    (h : sscanfNameChunk message = some (some cdr)) :
    cdr.filename = (nextToken isSpace message).1 := by
  simp only [sscanfNameChunk] at h
  split at h
  · cases h
  split at h
  · cases h
  split at h
  · cases h
  · cases h
    rfl

/-- A word and a printed number are read as they are. -/
lemma sscanfNameChunk_word (hne : name ≠ []) (hlength : name.length < bufsiz)
    (hword : ∀ b ∈ name, isSpace b = false) :
    sscanfNameChunk (name ++ blank :: decimal k.toNat) = some (some ⟨name, k⟩) := by
  have hnext : nextToken isSpace (name ++ blank :: decimal k.toNat) =
      (name, blank :: decimal k.toNat) :=
    nextToken_eq hne hword (by simp [blank, isSpace])
  have hnumeral := isNumeral_decimal k.toNat
  have hdigit : ∀ b ∈ (decimal k.toNat).head?, isSpace b = false := by
    intro b hb
    apply isSpace_of_isDigit
    have hmem := List.mem_of_mem_head? hb
    have hrange := digit_of_mem_decimal hmem
    simpa [isDigit, UInt8.le_iff_toNat_le] using hrange
  have hdrop : (blank :: decimal k.toNat).dropWhile isSpace = decimal k.toNat :=
    @dropWhile_append_stop _ isSpace [blank] _ (List.all_eq_true.1 rfl) hdigit
  have hread := @strtol_of_isNumeral _ _ hnumeral [] (by simp)
  rw [List.append_nil] at hread
  have hmoved : ([] : Bytes) ≠ decimal k.toNat := (decimal_ne_nil _).symm
  simp only [sscanfNameChunk, hnext, hdrop, hread.1, hread.2, hne, hmoved, if_false,
    if_neg (not_le.2 hlength), ofInt_ulongOf]

/-- A name without a space is searched for. -/
lemma cmdSearchchunkImpl_searchLine (hblank : blank ∉ name) :
    cmdSearchchunkImpl (searchLine name k) = some ⟨name, littleEndian k⟩ := by
  have hdrop : (searchLine name k).drop 12 = name ++ blank :: decimal k.toNat := rfl
  have hcut := takeWhile_blank hblank (decimal k.toNat)
  simp only [cmdSearchchunkImpl, hdrop, hcut.1, hcut.2, packRepeatedUint32FromStr_decimal,
    one_ne_zero, if_false]

end Lines

/-- **File names in commands.** A registrable name can be used in the two commands, within the
limits of a line and of a name, exactly when there is no white space in it. -/
theorem usable_iff {p2pdb : State} {c : ConnId} {user name : Bytes} {k : UInt32}
    (hname : Registrable name) (hlength : name.length < bufsiz) (huser : KnownUser p2pdb user c)
    (hline : (downloadLine user name k).length + 1 < maxCommand)
    (loggedInUserName : Option Bytes) (stdin : Bytes) :
    Usable p2pdb loggedInUserName c user name k stdin ↔ ∀ b ∈ name, isSpace b = false := by
  have hdownload := privateOfLine_downloadLine hname huser hline loggedInUserName stdin
  constructor
  · intro husable
    rw [husable.download, eq_comm, Option.map_eq_some_iff] at hdownload
    obtain ⟨cdr, hcdr, hsent⟩ := hdownload
    have hfilename := filename_of_sscanfNameChunk (Option.join_eq_some_iff.1 hcdr)
    have heq : cdr = ⟨name, k⟩ := by
      injection hsent with _ hsent
      injection hsent
    rw [heq] at hfilename
    have hword := @nextToken_not_sep _ isSpace (name ++ blank :: decimal k.toNat)
    rw [← hfilename] at hword
    exact hword
  · intro hword
    have hblank : blank ∉ name := fun h => absurd (hword blank h) (by decide)
    refine ⟨⟨⟨name, littleEndian k⟩, ?_, rfl, ?_⟩, ?_⟩
    · rw [searchOfLine_searchLine hname, cmdSearchchunkImpl_searchLine hblank]
      -- the other line is longer
      refine lt_of_le_of_lt (Nat.add_le_add_right ?_ 1) hline
      have hsearch : (text "searchChunk ").length = 12 := by decide
      have hprivate : (text "private ").length = 8 := by decide
      have hdownload' : (text "download ").length = 9 := by decide
      simp only [searchLine, downloadLine, List.length_append, List.length_cons, hsearch,
        hprivate, hdownload']
      omega
    · exact (by simpa using parsePackedUint32_flatMap [k])
    · rw [hdownload, sscanfNameChunk_word hname.ne_nil hlength hword]
      rfl

/-- A client with a private session with yoda, on its connection 1. -/
def yodaOnline : State := linkUser demo.init 1 1

lemma knownUser_yoda : KnownUser yodaOnline (text "yoda") 1 where
  no_blank := by decide
  no_newline := by decide
  no_nul := by decide
  connected := by decide

/-- A name without white space. -/
theorem usable_notes :
    Usable yodaOnline (some (text "hans")) 1 (text "yoda") (text "notes.txt") 7 [] := by
  have hname : Registrable (text "notes.txt") :=
    ⟨by decide, by decide, by decide, by decide⟩
  have hword : ∀ b ∈ text "notes.txt", isSpace b = false := by
    have hall : (text "notes.txt").all (fun b => !isSpace b) = true := by decide
    simpa using List.all_eq_true.1 hall
  exact (usable_iff hname (by decide) knownUser_yoda (by decide) (some (text "hans")) []).2 hword

/-- A name with a space is cut at the space. -/
theorem not_usable_space :
    ¬ ∀ (p2pdb : State) (loggedInUserName : Option Bytes) (c : ConnId) (user name : Bytes)
      (k : UInt32) (stdin : Bytes), Registrable name → name.length < bufsiz →
      KnownUser p2pdb user c → (downloadLine user name k).length + 1 < maxCommand →
      Usable p2pdb loggedInUserName c user name k stdin := by
  intro h
  have hname : Registrable (text "my notes") := ⟨by decide, by decide, by decide, by decide⟩
  have hline : (downloadLine (text "yoda") (text "my notes") 7).length + 1 < maxCommand := by
    decide
  have husable := h yodaOnline none 1 (text "yoda") (text "my notes") 7 [] hname (by decide)
    knownUser_yoda hline
  have hsent := husable.download
  rw [privateOfLine_downloadLine hname knownUser_yoda hline] at hsent
  revert hsent
  decide

end EpollChat

import EpollChat.Construction.Wire
import EpollChat.Properties.ChunkCount
import EpollChat.Properties.Containment

/-!
# File transfer

A file is split into chunk files by the client that registers it, and a peer gets the chunks one
by one: it asks for a chunk, the first client answers with what is in the chunk file, and the
peer stores it.  `TransferOk` says that nothing is lost on the way: the chunk files of the first
client are the file, cut into pieces of the chunk size, and those of a peer that has fetched them
are the file as well, in whatever order and how often it asked for them.

The first client reads twice into blocks that it has asked `malloc` for, and looks at the result
neither time: into one block of the chunk size when it splits the file, and into one of the size
of the chunk file when it answers.  Where there is no block, nothing is read and an empty chunk is
written or sent.  So nothing is lost exactly if there are these blocks (`transferOk_iff`).

The codec is the one thing between the two clients that is not in the repository.  It is assumed
to be lawful: it returns what was encoded.
-/

namespace EpollChat

open Chunks Paths SignedInt

/-! ## The directory of a file -/

/-- The directory of a file is there. -/
structure HasDir (d : Disk) (datapath filename : Bytes) : Prop where
  cwd : d.entry d.cwd = some .dir
  storage : d.entry (d.cwd ++ [datapath]) = some .dir
  file : d.entry (d.cwd ++ [datapath, filename]) = some .dir

section Names

variable {datapath filename : Bytes} (hdatapath : IsName datapath) (hfilename : IsName filename)
  (hcstr : cstr filename = filename) {d d' : Disk}
include hdatapath hfilename hcstr

/-- A chunk file is in the directory of its file. -/
lemma resolve_chunkPath {k : ℕ} {place : Location} :
    d.resolve (chunkPath datapath filename k) = some place ↔
      HasDir d datapath filename ∧ place = d.cwd ++ [datapath, filename, decimal k] := by
  have hne : chunkPath datapath filename k ≠ [] := by simp [chunkPath]
  have horigin : origin d.cwd (chunkPath datapath filename k) = d.cwd := by
    rw [chunkPath, chunkDir, List.append_assoc, origin_datapath hdatapath]
  have hcomponents : components (chunkPath datapath filename k) =
      [.down datapath, .down filename, .down (decimal k)] := by
    rw [chunkPath, chunkDir, hcstr, components_append, components_append, hdatapath.components,
      hfilename.components, (isName_decimal k).components]
    rfl
  rw [Disk.resolve, if_neg hne, horigin, hcomponents]
  simp only [foldlM_lookup_cons, foldlM_lookup_nil, Step.from, List.append_assoc,
    List.cons_append, List.nil_append]
  constructor
  · rintro ⟨hcwd, hstorage, hfile, rfl⟩
    exact ⟨⟨hcwd, hstorage, hfile⟩, rfl⟩
  · rintro ⟨hdir, rfl⟩
    exact ⟨hdir.cwd, hdir.storage, hdir.file, rfl⟩

lemma stat_chunkPath (hdir : HasDir d datapath filename) (k : ℕ) :
    d.stat (chunkPath datapath filename k) =
      d.entry (d.cwd ++ [datapath, filename, decimal k]) := by
  rw [Disk.stat, (resolve_chunkPath hdatapath hfilename hcstr).2 ⟨hdir, rfl⟩]
  rfl

lemma hasDir_of_read {k : ℕ} {content : Bytes}
    (h : d.read (chunkPath datapath filename k) = some content) : HasDir d datapath filename := by
  unfold Disk.read at h
  cases hstat : d.stat (chunkPath datapath filename k) with
  | none =>
      rw [hstat] at h
      cases h
  | some e =>
      obtain ⟨place, hplace, -⟩ := Option.bind_eq_some_iff.1 hstat
      exact ((resolve_chunkPath hdatapath hfilename hcstr).1 hplace).1

/-- A write to a chunk file is read there, and changes no other chunk file. -/
lemma write_chunkPath {k : ℕ} {data : Bytes}
    (h : d.write (chunkPath datapath filename k) data = some d') :
    d'.read (chunkPath datapath filename k) = some data ∧
      ∀ j ≠ k,
        d'.read (chunkPath datapath filename j) = d.read (chunkPath datapath filename j) := by
  unfold Disk.write at h
  split at h
  · next place hplace =>
      obtain ⟨hdir, rfl⟩ := (resolve_chunkPath hdatapath hfilename hcstr).1 hplace
      split at h
      · cases h
      · obtain rfl := Option.some.inj h
        have hset : ∀ names : List Bytes, names ≠ [datapath, filename, decimal k] →
            (d.set (d.cwd ++ [datapath, filename, decimal k]) (.file data)).entry
              (d.cwd ++ names) = d.entry (d.cwd ++ names) := by
          intro names hne
          apply Function.update_of_ne
          exact fun heq => hne (List.append_cancel_left heq)
        have hdir' : HasDir (d.set (d.cwd ++ [datapath, filename, decimal k]) (.file data))
            datapath filename := by
          refine ⟨?_, ?_, ?_⟩
          · have hcwd := hset [] (by simp)
            rw [List.append_nil] at hcwd
            exact hcwd.trans hdir.cwd
          · exact (hset _ (by simp)).trans hdir.storage
          · exact (hset _ (by simp)).trans hdir.file
        constructor
        · have hentry : (d.set (d.cwd ++ [datapath, filename, decimal k]) (.file data)).entry
              (d.cwd ++ [datapath, filename, decimal k]) = some (.file data) :=
            Function.update_self _ _ _
          rw [Disk.read, stat_chunkPath hdatapath hfilename hcstr hdir']
          exact hentry ▸ rfl
        · intro j hj
          have hentry := hset [datapath, filename, decimal j] (by simp [decimal_injective.ne hj])
          rw [Disk.read, Disk.read, stat_chunkPath hdatapath hfilename hcstr hdir',
            stat_chunkPath hdatapath hfilename hcstr hdir]
          exact hentry ▸ rfl
  · cases h

/-- Where the directory is there, `mkdir` cannot make it. -/
lemma mkdir_chunkDir_of_hasDir (hdir : HasDir d datapath filename) :
    d.mkdir (chunkDir datapath filename) = none := by
  unfold Disk.mkdir
  split
  · next place hplace =>
      obtain ⟨hne, rfl⟩ := resolve_eq_locate hplace
      rw [locate_rdropWhile _ _ hne, locate_chunkDir hdatapath, hcstr, hfilename.components,
        walk_down, List.append_assoc, List.singleton_append, hdir.file, if_neg (by simp)]
  · rfl

/-- A chunk that is stored is read from its file, and the other chunks that are stored are
kept. -/
lemma writeFile_stores {chunk : UInt32} {data : Bytes}
    (h : writeFile d datapath filename chunk data = (d', true)) :
    d'.read (chunkPath datapath filename chunk.toNat) = some data ∧
      ∀ j content, j ≠ chunk.toNat → d.read (chunkPath datapath filename j) = some content →
        d'.read (chunkPath datapath filename j) = some content := by
  unfold writeFile at h
  dsimp only at h
  split at h
  · next written hwrite =>
      obtain rfl : written = d' := congrArg Prod.fst h
      obtain ⟨hself, hother⟩ := write_chunkPath hdatapath hfilename hcstr hwrite
      refine ⟨hself, fun j content hj hread => ?_⟩
      have hdir := hasDir_of_read hdatapath hfilename hcstr hread
      rw [hother j hj, mkdir_chunkDir_of_hasDir hdatapath hfilename hcstr hdir, Option.getD_none,
        hread]
  · cases h

end Names

/-- A path that ends in something else has no slashes at its end. -/
lemma rdropWhile_chunkDir {datapath filename : Bytes} (hne : filename ≠ [])
    (hslash : slash ∉ filename) (hcstr : cstr filename = filename) :
    (chunkDir datapath filename).rdropWhile (· = slash) = chunkDir datapath filename := by
  obtain ⟨front, b, rfl⟩ := List.eq_nil_or_concat' filename |>.resolve_left hne
  have hb : b ≠ slash := by
    rintro rfl
    exact hslash (by simp)
  rw [chunkDir, hcstr, ← List.cons_append, ← List.append_assoc]
  exact List.rdropWhile_concat_neg _ _ _ (by simpa using hb)

/-- Only a name can be made a directory of the storage directory. -/
lemma isName_of_mkdir {d d' : Disk} {datapath filename : Bytes} (hdatapath : IsName datapath)
    (hne : filename ≠ []) (hslash : slash ∉ filename) (hcstr : cstr filename = filename)
    (h : d.mkdir (chunkDir datapath filename) = some d') : IsName filename := by
  have hcomponents : components (chunkDir datapath filename) =
      [.down datapath, component filename] := by
    rw [chunkDir, hcstr, components_append, hdatapath.components, components,
      List.splitOn_eq_singleton hslash]
    rfl
  have hpath : chunkDir datapath filename ≠ [] := by simp [chunkDir]
  have horigin : origin d.cwd (chunkDir datapath filename) = d.cwd := by
    rw [chunkDir, origin_datapath hdatapath]
  unfold Disk.mkdir at h
  rw [rdropWhile_chunkDir hne hslash hcstr] at h
  split at h
  · next place hplace =>
      rw [Disk.resolve, if_neg hpath, hcomponents, horigin] at hplace
      simp only [foldlM_lookup_cons, foldlM_lookup_nil, Step.from] at hplace
      obtain ⟨hcwd, hstorage, rfl⟩ := hplace
      -- at `.` and at `..` there is a directory
      refine ⟨hne, fun hdot => ?_, fun hdotdot => ?_, hslash⟩
      · rw [hdot, show component (text ".") = .stay by decide] at h
        simp [hstorage] at h
      · rw [hdotdot, show component (text "..") = .up by decide] at h
        simp [hcwd] at h
  · cases h

/-! ## The response with a chunk -/

/-- The response with a chunk is parsed as what it was made of. -/
lemma decodeResponse_chunk {ac : Achelper} (hac : ac.Lawful) {filename data : Bytes}
    (chunk : UInt32) (loggedInUserName : Option Bytes) (hcstr : cstr filename = filename)
    (hsize : filename.length + data.length + 45 < 2 ^ 64) :
    decodeResponse ac (encodeIMResponseToBytes ac
        (getChunkDataResponse ac loggedInUserName filename chunk (some data))) =
      some (.chunkDataResponse filename chunk data) := by
  have hchunk : chunk.toNat < 2 ^ 32 := chunk.toNat_lt
  have hbytes : encodeIMResponseToBytes ac
      (getChunkDataResponse ac loggedInUserName filename chunk (some data)) =
        ac.encodeProtobufMsg [⟨1, .varint 6⟩, ⟨2, .varint 1⟩, ⟨3, .bytes (ac.encodeProtobufMsg
          [⟨1, .bytes (cstr filename)⟩, ⟨2, .varint chunk.toNat⟩, ⟨3, .bytes data⟩])⟩] := rfl
  have hinner := hac.decode
    [⟨1, .bytes filename⟩, ⟨2, .varint chunk.toNat⟩, ⟨3, .bytes data⟩] (by
      simp only [List.forall_mem_cons, List.not_mem_nil, IsEmpty.forall_iff, implies_true, and_true]
      exact ⟨encodable_bytes (by decide) (by omega), encodable_varint (by decide) (by omega),
        encodable_bytes (by decide) (by omega)⟩)
  have hvalue := hac.length_le
    [⟨1, .bytes filename⟩, ⟨2, .varint chunk.toNat⟩, ⟨3, .bytes data⟩]
  simp only [List.map_cons, List.map_nil, List.sum_cons, List.sum_nil, FieldValue.size] at hvalue
  rw [hbytes, hcstr]
  generalize ac.encodeProtobufMsg
    [⟨1, .bytes filename⟩, ⟨2, .varint chunk.toNat⟩, ⟨3, .bytes data⟩] = value at hinner hvalue ⊢
  have houter := hac.decodeWithNFields [⟨1, .varint 6⟩, ⟨2, .varint 1⟩, ⟨3, .bytes value⟩] (by
    simp only [List.forall_mem_cons, List.not_mem_nil, IsEmpty.forall_iff, implies_true, and_true]
    exact ⟨encodable_varint (by decide) (by decide), encodable_varint (by decide) (by decide),
      encodable_bytes (by decide) (by omega)⟩)
  have hframe : parseIMResponseFromProtobufMsg
      [⟨1, .varint 6⟩, ⟨2, .varint 1⟩, ⟨3, .bytes value⟩] = some ⟨6, true, value⟩ := rfl
  have hparse : parseResponse ac ⟨6, true, value⟩ =
      some (.chunkDataResponse filename chunk data) := by
    simp [parseResponse, hinner, bytesField, uint32Field, findProtobufField]
  have hthree :
      ([⟨1, .varint 6⟩, ⟨2, .varint 1⟩, ⟨3, .bytes value⟩] : ProtobufMessage).length = 3 := rfl
  rw [hthree] at houter
  exact Option.bind_eq_some_iff.2
    ⟨_, houter, Option.bind_eq_some_iff.2 ⟨_, hframe, hparse⟩⟩

/-! ## Splitting and fetching -/

/-- What a registration is of: a file that is not empty, of a name without slashes, in chunks of a
positive size, less than `2 ^ 32` of them.  Its name comes from a buffer of 8192 bytes, and its
size and the chunk size are of type `long`. -/
structure Registration.Proper (r : Registration) : Prop where
  name_ne : r.filename ≠ []
  name_slash : slash ∉ r.filename
  name_cstr : cstr r.filename = r.filename
  name_length : r.filename.length < 8192
  content_ne : r.content ≠ []
  content_length : r.content.length < 2 ^ 63
  size_pos : 0 < r.chunksize
  size_long : r.chunksize < 2 ^ 63
  count : r.nchunks = chunkCount r.content.length r.chunksize
  few : r.nchunks < 2 ^ 32

/-- A regular file is not found under a path that ends in a slash. -/
lemma rtakeWhile_ne_nil_of_stat {d : Disk} {filepath content : Bytes}
    (h : d.stat filepath = some (.file content)) : filepath.rtakeWhile (· ≠ slash) ≠ [] := by
  intro hnil
  obtain ⟨place, hplace, hentry⟩ := Option.bind_eq_some_iff.1 h
  have hne := (resolve_eq_locate hplace).1
  obtain ⟨front, b, rfl⟩ := (List.eq_nil_or_concat' filepath).resolve_left hne
  rw [List.rtakeWhile_concat] at hnil
  split at hnil
  · exact absurd hnil (by simp)
  · next hslash =>
      obtain rfl : b = slash := by simpa using hslash
      -- the last step stays, and so the place is a directory
      have hcomponents : components (front ++ [slash]) = components front ++ [.stay] :=
        components_append front []
      rw [Disk.resolve, if_neg hne, hcomponents, List.foldlM_append] at hplace
      obtain ⟨before, -, hlast⟩ := Option.bind_eq_some_iff.1 hplace
      obtain ⟨hdir, hstay⟩ := foldlM_lookup_cons.1 hlast
      obtain rfl : place = before := foldlM_lookup_nil.1 hstay
      rw [hdir] at hentry
      cases hentry

/-- What the questions of `cmd_regfile_impl` lead to is proper, if its counts agree. -/
lemma proper_of_chooseRegistration {d : Disk} {stdin : List Bytes} {r : Registration}
    {malloc : ℕ → Bool} {datapath : Bytes} (h : chooseRegistration d stdin = some (some r))
    (hlines : ∀ line ∈ stdin, line.length < 8192)
    (hfiles : ∀ place content, d.entry place = some (.file content) → content.length < 2 ^ 63)
    (hok : CountOk malloc datapath r) : r.Proper := by
  obtain ⟨filename, content, inbuffer, lines, rest, hmem, hchoose, rfl⟩ :=
    chooseRegistration_eq_some h
  obtain ⟨hcontent, line, hline, hstat, rfl⟩ := chooseFile_eq_some hchoose
  have hsuffix := List.rtakeWhile_suffix (· ≠ slash) (cstr line).dropLast
  have hsub : ∀ b ∈ (cstr line).dropLast.rtakeWhile (· ≠ slash), b ∈ cstr line := fun b hb =>
    List.mem_of_mem_dropLast (hsuffix.mem hb)
  have hlength : ((cstr line).dropLast.rtakeWhile (· ≠ slash)).length ≤ line.length := by
    have hcstr : (cstr line).length ≤ line.length := (List.takeWhile_prefix _).length_le
    have hle := hsuffix.length_le
    rw [List.length_dropLast] at hle
    omega
  refine
    { name_ne := rtakeWhile_ne_nil_of_stat hstat
      name_slash := fun hslash => by simpa using List.mem_rtakeWhile_imp hslash
      name_cstr := ?_
      name_length := hlength.trans_lt (hlines line (hmem line hline))
      content_ne := hcontent
      content_length := ?_
      size_pos := hok.positive
      size_long := ?_
      count := rfl
      few := ?_ }
  · apply List.takeWhile_eq_self_iff.2
    intro b hb
    have hnonzero := List.mem_takeWhile_imp (hsub b hb)
    simpa using hnonzero
  · obtain ⟨place, -, hentry⟩ := Option.bind_eq_some_iff.1 hstat
    exact hfiles place content hentry
  · show chunkSize inbuffer < 2 ^ 63
    rw [chunkSize_eq]
    split
    · next htyped => exact htyped.1.2
    · decide
  · rw [← hok.sent, toNat_request]
    exact Int.emod_lt_of_pos _ (by decide)

/-- The file, cut into chunks. -/
def Registration.pieces (r : Registration) : List Bytes :=
  chop r.chunksize.toNat r.nchunks.toNat r.content

namespace Registration.Proper

variable {r : Registration} (hr : r.Proper)
include hr

/-- The pieces cover the file. -/
lemma covers : Covers r.chunksize.toNat r.nchunks.toNat r.content.length := by
  have hleast : IsLeast {n : ℤ | (r.content.length : ℤ) ≤ n * r.chunksize} r.nchunks :=
    hr.count ▸ isLeast_chunkCount (Int.natCast_nonneg _) hr.size_pos
  have hlength := List.length_pos_iff.2 hr.content_ne
  have hsize := hr.size_pos
  have hroom : (r.content.length : ℤ) ≤ r.nchunks * r.chunksize := hleast.1
  have hneeded : (r.nchunks - 1) * r.chunksize < r.content.length := by
    by_contra hnot
    have hle := hleast.2 (not_lt.1 hnot)
    omega
  have hpos : 0 < r.nchunks := by
    by_contra hnot
    have hmul := Int.mul_nonpos_of_nonpos_of_nonneg (not_lt.1 hnot) hsize.le
    omega
  obtain ⟨n, hn⟩ := Int.eq_ofNat_of_zero_le hpos.le
  obtain ⟨c, hc⟩ := Int.eq_ofNat_of_zero_le hsize.le
  rw [hn, hc] at hroom hneeded
  rw [hn] at hpos
  refine ⟨?_, ?_⟩
  · rw [hn, hc, Int.toNat_natCast, Int.toNat_natCast]
    exact_mod_cast hroom
  · rw [hn, hc, Int.toNat_natCast, Int.toNat_natCast]
    have hcast : ((n - 1 : ℕ) : ℤ) = (n : ℤ) - 1 := by omega
    rw [← hcast] at hneeded
    exact_mod_cast hneeded

/-- What is written is the chunks, as far as there is a block to read them into. -/
lemma chunks_eq (malloc : ℕ → Bool) :
    r.chunks malloc = r.pieces.map (readInto malloc r.chunksize.toNat) := by
  have hsize := hr.size_pos
  have hlong := hr.size_long
  rw [Registration.chunks, Registration.pieces, Int.emod_eq_of_lt hsize.le (by omega)]

/-- Only the last chunk may be shorter than the chunk size, and the chunks are the file. -/
lemma pieces_cut :
    r.pieces.flatten = r.content ∧ ∀ i piece, r.pieces[i]? = some piece →
      (i + 1 < r.nchunks.toNat → (piece.length : ℤ) = r.chunksize) ∧ 0 < piece.length ∧
        (piece.length : ℤ) ≤ r.chunksize := by
  have hsize := hr.size_pos
  refine ⟨hr.covers.flatten, fun i piece hpiece => ?_⟩
  obtain ⟨hfull, hpos, hle⟩ := hr.covers.length_piece hpiece
  refine ⟨fun hi => ?_, hpos, by omega⟩
  have hlength := hfull hi
  omega

lemma ne_nil_of_mem_pieces {piece : Bytes} (h : piece ∈ r.pieces) : piece ≠ [] := by
  obtain ⟨i, hi, rfl⟩ := List.mem_iff_getElem.1 h
  exact List.length_pos_iff.1 (hr.pieces_cut.2 i _ (List.getElem?_eq_getElem hi)).2.1

end Registration.Proper

/-- The chunk of a number. -/
def Registration.piece (r : Registration) (i : ℕ) : Bytes := r.pieces.getD i []

lemma length_pieces (r : Registration) : r.pieces.length = r.nchunks.toNat := length_chop _ _ _

lemma map_piece (r : Registration) (f : Bytes → Bytes) :
    (List.range r.nchunks.toNat).map (fun i => f (r.piece i)) = r.pieces.map f := by
  have hlen := length_pieces r
  apply List.ext_getElem
  · rw [List.length_map, List.length_range, List.length_map, hlen]
  · intro i hi hi'
    rw [List.length_map] at hi'
    simp [Registration.piece, hi']

lemma getElem?_pieces (r : Registration) {i : ℕ} (hi : i < r.nchunks.toNat) :
    r.pieces[i]? = some (r.piece i) := by
  have hlen := length_pieces r
  rw [Registration.piece, List.getD_eq_getElem?_getD, List.getElem?_eq_getElem (by omega)]
  rfl

/-- The loop writes the chunk of a number to the file of this number. -/
lemma writes_eq {r : Registration} (hr : r.Proper) (malloc : ℕ → Bool) (datapath : Bytes) :
    r.writes malloc datapath = (List.range r.nchunks.toNat).map fun i =>
      (chunkPath datapath r.filename i, readInto malloc r.chunksize.toNat (r.piece i)) := by
  have hlen := length_pieces r
  rw [Registration.writes, hr.chunks_eq]
  apply List.ext_getElem
  · rw [List.length_map, List.length_zipIdx, List.length_map, List.length_map, List.length_range,
      hlen]
  · intro i hi hi'
    rw [List.length_map, List.length_zipIdx, List.length_map] at hi
    simp [Registration.piece, hi]

/-- All the chunk files are there, if each one is. -/
lemma chunkFiles_eq {d : Disk} {datapath filename : Bytes} {n : ℕ} {content : ℕ → Bytes}
    (h : ∀ i < n, d.read (chunkPath datapath filename i) = some (content i)) :
    d.chunkFiles datapath filename n = some ((List.range n).map content) := by
  have hread : ∀ l : List ℕ, (∀ i ∈ l, i < n) →
      l.mapM (fun i => d.read (chunkPath datapath filename i)) = some (l.map content) := by
    intro l hl
    induction l with
    | nil => rfl
    | cons i l ih =>
        rw [List.forall_mem_cons] at hl
        rw [List.mapM_cons, h i hl.1, ih hl.2]
        rfl
  rw [Disk.chunkFiles, hread _ fun i hi => List.mem_range.1 hi]

section Stores

variable {datapath : Bytes} {r : Registration} (hr : r.Proper)
include hr

/-- After the split every chunk file holds what was read of its chunk. -/
lemma read_split (hdatapath : IsName datapath) {malloc : ℕ → Bool} {d d' : Disk}
    (h : r.split malloc d datapath = some d') :
    IsName r.filename ∧ ∀ i < r.nchunks.toNat,
      d'.read (chunkPath datapath r.filename i) =
        some (readInto malloc r.chunksize.toNat (r.piece i)) := by
  obtain ⟨made, hmkdir, hwrites⟩ := Option.bind_eq_some_iff.1 h
  have hfilename := isName_of_mkdir hdatapath hr.name_ne hr.name_slash hr.name_cstr hmkdir
  rw [writes_eq hr, List.foldlM_map] at hwrites
  refine ⟨hfilename, fun i hi => ?_⟩
  have hcollects : ∀ k ∈ List.range r.nchunks.toNat,
      Collects (fun (d : Disk) i => d.read (chunkPath datapath r.filename i)) id
        (fun i => readInto malloc r.chunksize.toNat (r.piece i))
        (fun d i => d.write (chunkPath datapath r.filename i)
          (readInto malloc r.chunksize.toNat (r.piece i))) k := by
    intro k _
    refine ⟨fun s s' hwrite => ?_, fun s s' j b hwrite hj hread => ?_⟩
    · exact (write_chunkPath hdatapath hfilename hr.name_cstr hwrite).1
    · rw [(write_chunkPath hdatapath hfilename hr.name_cstr hwrite).2 j hj, hread]
  exact collect hcollects hwrites (List.mem_range.2 hi)

/-- A chunk that is asked for is stored as far as there is a block to read it into. -/
lemma fetchChunk_eq {ac : Achelper} (hac : ac.Lawful) {d : Disk} {k : UInt32}
    (hk : k.toNat < r.nchunks.toNat)
    (hstored : d.read (chunkPath datapath r.filename k.toNat) = some (r.piece k.toNat))
    (malloc : ℕ → Bool) (loggedInUserName : Option Bytes) (datapath' : Bytes) (s s' : Disk) :
    fetchChunk ac malloc loggedInUserName d datapath r.filename datapath' s k = some s' ↔
      writeFile s datapath' r.filename k
        (readInto malloc (r.piece k.toNat).length (r.piece k.toNat)) = (s', true) := by
  have hlength := (hr.pieces_cut.2 _ _ (getElem?_pieces r hk)).2.2
  have hlong := hr.size_long
  have hshort := hr.name_length
  have hread : (readInto malloc (r.piece k.toNat).length (r.piece k.toNat)).length ≤
      (r.piece k.toNat).length := by
    unfold readInto
    split
    · exact le_rfl
    · exact Nat.zero_le _
  have hdecode := @decodeResponse_chunk ac hac r.filename
    (readInto malloc (r.piece k.toNat).length (r.piece k.toNat)) k loggedInUserName
    hr.name_cstr (by omega)
  unfold fetchChunk storedChunk
  rw [hstored, Option.map_some]
  dsimp only [Option.bind_eq_bind]
  rw [hdecode, Option.bind_some]
  dsimp only
  cases hwritten : writeFile s datapath' r.filename k
      (readInto malloc (r.piece k.toNat).length (r.piece k.toNat)) with
  | mk written opened => cases opened <;> simp

/-- A chunk that is fetched is stored, and the other chunks are kept. -/
lemma collects_fetchChunk {ac : Achelper} (hac : ac.Lawful) (hfilename : IsName r.filename)
    {datapath' : Bytes} (hdatapath' : IsName datapath') {d : Disk}
    (hstored : ∀ i < r.nchunks.toNat,
      d.read (chunkPath datapath r.filename i) = some (r.piece i))
    (malloc : ℕ → Bool) (loggedInUserName : Option Bytes) {k : UInt32}
    (hk : k.toNat < r.nchunks.toNat) :
    Collects (fun (d : Disk) i => d.read (chunkPath datapath' r.filename i)) UInt32.toNat
      (fun i => readInto malloc (r.piece i).length (r.piece i))
      (fetchChunk ac malloc loggedInUserName d datapath r.filename datapath') k := by
  have hwrite := fetchChunk_eq hr hac hk (hstored _ hk) malloc loggedInUserName datapath'
  refine ⟨fun s s' h => ?_, fun s s' j b h hj hread => ?_⟩
  · exact (writeFile_stores hdatapath' hfilename hr.name_cstr ((hwrite s s').1 h)).1
  · exact (writeFile_stores hdatapath' hfilename hr.name_cstr ((hwrite s s').1 h)).2 j b hj hread

end Stores

/-! ## A peer with room -/

/-- The storage directory is there, and no directory is in the way of a chunk file. -/
structure Roomy (d : Disk) (datapath filename : Bytes) : Prop where
  cwd : d.entry d.cwd = some .dir
  storage : d.entry (d.cwd ++ [datapath]) = some .dir
  file : d.entry (d.cwd ++ [datapath, filename]) = none ∨ HasDir d datapath filename
  chunk : ∀ k, d.entry (d.cwd ++ [datapath, filename, decimal k]) ≠ some .dir

section Room

variable {datapath filename : Bytes} {d : Disk}

/-- Another entry that is made below the storage directory does not matter. -/
lemma Roomy.set (h : Roomy d datapath filename) {names : List Bytes} (hnames : 1 < names.length)
    {e : Entry} (hfile : d.entry (d.cwd ++ [datapath, filename]) = none →
      names = [datapath, filename] ∧ e = .dir)
    (hkeep : names = [datapath, filename] → e = .dir)
    (hchunk : ∀ k, names = [datapath, filename, decimal k] → e ≠ .dir) :
    Roomy (d.set (d.cwd ++ names) e) datapath filename := by
  have hset : ∀ other : List Bytes, (d.set (d.cwd ++ names) e).entry (d.cwd ++ other) =
      if other = names then some e else d.entry (d.cwd ++ other) := by
    intro other
    show Function.update d.entry (d.cwd ++ names) (some e) (d.cwd ++ other) = _
    rw [Function.update_apply]
    exact if_congr (List.append_right_inj d.cwd) rfl rfl
  have hcwd : (d.set (d.cwd ++ names) e).entry d.cwd = some .dir := by
    have hnil := hset []
    rw [List.append_nil, if_neg (by rintro rfl; simp at hnames)] at hnil
    exact hnil.trans h.cwd
  have hstorage : (d.set (d.cwd ++ names) e).entry (d.cwd ++ [datapath]) = some .dir := by
    rw [hset, if_neg (by rintro rfl; simp at hnames)]
    exact h.storage
  refine ⟨hcwd, hstorage, .inr ⟨hcwd, hstorage, ?_⟩, fun k => ?_⟩
  · show (d.set (d.cwd ++ names) e).entry (d.cwd ++ [datapath, filename]) = some .dir
    rw [hset]
    split
    · next heq => rw [hkeep heq.symm]
    · next hne =>
        rcases h.file with hnone | hdir
        · exact absurd (hfile hnone).1.symm hne
        · exact hdir.file
  · show (d.set (d.cwd ++ names) e).entry (d.cwd ++ [datapath, filename, decimal k]) ≠ some .dir
    rw [hset]
    split
    · next heq => exact fun hdir => hchunk k heq.symm (Option.some.inj hdir)
    · exact h.chunk k

variable (hdatapath : IsName datapath) (hfilename : IsName filename)
  (hcstr : cstr filename = filename)
include hdatapath hfilename hcstr

/-- `mkdir` makes the directory of the file, if it is not there. -/
lemma Roomy.mkdir (h : Roomy d datapath filename) :
    Roomy ((d.mkdir (chunkDir datapath filename)).getD d) datapath filename ∧
      HasDir ((d.mkdir (chunkDir datapath filename)).getD d) datapath filename := by
  rcases h.file with hnone | hdir
  · have hplace : d.resolve (chunkDir datapath filename) =
        some (d.cwd ++ [datapath, filename]) := by
      have hcomponents : components (chunkDir datapath filename) =
          [.down datapath, .down filename] := by
        rw [chunkDir, hcstr, components_append, hdatapath.components, hfilename.components]
        rfl
      have horigin : origin d.cwd (chunkDir datapath filename) = d.cwd := by
        rw [chunkDir, origin_datapath hdatapath]
      rw [Disk.resolve, if_neg (by simp [chunkDir]), hcomponents, horigin]
      simp only [foldlM_lookup_cons, foldlM_lookup_nil, Step.from, List.append_assoc,
        List.cons_append, List.nil_append]
      exact ⟨h.cwd, h.storage, trivial⟩
    have hmade : d.mkdir (chunkDir datapath filename) =
        some (d.set (d.cwd ++ [datapath, filename]) .dir) := by
      rw [Disk.mkdir, rdropWhile_chunkDir hfilename.ne_nil hfilename.no_slash hcstr, hplace]
      exact if_pos hnone
    have hroomy : Roomy (d.set (d.cwd ++ [datapath, filename]) .dir) datapath filename :=
      h.set (by simp) (fun _ => ⟨rfl, rfl⟩) (fun _ => rfl) fun k heq => by simp at heq
    rw [hmade, Option.getD_some]
    refine ⟨hroomy, hroomy.cwd, hroomy.storage, ?_⟩
    exact Function.update_self _ _ _
  · rw [mkdir_chunkDir_of_hasDir hdatapath hfilename hcstr hdir]
    exact ⟨h, hdir⟩

/-- Where there is room, a chunk is stored. -/
lemma Roomy.writeFile (h : Roomy d datapath filename) (chunk : UInt32) (data : Bytes) :
    ∃ d', EpollChat.writeFile d datapath filename chunk data = (d', true) ∧
      Roomy d' datapath filename := by
  obtain ⟨hroomy, hdir⟩ := h.mkdir hdatapath hfilename hcstr
  unfold EpollChat.writeFile
  generalize (d.mkdir (chunkDir datapath filename)).getD d = made at hroomy hdir
  have hplace := (resolve_chunkPath hdatapath hfilename hcstr (k := chunk.toNat)).2 ⟨hdir, rfl⟩
  have hwrite : made.write (chunkPath datapath filename chunk.toNat) data = some
      (made.set (made.cwd ++ [datapath, filename, decimal chunk.toNat]) (.file data)) := by
    rw [Disk.write, hplace]
    exact if_neg (hroomy.chunk chunk.toNat)
  dsimp only
  rw [hwrite]
  refine ⟨_, rfl, hroomy.set (by simp) (fun hnone => ?_) (fun heq => by simp at heq) ?_⟩
  · rw [hdir.file] at hnone
    cases hnone
  · rintro k - hcase
    cases hcase

end Room

/-- A storage directory with nothing in it. -/
def emptyStorage (time : ℤ) (pid : ℕ) : Disk where
  cwd := [text "home"]
  entry place :=
    if place = [] ∨ place = [text "home"] ∨ place = [text "home", datapathAt time pid] then
      some .dir
    else none

lemma roomy_emptyStorage (time : ℤ) (pid : ℕ) (filename : Bytes) :
    Roomy (emptyStorage time pid) (datapathAt time pid) filename := by
  refine ⟨?_, ?_, .inl ?_, fun k => ?_⟩ <;> simp [emptyStorage]

/-- A peer with room can fetch every chunk of a file. -/
lemma exists_fetch {ac : Achelper} (hac : ac.Lawful) {r : Registration} (hr : r.Proper)
    (hfilename : IsName r.filename) {datapath datapath' : Bytes} (hdatapath' : IsName datapath')
    {d : Disk} (hstored : ∀ i < r.nchunks.toNat,
      d.read (chunkPath datapath r.filename i) = some (r.piece i))
    (malloc : ℕ → Bool) (loggedInUserName : Option Bytes) {ks : List UInt32}
    (hks : ∀ k ∈ ks, k.toNat < r.nchunks.toNat) {p : Disk}
    (hroomy : Roomy p datapath' r.filename) :
    ∃ p', ks.foldlM (fetchChunk ac malloc loggedInUserName d datapath r.filename datapath') p =
      some p' := by
  induction ks generalizing p with
  | nil => exact ⟨p, rfl⟩
  | cons k ks ih =>
      rw [List.forall_mem_cons] at hks
      obtain ⟨written, hwrite, hroomy'⟩ := hroomy.writeFile hdatapath' hfilename hr.name_cstr k
        (readInto malloc (r.piece k.toNat).length (r.piece k.toNat))
      obtain ⟨p', hp'⟩ := ih hks.2 hroomy'
      refine ⟨p', ?_⟩
      rw [List.foldlM_cons, (fetchChunk_eq hr hac hks.1 (hstored _ hks.1) malloc loggedInUserName
        datapath' p written).2 hwrite]
      exact hp'

/-! ## The transfer -/

/-- Blocks are missing for none of the pieces, if what is read of them is all of them. -/
lemma granted_of_length {malloc : ℕ → Bool} {l : List Bytes} (hne : ∀ piece ∈ l, piece ≠ [])
    (h : l.flatten.length ≤
      (l.map fun piece => readInto malloc piece.length piece).flatten.length) :
    ∀ piece ∈ l, malloc piece.length = true := by
  have hle : ∀ piece, (readInto malloc piece.length piece).length ≤ piece.length := fun piece => by
    unfold readInto
    split
    · exact le_rfl
    · exact Nat.zero_le _
  have hsum : ∀ l : List Bytes, (l.map fun piece =>
      readInto malloc piece.length piece).flatten.length ≤ l.flatten.length := by
    intro l
    induction l with
    | nil => exact le_rfl
    | cons piece l ih =>
        rw [List.map_cons, List.flatten_cons, List.flatten_cons, List.length_append,
          List.length_append]
        exact Nat.add_le_add (hle piece) ih
  induction l with
  | nil => exact fun _ h => absurd h List.not_mem_nil
  | cons piece l ih =>
      rw [List.forall_mem_cons] at hne ⊢
      rw [List.map_cons, List.flatten_cons, List.flatten_cons, List.length_append,
        List.length_append] at h
      have hfirst := hle piece
      have hrest := hsum l
      refine ⟨?_, ih hne.2 (by omega)⟩
      by_contra hmissing
      have hnone : (readInto malloc piece.length piece).length = 0 := by
        rw [readInto, if_neg hmissing]
        rfl
      have hpos := List.length_pos_iff.2 hne.1
      omega

/-- **Nothing is lost in a transfer** of a file that has been split on the disk `d`, when the first
client answers with the blocks that `malloc` grants. -/
structure TransferOk (ac : Achelper) (malloc : ℕ → Bool) (r : Registration) (datapath : Bytes)
    (d : Disk) : Prop where
  /-- The server is told the number of the chunk files. -/
  sent : (r.request.chunks.toNat : ℤ) = r.nchunks
  /-- The chunk files are the file, cut into pieces of the chunk size of which only the last may be
  shorter, but not empty. -/
  files : ∃ pieces, d.chunkFiles datapath r.filename r.nchunks.toNat = some pieces ∧
    pieces.flatten = r.content ∧ ∀ i piece, pieces[i]? = some piece →
      (i + 1 < r.nchunks.toNat → (piece.length : ℤ) = r.chunksize) ∧ 0 < piece.length ∧
        (piece.length : ℤ) ≤ r.chunksize
  /-- A peer that has fetched every chunk, in any order and with repetitions, has the file. -/
  fetched : ∀ (loggedInUserName : Option Bytes) (time : ℤ) (pid : ℕ) (p p' : Disk)
    (ks : List UInt32), (∀ k ∈ ks, k.toNat < r.nchunks.toNat) →
    (∀ i < r.nchunks.toNat, ∃ k ∈ ks, k.toNat = i) →
    ks.foldlM (fetchChunk ac malloc loggedInUserName d datapath r.filename
        (datapathAt time pid)) p = some p' →
      ∃ pieces, p'.chunkFiles (datapathAt time pid) r.filename r.nchunks.toNat = some pieces ∧
        pieces.flatten = r.content

/-- After a fetch of every chunk, the peer's chunk files are what was read of the chunks. -/
lemma chunkFiles_fetched {ac : Achelper} (hac : ac.Lawful) {r : Registration} (hr : r.Proper)
    (hfilename : IsName r.filename) {datapath : Bytes} {d : Disk}
    (hstored : ∀ i < r.nchunks.toNat,
      d.read (chunkPath datapath r.filename i) = some (r.piece i))
    {malloc : ℕ → Bool} {loggedInUserName : Option Bytes} {time : ℤ} {pid : ℕ} {p p' : Disk}
    {ks : List UInt32} (hbelow : ∀ k ∈ ks, k.toNat < r.nchunks.toNat)
    (hall : ∀ i < r.nchunks.toNat, ∃ k ∈ ks, k.toNat = i)
    (hfetch : ks.foldlM (fetchChunk ac malloc loggedInUserName d datapath r.filename
      (datapathAt time pid)) p = some p') :
    p'.chunkFiles (datapathAt time pid) r.filename r.nchunks.toNat =
      some (r.pieces.map fun piece => readInto malloc piece.length piece) := by
  rw [← map_piece]
  apply chunkFiles_eq
  intro i hi
  obtain ⟨k, hk, rfl⟩ := hall i hi
  exact collect (fun k hk => collects_fetchChunk hr hac hfilename (isName_datapathAt time pid)
    hstored malloc loggedInUserName (hbelow k hk)) hfetch hk

/-- **File transfer preserves content exactly if the blocks are granted**: the one of the chunk size
that the file is split with, and one of the length of every chunk that answers are made with. -/
theorem transferOk_iff {ac : Achelper} (hac : ac.Lawful) {r : Registration} (hr : r.Proper)
    (malloc malloc' : ℕ → Bool) (time : ℤ) (pid : ℕ) {d d' : Disk}
    (hsplit : r.split malloc d (datapathAt time pid) = some d') :
    TransferOk ac malloc' r (datapathAt time pid) d' ↔
      malloc r.chunksize.toNat = true ∧ ∀ piece ∈ r.pieces, malloc' piece.length = true := by
  obtain ⟨hfilename, hwritten⟩ := read_split hr (isName_datapathAt time pid) hsplit
  have hfiles : d'.chunkFiles (datapathAt time pid) r.filename r.nchunks.toNat =
      some (r.pieces.map (readInto malloc r.chunksize.toNat)) := by
    rw [← map_piece]
    exact chunkFiles_eq hwritten
  have hstored : malloc r.chunksize.toNat = true → ∀ i < r.nchunks.toNat,
      d'.read (chunkPath (datapathAt time pid) r.filename i) = some (r.piece i) := by
    intro hblock i hi
    rw [hwritten i hi, readInto, if_pos hblock]
  constructor
  · intro h
    have hblock : malloc r.chunksize.toNat = true := by
      by_contra hnull
      obtain ⟨pieces, hpieces, hflatten, -⟩ := h.files
      obtain rfl := Option.some.inj (hfiles.symm.trans hpieces)
      refine hr.content_ne (hflatten.symm.trans (List.flatten_eq_nil_iff.2 fun piece hpiece => ?_))
      obtain ⟨_, -, rfl⟩ := List.mem_map.1 hpiece
      exact if_neg hnull
    refine ⟨hblock, granted_of_length (fun _ => hr.ne_nil_of_mem_pieces) ?_⟩
    -- a peer with room that fetches the chunks in their order
    have hbelow : ∀ k ∈ (List.range r.nchunks.toNat).map UInt32.ofNat,
        k.toNat < r.nchunks.toNat := by
      intro k hk
      obtain ⟨i, hi, rfl⟩ := List.mem_map.1 hk
      exact (Nat.mod_le _ _).trans_lt (List.mem_range.1 hi)
    have hall : ∀ i < r.nchunks.toNat,
        ∃ k ∈ (List.range r.nchunks.toNat).map UInt32.ofNat, k.toNat = i := by
      intro i hi
      have hfew := hr.few
      refine ⟨_, List.mem_map_of_mem (List.mem_range.2 hi), ?_⟩
      rw [UInt32.toNat_ofNat', Nat.mod_eq_of_lt (by omega)]
    obtain ⟨p', hfetch⟩ := exists_fetch hac hr hfilename (isName_datapathAt 0 0) (hstored hblock)
      malloc' none hbelow (roomy_emptyStorage 0 0 r.filename)
    obtain ⟨pieces, hpieces, hflatten⟩ := h.fetched none 0 0 _ _ _ hbelow hall hfetch
    rw [chunkFiles_fetched hac hr hfilename (hstored hblock) hbelow hall hfetch] at hpieces
    rw [Option.some.inj hpieces, hflatten, hr.pieces_cut.1]
  · rintro ⟨hblock, hblocks⟩
    have hall : r.pieces.map (readInto malloc r.chunksize.toNat) = r.pieces :=
      List.map_id'' (fun piece => if_pos hblock) _
    rw [hall] at hfiles
    refine ⟨?_, ⟨_, hfiles, hr.pieces_cut⟩, ?_⟩
    · have hpos := hr.covers.pos
      rw [toNat_request, Int.emod_eq_of_lt (by omega) hr.few]
    · intro loggedInUserName time' pid' p p' ks hbelow hevery hfetch
      refine ⟨_, chunkFiles_fetched hac hr hfilename (hstored hblock) hbelow hevery hfetch, ?_⟩
      have hread : r.pieces.map (fun piece => readInto malloc' piece.length piece) = r.pieces := by
        refine (List.map_congr_left fun piece hpiece => ?_).trans (List.map_id _)
        exact if_pos (hblocks piece hpiece)
      rw [hread]
      exact hr.pieces_cut.1

/-- The file `a`, in chunks of two bytes. -/
def helloFile : Registration := fileRegistration (text "a") (text "hello") (text "2\n")

/-- The three chunks are fetched, the last of them twice. -/
theorem transferOk_iff_hello :
    ∃ d' p', helloFile.split (· < 2 ^ 47) (emptyStorage 1 2) (datapathAt 1 2) = some d' ∧
      [2, 0, 2, 1].foldlM (fetchChunk protobufWire (· < 2 ^ 47) (some (text "hans")) d'
        (datapathAt 1 2) (text "a") (datapathAt 3 4)) (emptyStorage 3 4) = some p' ∧
      ∃ pieces, p'.chunkFiles (datapathAt 3 4) (text "a") 3 = some pieces ∧
        pieces.flatten = text "hello" := by
  have hproper : helloFile.Proper := by
    refine ⟨?_, ?_, ?_, ?_, ?_, ?_, ?_, ?_, ?_, ?_⟩ <;> decide +kernel
  have hcount : helloFile.nchunks.toNat = 3 := by decide +kernel
  have hruns : ((helloFile.split (· < 2 ^ 47) (emptyStorage 1 2) (datapathAt 1 2)).bind fun d' =>
      [2, 0, 2, 1].foldlM (fetchChunk protobufWire (· < 2 ^ 47) (some (text "hans")) d'
        (datapathAt 1 2) (text "a") (datapathAt 3 4)) (emptyStorage 3 4)).isSome := by
    decide +kernel
  obtain ⟨p', hp⟩ := Option.isSome_iff_exists.1 hruns
  obtain ⟨d', hsplit, hfetch⟩ := Option.bind_eq_some_iff.1 hp
  have hok := (transferOk_iff lawful_protobufWire hproper (· < 2 ^ 47) (· < 2 ^ 47) 1 2 hsplit).2
    (by decide +kernel)
  have hbelow : ∀ k ∈ ([2, 0, 2, 1] : List UInt32), k.toNat < helloFile.nchunks.toNat := by
    rw [hcount]
    simp
  have hall : ∀ i < helloFile.nchunks.toNat, ∃ k ∈ ([2, 0, 2, 1] : List UInt32), k.toNat = i := by
    rw [hcount]
    intro i hi
    match i, hi with
    | 0, _ => exact ⟨0, by simp, rfl⟩
    | 1, _ => exact ⟨1, by simp, rfl⟩
    | 2, _ => exact ⟨2, by simp, rfl⟩
  obtain ⟨pieces, hpieces, hflatten⟩ :=
    hok.fetched (some (text "hans")) 3 4 _ p' [2, 0, 2, 1] hbelow hall hfetch
  rw [hcount] at hpieces
  exact ⟨d', p', hsplit, hfetch, pieces, hpieces, hflatten⟩

/-- The largest `long` is typed as the chunk size of a file of five bytes.  There is no block of
this size, and the one chunk file is empty. -/
theorem not_transferOk_huge :
    ¬ ∀ (ac : Achelper) (malloc : ℕ → Bool) (r : Registration) (time : ℤ) (pid : ℕ) (d d' : Disk),
      ac.Lawful → r.Proper → r.split malloc d (datapathAt time pid) = some d' →
        TransferOk ac malloc r (datapathAt time pid) d' := by
  intro h
  have hproper : (fileRegistration (text "a") (text "hello")
      (text "9223372036854775807\n")).Proper := by
    refine ⟨?_, ?_, ?_, ?_, ?_, ?_, ?_, ?_, ?_, ?_⟩ <;> decide +kernel
  have hempty : ((fileRegistration (text "a") (text "hello")
      (text "9223372036854775807\n")).split (· < 2 ^ 47) (emptyStorage 1 2)
        (datapathAt 1 2)).map (fun d' => d'.chunkFiles (datapathAt 1 2) (text "a") 1) =
          some (some [[]]) := by decide +kernel
  obtain ⟨d', hsplit, hfiles⟩ := Option.map_eq_some_iff.1 hempty
  obtain ⟨pieces, hpieces, hflatten, -⟩ :=
    (h protobufWire (· < 2 ^ 47) _ 1 2 _ d' lawful_protobufWire hproper hsplit).files
  have hone : (fileRegistration (text "a") (text "hello")
      (text "9223372036854775807\n")).nchunks.toNat = 1 := by decide +kernel
  rw [hone] at hpieces
  obtain rfl := Option.some.inj (hfiles.symm.trans hpieces)
  exact absurd hflatten (by decide +kernel)

end EpollChat

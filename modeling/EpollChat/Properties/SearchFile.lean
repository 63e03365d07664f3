import EpollChat.Properties.ChunkIsolation
import Mathlib.Data.Set.Card

/-!
# Searching for the chunks of a file

`cmd_searchfile_impl` walks the users once.  The walk calls `clientHasFileChunks` on the connection
of every user that is logged in, which gives a verdict on this client and adds its chunks to a mask
that all of them share.

What a client has of a file is decided id by id, so the verdict does not depend on the order of
the list (`verdict_clientHasFileChunks`), and the shared mask holds the chunks that somebody offers
(`usersWithChunks_spec`).  The answer is then the report it should be (`searchFile_exact`), for
every file whose range of ids, the sum `eid` included, does not wrap.
-/

namespace EpollChat

variable (ac : Achelper)

/-! ## The report -/

/-- The user is logged in, and its connection holds the chunk of the file. -/
def Offers (s : State) (f : FileNode) (k : UInt32) (u : UserId) : Prop :=
  isUserLoggedIn s (some u) = true ∧
    ∃ d, (s.users u).client = some d ∧ f.chunkSid + k ∈ (s.conn d).chunks.held

/-- Somebody in the database offers the chunk. -/
def Offered (s : State) (f : FileNode) (k : UInt32) : Prop := ∃ u ∈ s.first, Offers s f k u

/-- What an answer says: the users, the number of chunks available, and whether these are all. -/
structure SearchReport where
  users : List UserId
  available : ℕ
  all : Bool

namespace SearchReport

/-- **The report is exact** for a request of these chunk numbers, where no number asks for any
chunk. -/
structure Exact (r : SearchReport) (s : State) (f : FileNode) (chunks : List UInt32) : Prop where
  /-- The users are in database order. -/
  order : r.users.Sublist s.first
  /-- Each is listed once. -/
  once : s.first.Nodup → r.users.Nodup
  /-- They are the ones that offer a requested chunk of the file. -/
  users : ∀ u, u ∈ r.users ↔ u ∈ s.first ∧
    ∃ k, k < f.chunks ∧ (chunks = [] ∨ k ∈ chunks) ∧ Offers s f k u
  /-- The count is that of the chunks on offer. -/
  available : r.available = {k | k < f.chunks ∧ Offered s f k}.ncard
  all : r.all = true ↔ ∀ k, k < f.chunks → Offered s f k

/-- The text of the answer. -/
def text (r : SearchReport) (s : State) (name : Bytes) (f : FileNode) (chunks : List UInt32) :
    Bytes :=
  let chfcDescription := EpollChat.text (if chunks = [] then "any" else "your requested")
  let userlistStr :=
    (userLinkedListToString (usernames s r.users) (EpollChat.text "\n")).getD
      (EpollChat.text "(null)")
  let header :=
    name ++ EpollChat.text " is registered on server with " ++ decimal f.chunks.toNat
  if r.all then
    header ++ EpollChat.text (" chunks. All chunks are " ++
        "currently available. Below are users with ") ++ chfcDescription ++
      EpollChat.text " chunks:\n" ++ userlistStr ++ EpollChat.text ("\n" ++
        "After downloading all chunks, cd into your clientdata directory " ++
        "and run `cat ") ++ name ++ EpollChat.text "/\x7b0.." ++
      decimal (f.chunks - 1).toNat ++ EpollChat.text "\x7d > " ++ name ++
      EpollChat.text ".merged`"
  else
    header ++ EpollChat.text " chunks. Only " ++ decimal r.available ++
      EpollChat.text (" chunks are available (registered by currently online " ++
        "clients). Below are users with ") ++ chfcDescription ++
      EpollChat.text " chunks:\n" ++ userlistStr

end SearchReport

/-! ## One client -/

/-- The id is in the range of the file, and its chunk is wanted. -/
def Wants (f : FileNode) (wanted : ℕ → Bool) (id : UInt32) : Prop :=
  f.Owns id ∧ wanted (id - f.chunkSid).toNat = true

/-- **The verdict.** 2 if some id is of a wanted chunk, otherwise 1 if some id is of the file, and
otherwise 0. -/
lemma verdict_clientHasFileChunks (client : ChunkList) (f : FileNode) (wanted has : ℕ → Bool) :
    ((clientHasFileChunks client f wanted has).1 = 2 ↔ ∃ id ∈ client.held, Wants f wanted id) ∧
      ((clientHasFileChunks client f wanted has).1 = 0 ↔ ∀ id ∈ client.held, ¬ f.Owns id) ∧
        (clientHasFileChunks client f wanted has).1 ≤ 2 := by
  unfold clientHasFileChunks ChunkList.held
  generalize client.chunkids.take client.nchunks.toNat = ids
  induction ids using List.reverseRecOn with
  | nil => simp
  | append_singleton ids id ih =>
      rw [List.foldl_append, List.foldl_cons, List.foldl_nil]
      generalize ids.foldl (hasFileChunk f wanted) (0, has) = acc at ih ⊢
      obtain ⟨htwo, hzero, hle⟩ := ih
      have hmem : ∀ P : UInt32 → Prop,
          (∃ i ∈ ids ++ [id], P i) ↔ (∃ i ∈ ids, P i) ∨ P id := by
        intro P
        simp only [List.mem_append, List.mem_singleton, or_and_right, exists_or, exists_eq_left]
      have hall : (∀ i ∈ ids ++ [id], ¬ f.Owns i) ↔ (∀ i ∈ ids, ¬ f.Owns i) ∧ ¬ f.Owns id := by
        simp only [List.mem_append, List.mem_singleton, or_imp, forall_and, forall_eq]
      rw [hmem, hall, ← htwo, ← hzero]
      by_cases howns : f.Owns id
      · have hround : hasFileChunk f wanted acc id =
            (if wanted (id - f.chunkSid).toNat then 2 else if acc.1 = 0 then 1 else acc.1,
              Function.update acc.2 (id - f.chunkSid).toNat true) := by
          unfold hasFileChunk
          exact if_pos howns
        rw [hround]
        by_cases hwanted : wanted (id - f.chunkSid).toNat = true
        · simp [Wants, howns, hwanted]
        · by_cases hacc : acc.1 = 0
          · simp [Wants, howns, hwanted, hacc]
          · simp [Wants, howns, hwanted, hacc, hle]
      · have hround : hasFileChunk f wanted acc id = acc := by
          unfold hasFileChunk
          exact if_neg howns
        rw [hround]
        simp [Wants, howns, hle]

/-- The wanted chunks are the requested numbers below the chunk count. -/
lemma wantedMask_eq_true (f : FileNode) (chunks : List UInt32) (k : ℕ) :
    wantedMask f chunks k = true ↔ ∃ n ∈ chunks, n < f.chunks ∧ n.toNat = k := by
  unfold wantedMask
  induction chunks using List.reverseRecOn with
  | nil => simp
  | append_singleton chunks n ih =>
      rw [List.foldl_append, List.foldl_cons, List.foldl_nil]
      simp only [List.mem_append, List.mem_singleton, or_and_right, exists_or, exists_eq_left,
        ← ih]
      split
      · next hn =>
          by_cases hk : k = n.toNat
          · simp [hk, hn]
          · simp [hk, Ne.symm hk]
      · next hn => simp [hn]

/-- The ids of a file whose range does not wrap are those of its chunks. -/
lemma FileNode.owns_iff {f : FileNode} (h : f.eid.toNat = f.chunkSid.toNat + f.chunks.toNat)
    (id k : UInt32) :
    f.Owns id ∧ (id - f.chunkSid).toNat = k.toNat ↔ k < f.chunks ∧ id = f.chunkSid + k := by
  constructor
  · rintro ⟨⟨hle, hlt⟩, hk⟩
    have hk' : id - f.chunkSid = k := UInt32.toNat_inj.mp hk
    refine ⟨?_, ?_⟩
    · rw [UInt32.lt_iff_toNat_lt] at hlt ⊢
      rw [UInt32.toNat_sub_of_le _ _ hle] at hk
      rw [UInt32.le_iff_toNat_le] at hle
      omega
    · rw [← hk', UInt32.add_comm, UInt32.sub_add_cancel]
  · rintro ⟨hk, rfl⟩
    refine ⟨FileNode.owns_add h hk, ?_⟩
    rw [UInt32.add_comm, UInt32.add_sub_cancel]

/-! ## The walk -/

/-- The user is logged in on this connection. -/
def LiveOn (s : State) (u : UserId) (d : ConnId) : Prop :=
  isUserLoggedIn s (some u) = true ∧ (s.users u).client = some d

/-- The verdict on the client of a user. -/
def verdict (s : State) (f : FileNode) (wanted : ℕ → Bool) (d : ConnId) : ℕ :=
  (clientHasFileChunks (s.conn d).chunks f wanted fun _ => false).1

/-- The mask makes no difference to the verdict. -/
lemma fst_clientHasFileChunks (client : ChunkList) (f : FileNode) (wanted has has' : ℕ → Bool) :
    (clientHasFileChunks client f wanted has).1 = (clientHasFileChunks client f wanted has').1 := by
  obtain ⟨htwo, hzero, hle⟩ := verdict_clientHasFileChunks client f wanted has
  obtain ⟨htwo', hzero', hle'⟩ := verdict_clientHasFileChunks client f wanted has'
  have h2 := htwo.trans htwo'.symm
  have h0 := hzero.trans hzero'.symm
  omega

/-- What the walk has found among the users `l`. -/
structure Walked (s : State) (f : FileNode) (wanted : ℕ → Bool) (target : ℕ) (l : List UserId)
    (acc : State × List UserId × (ℕ → Bool)) : Prop where
  core : acc.1.core = s.core
  order : acc.2.1.Sublist l
  users : ∀ u, u ∈ acc.2.1 ↔ u ∈ l ∧ ∃ d, LiveOn s u d ∧ verdict s f wanted d = target
  mask : ∀ k, acc.2.2 k = true ↔ ∃ u ∈ l, ∃ d, LiveOn s u d ∧
    ∃ id ∈ (s.conn d).chunks.held, f.Owns id ∧ (id - f.chunkSid).toNat = k

lemma Walked.round {s : State} {f : FileNode} {wanted : ℕ → Bool} {target : ℕ} {l : List UserId}
    {acc : State × List UserId × (ℕ → Bool)} (h : Walked s f wanted target l acc) (u : UserId) :
    Walked s f wanted target (l ++ [u]) (userWithChunks f wanted target acc u) := by
  obtain ⟨t, ret, mask⟩ := acc
  obtain ⟨hcore, horder, husers, hmask⟩ := h
  dsimp only at hcore horder husers hmask
  have hlogged : isUserLoggedIn t (some u) = isUserLoggedIn s (some u) :=
    isUserLoggedIn_congr hcore (some u)
  have hclient : (t.users u).client = (s.users u).client := client_eq_of_core hcore u
  by_cases hlive : ∃ d, LiveOn s u d
  swap
  · -- a user that is not logged in is passed over
    have hskip : userWithChunks f wanted target (t, ret, mask) u = (t, ret, mask) := by
      unfold userWithChunks
      dsimp only
      rw [hlogged, hclient]
      split
      · next d hlogged' hclient' => exact absurd ⟨d, hlogged', hclient'⟩ hlive
      · rfl
    rw [hskip]
    refine ⟨hcore, horder.trans (List.sublist_append_left l [u]), fun v => ?_, fun k => ?_⟩
    · rw [husers, List.mem_append, List.mem_singleton]
      refine and_congr_left fun hv => ⟨.inl, fun hor => ?_⟩
      rcases hor with hold | rfl
      · exact hold
      · obtain ⟨d, hd, -⟩ := hv
        exact absurd ⟨d, hd⟩ hlive
    · rw [hmask]
      constructor
      · rintro ⟨v, hv, hd⟩
        exact ⟨v, List.mem_append_left _ hv, hd⟩
      · rintro ⟨v, hv, d, hd, hid⟩
        rcases List.mem_append.mp hv with hv | hv
        · exact ⟨v, hv, d, hd, hid⟩
        · exact absurd ⟨d, List.mem_singleton.mp hv ▸ hd⟩ hlive
  · -- the client of a user that is logged in is looked at
    obtain ⟨d, hd⟩ := hlive
    have honly : ∀ e, LiveOn s u e ↔ e = d := fun e =>
      ⟨fun he => Option.some.inj (he.2.symm.trans hd.2), fun he => he ▸ hd⟩
    have hchunks : (t.conn d).chunks = (s.conn d).chunks := chunks_eq_of_core hcore d
    have hround : userWithChunks f wanted target (t, ret, mask) u =
        (t.touch d, if verdict s f wanted d = target then ret ++ [u] else ret,
          (clientHasFileChunks (s.conn d).chunks f wanted mask).2) := by
      unfold userWithChunks
      simp only [hlogged, hclient, hd.1, hd.2, hchunks]
      rw [fst_clientHasFileChunks _ f wanted mask fun _ => false]
      rfl
    rw [hround]
    refine ⟨(State.core_touch t d).trans hcore, ?_, fun v => ?_, fun k => ?_⟩
    · dsimp only
      split
      · exact horder.append (List.Sublist.refl [u])
      · exact horder.trans (List.sublist_append_left l [u])
    · have hnew : ∀ v, v ∈ (if verdict s f wanted d = target then ret ++ [u] else ret) ↔
          v ∈ ret ∨ v = u ∧ verdict s f wanted d = target := by
        intro v
        split
        · next htarget => simp [htarget]
        · next htarget => simp [htarget]
      dsimp only
      rw [hnew, husers, List.mem_append, List.mem_singleton, or_and_right]
      refine or_congr_right (and_congr_right ?_)
      rintro rfl
      simp only [honly, exists_eq_left]
    · rw [mask_clientHasFileChunks, hmask]
      simp only [List.mem_append, List.mem_singleton, or_and_right, exists_or, exists_eq_left,
        honly]

lemma walked_usersWithChunks (s : State) (f : FileNode) (wanted : ℕ → Bool) (target : ℕ) :
    Walked s f wanted target s.first (usersWithChunks s f wanted target) := by
  unfold usersWithChunks
  induction s.first using List.reverseRecOn with
  | nil => exact ⟨rfl, List.Sublist.refl [], by simp, by simp⟩
  | append_singleton l u ih =>
      rw [List.foldl_append, List.foldl_cons, List.foldl_nil]
      exact ih.round u

/-! ## The answer -/

section Answer

variable {s : State} {f : FileNode} {chunks : List UInt32} {u : UserId} {d : ConnId}

/-- In terms of the chunks of the file. -/
lemma owned_iff (h : f.eid.toNat = f.chunkSid.toNat + f.chunks.toNat) (client : ChunkList)
    (k : UInt32) :
    (∃ id ∈ client.held, f.Owns id ∧ (id - f.chunkSid).toNat = k.toNat) ↔
      k < f.chunks ∧ f.chunkSid + k ∈ client.held := by
  simp only [FileNode.owns_iff h]
  constructor
  · rintro ⟨id, hid, hk, rfl⟩
    exact ⟨hk, hid⟩
  · rintro ⟨hk, hid⟩
    exact ⟨_, hid, hk, rfl⟩

/-- **The verdict is the one asked for** exactly if the client has a requested chunk. -/
lemma verdict_eq_target_iff (h : f.eid.toNat = f.chunkSid.toNat + f.chunks.toNat) :
    verdict s f (wantedMask f chunks) d = (if chunks = [] then 1 else 2) ↔
      ∃ k, k < f.chunks ∧ (chunks = [] ∨ k ∈ chunks) ∧ f.chunkSid + k ∈ (s.conn d).chunks.held := by
  obtain ⟨htwo, hzero, hle⟩ := verdict_clientHasFileChunks (s.conn d).chunks f
    (wantedMask f chunks) fun _ => false
  change verdict s f (wantedMask f chunks) d = 2 ↔ _ at htwo
  change verdict s f (wantedMask f chunks) d = 0 ↔ _ at hzero
  change verdict s f (wantedMask f chunks) d ≤ 2 at hle
  split
  · next hnone =>
      -- nothing is wanted, so 2 is out of the question
      have hnot : verdict s f (wantedMask f chunks) d ≠ 2 := by
        rw [Ne, htwo]
        rintro ⟨id, -, -, hwanted⟩
        obtain ⟨n, hn, -⟩ := (wantedMask_eq_true f chunks _).mp hwanted
        rw [hnone] at hn
        cases hn
      have hone : verdict s f (wantedMask f chunks) d = 1 ↔
          ∃ id ∈ (s.conn d).chunks.held, f.Owns id := by
        have hnonzero : verdict s f (wantedMask f chunks) d = 1 ↔
            ¬ verdict s f (wantedMask f chunks) d = 0 := by omega
        rw [hnonzero, hzero]
        simp only [not_forall, not_not, exists_prop]
      rw [hone]
      constructor
      · rintro ⟨id, hid, howns⟩
        obtain ⟨hk, hheld⟩ := (owned_iff h (s.conn d).chunks (id - f.chunkSid)).mp
          ⟨id, hid, howns, rfl⟩
        exact ⟨_, hk, .inl hnone, hheld⟩
      · rintro ⟨k, hk, -, hheld⟩
        exact ⟨_, hheld, FileNode.owns_add h hk⟩
  · next hsome =>
      rw [htwo]
      constructor
      · rintro ⟨id, hid, howns, hwanted⟩
        obtain ⟨n, hn, hlt, heq⟩ := (wantedMask_eq_true f chunks _).mp hwanted
        obtain ⟨-, hheld⟩ := (owned_iff h (s.conn d).chunks n).mp ⟨id, hid, howns, heq.symm⟩
        exact ⟨n, hlt, .inr hn, hheld⟩
      · rintro ⟨k, hk, hreq, hheld⟩
        have hmem : k ∈ chunks := hreq.resolve_left hsome
        obtain ⟨id, hid, howns, heq⟩ := (owned_iff h (s.conn d).chunks k).mpr ⟨hk, hheld⟩
        exact ⟨id, hid, howns, (wantedMask_eq_true f chunks _).mpr ⟨k, hmem, hk, heq.symm⟩⟩

/-- The mask holds the chunks on offer. -/
lemma Walked.mask_iff {wanted : ℕ → Bool} {target : ℕ} {acc : State × List UserId × (ℕ → Bool)}
    (h : f.eid.toNat = f.chunkSid.toNat + f.chunks.toNat)
    (hwalk : Walked s f wanted target s.first acc) (k : UInt32) :
    acc.2.2 k.toNat = true ↔ k < f.chunks ∧ Offered s f k := by
  rw [hwalk.mask]
  simp only [owned_iff h]
  constructor
  · rintro ⟨u, hu, d, ⟨hlogged, hd⟩, hk, hheld⟩
    exact ⟨hk, u, hu, hlogged, d, hd, hheld⟩
  · rintro ⟨hk, u, hu, hlogged, d, hd, hheld⟩
    exact ⟨u, hu, d, ⟨hlogged, hd⟩, hk, hheld⟩

/-- Counting the marked numbers counts the chunks. -/
lemma countP_eq_ncard (n : UInt32) (mask : ℕ → Bool) :
    (List.range n.toNat).countP mask = {k : UInt32 | k < n ∧ mask k.toNat = true}.ncard := by
  have himage : UInt32.toNat '' {k : UInt32 | k < n ∧ mask k.toNat = true} =
      ((Finset.range n.toNat).filter fun i => mask i = true : Finset ℕ) := by
    ext i
    simp only [Set.mem_image, Set.mem_ofPred_eq, Finset.coe_filter, Finset.mem_range]
    constructor
    · rintro ⟨k, ⟨hk, hmask⟩, rfl⟩
      exact ⟨UInt32.lt_iff_toNat_lt.mp hk, hmask⟩
    · rintro ⟨hi, hmask⟩
      have hcast : (UInt32.ofNat i).toNat = i :=
        UInt32.toNat_ofNat_of_lt' (hi.trans n.toNat_lt)
      refine ⟨UInt32.ofNat i, ⟨?_, ?_⟩, hcast⟩
      · rwa [UInt32.lt_iff_toNat_lt, hcast]
      · rwa [hcast]
  have hinj : Set.InjOn UInt32.toNat {k : UInt32 | k < n ∧ mask k.toNat = true} :=
    fun _ _ _ _ heq => UInt32.toNat_inj.mp heq
  rw [← hinj.ncard_image, himage, Set.ncard_coe_finset, List.countP_eq_length_filter]
  simp [Finset.card_def, Multiset.range]

/-- The report of the walk. -/
def searchReport (s : State) (f : FileNode) (chunks : List UInt32) : SearchReport :=
  let found := usersWithChunks s f (wantedMask f chunks) (if chunks = [] then 1 else 2)
  let available := (List.range f.chunks.toNat).countP found.2.2
  { users := found.2.1, available, all := available = f.chunks.toNat }

lemma searchReport_exact (h : f.eid.toNat = f.chunkSid.toNat + f.chunks.toNat) (s : State)
    (chunks : List UInt32) : (searchReport s f chunks).Exact s f chunks := by
  have hwalk := walked_usersWithChunks s f (wantedMask f chunks) (if chunks = [] then 1 else 2)
  refine ⟨hwalk.order, fun hnodup => hwalk.order.nodup hnodup, fun u => ?_, ?_, ?_⟩
  · rw [searchReport, hwalk.users]
    simp only [verdict_eq_target_iff h]
    refine and_congr_right fun _ => ?_
    constructor
    · rintro ⟨d, ⟨hlogged, hd⟩, k, hk, hreq, hheld⟩
      exact ⟨k, hk, hreq, hlogged, d, hd, hheld⟩
    · rintro ⟨k, hk, hreq, hlogged, d, hd, hheld⟩
      exact ⟨d, ⟨hlogged, hd⟩, k, hk, hreq, hheld⟩
  · rw [searchReport, countP_eq_ncard]
    refine congrArg Set.ncard (Set.ext fun k => ?_)
    simp only [Set.mem_ofPred_eq, hwalk.mask_iff h, and_self_left]
  · have hcount : (searchReport s f chunks).all = true ↔
        ∀ i ∈ List.range f.chunks.toNat,
          (usersWithChunks s f (wantedMask f chunks) (if chunks = [] then 1 else 2)).2.2 i := by
      rw [← List.countP_eq_length, List.length_range]
      exact decide_eq_true_iff
    rw [hcount]
    constructor
    · intro hall k hk
      have hmask := hall k.toNat (List.mem_range.mpr (UInt32.lt_iff_toNat_lt.mp hk))
      exact ((hwalk.mask_iff h k).mp hmask).2
    · intro hall i hi
      have hi := List.mem_range.mp hi
      have hcast : (UInt32.ofNat i).toNat = i :=
        UInt32.toNat_ofNat_of_lt' (hi.trans f.chunks.toNat_lt)
      have hk : UInt32.ofNat i < f.chunks := by rwa [UInt32.lt_iff_toNat_lt, hcast]
      rw [← hcast]
      exact (hwalk.mask_iff h _).mpr ⟨hk, hall _ hk⟩

lemma usernames_congr {s s' : State} (h : s.core = s'.core) (list : List UserId) :
    usernames s list = usernames s' list :=
  List.map_congr_left fun u _ => username_eq_of_core h u

/-- **Searching for a file.** The answer to a logged-in user's search for a registered file whose
ids do not wrap is the text of an exact report. -/
theorem searchFile_exact {c : ConnId} {req : ChunksRequest}
    (hlive : isUserLoggedIn s (s.conn c).user = true)
    (hfind : findFile s.fileDb req.filename = some f)
    (hwrap : f.chunkSid.toNat + f.chunks.toNat < 2 ^ 32) :
    ∃ r : SearchReport, r.Exact s f (parsePackedUint32 req.chunks) ∧
      (cmdSearchfileImpl ac s c req).2 =
        some (encodeTextResponseToIMResponse ac
          (r.text s (cstr req.filename) f (parsePackedUint32 req.chunks)) true) := by
  have heid : f.eid.toNat = f.chunkSid.toNat + f.chunks.toNat := by
    rw [FileNode.eid, UInt32.toNat_add, Nat.mod_eq_of_lt hwrap]
  refine ⟨_, searchReport_exact heid s (parsePackedUint32 req.chunks), ?_⟩
  have hcore := (walked_usersWithChunks s f (wantedMask f (parsePackedUint32 req.chunks))
    (if parsePackedUint32 req.chunks = [] then 1 else 2)).core
  simp only [cmdSearchfileImpl, hlive, Bool.not_true, Bool.false_eq_true, if_false, hfind,
    SearchReport.text, searchReport, decide_eq_true_eq]
  generalize usersWithChunks s f _ _ = found at hcore ⊢
  rw [usernames_congr hcore]
  by_cases hall : (List.range f.chunks.toNat).countP found.2.2 = f.chunks.toNat
  · simp only [if_pos hall]
  · simp only [if_neg hall]

end Answer

/-- hans registers a file of three chunks, yoda the last of them and two numbers past the end, and
asks for this one. -/
theorem searchFile_exact_demo :
    ∃ s f, ServerRun protobufWire demo Always
        (acceptAndServe 5 [loginAs "hans" "falcon", .regfile ⟨text "a", 3⟩] ++
          acceptAndServe 6 [loginAs "yoda" "wise",
            .regchunk ⟨text "a", [2, 0, 0, 0, 7, 0, 0, 0, 2, 0, 0, 0]⟩]) s ∧
      ∃ r : SearchReport, r.Exact s f [2] ∧
        (cmdSearchfileImpl protobufWire s 1 ⟨text "a", [2, 0, 0, 0]⟩).2 =
          some (encodeTextResponseToIMResponse protobufWire (r.text s (text "a") f [2]) true) := by
  obtain ⟨s, run, hlive, hfind⟩ := Run.exists_of_execute (step protobufWire) Always demo.init
    (acceptAndServe 5 [loginAs "hans" "falcon", .regfile ⟨text "a", 3⟩] ++
      acceptAndServe 6 [loginAs "yoda" "wise",
        .regchunk ⟨text "a", [2, 0, 0, 0, 7, 0, 0, 0, 2, 0, 0, 0]⟩])
    (fun s => isUserLoggedIn s (s.conn 1).user = true ∧
      findFile s.fileDb (text "a") = some ⟨3, 0⟩) (by decide +kernel)
  exact ⟨s, ⟨3, 0⟩, run,
    @searchFile_exact protobufWire s ⟨3, 0⟩ 1 ⟨text "a", [2, 0, 0, 0]⟩ hlive hfind (by decide)⟩

end EpollChat

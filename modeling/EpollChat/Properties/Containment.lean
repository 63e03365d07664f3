import EpollChat.Construction.Storage
import EpollChat.Framework.Run

/-!
# What a peer can reach

A peer sends the name of a file, and the client builds paths of it: the file of a chunk that it
opens for reading, and the directory it makes and the file it opens for writing.  The name is any
string, and `cmd_regfile_impl` alone takes the directories off a name.  So `..` in a name leads
out of the storage directory.

`contained_iff` says exactly which names keep the paths inside: those that go down again through
the names they climbed, and for a response further down than that.  While these are the names that
peers send, they change nothing outside the storage directory and are told of nothing outside it
(`peerFiles_contained`).
-/

namespace EpollChat

open Paths

/-- The paths that the client opens or creates for a response of a peer. -/
def openedPaths (datapath : Bytes) : Response → List Bytes
  | .chunkDataRequest filename chunk => [chunkPath datapath filename chunk.toNat]
  | .chunkDataResponse filename chunk _ =>
      [chunkDir datapath filename, chunkPath datapath filename chunk.toNat]
  | _ => []

/-- **Peer file access stays inside the storage directory.** -/
def Contained (cwd : Location) (datapath : Bytes) (rsp : Response) : Prop :=
  ∀ path ∈ openedPaths datapath rsp, Below (locate cwd datapath) (locate cwd path)

instance (cwd : Location) (datapath : Bytes) (rsp : Response) :
    Decidable (Contained cwd datapath rsp) := by
  unfold Contained
  infer_instance

/-! ## The file system follows the paths -/

/-- Slashes at the end of a path lead nowhere. -/
lemma locate_rdropWhile (cwd : Location) (path : Bytes)
    (hne : path.rdropWhile (· = slash) ≠ []) :
    locate cwd (path.rdropWhile (· = slash)) = locate cwd path := by
  induction path using List.reverseRecOn with
  | nil => exact absurd rfl hne
  | append_singleton path b ih =>
      rw [List.rdropWhile_concat] at hne ⊢
      split at hne
      · next hslash =>
          rw [if_pos hslash, ih hne]
          obtain rfl : b = slash := by simpa using hslash
          have hpath : path ≠ [] := by
            rintro rfl
            exact hne rfl
          have hhead : (path ++ [slash]).head? = path.head? := by
            rw [List.head?_append_of_ne_nil _ hpath]
          rw [locate, locate, components_append, walk_append, origin, origin, hhead]
          rfl
      · next hslash => rw [if_neg hslash]

/-- `mkdir` makes a directory where the path leads. -/
lemma mkdir_eq_set {d d' : Disk} {path : Bytes} (h : d.mkdir path = some d') :
    d' = d.set (locate d.cwd path) .dir := by
  unfold Disk.mkdir at h
  split at h
  · next target htarget =>
      obtain ⟨hpath, rfl⟩ := resolve_eq_locate htarget
      rw [locate_rdropWhile _ _ hpath] at h
      exact (Option.some.inj (Option.ite_none_right_eq_some.mp h).2).symm
  · cases h

/-- A write makes a file where the path leads. -/
lemma write_eq_set {d d' : Disk} {path data : Bytes} (h : d.write path data = some d') :
    d' = d.set (locate d.cwd path) (.file data) := by
  unfold Disk.write at h
  split at h
  · next target htarget =>
      obtain ⟨-, rfl⟩ := resolve_eq_locate htarget
      exact (Option.some.inj (Option.ite_none_left_eq_some.mp h).2).symm
  · cases h

/-- `writeFile` changes nothing but the places its paths lead to. -/
lemma entry_writeFile (d : Disk) (datapath filename : Bytes) (chunk : UInt32) (data : Bytes) :
    (writeFile d datapath filename chunk data).1.cwd = d.cwd ∧
      ∀ place, (∀ path ∈ openedPaths datapath (.chunkDataResponse filename chunk data),
        place ≠ locate d.cwd path) →
          (writeFile d datapath filename chunk data).1.entry place = d.entry place := by
  have hmade : ((d.mkdir (chunkDir datapath filename)).getD d).cwd = d.cwd ∧
      ∀ place, place ≠ locate d.cwd (chunkDir datapath filename) →
        ((d.mkdir (chunkDir datapath filename)).getD d).entry place = d.entry place := by
    cases hmkdir : d.mkdir (chunkDir datapath filename) with
    | none => exact ⟨rfl, fun _ _ => rfl⟩
    | some d' =>
        rw [Option.getD_some, mkdir_eq_set hmkdir]
        exact ⟨rfl, fun _ hne => Function.update_of_ne hne _ _⟩
  rw [writeFile]
  split
  · next d' hwrite =>
      rw [write_eq_set hwrite]
      refine ⟨hmade.1, fun place hne => ?_⟩
      have hdir := hne _ List.mem_cons_self
      have hchunk := hne _ (List.mem_cons_of_mem _ (List.mem_singleton_self _))
      rw [← hmade.1] at hchunk
      exact (Function.update_of_ne hchunk _ _).trans (hmade.2 place hdir)
  · exact ⟨hmade.1, fun place hne => hmade.2 place (hne _ List.mem_cons_self)⟩

/-- `getChunkDataResponse` reads what is where its path leads. -/
lemma storedChunk_eq {d : Disk} {datapath filename content : Bytes} {chunk : UInt32}
    (h : storedChunk d datapath filename chunk = some content) :
    ∃ path ∈ openedPaths datapath (.chunkDataRequest filename chunk),
      d.entry (locate d.cwd path) = some (.file content) ∨
        d.entry (locate d.cwd path) = some .dir ∧ content = [] := by
  refine ⟨_, List.mem_singleton_self _, ?_⟩
  unfold storedChunk Disk.read at h
  split at h
  · next found hstat =>
      obtain ⟨place, hplace, hentry⟩ := Option.bind_eq_some_iff.1 hstat
      obtain ⟨-, rfl⟩ := resolve_eq_locate hplace
      exact .inl (Option.some.inj h ▸ hentry)
  · next hstat =>
      obtain ⟨place, hplace, hentry⟩ := Option.bind_eq_some_iff.1 hstat
      obtain ⟨-, rfl⟩ := resolve_eq_locate hplace
      exact .inr ⟨hentry, (Option.some.inj h).symm⟩
  · cases h

/-! ## The files of a client and its peers -/

/-- What a response of a peer does to the files of the client. -/
def peerFiles (datapath : Bytes) (d : Disk) : Response → Option Disk
  | .chunkDataResponse filename chunk data => some (writeFile d datapath filename chunk data).1
  | _ => some d

/-- A response that is contained leaves everything outside the storage directory alone. -/
lemma peerFiles_step {datapath : Bytes} {d d' : Disk} {rsp : Response}
    (h : Contained d.cwd datapath rsp) (hstep : peerFiles datapath d rsp = some d') :
    d'.cwd = d.cwd ∧
      ∀ place, ¬ Below (locate d.cwd datapath) place → d'.entry place = d.entry place := by
  rcases rsp with _ | _ | _ | _ | ⟨filename, chunk⟩ | ⟨filename, chunk, data⟩ | _
  case chunkDataResponse =>
    obtain rfl := Option.some.inj hstep
    obtain ⟨hcwd, hentry⟩ := entry_writeFile d datapath filename chunk data
    exact ⟨hcwd, fun place houtside =>
      hentry place fun path hpath heq => houtside (heq ▸ h path hpath)⟩
  all_goals
    obtain rfl := Option.some.inj hstep
    exact ⟨rfl, fun _ _ => rfl⟩

/-- **Peers stay inside.** While the responses of its peers are contained, a client changes nothing
outside its storage directory; and what it then answers a contained request with is the content of
a file inside, or nothing where there is a directory. -/
theorem peerFiles_contained {datapath : Bytes} {d d' : Disk} {rsps : List Response}
    (run : Run (peerFiles datapath) (fun d rsp => Contained d.cwd datapath rsp) d rsps d') :
    (∀ place, ¬ Below (locate d.cwd datapath) place → d'.entry place = d.entry place) ∧
      ∀ filename chunk content, Contained d.cwd datapath (.chunkDataRequest filename chunk) →
        storedChunk d' datapath filename chunk = some content →
          ∃ place, Below (locate d.cwd datapath) place ∧
            (d'.entry place = some (.file content) ∨
              d'.entry place = some .dir ∧ content = []) := by
  obtain ⟨hcwd, houtside⟩ : d'.cwd = d.cwd ∧
      ∀ place, ¬ Below (locate d.cwd datapath) place → d'.entry place = d.entry place := by
    refine run.invariant (P := fun t => t.cwd = d.cwd ∧
      ∀ place, ¬ Below (locate d.cwd datapath) place → t.entry place = d.entry place)
      ⟨rfl, fun _ _ => rfl⟩ ?_
    rintro t rsp t' ⟨hcwd, hentry⟩ hcontained hstep
    obtain ⟨hcwd', hentry'⟩ := peerFiles_step hcontained hstep
    rw [hcwd] at hentry'
    exact ⟨hcwd'.trans hcwd, fun place houtside =>
      (hentry' place houtside).trans (hentry place houtside)⟩
  refine ⟨houtside, fun filename chunk content hcontained hstored => ?_⟩
  obtain ⟨path, hpath, hentry⟩ := storedChunk_eq hstored
  rw [hcwd] at hentry
  exact ⟨_, hcontained path hpath, hentry⟩

/-- A file system with a home directory, a secret in it, and the storage directory. -/
def homeDisk : Disk where
  cwd := [text "home"]
  entry place :=
    if place = [] ∨ place = [text "home"] ∨ place = [text "home", datapathAt 1700000000 4242] then
      some .dir
    else if place = [text "home", text "secret"] then some (.file (text "key"))
    else none

/-- A peer sends two chunks, and the secret is what it was. -/
theorem peerFiles_contained_home :
    ∃ d, Run (peerFiles (datapathAt 1700000000 4242))
        (fun d rsp => Contained d.cwd (datapathAt 1700000000 4242) rsp) homeDisk
        [.chunkDataResponse (text "a") 0 (text "x"), .chunkDataResponse (text "a") 1 (text "y")] d ∧
      storedChunk d (datapathAt 1700000000 4242) (text "a") 1 = some (text "y") ∧
      d.entry [text "home", text "secret"] = some (.file (text "key")) ∧
      ∃ place, Below [text "home", datapathAt 1700000000 4242] place ∧
        (d.entry place = some (.file (text "y")) ∨ d.entry place = some .dir ∧ text "y" = []) := by
  obtain ⟨d, run, hstored⟩ := Run.exists_of_execute (peerFiles (datapathAt 1700000000 4242))
    (fun d rsp => Contained d.cwd (datapathAt 1700000000 4242) rsp) homeDisk
    [.chunkDataResponse (text "a") 0 (text "x"), .chunkDataResponse (text "a") 1 (text "y")]
    (fun d => storedChunk d (datapathAt 1700000000 4242) (text "a") 1 = some (text "y"))
    (by decide +kernel)
  obtain ⟨houtside, hinside⟩ := peerFiles_contained run
  have hdir : locate homeDisk.cwd (datapathAt 1700000000 4242) =
      [text "home", datapathAt 1700000000 4242] := by decide
  rw [hdir] at houtside hinside
  exact ⟨d, run, hstored, (houtside _ (by decide)).trans (by decide),
    hinside _ _ _ (by decide) hstored⟩

/-! ## Which names stay inside -/

/-- **The names that keep the paths inside the storage directory**, for a request and for a
response: the name goes down through the names that it climbed, and for a response further. -/
theorem contained_iff (cwd : Location) (time : ℤ) (pid : ℕ) (filename : Bytes) (chunk : UInt32) :
    let datapath := datapathAt time pid
    let dir := cwd ++ [datapath]
    let r := route (components (cstr filename))
    (Contained cwd datapath (.chunkDataRequest filename chunk) ↔ r.Returns dir) ∧
      ∀ data, Contained cwd datapath (.chunkDataResponse filename chunk data) ↔
        r.Returns dir ∧ r.names ≠ dir.drop (dir.length - r.ups) := by
  have hname := isName_datapathAt time pid
  dsimp only
  generalize datapathAt time pid = datapath at hname
  have hrequest : Below (locate cwd datapath)
      (locate cwd (chunkPath datapath filename chunk.toNat)) ↔
        (route (components (cstr filename))).Returns (cwd ++ [datapath]) := by
    rw [locate_datapath hname, locate_chunkPath hname, below_append_singleton, prefix_walk_iff]
  have hdir : Below (locate cwd datapath) (locate cwd (chunkDir datapath filename)) ↔
      (route (components (cstr filename))).Returns (cwd ++ [datapath]) ∧
        (route (components (cstr filename))).names ≠
          (cwd ++ [datapath]).drop ((cwd ++ [datapath]).length -
            (route (components (cstr filename))).ups) := by
    rw [locate_datapath hname, locate_chunkDir hname, Below, prefix_walk_iff, ne_eq,
      walk_eq_self_iff]
  refine ⟨?_, fun data => ?_⟩
  · simp only [Contained, openedPaths, List.mem_singleton, forall_eq, hrequest]
  · simp only [Contained, openedPaths, List.forall_mem_cons, hdir, hrequest]
    simp only [List.not_mem_nil, IsEmpty.forall_iff, implies_true, and_true]
    exact ⟨fun h => h.1, fun h => ⟨h, h.1⟩⟩

/-- A peer asks for a chunk of `../x`. -/
theorem not_contained_dotdot :
    ¬ ∀ (cwd : Location) (time : ℤ) (pid : ℕ) (rsp : Response),
      Contained cwd (datapathAt time pid) rsp := by
  intro h
  exact absurd (h [text "home"] 1700000000 4242 (.chunkDataRequest (text "../x") 0)) (by decide)

end EpollChat

import EpollChat.Properties.ChunkAllocation
import Mathlib.Data.List.Induction

/-!
# The file registry as a map

A registration under a name that is taken is refused, and any other gives the name its count and
the ids from the counter on, for good: `RegistryMap` says this of every point of a sequence of
registrations.

A trie node stands for a file exactly when its count is positive.  A registration of no chunks is
therefore accepted like any other and leaves nothing behind: the file is not found, and the name
can be registered again.  The registry is a map as long as no such registration is accepted
(`registryMap_iff`).
-/

namespace EpollChat

/-! ## Accepted registrations -/

/-- The result of `addFile` for one more request. -/
def added (reqs : List RegisterFileRequest) (req : RegisterFileRequest) : Option FileNode :=
  (addFile (registry reqs).1 (registry reqs).2 req.filename req.chunks).2.2

/-- One of the requests was accepted, and had this name. -/
def Accepted (reqs : List RegisterFileRequest) (name : Bytes) : Prop :=
  ∃ earlier req, earlier ++ [req] <+: reqs ∧ cstr req.filename = cstr name ∧
    added earlier req ≠ none

/-- **The file registry is a map** at every point of a sequence of requests. -/
structure RegistryMap (reqs : List RegisterFileRequest) : Prop where
  /-- A request is accepted exactly when its name was not accepted before. -/
  accepts : ∀ earlier req, earlier ++ [req] <+: reqs →
    (added earlier req ≠ none ↔ ¬ Accepted earlier req.filename)
  /-- An accepted request gives the file its count and the ids from the counter on, and the file
  is found from then on. -/
  keeps : ∀ earlier req f, earlier ++ [req] <+: reqs → added earlier req = some f →
    f.chunks = req.chunks ∧ f.chunkSid = (registry earlier).2 ∧
      ∀ later, earlier ++ [req] ++ later <+: reqs →
        findFile (registry (earlier ++ [req] ++ later)).1 req.filename = some f
  /-- No file is found exactly under the names never accepted. -/
  absent : ∀ earlier name, earlier <+: reqs →
    (findFile (registry earlier).1 name = none ↔ ¬ Accepted earlier name)
  /-- A request changes no other name. -/
  others : ∀ earlier req name, earlier ++ [req] <+: reqs → cstr name ≠ cstr req.filename →
    findFile (registry (earlier ++ [req])).1 name = findFile (registry earlier).1 name

/-- Every request of no chunks is for a name that an earlier request has with some chunks. -/
def NoEmptyFile (reqs : List RegisterFileRequest) : Prop :=
  ∀ earlier req, earlier ++ [req] <+: reqs → req.chunks = 0 →
    ∃ r ∈ earlier, cstr r.filename = cstr req.filename ∧ r.chunks ≠ 0

lemma registry_append (reqs reqs' : List RegisterFileRequest) :
    registry (reqs ++ reqs') = registerFiles (registry reqs) reqs' := by
  simp only [registry, registerFiles, List.foldl_append]

/-- A request is accepted exactly when no file is found under its name. -/
lemma added_eq (reqs : List RegisterFileRequest) (req : RegisterFileRequest) :
    added reqs req =
      if findFile (registry reqs).1 req.filename = none then some ⟨req.chunks, (registry reqs).2⟩
      else none := by
  cases h : findFile (registry reqs).1 req.filename with
  | none => simp [added, (addFile_of_none h (registry reqs).2 req.chunks).1]
  | some f => simp [added, (addFile_of_some h (registry reqs).2 req.chunks).1]

lemma added_ne_none {reqs : List RegisterFileRequest} {req : RegisterFileRequest} :
    added reqs req ≠ none ↔ findFile (registry reqs).1 req.filename = none := by
  rw [added_eq]
  split <;> simp_all

/-- The file an accepted request leaves, where it has chunks. -/
lemma findFile_registry_concat {reqs : List RegisterFileRequest} {req : RegisterFileRequest}
    (h : findFile (registry reqs).1 req.filename = none) {name : Bytes}
    (hname : cstr name = cstr req.filename) :
    findFile (registry (reqs ++ [req])).1 name =
      if req.chunks = 0 then none else some ⟨req.chunks, (registry reqs).2⟩ := by
  have hpos : req.chunks > 0 ↔ ¬ req.chunks = 0 := UInt32.pos_iff_ne_zero
  rw [registry_append]
  refine ((addFile_of_none h (registry reqs).2 req.chunks).2 name).trans ?_
  rw [if_pos hname]
  simp only [hpos, ite_not]

/-- A request changes no other name, and nothing where its name is taken. -/
lemma findFile_registry_concat_of_ne (reqs : List RegisterFileRequest) {req : RegisterFileRequest}
    {name : Bytes}
    (h : cstr name = cstr req.filename → findFile (registry reqs).1 req.filename ≠ none) :
    findFile (registry (reqs ++ [req])).1 name = findFile (registry reqs).1 name := by
  rw [registry_append]
  cases hfile : findFile (registry reqs).1 req.filename with
  | some f => exact (addFile_of_some hfile (registry reqs).2 req.chunks).2 name
  | none =>
      refine ((addFile_of_none hfile (registry reqs).2 req.chunks).2 name).trans ?_
      exact if_neg fun hname => h hname hfile

/-! ## What is found, and what was accepted -/

/-- No file is found under a name exactly when all requests for it were of no chunks. -/
lemma findFile_registry_eq_none {reqs : List RegisterFileRequest} {name : Bytes} :
    findFile (registry reqs).1 name = none ↔
      ∀ r ∈ reqs, cstr r.filename = cstr name → r.chunks = 0 := by
  induction reqs using List.reverseRecOn with
  | nil => simp [registry, registerFiles]
  | append_singleton reqs req ih =>
      simp only [List.mem_append, List.mem_singleton, or_imp, forall_and, forall_eq, ← ih]
      by_cases hname : cstr name = cstr req.filename
      · have hcongr := findFile_congr (registry reqs).1 hname
        cases hfile : findFile (registry reqs).1 req.filename with
        | none =>
            rw [findFile_registry_concat hfile hname, hcongr, hfile]
            simp [hname]
        | some f =>
            rw [findFile_registry_concat_of_ne reqs fun _ => by simp [hfile], hcongr, hfile]
            simp
      · rw [findFile_registry_concat_of_ne reqs fun h => absurd h hname]
        simp [Ne.symm hname]

lemma accepted_concat {reqs : List RegisterFileRequest} {req : RegisterFileRequest}
    {name : Bytes} :
    Accepted (reqs ++ [req]) name ↔
      Accepted reqs name ∨ cstr req.filename = cstr name ∧ added reqs req ≠ none := by
  constructor
  · rintro ⟨earlier, req', hpre, hname, hadd⟩
    rcases List.prefix_concat_iff.1 hpre with heq | hpre
    · obtain ⟨rfl, hreq⟩ := List.append_inj' heq rfl
      obtain rfl := List.head_eq_of_cons_eq hreq
      exact .inr ⟨hname, hadd⟩
    · exact .inl ⟨earlier, req', hpre, hname, hadd⟩
  · rintro (⟨earlier, req', hpre, hname, hadd⟩ | ⟨hname, hadd⟩)
    · exact ⟨earlier, req', hpre.trans (List.prefix_append _ _), hname, hadd⟩
    · exact ⟨reqs, req, List.prefix_rfl, hname, hadd⟩

/-- The first request for a name is always accepted. -/
lemma accepted_iff {reqs : List RegisterFileRequest} {name : Bytes} :
    Accepted reqs name ↔ ∃ r ∈ reqs, cstr r.filename = cstr name := by
  induction reqs using List.reverseRecOn with
  | nil =>
      refine iff_of_false ?_ (by simp)
      rintro ⟨earlier, req, hpre, -⟩
      simp at hpre
  | append_singleton reqs req ih =>
      rw [accepted_concat, ih, added_ne_none, findFile_registry_eq_none]
      constructor
      · rintro (⟨r, hr, hname⟩ | ⟨hname, -⟩)
        · exact ⟨r, List.mem_append_left _ hr, hname⟩
        · exact ⟨req, by simp, hname⟩
      · rintro ⟨r, hr, hname⟩
        by_cases hbefore : ∃ r ∈ reqs, cstr r.filename = cstr name
        · exact .inl hbefore
        · rcases List.mem_append.1 hr with hr | hr
          · exact absurd ⟨r, hr, hname⟩ hbefore
          · obtain rfl := List.mem_singleton.1 hr
            refine .inr ⟨hname, fun r' hr' hname' => ?_⟩
            exact absurd ⟨r', hr', hname'.trans hname⟩ hbefore

/-- Without accepted registrations of no chunks, a name of a request is a name with chunks. -/
lemma NoEmptyFile.exists_chunks {reqs : List RegisterFileRequest} (h : NoEmptyFile reqs)
    {r : RegisterFileRequest} (hr : r ∈ reqs) :
    ∃ r' ∈ reqs, cstr r'.filename = cstr r.filename ∧ r'.chunks ≠ 0 := by
  by_cases hzero : r.chunks = 0
  · obtain ⟨earlier, later, rfl⟩ := List.append_of_mem hr
    have hpre : earlier ++ [r] <+: earlier ++ r :: later := ⟨later, by simp⟩
    obtain ⟨r', hr', hname, hchunks⟩ := h earlier r hpre hzero
    exact ⟨r', List.mem_append_left _ hr', hname, hchunks⟩
  · exact ⟨r, hr, rfl, hzero⟩

lemma NoEmptyFile.of_prefix {reqs reqs' : List RegisterFileRequest} (h : NoEmptyFile reqs)
    (hpre : reqs' <+: reqs) : NoEmptyFile reqs' :=
  fun earlier req h' => h earlier req (h'.trans hpre)

/-! ## The map -/

/-- Without registrations of no chunks for fresh names, only an accepted name is found. -/
lemma NoEmptyFile.findFile_eq_none_iff {reqs : List RegisterFileRequest} (hcounts : NoEmptyFile reqs)
    (name : Bytes) : findFile (registry reqs).1 name = none ↔ ¬ Accepted reqs name := by
  rw [findFile_registry_eq_none, accepted_iff]
  constructor
  · rintro hzero ⟨r, hr, hname⟩
    obtain ⟨r', hr', hname', hchunks⟩ := hcounts.exists_chunks hr
    exact hchunks (hzero r' hr' (hname'.trans hname))
  · intro hnone r hr hname
    exact absurd ⟨r, hr, hname⟩ hnone

/-- **The file registry.** It is a map, at every point of a sequence of registrations, exactly
when every registration of no chunks is for a name already registered with some. -/
theorem registryMap_iff (reqs : List RegisterFileRequest) :
    RegistryMap reqs ↔ NoEmptyFile reqs := by
  constructor
  · intro hmap earlier req hpre hzero
    have haccepted : Accepted (earlier ++ [req]) req.filename :=
      accepted_iff.2 ⟨req, by simp, rfl⟩
    have hfound : findFile (registry (earlier ++ [req])).1 req.filename ≠ none :=
      fun h => (hmap.absent _ _ hpre).1 h haccepted
    rw [Ne, findFile_registry_eq_none] at hfound
    push Not at hfound
    obtain ⟨r, hr, hname, hchunks⟩ := hfound
    rcases List.mem_append.1 hr with hr | hr
    · exact ⟨r, hr, hname, hchunks⟩
    · exact absurd (List.mem_singleton.1 hr ▸ hzero) hchunks
  · intro hcounts
    have habsent (earlier : List RegisterFileRequest) (name : Bytes) (hpre : earlier <+: reqs) :
        findFile (registry earlier).1 name = none ↔ ¬ Accepted earlier name :=
      (hcounts.of_prefix hpre).findFile_eq_none_iff name
    refine ⟨fun earlier req hpre => ?_, fun earlier req f hpre hadd => ?_, habsent,
      fun earlier req name _ hname => ?_⟩
    · rw [added_ne_none]
      apply habsent
      exact (List.prefix_append _ _).trans hpre
    · have hfree := added_ne_none.1 (ne_of_eq_of_ne hadd (by simp))
      rw [added_eq, if_pos hfree] at hadd
      obtain rfl := Option.some.inj hadd
      -- an earlier request with chunks would have left a file
      have hchunks : req.chunks ≠ 0 := by
        intro hzero
        obtain ⟨r, hr, hname, hr0⟩ := hcounts earlier req hpre hzero
        exact hr0 (findFile_registry_eq_none.1 hfree r hr hname)
      refine ⟨rfl, rfl, fun later _ => ?_⟩
      rw [registry_append]
      apply findFile_registerFiles_of_some
      rw [findFile_registry_concat hfree rfl, if_neg hchunks]
    · exact findFile_registry_concat_of_ne earlier fun h => absurd h hname

/-- A registration of no chunks under the name `a` is accepted, and no file is found. -/
theorem not_registryMap_empty :
    ¬ ∀ reqs : List RegisterFileRequest, (∀ req ∈ reqs, 0 ∉ req.filename) → RegistryMap reqs := by
  intro h
  have hnames : ∀ req ∈ [(⟨text "a", 0⟩ : RegisterFileRequest)], 0 ∉ req.filename := by
    intro req hreq
    obtain rfl := List.mem_singleton.1 hreq
    decide
  have hmap := h [⟨text "a", 0⟩] hnames
  have hadded : added [] ⟨text "a", 0⟩ = some ⟨0, 0⟩ := by decide
  obtain ⟨-, -, hfound⟩ := hmap.keeps [] ⟨text "a", 0⟩ ⟨0, 0⟩ List.prefix_rfl hadded
  have hnone : findFile (registry [⟨text "a", 0⟩]).1 (text "a") = none := by decide
  have := hfound [] List.prefix_rfl
  rw [List.append_nil, List.nil_append, hnone] at this
  cases this

end EpollChat

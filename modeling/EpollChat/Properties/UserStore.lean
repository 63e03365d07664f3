import EpollChat.Properties.ClientProgram

/-!
# The user store as a map

`addUser` enters a user twice: at the trie node of its name and at the head of the list `first`.
The store keeps an association list, newest addition first: the list `first` is its users, and
`findUser` is the lookup in it (`StoreMap`).

The invariant is about the state between two calls, and one lemma about `addUser` is enough for
both calls: `findOrAddUser` either changes nothing or is `addUser`.
-/

namespace EpollChat

/-! ## Calls -/

/-- A call that may add a user. -/
inductive StoreCall
  | addUser (username password : Bytes)
  | findOrAddUser (username : Bytes)

/-- The name a call is about. -/
def StoreCall.username : StoreCall → Bytes
  | .addUser username _ => username
  | .findOrAddUser username => username

/-- The call: the store after it, and the user it returns. -/
def StoreCall.run (s : State) : StoreCall → State × UserId
  | .addUser username password => EpollChat.addUser s username password
  | .findOrAddUser username => EpollChat.findOrAddUser s username

/-- The user a call adds: the one it returns, unless that one was there. -/
def StoreCall.added (s : State) (call : StoreCall) : Option UserId :=
  if (call.run s).2 < s.nusers then none else some (call.run s).2

/-- A call, with the additions recorded under their names, newest first. -/
def StoreCall.record (r : State × List (Bytes × UserId)) (call : StoreCall) :
    State × List (Bytes × UserId) :=
  ((call.run r.1).1, ((call.added r.1).map fun u => (cstr call.username, u)).toList ++ r.2)

/-- The store of `newUserDb` after a sequence of calls, and the additions. -/
def storeAfter (blockDuration loginTimeout now : ℤ) (calls : List StoreCall) :
    State × List (Bytes × UserId) :=
  calls.foldl StoreCall.record (State.blank blockDuration loginTimeout now, [])

/-! ## The map -/

/-- **The user store is a map**, and agrees with its list.  `made` are the additions so far,
newest first. -/
structure StoreMap (s : State) (made : List (Bytes × UserId)) : Prop where
  /-- A name finds the user added last under exactly this name. -/
  latest : ∀ name, findUser s name = made.lookup (cstr name)
  /-- No user is found exactly under the names never added. -/
  absent : ∀ name, findUser s name = none ↔ ∀ u, (cstr name, u) ∉ made
  /-- `addUser` always adds a user. -/
  adds : ∀ username password, (StoreCall.addUser username password).added s ≠ none
  /-- `findOrAddUser` adds a user exactly where `findUser` returns `NULL`. -/
  missing : ∀ name, (StoreCall.findOrAddUser name).added s ≠ none ↔ findUser s name = none
  /-- The list `first` is the users added. -/
  list : s.first = made.map Prod.snd
  /-- Every user added is in the list exactly once. -/
  once : ∀ name u, (name, u) ∈ made → s.first.count u = 1
  /-- A user carries the name it was added under. -/
  named : ∀ name u, (name, u) ∈ made → (s.users u).username = name
  /-- A call changes no other name. -/
  others : ∀ (call : StoreCall) name, cstr name ≠ cstr call.username →
    findUser (call.run s).1 name = findUser s name

/-- The invariant: the trie and the list hold the additions, and identities in use have been
handed out. -/
structure Stored (s : State) (made : List (Bytes × UserId)) : Prop where
  latest : ∀ name, findUser s name = made.lookup (cstr name)
  list : s.first = made.map Prod.snd
  nodup : s.first.Nodup
  below : ∀ u ∈ s.first, u < s.nusers
  named : ∀ p ∈ made, (s.users p.2).username = p.1

lemma stored_blank (blockDuration loginTimeout now : ℤ) :
    Stored (State.blank blockDuration loginTimeout now) [] where
  latest name := by
    cases h : cstr name <;> simp [findUser, State.blank, h]
  list := rfl
  nodup := List.nodup_nil
  below := by simp [State.blank]
  named := by simp

/-- What `findUser` returns was added. -/
lemma Stored.mem_of_find {s : State} {made : List (Bytes × UserId)} (hs : Stored s made)
    {name : Bytes} {u : UserId} (h : findUser s name = some u) : (cstr name, u) ∈ made := by
  rw [hs.latest, List.lookup_eq_some_iff] at h
  obtain ⟨before, after, rfl, -⟩ := h
  simp

lemma Stored.lt_of_find {s : State} {made : List (Bytes × UserId)} (hs : Stored s made)
    {name : Bytes} {u : UserId} (h : findUser s name = some u) : u < s.nusers := by
  apply hs.below
  rw [hs.list]
  exact List.mem_map_of_mem (hs.mem_of_find h)

lemma Stored.addUser {s : State} {made : List (Bytes × UserId)} (hs : Stored s made)
    (username password : Bytes) :
    Stored (addUser s username password).1 ((cstr username, s.nusers) :: made) where
  latest name := by
    rw [findUser_addUser, hs.latest, List.lookup_cons]
    by_cases hname : cstr name = cstr username
    · rw [if_pos hname, hname, BEq.rfl]
    · rw [if_neg hname, beq_false_of_ne hname]
  list := by
    show s.nusers :: s.first = _
    rw [hs.list, List.map_cons]
  nodup := by
    refine List.nodup_cons.2 ⟨fun h => ?_, hs.nodup⟩
    exact Nat.lt_irrefl _ (hs.below _ h)
  below u hu := by
    show u < s.nusers + 1
    rcases List.mem_cons.1 hu with rfl | hu
    · exact Nat.lt_succ_self _
    · exact (hs.below u hu).trans (Nat.lt_succ_self _)
  named p hp := by
    rcases List.mem_cons.1 hp with rfl | hp
    · simp [EpollChat.addUser]
    · have hlt : p.2 < s.nusers := by
        apply hs.below
        rw [hs.list]
        exact List.mem_map_of_mem hp
      simpa [EpollChat.addUser, Function.update_of_ne hlt.ne] using hs.named p hp

lemma added_addUser (s : State) (username password : Bytes) :
    (StoreCall.addUser username password).added s = some s.nusers := by
  have hnew : ¬ ((StoreCall.addUser username password).run s).2 < s.nusers := Nat.lt_irrefl _
  rw [StoreCall.added, if_neg hnew]
  rfl

/-- What a call of `addUser` records. -/
lemma record_addUser (s : State) (made : List (Bytes × UserId)) (username password : Bytes) :
    (StoreCall.addUser username password).record (s, made) =
      ((addUser s username password).1, (cstr username, s.nusers) :: made) := by
  rw [StoreCall.record, added_addUser]
  rfl

/-- A user that is found is returned and not added. -/
lemma added_findOrAddUser_of_some {s : State} {made : List (Bytes × UserId)} (hs : Stored s made)
    {username : Bytes} {u : UserId} (h : findUser s username = some u) :
    (StoreCall.findOrAddUser username).run s = (s, u) ∧
      (StoreCall.findOrAddUser username).added s = none := by
  have hrun : (StoreCall.findOrAddUser username).run s = (s, u) := by
    simp only [StoreCall.run, findOrAddUser, h]
  refine ⟨hrun, ?_⟩
  rw [StoreCall.added, hrun, if_pos (hs.lt_of_find h)]

/-- A user that is not found is added, without a password. -/
lemma run_findOrAddUser_of_none {s : State} {username : Bytes} (h : findUser s username = none) :
    (StoreCall.findOrAddUser username).run s = (StoreCall.addUser username []).run s := by
  simp only [StoreCall.run, findOrAddUser, h]

lemma added_findOrAddUser_of_none {s : State} {username : Bytes}
    (h : findUser s username = none) :
    (StoreCall.findOrAddUser username).added s = (StoreCall.addUser username []).added s := by
  rw [StoreCall.added, run_findOrAddUser_of_none h, StoreCall.added]

lemma record_findOrAddUser_of_none {s : State} {username : Bytes}
    (h : findUser s username = none) (made : List (Bytes × UserId)) :
    (StoreCall.findOrAddUser username).record (s, made) =
      (StoreCall.addUser username []).record (s, made) := by
  simp only [StoreCall.record, added_findOrAddUser_of_none h, run_findOrAddUser_of_none h,
    StoreCall.username]

/-- A call keeps the invariant. -/
lemma Stored.record {s : State} {made : List (Bytes × UserId)} (hs : Stored s made)
    (call : StoreCall) : Stored (call.record (s, made)).1 (call.record (s, made)).2 := by
  cases call with
  | addUser username password =>
      rw [record_addUser]
      exact hs.addUser username password
  | findOrAddUser username =>
      cases h : findUser s username with
      | some u =>
          obtain ⟨hrun, hadded⟩ := added_findOrAddUser_of_some hs h
          rw [StoreCall.record, hrun, hadded]
          exact hs
      | none =>
          rw [record_findOrAddUser_of_none h, record_addUser]
          exact hs.addUser username []

lemma stored_storeAfter (blockDuration loginTimeout now : ℤ) (calls : List StoreCall) :
    Stored (storeAfter blockDuration loginTimeout now calls).1
      (storeAfter blockDuration loginTimeout now calls).2 := by
  unfold storeAfter
  have hblank := stored_blank blockDuration loginTimeout now
  generalize State.blank blockDuration loginTimeout now = s at hblank ⊢
  generalize ([] : List (Bytes × UserId)) = made at hblank ⊢
  induction calls generalizing s made with
  | nil => exact hblank
  | cons call calls ih => exact ih _ _ (hblank.record call)

lemma findUser_run_of_ne (s : State) {call : StoreCall} {name : Bytes}
    (h : cstr name ≠ cstr call.username) : findUser (call.run s).1 name = findUser s name := by
  cases call with
  | addUser username password =>
      exact (findUser_addUser s username password name).trans (if_neg h)
  | findOrAddUser username =>
      cases hfind : findUser s username with
      | some u => simp only [StoreCall.run, findOrAddUser, hfind]
      | none =>
          rw [run_findOrAddUser_of_none hfind]
          exact (findUser_addUser s username [] name).trans (if_neg h)

/-- **The user store.** After any sequence of `addUser` and `findOrAddUser` calls it is a map that
agrees with its list. -/
theorem storeMap_storeAfter (blockDuration loginTimeout now : ℤ) (calls : List StoreCall) :
    StoreMap (storeAfter blockDuration loginTimeout now calls).1
      (storeAfter blockDuration loginTimeout now calls).2 := by
  have hs := stored_storeAfter blockDuration loginTimeout now calls
  generalize storeAfter blockDuration loginTimeout now calls = r at hs ⊢
  obtain ⟨s, made⟩ := r
  refine ⟨hs.latest, fun name => ?_, fun username password => ?_, fun name => ?_, hs.list,
    fun name u hmem => ?_, fun name u hmem => hs.named (name, u) hmem, fun call name => findUser_run_of_ne s⟩
  · rw [hs.latest, List.lookup_eq_none_iff]
    constructor
    · intro h u hmem
      simpa using h _ hmem
    · rintro h ⟨name', u⟩ hmem
      apply bne_iff_ne.2
      rintro rfl
      exact h u hmem
  · simp [added_addUser]
  · cases h : findUser s name with
    | some u => simp [(added_findOrAddUser_of_some hs h).2]
    | none => simp [added_findOrAddUser_of_none h, added_addUser]
  · apply List.count_eq_one_of_mem hs.nodup
    rw [hs.list]
    exact List.mem_map_of_mem hmem

end EpollChat

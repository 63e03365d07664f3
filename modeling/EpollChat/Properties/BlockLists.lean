import EpollChat.Construction.Server
import EpollChat.Construction.Wire
import Mathlib.Data.List.Induction

/-!
# Block lists as sets

A block list is a linked list, and the loop of `unblockUser` steps past the node that follows a
removed one.  It would leave the second of two neighbours in place, and is `erase` on a list
without duplicates (`unblockLoop_eq_erase`), which is what `blockUser` and it keep.  So the lists
are sets, and the set of a user is given by the latest call for each pair (`blockSets_after`).
-/

namespace EpollChat

variable (ac : Achelper)

/-! ## The loop of `unblockUser` -/

lemma unblockLoop_of_not_mem {u : UserId} {l : List UserId} (h : u ∉ l) : unblockLoop u l = l := by
  fun_induction unblockLoop u l with
  | case1 => rfl
  | case2 => simp at h
  | case3 => simp at h
  | case4 v rest hne ih => rw [ih fun hu => h (List.mem_cons_of_mem _ hu)]

/-- On a list without duplicates the loop removes the user. -/
lemma unblockLoop_eq_erase (u : UserId) {l : List UserId} (h : l.Nodup) :
    unblockLoop u l = l.erase u := by
  fun_induction unblockLoop u l with
  | case1 => rfl
  | case2 => rw [List.erase_cons_head]
  | case3 w rest ih =>
      -- the node stepped past is another user, and so are all after it
      have hrest : u ∉ rest := fun hu =>
        (List.nodup_cons.1 h).1 (List.mem_cons_of_mem _ hu)
      rw [List.erase_cons_head, unblockLoop_of_not_mem hrest]
  | case4 v rest hne ih =>
      rw [ih (List.nodup_cons.1 h).2, List.erase_cons_tail]
      simpa using hne

/-! ## Calls -/

/-- A call that changes block lists. -/
inductive BlockCall
  | block (blocker u : UserId)
  | unblock (blocker u : UserId)
  deriving DecidableEq

def BlockCall.run (s : State) : BlockCall → State
  | .block blocker u => blockUser s blocker u
  | .unblock blocker u => unblockUser s blocker u

/-- The state after a sequence of calls. -/
def blocksAfter (s : State) (calls : List BlockCall) : State := calls.foldl BlockCall.run s

/-- The latest call for a pair of users. -/
def latestCall (calls : List BlockCall) (blocker u : UserId) : Option BlockCall :=
  calls.reverse.find? fun call => call = .block blocker u ∨ call = .unblock blocker u

/-- No block list has a duplicate or the user itself. -/
structure BlockListsOk (s : State) : Prop where
  nodup : ∀ v, (s.users v).blocked.Nodup
  not_self : ∀ v, v ∉ (s.users v).blocked

lemma hasBlockedUser_eq_true {s : State} {blocker u : UserId} :
    hasBlockedUser s blocker u = true ↔ u ∈ (s.users blocker).blocked :=
  List.contains_iff_mem

lemma hasBlockedUser_blockUser (s : State) (blocker u v w : UserId) :
    hasBlockedUser (blockUser s blocker u) v w = true ↔
      hasBlockedUser s v w = true ∨ u ≠ blocker ∧ v = blocker ∧ w = u := by
  unfold blockUser
  split
  · next hself => simp [hself]
  next hself =>
  split
  · next hblocked =>
      refine ⟨.inl, ?_⟩
      rintro (h | ⟨-, rfl, rfl⟩)
      · exact h
      · exact hblocked
  · simp only [hasBlockedUser_eq_true, State.setUser]
    by_cases hv : v = blocker
    · simp [hv, hself, or_comm]
    · simp [hv]

lemma hasBlockedUser_unblockUser {s : State} (hs : BlockListsOk s) (blocker u v w : UserId) :
    hasBlockedUser (unblockUser s blocker u) v w = true ↔
      hasBlockedUser s v w = true ∧ ¬ (v = blocker ∧ w = u) := by
  simp only [hasBlockedUser_eq_true, unblockUser, State.setUser]
  by_cases hv : v = blocker
  · subst hv
    rw [Function.update_self, unblockLoop_eq_erase u (hs.nodup v),
      (hs.nodup v).mem_erase_iff, and_comm]
    simp
  · simp [hv]

/-! ## What a call keeps -/

/-- Users just added have blocked nobody. -/
lemma blocked_init (p : Setup) (v : UserId) : (p.init.users v).blocked = [] := by
  unfold Setup.init
  have hblank : ((State.blank p.blockDuration p.loginTimeout p.now).users v).blocked = [] := rfl
  generalize State.blank p.blockDuration p.loginTimeout p.now = s at hblank ⊢
  induction p.credentials generalizing s with
  | nil => exact hblank
  | cons nw l ih =>
      apply ih
      by_cases hv : v = s.nusers
      · simp [addUser, hv]
      · simpa [addUser, hv] using hblank

lemma BlockListsOk.blockUser {s : State} (hs : BlockListsOk s) (blocker u : UserId) :
    BlockListsOk (blockUser s blocker u) := by
  unfold EpollChat.blockUser
  split
  · exact hs
  next hself =>
  split
  · exact hs
  next hblocked =>
  have hnew : u ∉ (s.users blocker).blocked := fun h => hblocked (hasBlockedUser_eq_true.2 h)
  refine ⟨fun v => ?_, fun v => ?_⟩ <;> by_cases hv : v = blocker
  · subst hv
    simpa [State.setUser, hnew] using hs.nodup v
  · simpa [State.setUser, hv] using hs.nodup v
  · subst hv
    simpa [State.setUser, Ne.symm hself] using hs.not_self v
  · simpa [State.setUser, hv] using hs.not_self v

lemma BlockListsOk.unblockUser {s : State} (hs : BlockListsOk s) (blocker u : UserId) :
    BlockListsOk (unblockUser s blocker u) := by
  unfold EpollChat.unblockUser
  refine ⟨fun v => ?_, fun v => ?_⟩ <;> by_cases hv : v = blocker
  · subst hv
    simp only [State.setUser, Function.update_self, unblockLoop_eq_erase u (hs.nodup v)]
    exact (hs.nodup v).erase u
  · simpa [State.setUser, hv] using hs.nodup v
  · subst hv
    simp only [State.setUser, Function.update_self, unblockLoop_eq_erase u (hs.nodup v)]
    exact fun h => hs.not_self v (List.mem_of_mem_erase h)
  · simpa [State.setUser, hv] using hs.not_self v

lemma BlockListsOk.run {s : State} (hs : BlockListsOk s) (call : BlockCall) :
    BlockListsOk (call.run s) := by
  cases call with
  | block blocker u => exact hs.blockUser blocker u
  | unblock blocker u => exact hs.unblockUser blocker u

lemma latestCall_concat (calls : List BlockCall) (call : BlockCall) (blocker u : UserId) :
    latestCall (calls ++ [call]) blocker u =
      if call = .block blocker u ∨ call = .unblock blocker u then some call
      else latestCall calls blocker u := by
  simp only [latestCall, List.reverse_append, List.reverse_singleton, List.singleton_append,
    List.find?_cons]
  split <;> simp_all

/-- The lists are in order after any sequence of calls, and hold what the latest calls say. -/
lemma blockListsOk_after {s : State} (hnew : ∀ v, (s.users v).blocked = [])
    (calls : List BlockCall) :
    BlockListsOk (blocksAfter s calls) ∧
      ∀ blocker u, hasBlockedUser (blocksAfter s calls) blocker u = true ↔
        u ≠ blocker ∧ latestCall calls blocker u = some (.block blocker u) := by
  induction calls using List.reverseRecOn with
  | nil =>
      refine ⟨⟨fun v => ?_, fun v => ?_⟩, fun blocker u => ?_⟩
      · simp [blocksAfter, hnew]
      · simp [blocksAfter, hnew]
      · simp [blocksAfter, hasBlockedUser, hnew, latestCall]
  | append_singleton calls call ih =>
      obtain ⟨hok, hlatest⟩ := ih
      have hconcat : blocksAfter s (calls ++ [call]) = call.run (blocksAfter s calls) := by
        simp [blocksAfter]
      rw [hconcat]
      refine ⟨hok.run call, fun blocker u => ?_⟩
      rw [latestCall_concat]
      cases call with
      | block v w =>
          show hasBlockedUser (blockUser _ v w) blocker u = true ↔ _
          rw [hasBlockedUser_blockUser, hlatest]
          by_cases hpair : v = blocker ∧ w = u
          · obtain ⟨rfl, rfl⟩ := hpair
            simpa using fun h _ => h
          · have hcall : ¬ (BlockCall.block v w = .block blocker u ∨
                BlockCall.block v w = .unblock blocker u) := by simpa using hpair
            rw [if_neg hcall]
            grind
      | unblock v w =>
          show hasBlockedUser (unblockUser _ v w) blocker u = true ↔ _
          rw [hasBlockedUser_unblockUser hok, hlatest]
          by_cases hpair : v = blocker ∧ w = u
          · obtain ⟨rfl, rfl⟩ := hpair
            simp
          · have hcall : ¬ (BlockCall.unblock v w = .block blocker u ∨
                BlockCall.unblock v w = .unblock blocker u) := by simpa using hpair
            rw [if_neg hcall]
            grind

/-! ## The commands -/

/-- The answer reports success. -/
def Succeeds (r : State × Option IMResponse) : Prop := ∃ rsp, r.2 = some rsp ∧ rsp.success = true

/-- Some user has blocked another in one of the states only. -/
def MembershipChanged (s s' : State) : Prop :=
  ∃ blocker u, hasBlockedUser s' blocker u ≠ hasBlockedUser s blocker u

/-- A response of failure is not one of success. -/
lemma not_succeeds {s : State} {rsp : IMResponse} (hfalse : rsp.success = false) :
    ¬ Succeeds (s, some rsp) := by
  rintro ⟨_, heq, htrue⟩
  obtain rfl := Option.some.inj heq
  rw [hfalse] at htrue
  cases htrue

lemma not_membershipChanged_self (s : State) : ¬ MembershipChanged s s := by
  rintro ⟨blocker, u, h⟩
  exact h rfl

/-- **Block lists behave as sets** after a sequence of calls. -/
structure BlockSets (s : State) (calls : List BlockCall) : Prop where
  nodup : ∀ v, (s.users v).blocked.Nodup
  not_self : ∀ v, v ∉ (s.users v).blocked
  /-- A user has blocked another exactly when the latest call for the two was a block. -/
  latest : ∀ blocker u, hasBlockedUser s blocker u = true ↔
    u ≠ blocker ∧ latestCall calls blocker u = some (.block blocker u)
  /-- `unblockUser` removes the user. -/
  unblocked : ∀ blocker u, hasBlockedUser (unblockUser s blocker u) blocker u = false
  /-- `unblockUser` leaves every other membership alone. -/
  others : ∀ blocker u v w, ¬ (v = blocker ∧ w = u) →
    hasBlockedUser (unblockUser s blocker u) v w = hasBlockedUser s v w
  /-- `cmd_block` reports success exactly when it changes a membership. -/
  block_reports : ∀ c req, Succeeds (cmdBlockImpl ac s c req) ↔
    MembershipChanged s (cmdBlockImpl ac s c req).1
  /-- `cmd_unblock` reports success exactly when it changes a membership. -/
  unblock_reports : ∀ c req, Succeeds (cmdUnblockImpl ac s c req) ↔
    MembershipChanged s (cmdUnblockImpl ac s c req).1

/-- **Block lists.** From users none of whom has blocked anyone, after any sequence of `blockUser`
and `unblockUser` calls. -/
theorem blockSets_after {s : State} (hnew : ∀ v, (s.users v).blocked = [])
    (calls : List BlockCall) : BlockSets ac (blocksAfter s calls) calls := by
  obtain ⟨hok, hlatest⟩ := blockListsOk_after hnew calls
  generalize blocksAfter s calls = t at hok hlatest ⊢
  refine ⟨hok.nodup, hok.not_self, hlatest, fun blocker u => ?_, fun blocker u v w hpair => ?_,
    fun c req => ?_, fun c req => ?_⟩
  · rw [← Bool.not_eq_true, hasBlockedUser_unblockUser hok]
    simp
  · rw [Bool.eq_iff_iff, hasBlockedUser_unblockUser hok, and_iff_left hpair]
  · rcases cmdBlockImpl_cases ac t c req with
      ⟨msg, hrefused⟩ | ⟨self, u, msg, -, -, hne, hnot, hblock⟩
    · rw [hrefused]
      exact iff_of_false (not_succeeds rfl) (not_membershipChanged_self t)
    · rw [hblock]
      refine iff_of_true ⟨_, rfl, rfl⟩ ⟨self, u, ?_⟩
      rw [hnot, (hasBlockedUser_blockUser t self u self u).2 (.inr ⟨hne, rfl, rfl⟩)]
      simp
  · rcases cmdUnblockImpl_cases ac t c req with
      ⟨msg, hrefused⟩ | ⟨self, u, msg, -, -, hblocked, hun⟩
    · rw [hrefused]
      exact iff_of_false (not_succeeds rfl) (not_membershipChanged_self t)
    · rw [hun]
      refine iff_of_true ⟨_, rfl, rfl⟩ ⟨self, u, ?_⟩
      have hremoved : ¬ hasBlockedUser (unblockUser t self u) self u = true := by
        rw [hasBlockedUser_unblockUser hok]
        simp
      rw [hblocked]
      exact hremoved

/-- Three users, of whom one blocks the others and unblocks the first again. -/
theorem blockSets_three :
    BlockSets protobufWire
      (blocksAfter
        (Setup.init ⟨60, 120, 0, [(text "hans", text "a"), (text "yoda", text "b"),
          (text "vader", text "c")]⟩)
        [.block 0 1, .block 0 2, .unblock 0 1])
      [.block 0 1, .block 0 2, .unblock 0 1] :=
  blockSets_after protobufWire (blocked_init _) _

end EpollChat

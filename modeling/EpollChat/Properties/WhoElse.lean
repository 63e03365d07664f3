import EpollChat.Construction.Demo
import EpollChat.Construction.Times
import EpollChat.Properties.Activity

/-!
# Who was online since

`whoelsesince N` lists the users whose `last_active` is at least `now - N`.  By `activity_run` such
a user had a session in the window, unless the threshold is below the -1 of a user who never
logged in.  The other way round one time is not enough: a session that is open throughout the
window but idle in it is not listed.  And the `uint32` `N` is converted to an `int`, so from
2^31 on the threshold is after now, or overflows.

`WhoElseFits` is the condition that none of this matters, and the list is exact precisely under
it (`whoElse_exact_iff`).
-/

namespace EpollChat

open SignedInt

variable (ac : Achelper)

/-- The request that the client's `whoelsesince` makes. -/
def whoElseSince (n : UInt32) : WhoElseRequest := ⟨true, n, false⟩

/-- The answer that lists these users. -/
def whoElseAnswer (s : State) (list : List UserId) : IMResponse :=
  match userLinkedListToString (usernames s list) (text "\n") with
  | none => encodeTextToIMResponse ac (text "No other users other than you") false
  | some rsp => encodeTextToIMResponse ac rsp true

/-- The list that `cmd_whoelse_impl` makes for a request of the last `n` seconds. -/
def listedSince (s : State) (x : UserId) (n : UInt32) : Option (List UserId) :=
  loggedInUsersInPastSeconds32 s n.toInt32.toInt false (some x)

/-- **The list is exact**: the other users who had a session in the window, once each. -/
structure ListedExact (p : Setup) (es : List Event) (s : State) (x : UserId) (n : UInt32)
    (list : List UserId) : Prop where
  once : list.Nodup
  exact : ∀ u, u ∈ list ↔ u ∈ s.first ∧ u ≠ x ∧ HadSession ac p es (s.now - n.toNat) u
  never : ∀ u, (∀ w, ¬ HadSession ac p es w u) → u ∉ list
  always : ∀ u, u ≠ x → (s.users u).client ≠ none → u ∈ list

/-- **The request is answered exactly.** -/
def WhoElseExact (p : Setup) (es : List Event) (s : State) (c : ConnId) (x : UserId)
    (n : UInt32) : Prop :=
  ∃ list, listedSince s x n = some list ∧
    cmdWhoelseImpl ac s c (whoElseSince n) = some (whoElseAnswer ac s list) ∧
      ListedExact ac p es s x n list

/-- The condition on the request and on the activity of the other users. -/
def WhoElseFits (p : Setup) (es : List Event) (s : State) (x : UserId) (n : UInt32) : Prop :=
  if n.toNat < 2 ^ 31 then
    ((n.toNat : ℤ) ≤ s.now ∨ ∀ u ∈ s.first, u ≠ x → (s.users u).lastActive ≠ -1) ∧
      ∀ u ∈ s.first, u ≠ x → HadSession ac p es (s.now - n.toNat) u →
        s.now - n.toNat ≤ (s.users u).lastActive
  else s.now + 2 ^ 32 - n.toNat ≤ intMax ∧ ∀ u ∈ s.first, u ≠ x → (s.users u).lastActive = -1

/-! ## The threshold -/

/-- The conversion to `int`. -/
lemma toInt_toInt32 (n : UInt32) :
    n.toInt32.toInt = if n.toNat < 2 ^ 31 then (n.toNat : ℤ) else n.toNat - 2 ^ 32 := by
  have h : n.toInt32.toInt = n.toBitVec.toInt := rfl
  rw [h, BitVec.toInt_eq_toNat_cond]
  have hn : n.toBitVec.toNat = n.toNat := rfl
  rw [hn]
  split <;> split <;> omega

section List

variable {ac} {p : Setup} {es : List Event} {s : State} {c : ConnId} {x : UserId} {n : UInt32}

lemma mem_loggedInUsersAfterTime {threshold : ℤ} {u : UserId} :
    u ∈ loggedInUsersAfterTime s threshold false (some x) ↔
      u ∈ s.first ∧ u ≠ x ∧ threshold ≤ (s.users u).lastActive := by
  simp [loggedInUsersAfterTime]

/-- Where the threshold does not overflow, the answer is the list. -/
lemma cmdWhoelseImpl_of_listed (hx : (s.conn c).user = some x)
    (hlive : isUserLoggedIn s (some x) = true) {list : List UserId}
    (h : listedSince s x n = some list) :
    cmdWhoelseImpl ac s c (whoElseSince n) = some (whoElseAnswer ac s list) := by
  obtain ⟨threshold, hthreshold, heq⟩ := Option.bind_eq_some_iff.mp h
  obtain ⟨-, rfl⟩ := checked_eq_some_iff.mp hthreshold
  obtain rfl := Option.some.inj heq
  simp only [cmdWhoelseImpl, hx, hlive, Bool.not_true, Bool.false_eq_true, if_false, whoElseSince,
    if_true, loggedInUsersInPastSeconds, whoElseAnswer]
  cases userLinkedListToString _ _ <;> rfl

/-- The list is exact if and only if its members are the right ones. -/
lemma listedExact_iff (run : ServerRun ac p Always es s) {threshold : ℤ} :
    ListedExact ac p es s x n (loggedInUsersAfterTime s threshold false (some x)) ↔
      ∀ u ∈ s.first, u ≠ x →
        (threshold ≤ (s.users u).lastActive ↔ HadSession ac p es (s.now - n.toNat) u) := by
  constructor
  · intro h u hu hne
    have hmem := h.exact u
    rw [mem_loggedInUsersAfterTime] at hmem
    simpa [hu, hne] using hmem
  · intro h
    have hexact : ∀ u, u ∈ loggedInUsersAfterTime s threshold false (some x) ↔
        u ∈ s.first ∧ u ≠ x ∧ HadSession ac p es (s.now - n.toNat) u := by
      intro u
      rw [mem_loggedInUsersAfterTime]
      exact and_congr_right fun hu => and_congr_right fun hne => h u hu hne
    refine ⟨(nodup_first run).filter _, hexact, fun u hnever hmem => ?_, fun u hne hopen => ?_⟩
    · exact hnever _ ((hexact u).mp hmem).2.2
    · obtain ⟨d, hd⟩ := Option.ne_none_iff_exists'.mp hopen
      refine (hexact u).mpr ⟨(tableOk_run ac run).client_known u d hd, hne, ?_⟩
      refine .of_open run ?_ hopen
      omega

/-- The list for a window that the `int` holds. -/
lemma listedSince_of_lt (hnow : 0 ≤ s.now) (hmax : s.now ≤ intMax) (hn : n.toNat < 2 ^ 31) :
    listedSince s x n =
      some (loggedInUsersAfterTime s (s.now - n.toNat) false (some x)) := by
  have hfits : Fits 32 (s.now - n.toNat) := by
    unfold Fits
    unfold intMax at hmax
    omega
  unfold listedSince loggedInUsersInPastSeconds32
  rw [toInt_toInt32, if_pos hn, checked_of_fits hfits]
  rfl

/-- The list for a window that it does not hold. -/
lemma listedSince_of_le (hnow : 0 ≤ s.now) (hn : ¬ n.toNat < 2 ^ 31) {list : List UserId} :
    listedSince s x n = some list ↔ s.now + 2 ^ 32 - n.toNat ≤ intMax ∧
      loggedInUsersAfterTime s (s.now + 2 ^ 32 - n.toNat) false (some x) = list := by
  have hlt := n.toNat_lt
  have hthreshold : s.now - (n.toNat - 2 ^ 32) = s.now + 2 ^ 32 - n.toNat := by omega
  have hfits : Fits 32 (s.now + 2 ^ 32 - n.toNat) ↔ s.now + 2 ^ 32 - n.toNat ≤ intMax := by
    unfold Fits intMax
    omega
  unfold listedSince loggedInUsersInPastSeconds32
  rw [toInt_toInt32, if_neg hn, hthreshold, ← hfits]
  simp only [Option.bind_eq_bind, Option.bind_eq_some_iff, checked_eq_some_iff, Option.pure_def,
    Option.some.injEq]
  constructor
  · rintro ⟨threshold, ⟨h, rfl⟩, rfl⟩
    exact ⟨h, rfl⟩
  · rintro ⟨h, rfl⟩
    exact ⟨_, ⟨h, rfl⟩, rfl⟩

/-! ## The answer -/

/-- **Who was online since.** In every run, the request of a logged-in user for the last `n`
seconds is answered exactly if and only if the condition holds. -/
theorem whoElse_exact_iff (hstart : 0 ≤ p.now) (run : ServerRun ac p Always es s)
    (hmax : s.now ≤ intMax) (hx : (s.conn c).user = some x)
    (hlive : isUserLoggedIn s (some x) = true) (n : UInt32) :
    WhoElseExact ac p es s c x n ↔ WhoElseFits ac p es s x n := by
  have hnow : 0 ≤ s.now := hstart.trans (now_le_of_run run)
  have hanswer : WhoElseExact ac p es s c x n ↔
      ∃ list, listedSince s x n = some list ∧ ListedExact ac p es s x n list :=
    exists_congr fun list => and_congr_right fun hlist =>
      and_iff_right (cmdWhoelseImpl_of_listed hx hlive hlist)
  rw [hanswer]
  unfold WhoElseFits
  split
  · next hn =>
      -- the threshold is `now - n`
      rw [listedSince_of_lt hnow hmax hn]
      simp only [Option.some.injEq, exists_eq_left', listedExact_iff run]
      constructor
      · intro h
        refine ⟨?_, fun u hu hne => (h u hu hne).mpr⟩
        by_contra hneither
        push Not at hneither
        obtain ⟨hlate, u, hu, hne, hnone⟩ := hneither
        rcases activity_run run u with ⟨-, hnever⟩ | ⟨hfirst, -⟩
        · exact hnever _ ((h u hu hne).mp (by omega))
        · omega
      · rintro ⟨hsentinel, hactive⟩ u hu hne
        refine ⟨fun hlisted => ?_, hactive u hu hne⟩
        rcases activity_run run u with ⟨hnone, -⟩ | ⟨-, -, hsession⟩
        · rcases hsentinel with hlate | hall
          · omega
          · exact absurd hnone (hall u hu hne)
        · exact hsession.mono (List.prefix_refl es) hlisted
  · next hn =>
      -- the threshold is after now, and the window is all of the past
      simp only [listedSince_of_le hnow hn]
      have hiff : ∀ u, HadSession ac p es (s.now - n.toNat) u ↔ (s.users u).lastActive ≠ -1 := by
        intro u
        rcases activity_run run u with ⟨hnone, hnever⟩ | ⟨hfirst, hlast, hsession⟩
        · exact iff_of_false (hnever _) fun h => h hnone
        · refine iff_of_true (hsession.mono (List.prefix_refl es) ?_) ?_
          · unfold intMax at hmax
            omega
          · omega
      have hlt := n.toNat_lt
      have hexact : ListedExact ac p es s x n
            (loggedInUsersAfterTime s (s.now + 2 ^ 32 - n.toNat) false (some x)) ↔
          ∀ u ∈ s.first, u ≠ x → (s.users u).lastActive = -1 := by
        rw [listedExact_iff run]
        refine forall_congr' fun u => forall_congr' fun _ => forall_congr' fun _ => ?_
        have hnot : ¬ s.now + 2 ^ 32 - n.toNat ≤ (s.users u).lastActive := by
          rcases activity_run run u with ⟨hnone, -⟩ | ⟨-, hlast, -⟩ <;> omega
        rw [hiff, iff_false_left hnot, not_not]
      rw [← hexact]
      constructor
      · rintro ⟨list, ⟨hfits, rfl⟩, h⟩
        exact ⟨hfits, h⟩
      · rintro ⟨hfits, h⟩
        exact ⟨_, ⟨hfits, rfl⟩, h⟩

end List

/-- hans asks who was online in the last minute, and yoda was. -/
theorem whoElse_exact_demo :
    ∃ s, ServerRun protobufWire demo Always
        (acceptAndServe 5 [loginAs "hans" "falcon"] ++ acceptAndServe 6 [loginAs "yoda" "wise"])
        s ∧
      WhoElseExact protobufWire demo
        (acceptAndServe 5 [loginAs "hans" "falcon"] ++ acceptAndServe 6 [loginAs "yoda" "wise"])
        s 0 0 60 := by
  obtain ⟨s, run, hnow, hfirst, hx, hlive, hactive⟩ := Run.exists_of_execute (step protobufWire)
    Always demo.init
    (acceptAndServe 5 [loginAs "hans" "falcon"] ++ acceptAndServe 6 [loginAs "yoda" "wise"])
    (fun s => s.now = 1000 ∧ s.first = [1, 0] ∧ (s.conn 0).user = some 0 ∧
      isUserLoggedIn s (some 0) = true ∧ (s.users 1).lastActive = 1000) (by decide +kernel)
  refine ⟨s, run, (whoElse_exact_iff (by decide) run (by rw [hnow]; decide) hx hlive 60).mpr ?_⟩
  refine ⟨.inl (by rw [hnow]; decide), fun u hu hne _ => ?_⟩
  obtain rfl : u = 1 := by
    rw [hfirst] at hu
    exact (List.mem_pair.mp hu).resolve_right hne
  rw [hnow, hactive]
  decide

/-- hans asks for a window that begins before time 0, and yoda, who never logged in, is listed. -/
theorem not_whoElse_exact_sentinel :
    ¬ ∀ (ac : Achelper) (p : Setup) (es : List Event) (s : State) (c : ConnId) (x : UserId)
      (n : UInt32), 0 ≤ p.now → ServerRun ac p Always es s → s.now ≤ intMax →
        (s.conn c).user = some x → isUserLoggedIn s (some x) = true →
          WhoElseExact ac p es s c x n := by
  intro h
  obtain ⟨s, run, hnow, hx, hlive, hactive, hlisted⟩ := Run.exists_of_execute (step protobufWire)
    Always demo.init (acceptAndServe 5 [loginAs "hans" "falcon"])
    (fun s => s.now = 1000 ∧ (s.conn 0).user = some 0 ∧ isUserLoggedIn s (some 0) = true ∧
      (s.users 1).lastActive = -1 ∧ listedSince s 0 2000 = some [1]) (by decide +kernel)
  obtain ⟨list, hlist, -, hexact⟩ :=
    h protobufWire demo _ s 0 0 2000 (by decide) run (by rw [hnow]; decide) hx hlive
  obtain rfl := Option.some.inj (hlisted.symm.trans hlist)
  rcases activity_run run 1 with ⟨-, hnever⟩ | ⟨hfirst, -⟩
  · exact hexact.never 1 hnever List.mem_cons_self
  · rw [hactive] at hfirst
    exact absurd hfirst (by decide)

end EpollChat

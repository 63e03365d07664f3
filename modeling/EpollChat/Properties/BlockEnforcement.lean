import EpollChat.Construction.Demo
import EpollChat.Properties.Accounting

/-!
# Block lists are enforced

The test against a block list stands in five places, and which list is asked differs: messages
and addresses ask the list of the user they are for, announcements the list of the user they are
about.  `Emits` has the outcome of the test for messages and announcements, and
`addressAnswer_of_type` has it for addresses.

An address belongs to a connection, though, and the list is that of the user who was asked for.
A login on a connection to which another user is bound leaves both bound to it, and then whoever
may have the address of the one gets that of the other.  `OwnConnection` is the condition under
which a login does not do this.  In every step of every run whose accepted logins satisfy it
and in whose last state `u` has `v` in the block list, nothing is delivered to `u` by a message
request of `v`, no announcement about `u` is addressed to `v`, and no request of `v` is answered
with the address of the connection of `u` (`block_enforced_run`).
-/

namespace EpollChat

variable (ac : Achelper)

/-! ## Addresses -/

/-- A request that asks for the address of the user `w`, and what it is answered with: the address
of the connection `target`, to which this user is bound. -/
def AddressAnswer (s : State) (req : Request) (rsp : IMResponse) (w : UserId) (target : ConnId) :
    Prop :=
  ∃ r, req = .getip r ∧ findUser s r.username = some w ∧ (s.users w).client = some target ∧
    rsp = encodeGetIPResponse ac (cstr r.username) (s.conn target).addr.bytes

lemma type_text (msg : Bytes) (success : Bool) :
    (encodeTextResponseToIMResponse ac msg success).type ≠ 3 := by
  show (1 : UInt32) ≠ 3
  decide

lemma type_exitText (txt : Bytes) (success : Bool) :
    (encodeExitTextToIMResponse ac txt success).type ≠ 3 := by
  show (2 : UInt32) ≠ 3
  decide

/-- The same for an answer. -/
lemma type_textAnswer {msg : Bytes} {success : Bool} {rsp : IMResponse}
    (h : some (encodeTextResponseToIMResponse ac msg success) = some rsp) : rsp.type ≠ 3 := by
  rw [← Option.some.inj h]
  exact type_text ac msg success

/-- The other requests are answered with a text. -/
lemma type_of_not_getip {s : State} {c : ConnId} {req : Request} {rsp : IMResponse}
    (hgetip : ∀ r, req ≠ .getip r) (h : (runCommand ac s c req).2 = some rsp) : rsp.type ≠ 3 := by
  cases req with
  | getip r => exact absurd rfl (hgetip r)
  | unknown type => cases h
  | login r =>
      simp only [runCommand, cmdLoginImpl] at h
      split at h <;> cases h
      exacts [type_text ac _ _, type_exitText ac _ _, type_text ac _ _, type_exitText ac _ _,
        type_exitText ac _ _]
  | logout =>
      simp only [runCommand, cmdLogoutImpl] at h
      split at h
      · exact type_textAnswer ac h
      · cases h
  | message r =>
      simp only [runCommand, cmdMessageImpl] at h
      split at h
      · exact type_textAnswer ac h
      split at h
      · exact type_textAnswer ac h
      split at h
      · split at h
        · exact type_textAnswer ac h
        · cases h
      split at h
      · exact type_textAnswer ac h
      · split at h
        · exact type_textAnswer ac h
        · cases h
  | block r =>
      simp only [runCommand] at h
      rcases cmdBlockImpl_cases ac s c r with ⟨msg, heq⟩ | ⟨_, _, msg, -, -, -, -, heq⟩ <;>
      · rw [heq] at h
        exact type_textAnswer ac h
  | unblock r =>
      simp only [runCommand] at h
      rcases cmdUnblockImpl_cases ac s c r with ⟨msg, heq⟩ | ⟨_, _, msg, -, -, -, heq⟩ <;>
      · rw [heq] at h
        exact type_textAnswer ac h
  | whoelse r =>
      simp only [runCommand, cmdWhoelseImpl] at h
      split at h
      · exact type_textAnswer ac h
      · split at h <;> exact type_textAnswer ac h
  | regfile r =>
      simp only [runCommand, cmdRegfileImpl] at h
      split at h
      · exact type_textAnswer ac h
      · split at h <;> exact type_textAnswer ac h
  | regchunk r =>
      simp only [runCommand, cmdRegchunkImpl] at h
      split at h
      · exact type_textAnswer ac h
      · split at h <;> exact type_textAnswer ac h
  | searchfile r =>
      simp only [runCommand, cmdSearchfileImpl] at h
      split at h
      · exact type_textAnswer ac h
      · split at h
        · exact type_textAnswer ac h
        · split at h
          · split at h <;> exact type_textAnswer ac h
          · split at h <;> exact type_textAnswer ac h

/-- An address is given to another user, of a user who has not blocked him. -/
lemma addressAnswer_of_type {s : State} {c : ConnId} {v : UserId} {req : Request}
    {rsp : IMResponse} (hv : (s.conn c).user = some v) (h : (runRequest ac s c req).2 = some rsp)
    (htype : rsp.type = 3) :
    ∃ w target, AddressAnswer ac s req rsp w target ∧ w ≠ v ∧ hasBlockedUser s w v = false := by
  have hrun : (runCommand ac s c req).2 = some rsp := by
    cases req with
    | unknown type => cases h
    | _ => exact h
  by_cases hgetip : ∀ r, req ≠ .getip r
  · exact absurd htype (type_of_not_getip ac hgetip hrun)
  simp only [ne_eq, not_forall, not_not] at hgetip
  obtain ⟨r, rfl⟩ := hgetip
  simp only [runCommand] at hrun
  rcases cmdGetipImpl_cases ac s c r with
    ⟨msg, heq⟩ | ⟨self, w, target, hself, hfind, hne, hblocked, hclient, heq⟩
  · rw [heq] at hrun
    exact absurd htype (type_textAnswer ac hrun)
  · obtain rfl : v = self := Option.some.inj (hv.symm.trans hself)
    rw [heq] at hrun
    obtain rfl := Option.some.inj hrun
    exact ⟨w, target, ⟨r, rfl, hfind, hclient, rfl⟩, hne, hblocked⟩

/-! ## One user to a connection -/

/-- No other user is bound to the connection. -/
def OwnConnection (s : State) (c : ConnId) (u : UserId) : Prop :=
  ∀ w ∈ s.first, w ≠ u → (s.users w).client ≠ some c

instance (s : State) (c : ConnId) (u : UserId) : Decidable (OwnConnection s c u) := by
  unfold OwnConnection
  infer_instance

/-- No two users are bound to one connection. -/
def ClientsApart (s : State) : Prop :=
  ∀ u w c, (s.users u).client = some c → (s.users w).client = some c → u = w

/-- A login keeps the users apart exactly if nobody else is bound to its connection. -/
lemma clientsApart_bind_iff {s : State} (hs : TableOk s) (h : ClientsApart s) (c : ConnId)
    (u : UserId) (password : Bytes) :
    ClientsApart (bind s c u password) ↔ OwnConnection s c u := by
  constructor
  · intro hbind w _ hne hw
    refine hne (hbind w u c ?_ ?_)
    · rw [client_bind, if_neg hne]
      exact hw
    · rw [client_bind, if_pos rfl]
  · intro hown v w d hv hw
    rw [client_bind] at hv hw
    split at hv <;> split at hw
    · next hvu hwu => rw [hvu, hwu]
    · next _ hwu =>
        obtain rfl := Option.some.inj hv
        exact absurd hw (hown w (hs.client_known w _ hw) hwu)
    · next hvu _ =>
        obtain rfl := Option.some.inj hw
        exact absurd hv (hown v (hs.client_known v _ hv) hvu)
    · exact h v w d hv hw

lemma clientsApart_move {s s' : State} (hs : TableOk s) (h : ClientsApart s)
    (move : SessionMove OwnConnection s s') : ClientsApart s' := by
  cases move with
  | accept fd addr free idle =>
      intro u w c hu hw
      have hclient : ∀ v, ((acceptClient s fd addr).sessions.users v).client =
          (s.users v).client := fun v =>
        congrArg (fun users => (users v).client) (users_acceptClient s fd addr)
      rw [hclient] at hu hw
      exact h u w c hu hw
  | active c serves =>
      intro u w d hu hw
      rw [client_updateLastActive] at hu hw
      exact h u w d hu hw
  | bind c u username password serves found knows idle ok =>
      exact (clientsApart_bind_iff hs h c u password).mpr ok
  | unlink u c bound =>
      intro v w d hv hw
      rw [client_unlink] at hv hw
      split at hv
      · cases hv
      split at hw
      · cases hw
      · exact h v w d hv hw
  | _ => exact h

lemma clientsApart_run {p : Setup} {es : List Event} {s : State}
    (run : ServerRun ac p (LoginsMeet OwnConnection) es s) : ClientsApart s := by
  refine run.invariant_of (fun u w c hu => ?_) (fun run => tableOk_run ac run) ?_
  · rw [((loaded_init p).users u).1] at hu
    cases hu
  · intro s e s' hs h hok hstep
    have hmoves := sessions_step ac OwnConnection hs hok (fun _ _ _ h => h) hstep
    exact (hmoves.invariant (P := fun t => TableOk t ∧ ClientsApart t)
      (fun _ _ h move => ⟨tableOk_move h.1 move, clientsApart_move h.1 h.2 move⟩)
      ⟨tableOk_sessions.mpr hs, h⟩).2

/-! ## Steps -/

/-- **The block is enforced** by an event that adds `l` to the history. -/
structure BlockEnforced (s : State) (e : Event) (u v : UserId) (l : List Obs) : Prop where
  /-- A message request of `v` puts nothing into the offline buffer of `u`, and nothing anywhere
  as a message to `u`. -/
  messages : ∀ req c, e = .request (.message req) → s.serving = some c →
    (s.conn c).user = some v → ∀ q why bs, .move (.put q why bs) ∈ l →
      q ≠ .offline u ∧ ∀ w, why ≠ .chat u w
  /-- No announcement about `u` is addressed to `v`. -/
  announcements : ∀ q bs, .move (.put q (.loggedIn v u) bs) ∉ l ∧
    .move (.put q (.loggedOut v u) bs) ∉ l
  /-- A request of `v` that is answered with an address is answered with that of another connection
  than the one of `u`. -/
  addresses : ∀ req c rsp, e = .request req → s.serving = some c → (s.conn c).user = some v →
    (runRequest ac s c req).2 = some rsp → rsp.type = 3 →
      ∃ w target, AddressAnswer ac s req rsp w target ∧ w ≠ u ∧ (s.users u).client ≠ some target

/-- **Block enforcement.** Where no accepted login binds a user to a connection to which another
user is bound, every step of the run enforces every block that stands before the step. -/
theorem block_enforced_run {p : Setup} {es : List Event} {s s' : State}
    (run : ServerRun ac p (LoginsMeet OwnConnection) es s) {e : Event}
    (hstep : step ac s e = some s') {u v : UserId} (hblocked : v ∈ (s.users u).blocked) :
    ∃ l, s'.log = s.log ++ l ∧ BlockEnforced ac s e u v l := by
  obtain ⟨-, -, rfl⟩ := (step_eq_some ac).mp hstep
  have hs := tableOk_run ac run
  have hheard : hasBlockedUser s u v = true := List.contains_iff_mem.mpr hblocked
  obtain ⟨l, hlog, hadded⟩ := log_exec ac hs.server (accounted_run ac run).pending_fresh e
  have hputs : ∀ {q why bs}, .move (.put q why bs) ∈ l →
      Emits ac s e (.move (.put q why bs)) := fun hmem => by
    rcases hadded _ hmem with hemits | ⟨fd, n₁, n₂, c, -, -, hwrites⟩
    · exact hemits
    · cases hwrites
  refine ⟨l, hlog, ?_, fun q bs => ⟨fun hmem => ?_, fun hmem => ?_⟩, ?_⟩
  · rintro req c rfl hserving hv q why bs hmem
    cases hputs hmem with
    | reply _ d rsp serves => exact ⟨by simp, by simp⟩
    | chat _ d v' w serves own live addressed heard =>
        obtain rfl : c = d := Option.some.inj (hserving.symm.trans serves)
        obtain rfl : v = v' := Option.some.inj (hv.symm.trans own)
        have hne : w ≠ u := fun h => by
          rw [h, hheard] at heard
          cases heard
        refine ⟨fun hq => ?_, fun w' hwhy => ?_⟩
        · unfold sendTarget at hq
          split at hq
          · split at hq
            · cases hq
            · exact hne (by injection hq)
          · exact hne (by injection hq)
        · exact hne (by injection hwhy)
    | loggedOut _ _ _ _ _ ends => exact ends.elim
  · cases hputs hmem with
    | loggedIn r c d u v rsp serves accepted other bound live heard =>
        rw [hheard] at heard
        cases heard
  · cases hputs hmem with
    | loggedOut _ u v d rsp ends other bound live heard =>
        rw [hheard] at heard
        cases heard
  · rintro req c rsp rfl hserving hv hrsp htype
    obtain ⟨w, target, hanswer, -, hw⟩ := addressAnswer_of_type ac hv hrsp htype
    have hne : w ≠ u := fun h => by
      rw [h, hheard] at hw
      cases hw
    obtain ⟨_, -, -, hclient, -⟩ := id hanswer
    exact ⟨w, target, hanswer, hne, fun hu => hne (clientsApart_run ac run w u target hclient hu)⟩

/-- Hans blocks yoda, who then sends him a message. -/
theorem block_enforced_run_demo :
    ∃ s s' l, ServerRun protobufWire demo (LoginsMeet OwnConnection)
        (acceptAndServe 5 [loginAs "hans" "falcon", .block ⟨text "yoda"⟩] ++
          [.accept 6 demoAddr, .readable 6, .request (loginAs "yoda" "wise")]) s ∧
      step protobufWire s (.request (messageTo "hans" "hi")) = some s' ∧
        s'.log = s.log ++ l ∧
          BlockEnforced protobufWire s (.request (messageTo "hans" "hi")) 0 1 l := by
  obtain ⟨s, run, hblocked, hsome⟩ := Run.exists_of_execute (step protobufWire)
    (LoginsMeet OwnConnection) demo.init
    (acceptAndServe 5 [loginAs "hans" "falcon", .block ⟨text "yoda"⟩] ++
      [.accept 6 demoAddr, .readable 6, .request (loginAs "yoda" "wise")])
    (fun s => 1 ∈ (s.users 0).blocked ∧
      (step protobufWire s (.request (messageTo "hans" "hi"))).isSome = true) (by decide +kernel)
  obtain ⟨s', hstep⟩ := Option.isSome_iff_exists.mp hsome
  obtain ⟨l, hlog, henforced⟩ := block_enforced_run protobufWire run hstep hblocked
  exact ⟨s, s', l, run, hstep, hlog, henforced⟩

/-- A server with a third user, leia (2). -/
def demoThree : Setup :=
  { demo with credentials := demo.credentials ++ [(text "leia", text "alderaan")] }

/-- Yoda and then hans log in on one connection, and hans blocks leia.  She asks for the address of
yoda, who has not blocked her, and gets that of the connection of hans. -/
theorem not_block_enforced_shared :
    ¬ ∀ (ac : Achelper) (p : Setup) (es : List Event) (s s' : State) (e : Event) (u v : UserId),
      ServerRun ac p Always es s → step ac s e = some s' → u ≠ v → v ∈ (s.users u).blocked →
        ∃ l, s'.log = s.log ++ l ∧ BlockEnforced ac s e u v l := by
  intro h
  obtain ⟨s, run, hblocked, hserving, hv, ⟨hfind, hhans, hyoda⟩, hsome, htype⟩ :=
    Run.exists_of_execute (step protobufWire) Always demoThree.init
      (acceptAndServe 5
          [loginAs "yoda" "wise", loginAs "hans" "falcon", .block ⟨text "leia"⟩] ++
        [.accept 6 demoAddr, .readable 6, .request (loginAs "leia" "alderaan")])
      (fun s => 2 ∈ (s.users 0).blocked ∧ s.serving = some 1 ∧ (s.conn 1).user = some 2 ∧
        (findUser s (text "yoda") = some 1 ∧ (s.users 0).client = some 0 ∧
          (s.users 1).client = some 0) ∧
        (step protobufWire s (.request (.getip ⟨text "yoda"⟩))).isSome = true ∧
        (runRequest protobufWire s 1 (.getip ⟨text "yoda"⟩)).2.map IMResponse.type = some 3)
      (by decide +kernel)
  obtain ⟨s', hstep⟩ := Option.isSome_iff_exists.mp hsome
  obtain ⟨rsp, hrsp, hthree⟩ := Option.map_eq_some_iff.mp htype
  obtain ⟨l, -, henforced⟩ := h protobufWire demoThree _ s s' _ 0 2 run hstep (by decide) hblocked
  obtain ⟨w, target, ⟨r, hr, hw, hclient, -⟩, -, hother⟩ :=
    henforced.addresses _ 1 rsp rfl hserving hv hrsp hthree
  obtain rfl := Request.getip.inj hr
  obtain rfl : 1 = w := Option.some.inj (hfind.symm.trans hw)
  exact hother (hhans.trans (hyoda.symm.trans hclient))

end EpollChat

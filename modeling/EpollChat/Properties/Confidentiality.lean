import EpollChat.Construction.Demo
import EpollChat.Framework.Provenance
import EpollChat.Properties.Messages

/-!
# Who reads what

Most of what the server writes is meant for somebody: a chat message for its recipient, an
announcement for a user who is online.  The rest are answers to the connection that asked, and the
notice to a connection whose session has expired.

A user is known by a login: an entry of the history that names the connection and the password
the user was loaded with.  In every run, and whatever logins, takeovers and hangups there are,
each byte written to a connection lies in a frame for a user who has logged in on this very
connection before, or in a frame that was queued for this connection only.  And a chat message is
only ever queued for a sender who has logged in himself (`read_by_recipient`).

Whether the user is still the one at the connection is another matter, which the results on
sessions settle under their conditions.
-/

namespace EpollChat

variable (ac : Achelper)

/-! ## What frames are for -/

/-- The user a frame is meant for. -/
def Why.recipient : Why → Option UserId
  | .reply | .logOff => none
  | .chat v _ | .loggedIn v _ | .loggedOut v _ => some v

/-- The user who sends a frame. -/
def Why.sender : Why → Option UserId
  | .chat _ u => some u
  | _ => none

/-- The user has logged in on the connection, with the password he was loaded with. -/
def LoggedInOn (p : Setup) (log : List Obs) (c : ConnId) (u : UserId) : Prop :=
  .login c u (p.init.users u).password ∈ log

lemma LoggedInOn.append {p : Setup} {log : List Obs} {c : ConnId} {u : UserId}
    (h : LoggedInOn p log c u) (l : List Obs) : LoggedInOn p (log ++ l) c u :=
  List.mem_append_left l h

/-- **The policy** on the entries of a history: a frame is put into a queue of its recipient, for
a sender who has logged in, and an offline buffer is written to a connection of its user. -/
def Cleared (p : Setup) (log : List Obs) : Obs → Prop
  | .move (.put q why _) =>
      (∀ v ∈ why.recipient, q = .offline v ∨ ∃ d, q = .out d ∧ LoggedInOn p log d v) ∧
        (∀ u ∈ why.sender, ∃ d, LoggedInOn p log d u) ∧
          (why.recipient = none → ∃ d, q = .out d)
  | .move (.take q c _) => q = .out c ∨ ∃ v, q = .offline v ∧ LoggedInOn p log c v
  | _ => True

/-- A longer history clears more. -/
lemma Cleared.append {p : Setup} {log : List Obs} {o : Obs} (h : Cleared p log o)
    (l : List Obs) : Cleared p (log ++ l) o := by
  match o with
  | .move (.put q why f) =>
      obtain ⟨hrecipient, hsender, hnobody⟩ := h
      refine ⟨fun v hv => (hrecipient v hv).imp id ?_, fun u hu => ?_, hnobody⟩
      · rintro ⟨d, hq, hlogin⟩
        exact ⟨d, hq, hlogin.append l⟩
      · obtain ⟨d, hlogin⟩ := hsender u hu
        exact ⟨d, hlogin.append l⟩
  | .move (.take q c bs) =>
      refine h.imp id ?_
      rintro ⟨v, hq, hlogin⟩
      exact ⟨v, hq, hlogin.append l⟩
  | .login .. | .logout .. | .regFile .. | .regChunks .. => trivial

/-! ## Sessions rest on logins -/

/-- Passwords are as they were loaded, and every binding of a user and a connection rests on a
login. -/
structure Vouched (p : Setup) (s : State) : Prop where
  password : ∀ u, (s.users u).password = (p.init.users u).password
  client : ∀ u c, (s.users u).client = some c → LoggedInOn p s.log c u
  user : ∀ c u, (s.conn c).user = some u → LoggedInOn p s.log c u

lemma vouched_sessions {p : Setup} {s : State} : Vouched p s.sessions ↔ Vouched p s := by
  have hlog : ∀ c u, LoggedInOn p s.sessions.log c u ↔ LoggedInOn p s.log c u := fun c u => by
    unfold LoggedInOn
    rw [show s.sessions.log = s.log.filter Obs.isSession from rfl, List.mem_filter]
    exact and_iff_left rfl
  constructor
  · rintro ⟨hpassword, hclient, huser⟩
    exact ⟨hpassword, fun u c hc => (hlog c u).mp (hclient u c hc),
      fun c u hu => (hlog c u).mp (huser c u hu)⟩
  · rintro ⟨hpassword, hclient, huser⟩
    exact ⟨hpassword, fun u c hc => (hlog c u).mpr (hclient u c hc),
      fun c u hu => (hlog c u).mpr (huser c u hu)⟩

/-- Session moves change no password. -/
lemma password_move {bindOk : State → ConnId → UserId → Prop} {s s' : State}
    (move : SessionMove bindOk s s') (u : UserId) :
    (s'.users u).password = (s.users u).password := by
  have hset : ∀ (t : State) (v : UserId) (f : User → User),
      (∀ w, (f w).password = w.password) → t.users = s.users →
        ((t.setUser v f).users u).password = (s.users u).password := by
    intro t v f hf ht
    by_cases hu : u = v
    · subst hu
      simp [State.setUser, hf, ht]
    · simp [State.setUser, hu, ht]
  rcases move with ⟨fd, addr⟩ | _ | _ | ⟨c⟩ | ⟨c, v, username, password⟩ | ⟨v, c⟩ | _ | _
  · show ((acceptClient s fd addr).users u).password = _
    rw [users_acceptClient]
  · rfl
  · rfl
  · rcases updateLastActive_eq s c with heq | ⟨v, -, -, heq⟩ <;> rw [heq]
    exact hset s v _ (fun _ => rfl) rfl
  · exact hset s v (fun w => { w with lastActive := s.now, client := some c })
      (fun _ => rfl) rfl
  · exact hset (s.setConn c fun k => { k with user := none }) v
      (fun w => { w with client := none }) (fun _ => rfl) rfl
  · rfl
  · rfl

/-- Session moves keep every binding on a login. -/
lemma vouched_move {p : Setup} {s s' : State} (h : Vouched p s)
    (move : SessionMove (fun _ _ _ => True) s s') : Vouched p s' := by
  have hpassword : ∀ u, (s'.users u).password = (p.init.users u).password := fun u =>
    (password_move move u).trans (h.password u)
  rcases move with ⟨fd, addr, free, idle⟩ | _ | _ | ⟨c, serves⟩ |
    ⟨c, w, username, password, serves, found, knows, -, ok⟩ | ⟨w, c, bound⟩ | _ | _
  · rw [vouched_sessions] at *
    refine ⟨hpassword, fun u c hc => ?_, fun c u hu => ?_⟩
    · rw [log_acceptClient]
      exact h.client u c (by rwa [users_acceptClient] at hc)
    · rw [log_acceptClient]
      rw [conn_acceptClient, Function.update_apply] at hu
      split at hu
      · cases hu
      · exact h.user c u hu
  · exact ⟨hpassword, h.client, h.user⟩
  · exact ⟨hpassword, h.client, h.user⟩
  · have hlog : (updateLastActive s c).log = s.log := by
      rcases updateLastActive_eq s c with heq | ⟨v, -, -, heq⟩ <;> rw [heq]
      rfl
    refine ⟨hpassword, fun u d hd => ?_, fun d u hu => ?_⟩ <;> rw [hlog]
    · exact h.client u d (by rwa [client_updateLastActive] at hd)
    · exact h.user d u (by rwa [conn_updateLastActive] at hu)
  · -- the user is bound with the password he has
    have hlogin : LoggedInOn p (bind s c w password).log c w := by
      rw [LoggedInOn, ← h.password w, knows]
      exact List.mem_append_right _ List.mem_cons_self
    refine ⟨hpassword, fun u d hd => ?_, fun d u hu => ?_⟩
    · rw [client_bind] at hd
      split at hd
      · next huw =>
          obtain rfl := Option.some.inj hd
          exact huw ▸ hlogin
      · exact (h.client u d hd).append _
    · rw [user_bind] at hu
      split at hu
      · next hdc =>
          obtain rfl := Option.some.inj hu
          exact hdc ▸ hlogin
      · exact (h.user d u hu).append _
  · refine ⟨hpassword, fun u d hd => ?_, fun d u hu => ?_⟩
    · rw [client_unlink] at hd
      split at hd
      · cases hd
      · exact (h.client u d hd).append _
    · rw [user_unlink] at hu
      split at hu
      · cases hu
      · exact (h.user d u hu).append _
  · exact ⟨hpassword, h.client, h.user⟩
  · exact ⟨hpassword, h.client, h.user⟩

lemma vouched_run {p : Setup} {ok : State → Event → Prop} {es : List Event} {s : State}
    (run : ServerRun ac p ok es s) : Vouched p s := by
  refine run.invariant_of ?_ (fun run => tableOk_run ac run) ?_
  · have hload := loaded_init p
    refine ⟨fun _ => rfl, fun u c hc => ?_, fun c u hu => ?_⟩
    · rw [(hload.users u).1] at hc
      cases hc
    · rw [hload.conn] at hu
      cases hu
  · intro s e s' hs h _ hstep
    have hmoves := sessions_step_any ac hs hstep
    exact vouched_sessions.mp
      (hmoves.invariant (fun _ _ h move => vouched_move h move) (vouched_sessions.mpr h))

/-! ## Every entry is cleared -/

/-- What an event emits is cleared by the history before it. -/
lemma cleared_of_emits {p : Setup} {s : State} (h : Vouched p s) {e : Event} {o : Obs}
    (hemit : Emits ac s e o) : Cleared p s.log o := by
  have hnoSender : ∀ {P : UserId → Prop}, ∀ u ∈ (none : Option UserId), P u := by simp
  rcases hemit with _ | ⟨req, c, u, v, serves, own, live, addressed, heard⟩ | _ |
    ⟨r, c, d, u, v, rsp, serves, accepted, other, bound, live, heard⟩ | _ |
    ⟨e, u, v, d, rsp, ends, other, bound, live, heard⟩ | _ | _ | _
  · exact ⟨by simp [Why.recipient], hnoSender, fun _ => ⟨_, rfl⟩⟩
  · refine ⟨fun w hw => ?_, fun w hw => ?_, fun hnone => ?_⟩
    · obtain rfl : v = w := Option.some.inj hw
      rcases hq : sendTarget s v with d | w
      · exact .inr ⟨d, rfl, h.client v d (sendTarget_eq_out hq).1⟩
      · exact .inl (congrArg Queue.offline (sendTarget_eq_offline hq).1)
    · obtain rfl : u = w := Option.some.inj hw
      exact ⟨c, h.user c u own⟩
    · exact absurd hnone (by simp [Why.recipient])
  · trivial
  · refine ⟨fun w hw => ?_, hnoSender, fun hnone => absurd hnone (by simp [Why.recipient])⟩
    obtain rfl : v = w := Option.some.inj hw
    exact .inr ⟨d, rfl, h.client v d bound⟩
  · trivial
  · refine ⟨fun w hw => ?_, hnoSender, fun hnone => absurd hnone (by simp [Why.recipient])⟩
    obtain rfl : v = w := Option.some.inj hw
    exact .inr ⟨d, rfl, h.client v d bound⟩
  · exact ⟨by simp [Why.recipient], hnoSender, fun _ => ⟨_, rfl⟩⟩
  · trivial
  · trivial

/-- What an event adds to the history is cleared by the history before it. -/
lemma cleared_exec {p : Setup} {s : State} (hs : TableOk s) (hacc : Accounted s)
    (h : Vouched p s) (e : Event) :
    ∃ l, (exec ac s e).log = s.log ++ l ∧ ∀ o ∈ l, Cleared p s.log o := by
  obtain ⟨l, hl, hnew⟩ := log_exec ac hs.server hacc.pending_fresh e
  refine ⟨l, hl, fun o ho => ?_⟩
  rcases hnew o ho with hemit | ⟨fd, n₁, n₂, c, -, -, ⟨⟩ | ⟨u, bs, passes⟩⟩
  · exact cleared_of_emits ac h hemit
  · exact .inl rfl
  · exact .inr ⟨u, rfl, h.user c u (user_of_inlineTest passes)⟩

/-- In every run each entry is cleared by the history up to it. -/
lemma cleared_run {p : Setup} {ok : State → Event → Prop} {es : List Event} {s : State}
    (run : ServerRun ac p ok es s) : ∀ x ∈ entries s.log, Cleared p x.1 x.2 := by
  refine run.invariant_of (P := fun s => ∀ x ∈ entries s.log, Cleared p x.1 x.2)
    (Q := fun s => TableOk s ∧ Accounted s ∧ Vouched p s) ?_
    (fun run => ⟨tableOk_run ac run, accounted_run ac run, vouched_run ac run⟩) ?_
  · rw [(loaded_init p).log]
    exact fun x hx => absurd hx List.not_mem_nil
  · rintro s e s' ⟨hs, hacc, hvouched⟩ ih _ hstep
    obtain ⟨-, -, rfl⟩ := (step_eq_some ac).mp hstep
    obtain ⟨l, hl, hnew⟩ := cleared_exec ac hs hacc hvouched e
    rw [hl, entries_append]
    refine List.forall_mem_append.mpr ⟨ih, fun x hx => ?_⟩
    obtain ⟨y, hy, rfl⟩ := List.mem_map.mp hx
    exact (hnew y.2 (mem_of_mem_entries hy)).append y.1

/-- What happened by some moment of a run is cleared by the history up to that moment. -/
lemma cleared_of_prefix {p : Setup} {log l : List Obs}
    (h : ∀ x ∈ entries log, Cleared p x.1 x.2) (hl : l <+: log) {o : Obs} (ho : o ∈ l) :
    Cleared p l o := by
  obtain ⟨before, after, rfl⟩ := List.append_of_mem ho
  obtain ⟨rest, rfl⟩ := hl
  refine (h (before, o) (mem_entries.mpr ⟨after ++ rest, ?_⟩)).append (o :: after)
  rw [List.append_assoc, List.cons_append]

/-! ## Every byte is read by its recipient -/

/-- A byte on a connection was put into its queue for somebody who has logged in there. -/
lemma cleared_wire {p : Setup} {ok : State → Event → Prop} {es : List Event} {s : State}
    (run : ServerRun ac p ok es s) {l : List Obs} (hl : l <+: s.log) {c : ConnId}
    {x : Cell Queue UInt8} (hx : x ∈ Ledger.wire c (moves l)) :
    ∃ why f, Ledger.tagAt x.queue (moves l) x.pos = some why ∧ .put x.queue why f ∈ moves l ∧
      (∀ v ∈ why.recipient, LoggedInOn p l c v) ∧
      (why.recipient = none → x.queue = .out c) ∧
      ∀ u ∈ why.sender, ∃ d, LoggedInOn p l d u := by
  have hmoves : moves l <+: moves s.log := hl.filterMap _
  obtain ⟨why, f, bs, htag, hput, htake⟩ :=
    Ledger.moves_of_wire ((accounted_run ac run).valid.of_prefix hmoves) hx
  have hclear := cleared_run ac run
  obtain ⟨hrecipient, hsender, hnobody⟩ :=
    cleared_of_prefix hclear hl (mem_moves.mp hput)
  refine ⟨why, f, htag, hput, fun v hv => ?_, fun hnone => ?_, hsender⟩
  · rcases cleared_of_prefix hclear hl (mem_moves.mp htake) with hown | ⟨w, hoffline, hlogin⟩
    · -- from the outbuffer, where it was put for a user of this connection
      rcases hrecipient v hv with hoffline | ⟨d, hout, hlogin⟩
      · rw [hown] at hoffline
        cases hoffline
      · rw [hown] at hout
        obtain rfl := Queue.out.inj hout
        exact hlogin
    · -- from the offline buffer of a user, who is the recipient
      rcases hrecipient v hv with hown | ⟨d, hout, -⟩
      · rw [hoffline] at hown
        obtain rfl := Queue.offline.inj hown
        exact hlogin
      · rw [hoffline] at hout
        cases hout
  · obtain ⟨d, hout⟩ := hnobody hnone
    rcases cleared_of_prefix hclear hl (mem_moves.mp htake) with hown | ⟨w, hoffline, -⟩
    · exact hown
    · rw [hoffline] at hout
      cases hout

/-- **Who reads what.** In every run, and at every moment of it, a byte written to a connection
lies in a frame that was put where the byte was taken from.  If the frame is meant for somebody,
he has logged in on this connection with his password before; if not, the byte comes from the
connection's own outbuffer.  If somebody sends the frame, he has logged in too. -/
theorem read_by_recipient {p : Setup} {ok : State → Event → Prop} {es : List Event} {s : State}
    (run : ServerRun ac p ok es s) {l : List Obs} (hl : l <+: s.log) {c : ConnId}
    {x : Cell Queue UInt8} (hx : x ∈ Ledger.wire c (moves l)) :
    ∃ why, Ledger.tagAt x.queue (moves l) x.pos = some why ∧
      (∀ v ∈ why.recipient, LoggedInOn p l c v) ∧
      (why.recipient = none → x.queue = .out c) ∧
      ∀ u ∈ why.sender, ∃ d, LoggedInOn p l d u := by
  obtain ⟨why, -, htag, -, hrecipient, hnobody, hsender⟩ := cleared_wire ac run hl hx
  exact ⟨why, htag, hrecipient, hnobody, hsender⟩

/-- Yoda was away when hans wrote to him, and the first byte he gets after his login is the
first byte of the message. -/
theorem read_by_recipient_yoda :
    ∃ s, ServerRun protobufWire demo Always
        (acceptAndServe 5 [loginAs "hans" "falcon", messageTo "yoda" "hi"] ++
          acceptAndServe 6 [loginAs "yoda" "wise"] ++ [.writable 6 none (some 1)]) s ∧
      LoggedInOn demo s.log 1 1 ∧ ∃ d, LoggedInOn demo s.log d 0 := by
  obtain ⟨s, run, hwire, htag⟩ := Run.exists_of_execute (step protobufWire) Always demo.init
    (acceptAndServe 5 [loginAs "hans" "falcon", messageTo "yoda" "hi"] ++
      acceptAndServe 6 [loginAs "yoda" "wise"] ++ [.writable 6 none (some 1)])
    (fun s => ⟨.offline 1, 0, 8⟩ ∈ Ledger.wire 1 (moves s.log) ∧
      Ledger.tagAt (.offline 1) (moves s.log) 0 = some (.chat 1 0)) (by decide +kernel)
  obtain ⟨why, htag', hrecipient, -, hsender⟩ :=
    read_by_recipient protobufWire run (List.prefix_refl s.log) hwire
  obtain rfl : why = .chat 1 0 := Option.some.inj (htag'.symm.trans htag)
  exact ⟨s, run, hrecipient 1 rfl, hsender 0 rfl⟩

end EpollChat

import EpollChat.Properties.Completion
import EpollChat.Properties.Confidentiality
import EpollChat.Properties.Wires

/-!
# Where a user can be reached

A client that wants a private session asks the server for the other user's address.  The server puts
it together from two sources: the address that the other client's connection was accepted from, and
the port that the other client has announced in its login request.  `learned` collects the two over
a run, and `getip_provenance` is the origin of the address that is given out: the user has logged
in on the connection with its password, and the port is the one of the last accepted login there.
-/

namespace EpollChat

variable (ac : Achelper)

/-- What the server learns of a client's address. -/
inductive Announcement
  | accepted (addr : SockAddr)
  | port (port : UInt32)

/-- What an event says of the address of a connection's client. -/
def learned (s : State) : Event → List (ConnId × Announcement)
  | .accept _ addr => [(s.nconns, .accepted addr)]
  | .request (.login r) =>
      match s.serving, acceptedUser s r.username r.password with
      | some c, some _ => [(c, .port r.port)]
      | _, _ => []
  | _ => []

/-- The addresses of the connections, and the number of the next one. -/
def State.addresses (s : State) : (ConnId → SockAddr) × ℕ := (fun c => (s.conn c).addr, s.nconns)

variable {ac}

section Same

variable {s t : State}

lemma addresses_of_core (h : t.core = s.core) : t.addresses = s.addresses := by
  have hcore := congrArg State.addresses h
  exact hcore

lemma addresses_setConn (s : State) (c : ConnId) {f : Conn → Conn}
    (h : ∀ k, (f k).addr = k.addr) : (s.setConn c f).addresses = s.addresses := by
  refine Prod.ext (funext fun d => ?_) rfl
  by_cases hd : d = c
  · subst hd
    simp [State.addresses, State.setConn, h]
  · simp [State.addresses, State.setConn, hd]

lemma addresses_unlink (s : State) (u : UserId) (c : ConnId) :
    (unlink s u c).addresses = s.addresses :=
  addresses_setConn s c (f := fun k => { k with user := none }) fun _ => rfl

lemma addresses_unbind (s : State) (u : Option UserId) : (unbind s u).addresses = s.addresses := by
  unfold unbind
  split
  · rfl
  split
  · rfl
  · exact addresses_unlink s _ _

lemma addresses_logoutUser (s : State) (u : Option UserId) :
    (logoutUser ac s u).addresses = s.addresses := by
  have hcore := congrArg State.addresses (core_logoutUser ac s u)
  exact hcore.trans (addresses_unbind s.core u)

lemma addresses_closeSocket (s : State) (c : ConnId) :
    (closeSocket ac s c).addresses = s.addresses := by
  have hcore := congrArg State.addresses (core_closeSocket ac s c)
  exact hcore.trans (addresses_unbind s.core (s.conn c).user)

lemma addresses_timeThread (s : State) : (timeThread ac s).addresses = s.addresses := by
  unfold timeThread
  generalize s.clients = l
  induction l generalizing s with
  | nil => rfl
  | cons c l ih =>
      refine (ih _).trans ?_
      unfold sweepClient
      split
      · rw [sendResponseToClient_eq, addresses_of_core (core_deliver ac _ _), addresses_logoutUser]
      · rfl

lemma addresses_updateLastActive (s : State) (c : ConnId) :
    (updateLastActive s c).addresses = s.addresses := by
  rcases updateLastActive_eq s c with h | ⟨u, -, -, h⟩ <;> rw [h]
  rfl

lemma addresses_setChunks (s : State) (c : ConnId) (client : Option ChunkList) :
    (setChunks s c client).addresses = s.addresses := by
  rcases client with _ | client
  · rfl
  · exact addresses_setConn s c (f := fun k => { k with chunks := client }) fun _ => rfl

lemma addresses_of_effect {c : ConnId} {req : Request} (h : CommandEffect ac s c req t) :
    t.addresses = s.addresses := by
  cases h with
  | reads _ cs => exact addresses_of_core (core_touches s cs)
  | messages r u ds => exact addresses_of_core (core_deliverAll ac s ds)
  | blocks => rfl
  | taken => rfl
  | file r => exact addresses_setChunks _ c _
  | chunks r f => exact addresses_setChunks s c _

/-- The port of an accepted login. -/
lemma addresses_cmdLoginImpl (s : State) (c : ConnId) (r : LoginRequest) :
    (cmdLoginImpl ac s c r).1.addresses =
      if (acceptedUser s r.username r.password).isSome then
        (Function.update s.addresses.1 c { s.addresses.1 c with sinPort := htons r.port }, s.nconns)
      else s.addresses := by
  rcases haccepted : acceptedUser s r.username r.password with _ | u
  · obtain ⟨rsp, hrsp⟩ := cmdLoginImpl_of_refused ac (c := c) haccepted
    rw [hrsp]
    show (refused s r.username r.password).addresses = _
    rcases refused_cases s r.username r.password with h | ⟨u, attempts, lastBlocked, -, h⟩ <;> rw [h] <;>
      rfl
  · rw [cmdLoginImpl_of_accepted ac haccepted, if_pos Option.isSome_some]
    generalize ht : deliverAll ac (refresh s u) (loginAnnouncements ac (refresh s u) u r.username) = t
    have hsame : t.addresses = s.addresses := by
      rw [← ht, addresses_of_core (core_deliverAll ac _ _)]
      rfl
    rw [← hsame, ← show t.nconns = s.nconns from congrArg Prod.snd hsame]
    refine Prod.ext (funext fun d => ?_) rfl
    by_cases hd : d = c
    · subst hd
      simp [State.addresses, link, State.setConn, State.setUser, State.emit]
    · simp [State.addresses, link, State.setConn, State.setUser, State.emit, hd]

/-- Serving a request changes an address if it is a login that is accepted. -/
lemma addresses_serve (s : State) (c : ConnId) (req : Request) :
    (serve ac s c req).addresses = (runCommand ac s c req).1.addresses := by
  rw [addresses_of_core (core_serve ac s c req)]
  by_cases hunknown : ∃ type, req = .unknown type
  · obtain ⟨type, rfl⟩ := hunknown
    rfl
  · rw [runRequest_of_known ac s c fun type h => hunknown ⟨type, h⟩]
    exact addresses_updateLastActive _ c

/-- A request that is no login changes no address. -/
lemma addresses_runCommand (s : State) (c : ConnId) {req : Request}
    (hlogin : ∀ r, req ≠ .login r) : (runCommand ac s c req).1.addresses = s.addresses := by
  cases hquiet : req.isQuiet with
  | true => exact addresses_of_effect (runCommand_effect ac s c hquiet)
  | false =>
      cases req with
      | login r => exact absurd rfl (hlogin r)
      | logout =>
          show (cmdLogoutImpl ac s c).1.addresses = _
          unfold cmdLogoutImpl
          split
          · rfl
          · exact addresses_closeSocket s c
      | _ => cases hquiet

/-- Closing connections, drains and the clock change no address. -/
lemma addresses_exec {e : Event} (haccept : ∀ fd addr, e ≠ .accept fd addr)
    (hrequest : ∀ req, e ≠ .request req) : (exec ac s e).addresses = s.addresses := by
  have hclose : ∀ fd, (exec ac s (.hangup fd)).addresses = s.addresses := fun fd => by
    rw [exec]
    rcases pickConn s fd with _ | c
    · rfl
    · exact addresses_closeSocket s c
  rcases e with ⟨fd, addr⟩ | fd | fd | fd | req | _ | ⟨fd, n₁, n₂⟩ | seconds | _
  · exact absurd rfl (haccept fd addr)
  · exact hclose fd
  · exact hclose fd
  · rfl
  · exact absurd rfl (hrequest req)
  · rfl
  · rw [exec]
    rcases pickConn s fd with _ | c
    · rfl
    · exact addresses_of_core (core_networkWritable s c n₁ n₂)
  · rfl
  · exact addresses_timeThread s

variable (ac) in
/-- A request changes the address of its connection if it is an accepted login. -/
lemma addresses_request (s : State) (req : Request) :
    (∃ c port, s.serving = some c ∧ learned s (.request req) = [(c, .port port)] ∧
      (exec ac s (.request req)).addresses =
        (Function.update s.addresses.1 c { s.addresses.1 c with sinPort := htons port },
          s.nconns)) ∨
    learned s (.request req) = [] ∧ (exec ac s (.request req)).addresses = s.addresses := by
  rcases hserving : s.serving with _ | c
  · refine .inr ⟨?_, ?_⟩
    · rcases req with _ | _ | _ | _ | _ | _ | _ | _ | _ | _ | _ <;> simp [learned, hserving]
    · rw [exec, hserving]
  have hexec : (exec ac s (.request req)).addresses = (runCommand ac s c req).1.addresses := by
    rw [exec, hserving]
    exact addresses_serve s c req
  by_cases hlogin : ∃ r, req = .login r
  · obtain ⟨r, rfl⟩ := hlogin
    have hcommand : (runCommand ac s c (.login r)).1.addresses = _ := addresses_cmdLoginImpl s c r
    rcases haccepted : acceptedUser s r.username r.password with _ | u
    · rw [haccepted, if_neg (by simp)] at hcommand
      exact .inr ⟨by simp [learned, hserving, haccepted], hexec.trans hcommand⟩
    · rw [haccepted, if_pos Option.isSome_some] at hcommand
      exact .inl ⟨c, r.port, rfl, by simp [learned, hserving, haccepted], hexec.trans hcommand⟩
  · have hother : ∀ r, req ≠ .login r := fun r heq => hlogin ⟨r, heq⟩
    refine .inr ⟨?_, hexec.trans (addresses_runCommand s c hother)⟩
    rcases req with r | _ | _ | _ | _ | _ | _ | _ | _ | _ | _
    case login => exact absurd rfl (hother r)
    all_goals rfl

variable (ac) in
/-- What an event does to the addresses is what is learnt from it. -/
lemma addresses_cases (s : State) (e : Event) :
    (∃ addr, learned s e = [(s.nconns, .accepted addr)] ∧
      (exec ac s e).addresses = (Function.update s.addresses.1 s.nconns addr, s.nconns + 1)) ∨
    (∃ c port, s.serving = some c ∧ learned s e = [(c, .port port)] ∧ (exec ac s e).addresses =
      (Function.update s.addresses.1 c { s.addresses.1 c with sinPort := htons port }, s.nconns)) ∨
    learned s e = [] ∧ (exec ac s e).addresses = s.addresses := by
  by_cases haccept : ∃ fd addr, e = .accept fd addr
  · obtain ⟨fd, addr, rfl⟩ := haccept
    refine .inl ⟨addr, rfl, ?_⟩
    rw [exec]
    refine Prod.ext (funext fun d => ?_) (nconns_acceptClient s fd addr)
    by_cases hd : d = s.nconns
    · subst hd
      simp [State.addresses, newConn]
    · simp [State.addresses, hd]
  by_cases hrequest : ∃ req, e = .request req
  · obtain ⟨req, rfl⟩ := hrequest
    exact .inr (addresses_request ac s req)
  have hother : ∀ req, e ≠ .request req := fun req heq => hrequest ⟨req, heq⟩
  have hlater : ∀ fd addr, e ≠ .accept fd addr := fun fd addr heq => haccept ⟨fd, addr, heq⟩
  refine .inr (.inr ⟨?_, addresses_exec hlater hother⟩)
  rcases e with ⟨fd, addr⟩ | _ | _ | _ | req | _ | _ | _ | _
  case accept => exact absurd rfl (hlater fd addr)
  case request => exact absurd rfl (hother req)
  all_goals rfl

end Same

/-! ## What is known of an address -/

/-- The address of every connection is the one it was accepted from, with the port that was
announced last. -/
structure AddressesTold (s : State) (told : List (ConnId × Announcement)) : Prop where
  addr : ∀ c < s.nconns, ∃ (addr : SockAddr) (ports : List UInt32),
    onConn c told = .accepted addr :: ports.map .port ∧
      (s.conn c).addr = { addr with sinPort := (ports.getLast?.map htons).getD addr.sinPort }
  fresh : ∀ c, s.nconns ≤ c → onConn c told = []
  /-- A login announces a port. -/
  port : ∀ c u password, .login c u password ∈ s.log → ∃ q, .port q ∈ onConn c told

section Told

variable {s t : State} {told : List (ConnId × Announcement)}

lemma onConn_snoc_of_ne {c d : ConnId} (hne : c ≠ d) (a : Announcement) :
    onConn c (told ++ [(d, a)]) = onConn c told := by
  rw [onConn_append, onConn_singleton, if_neg (Ne.symm hne), List.append_nil]

variable (ac) in
/-- A login that is new in the history has announced a port. -/
lemma AddressesTold.port_exec (h : AddressesTold s told) (hserver : s.isServer = true)
    (hacc : Accounted s) (e : Event) {c : ConnId} {u : UserId} {password : Bytes}
    (hlogin : .login c u password ∈ (exec ac s e).log) :
    ∃ q, .port q ∈ onConn c (told ++ learned s e) := by
  obtain ⟨l, hl, hnew⟩ := log_exec ac hserver hacc.pending_fresh e
  rw [hl] at hlogin
  rw [onConn_append]
  rcases List.mem_append.mp hlogin with hlogin | hlogin
  · obtain ⟨q, hq⟩ := h.port c u password hlogin
    exact ⟨q, List.mem_append_left _ hq⟩
  · rcases hnew _ hlogin with hemits | ⟨_, _, _, _, _, _, hdrain⟩
    · cases hemits with
      | login r _ _ hserving haccepted =>
          refine ⟨r.port, List.mem_append_right _ ?_⟩
          simp [learned, hserving, haccepted, onConn]
    · cases hdrain

/-- A new connection has the address it was accepted from. -/
lemma AddressesTold.accepted (h : AddressesTold s told) {addr : SockAddr}
    (haddresses : t.addresses = (Function.update s.addresses.1 s.nconns addr, s.nconns + 1))
    (hport : ∀ c u password, .login c u password ∈ t.log →
      ∃ q, .port q ∈ onConn c (told ++ [(s.nconns, .accepted addr)])) :
    AddressesTold t (told ++ [(s.nconns, .accepted addr)]) := by
  obtain ⟨haddr, hnconns⟩ := Prod.mk.inj haddresses
  refine ⟨fun c hc => ?_, fun c hc => ?_, hport⟩
  · have hc' : (t.conn c).addr = _ := congrFun haddr c
    by_cases hnew : c = s.nconns
    · subst hnew
      refine ⟨addr, [], ?_, ?_⟩
      · rw [onConn_append, h.fresh _ le_rfl, onConn_singleton, if_pos rfl]
        rfl
      · rw [hc', Function.update_self]
        rfl
    · rw [onConn_snoc_of_ne hnew, hc', Function.update_of_ne hnew]
      exact h.addr c (by omega)
  · have hne : c ≠ s.nconns := by omega
    rw [onConn_snoc_of_ne hne]
    exact h.fresh c (by omega)

/-- An accepted login replaces the port. -/
lemma AddressesTold.announced (h : AddressesTold s told) {d : ConnId} {q : UInt32}
    (hd : d < s.nconns)
    (haddresses : t.addresses =
      (Function.update s.addresses.1 d { s.addresses.1 d with sinPort := htons q }, s.nconns))
    (hport : ∀ c u password, .login c u password ∈ t.log →
      ∃ q', .port q' ∈ onConn c (told ++ [(d, .port q)])) :
    AddressesTold t (told ++ [(d, .port q)]) := by
  obtain ⟨haddr, hnconns⟩ := Prod.mk.inj haddresses
  refine ⟨fun c hc => ?_, fun c hc => ?_, hport⟩
  · have hc' : (t.conn c).addr = _ := congrFun haddr c
    obtain ⟨addr, ports, hports, hknown⟩ := h.addr c (by omega)
    by_cases hcd : c = d
    · subst hcd
      refine ⟨addr, ports ++ [q], ?_, ?_⟩
      · rw [onConn_append, hports, onConn_singleton, if_pos rfl, List.map_append]
        rfl
      · rw [hc', Function.update_self]
        simp [State.addresses, hknown]
    · rw [onConn_snoc_of_ne hcd, hc', Function.update_of_ne hcd]
      exact ⟨addr, ports, hports, hknown⟩
  · have hne : c ≠ d := (lt_of_lt_of_le hd (hnconns ▸ hc)).ne'
    rw [onConn_snoc_of_ne hne]
    exact h.fresh c (by omega)

lemma AddressesTold.step {s' : State} {e : Event} (hs : TableOk s) (hacc : Accounted s)
    (h : AddressesTold s told) (hstep : step ac s e = some s') :
    AddressesTold s' (told ++ learned s e) := by
  obtain ⟨-, -, rfl⟩ := (step_eq_some ac).mp hstep
  have hport : ∀ c u password, .login c u password ∈ (exec ac s e).log →
      ∃ q, .port q ∈ onConn c (told ++ learned s e) := fun c u password =>
    h.port_exec ac hs.server hacc e
  rcases addresses_cases ac s e with ⟨addr, hlearned, haddresses⟩ |
    ⟨d, q, hserving, hlearned, haddresses⟩ | ⟨hlearned, haddresses⟩
  · rw [hlearned] at hport ⊢
    exact h.accepted haddresses hport
  · rw [hlearned] at hport ⊢
    exact h.announced (hs.clients_lt d (hs.serving_ok d hserving).1) haddresses hport
  · obtain ⟨haddr, hnconns⟩ := Prod.mk.inj haddresses
    rw [hlearned, List.append_nil] at hport ⊢
    refine ⟨fun c hc => ?_, fun c hc => h.fresh c (by omega), hport⟩
    have hc' : ((exec ac s e).conn c).addr = _ := congrFun haddr c
    rw [hc']
    exact h.addr c (by omega)

end Told

variable (ac) in
lemma addressesTold_run {p : Setup} {ok : State → Event → Prop} {es : List Event} {s : State}
    (run : ServerRun ac p ok es s) :
    AddressesTold s (trace (step ac) learned p.init es) := by
  induction run with
  | nil =>
      have hloaded := loaded_init p
      refine ⟨fun c hc => ?_, fun _ _ => rfl, fun c u password hlogin => ?_⟩
      · rw [hloaded.nconns] at hc
        omega
      · rw [hloaded.log] at hlogin
        cases hlogin
  | snoc run _ hstep ih =>
      rw [trace_snoc run]
      exact ih.step (tableOk_run ac run) (accounted_run ac run) hstep

/-- **The address of a user.** In every run, a request for somebody's address that succeeds is
answered with the address that a connection was accepted from, with the port of the last accepted
login on it; and the user has logged in on this connection with the password it was loaded with, and
has it for its session. -/
theorem getip_provenance {p : Setup} {ok : State → Event → Prop} {es : List Event} {s : State}
    (run : ServerRun ac p ok es s) {c : ConnId} {req : UsernameRequest} {rsp : IMResponse}
    (hanswer : (cmdGetipImpl ac s c req).2 = some rsp) (hsuccess : rsp.success = true) :
    ∃ (v : UserId) (d : ConnId) (addr : SockAddr) (ports : List UInt32) (port : UInt32),
      findUser s req.username = some v ∧ (s.users v).client = some d ∧
      LoggedInOn p s.log d v ∧
      onConn d (trace (step ac) learned p.init es) =
        .accepted addr :: (ports ++ [port]).map .port ∧
      rsp = encodeGetIPResponse ac (cstr req.username) { addr with sinPort := htons port }.bytes := by
  have htold := addressesTold_run ac run
  rcases cmdGetipImpl_cases ac s c req with ⟨msg, hrefused⟩ |
    ⟨self, v, d, -, hfound, -, -, hclient, hgiven⟩
  · rw [hrefused] at hanswer
    obtain rfl := Option.some.inj hanswer
    cases hsuccess
  rw [hgiven] at hanswer
  obtain rfl := Option.some.inj hanswer
  have hlogin := (vouched_run ac run).client v d hclient
  obtain ⟨addr, ports, hports, haddr⟩ := htold.addr d ((tableOk_run ac run).client_lt v d hclient)
  obtain ⟨q, hq⟩ := htold.port d v _ hlogin
  -- there was a login, so the list of ports is not empty
  obtain ⟨before, port, rfl⟩ : ∃ before port, ports = before ++ [port] := by
    rcases List.eq_nil_or_concat ports with rfl | ⟨before, port, heq⟩
    · rw [hports] at hq
      simp at hq
    · exact ⟨before, port, by rw [heq, List.concat_eq_append]⟩
  refine ⟨v, d, addr, before, port, hfound, hclient, hlogin, hports, ?_⟩
  rw [haddr]
  simp

/-- yoda asks for the address of hans, whose client listens at port 5000. -/
def asksForHans : List Event :=
  acceptAndServe 5 [.login ⟨text "hans", text "falcon", 5000⟩] ++
    acceptAndServe 6 [loginAs "yoda" "wise"]

theorem getip_provenance_hans :
    ∃ s rsp, ServerRun protobufWire demo Always asksForHans s ∧
      (cmdGetipImpl protobufWire s 1 ⟨text "hans"⟩).2 = some rsp ∧
      ∃ (d : ConnId) (addr : SockAddr) (ports : List UInt32) (port : UInt32),
        LoggedInOn demo s.log d 0 ∧
        onConn d (trace (step protobufWire) learned demo.init asksForHans) =
          .accepted addr :: (ports ++ [port]).map .port ∧
        rsp = encodeGetIPResponse protobufWire (text "hans")
          { addr with sinPort := htons port }.bytes := by
  obtain ⟨s, run, hfound, hsuccess⟩ := Run.exists_of_execute (step protobufWire) Always demo.init
    asksForHans (fun s => findUser s (text "hans") = some 0 ∧
      (cmdGetipImpl protobufWire s 1 ⟨text "hans"⟩).2.map IMResponse.success = some true)
    (by decide +kernel)
  obtain ⟨rsp, hanswer, hsuccess⟩ := Option.map_eq_some_iff.mp hsuccess
  obtain ⟨v, d, addr, ports, port, hv, -, hlogin, htold, rfl⟩ :=
    getip_provenance run hanswer hsuccess
  obtain rfl : 0 = v := Option.some.inj (hfound.symm.trans hv)
  exact ⟨s, _, run, hanswer, d, addr, ports, port, hlogin, htold, by rfl⟩

end EpollChat

import EpollChat.Construction.Network
import EpollChat.Properties.Channels
import EpollChat.Properties.Messaging

/-!
# From one client to another

The results on the single programs, put together over the network.  The server and its clients act
in any order, and the bytes between them come in any pieces (`Network.Regular`: reads do not fail,
and drains leave frames together).

What a client makes of its stream are then responses of the server, each once and those of one
queue in order.  And a chat message among them was asked for: its sender has logged in with his
password, on the connection of a program that has sent a message request with this text; if this
program is a client of the network, the request is one that the client has sent
(`chat_end_to_end`).
-/

namespace EpollChat

variable {ι : Type} [DecidableEq ι] (ac : Achelper)

namespace Network

/-- The streams are in order, no read fails, and drains leave frames together. -/
def Regular (n : Network ι) (e : NetworkEvent ι) : Prop :=
  (∀ n' ∈ n.step ac e, n'.InOrder) ∧
    (∀ e' ∈ n.serverEvents e, Wired.NoErrors n.server e' ∧ Wired.onOther DrainsFramed n.server e') ∧
    ∀ i, ∀ e' ∈ n.clientEvents i e, Wired.NoErrors (n.clients i) e'

instance [Fintype ι] (n : Network ι) (e : NetworkEvent ι) : Decidable (Regular ac n e) := by
  unfold Regular
  infer_instance

/-- Runs of the network. -/
abbrev Runs (p : Setup) (k : ι → ClientSetup) : List (NetworkEvent ι) → Network ι → Prop :=
  Run (step ac) (Regular ac) (init p k)

section Observed

variable (p : Setup) (k : ι → ClientSetup) (es : List (NetworkEvent ι))

/-- The requests that the server serves. -/
def served : List (ConnId × Request) := trace (step ac) (atServer (servedOnBytes ac)) (init p k) es

/-- What a client sends to the server. -/
def sent (i : ι) : List Outgoing :=
  onConn serverConn (trace (step ac) (atClient i (sentOnBytes ac)) (init p k) es)

/-- The responses of the server that a client handles. -/
def heard (i : ι) : List (Bool × Response) :=
  onConn serverConn (trace (step ac) (atClient i (heardOnBytes ac)) (init p k) es)

end Observed

variable {ac} {p : Setup} {k : ι → ClientSetup} {es : List (NetworkEvent ι)} {n : Network ι}

/-- A step of the network is one of the server, or the server rests. -/
lemma simulates_server :
    Simulates (step ac) (Regular ac) (Wired.step (serverEndpoint ac))
      (fun w e => Wired.NoErrors w e ∧ Wired.onOther DrainsFramed w e) server serverEvents
      (fun _ : Network ι => True) := by
  refine ⟨fun {n e n'} _ hok hstep => ?_⟩
  rcases e with ⟨fd, addr, i⟩ | e | ⟨i, e⟩ <;> simp only [step] at hstep
  · split at hstep
    · obtain ⟨w, hw, rfl⟩ := Option.map_eq_some_iff.mp hstep
      exact .single (hok.2.1 _ List.mem_cons_self) hw
    · cases hstep
  · obtain ⟨w, hw, rfl⟩ := Option.map_eq_some_iff.mp hstep
    exact .single (hok.2.1 _ List.mem_cons_self) hw
  · obtain ⟨v, -, rfl⟩ := Option.map_eq_some_iff.mp hstep
    exact .nil

/-- A step of the network is one of a client, or the client rests. -/
lemma simulates_client (i : ι) :
    Simulates (step ac) (Regular ac) (Wired.step (clientEndpoint ac)) Wired.NoErrors
      (fun n => n.clients i) (clientEvents i) (fun _ : Network ι => True) := by
  refine ⟨fun {n e n'} _ hok hstep => ?_⟩
  have hok := hok.2.2 i
  rcases e with ⟨fd, addr, j⟩ | e | ⟨j, e⟩ <;> simp only [step] at hstep
  · split at hstep
    · obtain ⟨w, -, rfl⟩ := Option.map_eq_some_iff.mp hstep
      exact .nil
    · cases hstep
  · obtain ⟨w, -, rfl⟩ := Option.map_eq_some_iff.mp hstep
    exact .nil
  · obtain ⟨v, hv, rfl⟩ := Option.map_eq_some_iff.mp hstep
    simp only [clientEvents] at hok ⊢
    by_cases hj : j = i
    · subst hj
      rw [if_pos rfl] at hok ⊢
      rw [Function.update_self]
      exact .single (hok _ List.mem_cons_self) hv
    · rw [if_neg hj, Function.update_of_ne (Ne.symm hj)]
      exact .nil

lemma serverRun (run : Runs ac p k es n) :
    Run (Wired.step (serverEndpoint ac))
      (fun w e => Wired.NoErrors w e ∧ Wired.onOther DrainsFramed w e) (Wired.init p.init)
      (trace (step ac) serverEvents (init p k) es) n.server :=
  simulates_server.run (fun _ => trivial) run

lemma clientRun (run : Runs ac p k es n) (i : ι) :
    Run (Wired.step (clientEndpoint ac)) Wired.NoErrors (Wired.init (k i).init)
      (trace (step ac) (clientEvents i) (init p k) es) (n.clients i) :=
  (simulates_client i).run (fun _ => trivial) run

/-- What is observed at the server is what the server's run shows. -/
lemma trace_atServer (run : Runs ac p k es n) {ο : Type}
    (obs : Wired State → WiredEvent Event Unit → List ο) :
    trace (Wired.step (serverEndpoint ac)) obs (Wired.init p.init)
        (trace (step ac) serverEvents (init p k) es) =
      trace (step ac) (atServer obs) (init p k) es := by
  refine simulates_server.trace_eq (fun _ => trivial) (fun {n e n'} _ _ _ => ?_) run
  rcases e with _ | _ | _ <;> simp [serverEvents, atServer]

lemma trace_atClient (run : Runs ac p k es n) (i : ι) {ο : Type}
    (obs : Wired Client → WiredEvent ClientEvent (Answers × Bool) → List ο) :
    trace (Wired.step (clientEndpoint ac)) obs (Wired.init (k i).init)
        (trace (step ac) (clientEvents i) (init p k) es) =
      trace (step ac) (atClient i obs) (init p k) es := by
  refine (simulates_client i).trace_eq (fun _ => trivial) (fun {n e n'} _ _ _ => ?_) run
  rcases e with _ | _ | ⟨j, e⟩
  · rfl
  · rfl
  · by_cases hj : j = i <;> simp [clientEvents, atClient, hj]

omit [DecidableEq ι] in
lemma inOrder_init (p : Setup) (k : ι → ClientSetup) : (init p k).InOrder :=
  fun _ => ⟨fun _ hc => absurd hc (Option.not_mem_none _), fun _ => rfl⟩

/-- **The streams stay in order.** -/
lemma inOrder_run (run : Runs ac p k es n) : n.InOrder :=
  run.invariant (inOrder_init p k) fun _ hok hstep => hok.1 _ hstep

end Network

/-! ## The server's history -/

/-- What is in the history stays there. -/
lemma log_prefix {p : Setup} {ok : State → Event → Prop} {es es' : List Event} {s s' : State}
    (run : ServerRun ac p ok es s) (run' : ServerRun ac p ok (es ++ es') s') : s.log <+: s'.log := by
  induction es' using List.reverseRecOn generalizing s' with
  | nil =>
      rw [List.append_nil] at run'
      rw [run.unique run']
  | append_singleton es' e ih =>
      rw [← List.append_assoc] at run'
      obtain ⟨t, trun, -, hstep⟩ := run'.of_snoc
      obtain ⟨-, -, rfl⟩ := (step_eq_some ac).mp hstep
      have hfresh := (accounted_run ac trun).pending_fresh
      obtain ⟨l, hl, -⟩ := log_exec ac (tableOk_run ac trun).server hfresh e
      exact (ih trun).trans ⟨l, hl.symm⟩

variable {ac}

/-- The origin of a chat frame, as far as it can be seen from outside the server. -/
lemma chat_served {p : Setup} (hp : 0 < p.loginTimeout) {ok : State → Event → Prop}
    {es : List Event} {s : State} (run : ServerRun ac p ok es s) {q : Queue} {u v : UserId}
    {f : Bytes} (hput : .put q (.chat v u) f ∈ moves s.log) :
    ∃ d r, (d, .message r) ∈ trace (step ac) served p.init es ∧ LoggedInOn p s.log d u ∧
      f = (Response.text (p.usernames u ++ text ": " ++ cstr r.msg)).frame ac true := by
  obtain ⟨es₁, es₂, s₁, d, r, m, deed, msg, rfl, run₁, hserving, -, -, hd, hposts, hf⟩ :=
    chat_deed hp run hput
  obtain ⟨-, w, huser, -, hcases⟩ := messageDeeds_cases hd
  obtain ⟨rfl, rfl⟩ : w = u ∧ cstr r.msg = msg := by
    rcases hcases with ⟨-, rfl⟩ | ⟨-, v', -, -, rfl⟩
    · exact Letter.said.inj hposts.2.symm
    · exact Letter.said.inj hposts.2.symm
  refine ⟨d, r, ?_, ?_, hf⟩
  · rw [trace_append run₁]
    refine List.mem_append_right _ ?_
    rw [trace]
    refine List.mem_append_left _ ?_
    rw [served, hserving]
    exact List.mem_singleton_self _
  · obtain ⟨rest, hrest⟩ := log_prefix ac run₁ run
    exact hrest ▸ ((vouched_run ac run₁).user d w huser).append rest

/-! ## From one client to another -/

variable (ac) in
/-- **The origin of a response** on the connection of a client.  Its tag in the history of the
server says who it is for: he has logged in there.  If it is a chat message, then the sender has
logged in on a connection on which a message request with its text was served; and if a client of
the network is there, it has sent this request. -/
structure Originates (p : Setup) (k : ι → ClientSetup) (es : List (NetworkEvent ι)) (n : Network ι)
    (c : ConnId) (x : Queued) : Prop where
  put : (x.placed ac).In (moves n.server.program.log)
  recipient : ∀ why, Ledger.tagAt x.queue (moves n.server.program.log) x.pos = some why →
    ∀ v ∈ why.recipient, LoggedInOn p n.server.program.log c v
  chat : ∀ v u, Ledger.tagAt x.queue (moves n.server.program.log) x.pos = some (.chat v u) →
    ∃ d r, (d, .message r) ∈ Network.served ac p k es ∧
      LoggedInOn p n.server.program.log d u ∧
      x.success = true ∧ x.rsp = .text (p.usernames u ++ text ": " ++ cstr r.msg) ∧
      ∀ j, n.link j = some d →
        ∃ req, .request req ∈ Network.sent ac p k es j ∧ parseRequest ac req = some (.message r)

section EndToEnd

variable (hac : ac.Lawful) (hwide : ac.Wide)
include hac hwide

/-- A response is determined by its frame. -/
lemma eq_of_frame {x : Queued} {success : Bool} {rsp : Response} (hx : x.rsp.OfServer)
    (hrsp : rsp.OfServer) (hshort : (x.rsp.frame ac x.success).length < 2 ^ 62)
    (heq : x.rsp.frame ac x.success = rsp.frame ac success) : x.success = success ∧ x.rsp = rsp := by
  have hparsed := parsed_ofServer hac hwide hx hshort
  have hparsed' := parsed_ofServer hac hwide hrsp (heq ▸ hshort)
  rw [← (decode_response hac hwide (hshort.trans (by decide))).2] at hparsed
  rw [← (decode_response hac hwide ((heq ▸ hshort).trans (by decide))).2] at hparsed'
  have hsame := congrArg (fun f => (Client.decodeResponse ac f).bind fun m => responseOf ac m.1) heq
  exact Prod.mk.inj (Option.some.inj (hparsed.symm.trans (hsame.trans hparsed')))

variable (hcommand : Incremental (decodeCommand ac))
  (hresponse : Incremental (Client.decodeResponse ac)) {p : Setup} {k : ι → ClientSetup}
  {es : List (NetworkEvent ι)} {n : Network ι} (run : Network.Runs ac p k es n)
  (hfits : FramesFit n.server.program.log)
  (hfits' : ∀ i, ∀ x ∈ Network.sent ac p k es i, (x.bytes ac).length < 2 ^ 64)
include hcommand hresponse run hfits hfits'

/-- The requests that are served on a client's connection are the first that the client has sent. -/
lemma served_of_client {j : ι} {d : ConnId} (hlink : n.link j = some d) :
    ∃ (reqs : List IMRequest) (m : ℕ),
      Network.sent ac p k es j = reqs.map .request ∧
      (onConn d (Network.served ac p k es)).map some = (reqs.take m).map (parseRequest ac) ∧
      ((n.clients j).program.program.pending (.out serverConn) = [] →
        n.server.received d = n.toServer j →
        n.server.program.serving ≠ some d → reqs.take m = reqs) := by
  obtain ⟨htoServer, htoClient⟩ := (Network.inOrder_run run j).1 d hlink
  have hsent := Network.trace_atClient run j (sentOnBytes ac)
  have hfits'' := hfits' j
  rw [Network.sent, ← hsent] at hfits'' ⊢
  obtain ⟨reqs, m, hreqs, hmatched, hall⟩ := requests_served hac hwide hcommand hresponse
    (Network.serverRun run) (Network.clientRun run j) htoServer htoClient hfits hfits''
  rw [Network.trace_atServer run] at hmatched
  exact ⟨reqs, m, hreqs, hmatched, hall⟩

lemma sent_of_served {j : ι} {d : ConnId} (hlink : n.link j = some d) {r : Request}
    (hserved : (d, r) ∈ Network.served ac p k es) :
    ∃ req, .request req ∈ Network.sent ac p k es j ∧ parseRequest ac req = some r := by
  obtain ⟨reqs, m, hreqs, hmatched, -⟩ :=
    served_of_client hac hwide hcommand hresponse run hfits hfits' hlink
  have hmem : some r ∈ (reqs.take m).map (parseRequest ac) := by
    rw [← hmatched]
    exact List.mem_map_of_mem (List.mem_filterMap.mpr ⟨_, hserved, if_pos rfl⟩)
  obtain ⟨req, hreq, hparse⟩ := List.mem_map.mp hmem
  refine ⟨req, ?_, hparse⟩
  rw [hreqs]
  exact List.mem_map_of_mem (List.mem_of_mem_take hreq)

/-- **From one client to another.** In every regular run of the network, the responses that a client
has handled on its connection to the server were queued there for those who have logged in, each is
handled once, those of one queue in order, and the chat messages among them were sent as such.
Once the connection's outbuffer has been written and read, everything that was queued there has
been handled. -/
theorem chat_end_to_end (hp : 0 < p.loginTimeout) {i : ι} {c : ConnId} (hlink : n.link i = some c) :
    ∃ xs : List Queued,
      Network.heard ac p k es i = xs.map (fun x => (x.success, x.rsp)) ∧
      xs.Pairwise (fun x y => x.queue = y.queue → x.pos < y.pos) ∧
      (∀ x ∈ xs, Originates ac p k es n c x) ∧
      (n.server.program.pending (.out c) = [] →
        (n.clients i).received serverConn = n.fromServer c →
        (n.clients i).program.program.serving ≠ some serverConn →
        ∀ z : Ledger.Placed Queue UInt8, z.In (moves n.server.program.log) → z.1 = .out c →
          z ∈ xs.map (Queued.placed ac)) := by
  have hserver := Network.serverRun run
  have hmessages := simulates_framed.run (fun _ => trivial) hserver
  have hserved : trace (step ac) EpollChat.served p.init _ = Network.served ac p k es :=
    (simulates_framed.trace_eq (fun _ => trivial)
      (fun _ _ hstep => Wired.trace_events observes_server hstep) hserver).trans
        (Network.trace_atServer run (servedOnBytes ac))
  obtain ⟨htoServer, htoClient⟩ := (Network.inOrder_run run i).1 c hlink
  obtain ⟨xs, hxs, hcells, hordered, -, hheard, hall⟩ := server_heard hac hwide hresponse hmessages
    hfits (fun _ _ h => h) (Network.clientRun run i) htoClient
  refine ⟨xs, ?_, hordered, fun x hx => ?_, hall⟩
  · rw [Network.heard, ← Network.trace_atClient run]
    exact hheard
  obtain ⟨hplaced, hofServer, hshort⟩ := hxs x hx
  have hne : x.rsp.frame ac x.success ≠ [] :=
    (decode_response hac hwide (hshort.trans (by decide))).1.1
  refine ⟨hplaced, fun why htag v hv => ?_, fun v u htag => ?_⟩
  · -- the first byte of the frame has been written to the connection
    obtain ⟨b, bs, hframe⟩ := List.exists_cons_of_ne_nil hne
    have hfirst : (⟨x.queue, x.pos, b⟩ : Cell Queue UInt8) ∈ (x.placed ac).cells := by
      show _ ∈ cells x.queue x.pos (x.rsp.frame ac x.success)
      rw [hframe, cells_cons]
      exact List.mem_cons_self
    obtain ⟨why', -, htag', -, hrecipient, -⟩ :=
      cleared_wire ac hmessages (List.prefix_refl _) (hcells x hx hfirst)
    obtain rfl : why' = why := Option.some.inj (htag'.symm.trans htag)
    exact hrecipient v hv
  · obtain ⟨-, why, htag', hput⟩ := Ledger.put_of_placed hplaced hne
    obtain rfl : why = .chat v u := Option.some.inj (htag'.symm.trans htag)
    obtain ⟨d, r, hmem, hlogin, hframe⟩ := chat_served hp hmessages hput
    rw [hserved] at hmem
    have htext : (Response.text (p.usernames u ++ text ": " ++ cstr r.msg)).OfServer := trivial
    obtain ⟨hsuccess, hrsp⟩ := eq_of_frame hac hwide hofServer htext hshort hframe
    refine ⟨d, r, hmem, hlogin, hsuccess, hrsp, fun j hj => ?_⟩
    exact sent_of_served hac hwide hcommand hresponse run hfits hfits' hj hmem

end EndToEnd

/-- The frame of a text. -/
def textFrame (msg : String) : Bytes := (Response.text (text msg)).frame protobufWire true

/-- The message of yoda. -/
def hiRequest : IMRequest := (messageTo "hans" "hi").toIMRequest protobufWire

/-- A client connects, and its user logs in. -/
def comesIn (i : Fin 2) (fd : ℕ) (username password : String) : List (NetworkEvent (Fin 2)) :=
  [.client i (.other .lock), .client i (.other .check),
    .client i (.other (.ask (text username) (text password))),
    .client i (.other (.writable 3 (some (loginFrame username password).length))),
    .accept fd demoAddr i, .server (.recv fd (.data (loginFrame username password))),
    .server (.round ()), .server (.round ()),
    .server (.other (.writable fd
      (some (textFrame ("Welcome " ++ username ++ "!")).length) none)),
    .client i (.recv 3 (.data (textFrame ("Welcome " ++ username ++ "!")))),
    .client i (.round (⟨none, none, false⟩, true)), .client i (.round (⟨none, none, false⟩, false))]

/-- hans and yoda log in, and yoda says hi. -/
def saysHi : List (NetworkEvent (Fin 2)) :=
  comesIn 0 5 "hans" "falcon" ++ comesIn 1 6 "yoda" "wise" ++
    [.client 1 (.other .lock), .client 1 (.other .check),
      .client 1 (.other (.command (.other (some hiRequest)))),
      .client 1 (.other (.writable 3
        (some (encodeIMRequestToBytes protobufWire hiRequest).length))),
      .server (.recv 6 (.data (encodeIMRequestToBytes protobufWire hiRequest))),
      .server (.round ()), .server (.round ()),
      .server (.other (.writable 5
        (some (textFrame "yoda has logged in" ++ textFrame "yoda: hi").length) none)),
      .client 0 (.recv 3 (.data (textFrame "yoda has logged in" ++ textFrame "yoda: hi"))),
      .client 0 (.round (⟨none, none, false⟩, false)),
      .client 0 (.round (⟨none, none, false⟩, false))]

/-- Both clients have the same settings. -/
def demoClients (_ : Fin 2) : ClientSetup := ⟨3, demoAddr, 0⟩

/-- The client of hans shows the message, and it is one that yoda's client has sent. -/
theorem chat_end_to_end_hi :
    ∃ n, Network.Runs protobufWire demo demoClients saysHi n ∧
      (Network.heard protobufWire demo demoClients saysHi 0).length = 3 ∧
      ∃ xs : List Queued,
        Network.heard protobufWire demo demoClients saysHi 0 =
          xs.map (fun x => (x.success, x.rsp)) ∧
        ∀ x ∈ xs, Originates protobufWire demo demoClients saysHi n 0 x := by
  obtain ⟨n, run, hlink, hfits⟩ := Run.exists_of_execute (Network.step protobufWire)
    (Network.Regular protobufWire) (Network.init demo demoClients) saysHi
    (fun n => n.link 0 = some 0 ∧ FramesFit n.server.program.log) (by decide +kernel)
  have hsent : ∀ i, ∀ x ∈ Network.sent protobufWire demo demoClients saysHi i,
      (x.bytes protobufWire).length < 2 ^ 64 := by decide +kernel
  obtain ⟨xs, hheard, -, horigin, -⟩ := chat_end_to_end lawful_protobufWire wide_protobufWire
    (incremental_protobufWire 2) (incremental_protobufWire 3) run hfits hsent (by decide) hlink
  exact ⟨n, run, by decide +kernel, xs, hheard, horigin⟩

end EpollChat

import EpollChat.Properties.EndToEnd

/-!
# Requests and their answers

A request is answered by at most one response, which the server queues on the connection that the
request came in on while it serves it (`tagged_run`).  Nothing else is queued as an answer, the
outbuffer is written from its front, and TCP keeps the order.  So a client that has sent some
requests hears the answers to them one after the other, none of them twice and none left out, among
whatever else it is sent (`answers_in_order`).
-/

namespace EpollChat

variable (ac : Achelper)

/-- The request that an event serves, with the answer. -/
def exchanged (s : State) : Event → List (ConnId × Request × Option IMResponse)
  | .request req => (s.serving.map fun c => (c, req, (runRequest ac s c req).2)).toList
  | _ => []

/-- The exchanges of the server on bytes. -/
abbrev exchangedOnBytes :
    Wired State → WiredEvent Event Unit → List (ConnId × Request × Option IMResponse) :=
  Wired.observed (serverEndpoint ac) (decodeCommand ac) (requestOf ac) (fun _ => .request)
    (exchanged ac)

/-- The frames of the answers. -/
def answers (exchanges : List (Request × Option IMResponse)) : List Bytes :=
  exchanges.filterMap fun x => x.2.map (encodeIMResponseToBytes ac)

variable {ac}

lemma answers_append (xs ys : List (Request × Option IMResponse)) :
    answers ac (xs ++ ys) = answers ac xs ++ answers ac ys := by
  simp [answers]

/-! ## What is queued as an answer -/

/-- The entry queues no answer. -/
def NoAnswer (o : Obs) : Prop := ∀ q f, o ≠ .move (.put q .reply f)

lemma tagged_append (q : Queue) (why : Why) (l l' : List Obs) :
    Ledger.tagged q why (moves (l ++ l')) =
      Ledger.tagged q why (moves l) ++ Ledger.tagged q why (moves l') := by
  simp [Ledger.tagged]

lemma tagged_of_noAnswer {l : List Obs} (h : ∀ o ∈ l, NoAnswer o) (q : Queue) :
    Ledger.tagged q .reply (moves l) = [] := by
  refine List.filterMap_eq_nil_iff.mpr fun m hm => ?_
  rcases m with ⟨q', why, f⟩ | _
  · refine if_neg fun hreply => ?_
    obtain rfl := hreply.2
    exact h _ (mem_moves.mp hm) q' f rfl
  · rfl

lemma noAnswer_of_not_move {o : Obs} (h : o.isMove = false) : NoAnswer o := by
  rintro q f rfl
  cases h

lemma noAnswer_told (d : Delivery) (hwhy : d.why ≠ .reply) (_ : IMResponse.OfServer ac d.msg) :
    NoAnswer (.move (.put d.queue d.why (d.frame ac))) := by
  intro q f heq
  exact hwhy (Move.put.inj (Obs.move.inj heq)).2.1

/-- Serving a request queues its answer, and no other. -/
lemma tagged_serve {s : State} (hserver : s.isServer = true) (c : ConnId) (req : Request) :
    ∃ l, (serve ac s c req).log = s.log ++ l ∧ ∀ d, Ledger.tagged (.out d) .reply (moves l) =
      answers ac (onConn d [(c, req, (runRequest ac s c req).2)]) := by
  obtain ⟨l, hl, hnone⟩ : Adds NoAnswer s (runRequest ac s c req).1 :=
    told_runRequest (fun _ => noAnswer_of_not_move) noAnswer_told hserver c req
  unfold serve
  rcases hresult : runRequest ac s c req with ⟨t, rsp⟩
  rw [hresult] at hl
  have hlog : t.log = s.log ++ l := hl.log
  rcases rsp with _ | rsp
  · refine ⟨l, hlog, fun d => ?_⟩
    rw [tagged_of_noAnswer hnone, onConn_singleton]
    split <;> rfl
  · refine ⟨l ++ [.move (.put (.out c) .reply (encodeIMResponseToBytes ac rsp))], ?_, fun d => ?_⟩
    · dsimp only
      rw [sendResponseToClient_eq, log_deliver, hlog, List.append_assoc]
      rfl
    · rw [tagged_append, tagged_of_noAnswer hnone, onConn_singleton]
      by_cases hd : c = d <;> simp [hd, Ledger.tagged, answers]

lemma noAnswer_drain {s : State} {c : ConnId} {o : Obs} (h : DrainWrites s c o) : NoAnswer o := by
  intro q f heq
  cases h <;> cases heq

/-- An event queues the answer of the request that it serves, and no other. -/
lemma tagged_exec {s : State} (hserver : s.isServer = true)
    (hfresh : s.pending (.out s.nconns) = []) (e : Event) :
    ∃ l, (exec ac s e).log = s.log ++ l ∧ ∀ d, Ledger.tagged (.out d) .reply (moves l) =
      answers ac (onConn d (exchanged ac s e)) := by
  have hsilent : exchanged ac s e = [] → (∃ l, (exec ac s e).log = s.log ++ l ∧
      ∀ o ∈ l, NoAnswer o) → ∃ l, (exec ac s e).log = s.log ++ l ∧
        ∀ d, Ledger.tagged (.out d) .reply (moves l) =
          answers ac (onConn d (exchanged ac s e)) := by
    rintro hnothing ⟨l, hl, hnone⟩
    refine ⟨l, hl, fun d => ?_⟩
    rw [tagged_of_noAnswer hnone, hnothing]
    rfl
  by_cases hrequest : ∃ req, e = .request req
  · obtain ⟨req, rfl⟩ := hrequest
    rcases hserving : s.serving with _ | c
    · refine hsilent (by simp [exchanged, hserving]) ⟨[], ?_, by simp⟩
      simp only [exec, hserving, List.append_nil]
    · simp only [exec, exchanged, hserving, Option.map_some, Option.toList_some]
      exact tagged_serve hserver c req
  have hother : ∀ req, e ≠ .request req := fun req heq => hrequest ⟨req, heq⟩
  have hnothing : exchanged ac s e = [] := by
    rcases e with _ | _ | _ | _ | req | _ | _ | _ | _
    case request => exact absurd rfl (hother req)
    all_goals rfl
  refine hsilent hnothing ?_
  by_cases hwritable : ∃ fd n₁ n₂, e = .writable fd n₁ n₂
  · obtain ⟨fd, n₁, n₂, rfl⟩ := hwritable
    rw [exec]
    rcases pickConn s fd with _ | c
    · exact ⟨[], by simp, by simp⟩
    · obtain ⟨l, hl, hdrain⟩ := log_networkWritable s c n₁ n₂
      exact ⟨l, hl, fun o ho => noAnswer_drain (hdrain o ho)⟩
  · obtain ⟨l, hl, hnone⟩ : Adds NoAnswer s (exec ac s e) :=
      told_exec (fun _ => noAnswer_of_not_move) noAnswer_told hserver hfresh hother
        fun fd n₁ n₂ heq => hwritable ⟨fd, n₁, n₂, heq⟩
    exact ⟨l, hl.log, hnone⟩

/-- **One answer for each request.** What a run has queued as answers on a connection are the
answers to the requests served there, in the order of the requests. -/
lemma tagged_run {p : Setup} {ok : State → Event → Prop} {es : List Event} {s : State}
    (run : ServerRun ac p ok es s) (c : ConnId) :
    Ledger.tagged (.out c) .reply (moves s.log) =
      answers ac (onConn c (trace (step ac) (exchanged ac) p.init es)) := by
  induction run with
  | nil =>
      rw [(loaded_init p).log]
      rfl
  | snoc run _ hstep ih =>
      obtain ⟨-, -, rfl⟩ := (step_eq_some ac).mp hstep
      obtain ⟨l, hl, hanswers⟩ := tagged_exec (tableOk_run ac run).server
        (accounted_run ac run).pending_fresh _
      rw [hl, tagged_append, ih, hanswers, trace_snoc run, onConn_append, answers_append]

lemma served_eq (s : State) (e : Event) :
    served s e = (exchanged ac s e).filterMap fun x => some (x.1, x.2.1) := by
  rcases e with _ | _ | _ | _ | req | _ | _ | _ | _
  case request =>
    simp only [served, exchanged]
    rcases s.serving with _ | c <;> rfl
  all_goals rfl

/-! ## In the network -/

variable {ι : Type} [DecidableEq ι]

/-- The requests that the server serves on a connection, with the answers. -/
def Network.exchanges (ac : Achelper) (p : Setup) (k : ι → ClientSetup) (es : List (NetworkEvent ι))
    (c : ConnId) : List (Request × Option IMResponse) :=
  onConn c (trace (Network.step ac) (Network.atServer (exchangedOnBytes ac)) (Network.init p k) es)

/-- The response was queued on the connection as an answer. -/
def IsAnswer (n : Network ι) (c : ConnId) (x : Queued) : Prop :=
  x.queue = .out c ∧
    Ledger.tagAt (.out c) (moves n.server.program.log) x.pos = some .reply

instance (n : Network ι) (c : ConnId) (x : Queued) : Decidable (IsAnswer n c x) :=
  inferInstanceAs (Decidable (_ ∧ _))

section InOrder

variable {p : Setup} {k : ι → ClientSetup} {es : List (NetworkEvent ι)} {n : Network ι}

/-- The exchanges in the network are those of the run of the server. -/
lemma exchanges_eq (run : Network.Runs ac p k es n) :
    ∃ es', ServerRun ac p DrainsFramed es' n.server.program ∧
      Network.served ac p k es = trace (step ac) served p.init es' ∧
      ∀ c, Network.exchanges ac p k es c =
        onConn c (trace (step ac) (exchanged ac) p.init es') := by
  have hserver := Network.serverRun run
  refine ⟨_, simulates_framed.run (fun _ => trivial) hserver, ?_, fun c => ?_⟩
  · rw [Network.served, ← Network.trace_atServer run]
    exact (simulates_framed.trace_eq (fun _ => trivial)
      (fun _ _ hstep => Wired.trace_events observes_server hstep) hserver).symm
  · rw [Network.exchanges, ← Network.trace_atServer run]
    exact congrArg (onConn c)
      (simulates_framed.trace_eq (fun _ => trivial) (fun _ _ _ => rfl) hserver).symm

/-- The requests of the exchanges are the ones that are served. -/
lemma onConn_served (run : Network.Runs ac p k es n) (c : ConnId) :
    onConn c (Network.served ac p k es) = (Network.exchanges ac p k es c).map Prod.fst := by
  obtain ⟨es', -, hserved, hexchanges⟩ := exchanges_eq run
  have hserved' : trace (step ac) served p.init es' =
      (trace (step ac) (exchanged ac) p.init es').filterMap fun x => some (x.1, x.2.1) := by
    rw [← trace_filterMap]
    congr 1
    funext s e
    exact served_eq s e
  rw [hserved, hexchanges, hserved', List.filterMap_eq_map']
  exact onConn_map c Prod.fst _

/-- The answers among the responses of a connection's outbuffer. -/
lemma answers_of_queued {log : List Obs} (c : ConnId) (xs : List Queued) :
    (xs.filter fun x => x.queue = .out c ∧
        Ledger.tagAt (.out c) (moves log) x.pos = some .reply).map
          (fun x => x.rsp.frame ac x.success) =
      (((xs.filter fun x => x.queue = .out c).map fun x => (x.placed ac).2).filter fun y =>
        Ledger.tagAt (.out c) (moves log) (y.1 - 0) = some .reply).map Prod.snd := by
  rw [List.filter_map, List.map_map, List.filter_filter]
  congr 1
  refine List.filter_congr fun x _ => ?_
  simp [Queued.placed, Bool.and_comm]

variable (hac : ac.Lawful) (hwide : ac.Wide) (hcommand : Incremental (decodeCommand ac))
  (hresponse : Incremental (Client.decodeResponse ac)) (run : Network.Runs ac p k es n)
  (hfits : FramesFit n.server.program.log)
  (hfits' : ∀ i, ∀ x ∈ Network.sent ac p k es i, (x.bytes ac).length < 2 ^ 64)
include hac hwide hcommand hresponse run hfits hfits'

/-- **Answers in order.** In every regular run of the network, the requests that the server serves
on a client's connection are the first that the client has sent; what is queued there as answers
are the answers to these requests, at most one to each; and the answers among the responses that
the client has handled are the first of them.  Once everything that one side has written has been
read and handled by the other side, these are all the requests, and all the answers. -/
theorem answers_in_order {i : ι} {c : ConnId} (hlink : n.link i = some c) :
    ∃ (reqs : List IMRequest) (m : ℕ) (xs : List Queued),
      Network.sent ac p k es i = reqs.map .request ∧
      (Network.exchanges ac p k es c).map (fun x => some x.1) =
        (reqs.take m).map (parseRequest ac) ∧
      Network.heard ac p k es i = xs.map (fun x => (x.success, x.rsp)) ∧
      Ledger.tagged (.out c) .reply (moves n.server.program.log) =
        answers ac (Network.exchanges ac p k es c) ∧
      ((xs.filter (IsAnswer n c)).map fun x => x.rsp.frame ac x.success) <+:
        answers ac (Network.exchanges ac p k es c) ∧
      ((n.clients i).program.program.pending (.out serverConn) = [] →
        n.server.received c = n.toServer i →
        n.server.program.serving ≠ some c → reqs.take m = reqs) ∧
      (n.server.program.pending (.out c) = [] →
        (n.clients i).received serverConn = n.fromServer c →
        (n.clients i).program.program.serving ≠ some serverConn →
        ((xs.filter (IsAnswer n c)).map fun x => x.rsp.frame ac x.success) =
          answers ac (Network.exchanges ac p k es c)) := by
  obtain ⟨reqs, m, hsent, hserved, hall⟩ :=
    served_of_client hac hwide hcommand hresponse run hfits hfits' hlink
  obtain ⟨es', server, -, hexchanges⟩ := exchanges_eq run
  obtain ⟨-, htoClient⟩ := (Network.inOrder_run run i).1 c hlink
  obtain ⟨xs, -, -, -, hfirst, hheard, hwhole⟩ := server_heard hac hwide hresponse server hfits
    (fun _ _ h => h) (Network.clientRun run i) htoClient
  have hne := frames_ne_nil hac hwide server hfits (.out c)
  -- the answers are the frames of the outbuffer with that tag
  have htagged : Ledger.tagged (.out c) .reply (moves n.server.program.log) =
      answers ac (Network.exchanges ac p k es c) := by
    rw [tagged_run server c, hexchanges c]
  have hanswers : answers ac (Network.exchanges ac p k es c) = _ :=
    htagged.symm.trans (Ledger.filter_placed hne 0 Why.reply).symm
  have hqueued : (xs.filter (IsAnswer n c)).map (fun x => x.rsp.frame ac x.success) = _ :=
    answers_of_queued c xs
  refine ⟨reqs, m, xs, hsent, ?_, ?_, htagged, ?_, hall, fun hempty hread hidle => ?_⟩
  · rw [onConn_served run, List.map_map] at hserved
    exact hserved
  · rw [Network.heard, ← Network.trace_atClient run]
    exact hheard
  · rw [hqueued, hanswers]
    exact (hfirst.filter _).map _
  · rw [hqueued, hanswers, hfirst.eq_of_length_le]
    refine ((nodup_placed hne 0).subperm fun y hy => ?_).length_le
    obtain ⟨x, hx, hplaced⟩ := List.mem_map.mp (hwhole hempty hread hidle (.out c, y) hy rfl)
    obtain ⟨hqueue, hy'⟩ := Prod.mk.inj hplaced
    exact List.mem_map.mpr ⟨x, List.mem_filter.mpr ⟨hx, decide_eq_true hqueue⟩, hy'⟩

end InOrder

/-- yoda logs in and says hi.  The login is answered. -/
theorem answers_in_order_hi :
    ∃ n, Network.Runs protobufWire demo demoClients saysHi n ∧
      (Network.exchanges protobufWire demo demoClients saysHi 1).length = 2 ∧
      ∃ (reqs : List IMRequest) (m : ℕ) (xs : List Queued),
        Network.sent protobufWire demo demoClients saysHi 1 = reqs.map .request ∧
        (Network.exchanges protobufWire demo demoClients saysHi 1).map (fun x => some x.1) =
          (reqs.take m).map (parseRequest protobufWire) ∧
        ((xs.filter (IsAnswer n 1)).map fun x => x.rsp.frame protobufWire x.success) <+:
          answers protobufWire (Network.exchanges protobufWire demo demoClients saysHi 1) := by
  obtain ⟨n, run, hlink, hfits⟩ := Run.exists_of_execute (Network.step protobufWire)
    (Network.Regular protobufWire) (Network.init demo demoClients) saysHi
    (fun n => n.link 1 = some 1 ∧ FramesFit n.server.program.log) (by decide +kernel)
  have hsent : ∀ i, ∀ x ∈ Network.sent protobufWire demo demoClients saysHi i,
      (x.bytes protobufWire).length < 2 ^ 64 := by decide +kernel
  obtain ⟨reqs, m, xs, hreqs, hserved, -, -, hprefix, -⟩ := answers_in_order lawful_protobufWire
    wide_protobufWire (incremental_protobufWire 2) (incremental_protobufWire 3) run hfits hsent
    hlink
  exact ⟨n, run, by decide +kernel, reqs, m, xs, hreqs, hserved, hprefix⟩

end EpollChat

import EpollChat.Framework.Reception
import EpollChat.Properties.ClientOutput
import EpollChat.Properties.OutputFraming
import EpollChat.Properties.ServerResponses
import EpollChat.Properties.WireRefinement
import Mathlib.Data.Set.List

/-!
# From one program to another

TCP gives a program the bytes that the other one has written, in order, cut anywhere.  So what
has come in on a connection is the beginning of what was written to it, and this is all that a run
of one program and a run of another one have to do with each other.  Whatever the two do in
between, what is handled are the messages that were sent: the requests of a client at the server
and the responses of the server at the client (`conversation_delivered`), and the responses of one
client at another (`peers_hear`).
-/

namespace EpollChat

variable (ac : Achelper)

/-- An encoding is no shorter than a byte string in it. -/
def Achelper.Wide : Prop := ∀ msg, ∀ f ∈ msg, f.value.size ≤ (ac.encodeProtobufMsg msg).length

/-- The number of bytes that a move queues. -/
def Move.queued {Q C T B : Type} : Move Q C T B → ℕ
  | .put _ _ f => f.length
  | .take .. => 0

/-- No frame has `2 ^ 62` bytes. -/
def FramesFit (log : List Obs) : Prop := ∀ m ∈ moves log, m.queued < 2 ^ 62

instance (log : List Obs) : Decidable (FramesFit log) := by
  unfold FramesFit
  infer_instance

/-- A response in a queue of the server, and the position of its first byte. -/
structure Queued where
  queue : Queue
  pos : ℕ
  success : Bool
  rsp : Response

/-- The response as it is encoded. -/
def Queued.imrsp (x : Queued) : IMResponse := x.rsp.toIMResponse ac x.success

/-- Its frame. -/
def Queued.placed (x : Queued) : Ledger.Placed Queue UInt8 :=
  (x.queue, x.pos, encodeIMResponseToBytes ac (x.imrsp ac))

/-- What a client makes of a response. -/
def IMResponse.parsed (imrsp : IMResponse) : Option (Bool × Response) :=
  (parseResponse ac imrsp).map fun rsp => (imrsp.success, rsp)

variable {ac}

/-- The wire format is wide. -/
lemma wide_protobufWire : protobufWire.Wide := by
  intro msg f hf
  have hfield : f.value.size ≤ (encodeField f).length := by
    obtain ⟨id, value⟩ := f
    cases value with
    | varint n => exact Nat.zero_le _
    | bytes b =>
        simp only [encodeField, FieldValue.size, List.length_append]
        omega
  obtain ⟨before, after, rfl⟩ := List.append_of_mem hf
  simp only [protobufWire, List.flatMap_append, List.flatMap_cons, List.length_append]
  omega

/-! ## Frames -/

section Lawful

variable (hac : ac.Lawful) (hwide : ac.Wide)
include hac hwide

lemma decode_request {imreq : IMRequest}
    (hfits : (encodeIMRequestToBytes ac imreq).length < 2 ^ 64) :
    WholeFrame (decodeCommand ac) (encodeIMRequestToBytes ac imreq) ∧
      ((decodeCommand ac (encodeIMRequestToBytes ac imreq)).bind fun m => requestOf ac m.1) =
        parseRequest ac imreq := by
  have hvalue : imreq.value.length ≤ (encodeIMRequestToBytes ac imreq).length :=
    hwide _ ⟨2, .bytes imreq.value⟩ (by simp)
  obtain ⟨hframe, msg, hdec, hmsg⟩ := decodeCommand_frame hac (hvalue.trans_lt hfits)
  refine ⟨hframe, ?_⟩
  rw [hdec, Option.bind_some, requestOf, hmsg]
  rfl

lemma decode_response {imrsp : IMResponse}
    (hfits : (encodeIMResponseToBytes ac imrsp).length < 2 ^ 64) :
    WholeFrame (Client.decodeResponse ac) (encodeIMResponseToBytes ac imrsp) ∧
      ((Client.decodeResponse ac (encodeIMResponseToBytes ac imrsp)).bind
        fun m => responseOf ac m.1) = imrsp.parsed ac := by
  have hvalue : imrsp.value.length ≤ (encodeIMResponseToBytes ac imrsp).length :=
    hwide _ ⟨3, .bytes imrsp.value⟩ (by simp)
  obtain ⟨hframe, msg, hdec, hmsg⟩ := decodeResponse_frame hac (hvalue.trans_lt hfits)
  refine ⟨hframe, ?_⟩
  rw [hdec, Option.bind_some, responseOf, hmsg]
  rfl

/-! ## What the receiving program makes of the stream -/

/-- A stream of requests at the server. -/
lemma requests_delivered (hd : Incremental (decodeCommand ac)) {p : Setup}
    {ok : Wired State → WiredEvent Event Unit → Prop} (hok : ∀ w e, ok w e → Wired.NoErrors w e)
    {es : List (WiredEvent Event Unit)} {w : Wired State}
    (run : Run (Wired.step (serverEndpoint ac)) ok (Wired.init p.init) es w) {c : ConnId}
    {reqs : List IMRequest} (hfits : ∀ req ∈ reqs, (encodeIMRequestToBytes ac req).length < 2 ^ 64)
    (hpre : w.received c <+: (reqs.map (encodeIMRequestToBytes ac)).flatten) :
    ∃ n, (onConn c (trace (Wired.step (serverEndpoint ac)) (servedOnBytes ac)
          (Wired.init p.init) es)).map some = (reqs.take n).map (parseRequest ac) ∧
      (w.received c = (reqs.map (encodeIMRequestToBytes ac)).flatten →
        w.program.serving ≠ some c → reqs.take n = reqs) := by
  have hframes : ∀ req ∈ reqs, WholeFrame (decodeCommand ac) (encodeIMRequestToBytes ac req) :=
    fun req hreq => (decode_request hac hwide (hfits req hreq)).1
  obtain ⟨n, hserved, -, hall⟩ := Wired.delivered (@handles_server ac) orderly_server hd
    handler_server hok run hframes
    (@wholeFrame_request ac hac .logout (by decide)).incomplete_nil
    (by rwa [List.append_nil])
  refine ⟨n, ?_, fun heq hdone => hall (by rwa [List.append_nil]) hdone⟩
  rw [hserved]
  exact List.map_congr_left fun req hreq =>
    (decode_request hac hwide (hfits req (List.mem_of_mem_take hreq))).2

/-- A stream of responses at a client. -/
lemma responses_delivered (hd : Incremental (Client.decodeResponse ac)) {k : Client}
    {ok : Wired Client → WiredEvent ClientEvent (Answers × Bool) → Prop}
    (hok : ∀ w e, ok w e → Wired.NoErrors w e)
    {es : List (WiredEvent ClientEvent (Answers × Bool))} {w : Wired Client}
    (run : Run (Wired.step (clientEndpoint ac)) ok (Wired.init k) es w) {c : ConnId}
    {rsps : List IMResponse}
    (hfits : ∀ rsp ∈ rsps, (encodeIMResponseToBytes ac rsp).length < 2 ^ 64)
    {t : Bytes} (ht : Incomplete (Client.decodeResponse ac) t)
    (hpre : w.received c <+: (rsps.map (encodeIMResponseToBytes ac)).flatten ++ t) :
    ∃ n, (onConn c (trace (Wired.step (clientEndpoint ac)) (heardOnBytes ac) (Wired.init k)
          es)).map some = (rsps.take n).map (IMResponse.parsed ac) ∧
      ((rsps.take n).map (encodeIMResponseToBytes ac)).flatten <+: w.received c ∧
      (w.received c = (rsps.map (encodeIMResponseToBytes ac)).flatten ++ t →
        w.program.program.serving ≠ some c → rsps.take n = rsps) := by
  have hframes : ∀ rsp ∈ rsps,
      WholeFrame (Client.decodeResponse ac) (encodeIMResponseToBytes ac rsp) :=
    fun rsp hrsp => (decode_response hac hwide (hfits rsp hrsp)).1
  obtain ⟨n, hheard, hread, hall⟩ := Wired.delivered (@handles_client ac) orderly_client hd
    handler_client hok run hframes ht hpre
  refine ⟨n, ?_, hread, hall⟩
  rw [hheard]
  exact List.map_congr_left fun rsp hrsp =>
    (decode_response hac hwide (hfits rsp (List.mem_of_mem_take hrsp))).2

/-! ## What the server has written -/

omit hwide in
lemma incomplete_nil : Incomplete (Client.decodeResponse ac) [] :=
  (@decodeResponse_frame ac hac { type := 1, success := true, value := [] }
    (by simp)).1.incomplete_nil

/-- A response of the server is parsed as what it is. -/
lemma parsed_ofServer {success : Bool} {rsp : Response} (hserver : rsp.OfServer)
    (hfits : (rsp.frame ac success).length < 2 ^ 62) :
    (rsp.toIMResponse ac success).parsed ac = some (success, rsp) := by
  have hvalue : (rsp.toIMResponse ac success).value.length ≤ (rsp.frame ac success).length :=
    hwide _ ⟨3, .bytes (rsp.toIMResponse ac success).value⟩ (by simp)
  have hparse : rsp.Known ∧ rsp.size < 2 ^ 63 := by
    cases rsp with
    | text msg | exit msg =>
        have hmsg : msg.length ≤ _ := hwide [⟨1, .bytes msg⟩] ⟨1, .bytes msg⟩ (by simp)
        exact ⟨trivial, (hmsg.trans hvalue).trans_lt (hfits.trans (by decide))⟩
    | getip username addr =>
        have husername : username.length ≤ _ :=
          hwide [⟨1, .bytes username⟩, ⟨2, .bytes addr⟩] ⟨1, .bytes username⟩ (by simp)
        have haddr : addr.length ≤ _ :=
          hwide [⟨1, .bytes username⟩, ⟨2, .bytes addr⟩] ⟨2, .bytes addr⟩ (by simp)
        have husername' := (husername.trans hvalue).trans_lt hfits
        have haddr' := (haddr.trans hvalue).trans_lt hfits
        exact ⟨trivial, by simp only [Response.size]; omega⟩
    | _ => exact hserver.elim
  rw [IMResponse.parsed, parseResponse_toIMResponse hac success hparse.1 hparse.2]
  cases rsp <;> rfl

omit hac hwide in
/-- A frame in a queue of the server is a response of the server. -/
lemma response_of_placed {p : Setup} {ok : State → Event → Prop} {es : List Event} {s : State}
    (run : ServerRun ac p ok es s)
    (hfits : FramesFit s.log)
    {z : Ledger.Placed Queue UInt8} (hz : z.In (moves s.log)) :
    ∃ x : Queued, x.placed ac = z ∧ x.rsp.OfServer ∧
      (x.rsp.frame ac x.success).length < 2 ^ 62 := by
  obtain ⟨m, hm, hput⟩ := List.mem_filterMap.mp (mem_of_placed hz)
  cases m with
  | take => cases hput
  | put q why f =>
      dsimp only at hput
      split at hput
      · obtain rfl := Option.some.inj hput
        obtain ⟨success, rsp, hserver, hrsp⟩ := says_run run _ (mem_moves.mp hm) q why _ rfl
        refine ⟨⟨z.1, z.2.1, success, rsp⟩, ?_, hserver, hrsp ▸ hfits _ hm⟩
        exact Prod.ext rfl (Prod.ext rfl hrsp.symm)
      · cases hput

omit hac hwide in
/-- And so are all of several frames. -/
lemma responses_of_placed {p : Setup} {ok : State → Event → Prop} {es : List Event} {s : State}
    (run : ServerRun ac p ok es s) (hfits : FramesFit s.log)
    {ps : List (Ledger.Placed Queue UInt8)} (hps : ∀ z ∈ ps, z.In (moves s.log)) :
    ∃ xs : List Queued, ps = xs.map (Queued.placed ac) ∧ ∀ x ∈ xs,
      x.rsp.OfServer ∧ (x.rsp.frame ac x.success).length < 2 ^ 62 := by
  induction ps with
  | nil => exact ⟨[], rfl, by simp⟩
  | cons z ps ih =>
      obtain ⟨xs, rfl, hxs⟩ := ih fun z hz => hps z (List.mem_cons_of_mem _ hz)
      obtain ⟨x, rfl, hx⟩ := response_of_placed run hfits (hps z List.mem_cons_self)
      exact ⟨x :: xs, rfl, List.forall_mem_cons.mpr ⟨hx, hxs⟩⟩

lemma wholeFrame_of_placed {p : Setup} {ok : State → Event → Prop} {es : List Event} {s : State}
    (run : ServerRun ac p ok es s) (hfits : FramesFit s.log) {z : Ledger.Placed Queue UInt8}
    (hz : z.In (moves s.log)) : WholeFrame (Client.decodeResponse ac) z.2.2 := by
  obtain ⟨x, rfl, -, hlen⟩ := response_of_placed run hfits hz
  exact (decode_response hac hwide (hlen.trans (by decide))).1

lemma frames_ne_nil {p : Setup} {ok : State → Event → Prop} {es : List Event} {s : State}
    (run : ServerRun ac p ok es s) (hfits : FramesFit s.log) (q : Queue) :
    ∀ f ∈ Ledger.frames q (moves s.log), f ≠ [] := by
  intro f hf
  rw [← map_snd_placed 0 (Ledger.frames q (moves s.log))] at hf
  obtain ⟨x, hx, rfl⟩ := List.mem_map.mp hf
  exact (wholeFrame_of_placed hac hwide run hfits (z := (q, x)) hx).1

omit hac hwide in
/-- The bytes of placed responses. -/
lemma bytes_placed (xs : List Queued) :
    ((xs.map (Queued.placed ac)).map Ledger.Placed.cells).flatten.map Cell.byte =
      ((xs.map (Queued.imrsp ac)).map (encodeIMResponseToBytes ac)).flatten := by
  rw [List.map_flatten, List.map_map, List.map_map, List.map_map]
  refine congrArg List.flatten (List.map_congr_left fun x _ => ?_)
  exact map_byte_cells _ _ _

omit hac hwide in
/-- The beginning of a whole frame is incomplete. -/
lemma incomplete_of_prefix {z : Ledger.Placed Queue UInt8}
    (hframe : WholeFrame (Client.decodeResponse ac) z.2.2) {tail : List (Cell Queue UInt8)}
    (hpre : tail <+: z.cells) (hcut : tail ≠ z.cells) :
    Incomplete (Client.decodeResponse ac) (tail.map Cell.byte) := by
  have hbytes : z.cells.map Cell.byte = z.2.2 := map_byte_cells _ _ _
  refine ⟨z.2.2, hframe, hbytes ▸ hpre.map _, fun heq => hcut (hpre.eq_of_length ?_)⟩
  have hlength := congrArg List.length heq
  rwa [← hbytes, List.length_map, List.length_map] at hlength

/-- **Output of the server.** In a run whose drains leave frames together, a connection has been
written whole responses, those of one queue in the order they were queued there, and perhaps the
beginning of one more.  Those of its outbuffer are the first that were queued there, and all of them
where nothing waits in it. -/
lemma written_run {p : Setup} {es : List Event} {s : State}
    (run : ServerRun ac p DrainsFramed es s)
    (hfits : FramesFit s.log) (c : ConnId) :
    ∃ (xs : List Queued) (t : Bytes), (∀ x ∈ xs, (x.placed ac).In (moves s.log) ∧
        x.rsp.OfServer ∧ (x.rsp.frame ac x.success).length < 2 ^ 62) ∧
      (∀ x ∈ xs, (x.placed ac).cells ⊆ Ledger.wire c (moves s.log)) ∧
      Ledger.written c (moves s.log) =
        ((xs.map (Queued.imrsp ac)).map (encodeIMResponseToBytes ac)).flatten ++ t ∧
      Incomplete (Client.decodeResponse ac) t ∧
      xs.Pairwise (fun x y => x.queue = y.queue → x.pos < y.pos) ∧
      ((xs.filter fun x => x.queue = .out c).map fun x => (x.placed ac).2) <+:
        placed 0 (Ledger.frames (.out c) (moves s.log)) ∧
      (s.pending (.out c) = [] → ∀ z : Ledger.Placed Queue UInt8, z.In (moves s.log) →
        z.1 = .out c → z ∈ xs.map (Queued.placed ac)) := by
  have hacc := accounted_run ac run
  obtain ⟨ps, tail, hps, hwire, htail⟩ := (Ledger.framed_of_clean (clean_run ac run) c).split
  have hframe : ∀ z : Ledger.Placed Queue UInt8, z.In (moves s.log) →
      WholeFrame (Client.decodeResponse ac) z.2.2 := fun z hz =>
    wholeFrame_of_placed hac hwide run hfits hz
  obtain ⟨xs, rfl, hxs⟩ := responses_of_placed run hfits hps
  refine ⟨xs, tail.map Cell.byte,
    fun x hx => ⟨hps _ (List.mem_map_of_mem hx), hxs x hx⟩, fun x hx y hy => ?_, ?_, ?_, ?_, ?_,
    fun hempty z hz hq => ?_⟩
  · rw [hwire]
    exact List.mem_append_left _ (List.mem_flatten_of_mem
      (List.mem_map_of_mem (List.mem_map_of_mem hx)) hy)
  · rw [Ledger.written, hwire, List.map_append, bytes_placed]
  · rcases htail with rfl | ⟨z, hz, hpre, hcut⟩
    · exact incomplete_nil hac
    · exact incomplete_of_prefix (hframe z hz) hpre hcut
  · have hpairwise := (Ledger.pairwise_wire hacc.valid c).sublist
      (hwire ▸ List.sublist_append_left _ _)
    exact List.pairwise_map.mp
      (Ledger.pairwise_of_cells (fun z hz => (hframe z (hps z hz)).1) hpairwise)
  · have hfirst := Ledger.prefix_of_wire hacc.valid (hacc.own c)
      (frames_ne_nil hac hwide run hfits (.out c)) hps hwire
    rw [List.filter_map, List.map_map] at hfirst
    exact hfirst
  · -- everything was taken, and only to this connection
    have htaken := (hacc.pending_eq_nil_iff z.1).mp (hq ▸ hempty)
    have hend := end_le_of_placed hz
    refine Ledger.mem_of_taken hacc.valid hz (fun d bs hmem => hacc.own c d bs (hq ▸ hmem)) ?_
      (hframe z hz).1 hps hwire htail
    rw [htaken, Ledger.stream]
    omega

/-- What a client hears from the server. -/
lemma server_heard (hd : Incremental (Client.decodeResponse ac)) {p : Setup} {es : List Event}
    {s : State} (server : ServerRun ac p DrainsFramed es s)
    (hfits : FramesFit s.log) {k : Client}
    {ok : Wired Client → WiredEvent ClientEvent (Answers × Bool) → Prop}
    (hok : ∀ w e, ok w e → Wired.NoErrors w e)
    {es' : List (WiredEvent ClientEvent (Answers × Bool))} {v : Wired Client}
    (client : Run (Wired.step (clientEndpoint ac)) ok (Wired.init k) es' v) {c d : ConnId}
    (htcp : v.received d <+: Ledger.written c (moves s.log)) :
    ∃ xs : List Queued, (∀ x ∈ xs, (x.placed ac).In (moves s.log) ∧
        x.rsp.OfServer ∧ (x.rsp.frame ac x.success).length < 2 ^ 62) ∧
      (∀ x ∈ xs, (x.placed ac).cells ⊆ Ledger.wire c (moves s.log)) ∧
      xs.Pairwise (fun x y => x.queue = y.queue → x.pos < y.pos) ∧
      ((xs.filter fun x => x.queue = .out c).map fun x => (x.placed ac).2) <+:
        placed 0 (Ledger.frames (.out c) (moves s.log)) ∧
      onConn d (trace (Wired.step (clientEndpoint ac)) (heardOnBytes ac) (Wired.init k) es') =
        xs.map (fun x => (x.success, x.rsp)) ∧
      (s.pending (.out c) = [] → v.received d = Ledger.written c (moves s.log) →
        v.program.program.serving ≠ some d → ∀ z : Ledger.Placed Queue UInt8,
          z.In (moves s.log) → z.1 = .out c → z ∈ xs.map (Queued.placed ac)) := by
  obtain ⟨xs, t, hxs, hcells, hwritten, ht, hordered, hfirst, hall⟩ :=
    written_run hac hwide server hfits c
  have hfits' : ∀ rsp ∈ xs.map (Queued.imrsp ac),
      (encodeIMResponseToBytes ac rsp).length < 2 ^ 64 := by
    intro rsp hrsp
    obtain ⟨x, hx, rfl⟩ := List.mem_map.mp hrsp
    exact (hxs x hx).2.2.trans (by decide)
  obtain ⟨n, hheard, -, hdone⟩ :=
    responses_delivered hac hwide hd hok client hfits' ht (hwritten ▸ htcp)
  have htake : ∀ x ∈ xs.take n, x ∈ xs := fun x hx => List.mem_of_mem_take hx
  refine ⟨xs.take n, fun x hx => hxs x (htake x hx),
    fun x hx => hcells x (htake x hx), hordered.sublist (List.take_sublist n xs),
    (((List.take_prefix n xs).filter _).map _).trans hfirst, ?_,
    fun hempty hread hidle z hz hq => ?_⟩
  · have hparsed : ((xs.map (Queued.imrsp ac)).take n).map (IMResponse.parsed ac) =
        (xs.take n).map fun x => some (x.success, x.rsp) := by
      rw [← List.map_take, List.map_map]
      refine List.map_congr_left fun x hx => ?_
      exact parsed_ofServer hac hwide (hxs x (htake x hx)).2.1 (hxs x (htake x hx)).2.2
    rw [hparsed] at hheard
    refine List.map_injective_iff.mpr (Option.some_injective _) ?_
    rw [hheard, List.map_map]
    rfl
  · have hwhole := hdone (hread.trans hwritten) hidle
    have htake' : xs.take n = xs := by
      have hlen := congrArg List.length hwhole
      rw [List.length_take, List.length_map] at hlen
      exact List.take_of_length_le (by omega)
    rw [htake']
    exact hall hempty z hz hq

end Lawful

/-! ## What a client sends to the server -/

/-- Nobody has a private session on the connection to the server. -/
def ServerApart (s : State) : Prop := ∀ u, (s.users u).client ≠ some serverConn

lemma serverApart_move {s s' : State} {r : Option (Bytes × ConnId)} (hs : ProgramOk s)
    (h : ServerApart s) (hmove : ProgramMove ac s r s') (hr : ∀ name, r ≠ some (name, serverConn)) :
    ServerApart s' := by
  have hcore : ∀ {t t' : State}, t'.core = t.core → ServerApart t → ServerApart t' :=
    fun hsame ht u => by rw [client_eq_of_core hsame]; exact ht u
  cases hmove with
  | quiet same => exact hcore same h
  | serve c known => exact h
  | accept fd addr =>
      unfold ServerApart
      rw [users_acceptClient]
      exact h
  | close c same =>
      refine hcore same fun u => ?_
      rw [client_closeSocket]
      split
      · exact (Option.some_ne_none _).symm
      · exact h u
  | registered c username made =>
      intro u
      rw [client_registered hs]
      split
      · exact fun heq => hr username (by rw [Option.some.inj heq])
      · exact h u
  | connected self sock username addr =>
      refine hcore (core_gotPrivateAddr ac s self sock username addr) fun u => ?_
      rw [connectedTo, client_registered (hs.accept sock _), users_acceptClient]
      split
      · exact fun heq => hr username (by rw [Option.some.inj heq])
      · exact h u

/-- What an event sends to the server are requests, unless the server has sent what is for
peers. -/
lemma requests_of_output {k : Client} (hs : ProgramOk k.program) (h : ServerApart k.program)
    {e : ClientEvent} (hheard : ∀ x ∈ heard k e, x.1 = serverConn → x.2.2.OfServer) :
    ∀ x ∈ onConn serverConn (k.output ac e), ∃ req, x = .request req := by
  have hcommand : ∀ cmd, ∀ x ∈ k.commandOutput ac cmd, x.1 = serverConn →
      ∃ req, x.2 = .request req := by
    intro cmd x hx hserver
    cases cmd with
    | login | startprivate => exact ⟨_, by rw [List.mem_singleton.mp hx]⟩
    | stopprivate => exact absurd hx List.not_mem_nil
    | privateTo username rsp =>
        obtain ⟨c, hconn, rfl⟩ := Option.map_eq_some_iff.mp (Option.mem_toList.mp hx)
        obtain ⟨u, -, hu⟩ := Option.bind_eq_some_iff.mp hconn
        rw [show c = serverConn from hserver] at hu
        exact absurd hu (h u)
    | other req =>
        obtain ⟨r, -, rfl⟩ := Option.map_eq_some_iff.mp (Option.mem_toList.mp hx)
        exact ⟨r, rfl⟩
  have hall : ∀ x ∈ k.output ac e, x.1 = serverConn → ∃ req, x.2 = .request req := by
    intro x hx hserver
    cases e with
    | ask username password => exact hcommand (.login username password) x hx hserver
    | command cmd => exact hcommand cmd x hx hserver
    | response success rsp env answers =>
        simp only [Client.output] at hx
        split at hx
        · next c hserving =>
            cases rsp with
            | getip username addr =>
                obtain ⟨_, -, rfl⟩ := Option.map_eq_some_iff.mp (Option.mem_toList.mp hx)
                exact absurd hserver hs.server_lt.ne'
            | chunkDataRequest filename chunk =>
                obtain rfl := List.mem_singleton.mp hx
                exact (hheard (c, success, .chunkDataRequest filename chunk)
                  (by simp [heard, hserving]) hserver).elim
            | chunkDataResponse filename chunk data =>
                simp only [Client.responseOutput] at hx
                split at hx
                · exact ⟨_, by rw [List.mem_singleton.mp hx]⟩
                · exact absurd hx List.not_mem_nil
            | text | exit | privateRegistration | unknown => exact absurd hx List.not_mem_nil
        · exact absurd hx List.not_mem_nil
    | _ => exact absurd hx List.not_mem_nil
  intro x hx
  obtain ⟨y, hy, hyx⟩ := List.mem_filterMap.mp hx
  split at hyx
  · next hserver =>
      obtain rfl := Option.some.inj hyx
      exact hall y hy hserver
  · cases hyx

/-- **Requests only.** A client that has heard from the server what the server says sends it
requests only. -/
lemma requests_run {sock : ℕ} {serverAddress : SockAddr} {listenPort : UInt32}
    {ok : Client → ClientEvent → Prop} {es : List ClientEvent} {k : Client}
    (run : ClientRun ac sock serverAddress listenPort ok es k)
    (hheard : ∀ r ∈ onConn serverConn (trace (Client.step ac) heard
      (Client.init sock serverAddress listenPort) es), r.2.OfServer) :
    ∃ reqs : List IMRequest, onConn serverConn (trace (Client.step ac) (Client.output ac)
      (Client.init sock serverAddress listenPort) es) = reqs.map .request := by
  suffices h : ServerApart k.program ∧ ∃ reqs : List IMRequest,
      onConn serverConn (trace (Client.step ac) (Client.output ac)
        (Client.init sock serverAddress listenPort) es) = reqs.map .request from h.2
  induction run with
  | nil =>
      refine ⟨fun u => ?_, [], rfl⟩
      show ((acceptClient Client.blank sock serverAddress).users u).client ≠ _
      rw [users_acceptClient]
      exact (Option.some_ne_none _).symm
  | @snoc es k k' e run _ hstep ih =>
      rw [trace_snoc run, onConn_append, List.forall_mem_append] at hheard
      obtain ⟨hapart, reqs, hreqs⟩ := ih hheard.1
      have hs := programOk_run ac run
      have hnew : ∀ x ∈ heard k e, x.1 = serverConn → x.2.2.OfServer := fun x hx hserver =>
        hheard.2 x.2 (List.mem_filterMap.mpr ⟨x, hx, if_pos hserver⟩)
      refine ⟨serverApart_move hs hapart (program_step ac hs hstep) fun name hr => ?_, ?_⟩
      · -- a registration on the server's connection would have been heard there
        cases e with
        | response success rsp env answers =>
            cases rsp with
            | privateRegistration username =>
                obtain ⟨c, hserving, hc⟩ := Option.map_eq_some_iff.mp hr
                obtain ⟨-, rfl⟩ := Prod.mk.inj hc
                exact hnew (serverConn, success, .privateRegistration username)
                  (by simp [heard, hserving]) rfl
            | getip username addr =>
                simp only [registration] at hr
                split at hr
                · exact hs.server_lt.ne' (congrArg Prod.snd (Option.some.inj hr))
                · cases hr
            | _ => cases hr
        | _ => cases hr
      · have hrequests := @requests_of_output ac k hs hapart e hnew
        obtain ⟨more, hmore⟩ : onConn serverConn (k.output ac e) ∈
            Set.range (List.map Outgoing.request) := by
          rw [Set.range_list_map]
          intro x hx
          obtain ⟨req, rfl⟩ := hrequests x hx
          exact ⟨req, rfl⟩
        exact ⟨reqs ++ more, by
          rw [trace_snoc run, onConn_append, hreqs, ← hmore, List.map_append]⟩

/-- What an event sends to a peer are responses. -/
lemma responses_of_output {k : Client} {e : ClientEvent} :
    ∀ x ∈ k.output ac e, x.1 ≠ serverConn → ∃ rsp, x.2 = .response rsp := by
  have hcommand : ∀ cmd, ∀ x ∈ k.commandOutput ac cmd, x.1 ≠ serverConn →
      ∃ rsp, x.2 = .response rsp := by
    intro cmd x hx hpeer
    cases cmd with
    | login | startprivate => exact absurd (by rw [List.mem_singleton.mp hx]) hpeer
    | stopprivate => exact absurd hx List.not_mem_nil
    | privateTo username rsp =>
        obtain ⟨c, -, rfl⟩ := Option.map_eq_some_iff.mp (Option.mem_toList.mp hx)
        exact ⟨rsp, rfl⟩
    | other req =>
        obtain ⟨r, -, rfl⟩ := Option.map_eq_some_iff.mp (Option.mem_toList.mp hx)
        exact absurd rfl hpeer
  intro x hx hpeer
  cases e with
  | ask username password => exact hcommand (.login username password) x hx hpeer
  | command cmd => exact hcommand cmd x hx hpeer
  | response success rsp env answers =>
      simp only [Client.output] at hx
      split at hx
      · cases rsp with
        | getip username addr =>
            obtain ⟨_, -, rfl⟩ := Option.map_eq_some_iff.mp (Option.mem_toList.mp hx)
            exact ⟨_, rfl⟩
        | chunkDataRequest filename chunk => exact ⟨_, by rw [List.mem_singleton.mp hx]⟩
        | chunkDataResponse filename chunk data =>
            simp only [Client.responseOutput] at hx
            split at hx
            · exact absurd (by rw [List.mem_singleton.mp hx]) hpeer
            · exact absurd hx List.not_mem_nil
        | text | exit | privateRegistration | unknown => exact absurd hx List.not_mem_nil
      · exact absurd hx List.not_mem_nil
  | _ => exact absurd hx List.not_mem_nil

/-! ## Both directions -/

variable (ac)

/-- What the client on bytes sends. -/
abbrev sentOnBytes :
    Wired Client → WiredEvent ClientEvent (Answers × Bool) → List (ConnId × Outgoing) :=
  Wired.observed (clientEndpoint ac) (Client.decodeResponse ac) (responseOf ac) responseEvent
    (Client.output ac)

variable {ac}

/-- The client on bytes as a client on responses. -/
lemma simulates_client :
    Simulates (Wired.step (clientEndpoint ac)) (Wired.onOther Always) (Client.step ac) Always
      Wired.program
      (Wired.events (clientEndpoint ac) (Client.decodeResponse ac) (responseOf ac) responseEvent)
      fun _ => True :=
  Wired.simulates (@handles_client ac) (fun _ _ _ => trivial) (fun _ => trivial)
    fun _ _ => ⟨trivial, trivial⟩

lemma onOther_always {σ ε ι : Type} (w : Wired σ) (e : WiredEvent ε ι) :
    Wired.onOther Always w e := by
  cases e <;> trivial

/-- The server on bytes as a server on requests, where drains leave frames together. -/
lemma simulates_framed :
    Simulates (Wired.step (serverEndpoint ac))
      (fun w e => Wired.NoErrors w e ∧ Wired.onOther DrainsFramed w e) (step ac) DrainsFramed
      Wired.program
      (Wired.events (serverEndpoint ac) (decodeCommand ac) (requestOf ac) fun _ => .request)
      fun _ => True := by
  have hdrains : ∀ (s : State) (e : Event), (serverEndpoint ac).ofRead e = true →
      DrainsFramed s e := by
    intro s e hread
    cases e <;> trivial
  have hsim := Wired.simulates (@handles_server ac)
    (fun s _ req => hdrains s (.request req) rfl) (fun s => hdrains s .readDone rfl)
    fun s fd => ⟨hdrains s (.readable fd) rfl, hdrains s (.eof fd) rfl⟩
  exact ⟨fun hinv hok hstep => hsim.matched hinv hok.2 hstep⟩

/-- What the server serves on the connection of a client are the first requests that the client has
sent. -/
lemma requests_served (hac : ac.Lawful) (hwide : ac.Wide)
    (hcommand : Incremental (decodeCommand ac)) (hresponse : Incremental (Client.decodeResponse ac))
    {p : Setup} {es : List (WiredEvent Event Unit)} {w : Wired State}
    (server : Run (Wired.step (serverEndpoint ac))
      (fun w e => Wired.NoErrors w e ∧ Wired.onOther DrainsFramed w e) (Wired.init p.init) es w)
    {sock : ℕ} {serverAddress : SockAddr} {listenPort : UInt32}
    {es' : List (WiredEvent ClientEvent (Answers × Bool))} {v : Wired Client}
    (client : Run (Wired.step (clientEndpoint ac)) Wired.NoErrors
      (Wired.init (Client.init sock serverAddress listenPort)) es' v) {c : ConnId}
    (htoServer : w.received c <+: Ledger.written serverConn (moves v.program.program.log))
    (htoClient : v.received serverConn <+: Ledger.written c (moves w.program.log))
    (hfits : FramesFit w.program.log)
    (hfits' : ∀ x ∈ onConn serverConn (trace (Wired.step (clientEndpoint ac)) (sentOnBytes ac)
      (Wired.init (Client.init sock serverAddress listenPort)) es'),
        (x.bytes ac).length < 2 ^ 64) :
    ∃ (reqs : List IMRequest) (n : ℕ),
      onConn serverConn (trace (Wired.step (clientEndpoint ac)) (sentOnBytes ac)
        (Wired.init (Client.init sock serverAddress listenPort)) es') = reqs.map .request ∧
      (onConn c (trace (Wired.step (serverEndpoint ac)) (servedOnBytes ac) (Wired.init p.init)
        es)).map some = (reqs.take n).map (parseRequest ac) ∧
      (v.program.program.pending (.out serverConn) = [] →
        w.received c = Ledger.written serverConn (moves v.program.program.log) →
        w.program.serving ≠ some c → reqs.take n = reqs) := by
  have client' := client.weaken fun w e _ => onOther_always w e
  have clientRun := simulates_client.run (fun _ => trivial) client'
  obtain ⟨xs, hxs, -, -, -, hheard, -⟩ := server_heard hac hwide hresponse
    (simulates_framed.run (fun _ => trivial) server) hfits (fun _ _ h => h) client htoClient
  -- the client has heard what the server says, so it has sent requests
  have htrace := simulates_client.trace_eq (fun _ => trivial)
    (fun _ _ hstep => Wired.trace_events observes_client hstep) client'
  have hsent : trace (Client.step ac) (Client.output ac) (Client.init sock serverAddress listenPort)
      _ = trace (Wired.step (clientEndpoint ac)) (sentOnBytes ac) _ es' :=
    simulates_client.trace_eq (fun _ => trivial) (fun _ _ _ => rfl) client'
  obtain ⟨reqs, hreqs⟩ := requests_run clientRun fun r hr => by
    have hr' : r ∈ xs.map fun x => (x.success, x.rsp) := hheard ▸ htrace ▸ hr
    obtain ⟨x, hx, rfl⟩ := List.mem_map.mp hr'
    exact (hxs x hx).2.1
  have hwritten : v.program.program.sentTo serverConn =
      (reqs.map (encodeIMRequestToBytes ac)).flatten := by
    rw [sentTo_run clientRun serverConn]
    show ((onConn serverConn (trace (Client.step ac) (Client.output ac)
      (Client.init sock serverAddress listenPort) _)).map _).flatten = _
    rw [hreqs, List.map_map]
    rfl
  rw [← hsent, hreqs] at hfits' ⊢
  obtain ⟨n, hserved, hdone⟩ := requests_delivered hac hwide hcommand (fun _ _ h => h.1) server
    (fun req hreq => hfits' _ (List.mem_map_of_mem hreq))
    (htoServer.trans (hwritten ▸ List.prefix_append _ _))
  refine ⟨reqs, n, rfl, hserved, fun hempty hread hidle => hdone ?_ hidle⟩
  rw [hread, ← hwritten, State.sentTo, hempty, List.append_nil]

/-- **A conversation.** A client and the server, each in a run of its own, and what has come in at
either is the beginning of what the other one has written.  No read fails, and drains leave frames
together.  Then the requests served on the client's connection are the first that the client has
sent, each once and in order.  The responses that it handles are ones that the server has queued and
written there, each once, and those of one queue in order; the ones from the connection's outbuffer
are the first that were queued in it.  Once one side has written everything and the other side has
read it, all of it has been handled. -/
theorem conversation_delivered (hac : ac.Lawful) (hwide : ac.Wide)
    (hcommand : Incremental (decodeCommand ac)) (hresponse : Incremental (Client.decodeResponse ac))
    {p : Setup} {es : List (WiredEvent Event Unit)} {w : Wired State}
    (server : Run (Wired.step (serverEndpoint ac))
      (fun w e => Wired.NoErrors w e ∧ Wired.onOther DrainsFramed w e) (Wired.init p.init) es w)
    {sock : ℕ} {serverAddress : SockAddr} {listenPort : UInt32}
    {es' : List (WiredEvent ClientEvent (Answers × Bool))} {v : Wired Client}
    (client : Run (Wired.step (clientEndpoint ac)) Wired.NoErrors
      (Wired.init (Client.init sock serverAddress listenPort)) es' v) {c : ConnId}
    (htoServer : w.received c <+: Ledger.written serverConn (moves v.program.program.log))
    (htoClient : v.received serverConn <+: Ledger.written c (moves w.program.log))
    (hfits : FramesFit w.program.log)
    (hfits' : ∀ x ∈ onConn serverConn (trace (Wired.step (clientEndpoint ac)) (sentOnBytes ac)
      (Wired.init (Client.init sock serverAddress listenPort)) es'),
        (x.bytes ac).length < 2 ^ 64) :
    (∃ (reqs : List IMRequest) (n : ℕ),
      onConn serverConn (trace (Wired.step (clientEndpoint ac)) (sentOnBytes ac)
        (Wired.init (Client.init sock serverAddress listenPort)) es') = reqs.map .request ∧
      (onConn c (trace (Wired.step (serverEndpoint ac)) (servedOnBytes ac) (Wired.init p.init)
        es)).map some = (reqs.take n).map (parseRequest ac) ∧
      (v.program.program.pending (.out serverConn) = [] →
        w.received c = Ledger.written serverConn (moves v.program.program.log) →
        w.program.serving ≠ some c → reqs.take n = reqs)) ∧
    ∃ xs : List Queued,
      (∀ x ∈ xs, (x.placed ac).In (moves w.program.log) ∧ x.rsp.OfServer ∧
        (x.placed ac).cells ⊆ Ledger.wire c (moves w.program.log)) ∧
      xs.Pairwise (fun x y => x.queue = y.queue → x.pos < y.pos) ∧
      ((xs.filter fun x => x.queue = .out c).map fun x => (x.placed ac).2) <+:
        placed 0 (Ledger.frames (.out c) (moves w.program.log)) ∧
      onConn serverConn (trace (Wired.step (clientEndpoint ac)) (heardOnBytes ac)
        (Wired.init (Client.init sock serverAddress listenPort)) es') =
          xs.map (fun x => (x.success, x.rsp)) ∧
      (w.program.pending (.out c) = [] →
        v.received serverConn = Ledger.written c (moves w.program.log) →
        v.program.program.serving ≠ some serverConn → ∀ z : Ledger.Placed Queue UInt8,
          z.In (moves w.program.log) → z.1 = .out c → z ∈ xs.map (Queued.placed ac)) := by
  obtain ⟨xs, hxs, hcells, hordered, hfirst, hheard, hall⟩ := server_heard hac hwide hresponse
    (simulates_framed.run (fun _ => trivial) server) hfits (fun _ _ h => h) client htoClient
  exact ⟨requests_served hac hwide hcommand hresponse server client htoServer htoClient hfits
    hfits', xs, fun x hx => ⟨(hxs x hx).1, (hxs x hx).2.1, hcells x hx⟩, hordered, hfirst, hheard, hall⟩

/-- The login of hans, whose request comes in two pieces. -/
theorem conversation_delivered_login :
    ∃ (w : Wired State) (v : Wired Client),
      w.received 0 = Ledger.written serverConn (moves v.program.program.log) ∧
      v.received serverConn = Ledger.written 0 (moves w.program.log) ∧
      (∃ (reqs : List IMRequest) (n : ℕ),
        (onConn 0 (trace (Wired.step (serverEndpoint protobufWire)) (servedOnBytes protobufWire)
          (Wired.init demo.init) loginReads)).map some =
            (reqs.take n).map (parseRequest protobufWire)) ∧
      ∃ xs : List Queued,
        onConn serverConn (trace (Wired.step (clientEndpoint protobufWire))
          (heardOnBytes protobufWire) (Wired.init (Client.init 3 demoAddr 0)) welcomeReads) =
            xs.map fun x => (x.success, x.rsp) := by
  obtain ⟨w, server, hw⟩ := Run.exists_of_execute (Wired.step (serverEndpoint protobufWire))
    (fun w e => Wired.NoErrors w e ∧ Wired.onOther DrainsFramed w e) (Wired.init demo.init)
    loginReads (fun w => w.received 0 = loginBytes ∧
      Ledger.written 0 (moves w.program.log) = welcomeBytes ∧ FramesFit w.program.log)
    (by decide +kernel)
  obtain ⟨v, client, hv⟩ := Run.exists_of_execute (Wired.step (clientEndpoint protobufWire))
    Wired.NoErrors (Wired.init (Client.init 3 demoAddr 0)) welcomeReads
    (fun v => v.received serverConn = welcomeBytes ∧
      Ledger.written serverConn (moves v.program.program.log) = loginBytes) (by decide +kernel)
  have htoServer := hw.1.trans hv.2.symm
  have htoClient := hv.1.trans hw.2.1.symm
  have hfits : ∀ x ∈ onConn serverConn (trace (Wired.step (clientEndpoint protobufWire))
      (sentOnBytes protobufWire) (Wired.init (Client.init 3 demoAddr 0)) welcomeReads),
        (x.bytes protobufWire).length < 2 ^ 64 := by decide +kernel
  obtain ⟨⟨reqs, n, -, hserved, -⟩, xs, -, -, -, hheard, -⟩ :=
    conversation_delivered lawful_protobufWire wide_protobufWire (incremental_protobufWire 2)
      (incremental_protobufWire 3) server client ⟨[], by rw [List.append_nil, htoServer]⟩
      ⟨[], by rw [List.append_nil, htoClient]⟩ hw.2.2 hfits
  exact ⟨w, v, htoServer, htoClient, ⟨reqs, n, hserved⟩, xs, hheard⟩

/-! ## Clients among themselves -/

/-- **Peers.** What a client whose reads do not fail handles on a connection to another one are the
first responses that the other one has sent on it, each once and in order, and all of them once they
have been written and read. -/
theorem peers_hear (hac : ac.Lawful) (hwide : ac.Wide)
    (hresponse : Incremental (Client.decodeResponse ac)) {sock sock' : ℕ}
    {serverAddress serverAddress' : SockAddr} {listenPort listenPort' : UInt32}
    {ok : Wired Client → WiredEvent ClientEvent (Answers × Bool) → Prop}
    {es es' : List (WiredEvent ClientEvent (Answers × Bool))} {w v : Wired Client}
    (sender : Run (Wired.step (clientEndpoint ac)) ok
      (Wired.init (Client.init sock serverAddress listenPort)) es w)
    (receiver : Run (Wired.step (clientEndpoint ac)) Wired.NoErrors
      (Wired.init (Client.init sock' serverAddress' listenPort')) es' v) {c d : ConnId}
    (hc : c ≠ serverConn)
    (htcp : v.received d <+: Ledger.written c (moves w.program.program.log))
    (hfits : ∀ x ∈ onConn c (trace (Wired.step (clientEndpoint ac)) (sentOnBytes ac)
      (Wired.init (Client.init sock serverAddress listenPort)) es), (x.bytes ac).length < 2 ^ 64) :
    ∃ (rsps : List IMResponse) (n : ℕ),
      onConn c (trace (Wired.step (clientEndpoint ac)) (sentOnBytes ac)
        (Wired.init (Client.init sock serverAddress listenPort)) es) = rsps.map .response ∧
      (onConn d (trace (Wired.step (clientEndpoint ac)) (heardOnBytes ac)
        (Wired.init (Client.init sock' serverAddress' listenPort')) es')).map some =
          (rsps.take n).map (IMResponse.parsed ac) ∧
      (w.program.program.pending (.out c) = [] →
        v.received d = Ledger.written c (moves w.program.program.log) →
        v.program.program.serving ≠ some d → rsps.take n = rsps) := by
  have sender' := sender.weaken fun w e _ => onOther_always w e
  have senderRun := simulates_client.run (fun _ => trivial) sender'
  have hsent : trace (Client.step ac) (Client.output ac) (Client.init sock serverAddress listenPort)
      _ = trace (Wired.step (clientEndpoint ac)) (sentOnBytes ac) _ es :=
    simulates_client.trace_eq (fun _ => trivial) (fun _ _ _ => rfl) sender'
  obtain ⟨rsps, hrsps⟩ : onConn c (trace (Client.step ac) (Client.output ac)
      (Client.init sock serverAddress listenPort) _) ∈ Set.range (List.map Outgoing.response) := by
    rw [Set.range_list_map]
    intro m hm
    obtain ⟨x, hx, hxm⟩ := List.mem_filterMap.mp hm
    split at hxm
    · next heq =>
        obtain rfl := Option.some.inj hxm
        obtain ⟨rsp, hrsp⟩ := trace_forall _ senderRun
          (fun {k e k'} _ _ => @responses_of_output ac k e) x hx (heq ▸ hc)
        exact ⟨rsp, hrsp.symm⟩
    · cases hxm
  have hwritten : w.program.program.sentTo c =
      (rsps.map (encodeIMResponseToBytes ac)).flatten := by
    rw [sentTo_run senderRun c]
    show ((onConn c (trace (Client.step ac) (Client.output ac)
      (Client.init sock serverAddress listenPort) _)).map _).flatten = _
    rw [← hrsps, List.map_map]
    rfl
  rw [← hsent, ← hrsps] at hfits ⊢
  obtain ⟨n, hheard, -, hdone⟩ := responses_delivered hac hwide hresponse (fun _ _ h => h) receiver
    (fun rsp hrsp => hfits _ (List.mem_map_of_mem hrsp)) (incomplete_nil hac)
    (by rw [List.append_nil]; exact htcp.trans (hwritten ▸ List.prefix_append _ _))
  refine ⟨rsps, n, rfl, hheard, fun hempty hread hidle => hdone ?_ hidle⟩
  rw [hread, ← hwritten, State.sentTo, hempty, List.append_nil, List.append_nil]

/-- The message of a client to yoda, who has registered on its connection 1. -/
def helloBytes : Bytes := (Response.text (text "hello")).frame protobufWire true

/-- yoda registers, and is written to. -/
def registrationReads : List (WiredEvent ClientEvent (Answers × Bool)) :=
  [.other (.accept 4 demoAddr),
    .recv 4 (.data ((Response.privateRegistration (text "yoda")).frame protobufWire true)),
    .round (⟨none, none, false⟩, false), .round (⟨none, none, false⟩, false), .other .lock,
    .other .check,
    .other (.command (.privateTo (text "yoda")
      ((Response.text (text "hello")).toIMResponse protobufWire true))),
    .other (.writable 4 (some helloBytes.length))]

/-- yoda's client reads it, on a connection that it has accepted. -/
def helloReads : List (WiredEvent ClientEvent (Answers × Bool)) :=
  [.other (.accept 6 demoAddr), .recv 6 (.data helloBytes), .round (⟨none, none, false⟩, false)]

theorem peers_hear_hello :
    ∃ (rsps : List IMResponse) (n : ℕ),
      (onConn 1 (trace (Wired.step (clientEndpoint protobufWire)) (heardOnBytes protobufWire)
        (Wired.init (Client.init 3 demoAddr 0)) helloReads)).map some =
          (rsps.take n).map (IMResponse.parsed protobufWire) := by
  obtain ⟨w, sender, hw⟩ := Run.exists_of_execute (Wired.step (clientEndpoint protobufWire))
    Always (Wired.init (Client.init 3 demoAddr 0)) registrationReads
    (fun w => Ledger.written 1 (moves w.program.program.log) = helloBytes) (by decide +kernel)
  obtain ⟨v, receiver, hv⟩ := Run.exists_of_execute (Wired.step (clientEndpoint protobufWire))
    Wired.NoErrors (Wired.init (Client.init 3 demoAddr 0)) helloReads
    (fun v => v.received 1 = helloBytes) (by decide +kernel)
  have hfits : ∀ x ∈ onConn 1 (trace (Wired.step (clientEndpoint protobufWire))
      (sentOnBytes protobufWire) (Wired.init (Client.init 3 demoAddr 0)) registrationReads),
        (x.bytes protobufWire).length < 2 ^ 64 := by decide +kernel
  obtain ⟨rsps, n, -, hheard, -⟩ := peers_hear lawful_protobufWire wide_protobufWire
    (incremental_protobufWire 3) sender receiver (by decide)
    ⟨[], by rw [List.append_nil, hv, hw]⟩ hfits
  exact ⟨rsps, n, hheard⟩

end EpollChat

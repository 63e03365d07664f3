import EpollChat.Construction.Demo
import EpollChat.Properties.ClientProgram
import EpollChat.Properties.Codec
import EpollChat.Properties.Wires

/-!
# The programs on bytes are the programs on messages

Every step of the server on bytes is a short run of the server of `Construction/Server.lean`: an
end of file or the beginning of a read is one event, and a round of the receive loop is the request
that the waiting bytes begin with, or the end of the read.  So every run on bytes is a run on
requests, with the same states, and what is proved of all runs on requests holds of the server on
bytes (`wired_refines`).  The same goes for the client and its responses
(`client_wired_refines`).
-/

namespace EpollChat

variable (ac : Achelper)

/-! ## The server -/

/-- The request of a decoded message. -/
def requestOf (msg : ProtobufMessage) : Option Request :=
  (parseIMRequestFromProtobufMsg msg).bind (parseRequest ac)

/-- The requests that are served, with their connections. -/
def served (s : State) : Event → List (ConnId × Request)
  | .request req => (s.serving.map fun c => (c, req)).toList
  | _ => []

/-- The requests that the server on bytes serves. -/
abbrev servedOnBytes : Wired State → WiredEvent Event Unit → List (ConnId × Request) :=
  Wired.results (serverEndpoint ac) (decodeCommand ac) (requestOf ac)

variable {ac}

lemma handler_server (i : Unit) (c : ConnId) :
    ((serverEndpoint ac).receiver i c).handler =
      decodingHandler (decodeCommand ac) (runMessage ac c) := rfl

/-- What a call of the handler does with a complete message. -/
lemma handleOnce_server {cmd : Bytes} {msg : ProtobufMessage} {n : ℕ}
    (hdec : decodeCommand ac cmd = some (msg, n)) (c : ConnId) (s : State) :
    handleOnce (serverReceiver ac c) s cmd =
      (match requestOf ac msg with
        | none => s.raise .nullDereference
        | some req => serve ac s c req, n) := by
  simp only [handleOnce, serverReceiver, parseCommand, decodingHandler, hdec, runMessage]
  show _ = (match (parseIMRequestFromProtobufMsg msg).bind (parseRequest ac) with
    | none => s.raise .nullDereference
    | some req => serve ac s c req, n)
  cases (parseIMRequestFromProtobufMsg msg).bind (parseRequest ac) with
  | none => rfl
  | some req =>
      simp only [serve]
      cases runRequest ac s c req with
      | mk s' rsp => cases rsp <;> rfl

lemma handles_server :
    Wired.Handles (serverEndpoint ac) (decodeCommand ac) (requestOf ac) fun _ => .request where
  nothing hdec := handleOnce_none (handler_server _ _) hdec _
  matched {i c s cmd msg n} hserving hdec _ hsound := by
    have hs : s.serving = some c := hserving
    have hhandler : handleOnce ((serverEndpoint ac).receiver i c) s cmd = _ :=
      handleOnce_server hdec c s
    rw [hhandler] at hsound ⊢
    refine ⟨rfl, ?_⟩
    cases hreq : requestOf ac msg with
    | none =>
        simp only [hreq] at hsound
        exact absurd hsound (by simp [serverEndpoint, State.raise])
    | some req =>
        simp only [hreq] at hsound
        refine ⟨req, rfl, (step_eq_some ac).mpr ⟨?_, of_decide_eq_true hsound, ?_⟩⟩
        · rw [enabled, hs]
          exact Option.some_ne_none c
        · simp only [exec, hs]

lemma observes_server : Wired.Observes (serverEndpoint ac) (fun _ => .request) served where
  other s e hread := by cases e <;> first | rfl | cases hread
  eof _ _ := rfl
  readable _ _ := rfl
  readDone _ := rfl
  message {s c} i req hserving := by
    have hs : s.serving = some c := hserving
    simp [served, hs]

/-! ### Reading -/

lemma serving_of_sessions {s t : State} (h : s.sessions = t.sessions) : s.serving = t.serving :=
  show s.sessions.serving = t.sessions.serving by rw [h]

lemma serving_updateLastActive (s : State) (c : ConnId) :
    (updateLastActive s c).serving = s.serving := by
  rcases updateLastActive_eq s c with h | ⟨u, -, -, h⟩ <;> rw [h]
  rfl

lemma serving_logoutUser (s : State) (u : Option UserId) :
    (logoutUser ac s u).serving = s.serving := by
  show (logoutUser ac s u).sessions.serving = _
  rw [sessions_logoutUser, serving_unbind]
  rfl

lemma serving_closeSocket (s : State) (c : ConnId) : (closeSocket ac s c).serving = s.serving := by
  show (closeSocket ac s c).sessions.serving = _
  rw [sessions_closeSocket]
  exact serving_unbind s.sessions _

lemma serving_sweepClient (s : State) (c : ConnId) :
    (sweepClient ac s c).serving = s.serving := by
  unfold sweepClient
  split
  · rw [sendResponseToClient_eq]
    exact (serving_of_sessions (sessions_deliver ac _ _)).trans (serving_logoutUser s _)
  · rfl

lemma serving_timeThread (s : State) : (timeThread ac s).serving = s.serving := by
  unfold timeThread
  generalize s.clients = l
  induction l generalizing s with
  | nil => rfl
  | cons c l ih => exact (ih _).trans (serving_sweepClient s c)

lemma serving_serve (s : State) (c : ConnId) (req : Request) :
    (serve ac s c req).serving = s.serving := by
  show (serve ac s c req).sessions.serving = _
  rcases sessions_serve_cases ac s c req with h | h | ⟨r, u, -, -, h⟩ | ⟨-, -, h⟩ <;> rw [h]
  · rfl
  · exact serving_updateLastActive _ _
  · exact serving_updateLastActive _ _
  · exact (serving_updateLastActive _ _).trans (serving_closeSocket s c)

/-- The server begins and ends its reads in the receive loop. -/
lemma orderly_server : Wired.Orderly (serverEndpoint ac) where
  other {s e s'} hread hstep := by
    obtain ⟨-, -, rfl⟩ := (step_eq_some ac).mp hstep
    cases e with
    | accept fd addr =>
        obtain ⟨_, _, h⟩ := acceptClient_eq s fd addr
        show (acceptClient s fd addr).serving = s.serving
        rw [h]
    | hangup fd =>
        show (exec ac s (.hangup fd)).serving = s.serving
        rw [exec]
        cases pickConn s fd with
        | none => rfl
        | some c => exact serving_closeSocket s c
    | writable fd n₁ n₂ =>
        show (exec ac s (.writable fd n₁ n₂)).serving = s.serving
        rw [exec]
        cases pickConn s fd with
        | none => rfl
        | some c => exact serving_of_sessions (sessions_congr (core_networkWritable s c n₁ n₂))
    | tick seconds => rfl
    | sweep => exact serving_timeThread s
    | _ => cases hread
  eof {s fd s'} hstep := by
    obtain ⟨henabled, -, rfl⟩ := (step_eq_some ac).mp hstep
    refine ⟨henabled.1, ?_⟩
    show (exec ac s (.eof fd)).serving = none
    rw [exec]
    cases pickConn s fd with
    | none => exact henabled.1
    | some c => exact (serving_closeSocket s c).trans henabled.1
  readable hstep := ((step_eq_some ac).mp hstep).1.1
  handler i c s cmd := by
    show (handleOnce (serverReceiver ac c) s cmd).1.serving = s.serving
    cases hdec : decodeCommand ac cmd with
    | none => exact congrArg (fun r => r.1.serving) (handleOnce_none (handler_server i c) hdec s)
    | some p =>
        rw [handleOnce_server hdec]
        cases requestOf ac p.1 with
        | none => rfl
        | some req => exact serving_serve s c req
  readDone hstep := by
    obtain ⟨-, -, rfl⟩ := (step_eq_some ac).mp hstep
    rfl

/-- **Refinement.** A run of the server on bytes is a run on requests that ends in the same state
and serves the same requests on the same connections in the same order.  A side condition on the
events that read nothing is kept. -/
theorem wired_refines {p : Setup} {ok : State → Event → Prop}
    (hok : ∀ s e, (serverEndpoint ac).ofRead e = true → ok s e)
    {es : List (WiredEvent Event Unit)} {w : Wired State}
    (run : Run (Wired.step (serverEndpoint ac)) (Wired.onOther ok) (Wired.init p.init) es w) :
    ∃ es', ServerRun ac p ok es' w.program ∧
      trace (step ac) served p.init es' =
        trace (Wired.step (serverEndpoint ac)) (servedOnBytes ac) (Wired.init p.init) es := by
  have hsim := Wired.simulates (@handles_server ac) (fun s _ req => hok s (.request req) rfl)
    (fun s => hok s .readDone rfl) fun s fd => ⟨hok s (.readable fd) rfl, hok s (.eof fd) rfl⟩
  refine ⟨_, hsim.run (fun _ => trivial) run, ?_⟩
  exact hsim.trace_eq (fun _ => trivial)
    (fun _ _ hstep => Wired.trace_events observes_server hstep) run

/-- The request with which hans logs in, as his client writes it. -/
def loginBytes : Bytes :=
  encodeIMRequestToBytes protobufWire
    (loginRequest protobufWire (text "hans") (text "falcon") 0)

/-- The server's answer. -/
def welcomeBytes : Bytes := (Response.text (text "Welcome hans!")).frame protobufWire true

/-- The request comes in two pieces, and the answer is written as a whole. -/
def loginReads : List (WiredEvent Event Unit) :=
  [.other (.accept 5 demoAddr), .recv 5 (.data (loginBytes.take 7)), .round (),
    .recv 5 (.data (loginBytes.drop 7)), .round (), .round (),
    .other (.writable 5 (some welcomeBytes.length) none)]

theorem wired_refines_login :
    ∃ (w : Wired State) (es' : List Event), ServerRun protobufWire demo Always es' w.program ∧
      trace (step protobufWire) served demo.init es' =
        trace (Wired.step (serverEndpoint protobufWire)) (servedOnBytes protobufWire)
          (Wired.init demo.init) loginReads := by
  obtain ⟨w, run, -⟩ := Run.exists_of_execute (Wired.step (serverEndpoint protobufWire))
    (Wired.onOther Always) (Wired.init demo.init) loginReads (fun _ => True) (by decide +kernel)
  exact ⟨w, wired_refines (fun _ _ _ => trivial) run⟩

/-! ## The client -/

variable (ac)

/-- The response of a decoded message, with what `lastresponse` is set to. -/
def responseOf (msg : ProtobufMessage) : Option (Bool × Response) :=
  (parseIMResponseFromProtobufMsg msg).bind fun imrsp =>
    (parseResponse ac imrsp).map fun rsp => (imrsp.success, rsp)

/-- The responses that are handled, with their connections. -/
def heard (k : Client) : ClientEvent → List (ConnId × Bool × Response)
  | .response success rsp _ _ => (k.program.serving.map fun c => (c, success, rsp)).toList
  | _ => []

/-- The responses that the client on bytes handles. -/
abbrev heardOnBytes :
    Wired Client → WiredEvent ClientEvent (Answers × Bool) → List (ConnId × Bool × Response) :=
  Wired.results (clientEndpoint ac) (Client.decodeResponse ac) (responseOf ac)

/-- The event in which a response is handled. -/
def responseEvent (i : Answers × Bool) (r : Bool × Response) : ClientEvent :=
  .response r.1 r.2 i.1 i.2

variable {ac}

lemma handler_client (i : Answers × Bool) (c : ConnId) :
    ((clientEndpoint ac).receiver i c).handler =
      decodingHandler (Client.decodeResponse ac) (Client.runResponse ac fun _ _ => i) := rfl

lemma handleOnce_client {cmd : Bytes} {msg : ProtobufMessage} {n : ℕ}
    (hdec : Client.decodeResponse ac cmd = some (msg, n)) (i : Answers × Bool) (c : ConnId)
    (k : Client) :
    handleOnce ((clientEndpoint ac).receiver i c) k cmd =
      (match responseOf ac msg with
        | none => { k with program := k.program.raise .nullDereference }
        | some r => k.exec ac (responseEvent i r), n) := by
  simp only [handleOnce, handler_client, decodingHandler, hdec, Client.runResponse, responseOf]
  cases parseIMResponseFromProtobufMsg msg with
  | none => rfl
  | some imrsp =>
      simp only [Option.bind_some]
      cases parseResponse ac imrsp <;> rfl

lemma handles_client :
    Wired.Handles (clientEndpoint ac) (Client.decodeResponse ac) (responseOf ac) responseEvent where
  nothing hdec := handleOnce_none (handler_client _ _) hdec _
  matched {i c k cmd msg n} hserving hdec hadmits hsound := by
    have hs : k.program.serving = some c := hserving
    rw [handleOnce_client hdec] at hsound ⊢
    refine ⟨rfl, ?_⟩
    cases hrsp : responseOf ac msg with
    | none =>
        simp only [hrsp] at hsound
        exact absurd hsound (by simp [clientEndpoint, State.raise])
    | some r =>
        simp only [hrsp] at hsound
        obtain ⟨hexited, hconnected, hanswers⟩ := of_decide_eq_true hadmits
        refine ⟨r, rfl, (client_step_eq_some ac).mpr
          ⟨hexited, ⟨?_, hconnected, hanswers⟩, of_decide_eq_true hsound, rfl⟩⟩
        rw [hs]
        exact Option.some_ne_none c

lemma observes_client : Wired.Observes (clientEndpoint ac) responseEvent heard where
  other k e hread := by cases e <;> first | rfl | cases hread
  eof _ _ := rfl
  readable _ _ := rfl
  readDone _ := rfl
  message {k c} i r hserving := by
    have hs : k.program.serving = some c := hserving
    simp [heard, responseEvent, hs]

/-! ### Reading -/

lemma serving_of_core {s t : State} (h : s.core = t.core) : s.serving = t.serving :=
  show s.core.serving = t.core.serving by rw [h]

lemma serving_askServer (s : State) (req : IMRequest) :
    (askServer ac s req).serving = s.serving :=
  serving_of_core (core_askServer ac s req)

lemma serving_gotCommand (k : Client) (cmd : Command) :
    (k.gotCommand ac cmd).program.serving = k.program.serving := by
  have hlast : (k.gotCommand ac cmd).program.serving = (k.parseCommand ac cmd).program.serving :=
    serving_of_core (core_epollDoSendBuffer _)
  rw [hlast]
  cases cmd with
  | login username password => exact serving_askServer k.program _
  | startprivate username => exact serving_askServer k.program _
  | stopprivate username =>
      simp only [Client.parseCommand]
      split
      · rfl
      · exact serving_closeSocket k.program _
  | privateTo username rsp =>
      simp only [Client.parseCommand]
      split
      · rfl
      · exact serving_of_core (core_sendResponseToClient ac k.program _ _ _)
  | other req =>
      cases req with
      | none => rfl
      | some req => exact serving_askServer k.program req

lemma serving_gotPrivateRegistration (s : State) (c : ConnId) (username : Bytes) :
    (gotPrivateRegistration s c username).serving = s.serving := by
  unfold gotPrivateRegistration findOrAddUser
  cases findUser s username <;> rfl

lemma serving_acceptClient (s : State) (fd : ℕ) (addr : SockAddr) :
    (acceptClient s fd addr).serving = s.serving := by
  obtain ⟨_, _, h⟩ := acceptClient_eq s fd addr
  rw [h]

lemma serving_handleResponse (k : Client) (c : ConnId) (rsp : Response) (env : Answers) :
    (k.handleResponse ac c rsp env).program.serving = k.program.serving := by
  cases rsp with
  | getip username addr =>
      simp only [Client.handleResponse]
      split
      · rfl
      · rw [serving_of_core (core_gotPrivateAddr ac _ _ _ _ _), connectedTo,
          serving_gotPrivateRegistration, serving_acceptClient]
  | privateRegistration username => exact serving_gotPrivateRegistration _ _ username
  | chunkDataRequest filename chunk =>
      exact serving_of_core (core_sendResponseToClient ac _ _ _ _)
  | chunkDataResponse filename chunk data =>
      simp only [Client.handleResponse]
      split
      · exact (serving_of_core (core_epollDoSendBuffer _)).trans (serving_askServer _ _)
      · rfl
  | text | exit | unknown => rfl

/-- The client begins and ends its reads in the receive loop. -/
lemma orderly_client : Wired.Orderly (clientEndpoint ac) where
  other {k e k'} hread hstep := by
    obtain ⟨-, -, -, rfl⟩ := (client_step_eq_some ac).mp hstep
    cases e with
    | accept fd addr => exact serving_acceptClient k.program fd addr
    | hangup fd =>
        show (k.exec ac (.hangup fd)).program.serving = k.program.serving
        rw [Client.exec]
        cases pickConn k.program fd with
        | none => rfl
        | some c => exact serving_closeSocket k.program c
    | writable fd nsent =>
        show (k.exec ac (.writable fd nsent)).program.serving = k.program.serving
        rw [Client.exec]
        cases pickConn k.program fd with
        | none => rfl
        | some c =>
            refine serving_of_core ?_
            rw [State.core_unlock, core_imSendBuffer, State.core_lock]
    | lock => rfl
    | check =>
        show (k.exec ac .check).program.serving = k.program.serving
        rw [Client.exec]
        split <;> rfl
    | ask username password => exact serving_gotCommand k (.login username password)
    | command cmd => exact serving_gotCommand k cmd
    | _ => cases hread
  eof {k fd k'} hstep := by
    obtain ⟨-, henabled, -, rfl⟩ := (client_step_eq_some ac).mp hstep
    refine ⟨henabled.1, ?_⟩
    show (k.exec ac (.eof fd)).program.serving = none
    rw [Client.exec]
    cases pickConn k.program fd with
    | none => exact henabled.1
    | some c => exact (serving_closeSocket k.program c).trans henabled.1
  readable hstep := ((client_step_eq_some ac).mp hstep).2.1.1
  handler i c k cmd := by
    show (handleOnce ((clientEndpoint ac).receiver i c) k cmd).1.program.serving =
      k.program.serving
    cases hdec : Client.decodeResponse ac cmd with
    | none =>
        exact congrArg (fun r => r.1.program.serving)
          (handleOnce_none (handler_client i c) hdec k)
    | some p =>
        rw [handleOnce_client hdec]
        cases responseOf ac p.1 with
        | none => rfl
        | some r =>
            simp only [responseEvent, Client.exec]
            split
            · exact serving_handleResponse _ _ _ _
            · rfl
  readDone hstep := by
    obtain ⟨-, -, -, rfl⟩ := (client_step_eq_some ac).mp hstep
    rfl

/-- **Refinement.** A run of the client on bytes is a run on responses that ends in the same state
and handles the same responses on the same connections in the same order. -/
theorem client_wired_refines {sock : ℕ} {serverAddress : SockAddr} {listenPort : UInt32}
    {ok : Client → ClientEvent → Prop}
    (hok : ∀ k e, (clientEndpoint ac).ofRead e = true → ok k e)
    {es : List (WiredEvent ClientEvent (Answers × Bool))} {w : Wired Client}
    (run : Run (Wired.step (clientEndpoint ac)) (Wired.onOther ok)
      (Wired.init (Client.init sock serverAddress listenPort)) es w) :
    ∃ es', ClientRun ac sock serverAddress listenPort ok es' w.program ∧
      trace (Client.step ac) heard (Client.init sock serverAddress listenPort) es' =
        trace (Wired.step (clientEndpoint ac)) (heardOnBytes ac)
          (Wired.init (Client.init sock serverAddress listenPort)) es := by
  have hsim := Wired.simulates (@handles_client ac)
    (fun k i r => hok k (responseEvent i r) rfl) (fun k => hok k .readDone rfl)
    fun k fd => ⟨hok k (.readable fd) rfl, hok k (.eof fd) rfl⟩
  refine ⟨_, hsim.run (fun _ => trivial) run, ?_⟩
  exact hsim.trace_eq (fun _ => trivial)
    (fun _ _ hstep => Wired.trace_events observes_client hstep) run

/-- What hans's client does meanwhile. -/
def welcomeReads : List (WiredEvent ClientEvent (Answers × Bool)) :=
  [.other .lock, .other .check, .other (.ask (text "hans") (text "falcon")),
    .other (.writable 3 (some loginBytes.length)), .recv 3 (.data welcomeBytes),
    .round (⟨none, none, false⟩, true), .round (⟨none, none, false⟩, false)]

theorem client_wired_refines_welcome :
    ∃ (w : Wired Client) (es' : List ClientEvent),
      ClientRun protobufWire 3 demoAddr 0 Always es' w.program ∧
      trace (Client.step protobufWire) heard (Client.init 3 demoAddr 0) es' =
        trace (Wired.step (clientEndpoint protobufWire)) (heardOnBytes protobufWire)
          (Wired.init (Client.init 3 demoAddr 0)) welcomeReads := by
  obtain ⟨w, run, -⟩ := Run.exists_of_execute (Wired.step (clientEndpoint protobufWire))
    (Wired.onOther Always) (Wired.init (Client.init 3 demoAddr 0)) welcomeReads (fun _ => True)
    (by decide +kernel)
  exact ⟨w, client_wired_refines (fun _ _ _ => trivial) run⟩

end EpollChat

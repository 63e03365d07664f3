import EpollChat.Construction.Encoders
import EpollChat.Construction.Wire

/-!
# What is written is read back

The encoders of `Construction/Encoders.lean` and the parsers are inverse to each other, for every
submodule `achelper` that returns what it encoded and decodes incrementally.  A frame at the front
of the input is parsed as the message it was made of and takes up exactly its own bytes, whatever
comes behind it (`request_roundtrip`, `response_roundtrip`).

Every message is two encodings deep, and so is the proof: the value first, under the type number
that selects its parser, then the frame around it.  The size of a message bounds the size of its
value, which is a field of the frame.
-/

namespace EpollChat

/-! ## Messages that can be encoded -/

lemma encodable_nil : ∀ f ∈ ([] : ProtobufMessage), f.Encodable := by simp

lemma encodable_cons {f : ProtobufField} {msg : ProtobufMessage} (hf : f.Encodable)
    (hmsg : ∀ g ∈ msg, g.Encodable) : ∀ g ∈ f :: msg, g.Encodable :=
  List.forall_mem_cons.2 ⟨hf, hmsg⟩

lemma encodable_uint32 {id : ℕ} (hid : id < 2 ^ 29) (n : UInt32) :
    ProtobufField.Encodable ⟨id, .varint n.toNat⟩ :=
  encodable_varint hid (n.toNat_lt.trans (by decide))

lemma encodable_bool {id : ℕ} (hid : id < 2 ^ 29) (b : Bool) :
    ProtobufField.Encodable ⟨id, .varint b.toNat⟩ :=
  encodable_varint hid (by cases b <;> decide)

/-- A flag is read from its low byte. -/
@[simp] lemma toNat_lowByte (b : Bool) : (!decide (b.toNat % 256 = 0)) = b := by
  cases b <;> rfl

section Lawful

variable {ac : Achelper} (hac : ac.Lawful)
include hac

/-- Something is written for a message with a field. -/
lemma encode_ne_nil {msg : ProtobufMessage} (hmsg : ∀ f ∈ msg, f.Encodable) (hne : msg ≠ []) :
    ac.encodeProtobufMsg msg ≠ [] := by
  intro hnil
  have hempty : ac.encodeProtobufMsg [] = [] := by
    simpa using hac.length_le []
  have hdec := hac.decode msg hmsg
  rw [hnil, ← hempty, hac.decode [] encodable_nil] at hdec
  exact hne (Option.some.inj hdec).symm

/-- An encoded message is one frame of a decoder for as many fields. -/
lemma wholeFrame_encode {msg : ProtobufMessage} (hmsg : ∀ f ∈ msg, f.Encodable) (hne : msg ≠ []) :
    WholeFrame (fun bytes => ac.decodeProtobufMsgWithNFields bytes msg.length)
      (ac.encodeProtobufMsg msg) :=
  ⟨encode_ne_nil hac hmsg hne, msg, hac.decodeWithNFields msg hmsg⟩

/-- A parser that reads the fields of a message reads what was encoded. -/
lemma parse_encode {α : Type} {parse : ProtobufMessage → Option α} {msg : ProtobufMessage} {r : α}
    (hmsg : ∀ f ∈ msg, f.Encodable) (hparse : parse msg = some r) :
    (ac.decodeProtobufMsg (ac.encodeProtobufMsg msg)).bind parse = some r := by
  rw [hac.decode msg hmsg]
  exact hparse

/-! ## Requests -/

lemma parse_loginRequest {req : LoginRequest} (hsize : (Request.login req).size < 2 ^ 63) :
    (ac.decodeProtobufMsg (encodeLoginRequestToBytes ac req)).bind
      parseLoginRequestFromProtobufMsg = some req := by
  simp only [Request.size] at hsize
  refine parse_encode hac ?_ (by
    simp [parseLoginRequestFromProtobufMsg, bytesField, uint32Field, findProtobufField])
  exact encodable_cons (encodable_bytes (by decide) (by omega))
    (encodable_cons (encodable_bytes (by decide) (by omega))
      (encodable_cons (encodable_uint32 (by decide) _) encodable_nil))

lemma parse_messageRequest {req : MessageRequest} (hsize : (Request.message req).size < 2 ^ 63) :
    (ac.decodeProtobufMsg (encodeMessageRequestToBytes ac req)).bind
      parseMessageRequestFromProtobufMsg = some req := by
  simp only [Request.size] at hsize
  refine parse_encode hac ?_ (by
    simp [parseMessageRequestFromProtobufMsg, bytesField, boolField, findProtobufField])
  exact encodable_cons (encodable_bool (by decide) _)
    (encodable_cons (encodable_bytes (by decide) (by omega))
      (encodable_cons (encodable_bytes (by decide) (by omega)) encodable_nil))

lemma parse_whoElseRequest (req : WhoElseRequest) :
    (ac.decodeProtobufMsg (encodeWhoElseRequestToBytes ac req)).bind
      parseWhoElseRequestFromProtobufMsg = some req := by
  refine parse_encode hac ?_ (by
    simp [parseWhoElseRequestFromProtobufMsg, uint32Field, boolField, findProtobufField])
  exact encodable_cons (encodable_bool (by decide) _)
    (encodable_cons (encodable_uint32 (by decide) _)
      (encodable_cons (encodable_bool (by decide) _) encodable_nil))

lemma parse_usernameRequest {req : UsernameRequest} (hsize : req.username.length < 2 ^ 63) :
    (ac.decodeProtobufMsg (encodeUsernameRequest ac req)).bind parseUsernameRequest =
      some req := by
  refine parse_encode hac ?_ (by simp [parseUsernameRequest, bytesField, findProtobufField])
  exact encodable_cons (encodable_bytes (by decide) (by omega)) encodable_nil

lemma parse_registerFileRequest {req : RegisterFileRequest}
    (hsize : (Request.regfile req).size < 2 ^ 63) :
    (ac.decodeProtobufMsg (encodeRegisterFileRequestToBytes ac req)).bind
      parseRegisterFileRequestFromProtobufMsg = some req := by
  simp only [Request.size] at hsize
  refine parse_encode hac ?_ (by
    simp [parseRegisterFileRequestFromProtobufMsg, bytesField, uint32Field, findProtobufField])
  exact encodable_cons (encodable_bytes (by decide) (by omega))
    (encodable_cons (encodable_uint32 (by decide) _) encodable_nil)

lemma parse_chunksRequest {req : ChunksRequest} (hsize : (Request.regchunk req).size < 2 ^ 63) :
    (ac.decodeProtobufMsg (encodeChunksRequest ac req)).bind parseChunksRequest = some req := by
  simp only [Request.size] at hsize
  refine parse_encode hac ?_ (by simp [parseChunksRequest, bytesField, findProtobufField])
  exact encodable_cons (encodable_bytes (by decide) (by omega))
    (encodable_cons (encodable_bytes (by decide) (by omega)) encodable_nil)

/-- The parser that the type number of a request selects gives the request back. -/
lemma parseRequest_toIMRequest {req : Request} (hknown : req.Known) (hsize : req.size < 2 ^ 63) :
    parseRequest ac (req.toIMRequest ac) = some req := by
  cases req with
  | login req => exact congrArg (Option.map Request.login) (parse_loginRequest hac hsize)
  | message req => exact congrArg (Option.map Request.message) (parse_messageRequest hac hsize)
  | whoelse req => exact congrArg (Option.map Request.whoelse) (parse_whoElseRequest hac req)
  | block req => exact congrArg (Option.map Request.block) (parse_usernameRequest hac hsize)
  | unblock req => exact congrArg (Option.map Request.unblock) (parse_usernameRequest hac hsize)
  | logout => rfl
  | getip req => exact congrArg (Option.map Request.getip) (parse_usernameRequest hac hsize)
  | regfile req =>
      exact congrArg (Option.map Request.regfile) (parse_registerFileRequest hac hsize)
  | regchunk req => exact congrArg (Option.map Request.regchunk) (parse_chunksRequest hac hsize)
  | searchfile req =>
      exact congrArg (Option.map Request.searchfile) (parse_chunksRequest hac hsize)
  | unknown type => exact hknown.elim

/-- A message takes little more room than what is in its fields. -/
lemma length_value_le (req : Request) :
    (req.toIMRequest ac).value.length ≤ req.size + 45 := by
  have hlen := hac.length_le
  cases req <;>
    simp only [Request.toIMRequest, Request.size, encodeLoginRequestToBytes,
      encodeMessageRequestToBytes, encodeWhoElseRequestToBytes, encodeBlockRequestToBytes,
      encodeUnBlockRequestToBytes, encodeGetIPRequestToBytes, encodeUsernameRequest,
      encodeLogOutRequestToBytes, encodeRegisterFileRequestToBytes,
      encodeRegisterChunkRequestToBytes, encodeSearchFileRequestToBytes, encodeChunksRequest,
      List.length_nil] <;>
    first
    | exact Nat.zero_le _
    | (refine (hlen _).trans ?_
       simp only [List.map_cons, List.map_nil, List.sum_cons, List.sum_nil, FieldValue.size]
       omega)

/-- An `IMRequest` whose value fits is one frame, and is read back from it. -/
lemma decodeCommand_frame {imreq : IMRequest} (hvalue : imreq.value.length < 2 ^ 64) :
    WholeFrame (decodeCommand ac) (encodeIMRequestToBytes ac imreq) ∧
      ∃ msg, decodeCommand ac (encodeIMRequestToBytes ac imreq) =
          some (msg, (encodeIMRequestToBytes ac imreq).length) ∧
        parseIMRequestFromProtobufMsg msg = some imreq := by
  have hmsg : ∀ f ∈ ([⟨1, .varint imreq.type.toNat⟩, ⟨2, .bytes imreq.value⟩] : ProtobufMessage),
      f.Encodable :=
    encodable_cons (encodable_uint32 (by decide) _)
      (encodable_cons (encodable_bytes (by decide) hvalue) encodable_nil)
  refine ⟨wholeFrame_encode hac hmsg (List.cons_ne_nil _ _), _,
    hac.decodeWithNFields _ hmsg, ?_⟩
  simp [parseIMRequestFromProtobufMsg, uint32Field, bytesField, findProtobufField]

/-- The bytes of a request are one frame of the decoder that the server uses. -/
lemma wholeFrame_request {req : Request} (hsize : req.size < 2 ^ 63) :
    WholeFrame (decodeCommand ac) (req.frame ac) := by
  have hvalue := length_value_le hac req
  exact (decodeCommand_frame hac (by omega)).1

lemma parseFrame_frame (hd : Incremental (decodeCommand ac)) {req : Request}
    (hknown : req.Known) (hsize : req.size < 2 ^ 63) (rest : Bytes) :
    parseFrame ac (req.frame ac ++ rest) = some (req, (req.frame ac).length) := by
  have hvalue := length_value_le hac req
  obtain ⟨hframe, msg, hdec, hmsg⟩ :=
    decodeCommand_frame hac (show (req.toIMRequest ac).value.length < 2 ^ 64 by omega)
  have hfront : decodeCommand ac (req.frame ac ++ rest) = some (msg, (req.frame ac).length) :=
    (hd.append _ hframe rest).trans hdec
  refine Option.bind_eq_some_iff.2 ⟨_, hfront, Option.bind_eq_some_iff.2 ⟨_, hmsg, ?_⟩⟩
  exact Option.bind_eq_some_iff.2 ⟨_, parseRequest_toIMRequest hac hknown hsize, rfl⟩

/-- **Requests.** A request of a known type at the front of the waiting bytes is parsed as the
request it was made of, and takes up its own bytes, whatever waits behind it. -/
theorem request_roundtrip (hd : Incremental (decodeCommand ac)) {req : Request}
    (hknown : req.Known) (hsize : req.size < 2 ^ 63) (rest : Bytes) :
    parseFrame ac (req.frame ac ++ rest) = some (req, (req.frame ac).length) :=
  parseFrame_frame hac hd hknown hsize rest

omit hac in
/-- A chat message with another one behind it. -/
theorem request_roundtrip_message :
    parseFrame protobufWire
        ((Request.message ⟨false, text "yoda", text "hi"⟩).frame protobufWire ++
          Request.logout.frame protobufWire) =
      some (.message ⟨false, text "yoda", text "hi"⟩,
        ((Request.message ⟨false, text "yoda", text "hi"⟩).frame protobufWire).length) :=
  @request_roundtrip protobufWire lawful_protobufWire (incremental_protobufWire 2)
    (.message ⟨false, text "yoda", text "hi"⟩) trivial (by decide) _

/-! ## Responses -/

lemma parseResponse_toIMResponse (success : Bool) {rsp : Response} (hknown : rsp.Known)
    (hsize : rsp.size < 2 ^ 63) : parseResponse ac (rsp.toIMResponse ac success) = some rsp := by
  cases rsp with
  | text msg =>
      have hdec := hac.decode [⟨1, .bytes msg⟩]
        (encodable_cons (encodable_bytes (by decide) (hsize.trans (by decide))) encodable_nil)
      simp [parseResponse, Response.toIMResponse, encodeTextResponseToBytes,
        encodeMsgFieldToBytes, hdec, bytesField, findProtobufField]
  | exit msg =>
      have hdec := hac.decode [⟨1, .bytes msg⟩]
        (encodable_cons (encodable_bytes (by decide) (hsize.trans (by decide))) encodable_nil)
      simp [parseResponse, Response.toIMResponse, encodeExitResponseToBytes,
        encodeMsgFieldToBytes, hdec, bytesField, findProtobufField]
  | getip username addr =>
      simp only [Response.size] at hsize
      have hdec := hac.decode [⟨1, .bytes username⟩, ⟨2, .bytes addr⟩]
        (encodable_cons (encodable_bytes (by decide) (by omega))
          (encodable_cons (encodable_bytes (by decide) (by omega)) encodable_nil))
      simp [parseResponse, Response.toIMResponse, encodeGetIPResponseToBytes, hdec, bytesField,
        findProtobufField]
  | privateRegistration username =>
      have hdec := hac.decode [⟨1, .bytes username⟩]
        (encodable_cons (encodable_bytes (by decide) (hsize.trans (by decide))) encodable_nil)
      simp [parseResponse, Response.toIMResponse, encodePrivateRegistrationResponseToBytes, hdec,
        bytesField, findProtobufField]
  | chunkDataRequest filename chunk =>
      simp only [Response.size] at hsize
      have hdec := hac.decode [⟨1, .bytes filename⟩, ⟨2, .varint chunk.toNat⟩]
        (encodable_cons (encodable_bytes (by decide) (by omega))
          (encodable_cons (encodable_uint32 (by decide) _) encodable_nil))
      simp [parseResponse, Response.toIMResponse, encodeChunkDataRequestToBytes, hdec, bytesField,
        uint32Field, findProtobufField]
  | chunkDataResponse filename chunk data =>
      simp only [Response.size] at hsize
      have hdec := hac.decode [⟨1, .bytes filename⟩, ⟨2, .varint chunk.toNat⟩, ⟨3, .bytes data⟩]
        (encodable_cons (encodable_bytes (by decide) (by omega))
          (encodable_cons (encodable_uint32 (by decide) _)
            (encodable_cons (encodable_bytes (by decide) (by omega)) encodable_nil)))
      simp [parseResponse, Response.toIMResponse, encodeChunkDataResponseToBytes, hdec, bytesField,
        uint32Field, findProtobufField]
  | unknown type => exact hknown.elim

lemma length_responseValue_le (success : Bool) (rsp : Response) :
    (rsp.toIMResponse ac success).value.length ≤ rsp.size + 45 := by
  have hlen := hac.length_le
  cases rsp <;>
    simp only [Response.toIMResponse, Response.size, encodeTextResponseToBytes,
      encodeExitResponseToBytes, encodeMsgFieldToBytes, encodeGetIPResponseToBytes,
      encodePrivateRegistrationResponseToBytes, encodeChunkDataRequestToBytes,
      encodeChunkDataResponseToBytes, List.length_nil] <;>
    first
    | exact Nat.zero_le _
    | (refine (hlen _).trans ?_
       simp only [List.map_cons, List.map_nil, List.sum_cons, List.sum_nil, FieldValue.size]
       omega)

/-- An `IMResponse` whose value fits is one frame, and is read back from it. -/
lemma decodeResponse_frame {imrsp : IMResponse} (hvalue : imrsp.value.length < 2 ^ 64) :
    WholeFrame (Client.decodeResponse ac) (encodeIMResponseToBytes ac imrsp) ∧
      ∃ msg, Client.decodeResponse ac (encodeIMResponseToBytes ac imrsp) =
          some (msg, (encodeIMResponseToBytes ac imrsp).length) ∧
        parseIMResponseFromProtobufMsg msg = some imrsp := by
  have hmsg : ∀ f ∈ ([⟨1, .varint imrsp.type.toNat⟩, ⟨2, .varint imrsp.success.toNat⟩,
      ⟨3, .bytes imrsp.value⟩] : ProtobufMessage), f.Encodable :=
    encodable_cons (encodable_uint32 (by decide) _)
      (encodable_cons (encodable_bool (by decide) _)
        (encodable_cons (encodable_bytes (by decide) hvalue) encodable_nil))
  refine ⟨wholeFrame_encode hac hmsg (List.cons_ne_nil _ _), _,
    hac.decodeWithNFields _ hmsg, ?_⟩
  simp [parseIMResponseFromProtobufMsg, uint32Field, boolField, bytesField, findProtobufField]

/-- **Responses.** The same for the six responses, with the success flag that comes with
them. -/
theorem response_roundtrip (hd : Incremental (Client.decodeResponse ac)) (success : Bool)
    {rsp : Response} (hknown : rsp.Known) (hsize : rsp.size < 2 ^ 63) (rest : Bytes) :
    parseResponseFrame ac (rsp.frame ac success ++ rest) =
      some (success, rsp, (rsp.frame ac success).length) := by
  have hvalue := length_responseValue_le hac success rsp
  obtain ⟨hframe, msg, hdec, hmsg⟩ := decodeResponse_frame hac
    (show (rsp.toIMResponse ac success).value.length < 2 ^ 64 by omega)
  have hfront : Client.decodeResponse ac (rsp.frame ac success ++ rest) =
      some (msg, (rsp.frame ac success).length) := (hd.append _ hframe rest).trans hdec
  have hsuccess : (rsp.toIMResponse ac success).success = success := by cases rsp <;> rfl
  refine Option.bind_eq_some_iff.2 ⟨_, hfront, Option.bind_eq_some_iff.2 ⟨_, hmsg, ?_⟩⟩
  refine Option.bind_eq_some_iff.2 ⟨_, parseResponse_toIMResponse hac success hknown hsize, ?_⟩
  rw [hsuccess]
  rfl

omit hac in
/-- A chunk of a file. -/
theorem response_roundtrip_chunk :
    parseResponseFrame protobufWire
        ((Response.chunkDataResponse (text "notes") 3 (text "data")).frame protobufWire true ++
          [8]) =
      some (true, .chunkDataResponse (text "notes") 3 (text "data"),
        ((Response.chunkDataResponse (text "notes") 3 (text "data")).frame protobufWire
          true).length) :=
  @response_roundtrip protobufWire lawful_protobufWire (incremental_protobufWire 3) true
    (.chunkDataResponse (text "notes") 3 (text "data")) trivial (by decide) _

end Lawful

end EpollChat

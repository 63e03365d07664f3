import EpollChat.Construction.CommandLine
import EpollChat.Construction.Receive

/-!
# Requests and responses as bytes (`proto/*.pb.c`)

The generated encoders, the opposite of the parsers of `Construction/Proto.lean`.  The client
writes requests, the server and the peers write responses, and either is a type number and a
value in which the message itself is encoded.

`Request.toIMRequest` is the message under the number its parser has in `enabled_commands`, and
`Response.toIMResponse` under the number its case has in `parse_response`.  Two requests, and two
responses, differ in their encoder only by the number.
-/

namespace EpollChat

variable (ac : Achelper)

/-! ## Requests -/

def encodeLoginRequestToBytes (msg : LoginRequest) : Bytes :=
  ac.encodeProtobufMsg
    [⟨1, .bytes msg.username⟩, ⟨2, .bytes msg.password⟩, ⟨3, .varint msg.port.toNat⟩]

def encodeMessageRequestToBytes (msg : MessageRequest) : Bytes :=
  ac.encodeProtobufMsg
    [⟨1, .varint msg.broadcast.toNat⟩, ⟨2, .bytes msg.username⟩, ⟨3, .bytes msg.msg⟩]

def encodeWhoElseRequestToBytes (msg : WhoElseRequest) : Bytes :=
  ac.encodeProtobufMsg
    [⟨1, .varint msg.limitTime.toNat⟩, ⟨2, .varint msg.pastSeconds.toNat⟩,
      ⟨3, .varint msg.currentlyOnline.toNat⟩]

/-- The encoder of the three requests that hold a user name. -/
def encodeUsernameRequest (msg : UsernameRequest) : Bytes :=
  ac.encodeProtobufMsg [⟨1, .bytes msg.username⟩]

def encodeBlockRequestToBytes := encodeUsernameRequest

def encodeUnBlockRequestToBytes := encodeUsernameRequest

def encodeGetIPRequestToBytes := encodeUsernameRequest

def encodeLogOutRequestToBytes : Bytes := ac.encodeProtobufMsg []

def encodeRegisterFileRequestToBytes (msg : RegisterFileRequest) : Bytes :=
  ac.encodeProtobufMsg [⟨1, .bytes msg.filename⟩, ⟨2, .varint msg.chunks.toNat⟩]

/-- The encoder of the two requests that hold a file name and packed chunk numbers. -/
def encodeChunksRequest (msg : ChunksRequest) : Bytes :=
  ac.encodeProtobufMsg [⟨1, .bytes msg.filename⟩, ⟨2, .bytes msg.chunks⟩]

def encodeRegisterChunkRequestToBytes := encodeChunksRequest

def encodeSearchFileRequestToBytes := encodeChunksRequest

/-- A request under its number, as a client sends it. -/
def Request.toIMRequest : Request → IMRequest
  | .login req => { type := 1, value := encodeLoginRequestToBytes ac req }
  | .message req => { type := 2, value := encodeMessageRequestToBytes ac req }
  | .whoelse req => { type := 3, value := encodeWhoElseRequestToBytes ac req }
  | .block req => { type := 4, value := encodeBlockRequestToBytes ac req }
  | .unblock req => { type := 5, value := encodeUnBlockRequestToBytes ac req }
  | .logout => { type := 6, value := encodeLogOutRequestToBytes ac }
  | .getip req => { type := 7, value := encodeGetIPRequestToBytes ac req }
  | .regfile req => { type := 8, value := encodeRegisterFileRequestToBytes ac req }
  | .regchunk req => { type := 9, value := encodeRegisterChunkRequestToBytes ac req }
  | .searchfile req => { type := 10, value := encodeSearchFileRequestToBytes ac req }
  | .unknown type => { type, value := [] }

/-- The bytes of a request on the wire. -/
def Request.frame (req : Request) : Bytes := encodeIMRequestToBytes ac (req.toIMRequest ac)

/-- `parse_command` up to the `run` entry: the request at the front of the waiting bytes, and
the number of bytes it takes. -/
def parseFrame (cmd : Bytes) : Option (Request × ℕ) := do
  let (msg, parsed) ← decodeCommand ac cmd
  let imreq ← parseIMRequestFromProtobufMsg msg
  let req ← parseRequest ac imreq
  return (req, parsed)

/-- The bytes in the fields of a request. -/
def Request.size : Request → ℕ
  | .login req => req.username.length + req.password.length
  | .message req => req.username.length + req.msg.length
  | .block req | .unblock req | .getip req => req.username.length
  | .regfile req => req.filename.length
  | .regchunk req | .searchfile req => req.filename.length + req.chunks.length
  | .whoelse _ | .logout | .unknown _ => 0

/-- The request is one of those in `enabled_commands`. -/
def Request.Known : Request → Prop
  | .unknown _ => False
  | _ => True

/-! ## Responses -/

def encodeTextResponseToBytes := encodeMsgFieldToBytes ac

def encodeExitResponseToBytes := encodeMsgFieldToBytes ac

def encodeGetIPResponseToBytes (username addr : Bytes) : Bytes :=
  ac.encodeProtobufMsg [⟨1, .bytes username⟩, ⟨2, .bytes addr⟩]

def encodePrivateRegistrationResponseToBytes (username : Bytes) : Bytes :=
  ac.encodeProtobufMsg [⟨1, .bytes username⟩]

def encodeChunkDataRequestToBytes (msg : ChunkDataRequest) : Bytes :=
  ac.encodeProtobufMsg [⟨1, .bytes msg.filename⟩, ⟨2, .varint msg.chunk.toNat⟩]

def encodeChunkDataResponseToBytes (filename : Bytes) (chunk : UInt32) (data : Bytes) : Bytes :=
  ac.encodeProtobufMsg [⟨1, .bytes filename⟩, ⟨2, .varint chunk.toNat⟩, ⟨3, .bytes data⟩]

/-- A response under its number. -/
def Response.toIMResponse (success : Bool) : Response → IMResponse
  | .text msg => { type := 1, success, value := encodeTextResponseToBytes ac msg }
  | .exit msg => { type := 2, success, value := encodeExitResponseToBytes ac msg }
  | .getip username addr =>
      { type := 3, success, value := encodeGetIPResponseToBytes ac username addr }
  | .privateRegistration username =>
      { type := 4, success, value := encodePrivateRegistrationResponseToBytes ac username }
  | .chunkDataRequest filename chunk =>
      { type := 5, success, value := encodeChunkDataRequestToBytes ac ⟨filename, chunk⟩ }
  | .chunkDataResponse filename chunk data =>
      { type := 6, success, value := encodeChunkDataResponseToBytes ac filename chunk data }
  | .unknown type => { type, success, value := [] }

/-- The bytes of a response on the wire. -/
def Response.frame (success : Bool) (rsp : Response) : Bytes :=
  encodeIMResponseToBytes ac (rsp.toIMResponse ac success)

/-- `parse_response` up to the switch: `lastresponse`, the response at the front of the waiting
bytes, and the number of bytes it takes. -/
def parseResponseFrame (cmd : Bytes) : Option (Bool × Response × ℕ) := do
  let (msg, parsed) ← Client.decodeResponse ac cmd
  let imrsp ← parseIMResponseFromProtobufMsg msg
  let rsp ← parseResponse ac imrsp
  return (imrsp.success, rsp, parsed)

/-- The bytes in the fields of a response. -/
def Response.size : Response → ℕ
  | .text msg | .exit msg => msg.length
  | .getip username addr => username.length + addr.length
  | .privateRegistration username => username.length
  | .chunkDataRequest filename _ => filename.length
  | .chunkDataResponse filename _ data => filename.length + data.length
  | .unknown _ => 0

/-- The response is one of the six of `response.proto`. -/
def Response.Known : Response → Prop
  | .unknown _ => False
  | _ => True

/-! ## The messages the programs make -/

lemma loginRequest_eq (username password : Bytes) (port : UInt32) :
    loginRequest ac username password port =
      (Request.login ⟨username, cstr password, port⟩).toIMRequest ac := rfl

lemma startprivateRequest_eq (username : Bytes) :
    startprivateRequest ac username = (Request.getip ⟨cstr username⟩).toIMRequest ac := rfl

lemma registerChunkRequest_eq (filename : Bytes) (chunk : UInt32) :
    registerChunkRequest ac filename chunk =
      (Request.regchunk ⟨cstr filename,
        [chunk.toUInt8, (chunk >>> 8).toUInt8, (chunk >>> 16).toUInt8,
          (chunk >>> 24).toUInt8]⟩).toIMRequest ac := rfl

lemma encodeTextResponseToIMResponse_eq (msg : Bytes) (success : Bool) :
    encodeTextResponseToIMResponse ac msg success =
      (Response.text msg).toIMResponse ac success := rfl

lemma encodeExitTextToIMResponse_eq (txt : Bytes) (success : Bool) :
    encodeExitTextToIMResponse ac txt success =
      (Response.exit (cstr txt)).toIMResponse ac success := rfl

lemma encodeGetIPResponse_eq (username addr : Bytes) :
    encodeGetIPResponse ac username addr = (Response.getip username addr).toIMResponse ac true := rfl

lemma privateRegistrationResponse_eq (loggedInUserName : Option Bytes) :
    privateRegistrationResponse ac loggedInUserName =
      (Response.privateRegistration (loggedInUserName.getD (text "(null)"))).toIMResponse ac true :=
  rfl

lemma getChunkDataResponse_eq (loggedInUserName : Option Bytes) (filename : Bytes)
    (chunk : UInt32) (data : Bytes) :
    getChunkDataResponse ac loggedInUserName filename chunk (some data) =
      (Response.chunkDataResponse (cstr filename) chunk data).toIMResponse ac true := rfl

end EpollChat

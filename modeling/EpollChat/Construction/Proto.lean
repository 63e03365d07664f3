import EpollChat.Construction.Buffer
import Mathlib.Data.List.TakeWhile

/-!
# Messages (`proto/*.pb.c`, `lib/response.c`)

The wire format itself is the submodule `achelper`, which is not part of the repository: its
encoder and decoders are the fields of `Achelper`, over protobuf messages as lists of numbered
fields.  What the repository generates on top of it is modelled here: the parsers of the ten
requests, the encoders of the responses the server sends, and the wrappers of `response.c`.

A generated parser dereferences the field it looks up without a test.  A message that lacks the
field, or has it with the other wire type, has no defined parse, and the parsers return `none`.
-/

namespace EpollChat

/-! ## C strings -/

/-- The C string in a NUL-terminated block: the bytes before the first NUL. -/
def cstr (b : Bytes) : Bytes := b.takeWhile (· ≠ 0)

/-- The bytes of a string literal. -/
def text (s : String) : Bytes := s.toUTF8.data.toList

/-- `%u` and `%zu`. -/
def decimal (n : ℕ) : Bytes := (Nat.toDigits 10 n).map fun c => UInt8.ofNat c.toNat

@[simp] lemma cstr_cstr (b : Bytes) : cstr (cstr b) = cstr b := by
  simp [cstr, List.takeWhile_idem]

lemma nul_notMem_cstr (b : Bytes) : 0 ∉ cstr b := by
  intro hmem
  have hne := List.mem_takeWhile_imp hmem
  simp at hne

/-- A string ends at its NUL. -/
lemma cstr_append_nul (word rest : Bytes) : cstr (word ++ 0 :: rest) = cstr word := by
  rw [cstr, List.takeWhile_append]
  split
  · next hall =>
      have hword : word.takeWhile (fun b => b ≠ 0) = word :=
        List.IsPrefix.eq_of_length (List.takeWhile_prefix _) hall
      rw [cstr, hword]
      simp
  · rfl

/-! ## Protobuf messages and the missing submodule -/

/-- The value of a field: wire type 0 or wire type 2. -/
inductive FieldValue
  | varint (n : ℕ)
  | bytes (b : Bytes)
  deriving DecidableEq

/-- `ac_protobuf_field_t`. -/
structure ProtobufField where
  id : ℕ
  value : FieldValue
  deriving DecidableEq

/-- `ac_protobuf_message_t`: the list of its fields. -/
abbrev ProtobufMessage := List ProtobufField

/-- The functions of the submodule `achelper` the server calls. -/
structure Achelper where
  /-- `ac_encode_protobuf_msg`. -/
  encodeProtobufMsg : ProtobufMessage → Bytes
  /-- `ac_decode_protobuf_msg`. -/
  decodeProtobufMsg : Bytes → Option ProtobufMessage
  /-- `ac_decode_protobuf_msg_with_n_fields`: the message made of the first `n` fields and the
  number of bytes read, or `NULL`. -/
  decodeProtobufMsgWithNFields : Bytes → ℕ → Option (ProtobufMessage × ℕ)

/-- `ac_find_protobuf_field_in_msg`. -/
def findProtobufField (msg : ProtobufMessage) (id : ℕ) : Option FieldValue :=
  (msg.find? fun f => f.id = id).map (·.value)

/-- `*(uint32_t *)(f->value)` for the field with this number. -/
def uint32Field (msg : ProtobufMessage) (id : ℕ) : Option UInt32 :=
  match findProtobufField msg id with
  | some (.varint n) => some (UInt32.ofNat n)
  | _ => none

/-- `*(bool *)(f->value)` for the field with this number. -/
def boolField (msg : ProtobufMessage) (id : ℕ) : Option Bool :=
  match findProtobufField msg id with
  | some (.varint n) => some (n % 256 ≠ 0)
  | _ => none

/-- The bytes of the field with this number. -/
def bytesField (msg : ProtobufMessage) (id : ℕ) : Option Bytes :=
  match findProtobufField msg id with
  | some (.bytes b) => some b
  | _ => none

/-! ## Requests -/

structure IMRequest where
  type : UInt32
  value : Bytes

structure LoginRequest where
  username : Bytes
  password : Bytes
  port : UInt32
  deriving DecidableEq

structure MessageRequest where
  broadcast : Bool
  username : Bytes
  msg : Bytes
  deriving DecidableEq

structure WhoElseRequest where
  limitTime : Bool
  pastSeconds : UInt32
  currentlyOnline : Bool
  deriving DecidableEq

/-- `BlockRequest`, `UnBlockRequest` and `GetIPRequest` all have one field. -/
structure UsernameRequest where
  username : Bytes
  deriving DecidableEq

structure RegisterFileRequest where
  filename : Bytes
  chunks : UInt32
  deriving DecidableEq

/-- `RegisterChunkRequest` and `SearchFileRequest` have the same two fields. -/
structure ChunksRequest where
  filename : Bytes
  chunks : Bytes
  deriving DecidableEq

/-- A parsed request: the ten types of `enabled_commands`, and a type the table lacks. -/
inductive Request
  | login (req : LoginRequest)
  | message (req : MessageRequest)
  | whoelse (req : WhoElseRequest)
  | block (req : UsernameRequest)
  | unblock (req : UsernameRequest)
  | logout
  | getip (req : UsernameRequest)
  | regfile (req : RegisterFileRequest)
  | regchunk (req : ChunksRequest)
  | searchfile (req : ChunksRequest)
  | unknown (type : UInt32)
  deriving DecidableEq

def parseIMRequestFromProtobufMsg (msg : ProtobufMessage) : Option IMRequest := do
  let type ← uint32Field msg 1
  let value ← bytesField msg 2
  return { type, value }

def parseLoginRequestFromProtobufMsg (msg : ProtobufMessage) : Option LoginRequest := do
  let username ← bytesField msg 1
  let password ← bytesField msg 2
  let port ← uint32Field msg 3
  return { username, password, port }

def parseMessageRequestFromProtobufMsg (msg : ProtobufMessage) : Option MessageRequest := do
  let broadcast ← boolField msg 1
  let username ← bytesField msg 2
  let msg ← bytesField msg 3
  return { broadcast, username, msg }

def parseWhoElseRequestFromProtobufMsg (msg : ProtobufMessage) : Option WhoElseRequest := do
  let limitTime ← boolField msg 1
  let pastSeconds ← uint32Field msg 2
  let currentlyOnline ← boolField msg 3
  return { limitTime, pastSeconds, currentlyOnline }

/-- The parser of the three requests that hold a user name. -/
def parseUsernameRequest (msg : ProtobufMessage) : Option UsernameRequest := do
  let username ← bytesField msg 1
  return { username }

def parseBlockRequestFromProtobufMsg := parseUsernameRequest

def parseUnBlockRequestFromProtobufMsg := parseUsernameRequest

def parseGetIPRequestFromProtobufMsg := parseUsernameRequest

def parseRegisterFileRequestFromProtobufMsg (msg : ProtobufMessage) :
    Option RegisterFileRequest := do
  let filename ← bytesField msg 1
  let chunks ← uint32Field msg 2
  return { filename, chunks }

/-- The parser of the two requests that hold a file name and packed chunk numbers. -/
def parseChunksRequest (msg : ProtobufMessage) : Option ChunksRequest := do
  let filename ← bytesField msg 1
  let chunks ← bytesField msg 2
  return { filename, chunks }

def parseRegisterChunkRequestFromProtobufMsg := parseChunksRequest

def parseSearchFileRequestFromProtobufMsg := parseChunksRequest

/-- The parser `enabled_commands` has for a request type, on the value of an `IMRequest`. -/
def parseRequest (ac : Achelper) (imreq : IMRequest) : Option Request :=
  let msg := ac.decodeProtobufMsg imreq.value
  match imreq.type with
  | 1 => (msg.bind parseLoginRequestFromProtobufMsg).map .login
  | 2 => (msg.bind parseMessageRequestFromProtobufMsg).map .message
  | 4 => (msg.bind parseBlockRequestFromProtobufMsg).map .block
  | 5 => (msg.bind parseUnBlockRequestFromProtobufMsg).map .unblock
  | 6 => some .logout
  | 3 => (msg.bind parseWhoElseRequestFromProtobufMsg).map .whoelse
  | 7 => (msg.bind parseGetIPRequestFromProtobufMsg).map .getip
  | 8 => (msg.bind parseRegisterFileRequestFromProtobufMsg).map .regfile
  | 9 => (msg.bind parseRegisterChunkRequestFromProtobufMsg).map .regchunk
  | 10 => (msg.bind parseSearchFileRequestFromProtobufMsg).map .searchfile
  | type => some (.unknown type)

/-! ## Responses -/

structure IMResponse where
  type : UInt32
  success : Bool
  value : Bytes
  deriving DecidableEq

/-- `encodeTextResponseToBytes` and `encodeExitResponseToBytes`: both messages have one
field. -/
def encodeMsgFieldToBytes (ac : Achelper) (msg : Bytes) : Bytes :=
  ac.encodeProtobufMsg [⟨1, .bytes msg⟩]

/-- `encodeIMResponseToBytes`. -/
def encodeIMResponseToBytes (ac : Achelper) (rsp : IMResponse) : Bytes :=
  ac.encodeProtobufMsg
    [⟨1, .varint rsp.type.toNat⟩, ⟨2, .varint rsp.success.toNat⟩, ⟨3, .bytes rsp.value⟩]

/-- `encodeTextResponseToIMResponseAndFree`. -/
def encodeTextResponseToIMResponse (ac : Achelper) (msg : Bytes) (success : Bool) :
    IMResponse :=
  { type := 1, success, value := encodeMsgFieldToBytes ac msg }

/-- `encodeTextToIMResponse`. -/
def encodeTextToIMResponse (ac : Achelper) (txt : Bytes) (success : Bool) : IMResponse :=
  encodeTextResponseToIMResponse ac (cstr txt) success

/-- `encodeExitTextToIMResponse`. -/
def encodeExitTextToIMResponse (ac : Achelper) (txt : Bytes) (success : Bool) : IMResponse :=
  { type := 2, success, value := encodeMsgFieldToBytes ac (cstr txt) }

/-- The response `cmd_getip_impl` builds from `encodeGetIPResponseToBytes`. -/
def encodeGetIPResponse (ac : Achelper) (username addr : Bytes) : IMResponse :=
  { type := 3, success := true
    value := ac.encodeProtobufMsg [⟨1, .bytes username⟩, ⟨2, .bytes addr⟩] }

end EpollChat

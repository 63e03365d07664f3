import EpollChat.Construction.Receive
import EpollChat.Construction.Wire

/-!
# A small server

Two users, a few requests and an address: the material of the concrete runs that stand next to
the general results.
-/

namespace EpollChat

/-- A server with the users hans (0) and yoda (1). -/
def demo : Setup where
  blockDuration := 60
  loginTimeout := 300
  now := 1000
  credentials := [(text "hans", text "falcon"), (text "yoda", text "wise")]

/-- The address of a peer on the same host. -/
def demoAddr : SockAddr := ⟨[2, 0], [0, 0], [127, 0, 0, 1], [0, 0, 0, 0, 0, 0, 0, 0]⟩

/-- A login request. -/
def loginAs (username password : String) : Request :=
  .login ⟨text username, text password, 0⟩

/-- A chat message. -/
def messageTo (username msg : String) : Request := .message ⟨false, text username, text msg⟩

/-- Accept a connection at a descriptor and serve one read of these requests on it. -/
def acceptAndServe (fd : ℕ) (reqs : List Request) : List Event :=
  [.accept fd demoAddr, .readable fd] ++ reqs.map .request ++ [.readDone]

/-- The frame of `loginAs`. -/
def loginFrame (username password : String) : Bytes :=
  protobufWire.encodeProtobufMsg
    [⟨1, .varint 1⟩,
      ⟨2, .bytes (protobufWire.encodeProtobufMsg
        [⟨1, .bytes (text username)⟩, ⟨2, .bytes (text password)⟩, ⟨3, .varint 0⟩])⟩]

end EpollChat

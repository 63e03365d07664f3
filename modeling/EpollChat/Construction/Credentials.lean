import EpollChat.Construction.Server
import EpollChat.Construction.Storage
import EpollChat.Framework.Tokens

/-!
# The credentials file (`buildUserDb` of `lib/auth.c`)

`buildUserDb` reads the file with `fscanf(fd, "%s %s", username, password)` into two `char` arrays
that it never clears, until the result is `EOF`.  `fscanf` returns `EOF` only where the input ends
before the first word: with one word left it stores that word and returns 1.

What the arrays hold at the start is a parameter.  A word that does not fit into its array is
written past the end of it, and then there is no continuation.
-/

namespace EpollChat

/-- `USERNAME_LIMIT`. -/
def usernameLimit : ℕ := 1024

/-- `char[USERNAME_LIMIT]`. -/
def NameBuffer : Type := { b : Bytes // b.length = usernameLimit }

/-- The array as a C string. -/
def NameBuffer.str (buf : NameBuffer) : Bytes := cstr buf.1

/-- Store a word and the NUL after it at the front of the array. -/
def NameBuffer.store (buf : NameBuffer) (word : Bytes) : Option NameBuffer :=
  if h : word.length < usernameLimit then
    some ⟨word ++ 0 :: buf.1.drop (word.length + 1), by
      rw [List.length_append, List.length_cons, List.length_drop, buf.2]
      omega⟩
  else none

/-- `EOF`. -/
def eof : ℤ := -1

/-- What a call of `fscanf` returns, what it leaves in the two arrays, and the input it has not
read. -/
structure Scan where
  result : ℤ
  username : NameBuffer
  password : NameBuffer
  rest : Bytes

/-- `fscanf(fd, "%s %s", username, password)`. -/
def fscanfPair (input : Bytes) (username password : NameBuffer) : Option Scan :=
  let (name, rest) := nextToken isSpace input
  if name = [] then some { result := eof, username, password, rest }
  else do
    let username ← username.store name
    let (word, rest) := nextToken isSpace (rest.dropWhile isSpace)
    if word = [] then some { result := 1, username, password, rest }
    else do
      let password ← password.store word
      some { result := 2, username, password, rest }

section Cases

variable {input : Bytes} (username password : NameBuffer)

/-- Input without a word ends the call with `EOF`. -/
lemma fscanfPair_of_nil (h : (nextToken isSpace input).1 = []) :
    fscanfPair input username password =
      some ⟨eof, username, password, (nextToken isSpace input).2⟩ := by
  simp only [fscanfPair, h, if_pos]

/-- With one word left the second array keeps what it holds. -/
lemma fscanfPair_of_single (h : (nextToken isSpace input).1 ≠ [])
    (h' : (nextToken isSpace (nextToken isSpace input).2).1 = []) :
    fscanfPair input username password =
      (username.store (nextToken isSpace input).1).map fun username =>
        ⟨1, username, password, (nextToken isSpace (nextToken isSpace input).2).2⟩ := by
  simp only [fscanfPair, nextToken_dropWhile, h, h', if_pos, if_false]
  cases username.store (nextToken isSpace input).1 <;> rfl

/-- With two words or more, two are stored. -/
lemma fscanfPair_of_pair (h : (nextToken isSpace input).1 ≠ [])
    (h' : (nextToken isSpace (nextToken isSpace input).2).1 ≠ []) :
    fscanfPair input username password =
      (username.store (nextToken isSpace input).1).bind fun username =>
        (password.store (nextToken isSpace (nextToken isSpace input).2).1).map fun password =>
          ⟨2, username, password, (nextToken isSpace (nextToken isSpace input).2).2⟩ := by
  simp only [fscanfPair, nextToken_dropWhile, h, h', if_false]
  cases username.store (nextToken isSpace input).1 with
  | none => rfl
  | some _ => cases password.store (nextToken isSpace (nextToken isSpace input).2).1 <;> rfl

end Cases

/-- A call that does not return `EOF` has read a word. -/
lemma length_rest_fscanfPair {input : Bytes} {username password : NameBuffer} {scan : Scan}
    (h : fscanfPair input username password = some scan) (hres : scan.result ≠ eof) :
    scan.rest.length < input.length := by
  by_cases hname : (nextToken isSpace input).1 = []
  · rw [fscanfPair_of_nil username password hname] at h
    obtain rfl := Option.some.inj h
    exact absurd rfl hres
  have hlt := length_nextToken_lt hname
  by_cases hword : (nextToken isSpace (nextToken isSpace input).2).1 = []
  · rw [fscanfPair_of_single username password hname hword, Option.map_eq_some_iff] at h
    obtain ⟨_, -, rfl⟩ := h
    have hdrop := congrArg List.length (@nextToken_append _ isSpace (nextToken isSpace input).2)
    have hle := List.length_dropWhile_le isSpace (nextToken isSpace input).2
    rw [hword, List.nil_append] at hdrop
    dsimp only
    omega
  · rw [fscanfPair_of_pair username password hname hword, Option.bind_eq_some_iff] at h
    obtain ⟨_, -, h⟩ := h
    obtain ⟨_, -, rfl⟩ := Option.map_eq_some_iff.1 h
    exact (length_nextToken_lt hword).trans hlt

/-- The loop of `buildUserDb`. -/
def buildUserDbLoop (db : State) (input : Bytes) (username password : NameBuffer) :
    Option State :=
  match h : fscanfPair input username password with
  | none => none
  | some scan =>
      if hres : scan.result ≠ eof then
        have := length_rest_fscanfPair h hres
        buildUserDbLoop (addUser db scan.username.1 scan.password.1).1 scan.rest scan.username
          scan.password
      else some db
termination_by input.length

/-- `buildUserDb`. -/
def buildUserDb (fd : Bytes) (blockDuration loginTimeout now : ℤ)
    (username password : NameBuffer) : Option State :=
  buildUserDbLoop (State.blank blockDuration loginTimeout now) fd username password

end EpollChat

import EpollChat.Construction.Credentials
import Mathlib.Algebra.Group.Nat.Even

/-!
# Loading the credentials

The users the file lists are its words, two by two.  `buildUserDb` adds them in file order and, if
a name is left over, adds a user of that name too, with the password of the user before it or
whatever the array held at the start (`buildUserDbLoop_eq`).  So it loads what the file lists
exactly when the file has an even number of words.
-/

namespace EpollChat

/-- The pairs a list of words falls into; a last single word belongs to none. -/
def wordPairs : List Bytes → List (Bytes × Bytes)
  | name :: word :: rest => (name, word) :: wordPairs rest
  | _ => []

/-- The users a credentials file lists. -/
def listedUsers (fd : Bytes) : List (Bytes × Bytes) := wordPairs (tokens isSpace fd)

/-- **`buildUserDb` loads the file**: it adds the users the file lists, in file order, and no
other. -/
def LoadsCredentials (fd : Bytes) (blockDuration loginTimeout now : ℤ)
    (username password : NameBuffer) : Prop :=
  buildUserDb fd blockDuration loginTimeout now username password =
    some (Setup.init ⟨blockDuration, loginTimeout, now, listedUsers fd⟩)

/-! ## What is added -/

/-- The users `buildUserDb` adds for a list of words, with the password it has read last. -/
def addWords (db : State) (last : Bytes) : List Bytes → State
  | [] => db
  | [name] => (addUser db name last).1
  | name :: word :: rest => addWords (addUser db name word).1 word rest

/-- `addUser` reads its arguments as C strings. -/
lemma addUser_congr (s : State) {username username' password password' : Bytes}
    (hname : cstr username = cstr username') (hword : cstr password = cstr password') :
    addUser s username password = addUser s username' password' := by
  simp only [addUser, hname, hword]

/-- A word that fits is stored, and is then the string in the array. -/
lemma NameBuffer.store_of_lt {word : Bytes} (h : word.length < usernameLimit) (buf : NameBuffer) :
    ∃ buf', buf.store word = some buf' ∧ cstr buf'.1 = cstr word :=
  ⟨_, dif_pos h, cstr_append_nul word _⟩

/-- One round of the loop. -/
lemma buildUserDbLoop_of_scan (db : State) {input : Bytes} {username password : NameBuffer}
    {scan : Scan} (h : fscanfPair input username password = some scan) :
    buildUserDbLoop db input username password =
      if scan.result = eof then some db
      else buildUserDbLoop (addUser db scan.username.1 scan.password.1).1 scan.rest scan.username
        scan.password := by
  rw [buildUserDbLoop]
  split
  · next h' => simp [h] at h'
  · next scan' h' =>
      obtain rfl := Option.some.inj (h.symm.trans h')
      by_cases hres : scan.result = eof
      · rw [dif_neg (not_not.2 hres), if_pos hres]
      · rw [dif_pos hres, if_neg hres]

/-- The password carried over is read as a C string. -/
lemma addWords_congr (db : State) {last last' : Bytes} (h : cstr last = cstr last')
    (words : List Bytes) : addWords db last words = addWords db last' words := by
  match words with
  | [] => rfl
  | [name] => simp only [addWords, addUser_congr db rfl h]
  | name :: word :: rest => simp only [addWords]

/-- The loop adds the users of the words, where the words fit. -/
lemma buildUserDbLoop_eq (db : State) (input : Bytes) (username password : NameBuffer)
    (hfit : ∀ word ∈ tokens isSpace input, word.length < usernameLimit) :
    buildUserDbLoop db input username password =
      some (addWords db password.1 (tokens isSpace input)) := by
  induction hn : input.length using Nat.strong_induction_on
    generalizing db input username password with
  | _ n ih =>
    subst hn
    by_cases hname : (nextToken isSpace input).1 = []
    · rw [buildUserDbLoop_of_scan db (fscanfPair_of_nil username password hname), if_pos rfl,
        tokens_eq_nil hname, addWords]
    rw [tokens_eq_cons hname] at hfit ⊢
    obtain ⟨name', hstore, hstr⟩ := NameBuffer.store_of_lt (hfit _ List.mem_cons_self) username
    by_cases hword : (nextToken isSpace (nextToken isSpace input).2).1 = []
    · -- one word is left: a user is added, and the next call returns `EOF`
      have hscan := fscanfPair_of_single username password hname hword
      rw [hstore, Option.map_some] at hscan
      have hend : (nextToken isSpace (nextToken isSpace (nextToken isSpace input).2).2).1 = [] := by
        rw [nextToken_snd_eq_nil hword]
        rfl
      have hone : (1 : ℤ) ≠ eof := by decide
      rw [buildUserDbLoop_of_scan db hscan, if_neg hone,
        buildUserDbLoop_of_scan _ (fscanfPair_of_nil name' password hend), if_pos rfl,
        tokens_eq_nil hword, addWords, addUser_congr db hstr rfl]
    · rw [tokens_eq_cons hword] at hfit ⊢
      obtain ⟨word', hstore', hstr'⟩ :=
        NameBuffer.store_of_lt (hfit _ (List.mem_cons_of_mem _ List.mem_cons_self)) password
      have hscan := fscanfPair_of_pair username password hname hword
      rw [hstore, Option.bind_some, hstore', Option.map_some] at hscan
      have htwo : (2 : ℤ) ≠ eof := by decide
      have hlt := length_rest_fscanfPair hscan htwo
      rw [buildUserDbLoop_of_scan db hscan, if_neg htwo,
        ih _ hlt _ _ _ _ (fun word h => hfit word (by simp [h])) rfl, addWords,
        addUser_congr db hstr hstr', addWords_congr _ hstr']

/-! ## Even and odd files -/

/-- With an even number of words, each user gets the word after its name. -/
lemma addWords_of_even (db : State) (last : Bytes) {words : List Bytes} (h : Even words.length) :
    addWords db last words =
      (wordPairs words).foldl (fun s nw => (addUser s nw.1 nw.2).1) db := by
  match words with
  | [] => rfl
  | [name] => simp at h
  | name :: word :: rest =>
      have hrest : Even rest.length := by simpa [Nat.even_add_one] using h
      exact addWords_of_even _ word hrest

/-- With an odd number of words, one user more is added. -/
lemma nusers_addWords_of_odd (db : State) (last : Bytes) {words : List Bytes}
    (h : ¬ Even words.length) :
    (addWords db last words).nusers = db.nusers + (wordPairs words).length + 1 := by
  match words with
  | [] => simp at h
  | [name] => rfl
  | name :: word :: rest =>
      have hrest : ¬ Even rest.length := by simpa [Nat.even_add_one] using h
      rw [addWords, nusers_addWords_of_odd _ word hrest, wordPairs, List.length_cons]
      show db.nusers + 1 + (wordPairs rest).length + 1 = _
      omega

lemma nusers_foldl_addUser (db : State) (users : List (Bytes × Bytes)) :
    (users.foldl (fun s nw => (addUser s nw.1 nw.2).1) db).nusers = db.nusers + users.length := by
  induction users generalizing db with
  | nil => rfl
  | cons nw users ih =>
      rw [List.foldl_cons, ih, List.length_cons]
      show db.nusers + 1 + users.length = _
      omega

/-- **Loading the credentials.** Of a file whose words fit into the arrays, `buildUserDb` loads
what the file lists exactly when the number of words is even. -/
theorem loadsCredentials_iff {fd : Bytes}
    (hfit : ∀ word ∈ tokens isSpace fd, word.length < usernameLimit)
    (blockDuration loginTimeout now : ℤ) (username password : NameBuffer) :
    LoadsCredentials fd blockDuration loginTimeout now username password ↔
      Even (tokens isSpace fd).length := by
  have hbuild : buildUserDb fd blockDuration loginTimeout now username password =
      some (addWords (State.blank blockDuration loginTimeout now) password.1
        (tokens isSpace fd)) :=
    buildUserDbLoop_eq _ fd username password hfit
  rw [LoadsCredentials, hbuild]
  constructor
  · intro heq
    by_contra hodd
    have hnusers := congrArg State.nusers (Option.some.inj heq)
    rw [nusers_addWords_of_odd _ _ hodd] at hnusers
    simp only [Setup.init, nusers_foldl_addUser, listedUsers] at hnusers
    omega
  · intro heven
    rw [addWords_of_even _ _ heven]
    rfl

/-- An array that has not been written yet. -/
def blankBuffer : NameBuffer := ⟨List.replicate usernameLimit 0, List.length_replicate⟩

/-- A file with one user. -/
theorem loadsCredentials_hans :
    LoadsCredentials (text "hans falcon42\n") 60 120 0 blankBuffer blankBuffer :=
  (loadsCredentials_iff (by decide) 60 120 0 blankBuffer blankBuffer).2 (by decide)

/-- The name `vader` without a password is given the password `falcon42` of the user before
it. -/
theorem not_loadsCredentials_vader :
    ¬ ∀ (fd : Bytes) (blockDuration loginTimeout now : ℤ) (username password : NameBuffer),
      (∀ word ∈ tokens isSpace fd, word.length < usernameLimit) →
      LoadsCredentials fd blockDuration loginTimeout now username password := by
  intro h
  have hfit : ∀ word ∈ tokens isSpace (text "hans falcon42\nvader\n"),
      word.length < usernameLimit := by decide
  have hload := h (text "hans falcon42\nvader\n") 60 120 0 blankBuffer blankBuffer hfit
  rw [LoadsCredentials, buildUserDb, buildUserDbLoop_eq _ _ _ _ hfit] at hload
  have hnusers := congrArg State.nusers (Option.some.inj hload)
  revert hnusers
  decide

end EpollChat

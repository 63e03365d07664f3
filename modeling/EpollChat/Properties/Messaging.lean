import EpollChat.Framework.Messenger
import EpollChat.Properties.Activity
import EpollChat.Properties.BlockLists
import EpollChat.Properties.Completion
import EpollChat.Properties.Confidentiality
import EpollChat.Properties.UserStore

/-!
# The server is a messenger

`Framework/Messenger.lean` says what the server is for: users come and go, say things to each
other and block each other.  Here every event of the server is a list of such deeds
(`eventDeeds`), and every run of the server is a run of the messenger (`server_is_messenger`).  A
user is present who has a session, and online who has one that has not expired; and the frames
that the server has queued for a user are the letters in the user's mail, one for one and in
order, whatever connections, buffers and descriptors they went through.

So what holds of a messenger holds of the server.  `chat_authentic` is the origin of letters: a chat
message in anybody's queue was asked for by the sender, on a connection of a live session of the
sender, when the recipient had not blocked the sender.
-/

namespace EpollChat

variable (ac : Achelper)

/-! ## The mail of a user -/

/-- What was queued for a user, in order. -/
def letters (v : UserId) (ms : List (Move Queue ConnId Why UInt8)) : List (Why × Bytes) :=
  ms.filterMap fun
    | .put _ why f => if why.recipient = some v then some (why, f) else none
    | .take .. => none

/-- What was queued for a user in a run. -/
def State.letters (s : State) (v : UserId) : List (Why × Bytes) := EpollChat.letters v (moves s.log)

lemma mem_letters {s : State} {v : UserId} {why : Why} {f : Bytes} :
    (why, f) ∈ s.letters v ↔ why.recipient = some v ∧ ∃ q, .put q why f ∈ moves s.log := by
  unfold State.letters EpollChat.letters
  rw [List.mem_filterMap]
  constructor
  · rintro ⟨m, hm, heq⟩
    rcases m with ⟨q, why', f'⟩ | _
    · dsimp only at heq
      split at heq
      · cases heq
        exact ⟨‹_›, q, hm⟩
      · cases heq
    · cases heq
  · rintro ⟨hv, q, hput⟩
    exact ⟨_, hput, by simp [hv]⟩

/-- A letter, as it is queued for `v`. -/
def Letter.queued (s : State) (v : UserId) : Letter UserId Bytes → Why × Bytes
  | .said u msg =>
      (.chat v u, encodeIMResponseToBytes ac (encodeTextResponseToIMResponse ac
        ((s.users u).username ++ text ": " ++ msg) true))
  | .came u =>
      (.loggedIn v u, encodeIMResponseToBytes ac (encodeTextResponseToIMResponse ac
        ((s.users u).username ++ text " has logged in") true))
  | .went u =>
      (.loggedOut v u, encodeIMResponseToBytes ac (encodeTextResponseToIMResponse ac
        ((s.users u).username ++ text " has logged out") true))

/-- What a delivery queues for a user. -/
def Delivery.letter (v : UserId) (d : Delivery) : Option (Why × Bytes) :=
  if d.why.recipient = some v then some (d.why, d.frame ac) else none

variable {ac}

lemma letters_of_log {s t : State} (h : moves t.log = moves s.log) (v : UserId) :
    t.letters v = s.letters v := congrArg (letters v) h

lemma letters_deliver (s : State) (d : Delivery) (v : UserId) :
    (deliver ac s d).letters v = s.letters v ++ (d.letter ac v).toList := by
  unfold State.letters
  rw [log_deliver, moves_append, moves_move, letters, List.filterMap_append]
  unfold Delivery.letter
  by_cases hv : d.why.recipient = some v <;> simp [letters, hv]

lemma letters_deliverAll (s : State) (ds : List Delivery) (v : UserId) :
    (deliverAll ac s ds).letters v = s.letters v ++ ds.filterMap (Delivery.letter ac v) := by
  induction ds generalizing s with
  | nil => simp
  | cons d ds ih =>
      rw [deliverAll_cons, ih, letters_deliver, List.append_assoc, List.filterMap_cons]
      rcases d.letter ac v with _ | x <;> simp

/-- One delivery for each of some users, among which none is twice. -/
lemma letters_filter {l : List UserId} (hnodup : l.Nodup) {p : UserId → Bool}
    {d : UserId → Delivery} (hd : ∀ v, (d v).why.recipient = some v) (v : UserId) :
    ((l.filter p).map d).filterMap (Delivery.letter ac v) =
      if v ∈ l ∧ p v = true then [((d v).why, (d v).frame ac)] else [] := by
  have hletter : ∀ w, (d w).letter ac v =
      if w = v then some ((d v).why, (d v).frame ac) else none := fun w => by
    unfold Delivery.letter
    by_cases hw : w = v
    · simp [hw, hd]
    · simp [hw, hd]
  induction l with
  | nil => simp
  | cons w l ih =>
      obtain ⟨hw, hnodup⟩ := List.nodup_cons.mp hnodup
      by_cases hp : p w = true
      · rw [List.filter_cons_of_pos hp, List.map_cons, List.filterMap_cons, hletter, ih hnodup]
        by_cases hwv : w = v
        · subst hwv
          simp [hw, hp]
        · simp [hwv, Ne.symm hwv]
      · rw [List.filter_cons_of_neg hp, ih hnodup]
        by_cases hwv : w = v
        · subst hwv
          simp [hp]
        · simp [Ne.symm hwv]

/-! ## What of the state is the messenger -/

/-- What the messenger depends on, besides the history. -/
structure View where
  isServer : Bool
  first : List UserId
  root : Trie UInt8 (Option UserId)
  loginTimeout : ℤ
  now : ℤ
  username : UserId → Bytes
  client : UserId → Option ConnId
  lastActive : UserId → ℤ
  blocked : UserId → List UserId

def State.view (s : State) : View where
  isServer := s.isServer
  first := s.first
  root := s.root
  loginTimeout := s.loginTimeout
  now := s.now
  username u := (s.users u).username
  client u := (s.users u).client
  lastActive u := (s.users u).lastActive
  blocked u := (s.users u).blocked

lemma view_of_core {s t : State} (h : t.core = s.core) : t.view = s.view := by
  have hview := congrArg State.view h
  exact hview

/-- The state shows the messenger. -/
structure Shows (ac : Achelper) (s : State) (m : Messenger UserId Bytes) : Prop where
  present : ∀ u, u ∈ m.present ↔ (s.users u).client ≠ none
  online : ∀ u, u ∈ m.online ↔ isUserLoggedIn s (some u) = true
  blocks : ∀ u v, v ∈ m.blocks u ↔ hasBlockedUser s u v = true
  mail : ∀ v, s.letters v = (m.mail v).map (Letter.queued ac s v)

/-- The facts about the user records that the deeds rely on, with the users' names. -/
structure Kept (names : UserId → Bytes) (s : State) : Prop where
  username : ∀ u, (s.users u).username = names u
  server : s.isServer = true
  timeout : 0 < s.loginTimeout
  lists : BlockListsOk s
  once : s.first.Nodup
  named : ∀ name u, findUser s name = some u → (s.users u).username = cstr name
  found : ∀ name u, findUser s name = some u → u ∈ s.first
  known : ∀ u c, (s.users u).client = some c → u ∈ s.first

variable {names : UserId → Bytes}

/-- What no session and no clock changes. -/
def View.static (v : View) : View :=
  { v with now := 0, client := fun _ => none, lastActive := fun _ => 0 }

section Static

variable {s t : State} (h : t.view.static = s.view.static)
include h

lemma username_of_static (u : UserId) : (t.users u).username = (s.users u).username :=
  congrArg (fun v => v.username u) h

lemma blocked_of_static (u : UserId) : (t.users u).blocked = (s.users u).blocked :=
  congrArg (fun v => v.blocked u) h

lemma findUser_of_static (name : Bytes) : findUser t name = findUser s name :=
  congrArg (fun v => (v.root.find (cstr name)).join) h

lemma first_of_static : t.first = s.first := congrArg View.first h

lemma hasBlockedUser_of_static (u v : UserId) : hasBlockedUser t u v = hasBlockedUser s u v :=
  congrArg (fun w => (w.blocked u).contains v) h

lemma queued_of_static (v : UserId) : Letter.queued ac t v = Letter.queued ac s v := by
  funext l
  rcases l with ⟨u, msg⟩ | ⟨u⟩ | ⟨u⟩ <;> simp only [Letter.queued, username_of_static h]

lemma Kept.of_static (hk : Kept names s) (hknown : ∀ u c, (t.users u).client = some c → u ∈ s.first) :
    Kept names t where
  username u := (username_of_static h u).trans (hk.username u)
  server := (congrArg View.isServer h).trans hk.server
  timeout := lt_of_lt_of_eq hk.timeout (congrArg View.loginTimeout h).symm
  lists := ⟨fun v => by rw [blocked_of_static h]; exact hk.lists.nodup v,
    fun v => by rw [blocked_of_static h]; exact hk.lists.not_self v⟩
  once := by rw [first_of_static h]; exact hk.once
  named name u hu := by
    rw [username_of_static h]
    exact hk.named name u (findUser_of_static h name ▸ hu)
  found name u hu := by
    rw [first_of_static h]
    exact hk.found name u (findUser_of_static h name ▸ hu)
  known u c hc := by
    rw [first_of_static h]
    exact hknown u c hc

/-- Sessions and the clock change. -/
lemma Shows.of_static {m m' : Messenger UserId Bytes} (hs : Shows ac s m)
    (hpresent : ∀ u, u ∈ m'.present ↔ (t.users u).client ≠ none)
    (honline : ∀ u, u ∈ m'.online ↔ isUserLoggedIn t (some u) = true)
    (hblocks : m'.blocks = m.blocks)
    (hmail : ∀ v, t.letters v = s.letters v ∧ m'.mail v = m.mail v ∨
      ∃ l, t.letters v = s.letters v ++ [l.queued ac s v] ∧ m'.mail v = m.mail v ++ [l]) :
    Shows ac t m' where
  present := hpresent
  online := honline
  blocks u v := by rw [hasBlockedUser_of_static h, hblocks, hs.blocks]
  mail v := by
    rw [queued_of_static h]
    rcases hmail v with ⟨hletters, hmail⟩ | ⟨l, hletters, hmail⟩ <;> rw [hletters, hmail, hs.mail]
    simp

end Static

section View

variable {s t : State} (h : t.view = s.view)
include h

lemma client_of_view (u : UserId) : (t.users u).client = (s.users u).client :=
  congrArg (fun v => v.client u) h

lemma isUserLoggedIn_of_view (u : UserId) :
    isUserLoggedIn t (some u) = isUserLoggedIn s (some u) := by
  have hclient := client_of_view h u
  have hactive : (t.users u).lastActive = (s.users u).lastActive :=
    congrArg (fun v => v.lastActive u) h
  have htimeout : t.loginTimeout = s.loginTimeout := congrArg View.loginTimeout h
  have hnow : t.now = s.now := congrArg View.now h
  unfold isUserLoggedIn
  simp only [hclient, hactive, htimeout, hnow]

lemma Kept.of_view (hk : Kept names s) : Kept names t :=
  hk.of_static (congrArg View.static h) fun u c hc => hk.known u c (client_of_view h u ▸ hc)

/-- A letter is queued for every user in the audience, and none for the others. -/
lemma Shows.post {m : Messenger UserId Bytes} (hs : Shows ac s m) {audience : Set UserId}
    {l : Letter UserId Bytes}
    (hin : ∀ v ∈ audience, t.letters v = s.letters v ++ [l.queued ac s v])
    (hout : ∀ v, v ∉ audience → t.letters v = s.letters v) : Shows ac t (m.post audience l) := by
  refine hs.of_static (congrArg View.static h) (fun u => ?_) (fun u => ?_) rfl fun v => ?_
  · rw [client_of_view h]
    exact hs.present u
  · rw [isUserLoggedIn_of_view h]
    exact hs.online u
  · unfold Messenger.post
    by_cases hv : v ∈ audience
    · exact .inr ⟨l, hin v hv, by simp [hv]⟩
    · exact .inl ⟨hout v hv, by simp [hv]⟩

/-- Nothing is queued for a user. -/
lemma Shows.of_view {m : Messenger UserId Bytes} (hs : Shows ac s m)
    (hletters : ∀ v, t.letters v = s.letters v) : Shows ac t m :=
  hs.of_static (congrArg View.static h) (fun u => by rw [client_of_view h, hs.present])
    (fun u => by rw [isUserLoggedIn_of_view h, hs.online]) rfl fun v => .inl ⟨hletters v, rfl⟩

end View

/-- The same letter to some of the users. -/
lemma Shows.deliverAll {s : State} (hk : Kept names s) {m : Messenger UserId Bytes} (hs : Shows ac s m)
    {audience : Set UserId} {l : Letter UserId Bytes} {p : UserId → Bool} {d : UserId → Delivery}
    (hd : ∀ v, (d v).why.recipient = some v)
    (hqueued : ∀ v, ((d v).why, (d v).frame ac) = l.queued ac s v)
    (haudience : ∀ v, v ∈ audience ↔ v ∈ s.first ∧ p v = true) :
    Shows ac (deliverAll ac s ((s.first.filter p).map d)) (m.post audience l) := by
  refine hs.post (view_of_core (core_deliverAll ac s _)) (fun v hv => ?_) fun v hv => ?_ <;>
    rw [letters_deliverAll, letters_filter hk.once hd]
  · rw [if_pos ((haudience v).mp hv), hqueued]
  · rw [if_neg fun h => hv ((haudience v).mpr h), List.append_nil]

variable (ac) in
/-- These deeds lead from `s` to `t`. -/
def Does (names : UserId → Bytes) (s : State) (ds : List (Deed UserId Bytes)) (t : State) : Prop :=
  ∀ m, Kept names s → Shows ac s m →
    ∃ m', Run Messenger.step Always m ds m' ∧ Kept names t ∧ Shows ac t m'

namespace Does

variable {s t t' : State} {ds ds' : List (Deed UserId Bytes)}

lemma trans (h : Does ac names s ds t) (h' : Does ac names t ds' t') : Does ac names s (ds ++ ds') t' := by
  intro m hk hs
  obtain ⟨m', run, hk', hs'⟩ := h m hk hs
  obtain ⟨m'', run', hk'', hs''⟩ := h' m' hk' hs'
  exact ⟨m'', run.append run', hk'', hs''⟩

/-- Nothing is done that the messenger knows of. -/
lemma silent (hview : t.view = s.view) (hmoves : moves t.log = moves s.log) : Does ac names s [] t :=
  fun m hk hs => ⟨m, .nil, hk.of_view hview, hs.of_view hview (letters_of_log hmoves)⟩

lemma refl (s : State) : Does ac names s [] s := silent rfl rfl

/-- Bytes are taken from a queue. -/
lemma takes (hview : t.view = s.view) (hletters : ∀ v, t.letters v = s.letters v) :
    Does ac names s [] t := fun m hk hs => ⟨m, .nil, hk.of_view hview, hs.of_view hview hletters⟩

lemma single {d : Deed UserId Bytes} (hkept : Kept names s → Kept names t)
    (h : ∀ m, Kept names s → Shows ac s m → m.Allowed d ∧ Shows ac t (m.after d)) : Does ac names s [d] t := by
  intro m hk hs
  obtain ⟨hallowed, hs'⟩ := h m hk hs
  exact ⟨m.after d, .single trivial (Messenger.step_of_allowed hallowed), hkept hk, hs'⟩

/-- What is queued for nobody in particular. -/
lemma deliver (s : State) {d : Delivery} (hd : d.why.recipient = none) :
    Does ac names s [] (deliver ac s d) := by
  have hview : (EpollChat.deliver ac s d).view = s.view := view_of_core (core_deliver ac s d)
  refine fun m hk hs => ⟨m, .nil, hk.of_view hview, hs.of_view hview fun v => ?_⟩
  rw [letters_deliver, Delivery.letter, hd, if_neg (by simp)]
  simp

end Does

/-! ## Coming and going -/

/-- The audience of the announcements is the circle of their subject. -/
lemma mem_circle {s : State} (hk : Kept names s) {m : Messenger UserId Bytes} (hs : Shows ac s m)
    {u v : UserId} :
    v ∈ m.circle u ↔ v ∈ s.first ∧
      decide (v ≠ u ∧ isUserLoggedIn s (some v) = true ∧ ¬ hasBlockedUser s u v = true) = true := by
  rw [decide_eq_true_iff]
  show v ∈ m.online ∧ v ≠ u ∧ v ∉ m.blocks u ↔ _
  rw [hs.online, hs.blocks]
  constructor
  · rintro ⟨hlive, hne, hblocks⟩
    obtain ⟨⟨c, hc⟩, -⟩ := isUserLoggedIn_eq_true.mp hlive
    exact ⟨hk.known v c hc, hne, hlive, hblocks⟩
  · rintro ⟨-, hne, hlive, hblocks⟩
    exact ⟨hlive, hne, hblocks⟩

/-- The deeds of `logoutUser`. -/
def logoutDeeds (s : State) : Option UserId → List (Deed UserId Bytes)
  | none => []
  | some u => if (s.users u).client = none then [] else [.go u]

lemma static_unlink (s : State) (u : UserId) (c : ConnId) :
    (unlink s u c).view.static = s.view.static := by
  unfold unlink State.view View.static State.setConn State.setUser State.emit
  simp only [View.mk.injEq, true_and]
  constructor <;> funext v <;> by_cases hv : v = u <;> simp [hv]

lemma kept_unlink {s : State} (hk : Kept names s) (u : UserId) (c : ConnId) : Kept names (unlink s u c) := by
  refine hk.of_static (static_unlink s u c) fun v d hd => ?_
  rw [client_unlink] at hd
  split at hd
  · cases hd
  · exact hk.known v d hd

lemma shows_unlink {s : State} {m : Messenger UserId Bytes} (hs : Shows ac s m) (u : UserId)
    (c : ConnId) : Shows ac (unlink s u c) (m.remove u) := by
  refine hs.of_static (static_unlink s u c) (fun v => ?_) (fun v => ?_) rfl fun v => .inl ⟨?_, rfl⟩
  · show v ∈ m.present \ {u} ↔ _
    rw [client_unlink, Set.mem_sdiff, hs.present]
    by_cases hv : v = u <;> simp [hv]
  · show v ∈ m.online \ {u} ↔ _
    rw [Set.mem_sdiff, hs.online]
    by_cases hv : v = u
    · subst hv
      have hnone : ((unlink s v c).users v).client = none := by rw [client_unlink, if_pos rfl]
      simp [isUserLoggedIn, hnone]
    · rw [isUserLoggedIn_unlink hv]
      simp [hv]
  · exact letters_of_log (by simp [unlink, State.emit, State.setUser, State.setConn, moves]) v

/-- Ending the session of a user who has one. -/
lemma Does.logoutUser (s : State) (o : Option UserId) :
    Does ac names s (logoutDeeds s o) (logoutUser ac s o) := by
  rcases o with _ | u
  · exact .refl s
  dsimp only [logoutDeeds]
  rcases hc : (s.users u).client with _ | c
  · rw [logoutUser_of_none ac hc]
    exact .refl s
  rw [if_neg (by simp)]
  have htouch : (s.touch c).view = s.view := view_of_core (State.core_touch s c)
  refine .single (fun hk => ?_) fun m hk hs => ?_
  · rw [logoutUser_of_client ac hk.server hc]
    exact (kept_unlink (hk.of_view htouch) u c).of_view (view_of_core (core_deliverAll ac _ _))
  · refine ⟨(hs.present u).mpr (by simp [hc]), ?_⟩
    rw [logoutUser_of_client ac hk.server hc]
    have hk' := kept_unlink (hk.of_view htouch) u c
    have hs' : Shows ac (unlink (s.touch c) u c) (m.remove u) :=
      shows_unlink (hs.of_view htouch (letters_of_log (by simp))) u c
    have hcircle : ∀ v, v ∈ m.circle u ↔ v ∈ (m.remove u).circle u := fun v =>
      ⟨fun ⟨honline, hne, hblocks⟩ => ⟨⟨honline, hne⟩, hne, hblocks⟩,
        fun ⟨⟨honline, _⟩, hne, hblocks⟩ => ⟨honline, hne, hblocks⟩⟩
    exact hs'.deliverAll hk' (fun _ => rfl) (fun _ => rfl) fun v =>
      (hcircle v).trans (mem_circle hk' hs')

lemma logoutDeeds_of_view {s t : State} (h : t.view = s.view) (o : Option UserId) :
    logoutDeeds t o = logoutDeeds s o := by
  rcases o with _ | u
  · rfl
  · simp only [logoutDeeds, client_of_view h]

/-- Closing a connection ends the session of its user. -/
lemma Does.closeSocket (s : State) (c : ConnId) :
    Does ac names s (logoutDeeds s (s.conn c).user) (closeSocket ac s c) := by
  have hview : ((s.touch c).lock c).view = s.view := view_of_core (by simp)
  have hlocked : Does ac names s [] ((s.touch c).lock c) := .silent hview (by simp)
  have hconn : ((s.touch c).lock c).conn = s.conn := by simp
  have hlogout : Does ac names ((s.touch c).lock c)
      (logoutDeeds ((s.touch c).lock c) (s.conn c).user)
      (EpollChat.logoutUser ac ((s.touch c).lock c) (s.conn c).user) := .logoutUser _ _
  rw [logoutDeeds_of_view hview] at hlogout
  have hclosed : ∀ t : State, ∀ fd, Does ac names t []
      (State.unlock { t with
        epoll := Function.update t.epoll fd none
        sock := Function.update t.sock fd none } c) := fun t fd => .silent rfl rfl
  have hall := (hlocked.trans hlogout).trans (hclosed _ (s.conn c).fd)
  rw [List.nil_append, List.append_nil] at hall
  unfold EpollChat.closeSocket
  simp only [hconn, fd_logoutUser]
  exact hall

variable (ac) in
/-- The deeds of `time_thread`'s loop: the sessions that it finds expired. -/
def sweepDeeds : State → List ConnId → List (Deed UserId Bytes)
  | _, [] => []
  | s, c :: cs =>
      (if (s.conn c).user ≠ none ∧ ¬ isUserLoggedIn s (s.conn c).user then
        logoutDeeds s (s.conn c).user
      else []) ++ sweepDeeds (sweepClient ac s c) cs

lemma Does.timeThread (s : State) : Does ac names s (sweepDeeds ac s s.clients) (timeThread ac s) := by
  unfold EpollChat.timeThread
  generalize s.clients = l
  induction l generalizing s with
  | nil => exact .refl s
  | cons c l ih =>
      refine Does.trans ?_ (ih _)
      unfold sweepClient
      split
      · rw [sendResponseToClient_eq]
        have hlogout : Does ac names s (logoutDeeds s (s.conn c).user)
            (EpollChat.logoutUser ac s (s.conn c).user) := .logoutUser _ _
        have hall := hlogout.trans (.deliver _ (d := ⟨.out c, .logOff, logOffResponse ac⟩) rfl)
        rwa [List.append_nil] at hall
      · exact .refl s

/-- A request of a live user keeps the session alive. -/
lemma Does.updateLastActive (s : State) (c : ConnId) : Does ac names s [] (updateLastActive s c) := by
  rcases updateLastActive_eq s c with heq | ⟨u, -, hlive, heq⟩ <;> rw [heq]
  · exact .refl s
  have hstatic : (s.setUser u fun v => { v with lastActive := s.now }).view.static =
      s.view.static := by
    unfold State.view View.static State.setUser
    simp only [View.mk.injEq, true_and]
    constructor <;> funext v <;> by_cases hv : v = u <;> simp [hv]
  have hclient := State.client_setUser s u (f := fun v => { v with lastActive := s.now })
    fun _ => rfl
  refine fun m hk hs => ⟨m, .nil, ?_, ?_⟩
  · exact hk.of_static hstatic fun v d hd => hk.known v d (hclient v ▸ hd)
  · refine hs.of_static hstatic (fun v => ?_) (fun v => ?_) rfl fun v => .inl ⟨rfl, rfl⟩
    · rw [hclient, hs.present]
    · rw [hs.online, isUserLoggedIn_eq_true, isUserLoggedIn_eq_true, hclient]
      by_cases hv : v = u
      · subst hv
        have htimeout := hk.timeout
        simp [State.setUser, (isUserLoggedIn_eq_true.mp hlive).1, (isUserLoggedIn_eq_true.mp hlive).2]
        exact htimeout
      · simp [State.setUser, hv]

/-- Sessions expire. -/
lemma Does.tick (s : State) (seconds : ℕ) :
    Does ac names s [.doze {u | isUserLoggedIn { s with now := s.now + seconds } (some u) = true}]
      { s with now := s.now + seconds } := by
  have hstatic : (State.view { s with now := s.now + seconds }).static = s.view.static := rfl
  refine .single (fun hk => hk.of_static hstatic hk.known) fun m hk hs => ⟨trivial, ?_⟩
  refine hs.of_static hstatic hs.present (fun v => ?_) rfl fun v => .inl ⟨rfl, rfl⟩
  show v ∈ m.online ∧ isUserLoggedIn { s with now := s.now + seconds } (some v) = true ↔ _
  rw [hs.online, and_iff_right_iff_imp, isUserLoggedIn_eq_true, isUserLoggedIn_eq_true]
  rintro ⟨hc, hlive⟩
  exact ⟨hc, by simp only at hlive; omega⟩

lemma view_link (s : State) (c : ConnId) (u : UserId) (r : LoginRequest) :
    (link s c u r).view =
      { s.view with client := Function.update s.view.client u (some c) } := by
  unfold link State.view State.setConn State.setUser State.emit
  simp only [View.mk.injEq, true_and]
  refine ⟨?_, ?_, ?_, ?_⟩ <;> funext v <;> by_cases hv : v = u <;> simp [hv]

lemma view_refresh (s : State) (u : UserId) :
    (refresh s u).view =
      { s.view with lastActive := Function.update s.view.lastActive u s.now } := by
  unfold refresh State.view State.setUser
  simp only [View.mk.injEq, true_and]
  refine ⟨?_, ?_, ?_, ?_⟩ <;> funext v <;> by_cases hv : v = u <;> simp [hv]

/-- The announcements of a login go to those who are online before it. -/
lemma loginAnnouncements_eq (s : State) (u : UserId) (name : Bytes) :
    loginAnnouncements ac (refresh s u) u name =
      (s.first.filter fun v =>
        decide (v ≠ u ∧ isUserLoggedIn s (some v) = true ∧ ¬ hasBlockedUser s u v = true)).map
        fun v => ⟨sendTarget (refresh s u) v, .loggedIn v u,
          encodeTextResponseToIMResponse ac (cstr name ++ text " has logged in") true⟩ := by
  have hfirst : (refresh s u).first = s.first := rfl
  have hblocks : ∀ v, hasBlockedUser (refresh s u) u v = hasBlockedUser s u v := fun v =>
    hasBlockedUser_of_static (by rw [view_refresh]; rfl) u v
  have hlive : ∀ v, v ≠ u → isUserLoggedIn (refresh s u) (some v) = isUserLoggedIn s (some v) :=
    fun v hv => by simp [refresh, isUserLoggedIn, State.setUser, hv]
  unfold loginAnnouncements announcements
  rw [hfirst]
  congr 1
  refine List.filter_congr fun v _ => ?_
  by_cases hv : v = u
  · simp [hv]
  · rw [hlive v hv, hblocks]

/-- What a login that is accepted changes, as far as the messenger depends on it. -/
lemma view_login {s : State} {c : ConnId} {r : LoginRequest} {u : UserId}
    (haccepted : acceptedUser s r.username r.password = some u) :
    (cmdLoginImpl ac s c r).1.view = { s.view with
      client := Function.update s.view.client u (some c)
      lastActive := Function.update s.view.lastActive u s.now } := by
  rw [cmdLoginImpl_of_accepted ac haccepted, view_link, view_of_core (core_deliverAll ac _ _),
    view_refresh]

/-- Those who are online, and not blocked by the user, are told of a login. -/
lemma letters_login {s : State} (hk : Kept names s) {c : ConnId} {r : LoginRequest} {u : UserId}
    (haccepted : acceptedUser s r.username r.password = some u) (v : UserId) :
    (cmdLoginImpl ac s c r).1.letters v = s.letters v ++
      if v ∈ s.first ∧ decide (v ≠ u ∧ isUserLoggedIn s (some v) = true ∧
        ¬ hasBlockedUser s u v = true) = true then [(Letter.came u).queued ac s v] else [] := by
  obtain ⟨hfound, -⟩ := acceptedUser_eq_some.mp haccepted
  have hlink : ∀ t : State, (link t c u r).letters v = t.letters v := fun t =>
    letters_of_log (by simp [link, State.emit, State.setUser, State.setConn, moves]) v
  rw [cmdLoginImpl_of_accepted ac haccepted, hlink, letters_deliverAll, loginAnnouncements_eq,
    letters_filter hk.once fun _ => rfl]
  simp only [Letter.queued, hk.named _ _ hfound]
  rfl

/-- A login that is accepted. -/
lemma Does.login {s : State} {c : ConnId} {r : LoginRequest} {u : UserId}
    (haccepted : acceptedUser s r.username r.password = some u) :
    Does ac names s [.come u] (cmdLoginImpl ac s c r).1 := by
  obtain ⟨hfound, -, -, hidle⟩ := acceptedUser_eq_some.mp haccepted
  have hview : (cmdLoginImpl ac s c r).1.view = _ := view_login haccepted
  have hletters := fun (hk : Kept names s) v => @letters_login ac names s hk c r u haccepted v
  generalize (cmdLoginImpl ac s c r).1 = t at hview hletters ⊢
  have hstatic : t.view.static = s.view.static := by
    rw [hview]
    rfl
  have hclient : ∀ v, (t.users v).client = if v = u then some c else (s.users v).client := by
    intro v
    have hv := congrArg (fun w => w.client v) hview
    exact hv.trans (Function.update_apply _ _ _ _)
  have hactive : ∀ v, (t.users v).lastActive = if v = u then s.now else (s.users v).lastActive := by
    intro v
    have hv := congrArg (fun w => w.lastActive v) hview
    exact hv.trans (Function.update_apply _ _ _ _)
  have htimeout : t.loginTimeout = s.loginTimeout := congrArg View.loginTimeout hview
  have hnow : t.now = s.now := congrArg View.now hview
  refine .single (fun hk => hk.of_static hstatic fun v d hd => ?_) fun m hk hs => ⟨?_, ?_⟩
  · rw [hclient] at hd
    split at hd
    · next hv => exact hv ▸ hk.found _ _ hfound
    · exact hk.known v d hd
  · show u ∉ m.online
    rw [hs.online, hidle]
    exact Bool.false_ne_true
  · refine hs.of_static hstatic (fun v => ?_) (fun v => ?_) rfl fun v => ?_
    · show v ∈ insert u m.present ↔ _
      rw [Set.mem_insert_iff, hs.present, hclient]
      by_cases hv : v = u <;> simp [hv]
    · show v ∈ insert u m.online ↔ _
      have htime := hk.timeout
      rw [Set.mem_insert_iff, hs.online, isUserLoggedIn_eq_true, isUserLoggedIn_eq_true, hclient,
        hactive, htimeout, hnow]
      by_cases hv : v = u
      · simp [hv, htime]
      · simp [hv]
    · by_cases hv : v ∈ m.circle u
      · refine .inr ⟨.came u, ?_, ?_⟩
        · rw [hletters hk, if_pos ((mem_circle hk hs).mp hv)]
        · simp [Messenger.after, Messenger.post, hv]
      · refine .inl ⟨?_, ?_⟩
        · rw [hletters hk, if_neg fun h => hv ((mem_circle hk hs).mpr h), List.append_nil]
        · simp [Messenger.after, Messenger.post, hv]

/-! ## Messages and block lists -/

/-- The deeds of `cmd_message_impl`. -/
def messageDeeds (s : State) (c : ConnId) (r : MessageRequest) : List (Deed UserId Bytes) :=
  match (s.conn c).user with
  | none => []
  | some u =>
      if !isUserLoggedIn s (some u) then []
      else if r.broadcast then [.shout u (cstr r.msg)]
      else
        match findUser s r.username with
        | none => []
        | some v => if hasBlockedUser s v u then [] else [.say u v (cstr r.msg)]

lemma Does.message (s : State) (c : ConnId) (r : MessageRequest) :
    Does ac names s (messageDeeds s c r) (cmdMessageImpl ac s c r).1 := by
  unfold messageDeeds cmdMessageImpl
  rcases (s.conn c).user with _ | u
  · exact .refl s
  dsimp only
  by_cases hlive : isUserLoggedIn s (some u) = true
  swap
  · simp only [hlive, Bool.not_false, if_true]
    exact .refl s
  simp only [hlive, Bool.not_true, Bool.false_eq_true, if_false]
  by_cases hbroadcast : r.broadcast = true <;>
    simp only [hbroadcast, if_true, Bool.false_eq_true, if_false]
  · have hloop : Does ac names s [.shout u (cstr r.msg)] (broadcastLoop ac s u r.msg).1 := by
      rw [broadcastLoop_eq]
      have hview := view_of_core (core_deliverAll ac s (broadcasts ac s u r.msg))
      refine .single (fun hk => hk.of_view hview) fun m hk hs => ⟨(hs.online u).mpr hlive, ?_⟩
      refine hs.deliverAll hk (fun _ => rfl) (fun _ => rfl) fun v => ?_
      rw [decide_eq_true_iff]
      show v ∈ m.online ∧ v ≠ u ∧ u ∉ m.blocks v ↔ _
      rw [hs.online, hs.blocks]
      constructor
      · rintro ⟨hv, hne, hblocks⟩
        obtain ⟨⟨d, hd⟩, -⟩ := isUserLoggedIn_eq_true.mp hv
        exact ⟨hk.known v d hd, ⟨hne, hv⟩, hblocks⟩
      · rintro ⟨-, ⟨hne, hv⟩, hblocks⟩
        exact ⟨hv, hne, hblocks⟩
    split <;> exact hloop
  · rcases findUser s r.username with _ | v
    · exact .refl s
    dsimp only
    rw [sendMessage_eq]
    by_cases hblocked : hasBlockedUser s v u = true
    · simp only [if_pos hblocked]
      exact .refl s
    · simp only [if_neg hblocked]
      have hview := view_of_core (core_deliver ac s
        ⟨sendTarget s v, .chat v u, chatResponse ac s u r.msg⟩)
      refine .single (fun hk => hk.of_view hview) fun m hk hs => ⟨⟨(hs.online u).mpr hlive, ?_⟩, ?_⟩
      · rwa [hs.blocks]
      · refine hs.post hview (fun w hw => ?_) fun w hw => ?_
        · obtain rfl : w = v := hw
          have hrecipient : (Why.chat w u).recipient = some w := rfl
          rw [letters_deliver, Delivery.letter, if_pos hrecipient]
          rfl
        · have hne : ¬ some v = some w := fun h => hw (Option.some.inj h).symm
          rw [letters_deliver, Delivery.letter]
          simp [Why.recipient, hne]

/-- The user of a live session and the other one that a request is about. -/
def blockPair (s : State) (c : ConnId) (r : UsernameRequest) : Option (UserId × UserId) :=
  match (s.conn c).user with
  | none => none
  | some self =>
      if !isUserLoggedIn s (some self) then none
      else (findUser s r.username).bind fun user => if user = self then none else some (self, user)

/-- The deeds of `cmd_block_impl`. -/
def blockDeeds (s : State) (c : ConnId) (r : UsernameRequest) : List (Deed UserId Bytes) :=
  match blockPair s c r with
  | none => []
  | some (self, user) => if hasBlockedUser s self user then [] else [.block self user]

/-- The deeds of `cmd_unblock_impl`. -/
def unblockDeeds (s : State) (c : ConnId) (r : UsernameRequest) : List (Deed UserId Bytes) :=
  match blockPair s c r with
  | none => []
  | some (self, user) => if !hasBlockedUser s self user then [] else [.unblock self user]

section Blocks

variable {s : State} (u : UserId) (l : List UserId → List UserId)

/-- The state with another block list. -/
abbrev reblock (s : State) (u : UserId) (l : List UserId → List UserId) : State :=
  s.setUser u fun v => { v with blocked := l v.blocked }

lemma client_reblock (v : UserId) : ((reblock s u l).users v).client = (s.users v).client := by
  refine State.client_setUser s u ?_ v
  exact fun _ => rfl

lemma username_reblock (v : UserId) :
    ((reblock s u l).users v).username = (s.users v).username := by
  by_cases hv : v = u <;> simp [reblock, State.setUser, hv]

lemma isUserLoggedIn_reblock (v : UserId) :
    isUserLoggedIn (reblock s u l) (some v) = isUserLoggedIn s (some v) := by
  by_cases hv : v = u <;> simp [reblock, isUserLoggedIn, State.setUser, hv]

lemma Kept.reblock (hk : Kept names s) (hlists : BlockListsOk (reblock s u l)) :
    Kept names (reblock s u l) where
  username v := (username_reblock u l v).trans (hk.username v)
  server := hk.server
  timeout := hk.timeout
  lists := hlists
  once := hk.once
  named name v hv := (username_reblock u l v).trans (hk.named name v hv)
  found := hk.found
  known v c hc := hk.known v c (client_reblock u l v ▸ hc)

lemma Shows.reblock {m : Messenger UserId Bytes} (hs : Shows ac s m) {blocks : UserId → Set UserId}
    (hblocks : ∀ v w, w ∈ blocks v ↔ hasBlockedUser (reblock s u l) v w = true) :
    Shows ac (reblock s u l) { m with blocks } where
  present v := by rw [client_reblock]; exact hs.present v
  online v := by rw [isUserLoggedIn_reblock]; exact hs.online v
  blocks := hblocks
  mail v := by
    have hqueued : Letter.queued ac (EpollChat.reblock s u l) v = Letter.queued ac s v := by
      funext x
      rcases x with ⟨w, msg⟩ | ⟨w⟩ | ⟨w⟩ <;> simp only [Letter.queued, username_reblock]
    rw [hqueued]
    exact hs.mail v

end Blocks

lemma Does.block (s : State) (c : ConnId) (r : UsernameRequest) :
    Does ac names s (blockDeeds s c r) (cmdBlockImpl ac s c r).1 := by
  unfold blockDeeds blockPair cmdBlockImpl
  rcases (s.conn c).user with _ | self
  · exact .refl s
  dsimp only
  by_cases hlive : isUserLoggedIn s (some self) = true
  swap
  · simp only [hlive, Bool.not_false, if_true]
    exact .refl s
  simp only [hlive, Bool.not_true, Bool.false_eq_true, if_false]
  rcases findUser s r.username with _ | user
  · exact .refl s
  dsimp only [Option.bind_some]
  by_cases hself : user = self
  · simp only [hself, if_true]
    exact .refl s
  by_cases hblocked : hasBlockedUser s self user = true <;>
    simp only [hself, hblocked, if_true, if_false, Bool.false_eq_true]
  · exact .refl s
  have hstate : blockUser s self user = reblock s self (user :: ·) := by
    rw [blockUser, if_neg hself, if_neg hblocked]
  refine .single (fun hk => ?_) fun m hk hs => ⟨⟨(hs.online self).mpr hlive, Ne.symm hself, ?_⟩, ?_⟩
  · rw [hstate]
    exact hk.reblock self _ (hstate ▸ hk.lists.blockUser self user)
  · rwa [hs.blocks]
  · rw [hstate]
    refine hs.reblock self _ fun v w => ?_
    rw [← hstate, hasBlockedUser_blockUser, ← hs.blocks]
    by_cases hv : v = self
    · subst hv
      simp [hself, or_comm]
    · simp [hv]

lemma Does.unblock (s : State) (c : ConnId) (r : UsernameRequest) :
    Does ac names s (unblockDeeds s c r) (cmdUnblockImpl ac s c r).1 := by
  unfold unblockDeeds blockPair cmdUnblockImpl
  rcases (s.conn c).user with _ | self
  · exact .refl s
  dsimp only
  by_cases hlive : isUserLoggedIn s (some self) = true
  swap
  · simp only [hlive, Bool.not_false, if_true]
    exact .refl s
  simp only [hlive, Bool.not_true, Bool.false_eq_true, if_false]
  rcases findUser s r.username with _ | user
  · exact .refl s
  dsimp only [Option.bind_some]
  by_cases hself : user = self
  · simp only [hself, if_true]
    exact .refl s
  by_cases hblocked : hasBlockedUser s self user = true <;>
    simp only [hself, hblocked, if_true, if_false, Bool.not_true, Bool.not_false,
      Bool.false_eq_true]
  swap
  · exact .refl s
  refine .single (fun hk => ?_) fun m hk hs => ⟨⟨(hs.online self).mpr hlive, ?_⟩, ?_⟩
  · exact hk.reblock self _ (hk.lists.unblockUser self user)
  · rwa [hs.blocks]
  · refine hs.reblock self _ fun v w => ?_
    have hunblocked := hasBlockedUser_unblockUser hk.lists self user v w
    rw [← hs.blocks] at hunblocked
    refine Iff.trans ?_ hunblocked.symm
    by_cases hv : v = self
    · subst hv
      simp
    · simp [hv]

/-! ## Requests -/

lemma Does.setChunks (s : State) (c : ConnId) (chunks : Option ChunkList) :
    Does ac names s [] (setChunks s c chunks) := by
  rcases chunks with _ | chunks
  · exact .silent rfl rfl
  · exact .silent rfl rfl

/-- An entry of the history that moves nothing. -/
lemma Does.emit (s : State) {o : Obs} (ho : o.isMove = false) : Does ac names s [] (s.emit o) := by
  refine .silent rfl ?_
  show moves (s.log ++ [o]) = moves s.log
  rcases o with m | _ | _ | _ | _
  · cases ho
  all_goals simp [moves]

lemma Does.getip (s : State) (c : ConnId) (r : UsernameRequest) :
    Does ac names s [] (cmdGetipImpl ac s c r).1 := by
  rcases cmdGetipImpl_cases ac s c r with ⟨msg, heq⟩ | ⟨_, _, d, -, -, -, -, -, heq⟩ <;> rw [heq]
  · exact .refl s
  · exact .silent (view_of_core (State.core_touch s d)) (by simp)

lemma Does.regfile (s : State) (c : ConnId) (r : RegisterFileRequest) :
    Does ac names s [] (cmdRegfileImpl ac s c r).1 := by
  rcases cmdRegfileImpl_cases ac s c r with ⟨_, heq⟩ | ⟨_, _, _, heq⟩ | ⟨_, -, -, heq⟩ <;> rw [heq]
  · exact .refl s
  · exact .silent rfl rfl
  · have hadded : Does ac names s [] { s with
        fileDb := (addFile s.fileDb s.globalChunkId r.filename r.chunks).1
        globalChunkId := s.globalChunkId + r.chunks } := .silent rfl rfl
    exact (hadded.trans (.setChunks _ c _)).trans (.emit _ rfl)

lemma Does.regchunk (s : State) (c : ConnId) (r : ChunksRequest) :
    Does ac names s [] (cmdRegchunkImpl ac s c r).1 := by
  unfold cmdRegchunkImpl
  split
  · exact .refl s
  split
  · exact .refl s
  · exact (Does.setChunks s c _).trans (.emit _ rfl)

/-- The walk over the users only follows pointers. -/
lemma Does.searchfile (s : State) (c : ConnId) (r : ChunksRequest) :
    Does ac names s [] (cmdSearchfileImpl ac s c r).1 := by
  have hwalk : ∀ (f : FileNode) wanted target, Does ac names s [] (usersWithChunks s f wanted target).1 := by
    intro f wanted target
    unfold usersWithChunks
    suffices hrounds : ∀ (l : List UserId) (acc : State × List UserId × (ℕ → Bool)),
        Does ac names s [] acc.1 → Does ac names s [] (l.foldl (userWithChunks f wanted target) acc).1 from
      hrounds _ _ (.refl s)
    intro l
    induction l with
    | nil => exact fun _ hacc => hacc
    | cons u l ih =>
        rintro ⟨t, ret, mask⟩ hacc
        refine ih _ ?_
        unfold userWithChunks
        dsimp only
        split
        · next d _ hd =>
            exact hacc.trans (.silent (view_of_core (State.core_touch t d)) (by simp))
        · exact hacc
  unfold cmdSearchfileImpl
  split
  · exact .refl s
  split
  · exact .refl s
  · next f hf =>
      dsimp only
      generalize hfound : usersWithChunks s f _ _ = found
      have hdoes : Does ac names s [] found.1 := hfound ▸ hwalk _ _ _
      split <;> exact hdoes

/-- The deeds of a request. -/
def requestDeeds (s : State) (c : ConnId) : Request → List (Deed UserId Bytes)
  | .login r => (acceptedUser s r.username r.password).toList.map .come
  | .message r => messageDeeds s c r
  | .block r => blockDeeds s c r
  | .unblock r => unblockDeeds s c r
  | .logout =>
      if !isUserLoggedIn s (s.conn c).user then [] else logoutDeeds s (s.conn c).user
  | _ => []

lemma Does.runCommand (s : State) (c : ConnId) (req : Request) :
    Does ac names s (requestDeeds s c req) (runCommand ac s c req).1 := by
  rcases req with r | r | r | r | r | _ | r | r | r | r | t
  · show Does ac names s ((acceptedUser s r.username r.password).toList.map .come)
      (cmdLoginImpl ac s c r).1
    rcases haccepted : acceptedUser s r.username r.password with _ | u
    · obtain ⟨rsp, heq⟩ := cmdLoginImpl_of_refused ac (c := c) haccepted
      rw [heq]
      rcases refused_cases s r.username r.password with heq | ⟨u, attempts, lastBlocked, -, heq⟩ <;>
        rw [heq]
      · exact .refl s
      · refine .silent ?_ rfl
        unfold State.view State.setUser
        simp only [View.mk.injEq, true_and]
        refine ⟨?_, ?_, ?_, ?_⟩ <;> funext v <;> by_cases hv : v = u <;> simp [hv]
    · exact .login haccepted
  · exact .message s c r
  · exact .refl s
  · exact .block s c r
  · exact .unblock s c r
  · show Does ac names s (if !isUserLoggedIn s (s.conn c).user then []
      else logoutDeeds s (s.conn c).user) (cmdLogoutImpl ac s c).1
    unfold cmdLogoutImpl
    split
    · exact .refl s
    · exact .closeSocket s c
  · exact .getip s c r
  · exact .regfile s c r
  · exact .regchunk s c r
  · exact .searchfile s c r
  · exact .refl s

/-- A request, with the refresh of the time of the last activity and the answer. -/
lemma Does.serve (s : State) (c : ConnId) (req : Request) :
    Does ac names s (requestDeeds s c req) (serve ac s c req) := by
  have hrun : Does ac names s (requestDeeds s c req) (runRequest ac s c req).1 := by
    by_cases hunknown : ∃ t, req = .unknown t
    · obtain ⟨t, rfl⟩ := hunknown
      exact .refl s
    · rw [runRequest_of_known ac s c fun t ht => hunknown ⟨t, ht⟩]
      have hcommand : Does ac names s (requestDeeds s c req)
          (EpollChat.runCommand ac s c req).1 := .runCommand s c req
      have hall := hcommand.trans (.updateLastActive _ c)
      rwa [List.append_nil] at hall
  rcases serve_eq ac s c req with heq | ⟨rsp, heq⟩ <;> rw [heq]
  · exact hrun
  · have hall := hrun.trans (.deliver _ (d := ⟨.out c, .reply, rsp⟩) rfl)
    rwa [List.append_nil] at hall

/-! ## Events -/

lemma Does.networkWritable (s : State) (c : ConnId) (n₁ n₂ : Option ℕ) :
    Does ac names s [] (networkWritable s c n₁ n₂) := by
  have htake : ∀ (t : State) q n, Does ac names t [] (imSendBuffer t c q n) := by
    intro t q n
    refine .takes (view_of_core (core_imSendBuffer t c q n)) fun v => ?_
    unfold State.letters
    rcases log_imSendBuffer t c q n with hlog | ⟨hlog, -⟩ <;> rw [hlog]
    simp [letters, moves]
  have hlock : Does ac names s [] (s.lock c) := .silent (view_of_core (State.core_lock s c)) (by simp)
  have hfirst := hlock.trans (htake _ (.out c) n₁)
  have hdrained : Does ac names s [] (drainOffline s c n₂ (imSendBuffer (s.lock c) c (.out c) n₁)) := by
    unfold drainOffline
    split
    · exact hfirst.trans (htake _ _ n₂)
    · exact hfirst
  rw [networkWritable_eq]
  exact hdrained.trans (.silent rfl rfl)

variable (ac) in
/-- The deeds of an event. -/
def eventDeeds (s : State) : Event → List (Deed UserId Bytes)
  | .hangup fd => ((pickConn s fd).map fun c => logoutDeeds s (s.conn c).user).getD []
  | .eof fd => ((pickConn s fd).map fun c => logoutDeeds s (s.conn c).user).getD []
  | .request req => (s.serving.map fun c => requestDeeds s c req).getD []
  | .tick seconds => [.doze {u | isUserLoggedIn { s with now := s.now + seconds } (some u) = true}]
  | .sweep => sweepDeeds ac s s.clients
  | _ => []

lemma Does.exec (s : State) (e : Event) : Does ac names s (eventDeeds ac s e) (exec ac s e) := by
  have hclose : ∀ fd, Does ac names s (eventDeeds ac s (.hangup fd)) (EpollChat.exec ac s (.hangup fd)) := by
    intro fd
    simp only [EpollChat.exec, eventDeeds]
    rcases pickConn s fd with _ | c
    · exact .refl s
    · exact .closeSocket s c
  rcases e with ⟨fd, addr⟩ | fd | fd | fd | req | _ | ⟨fd, n₁, n₂⟩ | seconds | _
  · obtain ⟨_, _, heq⟩ := acceptClient_eq s fd addr
    show Does ac names s [] (acceptClient s fd addr)
    rw [heq]
    exact .silent rfl rfl
  · exact hclose fd
  · exact hclose fd
  · exact .silent rfl rfl
  · simp only [EpollChat.exec, eventDeeds]
    rcases s.serving with _ | c
    · exact .refl s
    · exact .serve s c req
  · exact .silent rfl rfl
  · simp only [EpollChat.exec, eventDeeds]
    rcases pickConn s fd with _ | c
    · exact .refl s
    · exact .networkWritable s c n₁ n₂
  · exact .tick s seconds
  · exact .timeThread s

/-! ## Runs -/

/-- The names the users were loaded with. -/
def Setup.usernames (p : Setup) (u : UserId) : Bytes := (p.init.users u).username

lemma stored_init (p : Setup) :
    p.init.loginTimeout = p.loginTimeout ∧ ∃ made, Stored p.init made := by
  unfold Setup.init
  have hblank : (State.blank p.blockDuration p.loginTimeout p.now).loginTimeout = p.loginTimeout ∧
      ∃ made, Stored (State.blank p.blockDuration p.loginTimeout p.now) made :=
    ⟨rfl, [], stored_blank _ _ _⟩
  generalize State.blank p.blockDuration p.loginTimeout p.now = s at hblank ⊢
  generalize p.credentials = l
  induction l generalizing s with
  | nil => exact hblank
  | cons nw l ih =>
      obtain ⟨htimeout, made, hmade⟩ := hblank
      exact ih _ ⟨htimeout, _, hmade.addUser nw.1 nw.2⟩

lemma kept_init {p : Setup} (hp : 0 < p.loginTimeout) : Kept p.usernames p.init := by
  have hloaded := loaded_init p
  obtain ⟨htimeout, made, hmade⟩ := stored_init p
  refine ⟨fun _ => rfl, hloaded.server, htimeout ▸ hp, ⟨fun v => ?_, fun v => ?_⟩,
    (enrolled_init p).nodup, fun name u hu => hmade.named _ (hmade.mem_of_find hu),
    hloaded.find_known, fun u c hc => ?_⟩
  · rw [(hloaded.users v).2.1]
    exact List.nodup_nil
  · rw [(hloaded.users v).2.1]
    exact List.not_mem_nil
  · rw [(hloaded.users u).1] at hc
    cases hc

lemma shows_init (p : Setup) : Shows ac p.init Messenger.empty := by
  have hloaded := loaded_init p
  refine ⟨fun u => ?_, fun u => ?_, fun u v => ?_, fun v => ?_⟩
  · simp [Messenger.empty, (hloaded.users u).1]
  · simp [Messenger.empty, isUserLoggedIn, (hloaded.users u).1]
  · simp [Messenger.empty, hasBlockedUser, (hloaded.users u).2.1]
  · simp [Messenger.empty, State.letters, letters, hloaded.log]

variable (ac) in
/-- Every step of the server is followed by the messenger. -/
lemma messenger_follows (p : Setup) (ok : State → Event → Prop) :
    Follows (step ac) ok Messenger.step Always (eventDeeds ac) (fun _ => True)
      fun s m => Kept p.usernames s ∧ Shows ac s m := by
  refine ⟨fun {s m e s'} _ ⟨hk, hs⟩ _ hstep => ?_⟩
  obtain ⟨-, -, rfl⟩ := (step_eq_some ac).mp hstep
  exact Does.exec s e m hk hs

/-- **The server is a messenger.** Every run is a run of the messenger, in which every event is
the deeds of its request, of the connection that is lost or of the sessions that end.  The final
state shows who is present and online, who has blocked whom, and everybody's mail. -/
theorem server_is_messenger {p : Setup} (hp : 0 < p.loginTimeout) {ok : State → Event → Prop}
    {es : List Event} {s : State} (run : ServerRun ac p ok es s) :
    ∃ m, Run Messenger.step Always Messenger.empty (trace (step ac) (eventDeeds ac) p.init es) m ∧
      Shows ac s m := by
  obtain ⟨m, mrun, -, hs⟩ := (messenger_follows ac p ok).run (fun _ => trivial)
    ⟨kept_init hp, shows_init p⟩ run
  exact ⟨m, mrun, hs⟩

/-- Two logins, of which the second is announced, and a message. -/
theorem server_is_messenger_demo :
    ∃ (s : State) (m : Messenger UserId Bytes),
      ServerRun protobufWire demo Always
        (acceptAndServe 5 [loginAs "hans" "falcon"] ++
          acceptAndServe 6 [loginAs "yoda" "wise", messageTo "hans" "hi"]) s ∧
      Run Messenger.step Always Messenger.empty
        (trace (step protobufWire) (eventDeeds protobufWire) demo.init
          (acceptAndServe 5 [loginAs "hans" "falcon"] ++
            acceptAndServe 6 [loginAs "yoda" "wise", messageTo "hans" "hi"])) m ∧
      Shows protobufWire s m := by
  obtain ⟨s, run, -⟩ := Run.exists_of_execute (step protobufWire) Always demo.init
    (acceptAndServe 5 [loginAs "hans" "falcon"] ++
      acceptAndServe 6 [loginAs "yoda" "wise", messageTo "hans" "hi"])
    (fun _ => True) (by decide +kernel)
  obtain ⟨m, mrun, hs⟩ := server_is_messenger (by decide) run
  exact ⟨s, m, run, mrun, hs⟩

/-! ## The origin of messages -/

/-- Something is said. -/
def Deed.isSaid : Deed UserId Bytes → Prop
  | .say .. | .shout .. => True
  | _ => False

lemma not_isSaid_logoutDeeds {s : State} {o : Option UserId} {d : Deed UserId Bytes}
    (hd : d ∈ logoutDeeds s o) : ¬ d.isSaid := by
  rcases o with _ | u
  · cases hd
  · dsimp only [logoutDeeds] at hd
    split at hd
    · cases hd
    · obtain rfl := List.mem_singleton.mp hd
      exact id

lemma not_isSaid_sweepDeeds {s : State} {cs : List ConnId} {d : Deed UserId Bytes}
    (hd : d ∈ sweepDeeds ac s cs) : ¬ d.isSaid := by
  induction cs generalizing s with
  | nil => cases hd
  | cons c cs ih =>
      rcases List.mem_append.mp hd with hd | hd
      · split at hd
        · exact not_isSaid_logoutDeeds hd
        · cases hd
      · exact ih hd

lemma not_isSaid_blockDeeds {s : State} {c : ConnId} {r : UsernameRequest} {d : Deed UserId Bytes}
    (hd : d ∈ blockDeeds s c r) : ¬ d.isSaid := by
  unfold blockDeeds at hd
  rcases hpair : blockPair s c r with _ | ⟨self, user⟩ <;> simp only [hpair] at hd
  · cases hd
  · split at hd
    · cases hd
    · obtain rfl := List.mem_singleton.mp hd
      exact id

lemma not_isSaid_unblockDeeds {s : State} {c : ConnId} {r : UsernameRequest} {d : Deed UserId Bytes}
    (hd : d ∈ unblockDeeds s c r) : ¬ d.isSaid := by
  unfold unblockDeeds at hd
  rcases hpair : blockPair s c r with _ | ⟨self, user⟩ <;> simp only [hpair] at hd
  · cases hd
  · split at hd
    · cases hd
    · obtain rfl := List.mem_singleton.mp hd
      exact id

lemma mem_getD_map {o : Option ConnId} {k : ConnId → List (Deed UserId Bytes)}
    {d : Deed UserId Bytes} (hd : d ∈ (o.map k).getD []) : ∃ c, o = some c ∧ d ∈ k c := by
  rcases o with _ | c
  · cases hd
  · exact ⟨c, rfl, hd⟩

/-- Something is said in a message request only. -/
lemma said_in_message {s : State} {e : Event} {d : Deed UserId Bytes} (hd : d ∈ eventDeeds ac s e)
    (hsaid : d.isSaid) :
    ∃ c r, e = .request (.message r) ∧ s.serving = some c ∧
      eventDeeds ac s e = messageDeeds s c r := by
  rcases e with ⟨fd, addr⟩ | fd | fd | fd | req | _ | ⟨fd, n₁, n₂⟩ | seconds | _
  case request =>
    obtain ⟨c, hserving, hd⟩ := mem_getD_map hd
    have hdeeds : eventDeeds ac s (.request req) = requestDeeds s c req := by
      rw [eventDeeds, hserving, Option.map_some, Option.getD_some]
    rw [hdeeds]
    rcases req with r | r | r | r | r | _ | r | r | r | r | t
    case message => exact ⟨c, r, rfl, hserving, rfl⟩
    case login =>
      obtain ⟨u, -, rfl⟩ := List.mem_map.mp hd
      exact hsaid.elim
    case block => exact absurd hsaid (not_isSaid_blockDeeds hd)
    case unblock => exact absurd hsaid (not_isSaid_unblockDeeds hd)
    case logout =>
      simp only [requestDeeds] at hd
      split at hd
      · cases hd
      · exact absurd hsaid (not_isSaid_logoutDeeds hd)
    all_goals cases hd
  case hangup =>
    obtain ⟨c, -, hd⟩ := mem_getD_map hd
    exact absurd hsaid (not_isSaid_logoutDeeds hd)
  case eof =>
    obtain ⟨c, -, hd⟩ := mem_getD_map hd
    exact absurd hsaid (not_isSaid_logoutDeeds hd)
  case tick =>
    obtain rfl := List.mem_singleton.mp hd
    exact hsaid.elim
  case sweep => exact absurd hsaid (not_isSaid_sweepDeeds hd)
  all_goals cases hd

/-- What a message request says. -/
lemma messageDeeds_cases {s : State} {c : ConnId} {r : MessageRequest} {d : Deed UserId Bytes}
    (hd : d ∈ messageDeeds s c r) :
    messageDeeds s c r = [d] ∧ ∃ u, (s.conn c).user = some u ∧ isUserLoggedIn s (some u) = true ∧
      (r.broadcast = true ∧ d = .shout u (cstr r.msg) ∨
        r.broadcast = false ∧ ∃ v, findUser s r.username = some v ∧
          hasBlockedUser s v u = false ∧ d = .say u v (cstr r.msg)) := by
  unfold messageDeeds at hd ⊢
  rcases huser : (s.conn c).user with _ | u <;> simp only [huser] at hd ⊢
  · cases hd
  by_cases hlive : isUserLoggedIn s (some u) = true
  swap
  · simp [hlive] at hd
  by_cases hbroadcast : r.broadcast = true
  · simp only [hlive, hbroadcast, Bool.not_true, Bool.false_eq_true, if_true, if_false] at hd ⊢
    obtain rfl := List.mem_singleton.mp hd
    exact ⟨rfl, u, rfl, hlive, .inl ⟨trivial, rfl⟩⟩
  simp only [hlive, hbroadcast, Bool.not_true, Bool.false_eq_true, if_false] at hd ⊢
  rcases hfind : findUser s r.username with _ | v <;> rw [hfind] at hd
  · cases hd
  dsimp only at hd ⊢
  by_cases hblocked : hasBlockedUser s v u = true
  · simp [hblocked] at hd
  simp only [hblocked, Bool.false_eq_true, if_false] at hd ⊢
  obtain rfl := List.mem_singleton.mp hd
  exact ⟨rfl, u, rfl, hlive, .inr ⟨by simp, v, rfl, by simpa using hblocked, rfl⟩⟩

/-- A chat frame is a letter that the deed of a message request posted. -/
lemma chat_deed {p : Setup} (hp : 0 < p.loginTimeout) {ok : State → Event → Prop}
    {es : List Event} {s : State} (run : ServerRun ac p ok es s) {q : Queue} {u v : UserId}
    {f : Bytes} (hput : .put q (.chat v u) f ∈ moves s.log) :
    ∃ es₁ es₂ s₁ c r m d msg, es = es₁ ++ .request (.message r) :: es₂ ∧
      ServerRun ac p ok es₁ s₁ ∧ s₁.serving = some c ∧ Kept p.usernames s₁ ∧ Shows ac s₁ m ∧
      d ∈ messageDeeds s₁ c r ∧ m.Posts d v (.said u msg) ∧
      f = encodeIMResponseToBytes ac (encodeTextResponseToIMResponse ac
        (p.usernames u ++ text ": " ++ msg) true) := by
  have hfollows := messenger_follows ac p ok
  obtain ⟨m, mrun, hk, hs⟩ := hfollows.run (fun _ => trivial) ⟨kept_init hp, shows_init p⟩ run
  -- the frame is a letter in the mail of `v`
  have hletter : (Why.chat v u, f) ∈ s.letters v := mem_letters.mpr ⟨rfl, q, hput⟩
  rw [hs.mail] at hletter
  obtain ⟨l, hl, hqueued⟩ := List.mem_map.mp hletter
  obtain ⟨msg, rfl, hf⟩ : ∃ msg, l = .said u msg ∧
      f = encodeIMResponseToBytes ac (encodeTextResponseToIMResponse ac
        (p.usernames u ++ text ": " ++ msg) true) := by
    rcases l with ⟨w, msg⟩ | ⟨w⟩ | ⟨w⟩
    · obtain ⟨hwhy, hframe⟩ := Prod.mk.inj hqueued
      obtain ⟨-, rfl⟩ := Why.chat.inj hwhy
      exact ⟨msg, rfl, by rw [← hframe, hk.username]⟩
    · cases (Prod.mk.inj hqueued).1
    · cases (Prod.mk.inj hqueued).1
  -- a deed posted it, in which something was said
  rcases Messenger.mem_mail mrun hl with hnil | ⟨ds₁, d, ds₂, m₁, hds, mrun₁, -, hposts⟩
  · cases hnil
  have hsaid : d.isSaid := by
    rcases d with _ | _ | _ | _ | _ | _ | _
    case say => trivial
    case shout => trivial
    case come => cases hposts.2
    case go => cases hposts.2
    all_goals exact hposts.elim
  obtain ⟨es₁, e, es₂, s₁, as, bs, rfl, run₁, hdeeds, rfl⟩ := trace_split run hds
  obtain ⟨c, r, rfl, hserving, hmessage⟩ :=
    said_in_message (hdeeds ▸ List.mem_append_right as List.mem_cons_self) hsaid
  have hd : d ∈ messageDeeds s₁ c r :=
    hmessage ▸ hdeeds ▸ List.mem_append_right as List.mem_cons_self
  -- it is the only deed of the request, so the messenger before it is the one of `s₁`
  obtain ⟨m', mrun', hk₁, hs₁⟩ :=
    hfollows.run (fun _ => trivial) ⟨kept_init hp, shows_init p⟩ run₁
  have has : as = [] := by
    have honly := hdeeds.symm.trans (hmessage.trans (messageDeeds_cases hd).1)
    have hlength := congrArg List.length honly
    simp at hlength
    exact List.length_eq_zero_iff.mp (by omega)
  obtain rfl : m' = m₁ := by
    rw [has, List.append_nil] at mrun₁
    exact mrun'.unique mrun₁
  exact ⟨es₁, es₂, s₁, c, r, m', d, msg, rfl, run₁, hserving, hk₁, hs₁, hd, hposts, hf⟩

/-- **Chat messages are authentic.** A frame that is queued as a chat message from `u` to `v`
answers a message request that was served on a connection of a live session of `u`, was for `v`,
and came when `v` had not blocked `u`; and the frame is the text of this request under the name of
`u`. -/
theorem chat_authentic {p : Setup} (hp : 0 < p.loginTimeout) {ok : State → Event → Prop}
    {es : List Event} {s : State} (run : ServerRun ac p ok es s) {q : Queue} {u v : UserId}
    {f : Bytes} (hput : .put q (.chat v u) f ∈ moves s.log) :
    ∃ es₁ es₂ s₁ c r, es = es₁ ++ .request (.message r) :: es₂ ∧ ServerRun ac p ok es₁ s₁ ∧
      s₁.serving = some c ∧ (s₁.conn c).user = some u ∧ isUserLoggedIn s₁ (some u) = true ∧
      Addressed s₁ u r v ∧ hasBlockedUser s₁ v u = false ∧
      f = encodeIMResponseToBytes ac (chatResponse ac s₁ u r.msg) := by
  obtain ⟨es₁, es₂, s₁, c, r, m, d, msg, rfl, run₁, hserving, hk, hs, hd, hposts, hf⟩ :=
    chat_deed hp run hput
  obtain ⟨-, w, huser, hlive, hcases⟩ := messageDeeds_cases hd
  rw [← hk.username] at hf
  rcases hcases with ⟨hbroadcast, rfl⟩ | ⟨hbroadcast, v', hfind, hblocked, rfl⟩
  · obtain ⟨⟨honline, hne, hblocks⟩, hletter⟩ := hposts
    obtain ⟨rfl, rfl⟩ := Letter.said.inj hletter
    rw [hs.online] at honline
    obtain ⟨⟨d, hclient⟩, -⟩ := isUserLoggedIn_eq_true.mp honline
    refine ⟨es₁, es₂, s₁, c, r, rfl, run₁, hserving, huser, hlive, ?_, ?_, hf⟩
    · rw [Addressed, if_pos hbroadcast]
      exact ⟨hk.known v d hclient, hne, honline⟩
    · rw [hs.blocks] at hblocks
      simpa using hblocks
  · obtain ⟨rfl, hletter⟩ := hposts
    obtain ⟨rfl, rfl⟩ := Letter.said.inj hletter
    refine ⟨es₁, es₂, s₁, c, r, rfl, run₁, hserving, huser, hlive, ?_, hblocked, hf⟩
    rw [Addressed, if_neg (by simp [hbroadcast])]
    exact hfind

/-- The message of yoda reaches the queue of hans, and nobody but yoda can have sent it. -/
theorem chat_authentic_demo :
    ∃ s, ServerRun protobufWire demo Always
        (acceptAndServe 5 [loginAs "hans" "falcon"] ++
          acceptAndServe 6 [loginAs "yoda" "wise", messageTo "hans" "hi"]) s ∧
      ∃ es₁ s₁ c, ServerRun protobufWire demo Always es₁ s₁ ∧
        s₁.serving = some c ∧ (s₁.conn c).user = some 1 := by
  obtain ⟨s, run, hletters⟩ := Run.exists_of_execute (step protobufWire) Always demo.init
    (acceptAndServe 5 [loginAs "hans" "falcon"] ++
      acceptAndServe 6 [loginAs "yoda" "wise", messageTo "hans" "hi"])
    (fun s => (s.letters 0).map Prod.fst = [.loggedIn 0 1, .chat 0 1]) (by decide +kernel)
  obtain ⟨⟨_, f⟩, hf, rfl⟩ : ∃ x ∈ s.letters 0, x.1 = .chat 0 1 :=
    List.mem_map.mp (hletters ▸ List.mem_cons_of_mem _ List.mem_cons_self)
  obtain ⟨-, q, hput⟩ := mem_letters.mp hf
  obtain ⟨es₁, -, s₁, c, -, -, run₁, hserving, huser, -⟩ := chat_authentic (by decide) run hput
  exact ⟨s, run, es₁, s₁, c, run₁, hserving, huser⟩

end EpollChat

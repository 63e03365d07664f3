import EpollChat.Properties.PrivateLinks

/-!
# The events of two clients

Each event keeps the invariant of the connections between two clients (`Pair.Ok`), a start if all
earlier connections are spent.  A registration that comes to an end makes it bound, and the end of
the stream comes to a bound end only when the other one has gone.  When a side closes its end
before its registration has been sent, the other end stays bare, and the connection is spent.
-/

namespace EpollChat

variable (ac : Achelper)

namespace Pair

/-! ## Accepting -/

lemma Ok.accept {q : Pair} (hq : q.Ok) {p : Side} {i fd : ℕ} {addr : SockAddr}
    (henabled : q.enabled (.accept p i fd addr)) : (q.exec ac (.accept p i fd addr)).Ok := by
  obtain ⟨hfree, l, hi, hwait⟩ := henabled
  obtain ⟨htouch, hnconns, hopen, huser, hslot⟩ := (hq.sole p).accept hfree addr
  let l' : Link := { l with conn := Function.update l.conn p (some (q.program p).nconns) }
  have hexec : q.exec ac (.accept p i fd addr) =
      (q.setProgram p (acceptClient (q.program p) fd addr)).setLink i l' := by
    unfold exec
    dsimp only
    rw [hi]
  have h := hq.changes_open (p := p) (s := acceptClient (q.program p) fd addr)
    (fun d hd hdopen => (htouch.isOpen d hd (ne_of_lt hd)).mpr hdopen) i l'
  rw [← hexec] at h
  generalize q.exec ac (.accept p i fd addr) = q' at h ⊢
  have hconn : l'.conn p = some (q.program p).nconns := by simp [l']
  have hconn' : l'.conn p.other = l.conn p.other := by simp [l', p.other_ne]
  have hslotp : q'.slot p = q.slot p := h.slot_self.trans hslot
  have hgone : ¬ q'.Gone p l' := by
    rw [h.gone_self hconn]
    exact not_not_intro hopen
  apply hq.update hi h htouch hconn' hconn (.inr rfl)
  · rw [hnconns]
    exact Nat.lt_succ_self _
  · intro hactive
    refine .inl (.of_ends ?_ (h.endOk_other hconn' (hactive p.other) rfl rfl
      (iff_of_false hgone (not_gone_of_waiting hwait))))
    -- the end that accepts was bare
    cases hactive p with
    | bare _ slot incoming =>
        apply EndOk.bare
        · intro d hd
          obtain rfl := Option.some.inj (hconn.symm.trans hd)
          rw [h.program]
          exact ⟨hopen, huser⟩
        · exact hslotp.trans slot
        · rw [h.farewell_self hconn', h.name]
          exact incoming
    | bound c conn _ _ _ _ => simp [hwait] at conn
    | gone gone _ _ => exact absurd hwait gone.1
  · refine fun hspent => ⟨.of_ends ?_ (h.spent_other hconn' hspent (fun _ => .inl) id), hslotp⟩
    rcases hspent p with hgone | ⟨-, hflight, hunsent⟩
    · exact absurd hwait hgone.1
    · refine .inr ⟨fun d hd => ?_, hflight, hunsent⟩
      obtain rfl := Option.some.inj (hconn.symm.trans hd)
      rw [h.program]
      exact huser

/-! ## Sending -/

/-- What an end has sent is on its way. -/
def sent (p : Side) (l : Link) : Link :=
  { l with
    unsent := Function.update l.unsent p []
    flight := Function.update l.flight p.other (l.flight p.other ++ l.unsent p) }

/-- Output sends what waits at this end, or it changes nothing of the connection. -/
lemma Ok.changes_send {q : Pair} (hq : q.Ok) {p : Side} {i : ℕ} {l : Link} {c : ConnId}
    (hi : q.links[i]? = some l) (hc : l.conn p = some c) (nsent : Option ℕ) :
    ∃ l' s, (l' = l ∨ l' = sent p l) ∧ s.core = (q.program p).core ∧
      q.Changes (q.exec ac (.send p i nsent)) p i l' s := by
  generalize hs : (imSendBuffer ((q.program p).lock c) c (.out c) nsent).unlock c = s
  have hcore : s.core = (q.program p).core := by
    rw [← hs, State.core_unlock, core_imSendBuffer, State.core_lock]
  have hopen : ∀ d, (q.program p).IsOpen d → s.IsOpen d := fun d =>
    (isOpen_iff_of_core hcore d).mpr
  have hchanges : ∀ l', q.Changes ((q.setProgram p s).setLink i l') p i l' s := fun l' =>
    hq.changes_open (fun d _ => hopen d) i l'
  unfold exec
  dsimp only
  rw [hi]
  dsimp only
  rw [hc]
  dsimp only
  rw [hs]
  split
  · exact ⟨sent p l, s, .inr rfl, hcore, hchanges _⟩
  · refine ⟨l, s, .inl rfl, hcore, ?_⟩
    have hset : (q.setProgram p s).setLink i l = q.setProgram p s := by
      have hl : (q.setProgram p s).links.set i l = (q.setProgram p s).links := by
        have hlinks : (q.setProgram p s).links = q.links :=
          links_setProgram_open q p s fun m _ d _ => hopen d
        rw [hlinks]
        obtain ⟨hlen, rfl⟩ := List.getElem?_eq_some_iff.mp hi
        exact List.set_getElem_self hlen
      rw [setLink, hl]
    rw [← hset]
    exact hchanges l

/-- What the connection is like at this end, and at the other, after output. -/
lemma sent_frame {p : Side} {l l' : Link} (h : l' = l ∨ l' = sent p l) :
    l'.conn = l.conn ∧ l'.flight p = l.flight p ∧ l'.unsent p.other = l.unsent p.other ∧
      (l.unsent p = [] → l'.unsent p = [] ∧ l'.flight p.other = l.flight p.other) ∧
      l'.flight p.other ++ l'.unsent p = l.flight p.other ++ l.unsent p := by
  have hne := p.other_ne
  rcases h with rfl | rfl
  · exact ⟨rfl, rfl, rfl, fun h => ⟨h, rfl⟩, rfl⟩
  · refine ⟨rfl, ?_, ?_, fun hnil => ?_, ?_⟩ <;> simp [sent, hne, hne.symm]
    simp [hnil]

/-- Output changes nothing at this end, and moves what is to come at the other. -/
lemma Ok.send {q : Pair} (hq : q.Ok) {p : Side} {i : ℕ} {nsent : Option ℕ}
    (henabled : q.enabled (.send p i nsent)) : (q.exec ac (.send p i nsent)).Ok := by
  obtain ⟨l, hi, ⟨c, hc, -⟩, -⟩ := henabled
  have hc' : l.conn p = some c := hc
  obtain ⟨l', s, hl', hcore, h⟩ := hq.changes_send ac hi hc' nsent
  generalize q.exec ac (.send p i nsent) = q' at h ⊢
  obtain ⟨hconn, hflight, hunsent, hunsent', hincoming⟩ := sent_frame hl'
  have hconn' : l'.conn p.other = l.conn p.other := congrFun hconn p.other
  have hslot : q'.slot p = q.slot p := h.slot_self.trans (privateConn_congr hcore _)
  have hgone : q'.Gone p l' ↔ q.Gone p l := by
    rw [h.gone_self ((congrFun hconn p).trans hc'), gone_iff hc', isOpen_iff_of_core hcore]
  apply hq.update hi h ((hq.sole p).quiet hcore c) hconn' ((congrFun hconn p).trans hc')
    (.inl hc')
  · have hn := congrArg State.nconns hcore
    exact (hq.lt i l p c hi hc').trans_eq (Eq.trans hn rfl).symm
  · intro hactive
    refine .inl (.of_ends ?_ (h.endOk_other hconn' (hactive p.other) hincoming hunsent hgone))
    apply (hactive p).congr h.name (congrFun hconn p)
    · intro d _
      rw [h.program]
      exact ⟨isOpen_iff_of_core hcore d, user_eq_of_core hcore d⟩
    · exact hslot
    · rw [hflight, hunsent]
    · exact fun hnil => (hunsent' hnil).1
    · exact h.gone_other hconn'
  · intro hspent
    have hnil : q.Gone p.other l ∨ l.unsent p = [] := by
      have hend := hspent p.other
      rw [Side.other_other] at hend
      exact hend.imp_right fun hend => hend.2.2
    refine ⟨Spent.of_ends (p := p) ?_ ?_, hslot⟩
    · rcases hspent p with hg | ⟨hunbound, hitems, hrest⟩
      · exact .inl (hgone.mpr hg)
      · refine .inr ⟨fun d hd => ?_, ?_, hunsent.trans hrest⟩
        · rw [h.program, user_eq_of_core hcore]
          exact hunbound d ((congrFun hconn p).symm.trans hd)
        · rw [hflight]
          exact hitems
    · rcases hnil with hg | hnil
      · exact .inl ((h.gone_other hconn').mpr hg)
      · refine h.spent_other hconn' hspent (fun x hx => .inl ?_) fun h => (hunsent' h).1
        rwa [(hunsent' hnil).2] at hx

/-! ## Handling a registration -/

/-- An end that a registration has come to is bare, and the connection is the one the two talk
on. -/
lemma Ok.call {q : Pair} (hq : q.Ok) {p : Side} {i : ℕ} {l : Link} {c : ConnId}
    {username : Bytes} {rest : List Item} (hi : q.links[i]? = some l) (hc : l.conn p = some c)
    (hopen : (q.program p).IsOpen c) (hflight : l.flight p = .registration username :: rest) :
    ¬ q.Spent l ∧ username = q.name p.other ∧ rest ++ l.unsent p.other = q.farewell p l := by
  have hnotGone : ¬ q.Gone p l := fun hgone => (gone_iff hc).mp hgone hopen
  have hnotSpent : ¬ q.Spent l := by
    intro h
    rcases h p with hgone | ⟨-, hclosed, -⟩
    · exact hnotGone hgone
    · have hitem := hclosed (.registration username) (by rw [hflight]; exact List.mem_cons_self)
      cases hitem
  have hactive : q.Active l := by
    rcases hq.links i l hi with ⟨-, h⟩ | h
    · exact h
    · exact absurd h hnotSpent
  have hincoming : l.flight p ++ l.unsent p.other =
      .registration username :: (rest ++ l.unsent p.other) := by
    rw [hflight]
    rfl
  refine ⟨hnotSpent, ?_⟩
  cases hactive p with
  | bare _ _ incoming =>
      rw [hincoming] at incoming
      obtain ⟨hitem, hrest⟩ := List.cons.inj incoming
      exact ⟨Item.registration.inj hitem, hrest⟩
  | bound _ _ _ _ _ incoming =>
      rw [hincoming, farewell] at incoming
      split at incoming
      · exact absurd (List.cons.inj incoming).1 (by simp)
      · cases incoming
  | gone gone _ _ => exact absurd gone hnotGone

lemma Ok.deliver_registration {q : Pair} (hq : q.Ok) {p : Side} {i : ℕ} {l : Link} {c : ConnId}
    {username : Bytes} {rest : List Item} (hi : q.links[i]? = some l) (hc : l.conn p = some c)
    (hopen : (q.program p).IsOpen c) (hflight : l.flight p = .registration username :: rest) :
    ((q.setLink i { l with flight := Function.update l.flight p rest }).handleItem ac p c
      (.registration username)).Ok := by
  have hne := p.other_ne
  have hlt := hq.lt i l p c hi hc
  obtain ⟨hnotSpent, rfl, hrest⟩ := hq.call hi hc hopen hflight
  obtain ⟨htouch, hnconns, hopen', huser, hslot⟩ := (hq.sole p).registered hlt
  let l' : Link := { l with flight := Function.update l.flight p rest }
  have h : q.Changes ((q.setLink i l').handleItem ac p c (.registration (q.name p.other))) p i l'
      (gotPrivateRegistration (q.program p) c (q.name p.other)) := by
    refine hq.open_changes hi rfl fun d hd hdopen => ?_
    by_cases hdc : d = c
    · rw [hdc]
      exact hopen'.mpr hopen
    · exact (htouch.isOpen d hd hdc).mpr hdopen
  generalize (q.setLink i l').handleItem ac p c (.registration (q.name p.other)) = q' at h ⊢
  have hc' : l'.conn p = some c := hc
  have hconn' : l'.conn p.other = l.conn p.other := rfl
  have hgone : ¬ q'.Gone p l' := by
    rw [h.gone_self hc']
    exact not_not_intro (hopen'.mpr hopen)
  have hgone' : ¬ q.Gone p l := fun hgone => (gone_iff hc).mp hgone hopen
  apply hq.update hi h htouch hconn' hc' (.inl hc)
  · rw [hnconns]
    exact hlt
  · intro hactive
    refine .inl (.of_ends (.bound c hc' ?_ ?_ ?_ ?_) ?_)
    · rw [h.program]
      exact hopen'.mpr hopen
    · rw [h.program]
      exact huser
    · exact h.slot_self.trans hslot
    · rw [h.farewell_self hconn', ← hrest]
      simp [l']
    · apply h.endOk_other hconn' (hactive p.other)
      · simp [l', hne]
      · rfl
      · exact iff_of_false hgone hgone'
  · exact fun hspent => absurd hspent hnotSpent

/-! ## Closing -/

/-- The side has closed its end of a connection. -/
structure Closes (q q' : Pair) (p : Side) (i : ℕ) (l : Link) (c : ConnId) : Prop where
  changes : q.Changes q' p i (closeLink p l) (closeSocket ac (q.program p) c)
  closed : q'.Gone p (closeLink p l)
  slot : q'.slot p = if ((q.program p).conn c).user = none then q.slot p else none

/-- A side closes its end of a connection, from which it may just have taken what arrived. -/
lemma Ok.shut {q : Pair} (hq : q.Ok) {p : Side} {i : ℕ} {l l₁ : Link} {c : ConnId}
    (hi : q.links[i]? = some l) (hc : l.conn p = some c) (hopen : (q.program p).IsOpen c)
    (hconn : l₁.conn = l.conn) (hflight : l₁.flight p.other = l.flight p.other)
    (hactive : ∀ {q' : Pair}, q.Closes ac q' p i l₁ c → q.Active l →
      q'.Active (closeLink p l₁) ∨ q'.Spent (closeLink p l₁) ∧ ∀ r, q'.slot r = none) :
    ((q.setLink i l₁).setProgram p (closeSocket ac (q.program p) c)).Ok := by
  have hlen : i < q.links.length := (List.getElem?_eq_some_iff.mp hi).1
  have hbound : ((q.program p).conn c).user ≠ none →
      privateConn (q.program p) (q.name p.other) = some c := by
    intro huser
    rcases hq.links i l hi with ⟨-, h⟩ | h
    · exact (h p).slot_of_user hc hopen huser
    · exact absurd (h.user hc hopen) huser
  obtain ⟨htouch, hnconns, hclosed, hslot⟩ := (hq.sole p).close ac hopen hbound
  have hc₁ : l₁.conn p = some c := by rw [hconn, hc]
  have h : q.Changes ((q.setLink i l₁).setProgram p (closeSocket ac (q.program p) c)) p i
      (closeLink p l₁) (closeSocket ac (q.program p) c) := by
    constructor
    · rfl
    · have hself : (q.setLink i l₁).links[i]? = some l₁ := List.getElem?_set_self hlen
      rw [links_setProgram_close (q.setLink i l₁) p _ hself hc₁ hopen hclosed]
      · exact List.set_set _
      · intro j m d hj hm hd hdopen
        have hm' : q.links[j]? = some m := by
          rw [← hm, setLink, List.getElem?_set_ne hj.symm]
        have hdlt := hq.lt j m p d hm' hd
        have hdc : d ≠ c := by
          rintro rfl
          exact hj (hq.apart j i m l p d hm' hi hd hc)
        exact (htouch.isOpen d hdlt hdc).mpr hdopen
    · exact program_setProgram (q.setLink i l₁) p _
    · exact program_setProgram_other (q.setLink i l₁) p _
  generalize (q.setLink i l₁).setProgram p (closeSocket ac (q.program p) c) = q' at h ⊢
  have hc' : (closeLink p l₁).conn p = some c := hc₁
  have hconn' : (closeLink p l₁).conn p.other = l.conn p.other := congrFun hconn p.other
  have hcloses : q.Closes ac q' p i l₁ c :=
    ⟨h, (h.gone_self hc').mpr hclosed, h.slot_self.trans hslot⟩
  apply hq.update hi h htouch hconn' hc' (.inl hc)
  · rw [hnconns]
    exact hq.lt i l p c hi hc
  · exact hactive hcloses
  · refine fun hspent => ⟨.of_ends (.inl hcloses.closed) ?_, ?_⟩
    · apply h.spent_other hconn' hspent
      · intro x hx
        simp only [closeLink, Function.update_self, List.mem_append, hflight] at hx
        exact hx.imp_right List.mem_singleton.mp
      · intro _
        simp [closeLink]
    · rw [hcloses.slot, if_pos (hspent.user hc hopen)]

/-- The end of the stream is handled. -/
lemma Ok.deliver_closed {q : Pair} (hq : q.Ok) {p : Side} {i : ℕ} {l : Link} {c : ConnId}
    {rest : List Item} (hi : q.links[i]? = some l) (hc : l.conn p = some c)
    (hopen : (q.program p).IsOpen c) (hflight : l.flight p = .closed :: rest) :
    ((q.setLink i { l with flight := Function.update l.flight p rest }).handleItem ac p c
      .closed).Ok := by
  have hne := p.other_ne
  let l₁ : Link := { l with flight := Function.update l.flight p rest }
  have hconn : l₁.conn = l.conn := rfl
  have hflight₁ : l₁.flight p.other = l.flight p.other := by simp [l₁, hne]
  refine hq.shut ac hi hc hopen hconn hflight₁ ?_
  -- an active connection is closed when the other end has gone
  intro q' h hactive
  have hend : Item.closed :: (rest ++ l.unsent p.other) = l.flight p ++ l.unsent p.other := by
    rw [hflight]
    rfl
  cases hactive p with
  | bare _ _ incoming =>
      rw [← hend] at incoming
      exact absurd (List.cons.inj incoming).1 (by simp)
  | gone gone _ _ => exact absurd hopen ((gone_iff hc).mp gone)
  | bound d conn _ user slot incoming =>
      obtain rfl := Option.some.inj (hc.symm.trans conn)
      rw [← hend, farewell] at incoming
      split at incoming
      · next hgone =>
          obtain ⟨-, hunsent⟩ := List.append_eq_nil_iff.mp (List.cons.inj incoming).2
          have hconn' : (closeLink p l₁).conn p.other = l.conn p.other := rfl
          refine .inl (.of_ends (.gone h.closed ?_ ?_) (.gone ?_ ?_ ?_))
          · rw [h.slot, if_neg user]
          · simp [closeLink]
          · exact (h.changes.gone_other hconn').mpr hgone
          · rw [h.changes.slot_other]
            exact ((hactive p.other).of_gone hgone).1
          · simp [closeLink, hne, hunsent]
      · cases incoming

lemma Ok.deliver {q : Pair} (hq : q.Ok) {p : Side} {i : ℕ} (henabled : q.enabled (.deliver p i)) :
    (q.exec ac (.deliver p i)).Ok := by
  obtain ⟨l, hi, ⟨c, hc, hopen⟩, hflight⟩ := henabled
  have hc' : l.conn p = some c := hc
  unfold exec
  dsimp only
  rw [hi]
  dsimp only
  rw [hc']
  cases hitems : l.flight p with
  | nil => exact absurd hitems hflight
  | cons x rest =>
      cases x with
      | registration username => exact hq.deliver_registration ac hi hc' hopen hitems
      | closed => exact hq.deliver_closed ac hi hc' hopen hitems

/-- A side closes its end of the connection that the two talk on. -/
lemma Active.close {q q' : Pair} {l : Link} {p : Side} {i : ℕ} {c : ConnId}
    (hactive : q.Active l) (h : q.Closes ac q' p i l c) (hopen : ¬ q.Gone p l)
    (hslot : q'.slot p = none) :
    q'.Active (closeLink p l) ∨ q'.Spent (closeLink p l) ∧ ∀ r, q'.slot r = none := by
  have hconn' : (closeLink p l).conn p.other = l.conn p.other := rfl
  have hself : q'.EndOk (closeLink p l) p := by
    refine .gone h.closed hslot ?_
    simp [closeLink]
  -- the other end is told
  have hback : q.farewell p.other l = [] := by
    rw [farewell, Side.other_other, if_neg hopen]
  have hback' : q'.farewell p.other (closeLink p l) = [.closed] := by
    rw [farewell, Side.other_other, if_pos h.closed]
  have hflight : (closeLink p l).flight p.other = l.flight p.other ++ [.closed] := by
    simp [closeLink]
  have hunsent : (closeLink p l).unsent p = [] := by
    simp [closeLink]
  cases hactive p.other with
  | bare open_unbound slot incoming =>
      rw [hback, Side.other_other] at incoming
      have hunbound : ∀ d, (closeLink p l).conn p.other = some d →
          (q'.program p.other).IsOpen d ∧ ((q'.program p.other).conn d).user = none := by
        rw [h.changes.other]
        exact open_unbound
      have hslot' : q'.slot p.other = none := h.changes.slot_other.trans slot
      cases hout : l.unsent p with
      | nil =>
          rw [hout, List.append_nil] at incoming
          refine .inl (.of_ends hself (.bare hunbound hslot' ?_))
          rw [hflight, incoming, Side.other_other, hunsent, hback', h.changes.name]
          rfl
      | cons x rest =>
          -- the registration has not been sent, and will not be
          have hnone : l.flight p.other = [] := by
            rw [hout] at incoming
            cases hitems : l.flight p.other with
            | nil => rfl
            | cons y ys =>
                rw [hitems] at incoming
                simp at incoming
          refine .inr ⟨.of_ends (.inl h.closed) (.inr ⟨?_, ?_, hunsent⟩), fun r => ?_⟩
          · exact fun d hd => (hunbound d hd).2
          · rw [hflight, hnone]
            simp
          · rcases p.eq_or_other r with rfl | rfl
            · exact hslot
            · exact hslot'
  | bound d conn isOpen user slot incoming =>
      rw [hback, Side.other_other, List.append_eq_nil_iff] at incoming
      refine .inl (.of_ends hself (.bound d conn ?_ ?_ (h.changes.slot_other.trans slot) ?_))
      · rw [h.changes.other]
        exact isOpen
      · rw [h.changes.other]
        exact user
      · rw [hflight, incoming.1, Side.other_other, hunsent, hback']
        rfl
  | gone gone slot unsent =>
      refine .inl (.of_ends hself (.gone ?_ (h.changes.slot_other.trans slot) ?_))
      · exact (h.changes.gone_other hconn').mpr gone
      · simp [closeLink, p.other_ne, unsent]

lemma Ok.stop {q : Pair} (hq : q.Ok) (p : Side) : (q.exec ac (.stop p)).Ok := by
  unfold exec
  dsimp only
  cases hslotc : q.slot p with
  | none => exact hq
  | some c =>
      obtain ⟨l, hi, hactive⟩ : ∃ l, q.links[0]? = some l ∧ q.Active l := by
        rcases hq.slots with h | h
        · exact h
        · rw [h p] at hslotc
          cases hslotc
      cases hactive p with
      | bare _ slot _ => simp [hslotc] at slot
      | gone _ slot _ => simp [hslotc] at slot
      | bound d conn isOpen user slot _ =>
          obtain rfl := Option.some.inj (hslotc.symm.trans slot)
          have hset : q.setLink 0 l = q := by
            obtain ⟨hlen, rfl⟩ := List.getElem?_eq_some_iff.mp hi
            unfold setLink
            rw [List.set_getElem_self hlen]
          have hopen : ¬ q.Gone p l := fun hgone => (gone_iff conn).mp hgone isOpen
          have hshut := hq.shut ac hi conn isOpen rfl rfl fun h hactive =>
            hactive.close ac h hopen (by rw [h.slot, if_neg user])
          rwa [hset] at hshut

/-! ## Connecting -/

/-- No side has a session when every connection is spent. -/
lemma Ok.slot_eq_none {q : Pair} (hq : q.Ok) (hspent : ∀ l ∈ q.links, q.Spent l) (p : Side) :
    q.slot p = none := by
  rcases hq.slots with ⟨l, hl, hactive⟩ | h
  · have hend := hactive p
    cases hend with
    | bare _ slot _ => exact slot
    | gone _ slot _ => exact slot
    | bound c conn isOpen user _ _ =>
        exact absurd ((hspent l (List.mem_of_getElem? hl)).user conn isOpen) user
  · exact h p

/-- A new connection, of which one side has an end, when all earlier ones are spent. -/
lemma Ok.cons {q q' : Pair} (hq : q.Ok) (hspent : ∀ l ∈ q.links, q.Spent l) {p : Side} {l : Link}
    {s : State} (hname : q'.name = q.name) (hlinks : q'.links = l :: q.links)
    (hprogram : q'.program p = s) (hother : q'.program p.other = q.program p.other)
    (htouch : Touches (q.program p) s (q.name p.other) (q.program p).nconns)
    (hlt : (q.program p).nconns < s.nconns)
    (hnew : ∀ {r d}, l.conn r = some d → r = p ∧ d = (q.program p).nconns)
    (hactive : q'.Active l) : q'.Ok := by
  -- the new end is at none of the old connections
  have hfresh : ∀ {j : ℕ} {m : Link} {r : Side} {d : ConnId}, q.links[j]? = some m →
      m.conn r = some d → l.conn r ≠ some d := by
    intro j m r d hm hd hld
    obtain ⟨rfl, rfl⟩ := hnew hld
    exact absurd (hq.lt j m r _ hm hd) (lt_irrefl _)
  constructor
  · intro r
    rw [hname]
    rcases p.eq_or_other r with rfl | rfl
    · rw [hprogram]
      exact htouch.sole
    · rw [hother]
      exact hq.sole _
  · intro j m r d hm hd
    rw [hlinks] at hm
    cases j with
    | zero =>
        obtain rfl := Option.some.inj hm
        obtain ⟨rfl, rfl⟩ := hnew hd
        rw [hprogram]
        exact hlt
    | succ j =>
        have hdlt := hq.lt j m r d hm hd
        rcases p.eq_or_other r with rfl | rfl
        · rw [hprogram]
          exact hdlt.trans_le htouch.nconns_le
        · rw [hother]
          exact hdlt
  · intro j k m m' r d hm hm' hd hd'
    rw [hlinks] at hm hm'
    cases j with
    | zero =>
        obtain rfl := Option.some.inj hm
        cases k with
        | zero => rfl
        | succ k => exact absurd hd (hfresh hm' hd')
    | succ j =>
        cases k with
        | zero =>
            obtain rfl := Option.some.inj hm'
            exact absurd hd' (hfresh hm hd)
        | succ k => rw [hq.apart j k m m' r d hm hm' hd hd']
  · intro j m hm
    rw [hlinks] at hm
    cases j with
    | zero =>
        obtain rfl := Option.some.inj hm
        exact .inl ⟨rfl, hactive⟩
    | succ j =>
        refine .inr (Spent.frame (fun r d hd => ?_) (hspent m (List.mem_of_getElem? hm)))
        have hdlt := hq.lt j m r d hm hd
        rcases p.eq_or_other r with rfl | rfl
        · rw [hprogram]
          exact ⟨htouch.isOpen d hdlt (ne_of_lt hdlt), htouch.user d hdlt (ne_of_lt hdlt)⟩
        · rw [hother]
          exact ⟨Iff.rfl, rfl⟩
  · exact .inl ⟨l, by rw [hlinks]; rfl, hactive⟩

lemma Ok.start {q : Pair} (hq : q.Ok) {p : Side} {fd : ℕ} {addr : Bytes}
    (hfree : (q.program p).sock fd = none) (hspent : ∀ l ∈ q.links, q.Spent l) :
    (q.exec ac (.start p fd addr)).Ok := by
  obtain ⟨htouch, hnconns, hopen, huser, hslot⟩ :=
    (hq.sole p).connected ac hfree (some (q.name p)) addr
  have hne := p.other_ne
  let s' := gotPrivateAddr ac (q.program p) (some (q.name p)) fd (q.name p.other) addr
  let l : Link :=
    { conn := Function.update (fun _ => none) p (some (q.program p).nconns)
      unsent := Function.update (fun _ => []) p [.registration (q.name p)]
      flight := fun _ => [] }
  have hc : l.conn p = some (q.program p).nconns := by simp [l]
  have hc' : l.conn p.other = none := by simp [l, hne]
  have hlinks : (q.exec ac (.start p fd addr)).links = l :: q.links := by
    have hsame : (q.setProgram p s').links = q.links := by
      refine links_setProgram_open q p s' fun m hm d hd hdopen => ?_
      obtain ⟨j, hj⟩ := List.mem_iff_getElem?.mp hm
      have hdlt := hq.lt j m p d hj hd
      exact (htouch.isOpen d hdlt (ne_of_lt hdlt)).mpr hdopen
    exact congrArg (l :: ·) hsame
  have hname : (q.exec ac (.start p fd addr)).name = q.name := rfl
  have hprogram : (q.exec ac (.start p fd addr)).program p = s' := program_setProgram q p s'
  have hother : (q.exec ac (.start p fd addr)).program p.other = q.program p.other :=
    program_setProgram_other q p s'
  generalize q.exec ac (.start p fd addr) = q' at hlinks hname hprogram hother ⊢
  have hlt : (q.program p).nconns < s'.nconns := by
    rw [hnconns]
    exact Nat.lt_succ_self _
  apply hq.cons hspent hname hlinks hprogram hother htouch hlt
  · intro r d hd
    rcases p.eq_or_other r with rfl | rfl
    · exact ⟨rfl, (Option.some.inj (hc.symm.trans hd)).symm⟩
    · rw [hc'] at hd
      cases hd
  · -- this end is bound, and the other one has the registration to come
    refine .of_ends (p := p) (.bound _ hc ?_ ?_ ?_ ?_) (.bare (fun d hd => ?_) ?_ ?_)
    · rw [hprogram]
      exact hopen
    · rw [hprogram]
      exact huser
    · rw [slot, hprogram, hname]
      exact hslot
    · rw [farewell, if_neg (not_gone_of_waiting hc')]
      simp [l, hne]
    · rw [hc'] at hd
      cases hd
    · rw [slot, hother, hname]
      exact hq.slot_eq_none hspent p.other
    · have hgone : ¬ q'.Gone p l := by
        rw [gone_iff hc, hprogram]
        exact not_not_intro hopen
      rw [farewell, Side.other_other, if_neg hgone, hname]
      simp [l]

end Pair

end EpollChat

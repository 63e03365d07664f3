import EpollChat.Construction.PrivateSession
import EpollChat.Properties.SolePeer

/-!
# The connections between two clients

The invariant of two clients that make each connection only after all earlier ones are spent: the
last connection is the one they talk on, unless it is spent as well, and no session is on any other
(`Ok`).  An end of the last connection is bare until the registration has come, then bound, and
gone once it is closed, and what is on its way to an end is what its state leaves to come
(`EndOk`).

Every event but a start changes one connection and the program of one side (`Changes`), and
`Ok.update` says what has to be shown of such a change.
-/

namespace EpollChat

@[simp] lemma Side.other_other (p : Side) : p.other.other = p := by
  cases p <;> rfl

lemma Side.eq_or_other (p r : Side) : r = p ∨ r = p.other := by
  cases p <;> cases r <;> simp [Side.other]

lemma Side.other_ne (p : Side) : p.other ≠ p := by
  cases p <;> simp [Side.other]

namespace Pair

/-! ## The ends of a connection -/

/-- This end of the connection has been closed. -/
def Gone (q : Pair) (p : Side) (l : Link) : Prop := l.conn p ≠ none ∧ ¬ q.OpenAt p l

/-- The connection will not bind anybody any more: each end is closed, or has nobody bound to it
and no registration on its way. -/
def Spent (q : Pair) (l : Link) : Prop :=
  ∀ p, q.Gone p l ∨
    (∀ c ∈ l.conn p, ((q.program p).conn c).user = none) ∧ (∀ x ∈ l.flight p, x = .closed) ∧
      l.unsent p.other = []

instance decidableGone (q : Pair) (p : Side) (l : Link) : Decidable (q.Gone p l) := by
  unfold Gone
  infer_instance

instance decidableSpent (q : Pair) (l : Link) : Decidable (q.Spent l) :=
  decidable_of_iff
    (∀ p ∈ [Side.a, Side.b], q.Gone p l ∨
      (∀ c ∈ l.conn p, ((q.program p).conn c).user = none) ∧ (∀ x ∈ l.flight p, x = .closed) ∧
        l.unsent p.other = [])
    ⟨fun h p => h p (by cases p <;> simp), fun h p _ => h p⟩

/-- What an end that is bound finds on its way: what the other end has sent when closing. -/
def farewell (q : Pair) (p : Side) (l : Link) : List Item :=
  if q.Gone p.other l then [.closed] else []

/-- The state of an end of the last connection, and what is on its way there. -/
inductive EndOk (q : Pair) (l : Link) (p : Side) : Prop
  | bare (open_unbound : ∀ c, l.conn p = some c →
        (q.program p).IsOpen c ∧ ((q.program p).conn c).user = none)
      (slot : q.slot p = none)
      (incoming : l.flight p ++ l.unsent p.other =
        .registration (q.name p.other) :: q.farewell p l)
  | bound (c : ConnId) (conn : l.conn p = some c) (isOpen : (q.program p).IsOpen c)
      (user : ((q.program p).conn c).user ≠ none) (slot : q.slot p = some c)
      (incoming : l.flight p ++ l.unsent p.other = q.farewell p l)
  | gone (gone : q.Gone p l) (slot : q.slot p = none) (unsent : l.unsent p = [])

/-- The connection is the one the two talk on. -/
def Active (q : Pair) (l : Link) : Prop := ∀ p, q.EndOk l p

/-- The invariant: the last connection is active or spent, the earlier ones are spent, and no side
has a session unless the last one is active. -/
structure Ok (q : Pair) : Prop where
  sole : ∀ p, Sole (q.program p) (q.name p.other)
  lt : ∀ (i : ℕ) (l : Link) (p : Side) (c : ConnId), q.links[i]? = some l →
    l.conn p = some c → c < (q.program p).nconns
  apart : ∀ (i j : ℕ) (l l' : Link) (p : Side) (c : ConnId), q.links[i]? = some l →
    q.links[j]? = some l' → l.conn p = some c → l'.conn p = some c → i = j
  links : ∀ (i : ℕ) (l : Link), q.links[i]? = some l → i = 0 ∧ q.Active l ∨ q.Spent l
  slots : (∃ l, q.links[0]? = some l ∧ q.Active l) ∨ ∀ p, q.slot p = none

lemma openAt_iff {q : Pair} {p : Side} {l : Link} {c : ConnId} (h : l.conn p = some c) :
    q.OpenAt p l ↔ (q.program p).IsOpen c := by
  simp [OpenAt, h]

lemma gone_iff {q : Pair} {p : Side} {l : Link} {c : ConnId} (h : l.conn p = some c) :
    q.Gone p l ↔ ¬ (q.program p).IsOpen c := by
  simp [Gone, openAt_iff h, h]

lemma not_gone_of_waiting {q : Pair} {p : Side} {l : Link} (h : l.conn p = none) :
    ¬ q.Gone p l := fun hgone => hgone.1 h

/-- The state of an end depends on what its program knows of the connection, on its slot, on what
is on its way, and on whether the other end has gone. -/
lemma EndOk.congr {q q' : Pair} {l l' : Link} {p : Side} (h : q.EndOk l p)
    (hname : q'.name = q.name) (hconn : l'.conn p = l.conn p)
    (hframe : ∀ d, l.conn p = some d →
      ((q'.program p).IsOpen d ↔ (q.program p).IsOpen d) ∧
        ((q'.program p).conn d).user = ((q.program p).conn d).user)
    (hslot : q'.slot p = q.slot p)
    (hincoming : l'.flight p ++ l'.unsent p.other = l.flight p ++ l.unsent p.other)
    (hunsent : l.unsent p = [] → l'.unsent p = [])
    (hgone : q'.Gone p.other l' ↔ q.Gone p.other l) : q'.EndOk l' p := by
  have hfarewell : q'.farewell p l' = q.farewell p l := by
    unfold farewell
    simp only [hgone]
  cases h with
  | bare open_unbound slot incoming =>
      refine .bare (fun c hc => ?_) (hslot.trans slot) ?_
      · rw [hconn] at hc
        rw [(hframe c hc).1, (hframe c hc).2]
        exact open_unbound c hc
      · rw [hfarewell, hname, hincoming]
        exact incoming
  | bound c conn isOpen user slot incoming =>
      refine .bound c (hconn.trans conn) ((hframe c conn).1.mpr isOpen) ?_ (hslot.trans slot) ?_
      · rw [(hframe c conn).2]
        exact user
      · rw [hfarewell, hincoming]
        exact incoming
  | gone gone slot unsent =>
      refine .gone ?_ (hslot.trans slot) (hunsent unsent)
      obtain ⟨c, hc⟩ := Option.ne_none_iff_exists'.mp gone.1
      rw [gone_iff (hconn.trans hc), (hframe c hc).1, ← gone_iff hc]
      exact gone

section Frame

variable {q q' : Pair} {l : Link}
  (hframe : ∀ p d, l.conn p = some d →
    ((q'.program p).IsOpen d ↔ (q.program p).IsOpen d) ∧
      ((q'.program p).conn d).user = ((q.program p).conn d).user)
include hframe

lemma gone_frame (p : Side) : q'.Gone p l ↔ q.Gone p l := by
  cases hc : l.conn p with
  | none => exact iff_of_false (not_gone_of_waiting hc) (not_gone_of_waiting hc)
  | some d => rw [gone_iff hc, gone_iff hc, (hframe p d hc).1]

lemma Spent.frame (h : q.Spent l) : q'.Spent l := by
  intro p
  rcases h p with hgone | ⟨huser, hflight, hunsent⟩
  · exact .inl ((gone_frame hframe p).mpr hgone)
  · refine .inr ⟨fun c hc => ?_, hflight, hunsent⟩
    rw [(hframe p c hc).2]
    exact huser c hc

lemma Active.frame (hname : q'.name = q.name) (hslot : ∀ p, q'.slot p = q.slot p)
    (h : q.Active l) : q'.Active l := fun p =>
  (h p).congr hname rfl (hframe p) (hslot p) rfl id (gone_frame hframe p.other)

end Frame

lemma EndOk.of_gone {q : Pair} {l : Link} {p : Side} (h : q.EndOk l p) (hgone : q.Gone p l) :
    q.slot p = none ∧ l.unsent p = [] := by
  obtain ⟨c, hc⟩ := Option.ne_none_iff_exists'.mp hgone.1
  have hclosed := (gone_iff hc).mp hgone
  cases h with
  | bare open_unbound _ _ => exact absurd (open_unbound c hc).1 hclosed
  | bound d conn isOpen _ _ _ =>
      obtain rfl := Option.some.inj (hc.symm.trans conn)
      exact absurd isOpen hclosed
  | gone _ slot unsent => exact ⟨slot, unsent⟩

lemma EndOk.slot_of_user {q : Pair} {l : Link} {p : Side} (h : q.EndOk l p) {c : ConnId}
    (hc : l.conn p = some c) (hopen : (q.program p).IsOpen c)
    (huser : ((q.program p).conn c).user ≠ none) : q.slot p = some c := by
  cases h with
  | bare open_unbound _ _ => exact absurd (open_unbound c hc).2 huser
  | bound d conn _ _ slot _ => rw [slot, ← conn, hc]
  | gone gone _ _ => exact absurd hopen ((gone_iff hc).mp gone)

lemma Spent.user {q : Pair} {l : Link} {p : Side} (h : q.Spent l) {c : ConnId}
    (hc : l.conn p = some c) (hopen : (q.program p).IsOpen c) :
    ((q.program p).conn c).user = none := by
  rcases h p with hgone | ⟨hunbound, -, -⟩
  · exact absurd hopen ((gone_iff hc).mp hgone)
  · exact hunbound c hc

/-! ## One connection changes -/

/-- One connection changes, and the program of one side. -/
structure Changes (q q' : Pair) (p : Side) (i : ℕ) (l' : Link) (s : State) : Prop where
  name : q'.name = q.name
  links : q'.links = q.links.set i l'
  program : q'.program p = s
  other : q'.program p.other = q.program p.other

namespace Changes

variable {q q' : Pair} {p : Side} {i : ℕ} {l l' : Link} {s : State} (h : q.Changes q' p i l' s)
include h

lemma slot_self : q'.slot p = privateConn s (q.name p.other) := by
  rw [slot, h.program, h.name]

lemma slot_other : q'.slot p.other = q.slot p.other := by
  rw [slot, slot, h.other, h.name]

lemma gone_self {c : ConnId} (hc : l'.conn p = some c) : q'.Gone p l' ↔ ¬ s.IsOpen c := by
  rw [gone_iff hc, h.program]

variable (hconn : l'.conn p.other = l.conn p.other)
include hconn

lemma gone_other : q'.Gone p.other l' ↔ q.Gone p.other l := by
  rw [Gone, Gone, OpenAt, OpenAt, hconn, h.other]

lemma farewell_self : q'.farewell p l' = q.farewell p l := by
  unfold farewell
  simp only [h.gone_other hconn]

/-- The other end stays as it is, if what is on its way there does. -/
lemma endOk_other (hend : q.EndOk l p.other)
    (hincoming : l'.flight p.other ++ l'.unsent p = l.flight p.other ++ l.unsent p)
    (hunsent : l'.unsent p.other = l.unsent p.other) (hgone : q'.Gone p l' ↔ q.Gone p l) :
    q'.EndOk l' p.other := by
  apply hend.congr h.name hconn
  · intro d _
    rw [h.other]
    exact ⟨Iff.rfl, rfl⟩
  · exact h.slot_other
  · rw [Side.other_other]
    exact hincoming
  · intro hnil
    rw [hunsent, hnil]
  · rw [Side.other_other]
    exact hgone

/-- The other end of a spent connection, if nothing but the end of the stream is sent there. -/
lemma spent_other (hspent : q.Spent l)
    (hflight : ∀ x ∈ l'.flight p.other, x ∈ l.flight p.other ∨ x = .closed)
    (hunsent : l.unsent p = [] → l'.unsent p = []) :
    q'.Gone p.other l' ∨ (∀ c ∈ l'.conn p.other, ((q'.program p.other).conn c).user = none) ∧
      (∀ x ∈ l'.flight p.other, x = .closed) ∧ l'.unsent p = [] := by
  have hend := hspent p.other
  rw [Side.other_other] at hend
  rcases hend with hgone | ⟨hunbound, hitems, hnil⟩
  · exact .inl ((h.gone_other hconn).mpr hgone)
  · refine .inr ⟨?_, fun x hx => (hflight x hx).elim (hitems x) id, hunsent hnil⟩
    rw [hconn, h.other]
    exact hunbound

end Changes

/-- Both ends are in order. -/
lemma Active.of_ends {q : Pair} {l : Link} {p : Side} (h : q.EndOk l p) (h' : q.EndOk l p.other) :
    q.Active l := by
  intro r
  rcases p.eq_or_other r with rfl | rfl
  · exact h
  · exact h'

lemma Spent.of_ends {q : Pair} {l : Link} {p : Side}
    (h : q.Gone p l ∨ (∀ c ∈ l.conn p, ((q.program p).conn c).user = none) ∧
      (∀ x ∈ l.flight p, x = .closed) ∧ l.unsent p.other = [])
    (h' : q.Gone p.other l ∨ (∀ c ∈ l.conn p.other, ((q.program p.other).conn c).user = none) ∧
      (∀ x ∈ l.flight p.other, x = .closed) ∧ l.unsent p = []) : q.Spent l := by
  intro r
  rcases p.eq_or_other r with rfl | rfl
  · exact h
  · rw [Side.other_other]
    exact h'

section Update

variable {q q' : Pair} {p : Side} {i : ℕ} {l l' : Link} {s : State}

lemma Changes.links_self (h : q.Changes q' p i l' s) (hi : q.links[i]? = some l) :
    q'.links[i]? = some l' := by
  rw [h.links, List.getElem?_set_self (List.getElem?_eq_some_iff.mp hi).1]

lemma Changes.links_of_ne (h : q.Changes q' p i l' s) {j : ℕ} (hj : j ≠ i) :
    q'.links[j]? = q.links[j]? := by
  rw [h.links, List.getElem?_set_ne hj.symm]

variable {c : ConnId} (hq : q.Ok) (hi : q.links[i]? = some l) (h : q.Changes q' p i l' s)
  (htouch : Touches (q.program p) s (q.name p.other) c)
  (hconn : l'.conn p.other = l.conn p.other) (hc : l'.conn p = some c)
  (hnew : l.conn p = some c ∨ c = (q.program p).nconns)

include hq hi h hconn hc hnew in
/-- Where a connection of the new state has an end, it had it before, or the end is new. -/
lemma Changes.connected {j : ℕ} {m : Link} {r : Side} {d : ConnId}
    (hm : q'.links[j]? = some m) (hd : m.conn r = some d) :
    (∃ m', q.links[j]? = some m' ∧ m'.conn r = some d) ∧ d < (q.program r).nconns ∨
      j = i ∧ r = p ∧ d = c ∧ c = (q.program p).nconns := by
  by_cases hj : j = i
  · subst hj
    obtain rfl := Option.some.inj ((h.links_self hi).symm.trans hm)
    rcases p.eq_or_other r with rfl | rfl
    · obtain rfl := Option.some.inj (hc.symm.trans hd)
      rcases hnew with hold | hfresh
      · exact .inl ⟨⟨l, hi, hold⟩, hq.lt j l r c hi hold⟩
      · exact .inr ⟨rfl, rfl, rfl, hfresh⟩
    · have hold := hconn.symm.trans hd
      exact .inl ⟨⟨l, hi, hold⟩, hq.lt j l _ d hi hold⟩
  · rw [h.links_of_ne hj] at hm
    exact .inl ⟨⟨m, hm, hd⟩, hq.lt j m r d hm hd⟩

include hq hi h hconn hc hnew in
/-- Different connections still have different ends. -/
lemma Changes.apart {j k : ℕ} {m m' : Link} {r : Side} {d : ConnId} (hm : q'.links[j]? = some m)
    (hm' : q'.links[k]? = some m') (hd : m.conn r = some d) (hd' : m'.conn r = some d) :
    j = k := by
  rcases h.connected hq hi hconn hc hnew hm hd with ⟨⟨n, hn, hnd⟩, hlt⟩ | ⟨rfl, rfl, rfl, hfresh⟩
  · rcases h.connected hq hi hconn hc hnew hm' hd' with ⟨⟨n', hn', hnd'⟩, -⟩ |
      ⟨rfl, rfl, rfl, hfresh⟩
    · exact hq.apart j k n n' r d hn hn' hnd hnd'
    · exact absurd hlt (by rw [hfresh]; exact lt_irrefl _)
  · rcases h.connected hq hi hconn hc hnew hm' hd' with ⟨-, hlt⟩ | ⟨rfl, -, -, -⟩
    · exact absurd hlt (by rw [hfresh]; exact lt_irrefl _)
    · rfl

include hq hi h htouch hnew in
/-- The other connections are as they were. -/
lemma Changes.frame {j : ℕ} {m : Link} (hj : j ≠ i) (hm : q.links[j]? = some m) {r : Side}
    {d : ConnId} (hd : m.conn r = some d) :
    ((q'.program r).IsOpen d ↔ (q.program r).IsOpen d) ∧
      ((q'.program r).conn d).user = ((q.program r).conn d).user := by
  rcases p.eq_or_other r with rfl | rfl
  · have hdlt := hq.lt j m r d hm hd
    have hne : d ≠ c := by
      rintro rfl
      rcases hnew with hold | hfresh
      · exact hj (hq.apart j i m l r d hm hi hd hold)
      · exact absurd hdlt (by rw [hfresh]; exact lt_irrefl _)
    rw [h.program]
    exact ⟨htouch.isOpen d hdlt hne, htouch.user d hdlt hne⟩
  · rw [h.other]
    exact ⟨Iff.rfl, rfl⟩

include hq hi h htouch hconn hc hnew in
/-- **One connection changes.** The program of one side has changed nothing but the connection at
its end of one link, an active link stays active or is spent, and a spent one stays spent. -/
lemma Ok.update (hlt : c < s.nconns)
    (hactive : q.Active l → q'.Active l' ∨ q'.Spent l' ∧ ∀ r, q'.slot r = none)
    (hspent : q.Spent l → q'.Spent l' ∧ q'.slot p = q.slot p) : q'.Ok := by
  have hslot : q.Spent l → ∀ r, q'.slot r = q.slot r := by
    intro hl r
    rcases p.eq_or_other r with rfl | rfl
    · exact (hspent hl).2
    · exact h.slot_other
  have hslot' : ∀ r, i ≠ 0 → q'.slot r = q.slot r := by
    intro r hne
    rcases hq.links i l hi with ⟨hzero, -⟩ | hl
    · exact absurd hzero hne
    · exact hslot hl r
  constructor
  · intro r
    rw [h.name]
    rcases p.eq_or_other r with rfl | rfl
    · rw [h.program]
      exact htouch.sole
    · rw [h.other]
      exact hq.sole _
  · intro j m r d hm hd
    rcases h.connected hq hi hconn hc hnew hm hd with ⟨-, hdlt⟩ | ⟨-, rfl, rfl, -⟩
    · rcases p.eq_or_other r with rfl | rfl
      · rw [h.program]
        exact hdlt.trans_le htouch.nconns_le
      · rw [h.other]
        exact hdlt
    · rw [h.program]
      exact hlt
  · intro j k m m' r d hm hm' hd hd'
    exact h.apart hq hi hconn hc hnew hm hm' hd hd'
  · intro j m hm
    by_cases hj : j = i
    · subst hj
      obtain rfl := Option.some.inj ((h.links_self hi).symm.trans hm)
      rcases hq.links j l hi with ⟨hzero, hl⟩ | hl
      · exact (hactive hl).imp (fun hl' => ⟨hzero, hl'⟩) And.left
      · exact .inr (hspent hl).1
    · have hframe := fun r d hd => h.frame hq hi htouch hnew hj (h.links_of_ne hj ▸ hm)
        (r := r) (d := d) hd
      rw [h.links_of_ne hj] at hm
      rcases hq.links j m hm with ⟨rfl, hm'⟩ | hm'
      · exact .inl ⟨rfl, hm'.frame hframe h.name fun r => hslot' r (Ne.symm hj)⟩
      · exact .inr (hm'.frame hframe)
  · by_cases hzero : i = 0
    · subst hzero
      have hl' : q'.Active l' ∨ ∀ r, q'.slot r = none := by
        rcases hq.slots with ⟨m, hm, hm'⟩ | hnone
        · obtain rfl := Option.some.inj (hi.symm.trans hm)
          exact (hactive hm').imp_right And.right
        · rcases hq.links 0 l hi with ⟨-, hl⟩ | hl
          · exact (hactive hl).imp_right And.right
          · exact .inr fun r => (hslot hl r).trans (hnone r)
      exact hl'.imp_left fun hl' => ⟨l', h.links_self hi, hl'⟩
    · rcases hq.slots with ⟨m, hm, hm'⟩ | hnone
      · refine .inl ⟨m, by rw [h.links_of_ne (Ne.symm hzero), hm], ?_⟩
        exact hm'.frame (fun r d hd => h.frame hq hi htouch hnew (Ne.symm hzero) hm hd) h.name
          fun r => hslot' r hzero
      · exact .inr fun r => (hslot' r hzero).trans (hnone r)

end Update

/-! ## The program of one side changes -/

section SetProgram

variable (q : Pair) (p : Side) (s : State)

@[simp] lemma name_setProgram : (q.setProgram p s).name = q.name := rfl

@[simp] lemma program_setProgram : (q.setProgram p s).program p = s := by
  simp [setProgram]

@[simp] lemma program_setProgram_other :
    (q.setProgram p s).program p.other = q.program p.other := by
  simp [setProgram, p.other_ne]

/-- Which ends have closed. -/
lemma closed_setProgram_iff {l : Link} :
    q.OpenAt p l ∧ ¬ OpenAt { q with program := Function.update q.program p s } p l ↔
      ∃ c, l.conn p = some c ∧ (q.program p).IsOpen c ∧ ¬ s.IsOpen c := by
  cases hc : l.conn p with
  | none => simp [OpenAt, hc]
  | some c => simp [OpenAt, hc]

/-- If no end closes, the connections stay as they are. -/
lemma links_setProgram_open
    (h : ∀ l ∈ q.links, ∀ d, l.conn p = some d → (q.program p).IsOpen d → s.IsOpen d) :
    (q.setProgram p s).links = q.links := by
  unfold setProgram
  dsimp only
  refine (List.map_congr_left fun l hl => if_neg ?_).trans (List.map_id q.links)
  rw [closed_setProgram_iff]
  rintro ⟨c, hc, hopen, hclosed⟩
  exact hclosed (h l hl c hc hopen)

/-- If one end closes, its connection changes. -/
lemma links_setProgram_close {i : ℕ} {l : Link} {c : ConnId} (hi : q.links[i]? = some l)
    (hc : l.conn p = some c) (hopen : (q.program p).IsOpen c) (hclosed : ¬ s.IsOpen c)
    (hrest : ∀ (j : ℕ) (m : Link) (d : ConnId), j ≠ i → q.links[j]? = some m →
      m.conn p = some d → (q.program p).IsOpen d → s.IsOpen d) :
    (q.setProgram p s).links = q.links.set i (closeLink p l) := by
  have hlen : i < q.links.length := (List.getElem?_eq_some_iff.mp hi).1
  unfold setProgram
  dsimp only
  refine List.ext_getElem? fun j => ?_
  rw [List.getElem?_map]
  by_cases hj : j = i
  · subst hj
    rw [hi, List.getElem?_set_self hlen, Option.map_some,
      if_pos ((closed_setProgram_iff q p s).mpr ⟨c, hc, hopen, hclosed⟩)]
  · rw [List.getElem?_set_ne (Ne.symm hj)]
    cases hm : q.links[j]? with
    | none => rfl
    | some m =>
        rw [Option.map_some, if_neg]
        rw [closed_setProgram_iff]
        rintro ⟨d, hd, hdopen, hdclosed⟩
        exact hdclosed (hrest j m d hj hm hd hdopen)

end SetProgram

/-- No end closes, and then the connection changes. -/
lemma Ok.changes_open {q : Pair} (hq : q.Ok) {p : Side} {s : State}
    (hopen : ∀ d, d < (q.program p).nconns → (q.program p).IsOpen d → s.IsOpen d) (i : ℕ)
    (l' : Link) : q.Changes ((q.setProgram p s).setLink i l') p i l' s := by
  have hlinks : (q.setProgram p s).links = q.links := by
    refine links_setProgram_open q p s fun m hm d hd hdopen => ?_
    obtain ⟨j, hj⟩ := List.mem_iff_getElem?.mp hm
    exact hopen d (hq.lt j m p d hj hd) hdopen
  constructor
  · rfl
  · show (q.setProgram p s).links.set i l' = q.links.set i l'
    rw [hlinks]
  · exact program_setProgram q p s
  · exact program_setProgram_other q p s

/-- The connection changes, and then no end closes. -/
lemma Ok.open_changes {q : Pair} (hq : q.Ok) {p : Side} {s : State} {i : ℕ} {l l' : Link}
    (hi : q.links[i]? = some l) (hconn : l'.conn = l.conn)
    (hopen : ∀ d, d < (q.program p).nconns → (q.program p).IsOpen d → s.IsOpen d) :
    q.Changes ((q.setLink i l').setProgram p s) p i l' s := by
  constructor
  · rfl
  · refine links_setProgram_open (q.setLink i l') p s fun m hm d hd hdopen => ?_
    refine hopen d ?_ hdopen
    obtain ⟨j, hj⟩ := List.mem_iff_getElem?.mp hm
    rw [setLink, List.getElem?_set] at hj
    split at hj
    · split at hj
      · obtain rfl := Option.some.inj hj
        rw [hconn] at hd
        exact hq.lt i l p d hi hd
      · cases hj
    · exact hq.lt j m p d hj hd
  · exact program_setProgram (q.setLink i l') p s
  · exact program_setProgram_other (q.setLink i l') p s

end Pair

end EpollChat

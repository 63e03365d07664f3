import EpollChat.Framework.Simulation
import Mathlib.Data.Set.Insert

/-!
# A messenger

Users come and go, send each other messages and block each other.  Everybody has a mail: what was
said to them, and who came and went.  A message reaches its recipient exactly if the recipient has
not blocked the sender, and the notices of a user's coming and going reach the others that are
online, except those the user has blocked.

A user who is present may stop being online without going (`Deed.doze`), and is gone when somebody
notices.

`mem_mail` traces the mail back: whatever is in it was posted by a deed, which was done when the
circumstances allowed it.
-/

namespace EpollChat

/-- What somebody is sent. -/
inductive Letter (U M : Type*)
  | said (sender : U) (msg : M)
  | came (subject : U)
  | went (subject : U)

/-- What users do. -/
inductive Deed (U M : Type*)
  | come (u : U)
  | go (u : U)
  /-- Those who are not awake are no longer online. -/
  | doze (awake : Set U)
  | say (u v : U) (msg : M)
  /-- Say something to everybody else who is online. -/
  | shout (u : U) (msg : M)
  | block (u v : U)
  | unblock (u v : U)

/-- Who is present, who of them is online, who has blocked whom, and what everybody was sent. -/
structure Messenger (U M : Type*) where
  present : Set U
  online : Set U
  blocks : U → Set U
  mail : U → List (Letter U M)

namespace Messenger

variable {U M : Type*}

/-- Nobody has come yet. -/
def empty : Messenger U M where
  present := ∅
  online := ∅
  blocks := fun _ => ∅
  mail := fun _ => []

open Classical in
/-- A letter to everybody in the audience. -/
noncomputable def post (m : Messenger U M) (audience : Set U) (l : Letter U M) : Messenger U M :=
  { m with mail := fun v => if v ∈ audience then m.mail v ++ [l] else m.mail v }

/-- The others that are online and not blocked by the user. -/
def circle (m : Messenger U M) (u : U) : Set U := {v | v ∈ m.online ∧ v ≠ u ∧ v ∉ m.blocks u}

/-- The others that are online and have not blocked the user. -/
def listeners (m : Messenger U M) (u : U) : Set U := {v | v ∈ m.online ∧ v ≠ u ∧ u ∉ m.blocks v}

/-- The user is neither present nor online any more. -/
def remove (m : Messenger U M) (u : U) : Messenger U M :=
  { m with present := m.present \ {u}, online := m.online \ {u} }

/-- When a deed can be done. -/
def Allowed (m : Messenger U M) : Deed U M → Prop
  | .come u => u ∉ m.online
  | .go u => u ∈ m.present
  | .doze _ => True
  | .say u v _ => u ∈ m.online ∧ u ∉ m.blocks v
  | .shout u _ => u ∈ m.online
  | .block u v => u ∈ m.online ∧ u ≠ v ∧ v ∉ m.blocks u
  | .unblock u v => u ∈ m.online ∧ v ∈ m.blocks u

/-- Who gets a letter through a deed, and which. -/
def Posts (m : Messenger U M) : Deed U M → U → Letter U M → Prop
  | .come u, v, l => v ∈ m.circle u ∧ l = .came u
  | .go u, v, l => v ∈ m.circle u ∧ l = .went u
  | .say u v msg, w, l => w = v ∧ l = .said u msg
  | .shout u msg, v, l => v ∈ m.listeners u ∧ l = .said u msg
  | _, _, _ => False

open Classical in
/-- What a deed does. -/
noncomputable def after (m : Messenger U M) : Deed U M → Messenger U M
  | .come u =>
      { m.post (m.circle u) (.came u) with
        present := insert u m.present
        online := insert u m.online }
  | .go u => (m.post (m.circle u) (.went u)).remove u
  | .doze awake => { m with online := m.online ∩ awake }
  | .say u v msg => m.post {v} (.said u msg)
  | .shout u msg => m.post (m.listeners u) (.said u msg)
  | .block u v => { m with blocks := Function.update m.blocks u (insert v (m.blocks u)) }
  | .unblock u v => { m with blocks := Function.update m.blocks u (m.blocks u \ {v}) }

open Classical in
/-- The transition function. -/
noncomputable def step (m : Messenger U M) (d : Deed U M) : Option (Messenger U M) :=
  if m.Allowed d then some (m.after d) else none

lemma step_of_allowed {m : Messenger U M} {d : Deed U M} (h : m.Allowed d) :
    m.step d = some (m.after d) := if_pos h

lemma mem_mail_post {m : Messenger U M} {audience : Set U} {l l' : Letter U M} {v : U} :
    l' ∈ (m.post audience l).mail v ↔ l' ∈ m.mail v ∨ v ∈ audience ∧ l' = l := by
  unfold post
  by_cases hv : v ∈ audience <;> simp [hv]

/-- What is in the mail after a deed. -/
lemma mem_mail_after {m : Messenger U M} {d : Deed U M} {v : U} {l : Letter U M} :
    l ∈ (m.after d).mail v ↔ l ∈ m.mail v ∨ m.Posts d v l := by
  match d with
  | .come u => exact mem_mail_post
  | .go u => exact mem_mail_post
  | .say u w msg => exact mem_mail_post
  | .shout u msg => exact mem_mail_post
  | .doze _ | .block _ _ | .unblock _ _ => simp [after, Posts]

/-- **Origin.** A letter was in the mail before, or one of the deeds posted it. -/
lemma mem_mail {init m : Messenger U M} {ds : List (Deed U M)} {v : U} {l : Letter U M}
    (run : Run step Always init ds m) (h : l ∈ m.mail v) :
    l ∈ init.mail v ∨
      ∃ ds₁ d ds₂ m₁, ds = ds₁ ++ d :: ds₂ ∧ Run step Always init ds₁ m₁ ∧ m₁.Allowed d ∧
        m₁.Posts d v l := by
  induction run with
  | nil => exact .inl h
  | @snoc ds m m' d run _ completes ih =>
      have hallowed : m.Allowed d := by
        by_contra hnot
        rw [step, if_neg hnot] at completes
        cases completes
      obtain rfl : m.after d = m' := by
        rw [step_of_allowed hallowed] at completes
        exact Option.some.inj completes
      rcases mem_mail_after.mp h with h | h
      · rcases ih h with h | ⟨ds₁, d', ds₂, m₁, rfl, run₁, hd, hposts⟩
        · exact .inl h
        · exact .inr ⟨ds₁, d', ds₂ ++ [d], m₁, by simp, run₁, hd, hposts⟩
      · exact .inr ⟨ds, d, [], m, rfl, run, hallowed, h⟩

end Messenger

end EpollChat

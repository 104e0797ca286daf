import Mathlib.Data.List.Basic

/-!
# One end of an in-order link

A link hands out the messages of its peer in order and takes messages to send.
When a message is handed out is up to the link: `receive` may answer that
there is none yet, as often as it likes. `unread` lists the messages a finite
run of the link still has to hand out.
-/

class Link (L : Type) (α : outParam Type) where
  send : L → α → L
  receive : L → Option α × L
  sent : L → List α
  unread : L → List α
  sent_send : ∀ l a, sent (send l a) = sent l ++ [a]
  unread_send : ∀ l a, unread (send l a) = unread l
  sent_receive : ∀ l, sent (receive l).2 = sent l
  unread_receive : ∀ l, unread l = (receive l).1.toList ++ unread (receive l).2

namespace Link

attribute [simp] sent_send unread_send sent_receive

variable {L α : Type} [Link L α]

theorem unread_of_none {l l' : L} (h : receive l = (none, l')) : unread l = unread l' := by
  have := unread_receive l
  rwa [h] at this

theorem unread_of_some {l l' : L} {a : α} (h : receive l = (some a, l')) :
    unread l = a :: unread l' := by
  have := unread_receive l
  rwa [h] at this

/-- The link was read until it had no message. -/
inductive Drained : L → List α → L → Prop where
  | none {l l' : L} (received : receive l = (none, l')) : Drained l [] l'
  | some {l l₁ l' : L} {a : α} {later : List α} (received : receive l = (some a, l₁))
      (drained : Drained l₁ later l') : Drained l (a :: later) l'

theorem sent_of_receive {l l' : L} {a : Option α} (h : receive l = (a, l')) :
    sent l' = sent l := by
  have := sent_receive l
  rwa [h] at this

end Link

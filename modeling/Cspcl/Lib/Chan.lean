import Mathlib.Data.List.Basic

/-!
# Unbounded channels

The queue between the senders and the one receiver of an unbounded channel. The receiver can be
closed: no item is accepted from then on, those in the queue can still be received.
-/

/-- The items that were sent and not yet received, and whether the receiver was closed. -/
structure Chan (α : Type) where
  queue : List α
  closed : Bool
  deriving DecidableEq, Repr

/-- What a poll of the receiver returns. -/
inductive Poll (α : Type) where
  | ready (item : α)
  /-- Nothing can arrive any more. -/
  | ended
  | pending
  deriving DecidableEq, Repr

namespace Chan

variable {α : Type} {c : Chan α} {a : α} {l : List α}

/-- A new channel. -/
def new : Chan α := ⟨[], false⟩

/-- Send an item; `none` if the receiver was closed (the item is given back). -/
def send (c : Chan α) (a : α) : Option (Chan α) :=
  if c.closed then none else some { c with queue := c.queue ++ [a] }

/-- Send an item and ignore the outcome. -/
def sendOrDrop (c : Chan α) (a : α) : Chan α := (c.send a).getD c

/-- Close the receiver. -/
def close (c : Chan α) : Chan α := { c with closed := true }

/-- The channel once the receiver has taken every item of the queue. -/
def drained (c : Chan α) : Chan α := { c with queue := [] }

/-- A poll of the receiver; `senders`: whether a sender is left. -/
def poll (c : Chan α) (senders : Bool) : Poll α × Chan α :=
  match c.queue with
  | a :: rest => (.ready a, { c with queue := rest })
  | [] => (if c.closed || !senders then .ended else .pending, c)

@[simp] theorem send_of_closed (h : c.closed = true) : c.send a = none := by simp [send, h]

@[simp] theorem send_of_open (h : c.closed = false) :
    c.send a = some ⟨c.queue ++ [a], false⟩ := by
  simp [send, h]

@[simp] theorem closed_sendOrDrop : (c.sendOrDrop a).closed = c.closed := by
  cases h : c.closed <;> simp [sendOrDrop, h]

theorem queue_sendOrDrop_of_open (h : c.closed = false) :
    (c.sendOrDrop a).queue = c.queue ++ [a] := by
  simp [sendOrDrop, h]

/-- Items sent one by one into an open channel. -/
theorem foldl_sendOrDrop (h : c.closed = false) :
    l.foldl sendOrDrop c = ⟨c.queue ++ l, false⟩ := by
  induction l generalizing c with
  | nil => simp [← h]
  | cons a l ih =>
    rw [List.foldl_cons, ih (by simp [h]), queue_sendOrDrop_of_open h]
    simp

theorem poll_cons {senders : Bool} (h : c.queue = a :: l) :
    c.poll senders = (.ready a, { c with queue := l }) := by
  simp [poll, h]

/-- A poll of an empty channel yields nothing and changes nothing. -/
theorem poll_nil {senders : Bool} (h : c.queue = []) :
    c.poll senders = (if c.closed || !senders then .ended else .pending, c) := by
  simp [poll, h]

end Chan

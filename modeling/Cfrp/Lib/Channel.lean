import Mathlib.Data.List.Basic

/-!
# Flow control by credit

One direction of a stream between a sender with a window and a receiver with a buffer.
The sender may have `window` elements more on the way; what the receiver's user takes
from the buffer is counted in `consumed`, granted back in batches, and regained by the
sender when the grant arrives. `sent`, `accepted` and `delivered` are history.

`Ok W` is the invariant of a channel of capacity `W`: the credit is somewhere, and what
was sent is what was delivered, then what is buffered, then what is on its way.
-/

namespace Cfrp.Lib

universe u

structure Channel (α : Type u) where
  window : Nat
  pending : List α := []
  transit : List α := []
  unread : List α := []
  consumed : Nat := 0
  credit : Nat := 0
  closed : Bool := false
  accepted : List α := []
  sent : List α := []
  delivered : List α := []

namespace Channel

variable {α : Type u}

/-- The sender's user hands over `l`. -/
def accept (c : Channel α) (l : List α) : Channel α :=
  { c with pending := c.pending ++ l, accepted := c.accepted ++ l }

/-- The first `n` pending elements are sent. -/
def send (c : Channel α) (n : Nat) : Channel α :=
  { c with
    window := c.window - n, pending := c.pending.drop n
    transit := c.transit ++ c.pending.take n, sent := c.sent ++ c.pending.take n }

/-- The next `n` elements reach the receiver's buffer. -/
def arrive (c : Channel α) (n : Nat) : Channel α :=
  { c with transit := c.transit.drop n, unread := c.unread ++ c.transit.take n }

/-- The receiver's user takes `n` elements, and `g` of those consumed are granted back. -/
def read (c : Channel α) (n g : Nat) : Channel α :=
  { c with
    unread := c.unread.drop n, delivered := c.delivered ++ c.unread.take n
    consumed := c.consumed + n - g, credit := c.credit + g }

/-- A grant of `n` reaches the sender. -/
def regain (c : Channel α) (n : Nat) : Channel α :=
  { c with window := c.window + n, credit := c.credit - n }

/-- The sender gives up what it has not sent. -/
def close (c : Channel α) : Channel α := { c with closed := true, pending := [] }

structure Ok (W : Nat) (c : Channel α) : Prop where
  conserved : c.window + c.transit.length + c.unread.length + c.consumed + c.credit = W
  inOrder : c.sent = c.delivered ++ c.unread ++ c.transit
  ofOpen : c.closed = false → c.accepted = c.sent ++ c.pending
  ofClosed : c.closed = true → c.pending = [] ∧ c.sent <+: c.accepted

theorem ok_new (W : Nat) : Ok W { window := W : Channel α } where
  conserved := rfl
  inOrder := rfl
  ofOpen _ := rfl
  ofClosed h := by cases h

variable {W : Nat} {c : Channel α}

theorem Ok.accept (h : Ok W c) (hopen : c.closed = false) (l : List α) : Ok W (c.accept l) where
  conserved := h.conserved
  inOrder := h.inOrder
  ofOpen _ := by
    show c.accepted ++ l = c.sent ++ (c.pending ++ l)
    rw [h.ofOpen hopen, List.append_assoc]
  ofClosed hc := by
    rw [show (c.accept l).closed = c.closed from rfl, hopen] at hc
    cases hc

theorem Ok.send (h : Ok W c) {n : Nat} (hw : n ≤ c.window) (hp : n ≤ c.pending.length) :
    Ok W (c.send n) where
  conserved := by
    have hc := h.conserved
    show c.window - n + (c.transit ++ c.pending.take n).length + c.unread.length +
      c.consumed + c.credit = W
    rw [List.length_append, List.length_take]
    omega
  inOrder := by
    show c.sent ++ _ = c.delivered ++ c.unread ++ (c.transit ++ _)
    rw [h.inOrder, List.append_assoc, List.append_assoc]
  ofOpen hopen := by
    show c.accepted = c.sent ++ c.pending.take n ++ c.pending.drop n
    rw [List.append_assoc, List.take_append_drop]
    exact h.ofOpen hopen
  ofClosed hclosed := by
    obtain ⟨hnil, hpre⟩ := h.ofClosed hclosed
    show c.pending.drop n = [] ∧ c.sent ++ c.pending.take n <+: c.accepted
    rw [hnil, List.take_nil, List.append_nil, List.drop_nil]
    exact ⟨rfl, hpre⟩

theorem Ok.arrive (h : Ok W c) (n : Nat) : Ok W (c.arrive n) where
  conserved := by
    have hc := h.conserved
    show c.window + (c.transit.drop n).length + (c.unread ++ c.transit.take n).length +
      c.consumed + c.credit = W
    rw [List.length_append, List.length_take, List.length_drop]
    omega
  inOrder := by
    show c.sent = c.delivered ++ (c.unread ++ c.transit.take n) ++ c.transit.drop n
    rw [h.inOrder, List.append_assoc, List.append_assoc, List.append_assoc, List.take_append_drop]
  ofOpen := h.ofOpen
  ofClosed := h.ofClosed

theorem Ok.read (h : Ok W c) {n g : Nat} (hn : n ≤ c.unread.length) (hg : g ≤ c.consumed + n) :
    Ok W (c.read n g) where
  conserved := by
    have hc := h.conserved
    show c.window + c.transit.length + (c.unread.drop n).length + (c.consumed + n - g) +
      (c.credit + g) = W
    rw [List.length_drop]
    omega
  inOrder := by
    show c.sent = c.delivered ++ c.unread.take n ++ c.unread.drop n ++ c.transit
    rw [List.append_assoc c.delivered, List.take_append_drop]
    exact h.inOrder
  ofOpen := h.ofOpen
  ofClosed := h.ofClosed

theorem Ok.regain (h : Ok W c) {n : Nat} (hn : n ≤ c.credit) : Ok W (c.regain n) where
  conserved := by
    have hc := h.conserved
    show c.window + n + c.transit.length + c.unread.length + c.consumed + (c.credit - n) = W
    omega
  inOrder := h.inOrder
  ofOpen := h.ofOpen
  ofClosed := h.ofClosed

theorem Ok.close (h : Ok W c) : Ok W c.close where
  conserved := h.conserved
  inOrder := h.inOrder
  ofOpen hopen := by cases hopen
  ofClosed _ := by
    refine ⟨rfl, ?_⟩
    show c.sent <+: c.accepted
    cases hc : c.closed with
    | true => exact (h.ofClosed hc).2
    | false =>
        rw [h.ofOpen hc]
        exact List.prefix_append _ _

/-- What was sent, and so what was delivered, is a prefix of what was accepted. -/
theorem Ok.sent_prefix (h : Ok W c) : c.sent <+: c.accepted := h.close.ofClosed rfl |>.2

theorem Ok.delivered_prefix (h : Ok W c) : c.delivered <+: c.accepted := by
  refine List.IsPrefix.trans ?_ h.sent_prefix
  rw [h.inOrder, List.append_assoc]
  exact List.prefix_append _ _

end Channel

end Cfrp.Lib

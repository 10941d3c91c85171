/-!
# Draining a queue

Whoever puts something into a queue and finds nobody writing sets a flag and begins the first
write, and the handler of each write begins the next one or clears the flag. The handler runs
beside those who fill the queue, so its parts are told apart. `Turn` says how the flag, the
handler and the number of writes go together.
-/

namespace Cfrp.Lib

/-- How far the handler of a write is. -/
inductive Completing where
  | idle
  /-- What was written is off the queue. -/
  | handling
  /-- The queue has been found empty. -/
  | ending
  deriving DecidableEq

/-- The flag, the handler, and how many writes are outstanding. -/
inductive Turn : Bool → Completing → Nat → Prop where
  | free : Turn false .idle 0
  | writing : Turn true .idle 1
  | handling : Turn true .handling 0
  | ending : Turn true .ending 0

namespace Turn

variable {w : Bool} {c : Completing} {n : Nat}

theorem of_free (h : Turn false c n) : c = .idle ∧ n = 0 := by
  cases h
  exact ⟨rfl, rfl⟩

theorem of_none (h : Turn w .idle 0) : w = false := by
  cases h
  rfl

theorem of_outstanding (h : Turn w c n) (hn : n ≠ 0) : w = true ∧ c = .idle ∧ n = 1 := by
  cases h with
  | writing => exact ⟨rfl, rfl, rfl⟩
  | free => exact absurd rfl hn
  | handling => exact absurd rfl hn
  | ending => exact absurd rfl hn

/-- While the handler runs. -/
theorem of_completing (h : Turn w c n) (hc : c ≠ .idle) : w = true ∧ n = 0 := by
  cases h with
  | handling => exact ⟨rfl, rfl⟩
  | ending => exact ⟨rfl, rfl⟩
  | free => exact absurd rfl hc
  | writing => exact absurd rfl hc

theorem of_busy (h : Turn true .idle n) : n = 1 := by
  cases h
  rfl

theorem le_one (h : Turn w c n) : n ≤ 1 := by
  cases h <;> decide

end Turn

end Cfrp.Lib

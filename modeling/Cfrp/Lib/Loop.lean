import Mathlib.Data.List.Basic

/-!
# Loops that emit

The body of a `while` loop is a function `turn`: it answers `none` when the loop is
over, and otherwise the state after one turn and what the turn emitted. `loop` runs it
with a bound on the number of turns. Two rules are enough to reason about it:
`loop_induct` proves a relation between the start, the emissions and the end from what
one turn does, and `loop_done` says that a bound given by a measure is never reached.
-/

namespace Cfrp.Lib

universe u v

variable {σ : Type u} {α : Type v}

/-- Run the body at most `n` times, collecting what it emits. -/
def loop (turn : σ → Option (σ × List α)) : Nat → σ → σ × List α
  | 0, s => (s, [])
  | n + 1, s =>
      match turn s with
      | none => (s, [])
      | some (s', es) =>
          let r := loop turn n s'
          (r.1, es ++ r.2)

variable {turn : σ → Option (σ × List α)}

theorem loop_of_none {n : Nat} {s : σ} (h : turn s = none) : loop turn n s = (s, []) := by
  cases n with
  | zero => rfl
  | succ n => rw [loop, h]

theorem loop_of_some {n : Nat} {s s' : σ} {es : List α} (h : turn s = some (s', es)) :
    loop turn (n + 1) s = ((loop turn n s').1, es ++ (loop turn n s').2) := by
  rw [loop, h]

/-- One turn, and then the body says that it is over. -/
theorem loop_once {n : Nat} {s s' : σ} {es : List α} (hn : 0 < n) (h : turn s = some (s', es))
    (hdone : turn s' = none) : loop turn n s = (s', es) := by
  obtain ⟨m, rfl⟩ : ∃ m, n = m + 1 := ⟨n - 1, by omega⟩
  rw [loop_of_some h, loop_of_none hdone, List.append_nil]

/-- **The loop rule.** A relation that holds when nothing happens, and that one turn
followed by a run in the relation stays in, holds of the whole loop. -/
theorem loop_induct {R : σ → List α → σ → Prop} (hdone : ∀ s, R s [] s)
    (hturn : ∀ s es s' es' s'', turn s = some (s', es) → R s' es' s'' → R s (es ++ es') s'')
    (n : Nat) (s : σ) : R s (loop turn n s).2 (loop turn n s).1 := by
  induction n generalizing s with
  | zero => exact hdone s
  | succ n ih =>
      cases h : turn s with
      | none => rw [loop_of_none h]; exact hdone s
      | some r =>
          obtain ⟨s', es⟩ := r
          rw [loop_of_some h]
          exact hturn s es s' _ _ h (ih s')

/-- A bound no smaller than a measure that every turn decreases is never reached: the
loop stops because its body says so. -/
theorem loop_done (μ : σ → Nat) (hμ : ∀ s s' es, turn s = some (s', es) → μ s' < μ s)
    (n : Nat) (s : σ) (hn : μ s ≤ n) : turn (loop turn n s).1 = none := by
  induction n generalizing s with
  | zero =>
      cases h : turn s with
      | none => exact h
      | some r =>
          have hlt := hμ s r.1 r.2 h
          omega
  | succ n ih =>
      cases h : turn s with
      | none => rw [loop_of_none h]; exact h
      | some r =>
          obtain ⟨s', es⟩ := r
          rw [loop_of_some h]
          have hlt := hμ s s' es h
          exact ih s' (by omega)

/-- **The projection rule.** A loop each of whose turns is seen as a turn of another loop is
seen as that loop. -/
theorem loop_map {τ : Type*} {β : Type*} {turn' : τ → Option (τ × List β)} (f : σ → τ)
    (g : List α → List β) (hnil : g [] = []) (happend : ∀ l l', g (l ++ l') = g l ++ g l')
    (h : ∀ s, (turn s).map (fun r => (f r.1, g r.2)) = turn' (f s)) (n : Nat) (s : σ) :
    loop turn' n (f s) = (f (loop turn n s).1, g (loop turn n s).2) := by
  induction n generalizing s with
  | zero =>
      show (f s, []) = (f s, g [])
      rw [hnil]
  | succ n ih =>
      have hs := h s
      cases hturn : turn s with
      | none =>
          rw [hturn] at hs
          rw [loop_of_none hturn, loop_of_none hs.symm, hnil]
      | some r =>
          rw [hturn] at hs
          obtain ⟨s', es⟩ := r
          rw [loop_of_some hturn, loop_of_some hs.symm, ih, happend]

end Cfrp.Lib

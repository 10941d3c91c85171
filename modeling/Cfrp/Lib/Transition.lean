import Mathlib.Data.Option.Basic

/-!
# Transition systems whose steps are guarded

A system is a partial step function `σ → ε → Option σ`: `none` says that the
event cannot happen in that state. `Reach step ok s₀` is the set of states a run
from `s₀` can visit when every step it takes also satisfies `ok`. With `ok`
always true these are simply the reachable states; a proper `ok` is how a result
says "as long as nobody does this".

Every invariant of this development is proved through `Reach.invariant`: it holds
at the start, and one guarded step keeps it.
-/

namespace Cfrp.Lib

universe u v

variable {σ : Type u} {ε : Type v}

/-- The states of the runs from `s₀` all of whose steps satisfy `ok`. -/
inductive Reach (step : σ → ε → Option σ) (ok : σ → ε → Prop) (s₀ : σ) : σ → Prop where
  | init : Reach step ok s₀ s₀
  | tail {s s' : σ} {e : ε} :
      Reach step ok s₀ s → ok s e → step s e = some s' → Reach step ok s₀ s'

/-- No restriction on the steps of a run. -/
def anyStep : σ → ε → Prop := fun _ _ => True

/-- One more step of a run, the event named. -/
theorem Reach.next {step : σ → ε → Option σ} {ok : σ → ε → Prop} {s₀ s s' : σ}
    (h : Reach step ok s₀ s) (e : ε) (hok : ok s e) (hs : step s e = some s') :
    Reach step ok s₀ s' :=
  Reach.tail h hok hs

/-- **The invariant rule.** What holds initially and is kept by every allowed step
holds in every state a run visits. -/
theorem Reach.invariant {step : σ → ε → Option σ} {ok : σ → ε → Prop} {s₀ : σ}
    {P : σ → Prop} (h0 : P s₀)
    (hstep : ∀ s e s', P s → ok s e → step s e = some s' → P s')
    {s : σ} (h : Reach step ok s₀ s) : P s := by
  induction h with
  | init => exact h0
  | tail _ hok hs ih => exact hstep _ _ _ ih hok hs

/-- A stronger guard visits fewer states. -/
theorem Reach.mono {step : σ → ε → Option σ} {ok ok' : σ → ε → Prop} {s₀ s : σ}
    (himp : ∀ s e, ok s e → ok' s e) (h : Reach step ok s₀ s) : Reach step ok' s₀ s := by
  induction h with
  | init => exact Reach.init
  | tail _ hok hs ih => exact Reach.tail ih (himp _ _ hok) hs

/-- Guarded runs are runs. -/
theorem Reach.any {step : σ → ε → Option σ} {ok : σ → ε → Prop} {s₀ s : σ}
    (h : Reach step ok s₀ s) : Reach step anyStep s₀ s :=
  h.mono fun _ _ _ => trivial

theorem Reach.trans {step : σ → ε → Option σ} {ok : σ → ε → Prop} {s₀ s₁ s₂ : σ}
    (h₁ : Reach step ok s₀ s₁) (h₂ : Reach step ok s₁ s₂) : Reach step ok s₀ s₂ := by
  induction h₂ with
  | init => exact h₁
  | tail _ hok hs ih => exact Reach.tail ih hok hs

/-- Run a list of events; `none` as soon as one of them cannot happen. -/
def runAll (step : σ → ε → Option σ) (s : σ) : List ε → Option σ
  | [] => some s
  | e :: es => (step s e).bind fun s' => runAll step s' es

/-- One event more at the end. -/
theorem runAll_concat {step : σ → ε → Option σ} {e : ε} :
    ∀ {es : List ε} {s : σ}, runAll step s (es ++ [e]) = (runAll step s es).bind (step · e)
  | [], s => by
      show (step s e).bind some = step s e
      cases step s e with
      | none => rfl
      | some s' => rfl
  | a :: es, s => by
      show (step s a).bind (fun s' => runAll step s' (es ++ [e])) = _
      rw [runAll, Option.bind_assoc]
      exact congrArg _ (funext fun _ => runAll_concat)

/-- An executed list of events is a run. -/
theorem reach_of_runAll {step : σ → ε → Option σ} :
    ∀ {es : List ε} {s s' : σ}, runAll step s es = some s' → Reach step anyStep s s'
  | [], s, s', h => by
      rw [runAll] at h
      exact Option.some.inj h ▸ Reach.init
  | e :: es, s, s', h => by
      rw [runAll, Option.bind_eq_some_iff] at h
      obtain ⟨s₁, hs₁, hrest⟩ := h
      exact (Reach.tail Reach.init trivial hs₁).trans (reach_of_runAll hrest)

/-- The state a list of events leads to, together with what is observed of it. -/
theorem exists_of_runAll (step : σ → ε → Option σ) (es : List ε) {α : Type*} (f : σ → α)
    {s : σ} {a : α} (h : (runAll step s es).map f = some a) :
    ∃ s', Reach step anyStep s s' ∧ f s' = a := by
  obtain ⟨s', hs', ha⟩ := Option.map_eq_some_iff.mp h
  exact ⟨s', reach_of_runAll hs', ha⟩

/-- The step function of the runs that keep to a guard that can be evaluated. -/
def guarded (step : σ → ε → Option σ) (ok : σ → ε → Bool) (s : σ) (e : ε) : Option σ :=
  if ok s e then step s e else none

/-- An executed list of events that keeps to the guard is a guarded run. -/
theorem exists_of_runGuarded (step : σ → ε → Option σ) (ok : σ → ε → Bool) (es : List ε)
    {α : Type*} (f : σ → α) {s : σ} {a : α}
    (h : (runAll (guarded step ok) s es).map f = some a) :
    ∃ s', Reach step (fun s e => ok s e = true) s s' ∧ f s' = a := by
  obtain ⟨s', hs', ha⟩ := exists_of_runAll _ es f h
  refine ⟨s', ?_, ha⟩
  refine hs'.invariant (P := Reach step (fun s e => ok s e = true) s) Reach.init ?_
  intro s₁ e s₂ hr _ hstep
  rw [guarded, Option.ite_none_right_eq_some] at hstep
  exact Reach.tail hr hstep.1 hstep.2

end Cfrp.Lib

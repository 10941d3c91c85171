import Cfrp.Mux.Dispatch

/-!
# Runs of a pair

`step_running` collects the steps of a running pair, and `view_reach` says what they
amount to: whatever the two sessions do, each of their streams goes through a run of its
link, so every invariant of `Link` is one of the pair.
-/

namespace Cfrp.Mux

open Lib Session

namespace Pair

variable {p p' : Pair}

/-- **One step of a running pair** keeps the invariant, and is at most one step of each
stream's link. -/
theorem step_running (h : PairInv p) {e : Event} (hok : conforming p e = true)
    (hrun : Running p') (hstep : p.step e = some p') : Step p p' := by
  cases e with
  | recv x =>
      obtain ⟨⟨e, left⟩, hnext, hstep⟩ := Option.bind_eq_some_iff.mp hstep
      obtain ⟨s', hs', rfl⟩ := Option.map_eq_some_iff.mp hstep
      exact step_recv h hnext hs'
  | act x e =>
      have hx := (h.half x).running
      have hy := (h.half !x).running
      -- what an event of one session makes of the pair
      have hact : ∀ e', e' = e → (∀ b, e' ≠ .recvHeader b) → (∀ b, e' ≠ .recvBody b) →
          ∃ s', (p x).step e' = some s' ∧ Function.update p x s' = p' := by
        intro e' he hheader hbody
        subst he
        cases e' with
        | recvHeader b => exact absurd rfl (hheader b)
        | recvBody b => exact absurd rfl (hbody b)
        | _ => exact Option.map_eq_some_iff.mp hstep
      cases e with
      | recvHeader b => cases hstep
      | recvBody b => cases hstep
      | sendFrame onStrand f handler => cases hok
      | openStream onStrand =>
          obtain ⟨s', hs', rfl⟩ := hact _ rfl (fun _ h => by cases h) (fun _ h => by cases h)
          exact step_openStream h hok hs'
      | asyncRead o size handler readAll =>
          obtain ⟨s', hs', rfl⟩ := hact _ rfl (fun _ h => by cases h) (fun _ h => by cases h)
          exact step_asyncRead h hs'
      | asyncWrite o buffers handler =>
          obtain ⟨s', hs', rfl⟩ := hact _ rfl (fun _ h => by cases h) (fun _ h => by cases h)
          exact step_asyncWrite h hs'
      | close o =>
          obtain ⟨s', hs', rfl⟩ := hact _ rfl (fun _ h => by cases h) (fun _ h => by cases h)
          exact step_close h hs'
      | destroy o =>
          obtain ⟨s', hs', rfl⟩ := hact _ rfl (fun _ h => by cases h) (fun _ h => by cases h)
          exact step_destroy h hs'
      | heartbeat =>
          obtain ⟨s', hs', rfl⟩ := hact _ rfl (fun _ h => by cases h) (fun _ h => by cases h)
          exact step_heartbeat h hs'
      | postStop =>
          obtain ⟨s', hs', rfl⟩ := hact _ rfl (fun _ h => by cases h) (fun _ h => by cases h)
          exact step_postStop h hs'
      | runStream o =>
          obtain ⟨s', hs', rfl⟩ := hact _ rfl (fun _ h => by cases h) (fun _ h => by cases h)
          exact step_runStream h hs'
      | runPosted =>
          obtain ⟨s', hs', rfl⟩ := hact _ rfl (fun _ h => by cases h) (fun _ h => by cases h)
          have hs := hrun x
          rw [update_self'] at hs
          exact step_runPosted h hs hs'
      | writeOk =>
          obtain ⟨s', hs', rfl⟩ := hact _ rfl (fun _ h => by cases h) (fun _ h => by cases h)
          exact step_writeOk h hs'
      | stop running =>
          obtain ⟨s', hs', rfl⟩ := hact _ rfl (fun _ h => by cases h) (fun _ h => by cases h)
          rw [Session.step, Option.ite_none_right_eq_some] at hs'
          have hs := hrun x
          rw [update_self', ← Option.some.inj hs'.2, stop_stopped] at hs
          cases hs
      | writeError =>
          -- the transport does not fail while both run
          rw [conforming, hx, hy] at hok
          cases hok
      | readError =>
          rw [conforming, hx, hy] at hok
          cases hok
      | expire =>
          -- a session that runs has a read outstanding
          obtain ⟨s', hs', -⟩ := hact _ rfl (fun _ h => by cases h) (fun _ h => by cases h)
          simp only [Session.step] at hs'
          split at hs'
          · rename_i hidle
            simp only [Bool.and_eq_true, decide_eq_true_eq] at hidle
            have hwire := (h.half !x).output.wire
            rw [Bool.not_not, hidle.2] at hwire
            exact hwire.elim
          · cases hs'

/-- A pair that runs ran before. -/
theorem running_of_step {e : Event} (hrun : Running p') (hstep : p.step e = some p') :
    Running p := by
  have hback : ∀ {x : Bool} {e : Session.Event} {s' : Session}, (p x).step e = some s' →
      s'.stopped = false → (p x).stopped = false := by
    intro x e s' hs' hs
    by_contra hne
    rw [step_stopped hs' (by simpa using hne)] at hs
    cases hs
  cases e with
  | recv x =>
      obtain ⟨⟨e, left⟩, -, hstep⟩ := Option.bind_eq_some_iff.mp hstep
      obtain ⟨s', hs', rfl⟩ := Option.map_eq_some_iff.mp hstep
      have hself : (afterRecv p x s' left x).stopped = false := hrun x
      have hother : (afterRecv p x s' left !x).stopped = false := hrun !x
      rw [afterRecv_self] at hself
      rw [afterRecv_not] at hother
      intro y
      by_cases hy : y = x
      · rw [hy]
        exact hback hs' hself
      · rw [Bool.eq_not_of_ne hy]
        exact hother
  | act x e =>
      have hupdate : ∃ s', (p x).step e = some s' ∧ Function.update p x s' = p' := by
        cases e with
        | recvHeader b => cases hstep
        | recvBody b => cases hstep
        | _ => exact Option.map_eq_some_iff.mp hstep
      obtain ⟨s', hs', rfl⟩ := hupdate
      intro y
      have hy := hrun y
      by_cases heq : y = x
      · rw [heq, update_self'] at hy
        rw [heq]
        exact hback hs' hy
      · rwa [Function.update_of_ne heq] at hy

theorem pairInv_init : PairInv init where
  half x := {
    alive := rfl
    running := rfl
    output := {
      isWriting := rfl
      busy := by intro h; cases h
      idle _ := rfl
      queued := by intro pw h; cases h
      wire := encoded_nil }
    nodup := List.nodup_nil
    table := by intro i o h; cases h
    posted := by intro pw h; cases h
    noFail := by intro obj h; cases h
    quiet := by intro obj h; cases h }
  next x := by cases x <;> decide
  unknown x i _ f hf := by
    rw [inFlight] at hf
    simp [flight, postedFrames, unsent, init, parseFrom, parseFrames_nil] at hf
  both x i h := absurd rfl h
  new x i h := absurd rfl h

theorem view_init (i : UInt32) : init.view i = Link.fresh i := by
  refine link_ext rfl ?_
  funext x
  show said (init.inFlight x) i = []
  rw [inFlight]
  simp [flight, postedFrames, unsent, init, parseFrom, parseFrames_nil, said]

/-- The runs in which neither session was disturbed. -/
abbrev Conforming (p : Pair) (e : Event) : Prop := conforming p e = true

/-- **Every stream of a running pair went through a run of its link.** -/
theorem view_reach (h : Reach step Conforming init p) (hrun : Running p) :
    PairInv p ∧ ∀ i, Reach Link.step anyStep (Link.fresh i) (p.view i) := by
  induction h with
  | init =>
      refine ⟨pairInv_init, fun i => ?_⟩
      rw [view_init]
      exact Reach.init
  | tail _ hok hstep ih =>
      obtain ⟨hinv, hview⟩ := ih (running_of_step hrun hstep)
      obtain ⟨hinv', hfollows⟩ := step_running hinv hok hrun hstep
      refine ⟨hinv', fun i => ?_⟩
      rcases hfollows i with heq | ⟨e, he⟩
      · rw [heq]
        exact hview i
      · exact Reach.tail (hview i) trivial he

/-- The invariant of the link, for each stream of a running pair. -/
theorem view_inv (h : Reach step Conforming init p) (hrun : Running p) (i : UInt32) :
    (p.view i).Inv := Link.inv_reach ((view_reach h hrun).2 i)

end Pair

end Cfrp.Mux

import Cfrp.Server.Tables
import Mathlib.Data.Finset.Card
import Mathlib.Data.Finset.Image

/-!
# The names `AllocateClientName` hands out

The loop has no bound of its own. It ends because the names it tries are pairwise
different and only finitely many are taken; this file turns that into the fuel the
model gives it, and reads off which name comes out.
-/

namespace Cfrp

namespace Server

/-- The `k`-th name the suffix loop tries. -/
def candidate (name : String) (k : Nat) : String :=
  if k = 0 then name else name ++ "_" ++ toString k

theorem toString_injective {j k : Nat} (h : toString j = toString k) : j = k := by
  have hdigits : Nat.toDigits 10 j = Nat.toDigits 10 k := by
    rw [← Nat.toList_repr, ← Nat.toList_repr]
    exact congrArg String.toList h
  rw [← Nat.ofDigitChars_ten_toDigits (n := j), hdigits, Nat.ofDigitChars_ten_toDigits]

theorem candidate_injective (name : String) : Function.Injective (candidate name) := by
  have hlong : ∀ k : Nat, name ++ "_" ++ toString k ≠ name := by
    intro k h
    have := congrArg String.length h
    simp only [String.length_append] at this
    have hone : "_".length = 1 := by decide
    omega
  intro j k h
  unfold candidate at h
  by_cases hj : j = 0
  · by_cases hk : k = 0
    · rw [hj, hk]
    · rw [if_pos hj, if_neg hk] at h
      exact absurd h.symm (hlong k)
  · by_cases hk : k = 0
    · rw [if_neg hj, if_pos hk] at h
      exact absurd h (hlong j)
    · rw [if_neg hj, if_neg hk] at h
      refine toString_injective (String.ext ?_)
      have hlist := congrArg String.toList h
      simp only [String.toList_append] at hlist
      exact List.append_cancel_left hlist

/-- The loop tries the candidates in order, stops at the first one that is free, and
gives up only when its fuel is spent. -/
theorem suffixLoop_eq (active : Finset String) (name : String) :
    ∀ (fuel k : Nat), ∃ j, j ≤ fuel ∧
      suffixLoop active name fuel (k + 1) (candidate name k) = candidate name (k + j) ∧
      (∀ i, i < j → candidate name (k + i) ∈ active) ∧
      (j < fuel → candidate name (k + j) ∉ active) := by
  intro fuel
  induction fuel with
  | zero => intro k; exact ⟨0, Nat.le_refl 0, rfl, by simp, by simp⟩
  | succ fuel ih =>
      intro k
      unfold suffixLoop
      split
      · rename_i hmem
        obtain ⟨j, hj, heq, hbelow, hstop⟩ := ih (k + 1)
        have hnext : candidate name (k + 1) = name ++ "_" ++ toString (k + 1) := by
          simp [candidate]
        refine ⟨j + 1, by omega, ?_, ?_, ?_⟩
        · rw [← hnext, heq, show k + 1 + j = k + (j + 1) by omega]
        · intro i hi
          rcases Nat.eq_zero_or_pos i with h0 | h0
          · rw [h0]; exact hmem
          · have := hbelow (i - 1) (by omega)
            rwa [show k + 1 + (i - 1) = k + i by omega] at this
        · intro hlt
          have := hstop (by omega)
          rwa [show k + 1 + j = k + (j + 1) by omega] at this
      · rename_i hmem
        exact ⟨0, by omega, rfl, by simp, fun _ => hmem⟩

/-- The candidates are distinct, so no more of them are taken than there are names. -/
theorem le_card_of_candidates {active : Finset String} {name : String} {j : Nat}
    (htaken : ∀ i, i < j → candidate name i ∈ active) : j ≤ active.card := by
  have hsub : (Finset.range j).image (candidate name) ⊆ active := by
    intro n hn
    obtain ⟨i, hi, rfl⟩ := Finset.mem_image.mp hn
    exact htaken i (Finset.mem_range.mp hi)
  have hle := Finset.card_le_card hsub
  rwa [Finset.card_image_of_injective _ (candidate_injective _), Finset.card_range] at hle

/-- The name a request starts from: itself, or `client` when it is empty. -/
def baseName (requestedName : String) : String :=
  if requestedName = "" then "client" else requestedName

/-- **An allocated name is the first candidate that is free.** More candidates than
active names were tried, and they are distinct, so the fuel is never what stops the
loop. -/
theorem freeClientName_spec (active : Finset String) (requestedName : String) :
    ∃ j, j ≤ active.card ∧
      freeClientName active requestedName = candidate (baseName requestedName) j ∧
      (∀ i, i < j → candidate (baseName requestedName) i ∈ active) ∧
      freeClientName active requestedName ∉ active := by
  obtain ⟨j, hj, heq, hbelow, hstop⟩ :=
    suffixLoop_eq active (baseName requestedName) (active.card + 1) 0
  have hbelow' : ∀ i, i < j → candidate (baseName requestedName) i ∈ active := by
    intro i hi
    have := hbelow i hi
    rwa [Nat.zero_add] at this
  have hcard : j ≤ active.card := le_card_of_candidates hbelow'
  have hname : freeClientName active requestedName = candidate (baseName requestedName) j := by
    rw [Nat.zero_add j] at heq
    exact heq
  refine ⟨j, hcard, hname, hbelow', ?_⟩
  have := hstop (by omega)
  rwa [Nat.zero_add, ← hname] at this

theorem freeClientName_notMem (active : Finset String) (requestedName : String) :
    freeClientName active requestedName ∉ active := by
  obtain ⟨_, _, _, _, h⟩ := freeClientName_spec active requestedName
  exact h

/-! ## The suffix is an `int`

Everything else of the server is modelled with suffixes that grow without end. Here is the
loop as it is written, and when the two are the same.
-/

/-- The greatest `int`. -/
def intMax : Nat := 2147483647

inductive SuffixEnd where
  | free (finalName : String)
  /-- `suffix++` leaves the `int`, and the behaviour is undefined. -/
  | overflow
  /-- So many tests were not enough. -/
  | running
  deriving DecidableEq

/-- The suffix loop of `AllocateClientName` with its `int`, up to so many of its tests. -/
def intSuffixLoop (active : Finset String) (name : String) : Nat → Nat → String → SuffixEnd
  | 0, _, _ => .running
  | tests + 1, suffix, finalName =>
      if finalName ∈ active then
        if suffix = intMax then .overflow
        else intSuffixLoop active name tests (suffix + 1) (name ++ "_" ++ toString suffix)
      else .free finalName

/-- `AllocateClientName`; with `none` it does not return. -/
def intAllocateClientName (s : Server) (requestedName : String) (session : CtrlId) :
    Option (Server × String) :=
  let name := baseName requestedName
  match intSuffixLoop s.activeClientNames name (s.activeClientNames.card + 1) 1 name with
  | .free finalName =>
      some ({ s with
        activeClientNames := insert finalName s.activeClientNames
        sessions := s.sessions.insert finalName session }, finalName)
  | _ => none

theorem candidate_succ (name : String) (k : Nat) :
    candidate name (k + 1) = name ++ "_" ++ toString (k + 1) := by
  simp [candidate]

/-- Taken names are passed over, as long as the suffix is an `int`. -/
theorem intSuffixLoop_free {active : Finset String} {name : String} (j : Nat) :
    ∀ {k tests : Nat}, (∀ i, i < j → candidate name (k + i) ∈ active) →
      candidate name (k + j) ∉ active → k + j < intMax → j < tests →
      intSuffixLoop active name tests (k + 1) (candidate name k) =
        .free (candidate name (k + j)) := by
  induction j with
  | zero =>
      intro k tests _ hfree _ htests
      obtain ⟨tests, rfl⟩ : ∃ n, tests = n + 1 := ⟨tests - 1, by omega⟩
      rw [Nat.add_zero] at hfree
      rw [intSuffixLoop, if_neg hfree, Nat.add_zero]
  | succ j ih =>
      intro k tests htaken hfree hint htests
      obtain ⟨tests, rfl⟩ : ∃ n, tests = n + 1 := ⟨tests - 1, by omega⟩
      have hhere : candidate name k ∈ active := htaken 0 (Nat.succ_pos j)
      have hnext : k + (j + 1) = k + 1 + j := by omega
      rw [intSuffixLoop, if_pos hhere, if_neg (by omega), ← candidate_succ, hnext]
      refine ih (fun i hi => ?_) (hnext ▸ hfree) (by omega) (by omega)
      have hmem := htaken (i + 1) (by omega)
      rwa [show k + (i + 1) = k + 1 + i by omega] at hmem

/-- When every name up to the last `int` is taken, the loop leaves the `int`. -/
theorem intSuffixLoop_overflow {active : Finset String} {name : String}
    (htaken : ∀ i, i < intMax → candidate name i ∈ active) :
    ∀ {tests k : Nat}, k < intMax → intMax ≤ k + tests →
      intSuffixLoop active name tests (k + 1) (candidate name k) = .overflow := by
  intro tests
  induction tests with
  | zero =>
      intro k hk htests
      omega
  | succ tests ih =>
      intro k hk htests
      rw [intSuffixLoop, if_pos (htaken k hk)]
      by_cases hlast : k + 1 = intMax
      · rw [if_pos hlast]
      · rw [if_neg hlast, ← candidate_succ]
        exact ih (by omega) (by omega)

/-- The name and the names up to the last `int` are not all taken. -/
def SuffixInRange (s : Server) (requestedName : String) : Prop :=
  ∃ i, i < intMax ∧ candidate (baseName requestedName) i ∉ s.activeClientNames

/-- What `AllocateClientName` is for: after at most one test more than there are names it
stops at the first candidate that is free, returns it, and adds it and nothing else. -/
def AllocatesFirstFree (s : Server) (requestedName : String) (session : CtrlId) : Prop :=
  ∃ k, k ≤ s.activeClientNames.card ∧
    (∀ i, i < k → candidate (baseName requestedName) i ∈ s.activeClientNames) ∧
    candidate (baseName requestedName) k ∉ s.activeClientNames ∧
    (∀ tests, k < tests → intSuffixLoop s.activeClientNames (baseName requestedName) tests 1
      (baseName requestedName) = .free (candidate (baseName requestedName) k)) ∧
    s.intAllocateClientName requestedName session =
      some ({ s with
        activeClientNames := insert (candidate (baseName requestedName) k) s.activeClientNames
        sessions := s.sessions.insert (candidate (baseName requestedName) k) session },
        candidate (baseName requestedName) k)

/-- As long as not all of them are taken the loop finds the first that is free, and so does
the loop without the `int`. -/
theorem SuffixInRange.first {s : Server} {requestedName : String}
    (h : s.SuffixInRange requestedName) :
    ∃ k, k ≤ s.activeClientNames.card ∧
      freeClientName s.activeClientNames requestedName = candidate (baseName requestedName) k ∧
      (∀ i, i < k → candidate (baseName requestedName) i ∈ s.activeClientNames) ∧
      candidate (baseName requestedName) k ∉ s.activeClientNames ∧
      ∀ tests, k < tests → intSuffixLoop s.activeClientNames (baseName requestedName) tests 1
        (baseName requestedName) = .free (candidate (baseName requestedName) k) := by
  obtain ⟨k, hcard, hname, htaken, hfree⟩ := freeClientName_spec s.activeClientNames requestedName
  obtain ⟨i, hi, hout⟩ := h
  have hint : k < intMax := by
    by_contra hover
    exact hout (htaken i (by omega))
  rw [hname] at hfree
  refine ⟨k, hcard, hname, htaken, hfree, fun tests htests => ?_⟩
  have hloop := intSuffixLoop_free (k := 0) k (by simpa using htaken) (by simpa using hfree)
    (by omega) htests
  rwa [Nat.zero_add, Nat.zero_add] at hloop

/-- The `int` makes no difference where it is not left. -/
theorem SuffixInRange.allocate {s : Server} {requestedName : String}
    (h : s.SuffixInRange requestedName) (session : CtrlId) :
    s.intAllocateClientName requestedName session =
      some (s.allocateClientName requestedName session) := by
  obtain ⟨k, hcard, hname, -, -, hloop⟩ := h.first
  have hend := hloop (s.activeClientNames.card + 1) (by omega)
  rw [allocateClientName, hname]
  simp only [intAllocateClientName, hend]

theorem taken_of_not_suffixInRange {s : Server} {requestedName : String}
    (h : ¬ s.SuffixInRange requestedName) :
    ∀ i, i < intMax → candidate (baseName requestedName) i ∈ s.activeClientNames := by
  intro i hi
  by_contra hout
  exact h ⟨i, hi, hout⟩

/-- With all of them taken it stops at none. -/
theorem AllocatesFirstFree.suffixInRange {s : Server} {requestedName : String} {session : CtrlId}
    (h : s.AllocatesFirstFree requestedName session) : s.SuffixInRange requestedName := by
  obtain ⟨k, -, -, -, hloop, -⟩ := h
  by_contra hnot
  have htaken := taken_of_not_suffixInRange hnot
  -- so many tests are enough for either end, and there is only one
  have hover : intSuffixLoop s.activeClientNames (baseName requestedName) (k + intMax + 1) 1
      (baseName requestedName) = .overflow :=
    intSuffixLoop_overflow htaken (k := 0) (by decide) (by omega)
  rw [hloop (k + intMax + 1) (by omega)] at hover
  cases hover

/-- **The first free name is allocated** exactly if the suffix stays an `int`. -/
theorem allocatesFirstFree_iff (s : Server) (requestedName : String) (session : CtrlId) :
    s.AllocatesFirstFree requestedName session ↔ s.SuffixInRange requestedName := by
  constructor
  · exact AllocatesFirstFree.suffixInRange
  · intro hrange
    obtain ⟨k, hcard, hname, htaken, hfree, hloop⟩ := hrange.first
    refine ⟨k, hcard, htaken, hfree, hloop, ?_⟩
    rw [hrange.allocate session, allocateClientName, hname]

/-- Somebody has `client` and every name that an `int` can make of it. -/
theorem allocatesFirstFree_crowded : ¬ AllocatesFirstFree
    { token := "t"
      activeClientNames := (Finset.range (intMax + 1)).image (candidate "client") } "" 0 := by
  intro h
  obtain ⟨i, hi, hout⟩ := h.suffixInRange
  exact hout (Finset.mem_image_of_mem _ (Finset.mem_range.mpr (by omega)))

end Server

end Cfrp

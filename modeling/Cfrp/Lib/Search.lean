import Mathlib.Data.List.Infix

/-!
# The first occurrence of a list in another

`find needle l` is the index of the first occurrence. `find_eq_some_iff` says what it means;
the other lemmas say where an occurrence can lie in a list that is put together.
-/

namespace Cfrp.Lib

universe u

variable {α : Type u} [DecidableEq α]

def find (needle : List α) : List α → Option Nat
  | [] => if needle = [] then some 0 else none
  | x :: xs => if needle <+: x :: xs then some 0 else (find needle xs).map (· + 1)

/-- **The first index** at which the needle begins. -/
theorem find_eq_some_iff {needle : List α} (hne : needle ≠ []) {l : List α} {i : Nat} :
    find needle l = some i ↔ needle <+: l.drop i ∧ ∀ j < i, ¬ needle <+: l.drop j := by
  induction l generalizing i with
  | nil =>
      rw [find, if_neg hne, List.drop_nil, List.prefix_nil]
      exact ⟨fun h => absurd h (by simp), fun h => absurd h.1 hne⟩
  | cons x xs ih =>
      rw [find]
      split
      · rename_i hhere
        constructor
        · intro h
          rw [← Option.some.inj h]
          exact ⟨hhere, fun j hj => absurd hj (Nat.not_lt_zero j)⟩
        · rintro ⟨-, hfirst⟩
          cases i with
          | zero => rfl
          | succ i => exact absurd hhere (hfirst 0 (Nat.succ_pos i))
      · rename_i hnot
        rw [Option.map_eq_some_iff]
        constructor
        · rintro ⟨k, hk, rfl⟩
          obtain ⟨hat, hfirst⟩ := ih.mp hk
          refine ⟨hat, fun j hj => ?_⟩
          cases j with
          | zero => exact hnot
          | succ j => exact hfirst j (Nat.lt_of_succ_lt_succ hj)
        · rintro ⟨hat, hfirst⟩
          cases i with
          | zero => exact absurd hat hnot
          | succ i =>
              exact ⟨i, ih.mpr ⟨hat, fun j hj => hfirst (j + 1) (Nat.succ_lt_succ hj)⟩, rfl⟩

omit [DecidableEq α] in
/-- An occurrence lies inside the list. -/
theorem length_of_prefix_drop {needle l : List α} {i : Nat} (hne : needle ≠ [])
    (h : needle <+: l.drop i) : i + needle.length ≤ l.length := by
  have hle := h.length_le
  have hpos := List.length_pos_iff.mpr hne
  rw [List.length_drop] at hle
  omega

omit [DecidableEq α] in
/-- An occurrence somewhere is an infix. -/
theorem exists_prefix_drop_iff {needle l : List α} :
    (∃ i, needle <+: l.drop i) ↔ needle <:+: l := by
  constructor
  · rintro ⟨i, h⟩
    exact h.isInfix.trans (List.drop_suffix i l).isInfix
  · rintro ⟨s, t, rfl⟩
    refine ⟨s.length, ?_⟩
    rw [List.append_assoc, List.drop_left]
    exact List.prefix_append _ _

theorem isSome_find_iff {needle : List α} (hne : needle ≠ []) {l : List α} :
    (find needle l).isSome = true ↔ needle <:+: l := by
  induction l with
  | nil =>
      rw [find, if_neg hne, List.infix_nil]
      exact iff_of_false Bool.false_ne_true hne
  | cons x xs ih =>
      rw [find, List.infix_cons_iff]
      split
      · rename_i hhere
        exact iff_of_true rfl (.inl hhere)
      · rename_i hnot
        rw [Option.isSome_map, ih, or_iff_right hnot]

omit [DecidableEq α] in
/-- An occurrence that ends inside the first part is one of the first part. -/
theorem prefix_drop_append {needle l r : List α} {i : Nat} (hroom : i + needle.length ≤ l.length) :
    needle <+: (l ++ r).drop i ↔ needle <+: l.drop i := by
  rw [List.drop_append_of_le_length (by omega)]
  constructor
  · intro h
    refine List.prefix_of_prefix_length_le h (List.prefix_append _ r) ?_
    rw [List.length_drop]
    omega
  · exact fun h => h.trans (List.prefix_append _ r)

/-- What is found in a part of the list is found there. -/
theorem find_take {needle : List α} (hne : needle ≠ []) (l : List α) (n : Nat) :
    find needle (l.take n) = (find needle l).filter fun i => i + needle.length ≤ n := by
  have hpos := List.length_pos_iff.mpr hne
  have hpart : ∀ i, needle <+: (l.take n).drop i ↔ needle <+: l.drop i ∧ i + needle.length ≤ n := by
    intro i
    rw [List.drop_take, List.prefix_take_iff]
    exact and_congr_right fun _ => by omega
  apply Option.ext
  intro i
  rw [find_eq_some_iff hne, Option.filter_eq_some_iff, find_eq_some_iff hne, hpart,
    decide_eq_true_eq]
  constructor
  · rintro ⟨⟨hat, hroom⟩, hfirst⟩
    exact ⟨⟨hat, fun j hj hocc => hfirst j hj ((hpart j).mpr ⟨hocc, by omega⟩)⟩, hroom⟩
  · rintro ⟨⟨hat, hfirst⟩, hroom⟩
    exact ⟨⟨hat, hroom⟩, fun j hj hocc => hfirst j hj ((hpart j).mp hocc).1⟩

/-- A list that does not have the first element of the needle is passed over. -/
theorem find_append_of_notMem {x : α} {xs : List α} :
    ∀ {l : List α}, x ∉ l → ∀ r, find (x :: xs) (l ++ r) = (find (x :: xs) r).map (l.length + ·)
  | [], _, r => by
      rw [List.nil_append]
      cases find (x :: xs) r with
      | none => rfl
      | some i => exact congrArg some (Nat.zero_add i).symm
  | y :: l, hx, r => by
      rw [List.mem_cons, not_or] at hx
      have hnot : ¬ x :: xs <+: y :: (l ++ r) := fun h => hx.1 (List.cons_prefix_cons.mp h).1
      rw [List.cons_append, find, if_neg hnot, find_append_of_notMem hx.2 r, Option.map_map]
      refine Option.map_congr fun i _ => ?_
      show l.length + i + 1 = (l.length + 1) + i
      omega

/-- The needle after a list that does not have its first element. -/
theorem find_of_notMem {x : α} {xs l : List α} (hx : x ∉ l) (r : List α) :
    find (x :: xs) (l ++ (x :: xs ++ r)) = some l.length := by
  rw [find_append_of_notMem hx, List.cons_append, find,
    if_pos (show x :: xs <+: x :: (xs ++ r) from List.prefix_append (x :: xs) r)]
  rfl

omit [DecidableEq α] in
/-- An occurrence does not run over an element that the needle does not have. -/
theorem prefix_drop_of_notMem {needle l r : List α} {x : α} (hx : x ∉ needle) {i : Nat}
    (hi : i ≤ l.length) (h : needle <+: (l ++ [x] ++ r).drop i) : needle <+: l.drop i := by
  by_contra hout
  have hdrop : (l ++ [x] ++ r).drop i = l.drop i ++ [x] ++ r := by
    rw [List.append_assoc, List.append_assoc, List.drop_append_of_le_length hi]
  rw [hdrop] at h
  by_cases hlen : needle.length ≤ (l.drop i).length
  · refine hout (List.prefix_of_prefix_length_le h ?_ hlen)
    rw [List.append_assoc]
    exact List.prefix_append _ _
  · have hover : l.drop i ++ [x] <+: needle := by
      refine List.prefix_of_prefix_length_le (List.prefix_append _ r) h ?_
      rw [List.length_append, List.length_singleton]
      omega
    exact hx (hover.subset (List.mem_append_right _ (List.mem_singleton.mpr rfl)))

/-- The search goes on behind an element that the needle does not have. -/
theorem find_append_of_break {needle l : List α} {x : α} (hne : needle ≠ []) (hx : x ∉ needle)
    (hnone : find needle l = none) (r : List α) :
    find needle (l ++ [x] ++ r) = (find needle r).map (l.length + 1 + ·) := by
  have hlen : (l ++ [x]).length = l.length + 1 := List.length_append
  have hleft : ∀ j ≤ l.length, ¬needle <+: (l ++ [x] ++ r).drop j := by
    intro j hj h
    have hin := exists_prefix_drop_iff.mp ⟨j, prefix_drop_of_notMem hx hj h⟩
    rw [← isSome_find_iff hne, hnone] at hin
    cases hin
  have hright : ∀ k, (l ++ [x] ++ r).drop (l.length + 1 + k) = r.drop k := by
    intro k
    rw [← hlen, List.drop_length_add_append]
  apply Option.ext
  intro i
  rw [find_eq_some_iff hne, Option.map_eq_some_iff]
  constructor
  · rintro ⟨hat, hfirst⟩
    have hover : l.length < i := Nat.not_le.mp fun hi => hleft i hi hat
    obtain ⟨k, rfl⟩ := Nat.exists_eq_add_of_le (Nat.succ_le_of_lt hover)
    refine ⟨k, (find_eq_some_iff hne).mpr ⟨hright k ▸ hat, fun j hj hocc => ?_⟩, rfl⟩
    exact hfirst (l.length + 1 + j) (Nat.add_lt_add_left hj _) (hright j ▸ hocc)
  · rintro ⟨k, hk, rfl⟩
    obtain ⟨hat, hfirst⟩ := (find_eq_some_iff hne).mp hk
    refine ⟨hright k ▸ hat, fun j hj hocc => ?_⟩
    rcases Nat.lt_or_ge l.length j with hover | hle
    · obtain ⟨m, rfl⟩ := Nat.exists_eq_add_of_le (Nat.succ_le_of_lt hover)
      exact hfirst m (Nat.lt_of_add_lt_add_left hj) (hright m ▸ hocc)
    · exact hleft j hle hocc

end Cfrp.Lib

import Mathlib.Data.List.AList

/-!
# Finite tables

A `Table κ ν` is Mathlib's association list with distinct keys at a constant
value type. Mathlib has `lookup`, `insert` and `erase`; this file adds the bulk
operations a program performs on its tables, and for each of them the one lemma
that says what a later `lookup` sees. Nothing else about a table is ever used.
-/

namespace Cfrp.Lib

universe u v

/-- A finite map from keys to values. -/
abbrev Table (κ : Type u) (ν : Type v) := AList (fun _ : κ => ν)

namespace Table

variable {κ : Type u} {ν : Type v} [DecidableEq κ]

theorem lookup_eq_some_iff {t : Table κ ν} {k : κ} {v : ν} :
    t.lookup k = some v ↔ ⟨k, v⟩ ∈ t.entries :=
  List.mem_dlookup_iff t.nodupKeys

/-- What an insertion leaves to be looked up. -/
theorem lookup_insert_if (t : Table κ ν) (k a : κ) (v : ν) :
    (t.insert a v).lookup k = if k = a then some v else t.lookup k := by
  split
  · rename_i h
    rw [h, AList.lookup_insert]
  · rename_i h
    rw [AList.lookup_insert_ne h]

/-- What an erasure leaves to be looked up. -/
theorem lookup_erase_if (t : Table κ ν) (k a : κ) :
    (t.erase a).lookup k = if k = a then none else t.lookup k := by
  split
  · rename_i h
    rw [h, AList.lookup_erase]
  · rename_i h
    rw [AList.lookup_erase_ne h]

/-- An erasure reveals nothing new. -/
theorem lookup_of_lookup_erase {t : Table κ ν} {k a : κ} {v : ν}
    (h : (t.erase a).lookup k = some v) : t.lookup k = some v := by
  rw [lookup_erase_if] at h
  split at h
  · exact absurd h (by simp)
  · exact h

/-- The entries in some order, one of them in front. -/
theorem perm_of_lookup {t : Table κ ν} {a : κ} {v : ν} (h : t.lookup a = some v) :
    t.entries.Perm (⟨a, v⟩ :: (t.erase a).entries) := by
  have hlist : ∀ l : List (Sigma fun _ : κ => ν), l.dlookup a = some v →
      l.Perm (⟨a, v⟩ :: l.kerase a) := by
    intro l
    induction l with
    | nil => exact fun h => absurd h (by simp)
    | cons e l ih =>
        intro h
        by_cases ha : a = e.1
        · subst ha
          rw [List.dlookup_cons_eq] at h
          rw [List.kerase_cons_eq rfl, ← Option.some.inj h]
        · rw [List.dlookup_cons_ne _ _ ha] at h
          rw [List.kerase_cons_ne ha]
          exact ((ih h).cons e).trans (List.Perm.swap _ _ _)
  exact hlist t.entries h

/-- The entries of a table with a new binding. -/
theorem entries_insert_erase (t : Table κ ν) (a : κ) (v : ν) :
    (t.insert a v).entries = ⟨a, v⟩ :: (t.erase a).entries := rfl

/-- Insert, unless the key is taken. -/
def emplace (t : Table κ ν) (a : κ) (v : ν) : Table κ ν :=
  if a ∈ t then t else t.insert a v

theorem lookup_emplace (t : Table κ ν) (k a : κ) (v : ν) :
    (t.emplace a v).lookup k = if k = a ∧ t.lookup a = none then some v else t.lookup k := by
  unfold emplace
  by_cases hmem : a ∈ t
  · have hsome : t.lookup a ≠ none := fun h => AList.lookup_eq_none.mp h hmem
    rw [if_pos hmem, if_neg (fun h => hsome h.2)]
  · have hnone : t.lookup a = none := AList.lookup_eq_none.mpr hmem
    rw [if_neg hmem, lookup_insert_if]
    by_cases hk : k = a
    · rw [if_pos hk, if_pos ⟨hk, hnone⟩]
    · rw [if_neg hk, if_neg (fun h => hk h.1)]

/-- Drop every binding whose value satisfies `p`. -/
def eraseIf (t : Table κ ν) (p : ν → Bool) : Table κ ν where
  entries := t.entries.filter fun kv => !p kv.2
  nodupKeys := t.nodupKeys.sublist List.filter_sublist

theorem lookup_eraseIf (t : Table κ ν) (p : ν → Bool) (k : κ) :
    (t.eraseIf p).lookup k = (t.lookup k).filter fun v => !p v := by
  apply Option.ext
  intro v
  rw [lookup_eq_some_iff, Option.filter_eq_some_iff, lookup_eq_some_iff]
  simp [eraseIf]

omit [DecidableEq κ] in
theorem eraseIf_eraseIf (t : Table κ ν) (p q : ν → Bool) :
    (t.eraseIf p).eraseIf q = t.eraseIf fun v => p v || q v := by
  apply AList.ext
  simp only [eraseIf, List.filter_filter]
  congr 1
  funext kv
  cases p kv.2 <;> cases q kv.2 <;> rfl

omit [DecidableEq κ] in
theorem eraseIf_false (t : Table κ ν) : (t.eraseIf fun _ => false) = t := by
  apply AList.ext
  simp [eraseIf]

/-- Erase a list of keys, one after the other. -/
def eraseAll (t : Table κ ν) (ks : List κ) : Table κ ν := ks.foldl (fun t k => t.erase k) t

theorem lookup_eraseAll (ks : List κ) (t : Table κ ν) (k : κ) :
    (t.eraseAll ks).lookup k = if k ∈ ks then none else t.lookup k := by
  induction ks generalizing t with
  | nil => simp [eraseAll]
  | cons a ks ih =>
      have hcons : t.eraseAll (a :: ks) = eraseAll (t.erase a) ks := rfl
      rw [hcons, ih, lookup_erase_if]
      by_cases hk : k ∈ ks
      · rw [if_pos hk, if_pos (List.mem_cons_of_mem _ hk)]
      · by_cases ha : k = a
        · rw [if_neg hk, if_pos ha, if_pos (ha ▸ List.mem_cons_self)]
        · rw [if_neg hk, if_neg ha, if_neg (by simp [ha, hk])]

/-- Bind every key of a list to one value. -/
def insertAll (t : Table κ ν) (ks : List κ) (v : ν) : Table κ ν :=
  ks.foldl (fun t k => t.insert k v) t

theorem lookup_insertAll (ks : List κ) (t : Table κ ν) (k : κ) (v : ν) :
    (t.insertAll ks v).lookup k = if k ∈ ks then some v else t.lookup k := by
  induction ks generalizing t with
  | nil => simp [insertAll]
  | cons a ks ih =>
      have hcons : t.insertAll (a :: ks) v = insertAll (t.insert a v) ks v := rfl
      rw [hcons, ih, lookup_insert_if]
      by_cases hk : k ∈ ks
      · rw [if_pos hk, if_pos (List.mem_cons_of_mem _ hk)]
      · by_cases ha : k = a
        · rw [if_neg hk, if_pos ha, if_pos (ha ▸ List.mem_cons_self)]
        · rw [if_neg hk, if_neg ha, if_neg (by simp [ha, hk])]

end Table

end Cfrp.Lib

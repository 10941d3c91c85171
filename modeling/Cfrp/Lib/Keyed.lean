import Mathlib.Data.List.Nodup

/-!
# Lists whose elements have a key

A program that keeps its objects in a list and refers to them by index still talks about
them by a key. As long as the keys are distinct, changing the element at an index
changes what is found under that element's key and nothing else.
-/

namespace Cfrp.Lib

universe u v

variable {α : Type u} {κ : Type v} [DecidableEq κ] (key : α → κ)

/-- The element with a key. -/
def findKey (l : List α) (k : κ) : Option α := l.find? fun a => key a = k

variable {key} {l : List α} {o : Nat} {a : α} {f : α → α}

theorem findKey_eq_none {k : κ} : findKey key l k = none ↔ ∀ a ∈ l, key a ≠ k := by
  simp [findKey]

theorem mem_of_findKey {k : κ} (h : findKey key l k = some a) : a ∈ l ∧ key a = k :=
  ⟨List.mem_of_find?_eq_some h, by simpa using List.find?_some h⟩

theorem findKey_of_getElem? (hnd : (l.map key).Nodup) (h : l[o]? = some a) :
    findKey key l (key a) = some a := by
  induction l generalizing o with
  | nil => simp at h
  | cons b l ih =>
      rw [List.map_cons, List.nodup_cons] at hnd
      cases o with
      | zero =>
          rw [List.getElem?_cons_zero] at h
          cases h
          simp [findKey]
      | succ o =>
          rw [List.getElem?_cons_succ] at h
          have hne : key b ≠ key a := fun heq =>
            hnd.1 (heq ▸ List.mem_map_of_mem (List.mem_of_getElem? h))
          have hb : findKey key (b :: l) (key a) = findKey key l (key a) := by
            simp [findKey, hne]
          rw [hb]
          exact ih hnd.2 h

omit [DecidableEq κ] in
theorem map_key_modify (h : l[o]? = some a) (hf : key (f a) = key a) :
    (l.modify o f).map key = l.map key := by
  induction l generalizing o with
  | nil => simp at h
  | cons b l ih =>
      cases o with
      | zero =>
          rw [List.getElem?_cons_zero] at h
          cases h
          rw [List.modify_zero_cons, List.map_cons, List.map_cons, hf]
      | succ o =>
          rw [List.getElem?_cons_succ] at h
          rw [List.modify_succ_cons, List.map_cons, List.map_cons, ih h]

/-- **What a change of one element changes.** -/
theorem findKey_modify (hnd : (l.map key).Nodup) (h : l[o]? = some a) (hf : key (f a) = key a)
    (k : κ) : findKey key (l.modify o f) k = if k = key a then some (f a) else findKey key l k := by
  induction l generalizing o with
  | nil => simp at h
  | cons b l ih =>
      rw [List.map_cons, List.nodup_cons] at hnd
      cases o with
      | zero =>
          rw [List.getElem?_cons_zero] at h
          cases h
          rw [List.modify_zero_cons]
          by_cases hk : k = key a
          · simp [findKey, hf, hk]
          · simp [findKey, hf, hk, Ne.symm hk]
      | succ o =>
          rw [List.getElem?_cons_succ] at h
          rw [List.modify_succ_cons]
          have hne : key b ≠ key a := fun heq =>
            hnd.1 (heq ▸ List.mem_map_of_mem (List.mem_of_getElem? h))
          have hrec := ih hnd.2 h
          by_cases hb : key b = k
          · have hk : k ≠ key a := fun heq => hne (hb.trans heq)
            simp [findKey, hb, hk]
          · have hcons : ∀ m : List α, findKey key (b :: m) k = findKey key m k := by
              intro m
              simp [findKey, hb]
            rw [hcons, hcons, hrec]

omit [DecidableEq κ] in
/-- Elements with one key are one element. -/
theorem index_unique {o' : Nat} {b : α} (hnd : (l.map key).Nodup) (h : l[o]? = some a)
    (h' : l[o']? = some b) (hkey : key a = key b) : o = o' := by
  have hk : (l.map key)[o]? = (l.map key)[o']? := by
    rw [List.getElem?_map, List.getElem?_map, h, h']
    simp [hkey]
  have hlt : o < (l.map key).length := by
    rw [List.length_map]
    exact (List.getElem?_eq_some_iff.mp h).1
  exact (List.getElem?_inj hlt hnd).mp hk

/-- What stands at a place of a list one element of which was changed. -/
theorem of_getElem?_modify {o' : Nat} {b : α} (h : l[o]? = some a)
    (hb : (l.modify o f)[o']? = some b) : o' = o ∧ b = f a ∨ o' ≠ o ∧ l[o']? = some b := by
  rw [List.getElem?_modify] at hb
  by_cases ho : o = o'
  · subst ho
    rw [h] at hb
    simp only [if_true, Option.map_eq_map, Option.map_some, Option.some.injEq] at hb
    exact Or.inl ⟨rfl, hb.symm⟩
  · simp only [ho, if_false] at hb
    exact Or.inr ⟨fun heq => ho heq.symm, by simpa using hb⟩

theorem map_modify_const {β : Type*} (g : α → β) (l : List α) (o : Nat) (a : α) :
    (l.modify o fun _ => a).map g = (l.map g).modify o fun _ => g a := by
  induction l generalizing o with
  | nil => simp
  | cons b l ih =>
      cases o with
      | zero => rfl
      | succ o => simp [ih]

theorem mem_modify {b : α} (h : l[o]? = some a) (hb : b ∈ l.modify o f) : b = f a ∨ b ∈ l := by
  obtain ⟨o', hb⟩ := List.getElem?_of_mem hb
  rcases of_getElem?_modify h hb with ⟨-, rfl⟩ | ⟨-, hb⟩
  · exact Or.inl rfl
  · exact Or.inr (List.mem_of_getElem? hb)

/-- What a change of one element does to how often something occurs in a list that is put
together from the elements. -/
theorem count_flatMap_modify {β : Type*} [DecidableEq β] (h : l[o]? = some a) (g : α → List β)
    (x : β) : ((l.modify o f).flatMap g).count x + (g a).count x =
      (l.flatMap g).count x + (g (f a)).count x := by
  induction l generalizing o with
  | nil => simp at h
  | cons b l ih =>
      cases o with
      | zero =>
          rw [List.getElem?_cons_zero] at h
          cases h
          rw [List.modify_zero_cons, List.flatMap_cons, List.flatMap_cons, List.count_append,
            List.count_append]
          omega
      | succ o =>
          rw [List.getElem?_cons_succ] at h
          have hrec := ih h
          rw [List.modify_succ_cons, List.flatMap_cons, List.flatMap_cons, List.count_append,
            List.count_append]
          omega

/-- A change that what is put together does not show. -/
theorem flatMap_modify_of_eq {β : Type*} (h : l[o]? = some a) {g : α → List β}
    (hf : g (f a) = g a) : (l.modify o f).flatMap g = l.flatMap g := by
  rw [List.flatMap_def, List.flatMap_def, map_key_modify h hf]

/-- A change of the last element that gives anything to a list that is put together. -/
theorem flatMap_modify_last {β : Type*} (h : l[o]? = some a) {g : α → List β} {x : List β}
    (hf : g (f a) = g a ++ x) (hlast : ∀ o' b, o < o' → l[o']? = some b → g b = []) :
    (l.modify o f).flatMap g = l.flatMap g ++ x := by
  induction l generalizing o with
  | nil => simp at h
  | cons b l ih =>
      cases o with
      | zero =>
          rw [List.getElem?_cons_zero] at h
          cases h
          have hnil : l.flatMap g = [] := by
            rw [List.flatMap_eq_nil_iff]
            intro c hc
            obtain ⟨o', hc⟩ := List.getElem?_of_mem hc
            exact hlast (o' + 1) c (Nat.succ_pos o') hc
          rw [List.modify_zero_cons, List.flatMap_cons, List.flatMap_cons, hf, hnil,
            List.append_nil, List.append_nil]
      | succ o =>
          rw [List.getElem?_cons_succ] at h
          have hrest := ih h fun o' c ho hc => hlast (o' + 1) c (Nat.succ_lt_succ ho) hc
          rw [List.modify_succ_cons, List.flatMap_cons, List.flatMap_cons, hrest,
            List.append_assoc]

theorem getElem?_concat_of_some {b : α} (h : l[o]? = some a) : (l ++ [b])[o]? = some a := by
  rw [List.getElem?_append_left (List.getElem?_eq_some_iff.mp h).1, h]

theorem of_getElem?_concat {b : α} (h : (l ++ [b])[o]? = some a) :
    l[o]? = some a ∨ o = l.length ∧ a = b := by
  by_cases hlt : o < l.length
  · rw [List.getElem?_append_left hlt] at h
    exact Or.inl h
  · rw [List.getElem?_append_right (by omega), List.getElem?_singleton] at h
    split at h
    · exact Or.inr ⟨by omega, (Option.some.inj h).symm⟩
    · cases h

/-- An element with a new key is found under it. -/
theorem findKey_concat (hnew : ∀ b ∈ l, key b ≠ key a) (k : κ) :
    findKey key (l ++ [a]) k = if k = key a then some a else findKey key l k := by
  rw [findKey, List.find?_append]
  by_cases hk : k = key a
  · have hnone : (l.find? fun b => key b = k) = none := by
      rw [hk]
      exact findKey_eq_none.mpr hnew
    rw [hnone, if_pos hk]
    simp [hk]
  · rw [if_neg hk]
    simp [findKey, Ne.symm hk]

omit [DecidableEq κ] in
theorem nodup_concat (hnd : (l.map key).Nodup) (hnew : ∀ b ∈ l, key b ≠ key a) :
    ((l ++ [a]).map key).Nodup := by
  rw [List.map_append, List.nodup_append]
  refine ⟨hnd, by simp, ?_⟩
  intro k hk k' hk' heq
  obtain ⟨b, hb, rfl⟩ := List.mem_map.mp hk
  rw [List.map_singleton, List.mem_singleton] at hk'
  exact hnew b hb (heq.trans hk')

end Cfrp.Lib

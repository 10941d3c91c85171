import Cfrp.Lib.Table

/-!
# Two tables that mirror each other

One table maps an address to a key, the other a key to a value that has an address. They
mirror each other at an address if it is mapped to exactly the keys whose values have it. The
property is relative to a set of addresses, since a program may give up an address and leave
its entries behind.
-/

namespace Cfrp.Lib

universe u v w

variable {α : Type u} {κ : Type v} {β : Type w} [DecidableEq α] [DecidableEq κ] {addr : β → α}

/-- `f` and `g` mirror each other at the addresses that satisfy `on`. -/
def Mirrors (addr : β → α) (on : α → Prop) (f : Table α κ) (g : Table κ β) : Prop :=
  ∀ a, on a → ∀ k, f.lookup a = some k ↔ ∃ v, g.lookup k = some v ∧ addr v = a

namespace Mirrors

variable {on on' : α → Prop} {f : Table α κ} {g : Table κ β} {k : κ} {v : β}

theorem mono (h : Mirrors addr on f g) (himp : ∀ a, on' a → on a) : Mirrors addr on' f g :=
  fun a ha => h a (himp a ha)

/-- Addresses neither table knows. -/
theorem extend (h : Mirrors addr on f g) (new : α → Prop) (hf : ∀ a, new a → f.lookup a = none)
    (hg : ∀ k v, g.lookup k = some v → ¬ new (addr v)) :
    Mirrors addr (fun a => new a ∨ on a) f g := by
  intro a ha k
  rcases ha with hnew | ha
  · rw [hf a hnew]
    constructor
    · exact fun heq => absurd heq (by simp)
    · rintro ⟨v, hv, rfl⟩
      exact absurd hnew (hg k v hv)
  · exact h a ha k

/-- Mapping an address matters to no other one. -/
theorem insert (h : Mirrors addr on f g) (a : α) (k : κ) :
    Mirrors addr (fun b => on b ∧ b ≠ a) (f.insert a k) g := by
  intro b hb k'
  rw [Table.lookup_insert_if, if_neg hb.2]
  exact h b hb.1 k'

/-- A value is taken out together with the mapping of its address. -/
theorem drop (h : Mirrors addr on f g) (hv : g.lookup k = some v) :
    Mirrors addr on (f.erase (addr v)) (g.erase k) := by
  intro b hb k'
  have hold := h b hb
  rw [Table.lookup_erase_if]
  constructor
  · intro hmapped
    split at hmapped
    · exact absurd hmapped (by simp)
    · rename_i hne
      obtain ⟨v', hv', haddr⟩ := (hold k').mp hmapped
      have hk : k' ≠ k := by
        rintro rfl
        rw [hv] at hv'
        exact hne (haddr ▸ congrArg addr (Option.some.inj hv').symm)
      exact ⟨v', by rw [Table.lookup_erase_if, if_neg hk, hv'], haddr⟩
  · rintro ⟨v', hv', haddr⟩
    rw [Table.lookup_erase_if] at hv'
    split at hv'
    · exact absurd hv' (by simp)
    · rename_i hk
      have hmapped := (hold k').mpr ⟨v', hv', haddr⟩
      -- the address of the value that goes is mapped to that value's key
      have hne : b ≠ addr v := by
        rintro rfl
        have := (hold k).mpr ⟨v, hv, rfl⟩
        rw [hmapped] at this
        exact hk (Option.some.inj this)
      rw [if_neg hne]
      exact hmapped

/-- Values of addresses outside the set come and go. -/
theorem emplace (h : Mirrors addr on f g) (hout : ¬ on (addr v)) :
    Mirrors addr on f (g.emplace k v) := by
  intro b hb k'
  rw [h b hb]
  refine exists_congr fun v' => ?_
  rw [Table.lookup_emplace]
  split
  · rename_i hk
    constructor
    · rintro ⟨hv', -⟩
      rw [hk.1, hk.2] at hv'
      exact absurd hv' (by simp)
    · rintro ⟨hv', haddr⟩
      rw [← Option.some.inj hv'] at haddr
      exact absurd (haddr ▸ hb) hout
  · rfl

theorem eraseIf {p : β → Bool} (h : Mirrors addr on f g)
    (hout : ∀ k v, g.lookup k = some v → p v = true → ¬ on (addr v)) :
    Mirrors addr on f (g.eraseIf p) := by
  intro b hb k
  rw [h b hb]
  refine exists_congr fun v => ?_
  rw [Table.lookup_eraseIf, Option.filter_eq_some_iff]
  constructor
  · rintro ⟨hv, rfl⟩
    have hp : p v ≠ true := fun hp => hout k v hv hp hb
    exact ⟨⟨hv, by simpa using hp⟩, rfl⟩
  · rintro ⟨⟨hv, -⟩, haddr⟩
    exact ⟨hv, haddr⟩

/-- The value of a mapped address arrives. -/
theorem file (h : Mirrors addr (fun b => on b ∧ b ≠ addr v) f g)
    (hf : f.lookup (addr v) = some k) (hg : ∀ k v', g.lookup k = some v' → addr v' ≠ addr v)
    (hk : g.lookup k = none) : Mirrors addr on f (g.emplace k v) := by
  intro b hb k'
  by_cases heq : b = addr v
  · subst heq
    rw [hf, Option.some.injEq]
    constructor
    · rintro rfl
      exact ⟨v, by rw [Table.lookup_emplace, if_pos ⟨rfl, hk⟩], rfl⟩
    · rintro ⟨v', hv', haddr⟩
      rw [Table.lookup_emplace] at hv'
      split at hv'
      · rename_i hnew
        exact hnew.1.symm
      · exact absurd haddr (hg k' v' hv')
  · rw [h b ⟨hb, heq⟩]
    refine exists_congr fun v' => ?_
    rw [Table.lookup_emplace]
    split
    · rename_i hnew
      constructor
      · rintro ⟨hv', -⟩
        rw [hnew.1, hk] at hv'
        exact absurd hv' (by simp)
      · rintro ⟨hv', haddr⟩
        rw [← Option.some.inj hv'] at haddr
        exact absurd haddr.symm heq
    · rfl

end Mirrors

end Cfrp.Lib

import Cfrp.Lib.Codec

/-!
# The indices a reader forms

A `Traced` reader does what a reader does and keeps a list of the indices it forms on the
way, whether it returns or throws. `Strays m bad` says that one of them is outside of the
string exactly where the bytes left are `bad`. As with `Canonical`, there is one rule for
each way readers are put together: a composite strays where its first part does, or where
that part leaves bytes on which the second does.
-/

namespace Cfrp.Lib

universe u

def Traced (β α : Type u) := Cursor β → Option (α × Cursor β) × List Nat

namespace Traced

variable {β α γ : Type u}

def reader (m : Traced β α) : Reader β α := fun c => (m c).1

def indices (m : Traced β α) (c : Cursor β) : List Nat := (m c).2

def pure (a : α) : Traced β α := fun c => (some (a, c), [])

def bind (m : Traced β α) (k : α → Traced β γ) : Traced β γ := fun c =>
  match m c with
  | (none, formed) => (none, formed)
  | (some (a, c'), formed) => ((k a c').1, formed ++ (k a c').2)

instance : Monad (Traced β) where
  pure := pure
  bind := bind

/-- `count` items, one after the other. -/
def items (m : Traced β α) : Nat → Traced β (List α)
  | 0 => pure []
  | count + 1 => do
      let a ← m
      let rest ← items m count
      pure (a :: rest)

@[simp] theorem reader_pure (a : α) : (Pure.pure a : Traced β α).reader = Pure.pure a := rfl

@[simp] theorem reader_bind (m : Traced β α) (k : α → Traced β γ) :
    (m >>= k).reader = m.reader >>= fun a => (k a).reader := by
  funext c
  show (m.bind k c).1 = (m c).1.bind fun r => (k r.1 r.2).1
  rw [bind]
  cases h : m c with
  | mk result formed =>
      cases result with
      | none => rfl
      | some r => rfl

@[simp] theorem reader_map (f : α → γ) (m : Traced β α) : (f <$> m).reader = f <$> m.reader :=
  reader_bind m fun a => Pure.pure (f a)

@[simp] theorem reader_items (m : Traced β α) (count : Nat) :
    (m.items count).reader = readItems m.reader count := by
  induction count with
  | zero => rfl
  | succ count ih =>
      rw [items, readItems, reader_bind]
      simp only [reader_bind, ih]
      rfl

theorem indices_bind_of_none {m : Traced β α} (k : α → Traced β γ) {c : Cursor β}
    (h : m.reader c = none) : (m >>= k).indices c = m.indices c := by
  show (m.bind k c).2 = (m c).2
  rw [bind]
  cases hm : m c with
  | mk result formed =>
      obtain rfl : result = none := by
        rw [← h, reader, hm]
      rfl

theorem indices_bind_of_some {m : Traced β α} (k : α → Traced β γ) {c c' : Cursor β} {a : α}
    (h : m.reader c = some (a, c')) :
    (m >>= k).indices c = m.indices c ++ (k a).indices c' := by
  show (m.bind k c).2 = (m c).2 ++ (k a c').2
  rw [bind]
  cases hm : m c with
  | mk result formed =>
      obtain rfl : result = some (a, c') := by
        rw [← h, reader, hm]
      rfl

/-- Every index formed is one of the string. -/
def InBounds (m : Traced β α) (c : Cursor β) : Prop := ∀ i ∈ m.indices c, i < c.data.length

end Traced

/-- What was read stood in front of what is left. -/
theorem Canonical.left_of_read {β α : Type u} {m : Reader β α} {write : α → List β}
    {fits : α → Prop} (h : Canonical m write fits) {c c' : Cursor β} {a : α}
    (hread : m c = some (a, c')) : fits a ∧ c.left = write a ++ c'.left ∧ c'.data = c.data := by
  obtain ⟨hfits, ⟨rest, hrest⟩, hahead⟩ := (h c a c').mp hread
  refine ⟨hfits, ?_, hahead.1⟩
  rw [hahead.left, ← hrest, List.drop_left]

/-- What fits and stands in front is read. -/
theorem Canonical.exists_read {β α : Type u} {m : Reader β α} {write : α → List β}
    {fits : α → Prop} (h : Canonical m write fits) {c : Cursor β} {a : α} {rest : List β}
    (hfits : fits a) (hleft : c.left = write a ++ rest) :
    ∃ c', m c = some (a, c') ∧ c'.data = c.data ∧ c'.left = rest := by
  have hroom : c.pos + (write a).length ≤ c.data.length := by
    have hlen := c.length_left
    have hbound := c.bound
    rw [hleft, List.length_append] at hlen
    omega
  let c' : Cursor β := { data := c.data, pos := c.pos + (write a).length, bound := hroom }
  have hahead : c.Ahead (write a).length c' := ⟨rfl, rfl⟩
  refine ⟨c', (h c a c').mpr ⟨hfits, ⟨rest, hleft.symm⟩, hahead⟩, rfl, ?_⟩
  rw [hahead.left, hleft, List.drop_left]

/-- **What can go wrong**: an index outside of the string is formed exactly in front of bytes
that are `bad`. -/
def Strays {β α : Type u} (m : Traced β α) (bad : List β → Prop) : Prop :=
  ∀ c, (∃ i ∈ m.indices c, c.data.length ≤ i) ↔ bad c.left

namespace Strays

variable {β α γ : Type u} {m : Traced β α} {bad bad' : List β → Prop}

theorem congr (h : Strays m bad) (hbad : ∀ l, bad l ↔ bad' l) : Strays m bad' :=
  fun c => (h c).trans (hbad _)

theorem inBounds_iff (h : Strays m bad) (c : Cursor β) : m.InBounds c ↔ ¬ bad c.left := by
  rw [← h c]
  constructor
  · rintro hin ⟨i, hi, hle⟩
    have hlt := hin i hi
    omega
  · intro hnot i hi
    by_contra hge
    exact hnot ⟨i, hi, Nat.le_of_not_lt hge⟩

theorem value (a : α) : Strays (Pure.pure a : Traced β α) fun _ => False := by
  intro c
  refine iff_of_false ?_ id
  rintro ⟨i, hi, -⟩
  cases hi

/-- One reader after the other. -/
theorem bind {write : α → List β} {fits : α → Prop} {k : α → Traced β γ}
    {after : α → List β → Prop} (hm : Strays m bad) (hread : Canonical m.reader write fits)
    (hk : ∀ a, Strays (k a) (after a)) :
    Strays (m >>= k) fun l => bad l ∨ ∃ a rest, fits a ∧ l = write a ++ rest ∧ after a rest := by
  intro c
  have hsecond : (∃ a c', m.reader c = some (a, c') ∧ ∃ i ∈ (k a).indices c', c.data.length ≤ i) ↔
      ∃ a rest, fits a ∧ c.left = write a ++ rest ∧ after a rest := by
    constructor
    · rintro ⟨a, c', hsome, hout⟩
      obtain ⟨hfits, hleft, hdata⟩ := hread.left_of_read hsome
      rw [← hdata] at hout
      exact ⟨a, c'.left, hfits, hleft, (hk a c').mp hout⟩
    · rintro ⟨a, rest, hfits, hleft, hafter⟩
      obtain ⟨c', hsome, hdata, hrest⟩ := hread.exists_read hfits hleft
      rw [← hrest] at hafter
      exact ⟨a, c', hsome, hdata ▸ (hk a c').mpr hafter⟩
  show _ ↔ bad c.left ∨ _
  rw [← hm c, ← hsecond]
  cases hresult : m.reader c with
  | none =>
      rw [Traced.indices_bind_of_none k hresult]
      refine (or_iff_left ?_).symm
      rintro ⟨a, c', hsome, -⟩
      cases hsome
  | some r =>
      rw [Traced.indices_bind_of_some k hresult]
      simp only [List.mem_append, or_and_right, exists_or]
      refine or_congr_right ⟨fun hout => ⟨r.1, r.2, rfl, hout⟩, ?_⟩
      rintro ⟨a, c', heq, hout⟩
      obtain rfl := Option.some.inj heq
      exact hout

/-- The result in another form. -/
theorem map {write : α → List β} {fits : α → Prop} (hm : Strays m bad)
    (hread : Canonical m.reader write fits) (f : α → γ) : Strays (f <$> m) bad :=
  (hm.bind hread fun a => value (f a)).congr fun l => by simp

theorem items {write : α → List β} {fits : α → Prop} (hm : Strays m bad)
    (hread : Canonical m.reader write fits) (count : Nat) :
    Strays (m.items count) fun l => ∃ (before : List α) (rest : List β), before.length < count ∧
      (∀ a ∈ before, fits a) ∧ l = before.flatMap write ++ rest ∧ bad rest := by
  induction count with
  | zero => exact (value []).congr fun l => by simp
  | succ count ih =>
      have hrest : Canonical (m.items count).reader (List.flatMap write)
          fun l => l.length = count ∧ ∀ a ∈ l, fits a := by
        rw [Traced.reader_items]
        exact hread.items count
      refine (hm.bind hread fun a => ih.bind hrest fun rest => value (a :: rest)).congr fun l => ?_
      constructor
      · rintro (hbad | ⟨a, rest, ha, rfl, hlater⟩)
        · exact ⟨[], l, Nat.succ_pos count, fun a ha => (by cases ha), rfl, hbad⟩
        · obtain ⟨before, rest, hlen, hfits, rfl, hbad⟩ := hlater.resolve_right (by simp)
          refine ⟨a :: before, rest, Nat.succ_lt_succ hlen, ?_, ?_, hbad⟩
          · exact List.forall_mem_cons.mpr ⟨ha, hfits⟩
          · rw [List.flatMap_cons, List.append_assoc]
      · rintro ⟨before, rest, hlen, hfits, rfl, hbad⟩
        cases before with
        | nil => exact Or.inl hbad
        | cons a before =>
            obtain ⟨ha, hfits⟩ := List.forall_mem_cons.mp hfits
            refine Or.inr ⟨a, before.flatMap write ++ rest, ha, ?_, Or.inl ?_⟩
            · rw [List.flatMap_cons, List.append_assoc]
            · exact ⟨before, rest, Nat.lt_of_succ_lt_succ hlen, hfits, rfl, hbad⟩

end Strays

end Cfrp.Lib

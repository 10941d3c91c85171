import Mathlib.Data.List.Basic

/-!
# Readers that accept exactly what a writer writes

A reader moves a position over a byte string and may throw. `Canonical m write fits` says
that `m` succeeds exactly where the remaining bytes begin with `write v` for a value `v`
that `fits`, that it then returns this `v`, and that it has moved past those bytes and no
more. There is one rule for each way readers are put together, and `Canonical.decode` is
what it means for a whole message.
-/

namespace Cfrp.Lib

universe u v

/-- A position in a byte string. It never leaves the string. -/
structure Cursor (β : Type u) where
  data : List β
  pos : Nat := 0
  bound : pos ≤ data.length

namespace Cursor

variable {β : Type u}

def start (data : List β) : Cursor β := { data, pos := 0, bound := Nat.zero_le _ }

/-- What is still to be read. -/
def left (c : Cursor β) : List β := c.data.drop c.pos

/-- `c'` is `n` symbols further in the same string. -/
def Ahead (c : Cursor β) (n : Nat) (c' : Cursor β) : Prop :=
  c'.data = c.data ∧ c'.pos = c.pos + n

theorem length_left (c : Cursor β) : c.left.length = c.data.length - c.pos := List.length_drop

theorem Ahead.refl (c : Cursor β) : c.Ahead 0 c := ⟨rfl, rfl⟩

theorem ahead_zero {c c' : Cursor β} : c.Ahead 0 c' ↔ c' = c := by
  refine ⟨fun ⟨hdata, hpos⟩ => ?_, fun h => h ▸ Ahead.refl c⟩
  obtain ⟨data, pos, bound⟩ := c
  obtain ⟨data', pos', bound'⟩ := c'
  obtain rfl : data' = data := hdata
  obtain rfl : pos' = pos := hpos
  rfl

theorem Ahead.left {c c' : Cursor β} {n : Nat} (h : c.Ahead n c') : c'.left = c.left.drop n := by
  rw [Cursor.left, Cursor.left, h.1, h.2, List.drop_drop]

/-- Two moves are one. -/
theorem ahead_add {c c' : Cursor β} {n m : Nat} (hn : n ≤ c.left.length) :
    c.Ahead (n + m) c' ↔ ∃ c₁, c.Ahead n c₁ ∧ c₁.Ahead m c' := by
  constructor
  · rintro ⟨hdata, hpos⟩
    have hbound := c.bound
    rw [length_left] at hn
    exact ⟨{ data := c.data, pos := c.pos + n, bound := by omega }, ⟨rfl, rfl⟩, hdata,
      by rw [hpos, Nat.add_assoc]⟩
  · rintro ⟨c₁, ⟨hdata₁, hpos₁⟩, hdata, hpos⟩
    exact ⟨hdata.trans hdata₁, by rw [hpos, hpos₁, Nat.add_assoc]⟩

end Cursor

/-- A reader: it may throw. -/
abbrev Reader (β : Type u) (α : Type u) := StateT (Cursor β) Option α

/-- **The specification of a reader.** -/
def Canonical {β α : Type u} (m : Reader β α) (write : α → List β) (fits : α → Prop) : Prop :=
  ∀ c v c', m c = some (v, c') ↔ fits v ∧ write v <+: c.left ∧ c.Ahead (write v).length c'

namespace Canonical

variable {β α γ : Type u} {m : Reader β α} {write : α → List β} {fits : α → Prop}

theorem congr (h : Canonical m write fits) {write' : α → List β} {fits' : α → Prop}
    (hfits : ∀ v, fits v ↔ fits' v) (hwrite : ∀ v, fits v → write v = write' v) :
    Canonical m write' fits' := by
  intro c v c'
  rw [h c v c', hfits]
  refine and_congr_right fun hv => ?_
  rw [hwrite v ((hfits v).mpr hv)]

/-- Nothing is read. -/
theorem value (a : α) : Canonical (Pure.pure a : Reader β α) (fun _ => []) (· = a) := by
  intro c v c'
  show some (a, c) = some (v, c') ↔ _
  rw [Option.some.injEq, Prod.mk.injEq, List.length_nil, Cursor.ahead_zero]
  simp [eq_comm]

/-- One reader after the other. `R b a` says that `b` can come of the first result `a`. -/
theorem bind (h : Canonical m write fits) {k : α → Reader β γ} {write' : γ → List β}
    {R : γ → α → Prop} (hk : ∀ a, Canonical (k a) write' fun b => R b a) (whole : γ → List β)
    (hwhole : ∀ a b, R b a → whole b = write a ++ write' b) :
    Canonical (m >>= k) whole fun b => ∃ a, fits a ∧ R b a := by
  intro c b c'
  have hbind : (m >>= k) c = some (b, c') ↔ ∃ a c₁, m c = some (a, c₁) ∧ k a c₁ = some (b, c') := by
    show (m c >>= fun r => k r.1 r.2) = some (b, c') ↔ _
    rw [Option.bind_eq_bind, Option.bind_eq_some_iff]
    exact ⟨fun ⟨⟨a, c₁⟩, hm, hk⟩ => ⟨a, c₁, hm, hk⟩, fun ⟨a, c₁, hm, hk⟩ => ⟨(a, c₁), hm, hk⟩⟩
  rw [hbind]
  constructor
  · rintro ⟨a, c₁, hm, hrest⟩
    obtain ⟨hfits, ⟨rest, hleft⟩, hahead⟩ := (h c a c₁).mp hm
    obtain ⟨hR, hafter, hahead'⟩ := (hk a c₁ b c').mp hrest
    rw [hahead.left, ← hleft, List.drop_left] at hafter
    refine ⟨⟨a, hfits, hR⟩, ?_, ?_⟩
    · rw [hwhole a b hR, ← hleft]
      exact (List.prefix_append_right_inj _).mpr hafter
    · rw [hwhole a b hR, List.length_append]
      refine (Cursor.ahead_add ?_).mpr ⟨c₁, hahead, hahead'⟩
      rw [← hleft, List.length_append]
      omega
  · rintro ⟨⟨a, hfits, hR⟩, ⟨rest, hrest⟩, hahead⟩
    have hleft : c.left = write a ++ (write' b ++ rest) := by
      rw [← hrest, hwhole a b hR, List.append_assoc]
    have hlen : (write a).length ≤ c.left.length := by
      rw [hleft, List.length_append]
      omega
    rw [hwhole a b hR, List.length_append] at hahead
    obtain ⟨c₁, hahead₁, hahead₂⟩ := (Cursor.ahead_add hlen).mp hahead
    refine ⟨a, c₁, (h c a c₁).mpr ⟨hfits, ⟨_, hleft.symm⟩, hahead₁⟩, ?_⟩
    refine (hk a c₁ b c').mpr ⟨hR, ⟨rest, ?_⟩, hahead₂⟩
    rw [hahead₁.left, hleft, List.drop_left]

/-- A field of a record is read. `P` is what the fields before it say. -/
theorem field (h : Canonical m write fits) {k : α → Reader β γ} (part : γ → α)
    {write' : γ → List β} {P fits' : γ → Prop}
    (hk : ∀ a, Canonical (k a) write' fun b => (P b ∧ part b = a) ∧ fits' b) :
    Canonical (m >>= k) (fun b => write (part b) ++ write' b)
      fun b => P b ∧ fits (part b) ∧ fits' b := by
  refine (h.bind hk _ ?_).congr (fun b => ?_) fun _ _ => rfl
  · rintro a b ⟨⟨-, rfl⟩, -⟩
    rfl
  · constructor
    · rintro ⟨a, hfits, ⟨hP, rfl⟩, hfits'⟩
      exact ⟨hP, hfits, hfits'⟩
    · rintro ⟨hP, hfits, hfits'⟩
      exact ⟨part b, hfits, ⟨hP, rfl⟩, hfits'⟩

/-- The record is put together when its fields have been read. -/
theorem record (b₀ : γ) {P : γ → Prop} (hP : ∀ b, P b ↔ b = b₀) :
    Canonical (Pure.pure b₀ : Reader β γ) (fun _ => []) fun b => P b ∧ True := by
  refine (Canonical.value b₀).congr (fun b => ?_) fun _ _ => rfl
  rw [and_true, hP]

/-- The result in another form. -/
theorem map (h : Canonical m write fits) (f : α → γ) (g : γ → α) {fits' : γ → Prop}
    (hfg : ∀ a, fits a → fits' (f a) ∧ g (f a) = a)
    (hgf : ∀ b, fits' b → fits (g b) ∧ f (g b) = b) :
    Canonical (f <$> m) (fun b => write (g b)) fits' := by
  intro c b c'
  have hmap : (f <$> m) c = some (b, c') ↔ ∃ a, m c = some (a, c') ∧ f a = b := by
    show (m c >>= fun r => Pure.pure (f r.1, r.2)) = some (b, c') ↔ _
    rw [Option.bind_eq_bind, Option.bind_eq_some_iff]
    constructor
    · rintro ⟨⟨a, c₁⟩, hm, hpure⟩
      obtain ⟨hf, rfl⟩ := Prod.mk.inj (Option.some.inj hpure)
      exact ⟨a, hm, hf⟩
    · rintro ⟨a, hm, rfl⟩
      exact ⟨(a, c'), hm, rfl⟩
  rw [hmap]
  constructor
  · rintro ⟨a, hm, rfl⟩
    obtain ⟨hfits, hafter, hahead⟩ := (h c a c').mp hm
    obtain ⟨hfits', hga⟩ := hfg a hfits
    refine ⟨hfits', ?_, ?_⟩
    · show write (g (f a)) <+: c.left
      rwa [hga]
    · show c.Ahead (write (g (f a))).length c'
      rwa [hga]
  · rintro ⟨hfits', hafter, hahead⟩
    obtain ⟨hfits, hfb⟩ := hgf b hfits'
    exact ⟨g b, (h c _ c').mpr ⟨hfits, hafter, hahead⟩, hfb⟩

end Canonical

/-- `count` items, one after the other. -/
def readItems {β α : Type u} (m : Reader β α) : Nat → Reader β (List α)
  | 0 => pure []
  | count + 1 => do
      let a ← m
      let rest ← readItems m count
      pure (a :: rest)

theorem Canonical.items {β α : Type u} {m : Reader β α} {write : α → List β} {fits : α → Prop}
    (h : Canonical m write fits) (count : Nat) :
    Canonical (readItems m count) (List.flatMap write)
      fun l => l.length = count ∧ ∀ a ∈ l, fits a := by
  induction count with
  | zero =>
      refine (Canonical.value []).congr (fun l => ?_) fun l hl => by rw [hl]; rfl
      rw [List.length_eq_zero_iff]
      exact ⟨fun hl => ⟨hl, fun a ha => by rw [hl] at ha; cases ha⟩, And.left⟩
  | succ count ih =>
      have hcons : ∀ a, Canonical (readItems m count >>= fun rest => pure (a :: rest))
          (fun l => l.tail.flatMap write)
          fun l => ∃ rest, (rest.length = count ∧ ∀ b ∈ rest, fits b) ∧ l = a :: rest := by
        intro a
        refine ih.bind (fun rest => Canonical.value (a :: rest)) _ ?_
        rintro rest l rfl
        rw [List.append_nil]
        rfl
      refine (h.bind hcons _ ?_).congr (fun l => ?_) fun _ _ => rfl
      · rintro a l ⟨rest, -, rfl⟩
        rfl
      · constructor
        · rintro ⟨a, ha, rest, ⟨hlen, hrest⟩, rfl⟩
          refine ⟨by rw [List.length_cons, hlen], fun b hb => ?_⟩
          rcases List.mem_cons.mp hb with rfl | hb
          · exact ha
          · exact hrest b hb
        · rintro ⟨hlen, hall⟩
          cases l with
          | nil => cases hlen
          | cons a rest =>
              refine ⟨a, hall a List.mem_cons_self, rest, ⟨?_, ?_⟩, rfl⟩
              · exact Nat.succ.inj hlen
              · exact fun b hb => hall b (List.mem_cons_of_mem _ hb)

/-! ## Whole messages -/

variable {β α : Type u} {m : Reader β α} {write : α → List β} {fits : α → Prop}

/-- The value a reader finds at the start of a string. -/
def decode (m : Reader β α) (data : List β) : Option α := (m (Cursor.start data)).map Prod.fst

/-- What is accepted is what is written: the part of the string that was read is the value
written again, and that is read back as the same value. -/
theorem Canonical.decode_some (h : Canonical m write fits) {data : List β} {v : α} {c : Cursor β}
    (hread : m (Cursor.start data) = some (v, c)) :
    fits v ∧ write v = data.take c.pos ∧ decode m (write v) = some v := by
  obtain ⟨hfits, ⟨rest, hrest⟩, -, hpos⟩ := (h _ _ _).mp hread
  have hdata : write v ++ rest = data := hrest
  refine ⟨hfits, ?_, ?_⟩
  · have hlen : c.pos = (write v).length := hpos.trans (Nat.zero_add _)
    rw [hlen, ← hdata, List.take_left]
  · let last : Cursor β := { data := write v, pos := (write v).length, bound := Nat.le_refl _ }
    have hagain : m (Cursor.start (write v)) = some (v, last) :=
      (h _ _ _).mpr ⟨hfits, List.prefix_rfl, rfl, (Nat.zero_add _).symm⟩
    rw [decode, hagain]
    rfl

/-- What is rejected does not begin with anything that is written. -/
theorem Canonical.decode_none (h : Canonical m write fits) (data : List β) :
    decode m data = none ↔ ¬∃ v, fits v ∧ write v <+: data := by
  rw [decode, Option.map_eq_none_iff]
  constructor
  · rintro hnone ⟨v, hfits, hpre⟩
    let last : Cursor β := { data, pos := (write v).length, bound := hpre.length_le }
    have hread : m (Cursor.start data) = some (v, last) :=
      (h _ _ _).mpr ⟨hfits, hpre, rfl, (Nat.zero_add _).symm⟩
    rw [hnone] at hread
    cases hread
  · intro hnot
    cases hread : m (Cursor.start data) with
    | none => rfl
    | some r =>
        obtain ⟨hfits, hpre, -⟩ := (h _ r.1 r.2).mp hread
        exact absurd ⟨r.1, hfits, hpre⟩ hnot

/-- **The round trip.** A value is read back exactly if it fits; what does not fit is read as
something else, or not at all. -/
theorem Canonical.decode_write (h : Canonical m write fits) (v : α) :
    decode m (write v) = some v ↔ fits v := by
  constructor
  · intro hdecode
    obtain ⟨r, hread, hv⟩ := Option.map_eq_some_iff.mp hdecode
    obtain ⟨hfits, -⟩ := (h _ r.1 r.2).mp hread
    rwa [hv] at hfits
  · intro hfits
    let last : Cursor β := { data := write v, pos := (write v).length, bound := Nat.le_refl _ }
    have hread : m (Cursor.start (write v)) = some (v, last) :=
      (h _ _ _).mpr ⟨hfits, List.prefix_rfl, rfl, (Nat.zero_add _).symm⟩
    rw [decode, hread]
    rfl

/-- No two values that fit are written alike. -/
theorem Canonical.injective (h : Canonical m write fits) {v v' : α} (hv : fits v) (hv' : fits v')
    (heq : write v = write v') : v = v' := by
  have hread := (h.decode_write v).mpr hv
  rw [heq, (h.decode_write v').mpr hv'] at hread
  exact (Option.some.inj hread).symm

end Cfrp.Lib

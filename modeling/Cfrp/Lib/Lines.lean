import Cfrp.Lib.Search
import Mathlib.Data.List.TakeWhile

/-!
# Lines, and the heads of messages

`lines` is what `std::getline` returns one after the other: what is between the newlines, with
the carriage returns. A head is a few lines that each end with a carriage return and a newline,
and an empty line. `fields` are the lines of a head behind the first one; nothing behind the
empty line is among them.
-/

namespace Cfrp.Lib

def crlf : List UInt8 := [0x0D, 0x0A]

def lines : List UInt8 → List (List UInt8)
  | [] => []
  | b :: s =>
      if b = 0x0A then [] :: lines s
      else
        match lines s with
        | [] => [[b]]
        | l :: ls => (b :: l) :: ls

theorem lines_newline (s : List UInt8) : lines (0x0A :: s) = [] :: lines s := if_pos rfl

/-- Lines are read one by one. -/
theorem lines_append (a b : List UInt8) :
    lines (a ++ 0x0A :: b) = lines (a ++ [0x0A]) ++ lines b := by
  induction a with
  | nil => rw [List.nil_append, List.nil_append, lines_newline, lines_newline]; rfl
  | cons x a ih =>
      rw [List.cons_append, List.cons_append, lines, lines, ih]
      split
      · rfl
      · have hne : ∃ l ls, lines (a ++ [0x0A]) = l :: ls := by
          cases a with
          | nil => exact ⟨[], [], lines_newline []⟩
          | cons y a =>
              rw [List.cons_append, lines]
              split
              · exact ⟨_, _, rfl⟩
              · split
                · exact ⟨_, _, rfl⟩
                · exact ⟨_, _, rfl⟩
        obtain ⟨l, ls, heq⟩ := hne
        rw [heq]
        rfl

theorem lines_line {l : List UInt8} (h : 0x0A ∉ l) : lines (l ++ [0x0A]) = [l] := by
  induction l with
  | nil => exact lines_newline []
  | cons x l ih =>
      rw [List.mem_cons, not_or] at h
      rw [List.cons_append, lines, if_neg (Ne.symm h.1), ih h.2]

/-- The lines of a head behind the first one. -/
def fields (s : List UInt8) : List (List UInt8) := (lines s).tail.takeWhile (· ≠ [0x0D])

/-- A carriage return at the end of a line is taken off. -/
def dropReturn (line : List UInt8) : List UInt8 :=
  if line.getLast? = some 0x0D then line.dropLast else line

/-- What is behind the name, in the last field that begins with it. -/
def lastField (name : List UInt8) (fields : List (List UInt8)) : List UInt8 :=
  fields.foldl (fun found line =>
    if name <+: line then dropReturn (line.drop name.length) else found) []

/-! ## Behind the empty line -/

/-- **What is behind the empty line** is not looked at. -/
theorem lines_head (p rest : List UInt8) :
    lines (p ++ (crlf ++ crlf) ++ rest) = lines (p ++ crlf) ++ [0x0D] :: lines rest := by
  have hfirst := lines_append (p ++ [0x0D]) (0x0D :: 0x0A :: rest)
  have hempty := lines_append [0x0D] rest
  rw [lines_line (by decide)] at hempty
  have hshape : p ++ (crlf ++ crlf) ++ rest = p ++ [0x0D] ++ 0x0A :: 0x0D :: 0x0A :: rest := by
    simp [crlf]
  rw [hshape, hfirst]
  have hleft : p ++ [0x0D] ++ [0x0A] = p ++ crlf := List.append_assoc _ _ _
  rw [hleft]
  exact congrArg (lines (p ++ crlf) ++ ·) hempty

theorem lines_ne_nil {s : List UInt8} (h : s ≠ []) : lines s ≠ [] := by
  cases s with
  | nil => exact absurd rfl h
  | cons b s =>
      rw [lines]
      split
      · exact List.cons_ne_nil _ _
      · split
        · exact List.cons_ne_nil _ _
        · exact List.cons_ne_nil _ _

theorem head?_lines_head (p rest : List UInt8) :
    (lines (p ++ (crlf ++ crlf) ++ rest)).head? = (lines (p ++ crlf)).head? := by
  have hne : lines (p ++ crlf) ≠ [] :=
    lines_ne_nil (List.append_ne_nil_of_right_ne_nil _ (by decide))
  rw [lines_head, List.head?_append_of_ne_nil _ hne]

theorem fields_head (p rest : List UInt8) : fields (p ++ (crlf ++ crlf) ++ rest) =
    (lines (p ++ crlf)).tail.takeWhile (· ≠ [0x0D]) := by
  have hne : lines (p ++ crlf) ≠ [] :=
    lines_ne_nil (List.append_ne_nil_of_right_ne_nil _ (by decide))
  rw [fields, lines_head, List.tail_append_of_ne_nil hne, List.takeWhile_append]
  split
  · rename_i hall
    rw [List.takeWhile_cons_of_neg (by simp), List.append_nil]
    exact ((List.takeWhile_prefix _).eq_of_length hall).symm
  · rfl

/-! ## A head that is put together -/

/-- Neither empty nor broken. -/
def IsLine (l : List UInt8) : Prop := l ≠ [] ∧ 0x0D ∉ l ∧ 0x0A ∉ l

instance (l : List UInt8) : Decidable (IsLine l) := inferInstanceAs (Decidable (_ ∧ _ ∧ _))

theorem IsLine.append {l r : List UInt8} (h : IsLine l) (hreturn : 0x0D ∉ r)
    (hnewline : 0x0A ∉ r) : IsLine (l ++ r) := by
  obtain ⟨hne, hl, hl'⟩ := h
  refine ⟨List.append_ne_nil_of_left_ne_nil hne _, ?_, ?_⟩
  · rw [List.mem_append, not_or]
    exact ⟨hl, hreturn⟩
  · rw [List.mem_append, not_or]
    exact ⟨hl', hnewline⟩

def headOf (ls : List (List UInt8)) : List UInt8 := ls.flatMap (· ++ crlf) ++ crlf

theorem headOf_cons (l : List UInt8) (ls : List (List UInt8)) :
    headOf (l :: ls) = l ++ (crlf ++ headOf ls) := by
  rw [headOf, headOf, List.flatMap_cons, List.append_assoc, List.append_assoc]

theorem le_length_headOf {ls : List (List UInt8)} (hne : ls ≠ []) : 4 ≤ (headOf ls).length := by
  obtain ⟨l, ls, rfl⟩ := List.exists_cons_of_ne_nil hne
  have htwo : crlf.length = 2 := rfl
  rw [headOf_cons, headOf]
  simp only [List.length_append, htwo]
  omega

theorem lines_headOf {ls : List (List UInt8)} (h : ∀ l ∈ ls, IsLine l) (rest : List UInt8) :
    lines (headOf ls ++ rest) = ls.map (· ++ [0x0D]) ++ [0x0D] :: lines rest := by
  induction ls with
  | nil => exact lines_append [0x0D] rest
  | cons l ls ih =>
      obtain ⟨-, -, hnewline⟩ := h l List.mem_cons_self
      have hshape : headOf (l :: ls) ++ rest = l ++ [0x0D] ++ 0x0A :: (headOf ls ++ rest) := by
        rw [headOf_cons]
        simp [crlf]
      have hline : lines (l ++ [0x0D] ++ [0x0A]) = [l ++ [0x0D]] := by
        refine lines_line fun hm => ?_
        rcases List.mem_append.mp hm with hm | hm
        · exact hnewline hm
        · exact absurd hm (by decide)
      rw [hshape, lines_append, hline, ih fun m hm => h m (List.mem_cons_of_mem _ hm)]
      rfl

/-- The fields of a head are its lines behind the first one. -/
theorem fields_headOf {l : List UInt8} {ls : List (List UInt8)} (h : ∀ m ∈ l :: ls, IsLine m)
    (rest : List UInt8) : fields (headOf (l :: ls) ++ rest) = ls.map (· ++ [0x0D]) := by
  have hall : ∀ m ∈ ls.map (· ++ [0x0D]), decide (m ≠ [0x0D]) = true := by
    intro m hm
    obtain ⟨k, hk, rfl⟩ := List.mem_map.mp hm
    refine decide_eq_true fun heq => ?_
    exact (h k (List.mem_cons_of_mem _ hk)).1 (List.append_cancel_right heq)
  rw [fields, lines_headOf h, List.map_cons, List.cons_append, List.tail_cons,
    List.takeWhile_append_of_pos hall, List.takeWhile_cons_of_neg (by simp), List.append_nil]

/-- A field of a head that is put together is read as it is. -/
theorem lastField_map {name : List UInt8} (hname : 0x0D ∉ name) (ls : List (List UInt8)) :
    lastField name (ls.map (· ++ [0x0D])) =
      ls.foldl (fun found l => if name <+: l then l.drop name.length else found) [] := by
  have hstep : ∀ (found l : List UInt8),
      (if name <+: l ++ [0x0D] then dropReturn ((l ++ [0x0D]).drop name.length) else found) =
        if name <+: l then l.drop name.length else found := by
    intro found l
    have hbegins : name <+: l ++ [0x0D] ↔ name <+: l := by
      refine ⟨fun h => ?_, fun h => h.trans (List.prefix_append _ _)⟩
      rcases List.prefix_concat_iff.mp h with heq | h
      · exact absurd (heq ▸ List.mem_append_right _ (List.mem_singleton_self _)) hname
      · exact h
    by_cases h : name <+: l
    · rw [if_pos (hbegins.mpr h), if_pos h, List.drop_append_of_le_length h.length_le, dropReturn,
        List.getLast?_concat, if_pos rfl, List.dropLast_concat]
    · rw [if_neg fun h' => h (hbegins.mp h'), if_neg h]
  rw [lastField, List.foldl_map]
  simp only [hstep]

/-- **The first empty line** of a head is the one at its end. -/
theorem find_headOf {ls : List (List UInt8)} (hne : ls ≠ []) (h : ∀ l ∈ ls, IsLine l)
    (rest : List UInt8) :
    find (crlf ++ crlf) (headOf ls ++ rest) = some ((headOf ls).length - 4) := by
  induction ls with
  | nil => exact absurd rfl hne
  | cons l ls ih =>
      obtain ⟨-, hreturn, -⟩ := h l List.mem_cons_self
      have hlen : (headOf (l :: ls)).length = l.length + 2 + (headOf ls).length := by
        rw [headOf_cons, List.length_append, List.length_append, Nat.add_assoc]
        rfl
      have hcut : find (crlf ++ crlf) (headOf (l :: ls) ++ rest) =
          (find (crlf ++ crlf) (crlf ++ (headOf ls ++ rest))).map (l.length + ·) := by
        rw [headOf_cons, List.append_assoc, List.append_assoc]
        exact find_append_of_notMem hreturn _
      rw [hcut, hlen]
      cases ls with
      | nil =>
          have hhere : find (crlf ++ crlf) (crlf ++ (headOf [] ++ rest)) = some 0 :=
            if_pos (List.prefix_append (crlf ++ crlf) rest)
          rw [hhere]
          rfl
      | cons m ls =>
          obtain ⟨hm, hreturn', -⟩ := h m (List.mem_cons_of_mem _ List.mem_cons_self)
          have hlen' := le_length_headOf (List.cons_ne_nil m ls)
          -- the line behind does not begin with a carriage return
          have hover : find (crlf ++ crlf) (crlf ++ (headOf (m :: ls) ++ rest)) =
              (find (crlf ++ crlf) (headOf (m :: ls) ++ rest)).map (2 + ·) := by
            obtain ⟨b, m, rfl⟩ := List.exists_cons_of_ne_nil hm
            have hb : b ≠ 0x0D := fun heq => hreturn' (heq ▸ List.mem_cons_self)
            have hshape : headOf ((b :: m) :: ls) ++ rest =
                b :: (m ++ (crlf ++ headOf ls) ++ rest) := by
              rw [headOf_cons]
              rfl
            rw [hshape]
            show find [0x0D, 0x0A, 0x0D, 0x0A] (0x0D :: 0x0A :: b :: _) = _
            rw [find, if_neg, find, if_neg, Option.map_map]
            · exact Option.map_congr fun i _ => (by show i + 1 + 1 = 2 + i; omega)
            · intro hp
              exact absurd (List.cons_prefix_cons.mp hp).1 (by decide)
            · intro hp
              have h₁ := (List.cons_prefix_cons.mp hp).2
              have h₂ := (List.cons_prefix_cons.mp h₁).2
              exact hb (List.cons_prefix_cons.mp h₂).1.symm
          rw [hover, ih (List.cons_ne_nil _ _) fun k hk => h k (List.mem_cons_of_mem _ hk)]
          simp only [Option.map_some]
          exact congrArg some (by omega)

end Cfrp.Lib

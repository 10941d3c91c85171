import Cfrp.Server.Tables

/-!
# The port restriction

`allowed_ports` is a list of integers and of strings, each a port or a range `"a-b"`. `main`
reads an entry with `std::stoi` and narrows what it reads to sixteen bits; an entry that
`stoi` turns down is left out, and a list from which everything is left out restricts
nothing. This file compares the ports that pass `IsPortAllowed` with the ports that the
entries name.
-/

namespace Cfrp

open Lib

/-- An element of `allowed_ports`. Elements that are neither are passed over. -/
inductive PortEntry where
  | text (s : String)
  | integer (n : Int)
  deriving DecidableEq, Repr

/-- `isspace` in the C locale. -/
def isSpace (c : Char) : Bool := c == ' ' || (9 ≤ c.toNat && c.toNat ≤ 13)

/-- The optional sign of a number: whether it is negative, and what follows. -/
def stoiSign : List Char → Bool × List Char
  | '-' :: s => (true, s)
  | '+' :: s => (false, s)
  | s => (false, s)

/-- `std::stoi`, `none` where it throws. What follows the digits does not matter to it. -/
def stoi (s : List Char) : Option Int :=
  let (negative, s) := stoiSign (s.dropWhile isSpace)
  let digits := s.takeWhile Char.isDigit
  if digits = [] then none
  else
    let magnitude : Int := Nat.ofDigitChars 10 digits 0
    let n := if negative then -magnitude else magnitude
    if -2147483648 ≤ n ∧ n ≤ 2147483647 then some n else none

/-- `ParsePortRange`, `none` where it throws. -/
def parsePortRange (s : List Char) : Option PortRange :=
  match s.dropWhile (· ≠ '-') with
  | _ :: second => do
      let start ← stoi (s.takeWhile (· ≠ '-'))
      let endPort ← stoi second
      some ⟨UInt16.ofInt start, UInt16.ofInt endPort⟩
  | [] => do
      let port ← stoi s
      some ⟨UInt16.ofInt port, UInt16.ofInt port⟩

/-- The loop of `main` over `allowed_ports`. -/
def allowedPorts (entries : List PortEntry) : List PortRange :=
  entries.filterMap fun
    | .text s => parsePortRange s.toList
    | .integer n => some ⟨UInt16.ofInt n, UInt16.ofInt n⟩

/-! ## What the entries say -/

/-- Only white space. -/
def Blank (l : List Char) : Prop := ∀ c ∈ l, isSpace c = true

/-- A digit, and nothing but digits. -/
def Digits (l : List Char) : Prop := l ≠ [] ∧ ∀ c ∈ l, c.isDigit = true

/-- The text is a decimal integer, with white space around it or not. -/
inductive Numeral : List Char → Int → Prop where
  | bare {before digits after : List Char} : Blank before → Digits digits → Blank after →
      Numeral (before ++ (digits ++ after)) (Nat.ofDigitChars 10 digits 0)
  | plus {before digits after : List Char} : Blank before → Digits digits → Blank after →
      Numeral (before ++ '+' :: (digits ++ after)) (Nat.ofDigitChars 10 digits 0)
  | minus {before digits after : List Char} : Blank before → Digits digits → Blank after →
      Numeral (before ++ '-' :: (digits ++ after)) (-Nat.ofDigitChars 10 digits 0)

namespace PortEntry

/-- The entry is the integers from `a` to `b`. -/
def Reads : PortEntry → Int → Int → Prop
  | .integer n, a, b => a = n ∧ b = n
  | .text s, a, b => (Numeral s.toList a ∧ b = a) ∨
      ∃ first second, s.toList = first ++ '-' :: second ∧ Numeral first a ∧ Numeral second b

def Admits (e : PortEntry) (port : UInt16) : Prop :=
  ∃ a b : Int, e.Reads a b ∧ a ≤ port.toNat ∧ port.toNat ≤ b

/-- The entry is well formed, and its bounds are ports. -/
def Proper (e : PortEntry) : Prop :=
  ∃ a b : Int, e.Reads a b ∧ (0 ≤ a ∧ a < 65536) ∧ 0 ≤ b ∧ b < 65536

/-- The numbers at the front of an entry and after its first dash. -/
def bounds : PortEntry → Option (Int × Int)
  | .integer n => some (n, n)
  | .text s =>
      match s.toList.dropWhile (· ≠ '-') with
      | _ :: second => do
          let a ← stoi (s.toList.takeWhile (· ≠ '-'))
          let b ← stoi second
          some (a, b)
      | [] => (stoi s.toList).map fun n => (n, n)

end PortEntry

/-- The port is in one of the entries. -/
def Admitted (entries : List PortEntry) (port : UInt16) : Prop := ∃ e ∈ entries, e.Admits port

/-- An entry has numbers, unless the entries name every port, and what the low sixteen bits of
the numbers of an entry that is malformed or out of range enclose is named by the entries. -/
def Contained (entries : List PortEntry) : Prop :=
  ((∃ e ∈ entries, e.bounds.isSome) ∨ ∀ port, Admitted entries port) ∧
    ∀ e ∈ entries, ¬e.Proper → ∀ a b, e.bounds = some (a, b) → ∀ port,
      UInt16.ofInt a ≤ port → port ≤ UInt16.ofInt b → Admitted entries port

/-! ## Numbers -/

theorem isSpace_of_isDigit {c : Char} (h : c.isDigit = true) : isSpace c = false := by
  obtain ⟨hlo, -⟩ := Char.isDigit_iff_toNat.mp h
  have hge : 48 ≤ c.toNat := hlo
  have hne : c ≠ ' ' := by
    rintro rfl
    exact absurd hge (by decide)
  rw [isSpace, beq_false_of_ne hne, decide_eq_false (p := c.toNat ≤ 13) (by omega), Bool.and_false]
  rfl

theorem ne_dash_of_isDigit {c : Char} (h : c.isDigit = true) : c ≠ '-' := by
  rintro rfl
  exact absurd h (by decide)

theorem ne_dash_of_isSpace {c : Char} (h : isSpace c = true) : c ≠ '-' := by
  rintro rfl
  exact absurd h (by decide)

/-- The digits of a number end where the white space begins. -/
theorem takeWhile_digits {digits after : List Char} (hd : Digits digits) (ha : Blank after) :
    (digits ++ after).takeWhile Char.isDigit = digits := by
  rw [List.takeWhile_append_of_pos hd.2]
  cases after with
  | nil => exact List.append_nil _
  | cons c after =>
      have hc : c.isDigit = false := by
        by_contra h
        have hspace := ha c List.mem_cons_self
        rw [isSpace_of_isDigit (Bool.eq_true_of_not_eq_false h)] at hspace
        cases hspace
      rw [List.takeWhile_cons_of_neg (by rw [hc]; exact Bool.false_ne_true), List.append_nil]

theorem dropWhile_blank {before rest : List Char} {c : Char} (hb : Blank before)
    (hc : isSpace c = false) : (before ++ c :: rest).dropWhile isSpace = c :: rest := by
  rw [List.dropWhile_append_of_pos hb,
    List.dropWhile_cons_of_neg (by rw [hc]; exact Bool.false_ne_true)]

/-- **`stoi` reads a number.** -/
theorem stoi_of_numeral {l : List Char} {n : Int} (h : Numeral l n)
    (hn : -2147483648 ≤ n ∧ n ≤ 2147483647) : stoi l = some n := by
  cases h with
  | bare hb hd ha =>
      rename_i before digits after
      obtain ⟨d, ds, rfl⟩ := List.exists_cons_of_ne_nil hd.1
      have hdigit := hd.2 d List.mem_cons_self
      have hsign : stoiSign (d :: (ds ++ after)) = (false, d :: (ds ++ after)) := by
        unfold stoiSign
        split
        · rename_i heq
          exact absurd (List.cons.inj heq).1 (ne_dash_of_isDigit hdigit)
        · rename_i heq
          rw [(List.cons.inj heq).1] at hdigit
          exact absurd hdigit (by decide)
        · rfl
      rw [stoi, List.cons_append, dropWhile_blank hb (isSpace_of_isDigit hdigit), hsign]
      simp only [← List.cons_append]
      rw [takeWhile_digits hd ha, if_neg hd.1, if_neg Bool.false_ne_true, if_pos hn]
  | plus hb hd ha =>
      rw [stoi, dropWhile_blank hb (by decide), stoiSign]
      simp only
      rw [takeWhile_digits hd ha, if_neg hd.1, if_neg Bool.false_ne_true, if_pos hn]
  | minus hb hd ha =>
      rw [stoi, dropWhile_blank hb (by decide), stoiSign]
      simp only
      rw [takeWhile_digits hd ha, if_neg hd.1]
      exact if_pos hn

theorem stoi_of_blank {l : List Char} (h : Blank l) : stoi l = none := by
  have hnil : l.dropWhile isSpace = [] := by
    rw [← List.append_nil l, List.dropWhile_append_of_pos h]
    rfl
  rw [stoi, hnil]
  rfl

/-- The only dash of a number is its sign. -/
theorem dash_of_numeral {l : List Char} {n : Int} (h : Numeral l n) :
    '-' ∉ l ∨ ∃ before rest, Blank before ∧ l = before ++ '-' :: rest := by
  have hblank : ∀ {l : List Char}, Blank l → '-' ∉ l :=
    fun hb hmem => ne_dash_of_isSpace (hb _ hmem) rfl
  have hdigits : ∀ {l : List Char}, Digits l → '-' ∉ l :=
    fun hd hmem => ne_dash_of_isDigit (hd.2 _ hmem) rfl
  cases h with
  | bare hb hd ha =>
      refine .inl fun hmem => ?_
      rcases List.mem_append.mp hmem with hmem | hmem
      · exact hblank hb hmem
      · rcases List.mem_append.mp hmem with hmem | hmem
        · exact hdigits hd hmem
        · exact hblank ha hmem
  | plus hb hd ha =>
      refine .inl fun hmem => ?_
      rcases List.mem_append.mp hmem with hmem | hmem
      · exact hblank hb hmem
      · rcases List.mem_cons.mp hmem with hplus | hmem
        · exact absurd hplus (by decide)
        · rcases List.mem_append.mp hmem with hmem | hmem
          · exact hdigits hd hmem
          · exact hblank ha hmem
  | minus hb => exact .inr ⟨_, _, hb, rfl⟩

/-! ## Entries -/

theorem split_dash {first : List Char} (h : '-' ∉ first) (second : List Char) :
    (first ++ '-' :: second).takeWhile (· ≠ '-') = first ∧
      (first ++ '-' :: second).dropWhile (· ≠ '-') = '-' :: second := by
  have hall : ∀ c ∈ first, decide (c ≠ '-') = true := by
    intro c hc
    rw [decide_eq_true_iff]
    rintro rfl
    exact h hc
  rw [List.takeWhile_append_of_pos hall, List.dropWhile_append_of_pos hall,
    List.takeWhile_cons_of_neg (by decide), List.dropWhile_cons_of_neg (by decide), List.append_nil]
  exact ⟨rfl, rfl⟩

theorem dropWhile_noDash {l : List Char} (h : '-' ∉ l) : l.dropWhile (· ≠ '-') = [] := by
  rw [List.dropWhile_eq_nil_iff]
  intro c hc
  rw [decide_eq_true_iff]
  rintro rfl
  exact h hc

namespace PortEntry

theorem bounds_of_dash {s : String} {first second : List Char}
    (h : s.toList = first ++ '-' :: second) (hfirst : '-' ∉ first) :
    (text s).bounds = (stoi first).bind fun a => (stoi second).map fun b => (a, b) := by
  obtain ⟨htake, hdrop⟩ := split_dash hfirst second
  rw [bounds, h, hdrop, htake]
  show ((stoi first).bind fun a => (stoi second).bind fun b => some (a, b)) = _
  cases stoi second <;> rfl

theorem bounds_of_noDash {s : String} (h : '-' ∉ s.toList) :
    (text s).bounds = (stoi s.toList).map fun n => (n, n) := by
  rw [bounds, dropWhile_noDash h]

/-- A sign `-` ends the first part of the entry, which leaves it no number. -/
theorem bounds_of_minus {s : String} {before rest : List Char}
    (h : s.toList = before ++ '-' :: rest) (hb : Blank before) : (text s).bounds = none := by
  rw [bounds_of_dash h fun hmem => ne_dash_of_isSpace (hb _ hmem) rfl, stoi_of_blank hb]
  rfl

/-- **What is read of a well formed entry within the range of an `int`.** -/
theorem bounds_of_reads {e : PortEntry} {a b : Int} (h : e.Reads a b)
    (ha : -2147483648 ≤ a ∧ a ≤ 2147483647) (hb : -2147483648 ≤ b ∧ b ≤ 2147483647) :
    e.bounds = none ∨ e.bounds = some (a, b) := by
  cases e with
  | integer n =>
      obtain ⟨rfl, rfl⟩ := h
      exact .inr rfl
  | text s =>
      rcases h with ⟨hnum, rfl⟩ | ⟨first, second, hs, hfirst, hsecond⟩
      · rcases dash_of_numeral hnum with hno | ⟨before, rest, hblank, hs⟩
        · rw [bounds_of_noDash hno, stoi_of_numeral hnum ha]
          exact .inr rfl
        · exact .inl (bounds_of_minus hs hblank)
      · rcases dash_of_numeral hfirst with hno | ⟨before, rest, hblank, rfl⟩
        · rw [bounds_of_dash hs hno, stoi_of_numeral hfirst ha, stoi_of_numeral hsecond hb]
          exact .inr rfl
        · rw [List.append_assoc] at hs
          exact .inl (bounds_of_minus hs hblank)

end PortEntry

theorem allowedPorts_eq (entries : List PortEntry) :
    allowedPorts entries = entries.filterMap fun e =>
      e.bounds.map fun ab => ⟨UInt16.ofInt ab.1, UInt16.ofInt ab.2⟩ := by
  refine congrArg (fun f => entries.filterMap f) (funext fun e => ?_)
  cases e with
  | integer n => rfl
  | text s =>
      simp only [parsePortRange, PortEntry.bounds]
      split
      · cases stoi (s.toList.takeWhile (· ≠ '-')) with
        | none => rfl
        | some a => cases stoi _ <;> rfl
      · cases stoi s.toList <;> rfl

theorem toNat_ofInt_port {a : Int} (h : 0 ≤ a ∧ a < 65536) :
    ((UInt16.ofInt a).toNat : Int) = a := by
  obtain ⟨n, rfl⟩ := Int.eq_ofNat_of_zero_le h.1
  have hn : n < UInt16.size := by
    have hlt := h.2
    show n < 65536
    omega
  have hmod : (((n : Int) % 2 ^ 16).toNat) = n := by
    show ((n : Int) % 65536).toNat = n
    rw [Int.emod_eq_of_lt h.1 h.2]
    rfl
  rw [UInt16.ofInt, hmod, UInt16.toNat_ofNat_of_lt' hn]

/-- An entry that names ports is not widened. -/
theorem admits_of_proper {e : PortEntry} (he : e.Proper) {a b : Int}
    (hbounds : e.bounds = some (a, b))
    {port : UInt16} (hlo : UInt16.ofInt a ≤ port) (hhi : port ≤ UInt16.ofInt b) :
    e.Admits port := by
  obtain ⟨a', b', hreads, ha, hb⟩ := he
  rcases PortEntry.bounds_of_reads hreads (by omega) (by omega) with hnone | hsome
  · rw [hnone] at hbounds
    cases hbounds
  · rw [hsome] at hbounds
    cases hbounds
    have hloNat := UInt16.le_iff_toNat_le.mp hlo
    have hhiNat := UInt16.le_iff_toNat_le.mp hhi
    have haNat := toNat_ofInt_port ha
    have hbNat := toNat_ofInt_port hb
    exact ⟨a, b, hreads, by omega, by omega⟩

variable {token : String} {allowedClients : List String}

/-- The ports that pass the check. -/
theorem isPortAllowed_iff (entries : List PortEntry) (port : UInt16) :
    (Server.init token (allowedPorts entries) allowedClients).isPortAllowed port = true ↔
      (∀ e ∈ entries, e.bounds = none) ∨ ∃ e ∈ entries, ∃ a b, e.bounds = some (a, b) ∧
        UInt16.ofInt a ≤ port ∧ port ≤ UInt16.ofInt b := by
  have hports : (Server.init token (allowedPorts entries) allowedClients).allowedPorts =
      entries.filterMap fun e => e.bounds.map fun ab => ⟨UInt16.ofInt ab.1, UInt16.ofInt ab.2⟩ :=
    allowedPorts_eq entries
  rw [Server.isPortAllowed, hports, Bool.or_eq_true, List.isEmpty_iff, List.any_eq_true,
    List.filterMap_eq_nil_iff]
  refine or_congr ⟨fun h e he => Option.map_eq_none_iff.mp (h e he),
    fun h e he => Option.map_eq_none_iff.mpr (h e he)⟩ ⟨?_, ?_⟩
  · rintro ⟨range, hrange, hport⟩
    obtain ⟨e, he, hmap⟩ := List.mem_filterMap.mp hrange
    obtain ⟨⟨a, b⟩, hbounds, rfl⟩ := Option.map_eq_some_iff.mp hmap
    rw [Bool.and_eq_true, decide_eq_true_iff, decide_eq_true_iff] at hport
    exact ⟨e, he, a, b, hbounds, hport⟩
  · rintro ⟨e, he, a, b, hbounds, hlo, hhi⟩
    refine ⟨⟨UInt16.ofInt a, UInt16.ofInt b⟩, List.mem_filterMap.mpr ⟨e, he, ?_⟩, ?_⟩
    · rw [hbounds]
      rfl
    · rw [Bool.and_eq_true, decide_eq_true_iff, decide_eq_true_iff]
      exact ⟨hlo, hhi⟩

/-- **No port passes the check that no entry names**, exactly when an entry has numbers and the
entries that are malformed or out of range enclose no such port. -/
theorem portRestriction (token : String) (allowedClients : List String) (entries : List PortEntry) :
    (∀ port, (Server.init token (allowedPorts entries) allowedClients).isPortAllowed port = true →
      Admitted entries port) ↔ Contained entries := by
  constructor
  · intro hall
    refine ⟨?_, fun e he _ a b hbounds port hlo hhi => ?_⟩
    · by_cases hsome : ∃ e ∈ entries, e.bounds.isSome
      · exact .inl hsome
      · -- nothing is read, and every port passes
        refine .inr fun port => hall port
          ((isPortAllowed_iff entries port).mpr (.inl fun e he => ?_))
        by_contra hne
        exact hsome ⟨e, he, Option.isSome_iff_ne_none.mpr hne⟩
    · exact hall port ((isPortAllowed_iff entries port).mpr (.inr ⟨e, he, a, b, hbounds, hlo, hhi⟩))
  · rintro ⟨hsome, hothers⟩ port hport
    rcases (isPortAllowed_iff entries port).mp hport with hnone | ⟨e, he, a, b, hbounds, hlo, hhi⟩
    · rcases hsome with ⟨e, he, hsome⟩ | hevery
      · rw [hnone e he] at hsome
        cases hsome
      · exact hevery port
    · by_cases hproper : e.Proper
      · exact ⟨e, he, admits_of_proper hproper hbounds hlo hhi⟩
      · exact hothers e he hproper a b hbounds port hlo hhi

example : (Server.init "" (allowedPorts [.text " 8000-9000x", .text "a", .integer (-1)])
    []).allowedPorts.map (fun range => (range.start, range.endPort)) =
      [(8000, 9000), (65535, 65535)] := by
  decide

/-- 70000 is read as 4464. -/
theorem portRestriction_wraps :
    ¬∀ (token : String) (allowedClients : List String) (entries : List PortEntry), entries ≠ [] →
      ∀ port, (Server.init token (allowedPorts entries) allowedClients).isPortAllowed port = true →
        Admitted entries port := by
  intro hall
  obtain ⟨e, he, a, b, hreads, hlo, hhi⟩ :=
    hall "" [] [.integer 70000] (List.cons_ne_nil _ _) 4464 (by decide)
  cases List.mem_singleton.mp he
  obtain ⟨rfl, rfl⟩ := hreads
  exact absurd hlo (by decide)

end Cfrp

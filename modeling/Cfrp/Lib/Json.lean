import Mathlib.Data.List.Basic

/-!
# Reading and printing JSON

`parse` reads a JSON text, a list of bytes in UTF-8, into the value that it denotes: escapes
are resolved, white space is dropped and a member that is written twice is kept twice. `print`
goes the other way as naively as can be, and puts strings between quotation marks as they are.
`parse_print_iff` says for which values that is a round trip.
-/

namespace Cfrp.Lib

/-- A JSON value. A number is its digits times a power of ten, and strings are in UTF-8. -/
inductive Json where
  | null
  | bool (b : Bool)
  | num (digits exponent : Int)
  | str (s : List UInt8)
  | arr (items : List Json)
  | obj (members : List (List UInt8 × Json))

namespace Json

/-- Reads something at the front of a text, and says what is left of it. -/
abbrev Parser (α : Type) := List UInt8 → Option (α × List UInt8)

def isBlank (b : UInt8) : Bool := b = 0x20 || b = 0x09 || b = 0x0A || b = 0x0D

def skip (s : List UInt8) : List UInt8 := s.dropWhile isBlank

/-! ## Numbers -/

def isDigit (b : UInt8) : Bool := 0x30 ≤ b && b ≤ 0x39

def ofDigits (ds : List UInt8) : Nat := ds.foldl (fun n d => 10 * n + (d.toNat - 0x30)) 0

/-- Digits, one at least. -/
def digits : Parser (List UInt8) := fun s =>
  if s.takeWhile isDigit = [] then none
  else some (s.takeWhile isDigit, s.dropWhile isDigit)

/-- A zero does not lead other digits. -/
def whole : Parser (List UInt8) := fun s => do
  let (ds, s) ← digits s
  if ds.head? = some 0x30 ∧ ds ≠ [0x30] then none else some (ds, s)

def fraction : Parser (List UInt8)
  | 0x2E :: s => digits s
  | s => some ([], s)

def signed : Parser Int
  | 0x2D :: s => (digits s).map fun (ds, s) => (-ofDigits ds, s)
  | 0x2B :: s => (digits s).map fun (ds, s) => (ofDigits ds, s)
  | s => (digits s).map fun (ds, s) => (ofDigits ds, s)

def exponent : Parser Int
  | 0x65 :: s => signed s
  | 0x45 :: s => signed s
  | s => some (0, s)

def unsignedNumber : Parser (Int × Int) := fun s => do
  let (ds, s) ← whole s
  let (fs, s) ← fraction s
  let (e, s) ← exponent s
  some ((ofDigits (ds ++ fs), e - fs.length), s)

def number : Parser Json
  | 0x2D :: s => (unsignedNumber s).map fun ((m, e), s) => (num (-m) e, s)
  | s => (unsignedNumber s).map fun ((m, e), s) => (num m e, s)

/-! ## Strings -/

/-- A character that stands for itself between quotation marks. -/
def isPlain (c : Char) : Bool := 0x20 ≤ c.toNat && c ≠ '"' && c ≠ '\\'

def hexDigit (b : UInt8) : Option Nat :=
  if 0x30 ≤ b ∧ b ≤ 0x39 then some (b.toNat - 0x30)
  else if 0x41 ≤ b ∧ b ≤ 0x46 then some (b.toNat - 0x41 + 10)
  else if 0x61 ≤ b ∧ b ≤ 0x66 then some (b.toNat - 0x61 + 10)
  else none

def hexDigits : Parser Nat
  | a :: b :: c :: d :: s => do
      let a ← hexDigit a
      let b ← hexDigit b
      let c ← hexDigit c
      let d ← hexDigit d
      some (((a * 16 + b) * 16 + c) * 16 + d, s)
  | _ => none

/-- What follows `\u`. Half of a surrogate pair is no character. -/
def unicodeEscape : Parser Char := fun s => do
  let (u, s) ← hexDigits s
  if 0xD800 ≤ u ∧ u < 0xDC00 then
    match s with
    | 0x5C :: 0x75 :: s => do
        let (v, s) ← hexDigits s
        if 0xDC00 ≤ v ∧ v < 0xE000 then
          some (Char.ofNat (0x10000 + (u - 0xD800) * 0x400 + (v - 0xDC00)), s)
        else none
    | _ => none
  else if 0xDC00 ≤ u ∧ u < 0xE000 then none
  else some (Char.ofNat u, s)

/-- What follows `\`. -/
def escape : Parser Char
  | 0x22 :: s => some ('"', s)
  | 0x5C :: s => some ('\\', s)
  | 0x2F :: s => some ('/', s)
  | 0x62 :: s => some ('\x08', s)
  | 0x66 :: s => some ('\x0C', s)
  | 0x6E :: s => some ('\n', s)
  | 0x72 :: s => some ('\r', s)
  | 0x74 :: s => some ('\t', s)
  | 0x75 :: s => unicodeEscape s
  | _ => none

def plain : Parser Char := fun s => do
  let c ← s.toByteArray.utf8DecodeChar? 0
  if isPlain c then some (c, s.drop c.utf8Size) else none

def character : Parser Char
  | 0x5C :: s => escape s
  | s => plain s

/-- Characters up to the quotation mark, at most so many. -/
def characters : Nat → Parser (List UInt8)
  | _, 0x22 :: s => some ([], s)
  | 0, _ => none
  | n + 1, s => do
      let (c, s) ← character s
      let (cs, s) ← characters n s
      some (String.utf8EncodeChar c ++ cs, s)

/-- What follows the first quotation mark of a string. -/
def string : Parser (List UInt8) := fun s => characters s.length s

/-! ## Values -/

section Lists

variable {α : Type} (item : Parser α) (close : UInt8)

/-- Items with commas between them, at most so many, and what closes the list. -/
def items : Nat → Parser (List α)
  | 0, _ => none
  | n + 1, s => do
      let (x, s) ← item s
      match skip s with
      | b :: s =>
          if b = close then some ([x], s)
          else if b = 0x2C then do
            let (xs, s) ← items n s
            some (x :: xs, s)
          else none
      | [] => none

/-- What follows the bracket that opens a list. -/
def list : Parser (List α) := fun s =>
  match skip s with
  | b :: rest => if b = close then some ([], rest) else items item close s.length s
  | [] => none

def member : Parser (List UInt8 × α) := fun s =>
  match skip s with
  | 0x22 :: s => do
      let (k, s) ← string s
      match skip s with
      | 0x3A :: s => do
          let (x, s) ← item s
          some ((k, x), s)
      | _ => none
  | _ => none

end Lists

def word (name : List UInt8) (v : Json) : Parser Json := fun s =>
  if name <+: s then some (v, s.drop name.length) else none

/-- `null`, `true` and `false` -/
def nullWord : List UInt8 := [0x6E, 0x75, 0x6C, 0x6C]
def trueWord : List UInt8 := [0x74, 0x72, 0x75, 0x65]
def falseWord : List UInt8 := [0x66, 0x61, 0x6C, 0x73, 0x65]

/-- A value that is nested less deeply than `n`. -/
def value : Nat → Parser Json
  | 0, _ => none
  | n + 1, s =>
      match skip s with
      | 0x22 :: s => (string s).map fun (cs, s) => (str cs, s)
      | 0x5B :: s => (list (value n) 0x5D s).map fun (xs, s) => (arr xs, s)
      | 0x7B :: s => (list (member (value n)) 0x7D s).map fun (ms, s) => (obj ms, s)
      | 0x6E :: s => word nullWord null (0x6E :: s)
      | 0x74 :: s => word trueWord (bool true) (0x74 :: s)
      | 0x66 :: s => word falseWord (bool false) (0x66 :: s)
      | s => number s

/-- The value of a JSON text. It cannot be nested more deeply than it is long. -/
def parse (s : List UInt8) : Option Json :=
  match value s.length s with
  | some (j, rest) => if skip rest = [] then some j else none
  | none => none

/-! ## Printing -/

def decimal (n : Nat) : List UInt8 := (Nat.toDigits 10 n).map fun c => UInt8.ofNat c.toNat

def decimalInt : Int → List UInt8
  | .ofNat n => decimal n
  | .negSucc n => 0x2D :: decimal (n + 1)

def printNum (m e : Int) : List UInt8 :=
  decimalInt m ++ if e = 0 then [] else 0x65 :: decimalInt e

/-- The string is not escaped. -/
def quoted (s : List UInt8) : List UInt8 := 0x22 :: (s ++ [0x22])

def commas : List (List UInt8) → List UInt8
  | [] => []
  | [t] => t
  | t :: ts => t ++ 0x2C :: commas ts

theorem sizeOf_lt_arr {x : Json} {xs : List Json} (h : x ∈ xs) : sizeOf x < sizeOf (arr xs) := by
  have := List.sizeOf_lt_of_mem h
  rw [arr.sizeOf_spec]
  omega

theorem sizeOf_snd_lt_obj {m : List UInt8 × Json} {ms : List (List UInt8 × Json)} (h : m ∈ ms) :
    sizeOf m.2 < sizeOf (obj ms) := by
  have := List.sizeOf_lt_of_mem h
  have hsnd : sizeOf m = 1 + sizeOf m.1 + sizeOf m.2 := rfl
  rw [obj.sizeOf_spec]
  omega

def print : Json → List UInt8
  | null => nullWord
  | bool true => trueWord
  | bool false => falseWord
  | num m e => printNum m e
  | str s => quoted s
  | arr xs => 0x5B :: (commas (xs.map print) ++ [0x5D])
  | obj ms => 0x7B :: (commas (ms.map fun m => quoted m.1 ++ 0x3A :: 0x20 :: print m.2) ++ [0x7D])
termination_by j => sizeOf j
decreasing_by
  · exact sizeOf_lt_arr ‹_›
  · exact sizeOf_snd_lt_obj ‹_›

/-- The text between the quotation marks is the string itself. -/
def Plain (s : List UInt8) : Prop :=
  ∃ cs : List Char, s = cs.flatMap String.utf8EncodeChar ∧ ∀ c ∈ cs, isPlain c = true

/-- No string of the value needs an escape. -/
def Raw : Json → Prop
  | str s => Plain s
  | arr xs => ∀ x ∈ xs, Raw x
  | obj ms => ∀ m ∈ ms, Plain m.1 ∧ Raw m.2
  | _ => True
termination_by j => sizeOf j
decreasing_by
  · exact sizeOf_lt_arr ‹_›
  · exact sizeOf_snd_lt_obj ‹_›

/-! ## What is read of a printed number -/

theorem toNat_ofNat_of_isDigit {c : Char} (h : c.isDigit = true) :
    (UInt8.ofNat c.toNat).toNat = c.toNat := by
  have hle : c.toNat ≤ 57 := (Char.isDigit_iff_toNat.mp h).2
  rw [UInt8.toNat_ofNat', Nat.mod_eq_of_lt (by omega)]

theorem isDigit_of_mem_decimal {n : Nat} {b : UInt8} (h : b ∈ decimal n) : isDigit b = true := by
  obtain ⟨c, hc, rfl⟩ := List.mem_map.mp h
  have hdigit := Nat.isDigit_of_mem_toDigits (by decide) (by decide) hc
  have hrange := Char.isDigit_iff_toNat.mp hdigit
  rw [isDigit, Bool.and_eq_true, decide_eq_true_eq, decide_eq_true_eq, UInt8.le_iff_toNat_le,
    UInt8.le_iff_toNat_le, toNat_ofNat_of_isDigit hdigit]
  exact hrange

theorem ofDigits_decimal (n : Nat) : ofDigits (decimal n) = n := by
  have hsame : ∀ l : List Char, (∀ c ∈ l, c.isDigit = true) → ∀ acc,
      (l.map fun c => UInt8.ofNat c.toNat).foldl (fun n d => 10 * n + (d.toNat - 0x30)) acc =
        Nat.ofDigitChars 10 l acc := by
    intro l
    induction l with
    | nil => exact fun _ _ => rfl
    | cons c l ih =>
        intro h acc
        rw [List.map_cons, List.foldl_cons, toNat_ofNat_of_isDigit (h c List.mem_cons_self),
          ih fun d hd => h d (List.mem_cons_of_mem _ hd)]
        rfl
  rw [ofDigits, decimal,
    hsame _ fun c hc => Nat.isDigit_of_mem_toDigits (by decide) (by decide) hc,
    Nat.ofDigitChars_ten_toDigits]

theorem decimal_ne_nil (n : Nat) : decimal n ≠ [] := by
  rw [decimal, Ne, List.map_eq_nil_iff]
  exact Nat.toDigits_ne_nil

theorem decimal_of_ten_le {n : Nat} (h : 10 ≤ n) :
    decimal n = decimal (n / 10) ++ [UInt8.ofNat (Nat.digitChar (n % 10)).toNat] := by
  rw [decimal, Nat.toDigits_of_base_le (by decide) h, List.map_append]
  rfl

/-- Only zero begins with a zero. -/
theorem decimal_of_head {n : Nat} (h : (decimal n).head? = some 0x30) : decimal n = [0x30] := by
  induction n using Nat.strongRecOn with
  | _ n ih =>
      by_cases hten : 10 ≤ n
      · rw [decimal_of_ten_le hten, List.head?_append_of_ne_nil _ (decimal_ne_nil _)] at h
        have hzero := ih (n / 10) (by omega) h
        have hvalue := ofDigits_decimal (n / 10)
        rw [hzero] at hvalue
        have : ofDigits [0x30] = 0 := rfl
        omega
      · have hone : decimal n = [UInt8.ofNat n.digitChar.toNat] := by
          rw [decimal, Nat.toDigits_of_lt_base (by omega)]
          rfl
        rw [hone] at h ⊢
        rw [Option.some.inj h]

/-- A text that does not go on with a number. -/
def Stop (s : List UInt8) : Prop :=
  ∀ b ∈ s.head?, isDigit b = false ∧ b ≠ 0x2E ∧ b ≠ 0x65 ∧ b ≠ 0x45

theorem digits_decimal (n : Nat) {rest : List UInt8} (h : ∀ b ∈ rest.head?, isDigit b = false) :
    digits (decimal n ++ rest) = some (decimal n, rest) := by
  have hall : ∀ b ∈ decimal n, isDigit b = true := fun b hb => isDigit_of_mem_decimal hb
  have hrest : rest.takeWhile isDigit = [] ∧ rest.dropWhile isDigit = rest := by
    cases rest with
    | nil => exact ⟨rfl, rfl⟩
    | cons b s =>
        have hb := h b rfl
        exact ⟨by simp [hb], by simp [hb]⟩
  rw [digits, List.takeWhile_append_of_pos hall, List.dropWhile_append_of_pos hall, hrest.1,
    hrest.2, List.append_nil, if_neg (decimal_ne_nil n)]

/-- The first digit, which is neither a sign nor anything else. -/
theorem decimal_eq_cons (n : Nat) : ∃ d ds, decimal n = d :: ds ∧ isDigit d = true := by
  cases h : decimal n with
  | nil => exact absurd h (decimal_ne_nil n)
  | cons d ds => exact ⟨d, ds, rfl, isDigit_of_mem_decimal (h ▸ List.mem_cons_self)⟩

theorem signed_decimalInt (e : Int) {rest : List UInt8}
    (h : ∀ b ∈ rest.head?, isDigit b = false) :
    signed (decimalInt e ++ rest) = some (e, rest) := by
  cases e with
  | negSucc n =>
      show (digits (decimal (n + 1) ++ rest)).map _ = _
      rw [digits_decimal _ h, Option.map_some]
      show some (-((ofDigits (decimal (n + 1)) : Nat) : Int), rest) = _
      rw [ofDigits_decimal]
      rfl
  | ofNat n =>
      have hread := digits_decimal n h
      obtain ⟨d, ds, hn, hd⟩ := decimal_eq_cons n
      have hsigned : signed (d :: (ds ++ rest)) =
          (digits (d :: (ds ++ rest))).map fun (ds, s) => ((ofDigits ds : Int), s) := by
        rw [signed]
        · rintro s ⟨rfl, -⟩
          exact absurd hd (by decide)
        · rintro s ⟨rfl, -⟩
          exact absurd hd (by decide)
      rw [decimalInt, hn, List.cons_append, hsigned, ← List.cons_append, ← hn, hread,
        Option.map_some]
      show some (((ofDigits (decimal n) : Nat) : Int), rest) = _
      rw [ofDigits_decimal]
      rfl

theorem whole_decimal (n : Nat) {rest : List UInt8} (h : ∀ b ∈ rest.head?, isDigit b = false) :
    whole (decimal n ++ rest) = some (decimal n, rest) := by
  rw [whole, digits_decimal n h]
  show (if (decimal n).head? = some 0x30 ∧ decimal n ≠ [0x30] then none
    else some (decimal n, rest)) = _
  rw [if_neg fun hzero => hzero.2 (decimal_of_head hzero.1)]

/-- An exponent other than zero is printed, and zero is what is read where there is none. -/
theorem exponent_printed (e : Int) {rest : List UInt8} (h : Stop rest) :
    exponent ((if e = 0 then [] else 0x65 :: decimalInt e) ++ rest) = some (e, rest) := by
  by_cases he : e = 0
  · rw [if_pos he, List.nil_append, he, exponent]
    · rintro s rfl
      exact (h _ rfl).2.2.1 rfl
    · rintro s rfl
      exact (h _ rfl).2.2.2 rfl
  · rw [if_neg he, List.cons_append, exponent, signed_decimalInt e fun b hb => (h b hb).1]

theorem unsignedNumber_decimal (m : Nat) (e : Int) {rest : List UInt8} (h : Stop rest) :
    unsignedNumber (decimal m ++ ((if e = 0 then [] else 0x65 :: decimalInt e) ++ rest)) =
      some (((m : Int), e), rest) := by
  have hread := exponent_printed e h
  generalize hs : (if e = 0 then [] else 0x65 :: decimalInt e) ++ rest = s at hread ⊢
  have hfirst : ∀ b ∈ s.head?, isDigit b = false ∧ b ≠ 0x2E := by
    intro b hb
    by_cases he : e = 0
    · rw [← hs, if_pos he, List.nil_append] at hb
      exact ⟨(h b hb).1, (h b hb).2.1⟩
    · rw [← hs, if_neg he] at hb
      obtain rfl := Option.some.inj hb
      exact by decide
  have hnone : fraction s = some ([], s) := by
    rw [fraction]
    rintro t rfl
    exact (hfirst _ rfl).2 rfl
  rw [unsignedNumber, whole_decimal m fun b hb => (hfirst b hb).1]
  show (do
    let (fs, s) ← fraction s
    let (e, s) ← exponent s
    some (((ofDigits (decimal m ++ fs) : Int), e - fs.length), s)) = _
  rw [hnone]
  show (do
    let (e, s) ← exponent s
    some (((ofDigits (decimal m ++ []) : Int), e - (0 : Nat)), s)) = _
  rw [hread, List.append_nil, ofDigits_decimal]
  show some (((m : Int), e - (0 : Nat)), rest) = _
  rw [Int.natCast_zero, Int.sub_zero]

theorem number_printNum (m e : Int) {rest : List UInt8} (h : Stop rest) :
    number (printNum m e ++ rest) = some (num m e, rest) := by
  rw [printNum, List.append_assoc]
  cases m with
  | negSucc n =>
      show (unsignedNumber (decimal (n + 1) ++ _)).map _ = _
      rw [unsignedNumber_decimal _ e h]
      rfl
  | ofNat n =>
      have hread := unsignedNumber_decimal n e h
      obtain ⟨d, ds, hn, hd⟩ := decimal_eq_cons n
      rw [decimalInt]
      rw [hn, List.cons_append] at hread ⊢
      rw [number, hread]
      · rfl
      · rintro s ⟨rfl, -⟩
        exact absurd hd (by decide)

/-! ## Strings that need no escapes -/

/-- A byte below `0x80` is a character of its own. -/
theorem toNat_of_mem_utf8EncodeChar {c : Char} {b : UInt8} (h : b ∈ String.utf8EncodeChar c)
    (hb : b.toNat < 0x80) : c.toNat = b.toNat := by
  have hlead : ∀ x k m : Nat, 0x80 ≤ k → 0 < m → k + m ≤ 256 →
      0x80 ≤ (UInt8.ofNat (x % m + k)).toNat := by
    intro x k m hk hm hfits
    have hmod := Nat.mod_lt x hm
    rw [UInt8.toNat_ofNat', Nat.mod_eq_of_lt (by omega)]
    omega
  have hno : ∀ x k m : Nat, 0x80 ≤ k → 0 < m → k + m ≤ 256 →
      b = UInt8.ofNat (x % m + k) → c.toNat = b.toNat := by
    intro x k m hk hm hfits hbyte
    have hbig := hlead x k m hk hm hfits
    rw [← hbyte] at hbig
    omega
  rw [String.utf8EncodeChar] at h
  split at h
  · rename_i hsmall
    rw [List.mem_singleton.mp h, UInt8.toNat_ofNat', Nat.mod_eq_of_lt (by omega)]
    rfl
  · split at h
    · rw [List.mem_cons, List.mem_singleton] at h
      rcases h with h | h <;> exact hno _ _ _ (by decide) (by decide) (by decide) h
    · split at h
      · rw [List.mem_cons, List.mem_cons, List.mem_singleton] at h
        rcases h with h | h | h <;> exact hno _ _ _ (by decide) (by decide) (by decide) h
      · rw [List.mem_cons, List.mem_cons, List.mem_cons, List.mem_singleton] at h
        rcases h with h | h | h | h <;> exact hno _ _ _ (by decide) (by decide) (by decide) h

theorem ne_of_isPlain {c : Char} {b : UInt8} (hc : isPlain c = true)
    (hb : b ∈ String.utf8EncodeChar c) : b ≠ 0x22 ∧ b ≠ 0x5C := by
  simp only [isPlain, Bool.and_eq_true, decide_eq_true_eq] at hc
  obtain ⟨⟨-, hquote⟩, hslash⟩ := hc
  constructor
  · rintro rfl
    have := toNat_of_mem_utf8EncodeChar hb (by decide)
    exact hquote (Char.toNat_inj.mp this)
  · rintro rfl
    have := toNat_of_mem_utf8EncodeChar hb (by decide)
    exact hslash (Char.toNat_inj.mp this)

theorem plain_encode {c : Char} (hc : isPlain c = true) (s : List UInt8) :
    plain (String.utf8EncodeChar c ++ s) = some (c, s) := by
  rw [plain, List.toByteArray_append, ByteArray.utf8DecodeChar?_utf8EncodeChar_append]
  show (if isPlain c = true then some (c, (String.utf8EncodeChar c ++ s).drop c.utf8Size)
    else none) = _
  rw [if_pos hc, ← String.length_utf8EncodeChar, List.drop_left]

theorem plain_sound {s r : List UInt8} {c : Char} (h : plain s = some (c, r)) :
    isPlain c = true ∧ s = String.utf8EncodeChar c ++ r := by
  rw [plain] at h
  obtain ⟨d, hdecode, h⟩ := Option.bind_eq_some_iff.mp h
  split at h
  · rename_i hplain
    obtain ⟨rfl, rfl⟩ := Prod.mk.inj (Option.some.inj h)
    obtain ⟨l, hl⟩ := ByteArray.exists_of_utf8DecodeChar?_eq_some hdecode
    have hs : s = String.utf8EncodeChar d ++ l.data.toList := by
      have := congrArg (fun b : ByteArray => b.data.toList) hl
      simpa using this
    refine ⟨hplain, ?_⟩
    rw [hs, ← String.length_utf8EncodeChar, List.drop_left]
  · exact absurd h (by simp)

/-- How a character can be written. An escape is longer than what it stands for. -/
inductive Written : List UInt8 → Char → Prop
  | plain {c : Char} : isPlain c = true → Written (String.utf8EncodeChar c) c
  | quote : Written [0x5C, 0x22] '"'
  | escaped {e : List UInt8} {c : Char} : 0x22 ∉ e → (String.utf8EncodeChar c).length < e.length →
      Written e c

theorem ne_quote_of_hexDigit {b : UInt8} {n : Nat} (h : hexDigit b = some n) : b ≠ 0x22 := by
  rintro rfl
  have hnone : hexDigit 0x22 = none := by decide
  exact absurd (hnone.symm.trans h) (by simp)

theorem hexDigits_sound {s r : List UInt8} {n : Nat} (h : hexDigits s = some (n, r)) :
    ∃ e, s = e ++ r ∧ 0x22 ∉ e ∧ e.length = 4 := by
  rw [hexDigits.eq_def] at h
  split at h
  · rename_i a b c d t
    obtain ⟨_, ha, h⟩ := Option.bind_eq_some_iff.mp h
    obtain ⟨_, hb, h⟩ := Option.bind_eq_some_iff.mp h
    obtain ⟨_, hc, h⟩ := Option.bind_eq_some_iff.mp h
    obtain ⟨_, hd, h⟩ := Option.bind_eq_some_iff.mp h
    obtain ⟨-, rfl⟩ := Prod.mk.inj (Option.some.inj h)
    refine ⟨[a, b, c, d], rfl, ?_, rfl⟩
    simp only [List.mem_cons, List.not_mem_nil, or_false, not_or]
    exact ⟨(ne_quote_of_hexDigit ha).symm, (ne_quote_of_hexDigit hb).symm,
      (ne_quote_of_hexDigit hc).symm, (ne_quote_of_hexDigit hd).symm⟩
  · exact absurd h (by simp)

theorem unicodeEscape_sound {s r : List UInt8} {c : Char} (h : unicodeEscape s = some (c, r)) :
    ∃ e, s = e ++ r ∧ 0x22 ∉ e ∧ 4 ≤ e.length := by
  rw [unicodeEscape] at h
  obtain ⟨⟨u, t⟩, hu, hunit⟩ := Option.bind_eq_some_iff.mp h
  obtain ⟨e, rfl, hquote, hlen⟩ := hexDigits_sound hu
  dsimp only at hunit
  split at hunit
  · split at hunit
    · obtain ⟨⟨v, t'⟩, hv, hpair⟩ := Option.bind_eq_some_iff.mp hunit
      obtain ⟨e', rfl, hquote', -⟩ := hexDigits_sound hv
      dsimp only at hpair
      split at hpair
      · obtain ⟨-, rfl⟩ := Prod.mk.inj (Option.some.inj hpair)
        refine ⟨e ++ 0x5C :: 0x75 :: e', by simp, by simp [hquote, hquote'], ?_⟩
        rw [List.length_append, hlen]
        exact Nat.le_add_right 4 _
      · exact absurd hpair (by simp)
    · exact absurd hunit (by simp)
  · split at hunit
    · exact absurd hunit (by simp)
    · obtain ⟨-, rfl⟩ := Prod.mk.inj (Option.some.inj hunit)
      exact ⟨e, rfl, hquote, Nat.le_of_eq hlen.symm⟩

theorem escape_sound {s r : List UInt8} {c : Char} (h : escape s = some (c, r)) :
    ∃ e, s = e ++ r ∧ Written (0x5C :: e) c := by
  -- every escape but the last stands for a character of one byte
  have hshort : ∀ (b : UInt8) (d : Char) (t : List UInt8), b ≠ 0x22 →
      (String.utf8EncodeChar d).length = 1 → some (d, t) = some (c, r) →
      ∃ e, b :: t = e ++ r ∧ Written (0x5C :: e) c := by
    intro b d t hb hd heq
    obtain ⟨rfl, rfl⟩ := Prod.mk.inj (Option.some.inj heq)
    exact ⟨[b], rfl, .escaped (by simp [hb.symm]) (by rw [hd]; exact Nat.one_lt_two)⟩
  rw [escape.eq_def] at h
  split at h
  · obtain ⟨rfl, rfl⟩ := Prod.mk.inj (Option.some.inj h)
    exact ⟨[0x22], rfl, .quote⟩
  iterate 7
    · exact hshort _ _ _ (by decide) (by decide) h
  · obtain ⟨e, rfl, hquote, hlen⟩ := unicodeEscape_sound h
    refine ⟨0x75 :: e, rfl, .escaped (by simp [hquote]) ?_⟩
    have hsize := c.utf8Size_le_four
    rw [String.length_utf8EncodeChar, List.length_cons, List.length_cons]
    omega
  · exact absurd h (by simp)

theorem character_sound {s r : List UInt8} {c : Char} (h : character s = some (c, r)) :
    ∃ e, s = e ++ r ∧ Written e c := by
  rw [character.eq_def] at h
  split at h
  · obtain ⟨e, rfl, hwritten⟩ := escape_sound h
    exact ⟨0x5C :: e, rfl, hwritten⟩
  · obtain ⟨hplain, rfl⟩ := plain_sound h
    exact ⟨_, rfl, .plain hplain⟩

/-- What may stand between quotation marks, and the string it denotes. -/
inductive Body : List UInt8 → List UInt8 → Prop
  | nil : Body [] []
  | cons {e b v : List UInt8} {c : Char} : Written e c → Body b v →
      Body (e ++ b) (String.utf8EncodeChar c ++ v)

theorem characters_sound {n : Nat} {s v r : List UInt8} (h : characters n s = some (v, r)) :
    ∃ b, s = b ++ 0x22 :: r ∧ Body b v := by
  fun_induction characters n s generalizing v with
  | case1 n s =>
      obtain ⟨rfl, rfl⟩ := Prod.mk.inj (Option.some.inj h)
      exact ⟨[], rfl, .nil⟩
  | case2 s hne => exact absurd h (by simp)
  | case3 n s hne ih =>
      obtain ⟨⟨c, t⟩, hc, h⟩ := Option.bind_eq_some_iff.mp h
      obtain ⟨⟨cs, t'⟩, hcs, h⟩ := Option.bind_eq_some_iff.mp h
      obtain ⟨rfl, rfl⟩ := Prod.mk.inj (Option.some.inj h)
      obtain ⟨e, rfl, hwritten⟩ := character_sound hc
      obtain ⟨b, rfl, hbody⟩ := ih t hcs
      exact ⟨e ++ b, by simp, .cons hwritten hbody⟩

theorem Written.length_le {e : List UInt8} {c : Char} (h : Written e c) :
    (String.utf8EncodeChar c).length ≤ e.length := by
  cases h with
  | plain => exact Nat.le_refl _
  | quote => decide
  | escaped _ hlen => exact Nat.le_of_lt hlen

theorem Body.length_le {b v : List UInt8} (h : Body b v) : v.length ≤ b.length := by
  induction h with
  | nil => exact Nat.le_refl _
  | cons hwritten _ ih =>
      rw [List.length_append, List.length_append]
      exact Nat.add_le_add hwritten.length_le ih

/-- Where nothing is lost in length there are no escapes. -/
theorem Body.plain_of_length {b v : List UInt8} (h : Body b v) (hlen : v.length = b.length) :
    b = v ∧ Plain v := by
  induction h with
  | nil => exact ⟨rfl, [], rfl, by simp⟩
  | @cons e b v c hwritten hbody ih =>
      rw [List.length_append, List.length_append] at hlen
      have hle := hbody.length_le
      cases hwritten with
      | plain hc =>
          obtain ⟨rfl, cs, hcs, hplain⟩ := ih (by omega)
          refine ⟨rfl, c :: cs, by rw [List.flatMap_cons, ← hcs], ?_⟩
          exact List.forall_mem_cons.mpr ⟨hc, hplain⟩
      | quote =>
          have hone : (String.utf8EncodeChar '"').length = 1 := by decide
          rw [hone, List.length_cons, List.length_singleton] at hlen
          omega
      | escaped _ hshort => omega

/-- Of a quotation mark in the body one comes sooner in the string. -/
theorem Body.idxOf_lt {b v : List UInt8} (h : Body b v) (hquote : 0x22 ∈ b) :
    v.idxOf 0x22 < b.idxOf 0x22 := by
  induction h with
  | nil => exact absurd hquote List.not_mem_nil
  | @cons e b v c hwritten hbody ih =>
      cases hwritten with
      | plain hc =>
          have hno : 0x22 ∉ String.utf8EncodeChar c := fun hmem => (ne_of_isPlain hc hmem).1 rfl
          have hlt := ih ((List.mem_append.mp hquote).resolve_left hno)
          rw [List.idxOf_append, List.idxOf_append, if_neg hno, if_neg hno]
          omega
      | quote => exact Nat.zero_lt_one
      | escaped hno hshort =>
          have hlt := ih ((List.mem_append.mp hquote).resolve_left hno)
          rw [List.idxOf_append, List.idxOf_append, if_neg hno]
          split
          · rename_i hmem
            have := List.idxOf_lt_length_of_mem hmem
            omega
          · omega

/-- A string that is read as itself has no escapes: the first quotation mark of its text would
otherwise follow a backslash, and there would be a sooner one. -/
theorem Body.eq_of_append {b v r rest : List UInt8} (h : Body b v)
    (heq : v ++ 0x22 :: rest = b ++ 0x22 :: r) : b = v := by
  rcases Nat.lt_or_ge v.length b.length with hlt | hge
  · have hvalue : v ++ [0x22] <+: b ++ 0x22 :: r :=
      ⟨rest, by rw [← heq, List.append_assoc, List.singleton_append]⟩
    have hlen : (v ++ [0x22]).length ≤ b.length := by
      rw [List.length_append, List.length_singleton]
      exact hlt
    obtain ⟨t, rfl⟩ := List.prefix_of_prefix_length_le hvalue (List.prefix_append _ _) hlen
    have hsooner := h.idxOf_lt (by simp)
    rw [List.append_assoc, List.idxOf_append] at hsooner
    split at hsooner
    · exact absurd hsooner (Nat.lt_irrefl _)
    · rename_i hno
      rw [List.idxOf_eq_length hno, List.singleton_append, List.idxOf_cons_self] at hsooner
      omega
  · exact (h.plain_of_length (Nat.le_antisymm h.length_le hge)).1

/-- The bytes that tell a plain character from what ends a string or begins an escape. -/
theorem encode_eq_cons {c : Char} (hc : isPlain c = true) :
    ∃ b t, String.utf8EncodeChar c = b :: t ∧ b ≠ 0x22 ∧ b ≠ 0x5C := by
  cases h : String.utf8EncodeChar c with
  | nil =>
      have hlen := String.length_utf8EncodeChar c
      rw [h] at hlen
      exact absurd hlen.symm (Nat.ne_of_gt c.utf8Size_pos)
  | cons b t => exact ⟨b, t, rfl, ne_of_isPlain hc (h ▸ List.mem_cons_self)⟩

theorem characters_plain {cs : List Char} (h : ∀ c ∈ cs, isPlain c = true) (rest : List UInt8)
    {n : Nat} (hn : cs.length ≤ n) :
    characters n (cs.flatMap String.utf8EncodeChar ++ 0x22 :: rest) =
      some (cs.flatMap String.utf8EncodeChar, rest) := by
  induction cs generalizing n with
  | nil => rw [List.flatMap_nil, List.nil_append, characters]
  | cons c cs ih =>
      obtain ⟨m, rfl⟩ : ∃ m, n = m + 1 := Nat.exists_eq_add_one.mpr (Nat.zero_lt_of_lt hn)
      have hc := h c List.mem_cons_self
      have hrest := ih (fun d hd => h d (List.mem_cons_of_mem _ hd)) (Nat.le_of_succ_le_succ hn)
      have hchar := plain_encode hc (cs.flatMap String.utf8EncodeChar ++ 0x22 :: rest)
      obtain ⟨b, t, hb, hquote, hslash⟩ := encode_eq_cons hc
      rw [List.flatMap_cons, List.append_assoc]
      have hone : character (String.utf8EncodeChar c ++
          (cs.flatMap String.utf8EncodeChar ++ 0x22 :: rest)) =
          some (c, cs.flatMap String.utf8EncodeChar ++ 0x22 :: rest) := by
        rw [← hchar, hb, List.cons_append, character]
        rintro s ⟨rfl, -⟩
        exact hslash rfl
      rw [hb, List.cons_append] at hone ⊢
      rw [characters, hone]
      · show (do
          let (cs, s) ← characters m (cs.flatMap String.utf8EncodeChar ++ 0x22 :: rest)
          some (String.utf8EncodeChar c ++ cs, s)) = _
        rw [hrest, hb]
        rfl
      · rintro s ⟨rfl, -⟩
        exact hquote rfl

theorem length_le_flatMap (cs : List Char) :
    cs.length ≤ (cs.flatMap String.utf8EncodeChar).length := by
  induction cs with
  | nil => exact Nat.le_refl _
  | cons c cs ih =>
      have hpos := c.utf8Size_pos
      rw [List.flatMap_cons, List.length_append, String.length_utf8EncodeChar, List.length_cons]
      omega

/-- **A string between quotation marks** is read as itself just if it is plain. -/
theorem string_iff {s rest r : List UInt8} :
    string (s ++ 0x22 :: rest) = some (s, r) ↔ Plain s ∧ r = rest := by
  constructor
  · intro h
    obtain ⟨b, heq, hbody⟩ := characters_sound h
    obtain rfl := hbody.eq_of_append heq
    exact ⟨(hbody.plain_of_length rfl).2, by simpa using heq.symm⟩
  · rintro ⟨⟨cs, rfl, hplain⟩, rfl⟩
    refine characters_plain hplain r ?_
    rw [List.length_append]
    exact Nat.le_trans (length_le_flatMap cs) (Nat.le_add_right _ _)

instance (s : List UInt8) : Decidable (Plain s) :=
  decidable_of_iff (string (s ++ [0x22]) = some (s, [])) <| by
    rw [string_iff, and_iff_left rfl]

example : Plain [0x61, 0xC3, 0xA9] ∧ ¬ Plain [0x61, 0xC3] := by decide

/-! ## Lists -/

/-- Read at the front of a text, the item is found to be `x` and to end where it does, just if
it is `ok`. -/
def Reads {α : Type} (item : Parser α) (text : List UInt8) (x : α) (ok : Prop) : Prop :=
  ∀ rest r, Stop rest → (item (text ++ rest) = some (x, r) ↔ ok ∧ r = rest)

theorem skip_of_not_isBlank {b : UInt8} (h : isBlank b = false) (s : List UInt8) :
    skip (b :: s) = b :: s := by
  rw [skip, List.dropWhile_cons_of_neg (by rw [h]; exact Bool.false_ne_true)]

theorem stop_cons {b : UInt8} (h : b = 0x2C ∨ b = 0x5D ∨ b = 0x7D) (s : List UInt8) :
    Stop (b :: s) := by
  intro c hc
  obtain rfl := Option.some.inj hc
  rcases h with rfl | rfl | rfl <;> decide

theorem length_le_of_mem_commas {t : List UInt8} {ts : List (List UInt8)} (h : t ∈ ts) :
    t.length ≤ (commas ts).length := by
  fun_induction commas ts with
  | case1 => exact absurd h List.not_mem_nil
  | case2 t' =>
      obtain rfl := List.mem_singleton.mp h
      exact Nat.le_refl _
  | case3 t' ts hne ih =>
      rw [List.length_append, List.length_cons]
      rcases List.mem_cons.mp h with rfl | hmem
      · exact Nat.le_add_right _ _
      · have := ih hmem
        omega

theorem length_le_commas {ts : List (List UInt8)} (h : ∀ t ∈ ts, t ≠ []) :
    ts.length ≤ (commas ts).length := by
  fun_induction commas ts with
  | case1 => exact Nat.le_refl _
  | case2 t => exact List.length_pos_iff.mpr (h t List.mem_cons_self)
  | case3 t ts hne ih =>
      have := ih fun t' ht => h t' (List.mem_cons_of_mem _ ht)
      rw [List.length_append, List.length_cons, List.length_cons]
      omega

section Lists

variable {α : Type} {item : Parser α} {close : UInt8}

/-- After an item the list is closed, or a comma follows and the rest of the list. -/
theorem items_eq_some_iff (hclose : close ≠ 0x2C) {n : Nat} {s r : List UInt8} {x : α}
    {xs : List α} :
    items item close (n + 1) s = some (x :: xs, r) ↔ ∃ t, item s = some (x, t) ∧
      (xs = [] ∧ skip t = close :: r ∨
        ∃ t', skip t = 0x2C :: t' ∧ items item close n t' = some (xs, r)) := by
  rw [items]
  constructor
  · intro h
    obtain ⟨⟨y, t⟩, hy, hrest⟩ := Option.bind_eq_some_iff.mp h
    dsimp only at hrest
    split at hrest
    · rename_i b t' hskip
      split at hrest
      · rename_i hb
        obtain ⟨hlist, rfl⟩ := Prod.mk.inj (Option.some.inj hrest)
        obtain ⟨rfl, rfl⟩ := List.cons.inj hlist
        exact ⟨t, hy, Or.inl ⟨rfl, hb ▸ hskip⟩⟩
      · split at hrest
        · rename_i hb
          obtain ⟨⟨ys, t''⟩, hys, hmore⟩ := Option.bind_eq_some_iff.mp hrest
          obtain ⟨hlist, rfl⟩ := Prod.mk.inj (Option.some.inj hmore)
          obtain ⟨rfl, rfl⟩ := List.cons.inj hlist
          exact ⟨t, hy, Or.inr ⟨t', hb ▸ hskip, hys⟩⟩
        · exact absurd hrest (by simp)
    · exact absurd hrest (by simp)
  · rintro ⟨t, hx, ⟨rfl, hskip⟩ | ⟨t', hskip, hxs⟩⟩
    · rw [hx]
      show (match skip t with
        | b :: s => _
        | [] => _) = _
      rw [hskip]
      exact if_pos rfl
    · rw [hx]
      show (match skip t with
        | b :: s => _
        | [] => _) = _
      rw [hskip]
      show (if 0x2C = close then _ else _) = _
      rw [if_neg hclose.symm, if_pos rfl, hxs]
      rfl

variable {text : α → List UInt8} {ok : α → Prop}

theorem items_iff (hclose : close = 0x5D ∨ close = 0x7D) {xs : List α} (hne : xs ≠ [])
    (hreads : ∀ x ∈ xs, Reads item (text x) x (ok x)) {n : Nat} (hn : xs.length ≤ n)
    {rest r : List UInt8} :
    items item close n (commas (xs.map text) ++ close :: rest) = some (xs, r) ↔
      (∀ x ∈ xs, ok x) ∧ r = rest := by
  have hcomma : close ≠ 0x2C := by rcases hclose with rfl | rfl <;> decide
  have hend : skip (close :: rest) = close :: rest :=
    skip_of_not_isBlank (by rcases hclose with rfl | rfl <;> decide) rest
  induction xs generalizing n with
  | nil => exact absurd rfl hne
  | cons x xs ih =>
      obtain ⟨m, rfl⟩ : ∃ m, n = m + 1 := Nat.exists_eq_add_one.mpr (Nat.zero_lt_of_lt hn)
      have hx := hreads x List.mem_cons_self
      rw [items_eq_some_iff hcomma]
      cases xs with
      | nil =>
          have hstop := stop_cons (Or.inr hclose) rest
          constructor
          · rintro ⟨t, hread, hcase⟩
            obtain ⟨hok, rfl⟩ := (hx _ _ hstop).mp hread
            rw [hend] at hcase
            rcases hcase with ⟨-, heq⟩ | ⟨t', heq, -⟩
            · exact ⟨by simpa using hok, (List.cons.inj heq).2.symm⟩
            · exact absurd (List.cons.inj heq).1 hcomma
          · rintro ⟨hok, rfl⟩
            exact ⟨_, (hx _ _ hstop).mpr ⟨hok x List.mem_cons_self, rfl⟩, Or.inl ⟨rfl, hend⟩⟩
      | cons x' xs =>
          have hrest := ih (List.cons_ne_nil _ _)
            (fun y hy => hreads y (List.mem_cons_of_mem _ hy)) (Nat.le_of_succ_le_succ hn)
          have htext : commas ((x :: x' :: xs).map text) ++ close :: rest =
              text x ++ 0x2C :: (commas ((x' :: xs).map text) ++ close :: rest) := by
            rw [List.map_cons, List.map_cons, commas, List.append_assoc, List.cons_append]
            exact List.cons_ne_nil _ _
          have hstop := stop_cons (Or.inl rfl) (commas ((x' :: xs).map text) ++ close :: rest)
          have hskip := skip_of_not_isBlank (b := 0x2C) (by decide)
            (commas ((x' :: xs).map text) ++ close :: rest)
          rw [htext, List.forall_mem_cons]
          constructor
          · rintro ⟨t, hread, hcase⟩
            obtain ⟨hok, rfl⟩ := (hx _ _ hstop).mp hread
            rw [hskip] at hcase
            rcases hcase with ⟨heq, -⟩ | ⟨t', heq, hmore⟩
            · exact absurd heq (List.cons_ne_nil _ _)
            · rw [← (List.cons.inj heq).2] at hmore
              exact ⟨⟨hok, (hrest.mp hmore).1⟩, (hrest.mp hmore).2⟩
          · rintro ⟨⟨hok, hoks⟩, hr⟩
            exact ⟨_, (hx _ _ hstop).mpr ⟨hok, rfl⟩, Or.inr ⟨_, hskip, hrest.mpr ⟨hoks, hr⟩⟩⟩

theorem list_iff (hclose : close = 0x5D ∨ close = 0x7D) {xs : List α}
    (hfirst : ∀ x ∈ xs, ∃ b t, text x = b :: t ∧ isBlank b = false ∧ b ≠ close)
    (hreads : ∀ x ∈ xs, Reads item (text x) x (ok x)) {rest r : List UInt8} :
    list item close (commas (xs.map text) ++ close :: rest) = some (xs, r) ↔
      (∀ x ∈ xs, ok x) ∧ r = rest := by
  cases xs with
  | nil =>
      have hend : skip (close :: rest) = close :: rest :=
        skip_of_not_isBlank (by rcases hclose with rfl | rfl <;> decide) rest
      rw [List.map_nil, commas, List.nil_append, list, hend]
      show (if close = close then some ([], rest) else _) = some ([], r) ↔ _
      rw [if_pos rfl]
      simp [eq_comm]
  | cons x xs =>
      have hlen : (x :: xs).length ≤ (commas ((x :: xs).map text) ++ close :: rest).length := by
        have hpos : ∀ t ∈ (x :: xs).map text, t ≠ [] := by
          intro t ht
          obtain ⟨y, hy, rfl⟩ := List.mem_map.mp ht
          obtain ⟨b, t, hyt, -⟩ := hfirst y hy
          rw [hyt]
          exact List.cons_ne_nil _ _
        have := length_le_commas hpos
        rw [List.length_map] at this
        rw [List.length_append]
        omega
      rw [← items_iff hclose (List.cons_ne_nil _ _) hreads hlen]
      obtain ⟨b, t, hb⟩ : ∃ b t, commas ((x :: xs).map text) ++ close :: rest = b :: t ∧
          isBlank b = false ∧ b ≠ close := by
        obtain ⟨b, t, hxt, hb⟩ := hfirst x List.mem_cons_self
        cases xs with
        | nil =>
            exact ⟨b, t ++ close :: rest, by rw [List.map_singleton, commas, hxt]; rfl, hb⟩
        | cons y ys =>
            refine ⟨b, t ++ 0x2C :: commas ((y :: ys).map text) ++ close :: rest, ?_, hb⟩
            rw [List.map_cons, List.map_cons, commas, hxt]
            · rfl
            · exact List.cons_ne_nil _ _
      rw [list, hb.1, skip_of_not_isBlank hb.2.1]
      show (if b = close then _ else _) = _ ↔ _
      rw [if_neg hb.2.2]

theorem member_iff {k : List UInt8} {x : α} {t : List UInt8} {p : Prop} (h : Reads item t x p) :
    Reads (member item) (quoted k ++ 0x3A :: t) (k, x) (Plain k ∧ p) := by
  intro rest r hstop
  have htext : quoted k ++ 0x3A :: t ++ rest = 0x22 :: (k ++ 0x22 :: (0x3A :: (t ++ rest))) := by
    simp [quoted]
  rw [htext, member, skip_of_not_isBlank (by decide)]
  show (string (k ++ 0x22 :: 0x3A :: (t ++ rest))).bind _ = _ ↔ _
  constructor
  · intro heq
    obtain ⟨⟨k', s⟩, hk, hvalue⟩ := Option.bind_eq_some_iff.mp heq
    dsimp only at hvalue
    split at hvalue
    · rename_i s' hskip
      obtain ⟨⟨x', s''⟩, hx, hend⟩ := Option.bind_eq_some_iff.mp hvalue
      obtain ⟨hpair, rfl⟩ := Prod.mk.inj (Option.some.inj hend)
      obtain ⟨rfl, rfl⟩ := Prod.mk.inj hpair
      obtain ⟨hplain, rfl⟩ := string_iff.mp hk
      rw [skip_of_not_isBlank (by decide)] at hskip
      rw [← (List.cons.inj hskip).2] at hx
      obtain ⟨hp, hr⟩ := (h rest _ hstop).mp hx
      exact ⟨⟨hplain, hp⟩, hr⟩
    · exact absurd hvalue (by simp)
  · rintro ⟨⟨hplain, hp⟩, rfl⟩
    rw [string_iff.mpr ⟨hplain, rfl⟩]
    show (match skip (0x3A :: (t ++ r)) with
      | 0x3A :: s => do
          let (x, s) ← item s
          some ((k, x), s)
      | _ => none) = _
    rw [skip_of_not_isBlank (by decide)]
    show (item (t ++ r)).bind _ = _
    rw [(h r r hstop).mpr ⟨hp, rfl⟩]
    rfl

end Lists

/-! ## The round trip -/

theorem value_string {n : Nat} {s : List UInt8} :
    value (n + 1) (0x22 :: s) = (string s).map fun (cs, s) => (str cs, s) := by
  rw [value, skip_of_not_isBlank (by decide)]
  rfl

theorem value_arr {n : Nat} {s : List UInt8} :
    value (n + 1) (0x5B :: s) = (list (value n) 0x5D s).map fun (xs, s) => (arr xs, s) := by
  rw [value, skip_of_not_isBlank (by decide)]
  rfl

theorem value_obj {n : Nat} {s : List UInt8} :
    value (n + 1) (0x7B :: s) =
      (list (member (value n)) 0x7D s).map fun (ms, s) => (obj ms, s) := by
  rw [value, skip_of_not_isBlank (by decide)]
  rfl

theorem not_isBlank_of_number {b : UInt8} (hb : isDigit b = true ∨ b = 0x2D) :
    isBlank b = false := by
  rw [Bool.eq_false_iff]
  intro h
  simp only [isBlank, Bool.or_eq_true, decide_eq_true_eq] at h
  rcases h with ((rfl | rfl) | rfl) | rfl <;> exact absurd hb (by decide)

theorem value_number {n : Nat} {b : UInt8} {s : List UInt8}
    (hb : isDigit b = true ∨ b = 0x2D) : value (n + 1) (b :: s) = number (b :: s) := by
  rw [value, skip_of_not_isBlank (not_isBlank_of_number hb)]
  split
  iterate 6
    · rename_i heq
      obtain ⟨rfl, -⟩ := List.cons.inj heq
      exact absurd hb (by decide)
  · rfl

theorem printNum_eq_cons (m e : Int) :
    ∃ b s, printNum m e = b :: s ∧ (isDigit b = true ∨ b = 0x2D) := by
  cases m with
  | negSucc n => exact ⟨0x2D, _, rfl, Or.inr rfl⟩
  | ofNat n =>
      obtain ⟨d, ds, hn, hd⟩ := decimal_eq_cons n
      exact ⟨d, _, by rw [printNum, decimalInt, hn, List.cons_append], Or.inl hd⟩

theorem word_append (name : List UInt8) (v : Json) (rest : List UInt8) :
    word name v (name ++ rest) = some (v, rest) := by
  rw [word, if_pos (List.prefix_append _ _), List.drop_left]

/-- What a printed value begins with: no white space and nothing that closes a list. -/
theorem print_eq_cons (j : Json) :
    ∃ b s, print j = b :: s ∧ isBlank b = false ∧ b ≠ 0x5D ∧ b ≠ 0x7D := by
  cases j with
  | null => exact ⟨_, _, print.eq_1, by decide, by decide, by decide⟩
  | bool b => cases b <;> exact ⟨_, _, by rw [print]; rfl, by decide, by decide, by decide⟩
  | num m e =>
      obtain ⟨b, s, hs, hb⟩ := printNum_eq_cons m e
      refine ⟨b, s, by rw [print, hs], not_isBlank_of_number hb, ?_, ?_⟩
      · rintro rfl
        exact absurd hb (by decide)
      · rintro rfl
        exact absurd hb (by decide)
  | str s => exact ⟨_, _, by rw [print, quoted], by decide, by decide, by decide⟩
  | arr xs => exact ⟨_, _, by rw [print], by decide, by decide, by decide⟩
  | obj ms => exact ⟨_, _, by rw [print], by decide, by decide, by decide⟩

theorem map_eq_some_iff {α : Type} {f : α → Json} (hf : Function.Injective f)
    {o : Option (α × List UInt8)} {x : α} {r : List UInt8} :
    (o.map fun (x, s) => (f x, s)) = some (f x, r) ↔ o = some (x, r) := by
  rw [Option.map_eq_some_iff]
  constructor
  · rintro ⟨⟨y, s⟩, hread, heq⟩
    obtain ⟨hxy, rfl⟩ := Prod.mk.inj heq
    rw [← hf hxy, hread]
  · exact fun hread => ⟨_, hread, rfl⟩

/-- White space before a value is passed over. -/
theorem value_space (n : Nat) (s : List UInt8) : value n (0x20 :: s) = value n s := by
  cases n with
  | zero => rfl
  | succ n =>
      have hskip : skip (0x20 :: s) = skip s := rfl
      rw [value, value, hskip]

theorem reads_word {name : List UInt8} {v : Json} {n : Nat}
    (h : ∀ rest, value n (name ++ rest) = word name v (name ++ rest)) :
    Reads (value n) name v True := by
  intro rest r _
  rw [h, word_append, true_and]
  simp [eq_comm]

theorem exists_succ {j : Json} {n : Nat} (h : (print j).length ≤ n) : ∃ m, n = m + 1 := by
  obtain ⟨b, s, hs, -⟩ := print_eq_cons j
  rw [hs] at h
  exact Nat.exists_eq_add_one.mpr (Nat.zero_lt_of_lt h)

/-- Read with fuel for its length, a printed value is found again just if it is raw. -/
theorem reads_print (j : Json) {n : Nat} (hn : (print j).length ≤ n) :
    Reads (value n) (print j) j (Raw j) := by
  induction j using print.induct generalizing n with
  | case1 =>
      obtain ⟨n, rfl⟩ := exists_succ hn
      rw [print, Raw]
      · exact reads_word fun rest => by rw [nullWord, List.cons_append, value]; rfl
      all_goals simp
  | case2 =>
      obtain ⟨n, rfl⟩ := exists_succ hn
      rw [print, Raw]
      · exact reads_word fun rest => by rw [trueWord, List.cons_append, value]; rfl
      all_goals simp
  | case3 =>
      obtain ⟨n, rfl⟩ := exists_succ hn
      rw [print, Raw]
      · exact reads_word fun rest => by rw [falseWord, List.cons_append, value]; rfl
      all_goals simp
  | case4 m e =>
      intro rest r hstop
      obtain ⟨n, rfl⟩ := exists_succ hn
      -- a number ends where the text stops, and no earlier
      obtain ⟨b, s, hs, hb⟩ := printNum_eq_cons m e
      have hread := number_printNum m e hstop
      rw [hs, List.cons_append] at hread
      rw [print, Raw, hs, List.cons_append, value_number hb, hread, true_and]
      · simp [eq_comm]
      all_goals simp
  | case5 s =>
      intro rest r hstop
      obtain ⟨n, rfl⟩ := exists_succ hn
      have htext : quoted s ++ rest = 0x22 :: (s ++ 0x22 :: rest) := by simp [quoted]
      rw [print, Raw, htext, value_string, map_eq_some_iff (fun _ _ => str.inj), string_iff]
  | case6 xs ih =>
      intro rest r hstop
      obtain ⟨n, rfl⟩ := exists_succ hn
      have htext : print (arr xs) ++ rest = 0x5B :: (commas (xs.map print) ++ 0x5D :: rest) := by
        rw [print]
        simp
      -- the fuel of an item is that of the array but one, which is enough
      have hfirst : ∀ x ∈ xs, ∃ b t, print x = b :: t ∧ isBlank b = false ∧ b ≠ 0x5D := by
        intro x _
        obtain ⟨b, t, hx, hblank, hclose, -⟩ := print_eq_cons x
        exact ⟨b, t, hx, hblank, hclose⟩
      have hitem : ∀ x ∈ xs, Reads (value n) (print x) x (Raw x) := by
        intro x hx
        have hle := length_le_of_mem_commas (List.mem_map_of_mem (f := print) hx)
        rw [print, List.length_cons, List.length_append, List.length_singleton] at hn
        exact ih x hx (by omega)
      rw [htext, value_arr, map_eq_some_iff (fun _ _ => arr.inj),
        list_iff (Or.inl rfl) hfirst hitem, Raw]
  | case7 ms ih =>
      intro rest r hstop
      obtain ⟨n, rfl⟩ := exists_succ hn
      have htext : print (obj ms) ++ rest = 0x7B :: (commas (ms.map fun m =>
          quoted m.1 ++ 0x3A :: 0x20 :: print m.2) ++ 0x7D :: rest) := by
        rw [print]
        simp
      have hfirst : ∀ m ∈ ms, ∃ b t, quoted m.1 ++ 0x3A :: 0x20 :: print m.2 = b :: t ∧
          isBlank b = false ∧ b ≠ 0x7D :=
        fun m _ => ⟨0x22, _, rfl, by decide, by decide⟩
      have hitem : ∀ m ∈ ms, Reads (member (value n)) (quoted m.1 ++ 0x3A :: 0x20 :: print m.2) m
          (Plain m.1 ∧ Raw m.2) := by
        intro m hm
        have hle := length_le_of_mem_commas (List.mem_map_of_mem
          (f := fun m : List UInt8 × Json => quoted m.1 ++ 0x3A :: 0x20 :: print m.2) hm)
        rw [List.length_append, List.length_cons, List.length_cons] at hle
        rw [print, List.length_cons, List.length_append, List.length_singleton] at hn
        have hvalue := ih m hm (n := n) (by omega)
        refine member_iff fun rest r hstop => ?_
        rw [List.cons_append, value_space]
        exact hvalue rest r hstop
      rw [htext, value_obj, map_eq_some_iff (fun _ _ => obj.inj),
        list_iff (Or.inr rfl) hfirst hitem, Raw]

/-- **Printing and reading back** gives the value just if none of its strings needs an escape. -/
theorem parse_print_iff (j : Json) : parse (print j) = some j ↔ Raw j := by
  have hstop : Stop [] := by simp [Stop]
  have hread : ∀ r, value (print j).length (print j) = some (j, r) ↔ Raw j ∧ r = [] := by
    intro r
    have h := reads_print j (Nat.le_refl _) [] r hstop
    rwa [List.append_nil] at h
  constructor
  · intro h
    rw [parse] at h
    split at h
    · rename_i j' r heq
      split at h
      · rw [Option.some.inj h] at heq
        exact ((hread r).mp heq).1
      · exact absurd h (by simp)
    · exact absurd h (by simp)
  · intro hraw
    rw [parse, (hread []).mpr ⟨hraw, rfl⟩]
    rfl

end Json

end Cfrp.Lib

import Cfrp.Lib.Search
import Cfrp.Protocol.Binary
import Mathlib.Data.List.DropRight

/-!
# The host of an HTTP request

The `http` branch of `DoVhostAccept` searches the first bytes of a connection for the text
`Host: `, takes what follows up to the next line end, cuts it at the first colon and trims it.
It does not look for a line that begins so, nor for the other spellings a field can have.
-/

namespace Cfrp.Vhost

open Lib Protocol

/-- `"Host: "` -/
def hostText : List Byte := [0x48, 0x6F, 0x73, 0x74, 0x3A, 0x20]

/-- `"\r\n"` -/
def crlf : List Byte := [0x0D, 0x0A]

/-- `':'` -/
def colon : Byte := 0x3A

/-- `' '` -/
def space : Byte := 0x20

/-- One of `" \t\r\n"`. -/
def isSpace (b : Byte) : Bool := b == 0x20 || b == 0x09 || b == 0x0D || b == 0x0A

/-- The two `erase` calls at the end. -/
def trim (domain : List Byte) : List Byte := (domain.dropWhile isSpace).rdropWhile isSpace

/-- The cut at the first colon. -/
def withoutPort (domain : List Byte) : List Byte :=
  match find [colon] domain with
  | some i => domain.take i
  | none => domain

/-- The `http` branch: the domain, which stays empty where the source does not set it. -/
def hostDomain (data : List Byte) : List Byte :=
  match find hostText data with
  | none => []
  | some pos =>
      match (find crlf (data.drop pos)).map (pos + ·) with
      | none => []
      | some lineEnd =>
          trim (withoutPort ((data.drop (pos + 6)).take (lineEnd - (pos + 6))))

/-! ## What a client sends -/

/-- An upper case letter becomes the lower case one. -/
def lower (b : Byte) : Byte := if 0x41 ≤ b ∧ b ≤ 0x5A then b + 0x20 else b

/-- `"host"` -/
def hostLower : List Byte := [0x68, 0x6F, 0x73, 0x74]

/-- White space around a field value. -/
def IsOws (bytes : List Byte) : Prop := ∀ b ∈ bytes, b = 0x20 ∨ b = 0x09

/-- A field line. `before` and `after` are the white space around the value. -/
structure Field where
  name : List Byte
  before : List Byte
  value : List Byte
  after : List Byte

namespace Field

/-- What stands between the colon and the line end. -/
def text (f : Field) : List Byte := f.before ++ (f.value ++ f.after)

def line (f : Field) : List Byte := f.name ++ ([colon] ++ (f.text ++ crlf))

structure WellFormed (f : Field) : Prop where
  name : ∀ b ∈ f.name, b ≠ colon ∧ isSpace b = false
  before : IsOws f.before
  value : ∀ b ∈ f.value, b ≠ 0x0D ∧ b ≠ 0x0A
  after : IsOws f.after

/-- In any letter case. -/
def IsHost (f : Field) : Prop := f.name.map lower = hostLower

end Field

/-- A request head with one `Host` field, whose value is a host and perhaps a port. -/
structure RequestHead where
  requestLine : List Byte
  before : List Field
  hostField : Field
  host : List Byte
  port : List Byte
  after : List Field

namespace RequestHead

/-- What stands before the line of the `Host` field. -/
def start (head : RequestHead) : List Byte :=
  head.requestLine ++ (crlf ++ head.before.flatMap Field.line)

def bytes (head : RequestHead) : List Byte :=
  head.start ++ (head.hostField.line ++ (head.after.flatMap Field.line ++ crlf))

/-- A host has a colon only between brackets, as an IP literal has. A port is a colon and
digits. -/
structure WellFormed (head : RequestHead) : Prop where
  requestLine : ∀ b ∈ head.requestLine, b ≠ 0x0D ∧ b ≠ 0x0A
  before : ∀ f ∈ head.before, f.WellFormed ∧ ¬ f.IsHost
  hostField : head.hostField.WellFormed ∧ head.hostField.IsHost
  after : ∀ f ∈ head.after, f.WellFormed ∧ ¬ f.IsHost
  value : head.hostField.value = head.host ++ head.port
  host : ∀ b ∈ head.host, isSpace b = false
  literal : colon ∈ head.host → head.host.head? = some 0x5B ∧ head.host.getLast? = some 0x5D
  port : head.port = [] ∨ ∃ digits, head.port = colon :: digits ∧
    ∀ b ∈ digits, 0x30 ≤ b ∧ b ≤ 0x39

end RequestHead

/-! ## Cutting and trimming -/

theorem withoutPort_eq (l : List Byte) : withoutPort l = l.takeWhile (· ≠ colon) := by
  unfold withoutPort
  induction l with
  | nil => rfl
  | cons b l ih =>
      rw [find, List.takeWhile_cons]
      by_cases hb : b = colon
      · rw [hb, if_pos (List.cons_prefix_cons.mpr ⟨rfl, List.nil_prefix⟩), if_neg (by simp)]
        rfl
      · have hnot : ¬ [colon] <+: b :: l := fun h => hb (List.cons_prefix_cons.mp h).1.symm
        rw [if_neg hnot, if_pos (decide_eq_true hb), ← ih]
        cases find [colon] l with
        | none => rfl
        | some i => rfl

theorem not_mem_withoutPort (l : List Byte) : colon ∉ trim (withoutPort l) := by
  intro h
  have hdropped := (List.dropWhile_suffix _).subset (List.rdropWhile_prefix _ _ |>.subset h)
  rw [withoutPort_eq] at hdropped
  exact absurd (List.mem_takeWhile_imp hdropped) (by simp)

/-- Trimming takes away the white space on both sides and nothing else. -/
theorem trim_eq {a l b : List Byte} (ha : ∀ x ∈ a, isSpace x = true)
    (hl : ∀ x ∈ l, isSpace x = false) (hb : ∀ x ∈ b, isSpace x = true) :
    trim (a ++ (l ++ b)) = l := by
  have hself : ∀ l : List Byte, (∀ x ∈ l, isSpace x = false) → l.dropWhile isSpace = l := by
    intro l hl
    rw [List.dropWhile_eq_self_iff]
    intro hpos
    rw [hl _ (List.getElem_mem hpos)]
    exact Bool.false_ne_true
  rw [trim, List.dropWhile_append_of_pos ha]
  cases l with
  | nil => rw [List.nil_append, List.dropWhile_eq_nil_iff.mpr hb]; rfl
  | cons x l =>
      rw [List.cons_append, List.dropWhile_cons, if_neg (by rw [hl x List.mem_cons_self]; simp),
        ← List.cons_append, List.rdropWhile, List.reverse_append,
        List.dropWhile_append_of_pos fun y hy => hb y (List.mem_reverse.mp hy),
        hself _ fun y hy => hl y (List.mem_reverse.mp hy), List.reverse_reverse]

theorem IsOws.isSpace {bytes : List Byte} (h : IsOws bytes) : ∀ b ∈ bytes, isSpace b = true := by
  intro b hb
  rcases h b hb with rfl | rfl <;> rfl

theorem IsOws.ne_colon {bytes : List Byte} (h : IsOws bytes) : ∀ b ∈ bytes, b ≠ colon := by
  intro b hb
  rcases h b hb with rfl | rfl <;> decide

/-! ## Where the search ends -/

namespace Field

/-- A `Host` field is found at its own start exactly when it is spelled `Host` and a space
follows the colon. -/
theorem hostText_prefix_iff {f : Field} (hf : f.IsHost) (rest : List Byte) :
    hostText <+: f.line ++ rest ↔
      f.name = [0x48, 0x6F, 0x73, 0x74] ∧ f.text.head? = some space := by
  have hlength : f.name.length = 4 := by
    have := congrArg List.length hf
    rwa [List.length_map] at this
  obtain ⟨a, b, c, d, hname⟩ : ∃ a b c d, f.name = [a, b, c, d] := by
    match hn : f.name, hlength with
    | [a, b, c, d], _ => exact ⟨a, b, c, d, rfl⟩
  have hline : f.line ++ rest = a :: b :: c :: d :: colon :: (f.text ++ (crlf ++ rest)) := by
    rw [line, hname]
    simp
  rw [hline, hname]
  unfold hostText
  simp only [List.cons_prefix_cons, List.cons.injEq, and_true]
  constructor
  · rintro ⟨rfl, rfl, rfl, rfl, -, hspace⟩
    refine ⟨⟨rfl, rfl, rfl, rfl⟩, ?_⟩
    cases htext : f.text with
    | nil =>
        rw [htext] at hspace
        exact absurd (List.cons_prefix_cons.mp hspace).1 (by decide)
    | cons x t =>
        rw [htext] at hspace
        rw [List.head?_cons, ← (List.cons_prefix_cons.mp hspace).1]
        rfl
  · rintro ⟨⟨rfl, rfl, rfl, rfl⟩, hspace⟩
    obtain ⟨t, htext⟩ := List.head?_eq_some_iff.mp hspace
    refine ⟨rfl, rfl, rfl, rfl, rfl, ?_⟩
    rw [htext]
    exact List.cons_prefix_cons.mpr ⟨rfl, List.nil_prefix⟩

end Field

namespace RequestHead

/-- A line end stands before the `Host` field. -/
theorem start_eq (head : RequestHead) : ∃ init, head.start = init ++ [0x0A] := by
  have hlines : ∀ fs : List Field,
      ∀ l : List Byte, ∃ init, l ++ (crlf ++ fs.flatMap Field.line) = init ++ [0x0A] := by
    intro fs
    induction fs with
    | nil => exact fun l => ⟨l ++ [0x0D], by simp [crlf]⟩
    | cons f fs ih =>
        intro l
        obtain ⟨init, hinit⟩ := ih (l ++ (crlf ++ (f.name ++ ([colon] ++ f.text))))
        refine ⟨init, ?_⟩
        rw [← hinit]
        simp [Field.line]
  exact hlines head.before head.requestLine

/-- The text is found at the `Host` field exactly when it stands there and nowhere before. -/
theorem find_eq_start_iff (head : RequestHead) (rest : List Byte) :
    find hostText (head.bytes ++ rest) = some head.start.length ↔
      hostText <+: head.hostField.line ++ (head.after.flatMap Field.line ++ (crlf ++ rest)) ∧
        ¬ hostText <:+: head.start := by
  have hne : hostText ≠ [] := List.cons_ne_nil _ _
  have hbytes : head.bytes ++ rest = head.start ++
      (head.hostField.line ++ (head.after.flatMap Field.line ++ (crlf ++ rest))) := by
    simp [bytes]
  rw [hbytes, find_eq_some_iff hne, List.drop_left]
  refine and_congr_right fun _ => ?_
  rw [← exists_prefix_drop_iff]
  constructor
  · rintro hnone ⟨i, hi⟩
    have hroom := length_of_prefix_drop hne hi
    have hlt : i < head.start.length := by
      have : hostText.length = 6 := rfl
      omega
    exact hnone i hlt ((prefix_drop_append hroom).mpr hi)
  · intro hnone j hj hocc
    obtain ⟨init, hinit⟩ := head.start_eq
    rw [hinit, List.length_append, List.length_singleton] at hj
    rw [hinit] at hocc
    have hin := prefix_drop_of_notMem (by decide) (Nat.le_of_lt_succ hj) hocc
    refine hnone ⟨j, ?_⟩
    rw [hinit, List.drop_append_of_le_length (Nat.le_of_lt_succ hj)]
    exact hin.trans (List.prefix_append _ _)

/-- No line end inside the value. -/
theorem text_noReturn {head : RequestHead} (hwf : head.WellFormed) :
    ∀ b ∈ head.hostField.text, b ≠ 0x0D := by
  have hows : ∀ bytes, IsOws bytes → ∀ b ∈ bytes, b ≠ 0x0D := by
    intro bytes hbytes b hb
    rcases hbytes b hb with rfl | rfl <;> decide
  intro b hb
  rcases List.mem_append.mp hb with hb | hb
  · exact hows _ hwf.hostField.1.before b hb
  · rcases List.mem_append.mp hb with hb | hb
    · exact (hwf.hostField.1.value b hb).1
    · exact hows _ hwf.hostField.1.after b hb

/-- What the branch makes of the `Host` field, if that is what it finds. -/
theorem hostDomain_of_find {head : RequestHead} (hwf : head.WellFormed) {rest : List Byte}
    (hfind : find hostText (head.bytes ++ rest) = some head.start.length)
    (hname : head.hostField.name = [0x48, 0x6F, 0x73, 0x74])
    (hspace : head.hostField.text.head? = some space) :
    hostDomain (head.bytes ++ rest) = trim (withoutPort head.hostField.text) := by
  obtain ⟨t, ht⟩ := List.head?_eq_some_iff.mp hspace
  have hreturn := text_noReturn hwf
  have hbytes : head.bytes ++ rest = head.start ++
      (hostText ++ (t ++ (crlf ++ (head.after.flatMap Field.line ++ (crlf ++ rest))))) := by
    simp [bytes, Field.line, hname, ht, hostText, colon, space]
  have hnotMem : (0x0D : Byte) ∉ hostText ++ t := by
    intro hmem
    rcases List.mem_append.mp hmem with h | h
    · exact absurd h (by decide)
    · exact hreturn _ (ht ▸ List.mem_cons_of_mem _ h) rfl
  have hend : find crlf ((head.bytes ++ rest).drop head.start.length) = some (6 + t.length) := by
    rw [hbytes, List.drop_left, ← List.append_assoc]
    have h : find crlf
        (hostText ++ t ++ (crlf ++ (head.after.flatMap Field.line ++ (crlf ++ rest)))) =
          some (hostText ++ t).length := find_of_notMem hnotMem _
    rw [List.length_append] at h
    exact h
  have hvalue : ((head.bytes ++ rest).drop (head.start.length + 6)).take t.length = t := by
    rw [hbytes, ← List.drop_drop, List.drop_left, show 6 = hostText.length from rfl,
      List.drop_left, List.take_left]
  have hskip : head.start.length + (6 + t.length) - (head.start.length + 6) = t.length := by omega
  have htrim : trim (withoutPort (space :: t)) = trim (withoutPort t) := by
    rw [withoutPort_eq, withoutPort_eq, List.takeWhile_cons, if_pos (by decide), trim,
      List.dropWhile_cons, if_pos (by decide), trim]
  unfold hostDomain
  rw [hfind]
  dsimp only
  rw [hend, Option.map_some]
  dsimp only
  rw [hskip, hvalue, ht, htrim]

/-- The cut and the trimming leave the host, unless it has a colon of its own. -/
theorem trim_text_eq_iff {head : RequestHead} (hwf : head.WellFormed) :
    trim (withoutPort head.hostField.text) = head.host ↔ colon ∉ head.host := by
  constructor
  · intro h
    rw [← h]
    exact not_mem_withoutPort _
  · intro hcolon
    have hfront : ∀ b ∈ head.hostField.before ++ head.host, decide (b ≠ colon) = true := by
      intro b hb
      rcases List.mem_append.mp hb with hb | hb
      · exact decide_eq_true (hwf.hostField.1.before.ne_colon b hb)
      · exact decide_eq_true fun heq => hcolon (heq ▸ hb)
    have htext : head.hostField.text =
        head.hostField.before ++ head.host ++ (head.port ++ head.hostField.after) := by
      simp [Field.text, hwf.value]
    obtain ⟨w, hw, hcut⟩ : ∃ w, (∀ b ∈ w, isSpace b = true) ∧
        (head.port ++ head.hostField.after).takeWhile (· ≠ colon) = w := by
      refine ⟨_, fun b hb => ?_, rfl⟩
      rcases hwf.port with hport | ⟨digits, hport, -⟩
      · rw [hport, List.nil_append] at hb
        exact hwf.hostField.1.after.isSpace b ((List.takeWhile_prefix _).subset hb)
      · rw [hport, List.cons_append, List.takeWhile_cons, if_neg (by simp)] at hb
        exact absurd hb List.not_mem_nil
    rw [withoutPort_eq, htext, List.takeWhile_append_of_pos hfront, hcut, List.append_assoc]
    exact trim_eq hwf.hostField.1.before.isSpace hwf.host hw

end RequestHead

/-- **The host of a request.** The branch finds the `Host` field and takes its host exactly
when the field is spelled `Host` with a space after the colon, the same text does not stand
anywhere before it, and the host is no literal with colons. -/
theorem hostDomain_exact_iff {head : RequestHead} (hwf : head.WellFormed) (rest : List Byte) :
    (find hostText (head.bytes ++ rest) = some head.start.length ∧
      hostDomain (head.bytes ++ rest) = head.host) ↔
    (head.hostField.name = [0x48, 0x6F, 0x73, 0x74] ∧ head.hostField.text.head? = some space) ∧
      ¬ hostText <:+: head.start ∧ colon ∉ head.host := by
  have hspelled := Field.hostText_prefix_iff hwf.hostField.2
    (head.after.flatMap Field.line ++ (crlf ++ rest))
  rw [head.find_eq_start_iff, hspelled]
  constructor
  · rintro ⟨⟨⟨hname, hspace⟩, hnone⟩, hdomain⟩
    have hfind := (head.find_eq_start_iff rest).mpr ⟨hspelled.mpr ⟨hname, hspace⟩, hnone⟩
    rw [RequestHead.hostDomain_of_find hwf hfind hname hspace] at hdomain
    exact ⟨⟨hname, hspace⟩, hnone, (RequestHead.trim_text_eq_iff hwf).mp hdomain⟩
  · rintro ⟨⟨hname, hspace⟩, hnone, hcolon⟩
    have hfind := (head.find_eq_start_iff rest).mpr ⟨hspelled.mpr ⟨hname, hspace⟩, hnone⟩
    refine ⟨⟨⟨hname, hspace⟩, hnone⟩, ?_⟩
    rw [RequestHead.hostDomain_of_find hwf hfind hname hspace]
    exact (RequestHead.trim_text_eq_iff hwf).mpr hcolon

theorem forall_mem_of_all {p : Byte → Prop} [DecidablePred p] {l : List Byte}
    (h : l.all (fun b => decide (p b)) = true) : ∀ b ∈ l, p b :=
  fun b hb => of_decide_eq_true (List.all_eq_true.mp h b hb)

/-- `GET /` of `a.b:80`, with the text once more in a later field. -/
theorem hostDomain_exact_iff_example :
    hostDomain (bytesOf "GET / HTTP/1.1\r\nHost: a.b:80\r\nX: Host: c\r\n\r\n") =
      bytesOf "a.b" := by
  let other : Field := ⟨bytesOf "X", bytesOf " ", bytesOf "Host: c", []⟩
  let head : RequestHead :=
    { requestLine := bytesOf "GET / HTTP/1.1"
      before := []
      hostField := ⟨bytesOf "Host", bytesOf " ", bytesOf "a.b:80", []⟩
      host := bytesOf "a.b"
      port := bytesOf ":80"
      after := [other] }
  have hother : other.WellFormed ∧ ¬ other.IsHost :=
    ⟨⟨forall_mem_of_all (by decide), forall_mem_of_all (by decide), forall_mem_of_all (by decide),
      forall_mem_of_all (by decide)⟩, by unfold Field.IsHost; decide⟩
  have hwf : head.WellFormed :=
    { requestLine := forall_mem_of_all (by decide)
      before := fun f hf => absurd hf List.not_mem_nil
      hostField := ⟨⟨forall_mem_of_all (by decide), forall_mem_of_all (by decide),
        forall_mem_of_all (by decide), forall_mem_of_all (by decide)⟩,
        by unfold Field.IsHost; decide⟩
      after := fun f hf => List.mem_singleton.mp hf ▸ hother
      value := by decide
      host := forall_mem_of_all (by decide)
      literal := fun h => absurd h (by decide)
      port := Or.inr ⟨bytesOf "80", by decide, forall_mem_of_all (by decide)⟩ }
  exact ((hostDomain_exact_iff hwf []).mpr ⟨⟨by decide, by decide⟩, by decide, by decide⟩).2

/-- A field in front whose name ends in `Host` sends the connection to its own value. -/
theorem hostDomain_misled : ¬ ∀ (head : RequestHead) (rest : List Byte), head.WellFormed →
    find hostText (head.bytes ++ rest) = some head.start.length ∧
      hostDomain (head.bytes ++ rest) = head.host := by
  intro hall
  let other : Field := ⟨bytesOf "X-Forwarded-Host", bytesOf " ", bytesOf "b", []⟩
  let head : RequestHead :=
    { requestLine := bytesOf "GET / HTTP/1.1"
      before := [other]
      hostField := ⟨bytesOf "Host", bytesOf " ", bytesOf "a", []⟩
      host := bytesOf "a"
      port := []
      after := [] }
  have hother : other.WellFormed ∧ ¬ other.IsHost :=
    ⟨⟨forall_mem_of_all (by decide), forall_mem_of_all (by decide), forall_mem_of_all (by decide),
      forall_mem_of_all (by decide)⟩, by unfold Field.IsHost; decide⟩
  have hwf : head.WellFormed :=
    { requestLine := forall_mem_of_all (by decide)
      before := fun f hf => List.mem_singleton.mp hf ▸ hother
      hostField := ⟨⟨forall_mem_of_all (by decide), forall_mem_of_all (by decide),
        forall_mem_of_all (by decide), forall_mem_of_all (by decide)⟩,
        by unfold Field.IsHost; decide⟩
      after := fun f hf => absurd hf List.not_mem_nil
      value := by decide
      host := forall_mem_of_all (by decide)
      literal := fun h => absurd h (by decide)
      port := Or.inl rfl }
  have hdomain := (hall head [] hwf).2
  rw [List.append_nil] at hdomain
  exact absurd hdomain (by decide)

end Cfrp.Vhost

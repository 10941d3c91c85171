import Cfrp.Lib.Transition
import Cfrp.Vhost.Sni
import Cfrp.Vhost.Host
import Cfrp.Server.Traffic

/-!
# One read of a vhost connection

`DoVhostAccept` reads once, looks for a domain in what it got and dispatches the connection
by it. Bytes that arrive later are not looked at. So the route of a connection depends on how
much of the stream the first read delivers: `needed` is how much of it the parser has to see
to find the name. With less it finds none, and the route of the empty name is taken.
-/

namespace Cfrp

open Lib Protocol

namespace Vhost

/-- The domain the read handler finds. -/
def domainOf (type : String) (data : List Byte) : String :=
  if type = "http" then stringOf (hostDomain data)
  else if type = "https" then stringOf ((sniDomain data).getD [])
  else ""

/-- The size of the buffer. -/
def bufferSize : Nat := 4096

/-- A stream as it is delivered by reads into the buffer. -/
def IsCut (stream : List Byte) (reads : List (List Byte)) : Prop :=
  reads.flatten = stream ∧ ∀ read ∈ reads, 0 < read.length ∧ read.length ≤ bufferSize

end Vhost

namespace Server

open Vhost

/-- Where a connection for a domain goes, if the route's session still locks. -/
def vhostTarget (s : Server) (locked : CtrlId → Bool) (domain : String) : Option VhostRoute :=
  (s.vhostRoutes.lookup domain).filter fun route => locked route.session

/-- Where a connection goes whose bytes are delivered by these reads. -/
def vhostDispatch (s : Server) (locked : CtrlId → Bool) (type : String) :
    List (List Byte) → Option VhostRoute
  | [] => none
  | first :: _ => s.vhostTarget locked (domainOf type first)

end Server

namespace Vhost

/-! ## How much of the stream the parsers need -/

/-- What a parser finds in the first `n` bytes, if it needs `k` bytes to find a name. -/
def upTo (n : Nat) : Option (Nat × List Byte) → List Byte
  | some (k, name) => if k ≤ n then name else []
  | none => []

/-- The end of the line with the first `Host: ` in it, and the domain of that line. -/
def hostNeeds (stream : List Byte) : Option (Nat × List Byte) :=
  (find hostText stream).bind fun pos =>
    (find crlf (stream.drop pos)).map fun length =>
      (pos + length + 2, trim (withoutPort ((stream.drop (pos + 6)).take (length - 6))))

/-- The line end comes after the text. -/
theorem le_of_find_crlf {stream : List Byte} {pos length : Nat}
    (hpos : find hostText stream = some pos) (hend : find crlf (stream.drop pos) = some length) :
    6 ≤ length := by
  obtain ⟨rest, hrest⟩ := ((find_eq_some_iff (List.cons_ne_nil _ _)).mp hpos).1
  rw [← hrest, crlf, find_append_of_notMem (by decide), Option.map_eq_some_iff] at hend
  obtain ⟨i, -, rfl⟩ := hend
  exact Nat.le_add_right 6 i

/-- **The `http` branch** finds the domain of the stream, or none. -/
theorem hostDomain_take (stream : List Byte) (n : Nat) :
    hostDomain (stream.take n) = upTo n (hostNeeds stream) := by
  have htextNe : hostText ≠ [] := List.cons_ne_nil _ _
  have hcrlfNe : crlf ≠ [] := List.cons_ne_nil _ _
  have htextLength : hostText.length = 6 := rfl
  have hcrlfLength : crlf.length = 2 := rfl
  unfold hostDomain hostNeeds
  rw [find_take htextNe]
  cases hpos : find hostText stream with
  | none => rfl
  | some pos =>
      rw [Option.filter_some, Option.bind_some]
      by_cases htext : pos + hostText.length ≤ n
      · rw [if_pos (decide_eq_true htext)]
        dsimp only
        rw [List.drop_take, find_take hcrlfNe]
        cases hend : find crlf (stream.drop pos) with
        | none => rfl
        | some length =>
            have hlate := le_of_find_crlf hpos hend
            rw [Option.filter_some, Option.map_some, upTo]
            by_cases hline : length + crlf.length ≤ n - pos
            · rw [if_pos (decide_eq_true hline), if_pos (by omega), Option.map_some]
              dsimp only
              have hskip : pos + length - (pos + 6) = length - 6 := by omega
              have hinside : min (length - 6) (n - (pos + 6)) = length - 6 := by omega
              rw [hskip, List.drop_take, List.take_take, hinside]
            · rw [if_neg (by simpa using hline), if_neg (by omega)]
              rfl
      · rw [if_neg (by simpa using htext)]
        cases hend : find crlf (stream.drop pos) with
        | none => rfl
        | some length =>
            have hlate := le_of_find_crlf hpos hend
            rw [Option.map_some, upTo, if_neg (by omega)]

/-- The host name, and the position after it. -/
def nameNeeds (stream : List Byte) (pos : Nat) : Option (Nat × List Byte) := do
  if (← byteAt stream (pos + 2)) = 0x00 then do
    let nameLen ← wordAt stream (pos + 2 + 1)
    let name ← bytesAt stream (pos + 2 + 3) nameLen
    return (pos + 2 + 3 + nameLen, name)
  else none

def extensionNeeds (stream : List Byte) (endExt : Nat) : Nat → Nat → Option (Nat × List Byte)
  | 0, _ => none
  | turns + 1, pos =>
      if pos + 4 ≤ endExt then do
        let etype ← wordAt stream pos
        let elen ← wordAt stream (pos + 2)
        if etype = 0x0000 then nameNeeds stream (pos + 4)
        else extensionNeeds stream endExt turns (pos + 4 + elen)
      else none

def helloNeeds (stream : List Byte) (pos : Nat) : Option (Nat × List Byte) := do
  let sessIdLen ← byteAt stream pos
  let pos := pos + (1 + sessIdLen)
  let cipherLen ← wordAt stream pos
  let pos := pos + (2 + cipherLen)
  let compLen ← byteAt stream pos
  let pos := pos + (1 + compLen)
  let extLen ← wordAt stream pos
  let pos := pos + 2
  extensionNeeds stream (pos + extLen) stream.length pos

/-- The end of the first record or of the host name, whichever is later, and the host name.
This is the parser without its tests, reading the whole stream. -/
def sniNeeds (stream : List Byte) : Option (Nat × List Byte) := do
  if (← byteAt stream 0) = 0x16 then do
    let len ← wordAt stream 3
    if (← byteAt stream 5) = 0x01 then do
      let (k, name) ← helloNeeds stream (5 + 4 + 2 + 32)
      return (max (len + 5) k, name)
    else none
  else none

/-- What the parser of a type needs of a stream: the number of bytes, and the name. -/
def needed (type : String) (stream : List Byte) : Option (Nat × List Byte) :=
  if type = "http" then hostNeeds stream
  else if type = "https" then sniNeeds stream
  else none

/-! ## The parser and its tests -/

/-- The parser finds what the reads without tests find, up to the `n` bytes it has. -/
def Agrees (n : Nat) (parser : Option (List Byte)) (reads : Option (Nat × List Byte)) : Prop :=
  parser = some (upTo n reads)

/-- What is found ends at `pos` or later. -/
def Later (pos : Nat) (reads : Option (Nat × List Byte)) : Prop :=
  ∀ r, reads = some r → pos ≤ r.1

theorem Later.mono {pos pos' : Nat} {reads : Option (Nat × List Byte)} (h : Later pos reads)
    (hle : pos' ≤ pos) : Later pos' reads :=
  fun r hr => Nat.le_trans hle (h r hr)

theorem Later.none (pos : Nat) : Later pos none := fun _ hr => absurd hr (by simp)

theorem Later.bind {α : Type} {pos : Nat} {x : Option α} {f : α → Option (Nat × List Byte)}
    (h : ∀ a, Later pos (f a)) : Later pos (x >>= f) := by
  intro r hr
  obtain ⟨a, -, ha⟩ := Option.bind_eq_some_iff.mp hr
  exact h a r ha

theorem Later.ite {c : Prop} [Decidable c] {pos : Nat} {reads : Option (Nat × List Byte)}
    (h : Later pos reads) : Later pos (if c then reads else Option.none) := by
  split
  · exact h
  · exact Later.none pos

/-- The same read on both sides. -/
theorem Agrees.bind {α : Type} {n : Nat} {x y : Option α} {f : α → Option (List Byte)}
    {g : α → Option (Nat × List Byte)} (hxy : x = y) (hx : ∃ a, x = some a)
    (h : ∀ a, Agrees n (f a) (g a)) : Agrees n (x >>= f) (y >>= g) := by
  obtain ⟨a, ha⟩ := hx
  rw [← hxy, ha]
  exact h a

/-- The same test on both sides. -/
theorem Agrees.ite {c : Prop} [Decidable c] {n : Nat} {p : Option (List Byte)}
    {w : Option (Nat × List Byte)} (h : Agrees n p w) :
    Agrees n (if c then p else some []) (if c then w else none) := by
  split
  · exact h
  · rfl

/-- A test of the parser that fails only where the reads run past its bytes. -/
theorem Agrees.check {c : Prop} [Decidable c] {n k : Nat} {p : Option (List Byte)}
    {w : Option (Nat × List Byte)} (hyes : c → Agrees n p w) (hlater : Later k w)
    (hno : ¬ c → n < k) : Agrees n (if c then p else some []) w := by
  split
  · rename_i hc
    exact hyes hc
  · rename_i hc
    cases hw : w with
    | none => rfl
    | some r =>
        have := hlater r hw
        have := hno hc
        show some [] = some (if r.1 ≤ n then r.2 else [])
        rw [if_neg (by omega)]

theorem byteAt_take {stream : List Byte} {n i : Nat} (h : i < n) :
    byteAt (stream.take n) i = byteAt stream i := by
  rw [byteAt, List.getElem?_take_of_lt h, byteAt]

theorem wordAt_take {stream : List Byte} {n i : Nat} (h : i + 2 ≤ n) :
    wordAt (stream.take n) i = wordAt stream i := by
  rw [wordAt, byteAt_take (by omega), byteAt_take (by omega), wordAt]

theorem bytesAt_take {stream : List Byte} {n pos len : Nat} (hn : n ≤ stream.length)
    (h : pos + len ≤ n) : bytesAt (stream.take n) pos len = bytesAt stream pos len := by
  have hinside : min len (n - pos) = len := by omega
  rw [bytesAt, bytesAt, List.length_take, if_pos (by omega), if_pos (by omega), List.drop_take,
    List.take_take, hinside]

variable {stream : List Byte} {n : Nat}

theorem nameNeeds_later (pos : Nat) : Later (pos + 2 + 3) (nameNeeds stream pos) := by
  refine Later.bind fun nameType => Later.ite (Later.bind fun nameLen => Later.bind fun name => ?_)
  intro r hr
  rw [← Option.some.inj hr]
  exact Nat.le_add_right _ _

theorem serverName_agrees (hn : n ≤ stream.length) (pos : Nat) :
    Agrees n (serverName (stream.take n) pos) (nameNeeds stream pos) := by
  have hsize : (stream.take n).length = n := List.length_take_of_le hn
  have hlater : Later (pos + 2 + 3) (nameNeeds stream pos) := nameNeeds_later pos
  unfold serverName
  rw [hsize]
  refine Agrees.check (fun hlist => ?_) hlater (by omega)
  -- the length of the list is read and not used
  obtain ⟨listLen, hlistLen⟩ := wordAt_of_le (hsize ▸ hlist)
  rw [hlistLen]
  refine Agrees.check (fun hentry => ?_) hlater (by omega)
  refine Agrees.bind (byteAt_take (by omega)) (byteAt_of_lt (by omega)) fun nameType => ?_
  refine Agrees.ite
    (Agrees.bind (wordAt_take (by omega)) (wordAt_of_le (by omega)) fun nameLen => ?_)
  refine Agrees.check (k := pos + 2 + 3 + nameLen) (fun hname => ?_) ?_ (by omega)
  · have hread : bytesAt stream (pos + 2 + 3) nameLen =
        some ((stream.drop (pos + 2 + 3)).take nameLen) := if_pos (by omega)
    rw [bytesAt_take hn hname, hread]
    exact congrArg some (if_pos hname).symm
  · refine Later.bind fun name r hr => ?_
    rw [← Option.some.inj hr]

theorem extensionNeeds_later (endExt : Nat) :
    ∀ turns pos, Later (pos + 4) (extensionNeeds stream endExt turns pos)
  | 0, _ => Later.none _
  | turns + 1, pos => by
      refine Later.ite (Later.bind fun etype => Later.bind fun elen => ?_)
      split
      · exact (nameNeeds_later _).mono (by omega)
      · exact (extensionNeeds_later endExt turns _).mono (by omega)

theorem extensionLoop_agrees (hn : n ≤ stream.length) (endExt : Nat) :
    ∀ turns turns' pos, 0 < turns → n < pos + turns → 0 < turns' → stream.length < pos + turns' →
      Agrees n (extensionLoop (stream.take n) endExt turns pos)
        (extensionNeeds stream endExt turns' pos)
  | 0, _, _, hturns, _, _, _ => absurd hturns (Nat.lt_irrefl 0)
  | _ + 1, 0, _, _, _, hturns, _ => absurd hturns (Nat.lt_irrefl 0)
  | turns + 1, turns' + 1, pos, _, hbound, _, hbound' => by
      have hsize : (stream.take n).length = n := List.length_take_of_le hn
      have hlater : Later (pos + 4) (extensionNeeds stream endExt (turns' + 1) pos) :=
        extensionNeeds_later endExt (turns' + 1) pos
      unfold extensionLoop
      rw [hsize]
      by_cases hend : pos + 4 ≤ endExt
      · refine Agrees.check (fun hroom => ?_) hlater (by omega)
        unfold extensionNeeds
        rw [if_pos hend]
        refine Agrees.bind (wordAt_take (by omega)) (wordAt_of_le (by omega)) fun etype => ?_
        refine Agrees.bind (wordAt_take (by omega)) (wordAt_of_le (by omega)) fun elen => ?_
        dsimp only
        split
        · exact serverName_agrees hn (pos + 4)
        · exact extensionLoop_agrees hn endExt turns turns' _ (by omega) (by omega) (by omega)
            (by omega)
      · unfold extensionNeeds
        rw [if_neg hend, if_neg fun h => hend h.2]
        rfl

theorem helloNeeds_later (pos : Nat) : Later (pos + 1) (helloNeeds stream pos) := by
  refine Later.bind fun _ => Later.bind fun _ => Later.bind fun _ => Later.bind fun _ => ?_
  exact (extensionNeeds_later _ _ _).mono (by omega)

theorem helloName_agrees (hn : n ≤ stream.length) {pos : Nat} (hpos : 0 < pos) :
    Agrees n (helloName (stream.take n) pos) (helloNeeds stream pos) := by
  have hsize : (stream.take n).length = n := List.length_take_of_le hn
  unfold helloName
  rw [hsize]
  refine Agrees.check (fun hid => ?_) (helloNeeds_later pos) (by omega)
  refine Agrees.bind (byteAt_take hid) (byteAt_of_lt (by omega)) fun sessIdLen => ?_
  refine Agrees.check (k := pos + (1 + sessIdLen) + 2) (fun hcipher => ?_) ?_ (by omega)
  · refine Agrees.bind (wordAt_take hcipher) (wordAt_of_le (by omega)) fun cipherLen => ?_
    refine Agrees.check (k := pos + (1 + sessIdLen) + (2 + cipherLen) + 1) (fun hcomp => ?_) ?_
      (by omega)
    · refine Agrees.bind (byteAt_take (by omega)) (byteAt_of_lt (by omega)) fun compLen => ?_
      refine Agrees.check (k := pos + (1 + sessIdLen) + (2 + cipherLen) + (1 + compLen) + 2)
        (fun hext => ?_) ?_ (by omega)
      · refine Agrees.bind (wordAt_take hext) (wordAt_of_le (by omega)) fun extLen => ?_
        exact extensionLoop_agrees hn _ _ _ _ (by omega) (by omega) (by omega) (by omega)
      · exact Later.bind fun _ => (extensionNeeds_later _ _ _).mono (by omega)
    · exact Later.bind fun _ => Later.bind fun _ => (extensionNeeds_later _ _ _).mono (by omega)
  · exact Later.bind fun _ => Later.bind fun _ => Later.bind fun _ =>
      (extensionNeeds_later _ _ _).mono (by omega)

/-- **The `https` branch** finds the name of the stream, or none. -/
theorem sniDomain_take (hn : n ≤ stream.length) :
    Agrees n (sniDomain (stream.take n)) (sniNeeds stream) := by
  have hsize : (stream.take n).length = n := List.length_take_of_le hn
  have hlater : Later 43 (sniNeeds stream) := by
    refine Later.bind fun _ => Later.ite (Later.bind fun len => Later.bind fun _ =>
      Later.ite fun r hr => ?_)
    obtain ⟨⟨k, name⟩, hhello, hr⟩ := Option.bind_eq_some_iff.mp hr
    rw [← Option.some.inj hr]
    have := helloNeeds_later _ _ hhello
    exact Nat.le_trans (by omega) (Nat.le_max_right _ _)
  unfold sniDomain
  rw [hsize]
  refine Agrees.check (fun hfive => ?_) hlater (by omega)
  unfold sniNeeds
  refine Agrees.bind (byteAt_take (by omega)) (byteAt_of_lt (by omega)) fun first => ?_
  refine Agrees.ite (Agrees.bind (wordAt_take (by omega)) (wordAt_of_le (by omega)) fun len => ?_)
  refine Agrees.check (k := len + 5) (fun hrecord => ?_) ?_ (by omega)
  · refine Agrees.bind (byteAt_take (by omega)) (byteAt_of_lt (by omega)) fun kind => Agrees.ite ?_
    have hhello : helloName (stream.take n) 43 = some (upTo n (helloNeeds stream 43)) :=
      helloName_agrees hn (by decide)
    show helloName (stream.take n) 43 = _
    rw [hhello]
    cases helloNeeds stream 43 with
    | none => rfl
    | some r =>
        have hmax : max (len + 5) r.1 ≤ n ↔ r.1 ≤ n :=
          max_le_iff.trans (and_iff_right hrecord)
        show some (if r.1 ≤ n then r.2 else []) = some (if max (len + 5) r.1 ≤ n then r.2 else [])
        rw [if_congr hmax rfl rfl]
  · refine Later.bind fun kind => Later.ite (Later.bind fun hello r hr => ?_)
    rw [← Option.some.inj hr]
    exact Nat.le_max_left _ _

/-- The domain of the first `n` bytes of a stream. -/
theorem domainOf_take (type : String) (hn : n ≤ stream.length) :
    domainOf type (stream.take n) = stringOf (upTo n (needed type stream)) := by
  unfold domainOf needed
  split
  · rw [hostDomain_take]
  · split
    · have hagrees : sniDomain (stream.take n) = some (upTo n (sniNeeds stream)) :=
        sniDomain_take hn
      rw [hagrees, Option.getD_some]
    · rfl

theorem IsCut.first {reads : List (List Byte)} (h : IsCut stream reads) :
    (reads.headD []).length ≤ stream.length ∧
      stream.take (reads.headD []).length = reads.headD [] := by
  obtain ⟨rfl, -⟩ := h
  cases reads with
  | nil => exact ⟨Nat.le_refl _, rfl⟩
  | cons first rest =>
      rw [List.headD_cons, List.flatten_cons]
      refine ⟨?_, List.take_left⟩
      rw [List.length_append]
      exact Nat.le_add_right _ _

/-- An empty stream is delivered by no read. -/
theorem IsCut.eq_nil {reads : List (List Byte)} (h : IsCut [] reads) : reads = [] := by
  cases reads with
  | nil => rfl
  | cons first rest =>
      have hpos := (h.2 first List.mem_cons_self).1
      have hnil := (List.append_eq_nil_iff.mp h.1).1
      rw [hnil] at hpos
      exact absurd hpos (Nat.lt_irrefl 0)

end Vhost

namespace Server

open Vhost

/-- Where the reads of a stream lead: to the name's route if the first read has what the
parser needs, and to the route of the empty name if it does not. -/
theorem vhostDispatch_eq (s : Server) (locked : CtrlId → Bool) (type : String)
    {stream : List Byte} (hne : stream ≠ []) {reads : List (List Byte)}
    (hcut : IsCut stream reads) :
    vhostDispatch s locked type reads =
      s.vhostTarget locked (stringOf (upTo (reads.headD []).length (needed type stream))) := by
  have hfirst := hcut.first
  cases reads with
  | nil => exact absurd hcut.1.symm hne
  | cons first rest =>
      rw [← domainOf_take type hfirst.1, hfirst.2]
      rfl

/-- **Segmentation.** Two ways of cutting a stream lead to the same place exactly when the
first reads of both have what the parser needs of the stream, or those of neither; or if the
name it would find is routed as the empty name is. -/
theorem vhostDispatch_eq_iff (s : Server) (locked : CtrlId → Bool) (type : String)
    {stream : List Byte} {reads₁ reads₂ : List (List Byte)} (hcut₁ : IsCut stream reads₁)
    (hcut₂ : IsCut stream reads₂) :
    vhostDispatch s locked type reads₁ = vhostDispatch s locked type reads₂ ↔
      ∀ k name, needed type stream = some (k, name) →
        (k ≤ (reads₁.headD []).length ↔ k ≤ (reads₂.headD []).length) ∨
          s.vhostTarget locked (stringOf name) = s.vhostTarget locked "" := by
  by_cases hne : stream = []
  · rw [hne] at hcut₁ hcut₂
    rw [hcut₁.eq_nil, hcut₂.eq_nil]
    exact ⟨fun _ _ _ _ => Or.inl Iff.rfl, fun _ => rfl⟩
  · rw [vhostDispatch_eq s locked type hne hcut₁, vhostDispatch_eq s locked type hne hcut₂]
    cases hneeded : needed type stream with
    | none => exact ⟨fun _ _ _ h => absurd h (by simp), fun _ => rfl⟩
    | some r =>
        obtain ⟨k, name⟩ := r
        have hempty : stringOf [] = "" := rfl
        have hone : (∀ k' name', some (k, name) = some (k', name') →
            (k' ≤ (reads₁.headD []).length ↔ k' ≤ (reads₂.headD []).length) ∨
              s.vhostTarget locked (stringOf name') = s.vhostTarget locked "") ↔
            (k ≤ (reads₁.headD []).length ↔ k ≤ (reads₂.headD []).length) ∨
              s.vhostTarget locked (stringOf name) = s.vhostTarget locked "" := by
          constructor
          · exact fun h => h k name rfl
          · intro h k' name' heq
            obtain ⟨rfl, rfl⟩ := Prod.mk.inj (Option.some.inj heq)
            exact h
        rw [hone]
        unfold upTo
        dsimp only
        by_cases h₁ : k ≤ (reads₁.headD []).length
        · by_cases h₂ : k ≤ (reads₂.headD []).length
          · rw [if_pos h₁, if_pos h₂]
            exact ⟨fun _ => Or.inl (iff_of_true h₁ h₂), fun _ => rfl⟩
          · rw [if_pos h₁, if_neg h₂, hempty, or_iff_right fun h => h₂ (h.mp h₁)]
        · by_cases h₂ : k ≤ (reads₂.headD []).length
          · rw [if_neg h₁, if_pos h₂, hempty, or_iff_right fun h => h₁ (h.mpr h₂)]
            exact eq_comm
          · rw [if_neg h₁, if_neg h₂]
            exact ⟨fun _ => Or.inl (iff_of_false h₁ h₂), fun _ => rfl⟩

theorem isCut_of_all {reads : List (List Byte)}
    (h : reads.all (fun read => decide (0 < read.length ∧ read.length ≤ bufferSize)) = true) :
    IsCut reads.flatten reads :=
  ⟨rfl, fun read hread => of_decide_eq_true (List.all_eq_true.mp h read hread)⟩

/-- Two reads, the first of which ends after the line of the field: the connection goes where
it goes when everything comes in one. -/
theorem vhostDispatch_eq_iff_example :
    let s := (init "tok" [] []).addVhostRoute "a" 0 "web" "http"
    vhostDispatch s (fun _ => true) "http"
        [bytesOf "GET / HTTP/1.1\r\nHost: a\r\n", bytesOf "\r\n"] =
      vhostDispatch s (fun _ => true) "http" [bytesOf "GET / HTTP/1.1\r\nHost: a\r\n\r\n"] := by
  intro s
  have hstream : [bytesOf "GET / HTTP/1.1\r\nHost: a\r\n\r\n"].flatten =
      [bytesOf "GET / HTTP/1.1\r\nHost: a\r\n", bytesOf "\r\n"].flatten := by decide
  have hneeded : needed "http" [bytesOf "GET / HTTP/1.1\r\nHost: a\r\n", bytesOf "\r\n"].flatten =
      some (25, bytesOf "a") := by decide
  have hcut : IsCut [bytesOf "GET / HTTP/1.1\r\nHost: a\r\n", bytesOf "\r\n"].flatten
      [bytesOf "GET / HTTP/1.1\r\nHost: a\r\n\r\n"] := hstream ▸ isCut_of_all (by decide)
  refine (vhostDispatch_eq_iff s _ "http" (isCut_of_all (by decide)) hcut).mpr ?_
  intro k name h
  rw [hneeded] at h
  obtain ⟨rfl, rfl⟩ := Prod.mk.inj (Option.some.inj h)
  exact Or.inl (iff_of_true (by decide) (by decide))

/-- Cut inside the line, and the connection that goes to `web` goes nowhere. -/
theorem vhostDispatch_cut : ¬ ∀ (s : Server) (locked : CtrlId → Bool) (type : String)
    (stream : List Byte) (reads₁ reads₂ : List (List Byte)),
    Reach step anyStep (init "tok" [] []) s → IsCut stream reads₁ → IsCut stream reads₂ →
    vhostDispatch s locked type reads₁ = vhostDispatch s locked type reads₂ := by
  intro hall
  obtain ⟨s, hreach, hobs⟩ := exists_of_runAll step
    [.controlStream 1, .message 0 (.login ⟨"tok", "a"⟩) none,
      .message 0 (.registerProxy ⟨"web", "http", 0, ["a"], 0⟩) none]
    (fun s => (s.vhostRoutes.lookup "a", s.vhostRoutes.lookup ""))
    (s := init "tok" [] []) (a := (some ⟨0, "web", "http"⟩, none)) (by decide)
  obtain ⟨hname, hempty⟩ := Prod.mk.inj hobs
  have hstream : [bytesOf "GET / HTTP/1.1\r\nHo", bytesOf "st: a\r\n"].flatten =
      [bytesOf "GET / HTTP/1.1\r\nHost: a\r\n"].flatten := by decide
  have hcut : IsCut [bytesOf "GET / HTTP/1.1\r\nHost: a\r\n"].flatten
      [bytesOf "GET / HTTP/1.1\r\nHo", bytesOf "st: a\r\n"] :=
    hstream ▸ isCut_of_all (by decide)
  have hsame := hall s (fun _ => true) "http" _ _ _ hreach (isCut_of_all (by decide)) hcut
  have hwhole : domainOf "http" (bytesOf "GET / HTTP/1.1\r\nHost: a\r\n") = "a" := by decide
  have hpart : domainOf "http" (bytesOf "GET / HTTP/1.1\r\nHo") = "" := by decide
  unfold vhostDispatch vhostTarget at hsame
  dsimp only at hsame
  rw [hwhole, hpart, hname, hempty] at hsame
  exact absurd hsame (by decide)

end Server

end Cfrp

import Cfrp.Lib.Transition
import Cfrp.Mux.StreamSpec

/-!
# What a read is promised

A full read is promised all of its buffer, a partial one at least a byte, and at the end
of the stream an error. The loop that serves the reads looks only at the blocks that have
arrived, the offset in the front one, the pending reads and whether the stream has ended:
`ReadBuffer` is that part of a stream. A read that is reached with something but too
little left breaks the promise; `noShortRead` says that there is none.
-/

namespace Cfrp.Mux

open Lib MuxStream

/-! ## The blocks that are left -/

/-- The blocks of a read queue without what has been read of the front one. -/
def unreadBlocks : List (List Byte) → Nat → List (List Byte)
  | [], _ => []
  | block :: q, offset => block.drop offset :: q

/-- The blocks behind the next `n` bytes. A block is behind them only if it is not used up. -/
def skipBytes : List (List Byte) → Nat → List (List Byte)
  | [], _ => []
  | block :: blocks, n =>
      if n = 0 then block :: blocks
      else if block.length ≤ n then skipBytes blocks (n - block.length)
      else block.drop n :: blocks

theorem flatten_unreadBlocks {q : List (List Byte)} {offset : Nat} (h : WithinFront q offset) :
    (unreadBlocks q offset).flatten = q.flatten.drop offset := by
  cases q with
  | nil => simp [unreadBlocks]
  | cons block q =>
      have hle : offset ≤ block.length := h
      rw [unreadBlocks, List.flatten_cons, List.flatten_cons, List.drop_append_of_le_length hle]

theorem withinFront_le {q : List (List Byte)} {offset : Nat} (h : WithinFront q offset) :
    offset ≤ q.flatten.length := by
  cases q with
  | nil => exact Nat.le_of_eq h
  | cons block q =>
      have hle : offset ≤ block.length := h
      rw [List.flatten_cons, List.length_append]
      omega

theorem drop_flatten_concat {q : List (List Byte)} {offset : Nat} (h : WithinFront q offset)
    (block : List Byte) :
    (q ++ [block]).flatten.drop offset = q.flatten.drop offset ++ block := by
  rw [List.flatten_append, List.flatten_singleton,
    List.drop_append_of_le_length (withinFront_le h)]

theorem unreadBlocks_zero (q : List (List Byte)) : unreadBlocks q 0 = q := by
  cases q <;> rfl

theorem copyOut_blocks (q : List (List Byte)) (offset n : Nat) (h : WithinFront q offset) :
    unreadBlocks (copyOut q offset n).2.1 (copyOut q offset n).2.2 =
      skipBytes (unreadBlocks q offset) n := by
  induction q generalizing offset n with
  | nil => rfl
  | cons block q ih =>
      have hle : offset ≤ block.length := h
      have hsub : sizeSub block.length offset = block.length - offset := if_pos hle
      have hlen : (block.drop offset).length = block.length - offset := List.length_drop
      rw [copyOut, unreadBlocks, skipBytes]
      by_cases hn : n = 0
      · rw [if_pos hn, if_pos hn]
        rfl
      rw [if_neg hn, if_neg hn, hsub, hlen]
      by_cases hall : block.length - offset ≤ n
      · -- the block is used up
        have hmin : min n (block.length - offset) = block.length - offset := by omega
        have hend : offset + (block.length - offset) = block.length := by omega
        simp only [hmin, if_pos hend, if_pos hall]
        rw [ih 0 _ (withinFront_zero q), unreadBlocks_zero]
      · have hmin : min n (block.length - offset) = n := by omega
        have hend : ¬offset + n = block.length := by omega
        simp only [hmin, if_neg hend, if_neg hall, unreadBlocks]
        rw [List.drop_drop]

/-! ## Serving the reads -/

/-- What serving the reads of a stream looks at. -/
structure ReadBuffer where
  queue : List (List Byte)
  offset : Nat
  reads : List PendingRead
  ended : Bool

/-- A read that completes keeps what it was asked for. -/
structure Answers (pr : PendingRead) (c : Completion) : Prop where
  handler : c.handler = pr.handler
  full : c.ec = .success → pr.readAll = true → c.count = pr.size ∧ c.bytes.length = pr.size
  some : c.ec = .success → pr.readAll = false → 0 < pr.size → 0 < c.count

/-- Some reads and their completions. -/
structure AnsweredBy (taken : List PendingRead) (cs : List Completion) : Prop where
  each : ∀ pr ∈ taken, ∃ c ∈ cs, Answers pr c
  only : ∀ c ∈ cs, ∃ pr ∈ taken, Answers pr c

theorem answeredBy_nil : AnsweredBy [] [] :=
  ⟨fun _ h => (List.not_mem_nil h).elim, fun _ h => (List.not_mem_nil h).elim⟩

theorem Answers.single {pr : PendingRead} {c : Completion} (h : Answers pr c) :
    AnsweredBy [pr] [c] where
  each _ hp := ⟨c, List.mem_cons_self, List.mem_singleton.mp hp ▸ h⟩
  only _ hd := ⟨pr, List.mem_cons_self, List.mem_singleton.mp hd ▸ h⟩

theorem AnsweredBy.append {taken taken' : List PendingRead} {cs cs' : List Completion}
    (h : AnsweredBy taken cs) (h' : AnsweredBy taken' cs') :
    AnsweredBy (taken ++ taken') (cs ++ cs') where
  each pr hpr := by
    rcases List.mem_append.mp hpr with hpr | hpr
    · obtain ⟨c, hc, ha⟩ := h.each pr hpr
      exact ⟨c, List.mem_append_left _ hc, ha⟩
    · obtain ⟨c, hc, ha⟩ := h'.each pr hpr
      exact ⟨c, List.mem_append_right _ hc, ha⟩
  only c hc := by
    rcases List.mem_append.mp hc with hc | hc
    · obtain ⟨pr, hpr, ha⟩ := h.only c hc
      exact ⟨pr, List.mem_append_left _ hpr, ha⟩
    · obtain ⟨pr, hpr, ha⟩ := h'.only c hc
      exact ⟨pr, List.mem_append_right _ hpr, ha⟩

/-- No read is reached with something but too little left: a full read with fewer bytes than
it asks for at the end of the stream, or any read with nothing but empty blocks. -/
def noShortRead (ended : Bool) : List (List Byte) → List PendingRead → Bool
  | _, [] => true
  | blocks, pr :: reads =>
      let left := blocks.flatten.length
      if blocks.isEmpty then true
      else if pr.readAll && decide (left < pr.size) && !ended then true
      else
        (if pr.readAll then decide (pr.size ≤ left) else decide (pr.size = 0 ∨ 0 < left)) &&
          noShortRead ended (skipBytes blocks pr.size) reads

namespace ReadBuffer

/-- The body of the loop that serves the reads. -/
def turn (b : ReadBuffer) : Option (ReadBuffer × List Completion) :=
  match b.reads with
  | [] => none
  | pr :: reads =>
      if b.queue.isEmpty then
        if b.ended then some ({ b with reads }, [{ handler := pr.handler, ec := .eof }]) else none
      else if pr.readAll && decide (sizeSub (totalLength b.queue) b.offset < pr.size)
        && !b.ended then
        none
      else
        let r := copyOut b.queue b.offset pr.size
        some ({ b with queue := r.2.1, offset := r.2.2, reads },
          [{ handler := pr.handler, count := r.1.2, bytes := r.1.1 }])

def unread (b : ReadBuffer) : List Byte := b.queue.flatten.drop b.offset

def fine (b : ReadBuffer) : Bool := noShortRead b.ended (unreadBlocks b.queue b.offset) b.reads

/-- What happened between two states of a buffer. -/
structure Served (b : ReadBuffer) (cs : List Completion) (b' : ReadBuffer) : Prop where
  ended : b'.ended = b.ended
  within : WithinFront b'.queue b'.offset
  bytes : b.unread = delivered cs ++ b'.unread
  answers : ∃ taken, b.reads = taken ++ b'.reads ∧ AnsweredBy taken cs

theorem Served.refl {b : ReadBuffer} (h : WithinFront b.queue b.offset) : Served b [] b where
  ended := rfl
  within := h
  bytes := rfl
  answers := ⟨[], rfl, answeredBy_nil⟩

theorem Served.trans {b b' b'' : ReadBuffer} {cs cs' : List Completion} (h : Served b cs b')
    (h' : Served b' cs' b'') : Served b (cs ++ cs') b'' where
  ended := h'.ended.trans h.ended
  within := h'.within
  bytes := by rw [h.bytes, h'.bytes, delivered_append, List.append_assoc]
  answers := by
    obtain ⟨taken, heq, hall⟩ := h.answers
    obtain ⟨taken', heq', hall'⟩ := h'.answers
    exact ⟨taken ++ taken', by rw [heq, heq', List.append_assoc], hall.append hall'⟩

/-- One turn. -/
theorem served_turn {b b' : ReadBuffer} {cs : List Completion}
    (hwithin : WithinFront b.queue b.offset) (hfine : b.fine = true)
    (h : b.turn = some (b', cs)) : Served b cs b' ∧ b'.fine = true := by
  unfold turn at h
  unfold fine at hfine ⊢
  split at h
  · cases h
  · rename_i pr reads hreads
    rw [hreads, noShortRead] at hfine
    split at h
    · rename_i hempty
      split at h
      · cases h
        -- nothing is queued and the stream has ended: an empty answer
        have hnil : b.queue = [] := List.isEmpty_iff.mp hempty
        refine ⟨⟨rfl, hwithin, rfl, [pr], hreads, ?_⟩, ?_⟩
        · exact Answers.single ⟨rfl, fun hec => (by cases hec), fun hec => (by cases hec)⟩
        · show noShortRead b.ended (unreadBlocks b.queue b.offset) reads = true
          rw [hnil]
          cases reads <;> rfl
      · cases h
    · rename_i hqueue
      -- there is something to copy
      have hflat : (unreadBlocks b.queue b.offset).flatten = b.unread :=
        flatten_unreadBlocks hwithin
      have hblocks : (unreadBlocks b.queue b.offset).isEmpty = false := by
        cases hq : b.queue with
        | nil =>
            rw [hq] at hqueue
            exact absurd rfl hqueue
        | cons block q => rfl
      have havailable : sizeSub (totalLength b.queue) b.offset = b.unread.length := by
        have hle : b.offset ≤ b.queue.flatten.length := withinFront_le hwithin
        rw [sizeSub, totalLength_eq, if_pos hle, unread, List.length_drop]
      rw [hblocks, if_neg Bool.false_ne_true, hflat] at hfine
      split at h
      · cases h
      · rename_i hgoes
        cases h
        rw [havailable] at hgoes
        rw [if_neg hgoes, Bool.and_eq_true] at hfine
        obtain ⟨hbytes, hcount, hrest, hwithin'⟩ :=
          copyOut_bytes b.queue b.offset pr.size hwithin
        have hlen : (b.unread.take pr.size).length = min pr.size b.unread.length :=
          List.length_take
        refine ⟨⟨rfl, hwithin', ?_, [pr], hreads, ?_⟩, ?_⟩
        · show b.unread = (copyOut b.queue b.offset pr.size).1.1 ++ [] ++ _
          rw [List.append_nil, hbytes]
          show b.unread = b.unread.take pr.size ++ List.drop _ _
          rw [hrest]
          exact (List.take_append_drop _ _).symm
        · -- a full read gets all it asks for, another one at least a byte
          refine Answers.single ⟨rfl, fun _ hall => ?_, fun _ hsome hpos => ?_⟩
          · rw [if_pos hall, decide_eq_true_eq] at hfine
            have hle : pr.size ≤ b.unread.length := hfine.1
            refine ⟨?_, ?_⟩
            · show (copyOut b.queue b.offset pr.size).1.2 = pr.size
              rw [hcount]
              show (b.unread.take pr.size).length = pr.size
              omega
            · show (copyOut b.queue b.offset pr.size).1.1.length = pr.size
              rw [hbytes]
              show (b.unread.take pr.size).length = pr.size
              omega
          · rw [if_neg (by rw [hsome]; exact Bool.false_ne_true), decide_eq_true_eq] at hfine
            have hleft : pr.size = 0 ∨ 0 < b.unread.length := hfine.1
            show 0 < (copyOut b.queue b.offset pr.size).1.2
            rw [hcount]
            show 0 < (b.unread.take pr.size).length
            omega
        · show noShortRead b.ended (unreadBlocks _ _) reads = true
          rw [copyOut_blocks b.queue b.offset pr.size hwithin]
          exact hfine.2

/-- The whole loop. -/
theorem served_loop (n : Nat) {b : ReadBuffer} (hwithin : WithinFront b.queue b.offset)
    (hfine : b.fine = true) : Served b (loop turn n b).2 (loop turn n b).1 := by
  -- by induction on the turns: what one turn serves the next ones leave alone
  refine loop_induct (R := fun b cs b' => WithinFront b.queue b.offset → b.fine = true →
    Served b cs b') (fun _ hwithin _ => Served.refl hwithin) ?_ n b hwithin hfine
  intro b cs b' cs' b'' hturn hrest hwithin hfine
  obtain ⟨hserved, hfine'⟩ := served_turn hwithin hfine hturn
  exact hserved.trans (hrest hserved.within hfine')

/-- At the end of the stream no read is left. -/
theorem served_all {b : ReadBuffer} (h : b.turn = none) (hended : b.ended = true) :
    b.reads = [] := by
  unfold turn at h
  split at h
  · rename_i hnil
    exact hnil
  · rw [hended] at h
    simp only [if_true, Bool.not_true, Bool.and_false, Bool.false_eq_true, if_false] at h
    split at h <;> cases h

end ReadBuffer

/-! ## The promise -/

/-- The reads that were asked for, in order, what arrived, and what completed. -/
structure History where
  asked : List PendingRead := []
  arrived : List Byte := []
  done : List Completion := []

/-- Every read that has completed keeps what was asked of it, with bytes that arrived, and at
the end of the stream every read has completed. -/
structure Contract (h : History) (ended : Bool) : Prop where
  answers : ∀ pr ∈ h.asked, ∀ c ∈ h.done, c.handler = pr.handler → Answers pr c
  answered : ended = true → ∀ pr ∈ h.asked, ∃ c ∈ h.done, c.handler = pr.handler
  genuine : delivered h.done <+: h.arrived

/-- A history and the buffer it has led to. Handlers are numbered in the order of the calls. -/
structure Keeps (h : History) (b : ReadBuffer) : Prop where
  unique : ∀ pr ∈ h.asked, ∀ pr' ∈ h.asked, pr.handler = pr'.handler → pr = pr'
  below : ∀ pr ∈ h.asked, pr.handler < h.asked.length
  asked : ∀ pr ∈ b.reads, pr ∈ h.asked
  old : ∀ c ∈ h.done, c.handler < h.asked.length
  answers : ∀ pr ∈ h.asked, ∀ c ∈ h.done, c.handler = pr.handler → Answers pr c
  pending : ∀ pr ∈ h.asked, pr ∈ b.reads ∨ ∃ c ∈ h.done, c.handler = pr.handler
  bytes : h.arrived = delivered h.done ++ b.unread
  within : WithinFront b.queue b.offset

def History.ask (h : History) (pr : PendingRead) : History := { h with asked := h.asked ++ [pr] }
def History.arrive (h : History) (block : List Byte) : History :=
  { h with arrived := h.arrived ++ block }
def History.complete (h : History) (cs : List Completion) : History :=
  { h with done := h.done ++ cs }

namespace Keeps

variable {h : History} {b : ReadBuffer}

theorem contract (hk : Keeps h b) (hdrained : b.ended = true → b.reads = []) :
    Contract h b.ended where
  answers := hk.answers
  answered hended pr hpr := by
    rcases hk.pending pr hpr with hread | hdone
    · rw [hdrained hended] at hread
      exact (List.not_mem_nil hread).elim
    · exact hdone
  genuine := ⟨_, hk.bytes.symm⟩

/-- Some of the pending reads complete, and the others stay. -/
theorem complete (hk : Keeps h b) {taken : List PendingRead} {cs : List Completion}
    {b' : ReadBuffer} (hall : AnsweredBy taken cs) (htaken : ∀ pr ∈ taken, pr ∈ b.reads)
    (hleft : ∀ pr ∈ b'.reads, pr ∈ b.reads)
    (hreads : ∀ pr ∈ b.reads, pr ∈ taken ∨ pr ∈ b'.reads)
    (hbytes : b.unread = delivered cs ++ b'.unread) (hwithin : WithinFront b'.queue b'.offset) :
    Keeps (h.complete cs) b' := by
  refine ⟨hk.unique, hk.below, fun pr hpr => hk.asked pr (hleft pr hpr), fun c hc => ?_,
    fun pr hpr c hc hof => ?_, fun pr hpr => ?_, ?_, hwithin⟩
  · rcases List.mem_append.mp hc with hc | hc
    · exact hk.old c hc
    · obtain ⟨pr, hpr, ha⟩ := hall.only c hc
      rw [ha.handler]
      exact hk.below pr (hk.asked pr (htaken pr hpr))
  · rcases List.mem_append.mp hc with hc | hc
    · exact hk.answers pr hpr c hc hof
    · -- the read that this completion is for has the same handler, so it is the same read
      obtain ⟨pr', hpr', ha⟩ := hall.only c hc
      have hsame := hk.unique pr hpr pr' (hk.asked pr' (htaken pr' hpr'))
        (hof.symm.trans ha.handler)
      rw [hsame]
      exact ha
  · rcases hk.pending pr hpr with hread | ⟨c, hc, hof⟩
    · rcases hreads pr hread with hread | hread
      · obtain ⟨c, hc, ha⟩ := hall.each pr hread
        exact Or.inr ⟨c, List.mem_append_right _ hc, ha.handler⟩
      · exact Or.inl hread
    · exact Or.inr ⟨c, List.mem_append_left _ hc, hof⟩
  · show h.arrived = delivered (h.done ++ cs) ++ b'.unread
    rw [hk.bytes, hbytes, delivered_append, List.append_assoc]

/-- The reads that the loop serves are answered. -/
theorem serve (hk : Keeps h b) {cs : List Completion} {b' : ReadBuffer}
    (hs : ReadBuffer.Served b cs b') : Keeps (h.complete cs) b' := by
  obtain ⟨taken, hreads, hall⟩ := hs.answers
  refine hk.complete hall ?_ ?_ ?_ hs.bytes hs.within
  · exact fun pr hpr => by rw [hreads]; exact List.mem_append_left _ hpr
  · exact fun pr hpr => by rw [hreads]; exact List.mem_append_right _ hpr
  · intro pr hpr
    rw [hreads] at hpr
    exact List.mem_append.mp hpr

/-- One more read is asked for. -/
theorem ask (hk : Keeps h b) (size : Nat) (readAll : Bool) :
    Keeps (h.ask ⟨size, h.asked.length, readAll⟩)
      { b with reads := b.reads ++ [⟨size, h.asked.length, readAll⟩] } := by
  have hlen : (h.ask ⟨size, h.asked.length, readAll⟩).asked.length = h.asked.length + 1 :=
    List.length_append
  have hlast : ∀ pr ∈ (h.ask ⟨size, h.asked.length, readAll⟩).asked,
      pr ∈ h.asked ∧ pr.handler < h.asked.length ∨ pr = ⟨size, h.asked.length, readAll⟩ := by
    intro pr hpr
    rcases List.mem_append.mp hpr with hpr | hpr
    · exact Or.inl ⟨hpr, hk.below pr hpr⟩
    · exact Or.inr (List.mem_singleton.mp hpr)
  constructor
  case unique =>
    intro pr hpr pr' hpr' heq
    rcases hlast pr hpr with ⟨hold, hlt⟩ | rfl
    · rcases hlast pr' hpr' with ⟨hold', -⟩ | rfl
      · exact hk.unique pr hold pr' hold' heq
      · exact absurd (show pr.handler = h.asked.length from heq) (Nat.ne_of_lt hlt)
    · rcases hlast pr' hpr' with ⟨-, hlt'⟩ | rfl
      · exact absurd (show pr'.handler = h.asked.length from heq.symm) (Nat.ne_of_lt hlt')
      · rfl
  case below =>
    intro pr hpr
    rw [hlen]
    rcases hlast pr hpr with ⟨-, hlt⟩ | rfl
    · exact Nat.lt_succ_of_lt hlt
    · exact Nat.lt_succ_self _
  case asked =>
    intro pr hpr
    rcases List.mem_append.mp hpr with hpr | hpr
    · exact List.mem_append_left _ (hk.asked pr hpr)
    · exact List.mem_append_right _ hpr
  case old =>
    intro c hc
    rw [hlen]
    exact Nat.lt_succ_of_lt (hk.old c hc)
  case answers =>
    intro pr hpr c hc hof
    rcases hlast pr hpr with ⟨hold, -⟩ | rfl
    · exact hk.answers pr hold c hc hof
    · exact absurd hof (Nat.ne_of_lt (hk.old c hc))
  case pending =>
    intro pr hpr
    rcases hlast pr hpr with ⟨hold, -⟩ | rfl
    · rcases hk.pending pr hold with hread | hdone
      · exact Or.inl (List.mem_append_left _ hread)
      · exact Or.inr hdone
    · exact Or.inl (List.mem_append_right _ List.mem_cons_self)
  case bytes => exact hk.bytes
  case within => exact hk.within

/-- One more read is asked for and refused. -/
theorem refuse (hk : Keeps h b) (size : Nat) (readAll : Bool) {ec : ErrorCode}
    (hec : ec ≠ .success) :
    Keeps ((h.ask ⟨size, h.asked.length, readAll⟩).complete [{ handler := h.asked.length, ec }])
      b := by
  have hanswers : Answers ⟨size, h.asked.length, readAll⟩ { handler := h.asked.length, ec } :=
    ⟨rfl, fun hs => absurd hs hec, fun hs => absurd hs hec⟩
  refine (hk.ask size readAll).complete hanswers.single ?_ ?_ ?_ rfl hk.within
  · exact fun pr hpr => List.mem_append_right _ hpr
  · exact fun pr hpr => List.mem_append_left _ hpr
  · exact fun pr hpr => (List.mem_append.mp hpr).symm

theorem arrive (hk : Keeps h b) (block : List Byte) :
    Keeps (h.arrive block) { b with queue := b.queue ++ [block] } := by
  refine ⟨hk.unique, hk.below, hk.asked, hk.old, hk.answers, hk.pending, ?_,
    hk.within.concat block⟩
  show h.arrived ++ block = delivered h.done ++ (b.queue ++ [block]).flatten.drop b.offset
  rw [drop_flatten_concat hk.within, hk.bytes, List.append_assoc]
  rfl

theorem finish (hk : Keeps h b) : Keeps h { b with ended := true } :=
  ⟨hk.unique, hk.below, hk.asked, hk.old, hk.answers, hk.pending, hk.bytes, hk.within⟩

end Keeps

/-- What happens to the reading side of a stream. -/
inductive ReadEvent where
  | ask (size : Nat) (readAll : Bool)
  | arrive (block : List Byte)
  /-- The peer ends the stream. -/
  | finish
  deriving DecidableEq

/-! ## MuxStream -/

namespace MuxStream

/-- The part of a stream that serving its reads looks at. -/
def buffer (s : MuxStream) : ReadBuffer where
  queue := s.readQueue
  offset := s.readQueueOffset
  reads := s.pendingReads
  ended := s.remoteClosed

theorem readTurn_buffer (s : MuxStream) :
    s.readTurn.map (fun r => (r.1.buffer, posts r.2)) = s.buffer.turn := by
  unfold readTurn ReadBuffer.turn
  cases hreads : s.pendingReads with
  | nil => simp only [buffer, hreads, Option.map_none]
  | cons pr rest =>
      simp only [buffer, hreads, available]
      by_cases hempty : s.readQueue.isEmpty = true
      · rw [if_pos hempty, if_pos hempty]
        by_cases hended : s.remoteClosed = true
        · rw [if_pos hended, if_pos hended]
          rfl
        · rw [if_neg hended, if_neg hended]
          rfl
      · rw [if_neg hempty, if_neg hempty]
        split
        · rename_i hwait
          exact (if_pos hwait).symm
        · rename_i hgoes
          refine Eq.trans ?_ (if_neg hgoes).symm
          split <;> rfl

/-- **`do_read_from_buffer`** answers the reads it completes, and at the end of the stream it
completes them all. -/
theorem doRead_served {s : MuxStream} (hwithin : WithinFront s.readQueue s.readQueueOffset)
    (hfine : s.buffer.fine = true) :
    s.buffer.Served (posts s.doRead.2) s.doRead.1.buffer ∧
      (s.doRead.1.remoteClosed = true → s.doRead.1.pendingReads = []) := by
  have hloop := loop_map buffer posts posts_nil posts_append readTurn_buffer s.pendingReads.length s
  have hserved := ReadBuffer.served_loop s.pendingReads.length hwithin hfine
  rw [hloop] at hserved
  refine ⟨?_, fun hended => ?_⟩
  · rw [posts_doRead]
    exact hserved
  · have hblocked := s.doRead_blocked
    cases hreads : s.doRead.1.pendingReads with
    | nil => rfl
    | cons pr rest =>
        have hopen := (hblocked pr rest hreads).1
        rw [hended] at hopen
        cases hopen

end MuxStream

/-- A stream of a session and the history of its reads. -/
structure MuxReads where
  stream : MuxStream
  history : History := {}

namespace MuxReads

def start (id : UInt32) : MuxReads := ⟨{ id }, {}⟩

def put (h : History) (r : MuxStream × List Effect) : MuxReads := ⟨r.1, h.complete (posts r.2)⟩

/-- `handle_frame` passes on no empty block. -/
def step (t : MuxReads) : ReadEvent → Option MuxReads
  | .ask size readAll =>
      let handler := t.history.asked.length
      some (put (t.history.ask ⟨size, handler, readAll⟩) (t.stream.asyncRead size handler readAll))
  | .arrive block =>
      if block.isEmpty then none
      else some (put (t.history.arrive block) (t.stream.handleData block))
  | .finish => some (put t.history t.stream.handleClose)

/-- The stream as `do_read_from_buffer` finds it. -/
def beforeRead (t : MuxReads) : ReadEvent → Option MuxStream
  | .ask size readAll =>
      if t.stream.pendingReads.length ≥ maxPendingReads then none
      else
        some { t.stream with
          pendingReads := t.stream.pendingReads ++ [⟨size, t.history.asked.length, readAll⟩] }
  | .arrive block => some { t.stream with readQueue := t.stream.readQueue ++ [block] }
  | .finish => some { t.stream with remoteClosed := true }

/-- No read is reached with something but too little left. -/
def fine (t : MuxReads) (e : ReadEvent) : Bool :=
  (t.beforeRead e).all fun s => s.buffer.fine

/-- The history explains the stream, and at the end of the stream no read is pending. -/
structure Inv (t : MuxReads) : Prop where
  keeps : Keeps t.history t.stream.buffer
  drained : t.stream.remoteClosed = true → t.stream.pendingReads = []

theorem inv_start (id : UInt32) : Inv (start id) where
  keeps := ⟨by simp [start], by simp [start], by simp [start, buffer], by simp [start],
    by simp [start], by simp [start], rfl, rfl⟩
  drained _ := rfl

theorem inv_doRead {h : History} {s : MuxStream} (hk : Keeps h s.buffer)
    (hfine : s.buffer.fine = true) : Inv (put h s.doRead) := by
  obtain ⟨hserved, hdrained⟩ := doRead_served hk.within hfine
  exact ⟨hk.serve hserved, hdrained⟩

theorem inv_step {t t' : MuxReads} {e : ReadEvent} (h : Inv t) (hok : t.fine e = true)
    (hstep : t.step e = some t') : Inv t' := by
  cases e with
  | ask size readAll =>
      cases Option.some.inj hstep
      rw [fine, beforeRead] at hok
      unfold asyncRead
      split
      · exact ⟨h.keeps.refuse size readAll (by simp), h.drained⟩
      · rename_i hroom
        rw [if_neg hroom] at hok
        exact inv_doRead (h.keeps.ask size readAll) hok
  | arrive block =>
      simp only [step] at hstep
      split at hstep
      · cases hstep
      · cases Option.some.inj hstep
        exact inv_doRead (h.keeps.arrive block) hok
  | finish =>
      cases Option.some.inj hstep
      have hread := inv_doRead (s := { t.stream with remoteClosed := true }) h.keeps.finish hok
      have hput : put t.history t.stream.handleClose =
          put t.history (doRead { t.stream with remoteClosed := true }) := by
        unfold put handleClose
        rw [posts_append, posts_checkCleanup, List.append_nil]
      rw [hput]
      exact hread

theorem contract_of_reach {id : UInt32} {t : MuxReads}
    (h : Reach step (fun t e => t.fine e = true) (start id) t) :
    Contract t.history t.stream.remoteClosed := by
  have hinv : Inv t := h.invariant (P := Inv) (inv_start id) fun s e s' hs hok hstep =>
    inv_step hs hok hstep
  exact hinv.keeps.contract hinv.drained

end MuxReads

end Cfrp.Mux

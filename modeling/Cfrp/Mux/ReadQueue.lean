import Cfrp.Lib.Transition
import Cfrp.Mux.StreamSpec

/-!
# The read queue and its offset

`read_queue_offset_` counts what has been read of the front block, so it stays below the
length of that block and is 0 when there is none. `handle_data`, the reads and `handle_close`
keep it so, and then every subtraction and every copy of `do_read_from_buffer` stays in
range. `close` drops the blocks and leaves the offset alone, which is harmless only when
nothing of the front block had been read. A block that arrives later is then read from the
old offset.
-/

namespace Cfrp.Mux

open Lib MuxStream

/-- What `do_read_from_buffer` does to memory or to a `size_t`. -/
inductive Access where
  /-- `available -= read_queue_offset_`. -/
  | subtract (available offset : Nat)
  /-- `memcpy(pr.buffer + total_copied, block.data + read_queue_offset_, to_copy)`: the sizes
  of the two buffers, the two positions and the number of bytes. -/
  | copy (block offset buffer totalCopied toCopy : Nat)
  deriving DecidableEq, Repr

/-- Neither underflow nor a byte outside its buffer. -/
def Access.InRange : Access → Prop
  | .subtract available offset => offset ≤ available
  | .copy block offset buffer totalCopied toCopy =>
      offset ≤ block ∧ offset + toCopy ≤ block ∧ totalCopied + toCopy ≤ buffer

instance (a : Access) : Decidable a.InRange := by
  cases a <;> unfold Access.InRange <;> infer_instance

/-- The copies of the copying loop. -/
def copies (buffer : Nat) : List (List Byte) → Nat → Nat → Nat → List Access
  | [], _, _, _ => []
  | block :: q, offset, totalCopied, remaining =>
      if remaining = 0 then []
      else
        let toCopy := min remaining (sizeSub block.length offset)
        .copy block.length offset buffer totalCopied toCopy ::
          if offset + toCopy = block.length then
            copies buffer q 0 (totalCopied + toCopy) (remaining - toCopy)
          else []

/-- Every copy stays in the front block and in what is left of the caller's buffer. -/
theorem copies_inRange {q : List (List Byte)} {offset : Nat} (h : QueueOk q offset)
    {buffer totalCopied remaining : Nat} (hroom : totalCopied + remaining ≤ buffer) :
    ∀ a ∈ copies buffer q offset totalCopied remaining, a.InRange := by
  induction q generalizing offset totalCopied remaining with
  | nil => exact fun a ha => (List.not_mem_nil ha).elim
  | cons block q ih =>
      have hlt := h.1
      have hsub : sizeSub block.length offset = block.length - offset := if_pos (by omega)
      intro a ha
      rw [copies] at ha
      split at ha
      · exact (List.not_mem_nil ha).elim
      · rw [hsub] at ha
        rcases List.mem_cons.mp ha with rfl | ha
        · exact ⟨by omega, by omega, by omega⟩
        · split at ha
          · exact ih (queueOk_zero h.2) (by omega) a ha
          · exact (List.not_mem_nil ha).elim

namespace MuxStream

/-- What one turn of `do_read_from_buffer` accesses. -/
def turnAccesses (s : MuxStream) : List Access :=
  match s.pendingReads with
  | [] => []
  | pr :: _ =>
      if s.readQueue.isEmpty then []
      else
        (if pr.readAll then [.subtract (totalLength s.readQueue) s.readQueueOffset] else []) ++
          if pr.readAll && decide (s.available < pr.size) && !s.remoteClosed then []
          else copies pr.size s.readQueue s.readQueueOffset 0 pr.size

/-- What `n` turns access. -/
def turnsAccesses : Nat → MuxStream → List Access
  | 0, _ => []
  | n + 1, s =>
      s.turnAccesses ++
        match s.readTurn with
        | none => []
        | some (s', _) => turnsAccesses n s'

/-- What `do_read_from_buffer` accesses. -/
def readAccesses (s : MuxStream) : List Access := turnsAccesses s.pendingReads.length s

/-- The offset fits the front block. -/
def OffsetOk (s : MuxStream) : Prop :=
  match s.readQueue with
  | [] => s.readQueueOffset = 0
  | block :: _ => s.readQueueOffset < block.length

instance (s : MuxStream) : Decidable s.OffsetOk := by
  unfold OffsetOk
  split <;> infer_instance

/-- A run of the operations that touch the read queue. -/
inductive QueueEvent where
  /-- `handle_data` with a block that is not empty. -/
  | handleData (block : List Byte)
  /-- `async_read`, or with `readAll` false `async_read_some`. -/
  | asyncRead (size : Nat) (handler : Handler) (readAll : Bool)
  | handleClose
  | close
  /-- The session is destroyed. -/
  | expire
  deriving DecidableEq, Repr

def queueStep (s : MuxStream) : QueueEvent → Option MuxStream
  | .handleData block => if block.isEmpty then none else some (s.handleData block).1
  | .asyncRead size handler readAll => some (s.asyncRead size handler readAll).1
  | .handleClose => some s.handleClose.1
  | .close => some s.close.1
  | .expire => some { s with session := false }

/-- What an operation accesses, all of it in the `do_read_from_buffer` it calls. -/
def accesses (s : MuxStream) : QueueEvent → List Access
  | .handleData block => readAccesses { s with readQueue := s.readQueue ++ [block] }
  | .asyncRead size handler readAll =>
      if s.pendingReads.length ≥ maxPendingReads then []
      else readAccesses { s with pendingReads := s.pendingReads ++ [⟨size, handler, readAll⟩] }
  | .handleClose => readAccesses { s with remoteClosed := true }
  | .close => []
  | .expire => []

/-- A close finds the front block untouched. -/
def cleanClose (s : MuxStream) : QueueEvent → Bool
  | .close => s.localClosed || s.readQueueOffset == 0
  | _ => true

variable {s s' : MuxStream}

/-! ## One call of do_read_from_buffer -/

theorem readTurn_queueOk {es : List Effect} (h : QueueOk s.readQueue s.readQueueOffset)
    (hturn : s.readTurn = some (s', es)) : QueueOk s'.readQueue s'.readQueueOffset := by
  obtain ⟨pr, rest, -, ⟨-, -, rfl, -⟩ | ⟨r, consumed, done, hr, -, -, hcase⟩⟩ :=
    readTurn_cases hturn
  · exact h
  · have hok := copyOut_queueOk s.readQueue s.readQueueOffset pr.size h
    rw [← hr] at hok
    rcases hcase with ⟨-, rfl, -⟩ | ⟨-, rfl, -⟩ <;> exact hok

theorem doRead_queueOk (h : QueueOk s.readQueue s.readQueueOffset) :
    QueueOk s.doRead.1.readQueue s.doRead.1.readQueueOffset := by
  refine loop_induct (R := fun s _ s' => QueueOk s.readQueue s.readQueueOffset →
    QueueOk s'.readQueue s'.readQueueOffset) (fun _ h => h) ?_ s.pendingReads.length s h
  intro s es s' es' s'' hturn hrest h
  exact hrest (readTurn_queueOk h hturn)

theorem turnAccesses_inRange (h : QueueOk s.readQueue s.readQueueOffset) :
    ∀ a ∈ s.turnAccesses, a.InRange := by
  intro a ha
  rw [turnAccesses] at ha
  split at ha
  · exact (List.not_mem_nil ha).elim
  · split at ha
    · exact (List.not_mem_nil ha).elim
    · rcases List.mem_append.mp ha with ha | ha
      · split at ha
        · rw [List.mem_singleton.mp ha]
          show s.readQueueOffset ≤ totalLength s.readQueue
          rw [totalLength_eq]
          exact h.le
        · exact (List.not_mem_nil ha).elim
      · split at ha
        · exact (List.not_mem_nil ha).elim
        · exact copies_inRange h (Nat.le_of_eq (Nat.zero_add _)) a ha

theorem turnsAccesses_inRange (n : Nat) (h : QueueOk s.readQueue s.readQueueOffset) :
    ∀ a ∈ turnsAccesses n s, a.InRange := by
  induction n generalizing s with
  | zero => exact fun a ha => (List.not_mem_nil ha).elim
  | succ n ih =>
      intro a ha
      rw [turnsAccesses] at ha
      rcases List.mem_append.mp ha with ha | ha
      · exact turnAccesses_inRange h a ha
      · split at ha
        · exact (List.not_mem_nil ha).elim
        · rename_i hturn
          exact ih (readTurn_queueOk h hturn) a ha

/-! ## Runs -/

theorem QueueOk.offsetOk (h : QueueOk s.readQueue s.readQueueOffset) : s.OffsetOk := by
  unfold OffsetOk
  split <;> rename_i hq <;> rw [hq] at h
  · exact h
  · exact h.1

/-- One operation keeps the queue, and a close keeps it if it is clean. -/
theorem queueOk_step (h : QueueOk s.readQueue s.readQueueOffset) {e : QueueEvent}
    (hclean : s.cleanClose e = true) (hstep : s.queueStep e = some s') :
    QueueOk s'.readQueue s'.readQueueOffset := by
  cases e with
  | handleData block =>
      obtain ⟨hne, hs⟩ := Option.ite_none_left_eq_some.mp hstep
      cases hs
      have hpos : 0 < block.length := List.length_pos_iff.mpr fun hnil => hne (by rw [hnil]; rfl)
      exact doRead_queueOk (h.concat hpos)
  | asyncRead size handler readAll =>
      cases hstep
      unfold asyncRead
      split
      · exact h
      · exact doRead_queueOk h
  | handleClose =>
      cases hstep
      exact doRead_queueOk h
  | close =>
      cases hstep
      unfold close
      cases hclosed : s.localClosed with
      | true => exact h
      | false =>
          rw [cleanClose, hclosed, Bool.false_or, beq_iff_eq] at hclean
          exact hclean
  | expire =>
      cases hstep
      exact h

/-- A close that finds part of the front block read leaves the offset without a block. -/
theorem not_offsetOk_close (h : s.cleanClose .close = false) : ¬s.close.1.OffsetOk := by
  rw [cleanClose, Bool.or_eq_false_iff] at h
  obtain ⟨hopen, hoffset⟩ := h
  unfold close
  rw [hopen]
  intro hzero
  have hzero' : s.readQueueOffset = 0 := hzero
  rw [hzero'] at hoffset
  cases hoffset

theorem accesses_inRange (h : QueueOk s.readQueue s.readQueueOffset) {e : QueueEvent}
    (hstep : s.queueStep e = some s') : ∀ a ∈ s.accesses e, a.InRange := by
  cases e with
  | handleData block =>
      obtain ⟨hne, -⟩ := Option.ite_none_left_eq_some.mp hstep
      have hpos : 0 < block.length := List.length_pos_iff.mpr fun hnil => hne (by rw [hnil]; rfl)
      exact turnsAccesses_inRange _ (h.concat hpos)
  | asyncRead size handler readAll =>
      intro a ha
      rw [accesses] at ha
      split at ha
      · exact (List.not_mem_nil ha).elim
      · have hread : QueueOk (MuxStream.readQueue { s with
            pendingReads := s.pendingReads ++ [⟨size, handler, readAll⟩] }) s.readQueueOffset := h
        exact turnsAccesses_inRange _ hread a ha
  | handleClose => exact turnsAccesses_inRange _ h
  | close => exact fun a ha => (List.not_mem_nil ha).elim
  | expire => exact fun a ha => (List.not_mem_nil ha).elim

/-- **The read queue over a run** in which every first `close` finds the front block
untouched: the offset fits the front block, the next operation accesses nothing out of range,
and it breaks the representation exactly if it is a close that is not clean. -/
theorem offsetOk_of_reach {id : UInt32}
    (h : Reach queueStep (fun s e => s.cleanClose e = true) { id } s) :
    s.OffsetOk ∧ ∀ e s', s.queueStep e = some s' →
      (∀ a ∈ s.accesses e, a.InRange) ∧ (s'.OffsetOk ↔ s.cleanClose e = true) := by
  have hok : QueueOk s.readQueue s.readQueueOffset := by
    refine h.invariant (P := fun s => QueueOk s.readQueue s.readQueueOffset) ?_
      fun _ _ _ hs hclean hstep => queueOk_step hs hclean hstep
    exact queueOk_zero (List.forall_mem_nil _)
  refine ⟨QueueOk.offsetOk hok, fun e s' hstep => ⟨accesses_inRange hok hstep, ?_⟩⟩
  constructor
  · intro hoffset
    cases hclean : s.cleanClose e with
    | true => rfl
    | false =>
        cases e with
        | close =>
            cases hstep
            exact absurd hoffset (not_offsetOk_close hclean)
        | _ => cases hclean
  · exact fun hclean => QueueOk.offsetOk (queueOk_step hok hclean hstep)

/-- A block is read, half of the next one too, and the stream is closed after that. -/
theorem offsetOk_after_reads :
    ∃ s, Reach queueStep (fun s e => s.cleanClose e = true) { id := 1 } s ∧
      (s.OffsetOk ∧ ∀ e s', s.queueStep e = some s' →
        (∀ a ∈ s.accesses e, a.InRange) ∧ (s'.OffsetOk ↔ s.cleanClose e = true)) ∧
      (s.readQueue, s.readQueueOffset) = ([[4, 5]], 1) := by
  obtain ⟨s, hs, hqueue⟩ := exists_of_runGuarded queueStep cleanClose
    [.handleData [1, 2, 3], .handleData [4, 5], .asyncRead 4 0 true]
    (fun s => (s.readQueue, s.readQueueOffset)) (s := { id := 1 }) (a := ([[4, 5]], 1)) (by decide)
  exact ⟨s, hs, offsetOk_of_reach hs, hqueue⟩

/-- Two of three bytes are read and the stream is closed. The offset stays 2, so a read of the
next block, which has one byte, copies four bytes from behind its end. -/
theorem close_keeps_offset :
    ∃ s s', Reach queueStep anyStep { id := 1 } s ∧ s.queueStep .close = some s' ∧
      ¬s'.OffsetOk ∧ ∃ t, Reach queueStep anyStep s' t ∧
        ∃ a ∈ t.accesses (.asyncRead 4 1 false), ¬a.InRange := by
  have hread : runAll queueStep { id := 1 } [.handleData [1, 2, 3], .asyncRead 2 0 false] =
      some
        { id := 1, consumedSinceLastUpdate := 2, readQueue := [[1, 2, 3]]
          readQueueOffset := 2 } := by
    decide
  have hlate : runAll queueStep
      { id := 1, consumedSinceLastUpdate := 2, readQueueOffset := 2, localClosed := true }
      [.handleData [9]] =
      some
        { id := 1, consumedSinceLastUpdate := 2, readQueue := [[9]], readQueueOffset := 2
          localClosed := true } := by
    decide
  exact ⟨_, _, reach_of_runAll hread, rfl, by decide, _, reach_of_runAll hlate, .copy 1 2 4 0 4,
    by decide, by decide⟩

end MuxStream

end Cfrp.Mux

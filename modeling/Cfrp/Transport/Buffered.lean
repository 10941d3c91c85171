import Cfrp.Protocol.Messages

/-!
# BufferedStream

A stream that gives back first what was read from the stream below it too early. `arrived`
is what the stream below has and has not read; a socket reads from it with `readSome` or
`readAll`. Whatever is read, nothing is lost and nothing is read twice: what is read and what
is left make up what there was.
-/

namespace Cfrp.Transport

open Protocol

/-- A socket's `async_read_some` with a buffer of `size` bytes: `n` bytes of what has arrived. -/
def readSome (size n : Nat) (arrived : List Byte) : Option (List Byte × List Byte) :=
  if 0 < n ∧ n ≤ size ∧ n ≤ arrived.length then some (arrived.take n, arrived.drop n) else none

/-- A socket's `async_read` completes when the buffer is full. -/
def readAll (size : Nat) (arrived : List Byte) : Option (List Byte × List Byte) :=
  if size ≤ arrived.length then some (arrived.take size, arrived.drop size) else none

structure Buffered where
  buffer : List Byte := []
  bufferOffset : Nat := 0

namespace Buffered

/-- What both reads do with a buffer that has not been read to its end. -/
def copy (b : Buffered) (size : Nat) : List Byte × Buffered :=
  let available := b.buffer.length - b.bufferOffset
  let toCopy := min available size
  let bufferOffset := b.bufferOffset + toCopy
  ((b.buffer.drop b.bufferOffset).take toCopy,
    if bufferOffset = b.buffer.length then {} else { b with bufferOffset })

/-- `async_read_some`; `n` is for the stream below. -/
def asyncReadSome (b : Buffered) (size n : Nat) (arrived : List Byte) :
    Option (List Byte × Buffered × List Byte) :=
  if b.bufferOffset < b.buffer.length then some ((b.copy size).1, (b.copy size).2, arrived)
  else (readSome size n arrived).map fun r => (r.1, b, r.2)

/-- `async_read`, which reads from below what the buffer does not have. -/
def asyncRead (b : Buffered) (size : Nat) (arrived : List Byte) :
    Option (List Byte × Buffered × List Byte) :=
  if b.bufferOffset < b.buffer.length then
    let copied := (b.copy size).1
    if copied.length < size then
      (readAll (size - copied.length) arrived).map fun r => (copied ++ r.1, (b.copy size).2, r.2)
    else some (copied, (b.copy size).2, arrived)
  else (readAll size arrived).map fun r => (r.1, b, r.2)

/-- What is still buffered. -/
def rest (b : Buffered) : List Byte := b.buffer.drop b.bufferOffset

/-! ## What a read takes -/

theorem readSome_eq_some {size n : Nat} {arrived data left : List Byte}
    (h : readSome size n arrived = some (data, left)) :
    arrived = data ++ left ∧ 0 < data.length ∧ data.length ≤ size := by
  rw [readSome, Option.ite_none_right_eq_some] at h
  obtain ⟨⟨hpos, hsize, hle⟩, heq⟩ := h
  obtain ⟨rfl, rfl⟩ := Prod.mk.inj (Option.some.inj heq)
  rw [List.length_take_of_le hle]
  exact ⟨(List.take_append_drop n arrived).symm, hpos, hsize⟩

theorem readAll_eq_some {size : Nat} {arrived data left : List Byte}
    (h : readAll size arrived = some (data, left)) :
    arrived = data ++ left ∧ data.length = size := by
  rw [readAll, Option.ite_none_right_eq_some] at h
  obtain ⟨hle, heq⟩ := h
  obtain ⟨rfl, rfl⟩ := Prod.mk.inj (Option.some.inj heq)
  exact ⟨(List.take_append_drop size arrived).symm, List.length_take_of_le hle⟩

theorem rest_of_not_lt {b : Buffered} (h : ¬b.bufferOffset < b.buffer.length) : b.rest = [] :=
  List.drop_eq_nil_of_le (Nat.not_lt.mp h)

theorem copy_append (b : Buffered) (size : Nat) :
    (b.copy size).1 ++ (b.copy size).2.rest = b.rest := by
  have hsplit := List.take_append_drop (min (b.buffer.length - b.bufferOffset) size) b.rest
  refine Eq.trans (congrArg ((b.copy size).1 ++ ·) ?_) hsplit
  rw [rest, rest, List.drop_drop]
  simp only [copy]
  split
  · rename_i hend
    rw [hend, List.drop_length]
    rfl
  · rfl

theorem length_copy (b : Buffered) (size : Nat) :
    (b.copy size).1.length = min b.rest.length size := by
  simp only [copy, List.length_take, rest, List.length_drop]
  omega

/-- **A read of some bytes** returns at least one of what comes next. -/
theorem asyncReadSome_eq_some {b b' : Buffered} {size n : Nat} {arrived data left : List Byte}
    (hsize : 0 < size) (h : b.asyncReadSome size n arrived = some (data, b', left)) :
    b.rest ++ arrived = data ++ (b'.rest ++ left) ∧ 0 < data.length ∧ data.length ≤ size := by
  rw [asyncReadSome] at h
  split at h
  · rename_i hbuffered
    cases h
    have hrest : 0 < b.rest.length := by
      rw [rest, List.length_drop]
      omega
    rw [← List.append_assoc, copy_append, length_copy]
    exact ⟨rfl, Nat.lt_min.mpr ⟨hrest, hsize⟩, Nat.min_le_right _ _⟩
  · rename_i hempty
    obtain ⟨⟨data, left⟩, hread, heq⟩ := Option.map_eq_some_iff.mp h
    cases heq
    rw [rest_of_not_lt hempty, List.nil_append, List.nil_append]
    exact readSome_eq_some hread

/-- **A read that fills its buffer** returns what comes next. -/
theorem asyncRead_eq_some {b b' : Buffered} {size : Nat} {arrived data left : List Byte}
    (h : b.asyncRead size arrived = some (data, b', left)) :
    b.rest ++ arrived = data ++ (b'.rest ++ left) ∧ data.length = size := by
  have hcopy := copy_append b size
  have hlength := length_copy b size
  rw [asyncRead] at h
  split at h
  · simp only at h
    split at h
    · rename_i hshort
      obtain ⟨⟨data, left⟩, hread, heq⟩ := Option.map_eq_some_iff.mp h
      cases heq
      obtain ⟨rfl, hdata⟩ := readAll_eq_some hread
      -- the buffer was too short for the read: it is empty now
      have hnil : (b.copy size).2.rest = [] := by
        have hall := congrArg List.length hcopy
        rw [List.length_append] at hall
        exact List.length_eq_zero_iff.mp (by omega)
      rw [← hcopy, hnil, List.append_nil, List.nil_append, List.append_assoc, List.length_append,
        hdata]
      exact ⟨rfl, by omega⟩
    · cases h
      rw [← List.append_assoc, hcopy]
      exact ⟨rfl, by omega⟩
  · rename_i hempty
    obtain ⟨⟨data, left⟩, hread, heq⟩ := Option.map_eq_some_iff.mp h
    cases heq
    rw [rest_of_not_lt hempty, List.nil_append, List.nil_append]
    exact readAll_eq_some hread

end Buffered

end Cfrp.Transport

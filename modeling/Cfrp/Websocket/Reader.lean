import Cfrp.Websocket.Writer

/-!
# What a WebsocketStream reads

What the reader has taken out of frames so far is what it has delivered, then what it has
put into the buffer of the read that is outstanding, then what is left in `read_buffer_`:
`taken`. `async_read` and `async_read_some` only move bytes from one to the next
(`Answered`), and a data frame adds its payload.
-/

namespace Cfrp.Websocket

open Lib
open Mux (maxMessageSize)

/-- `ReadWsFrame` lets only short control frames come this far. -/
def Awaiting.Short : Awaiting → Prop
  | .header => True
  | .ext16 opcode _ => opcode < 0x08
  | .ext64 opcode _ => opcode < 0x08
  | .payload opcode _ len => 0x08 ≤ opcode → len ≤ 125

/-- The user's buffer is partly filled. -/
def ReadOp.Consistent (op : ReadOp) : Prop := op.got.length + op.size = op.want

/-- An `async_read` that succeeds has filled its buffer. -/
structure ReadResult.Proper (r : ReadResult) : Prop where
  consistent : r.op.Consistent
  full : r.ec = .success → r.op.all = true → r.op.size = 0

namespace Stream

variable {s s' : Stream} {op : ReadOp}

/-! ## The bytes taken out of frames -/

/-- What the user has been given. -/
def delivered (s : Stream) : List Byte := s.reads.flatMap fun r => r.op.got

/-- What is in the buffer of the outstanding read. -/
def underway (s : Stream) : List Byte := s.readOp.elim [] ReadOp.got

/-- What is left of the last data frame. -/
def leftover (s : Stream) : List Byte := s.copyOut s.readRemaining

def taken (s : Stream) : List Byte := s.delivered ++ (s.underway ++ s.leftover)

/-- What reads leave alone. -/
structure Outside where
  isClient : Bool
  posted : List Job
  writing : Writing
  down : Bool
  input : List Byte
  accepted : List Job
  handed : List Byte
  fed : List Byte

def outside (s : Stream) : Outside :=
  ⟨s.isClient, s.posted, s.writing, s.down, s.input, s.accepted, s.handed, s.fed⟩

def Buffered (s : Stream) : Prop :=
  s.readRemaining = 0 ∨ s.readOffset + s.readRemaining ≤ s.readBuffer.length

structure ReaderInv (s : Stream) : Prop where
  buffered : s.Buffered
  asking : s.awaiting.isSome = s.readOp.isSome
  empty : s.readOp ≠ none → s.readRemaining = 0
  op : ∀ op, s.readOp = some op → op.Consistent ∧ 0 < op.size
  reads : ∀ r ∈ s.reads, r.Proper
  short : ∀ a, s.awaiting = some a → a.Short

theorem readerInv_init (isClient : Bool) : ReaderInv (init isClient) where
  buffered := .inl rfl
  asking := rfl
  empty h := absurd rfl h
  op op h := by cases h
  reads r h := by cases h
  short a h := by cases h

theorem leftover_of_empty (h : s.readRemaining = 0) : s.leftover = [] := by
  rw [leftover, h]
  exact List.take_zero

/-! ## Moving bytes to the user -/

/-- A read may go on: nothing is awaited from the transport for it. -/
structure Ready (s : Stream) (op : ReadOp) : Prop where
  buffered : s.Buffered
  reads : ∀ r ∈ s.reads, r.Proper
  op : op.Consistent
  awaiting : s.awaiting = none

/-- The read was answered, or it waits for the next frame. -/
structure Answered (s : Stream) (op : ReadOp) (s' : Stream) : Prop where
  inv : ReaderInv s'
  taken : s'.taken = s.delivered ++ (op.got ++ s.leftover)
  outside : s'.outside = s.outside
  success : ∀ r ∈ s'.reads, r ∈ s.reads ∨ r.ec = .success
  awaiting : s'.awaiting = none ∨ s'.awaiting = some .header

theorem Ready.complete (h : Ready s op) (hfull : op.all = true → op.size = 0) :
    Answered s op (s.complete op .success) where
  inv := by
    have hidle : (s.complete op .success).awaiting = none := h.awaiting
    refine ⟨h.buffered, ?_, fun hop => absurd rfl hop, (fun _ hop => by cases hop), fun r hr => ?_,
      fun a ha => ?_⟩
    · rw [hidle]
      rfl
    · rcases List.mem_append.mp hr with hr | hr
      · exact h.reads r hr
      · rw [List.mem_singleton.mp hr]
        exact ⟨h.op, fun _ => hfull⟩
    · rw [hidle] at ha
      cases ha
  taken := by
    show (s.reads ++ [_]).flatMap _ ++ ([] ++ s.leftover) = _
    rw [List.flatMap_append, List.append_assoc]
    simp [delivered]
  outside := rfl
  success r hr := by
    rcases List.mem_append.mp hr with hr | hr
    · exact .inl hr
    · rw [List.mem_singleton.mp hr]
      exact .inr rfl
  awaiting := .inl h.awaiting

theorem Ready.readWsFrame (h : Ready s op) (hempty : s.readRemaining = 0) (hsize : 0 < op.size) :
    Answered s op (s.readWsFrame op) where
  inv := by
    refine ⟨h.buffered, rfl, fun _ => hempty, fun op' hop => ?_, h.reads, fun a ha => ?_⟩
    · obtain rfl := Option.some.inj hop
      exact ⟨h.op, hsize⟩
    · obtain rfl := Option.some.inj ha
      trivial
  taken := rfl
  outside := rfl
  success r hr := .inl hr
  awaiting := .inr rfl

/-- The next `n` bytes of what is left go to the user's buffer. -/
theorem Ready.move (h : Ready s op) (s' : Stream) {n : Nat} (hn : n ≤ s.readRemaining)
    (hsize : n ≤ op.size)
    (hbuffered : s'.Buffered) (hreads : s'.reads = s.reads) (hawaiting : s'.awaiting = none)
    (hleft : s'.leftover = (s.readBuffer.drop (s.readOffset + n)).take (s.readRemaining - n)) :
    Ready s' { op with size := op.size - n, got := op.got ++ s.copyOut n } ∧
      op.got ++ s.copyOut n ++ s'.leftover = op.got ++ s.leftover := by
  have hleft' : s.leftover = s.copyOut n ++ s'.leftover := by
    have hcopy : s.copyOut n = s.leftover.take n := by
      rw [leftover, copyOut, copyOut, List.take_take, Nat.min_eq_left hn]
    have hdrop : s'.leftover = s.leftover.drop n := by
      rw [hleft, leftover, copyOut, List.drop_take, List.drop_drop]
    rw [hcopy, hdrop, List.take_append_drop]
  have hlength : (s.copyOut n).length = n := by
    rw [copyOut, List.length_take, List.length_drop]
    rcases h.buffered with hzero | hle
    · omega
    · omega
  refine ⟨⟨hbuffered, by rw [hreads]; exact h.reads, ?_, hawaiting⟩, ?_⟩
  · have hop : op.got.length + op.size = op.want := h.op
    show (op.got ++ s.copyOut n).length + (op.size - n) = op.want
    rw [List.length_append, hlength]
    omega
  · rw [hleft', List.append_assoc]

/-- An answer to the rest of a read is an answer to the read. -/
theorem Answered.of_move {op' : ReadOp} {s₁ : Stream} (h : Answered s₁ op' s')
    (hreads : s₁.reads = s.reads) (houtside : s₁.outside = s.outside)
    (hmove : op'.got ++ s₁.leftover = op.got ++ s.leftover) : Answered s op s' where
  inv := h.inv
  taken := by
    rw [h.taken, hmove, delivered, hreads]
    rfl
  outside := h.outside.trans houtside
  success := by
    rw [← hreads]
    exact h.success
  awaiting := h.awaiting

theorem Ready.copyLeft (h : Ready s op) :
    Ready (s.copyLeft op).1 (s.copyLeft op).2 ∧
      (s.copyLeft op).2.got ++ (s.copyLeft op).1.leftover = op.got ++ s.leftover := by
  refine h.move _ (Nat.min_le_left ..) (Nat.min_le_right ..) ?_ rfl h.awaiting ?_
  · by_cases hzero : s.readRemaining - min s.readRemaining op.size = 0
    · exact .inl hzero
    · refine .inr ?_
      show _ + min s.readRemaining op.size + (s.readRemaining - min s.readRemaining op.size) ≤ _
      simp only [Stream.copyLeft, if_neg hzero]
      rcases h.buffered with hempty | hle
      · omega
      · omega
  · simp only [Stream.copyLeft, leftover, copyOut]
    split
    · next hzero =>
        rw [hzero, List.take_zero, List.take_zero]
    · rfl

theorem Ready.asyncReadSome (h : Ready s op) (hsome : op.all = false) :
    Answered s op (s.asyncReadSome op) := by
  have hfull {op' : ReadOp} (hall : op'.all = op.all) : op'.all = true → op'.size = 0 := by
    rw [hall, hsome]
    exact fun hf => by cases hf
  unfold Stream.asyncReadSome
  split
  · exact h.complete (hfull rfl)
  next hsize =>
  split
  · obtain ⟨hready, hmove⟩ := h.copyLeft
    exact (hready.complete (hfull rfl)).of_move rfl rfl hmove
  · next hempty => exact h.readWsFrame (by omega) (by omega)

/-- With nothing left over, `async_read` asks for a frame. -/
theorem asyncRead_of_empty (hempty : s.readRemaining = 0) (hsize : 0 < op.size) :
    s.asyncRead op = s.readWsFrame op := by
  rw [Stream.asyncRead, if_neg (by omega), if_neg (by omega)]

theorem Ready.asyncRead (h : Ready s op) : Answered s op (s.asyncRead op) := by
  rw [Stream.asyncRead]
  split
  · next hsize => exact h.complete fun _ => hsize
  next hsize =>
  split
  · obtain ⟨hready, hmove⟩ := h.copyLeft
    split
    · next hlt =>
        -- the buffer took all that was left, so the second call asks for a frame
        have hempty : (s.copyLeft op).1.readRemaining = 0 := by
          show s.readRemaining - min s.readRemaining op.size = 0
          omega
        have hrest : 0 < (s.copyLeft op).2.size := by
          show 0 < op.size - min s.readRemaining op.size
          omega
        rw [asyncRead_of_empty hempty hrest]
        exact (hready.readWsFrame hempty hrest).of_move rfl rfl hmove
    · next hlt =>
        refine (hready.complete fun _ => ?_).of_move rfl rfl hmove
        show op.size - min s.readRemaining op.size = 0
        omega
  · next hempty => exact h.readWsFrame (by omega) (by omega)

/-- A data frame is in `read_buffer_`. -/
theorem Ready.onFrame (h : Ready s op) (hop : s.readOp = some op) (hsize : 0 < op.size) :
    Answered s op (s.onFrame s.readRemaining) := by
  have hsome : s.onFrame s.readRemaining =
      let toCopy := min s.readRemaining op.size
      let op' := { op with size := op.size - toCopy, got := op.got ++ s.copyOut toCopy }
      let s :=
        if s.readRemaining > toCopy then
          { s with readOffset := s.readOffset + toCopy, readRemaining := s.readRemaining - toCopy }
        else { s with readOffset := 0, readRemaining := 0, readBuffer := [] }
      if op.all ∧ toCopy < op.size then s.asyncRead op' else s.complete op' .success := by
    rw [Stream.onFrame, hop]
  rw [hsome]
  simp only
  by_cases hmore : s.readRemaining > min s.readRemaining op.size
  · -- the user's buffer is full
    have hn : min s.readRemaining op.size = op.size := by omega
    rw [if_pos hmore, if_neg (by omega)]
    have hbuffered : s.readOffset + min s.readRemaining op.size +
        (s.readRemaining - min s.readRemaining op.size) ≤ s.readBuffer.length := by
      rcases h.buffered with hempty | hle
      · omega
      · omega
    obtain ⟨hready, hmove⟩ := h.move { s with
        readOffset := s.readOffset + min s.readRemaining op.size
        readRemaining := s.readRemaining - min s.readRemaining op.size }
      (Nat.min_le_left ..) (Nat.min_le_right ..) (.inr hbuffered) rfl h.awaiting rfl
    refine (hready.complete fun _ => ?_).of_move rfl rfl hmove
    show op.size - min s.readRemaining op.size = 0
    omega
  · -- the frame is used up
    have hn : min s.readRemaining op.size = s.readRemaining := by omega
    rw [if_neg hmore]
    obtain ⟨hready, hmove⟩ := h.move
      { s with readOffset := 0, readRemaining := 0, readBuffer := [] }
      (Nat.min_le_left ..) (Nat.min_le_right s.readRemaining op.size) (.inl rfl) rfl h.awaiting (by
        rw [hn, Nat.sub_self, List.take_zero]
        rfl)
    split
    · next hall =>
        have hrest : 0 < op.size - min s.readRemaining op.size := by omega
        rw [asyncRead_of_empty rfl hrest]
        exact (hready.readWsFrame rfl hrest).of_move rfl rfl hmove
    · next hall =>
        refine (hready.complete fun hread => ?_).of_move rfl rfl hmove
        show op.size - min s.readRemaining op.size = 0
        have hfull : ¬ min s.readRemaining op.size < op.size := fun hlt => hall ⟨hread, hlt⟩
        omega

end Stream

end Cfrp.Websocket

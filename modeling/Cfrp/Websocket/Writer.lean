import Cfrp.Websocket.Stream

/-!
# What a WebsocketStream writes

Every write and every pong becomes one frame, and the transport is handed whole frames,
in the order in which the strand took the jobs. `WriteInv` splits the jobs into those
handed over, those queued behind the one being written, and those still posted.
-/

namespace Cfrp.Websocket

open Lib
open Mux (maxMessageSize)

/-! ## The frame of a job -/

def shortestForm (len : Nat) : LengthForm :=
  if len ≤ 125 then .short else if len ≤ 65535 then .ext16 else .ext64

namespace Job

def payload : Job → List Byte
  | .write buffers => buffers.flatten
  | .pong payload => payload

/-- FIN with Binary, or with Pong. -/
def first : Job → Byte
  | .write _ => 0x82
  | .pong _ => 0x8A

def form : Job → LengthForm
  | .write buffers => shortestForm buffers.flatten.length
  | .pong _ => .short

def frame (isClient : Bool) (mask : Mask) (j : Job) : Frame where
  first := j.first
  form := j.form
  mask := if isClient then some mask else none
  payload := j.payload

/-- The sizes the stream is used with: `ReadWsFrame` lets no longer ping pass. -/
def Fits : Job → Prop
  | .write buffers => buffers.flatten.length ≤ maxMessageSize
  | .pong payload => payload.length ≤ 125

end Job

/-- The header `async_write` builds is that of its frame. -/
theorem writeHeader_eq (isClient : Bool) (mask : Mask) (buffers : List (List Byte)) :
    writeHeader isClient buffers.flatten.length =
      [((Job.write buffers).frame isClient mask).first,
        ((Job.write buffers).frame isClient mask).second] ++
        ((Job.write buffers).frame isClient mask).extended := by
  have hbit : ((Job.write buffers).frame isClient mask).maskBit =
      if isClient then 0x80 else 0x00 := by
    cases isClient with
    | true => rfl
    | false => rfl
  unfold writeHeader
  rw [Frame.second, hbit]
  simp only [Frame.lengthCode, Frame.extended, Job.frame, Job.form, Job.payload, Job.first,
    shortestForm]
  split
  · rfl
  split
  · rfl
  · rfl

/-- **One job, one frame.** -/
theorem Job.flatten_op (isClient : Bool) (mask : Mask) (j : Job) :
    (j.op isClient mask).buffers.flatten = (j.frame isClient mask).bytes := by
  cases j with
  | write buffers =>
      have hheader := writeHeader_eq isClient mask buffers
      rw [Frame.bytes, ← List.append_assoc, ← hheader]
      unfold Job.op writeOp
      cases isClient with
      | true => simp [Frame.body, Frame.maskBytes, Frame.masked, Job.frame, Job.payload]
      | false =>
          simp only [Bool.false_eq_true, if_false, List.flatten_cons]
          rw [Mux.flatten_filter_length]
          rfl
  | pong payload =>
      unfold Job.op pongOp
      cases isClient with
      | true =>
          have hor : UInt8.ofNat payload.length ||| 0x80 = 0x80 ||| UInt8.ofNat payload.length :=
            UInt8.or_comm _ _
          simp [Frame.bytes, Frame.body, Frame.maskBytes, Frame.masked, Frame.second,
            Frame.maskBit, Frame.lengthCode, Frame.extended, Job.frame, Job.payload, Job.first,
            Job.form, hor]
      | false =>
          simp [Frame.bytes, Frame.body, Frame.maskBytes, Frame.masked, Frame.second,
            Frame.maskBit, Frame.lengthCode, Frame.extended, Job.frame, Job.payload, Job.first,
            Job.form]

/-- A peer accepts the frames of a stream. -/
theorem Job.acceptable_frame (isClient : Bool) (mask : Mask) {j : Job} (h : j.Fits) :
    (j.frame isClient mask).Acceptable := by
  cases j with
  | write buffers =>
      have hsize : buffers.flatten.length ≤ 1048576 := h
      refine ⟨?_, h, fun hdata => ?_⟩
      · unfold Frame.Fits
        simp only [Job.frame, Job.form, shortestForm, Job.payload]
        split
        · next hform =>
            split at hform
            · next hle => exact hle
            · split at hform
              · cases hform
              · cases hform
        · next hform =>
            split at hform
            · cases hform
            · split at hform
              · next hle => exact hle
              · cases hform
        · omega
      · have hbinary : ((Job.write buffers).frame isClient mask).isData = true := by
          show decide ((0x82 : Byte) &&& 0x0F < 8) = true
          decide
        rw [hbinary] at hdata
        cases hdata
  | pong payload =>
      have hsize : payload.length ≤ 125 := h
      refine ⟨hsize, ?_, fun _ => ⟨.inr ?_, ?_, rfl⟩⟩
      · show payload.length ≤ 1048576
        omega
      · show (0x8A : Byte) &&& 0x0F = 0x0A
        decide
      · show decide ((0x8A : Byte) &&& 0x80 ≠ 0) = true
        decide

/-- The bytes written by the user among the jobs. -/
def writtenBy (js : List Job) : List Byte :=
  js.flatMap fun | .write buffers => buffers.flatten | .pong _ => []

def pongsBy (js : List Job) : List (List Byte) :=
  js.filterMap fun | .write _ => none | .pong payload => some payload

/-- Jobs that have run, each with the mask it drew. -/
abbrev Ran := List (Job × Mask)

def frames (isClient : Bool) (js : Ran) : List Frame := js.map fun p => p.1.frame isClient p.2

theorem isData_frame (isClient : Bool) (mask : Mask) (j : Job) :
    (j.frame isClient mask).isData = match j with | .write _ => true | .pong _ => false := by
  cases j with
  | write buffers =>
      show decide ((0x82 : Byte) &&& 0x0F < 8) = true
      decide
  | pong payload =>
      show decide ((0x8A : Byte) &&& 0x0F < 8) = false
      decide

theorem payloads_frames (isClient : Bool) (js : Ran) :
    payloads (frames isClient js) = writtenBy (js.map Prod.fst) := by
  induction js with
  | nil => rfl
  | cons p js ih =>
      obtain ⟨j, mask⟩ := p
      have hdata := isData_frame isClient mask j
      unfold payloads frames writtenBy at ih ⊢
      rw [List.map_cons, List.map_cons, List.filter_cons]
      cases j with
      | write buffers =>
          rw [if_pos hdata, List.flatMap_cons, List.flatMap_cons, ih]
          rfl
      | pong payload =>
          rw [if_neg (by rw [hdata]; exact Bool.false_ne_true), List.flatMap_cons, ih]
          rfl

/-! ## The write queue -/

namespace Stream

variable {s s' : Stream} {sent waiting : Ran} {n : Nat}

/-- Where the writing is. -/
structure Writing where
  writeQueue : List WriteOp
  isWriting : Bool
  completing : Completing
  looking : Bool

def writing (s : Stream) : Writing := ⟨s.writeQueue, s.isWriting, s.completing, s.looking⟩

/-- `sent` has been handed over, its last job being written when `n` is 1; `waiting` is queued
behind it. -/
structure Queued (s : Stream) (sent waiting : Ran) (n : Nat) : Prop where
  accepted : s.accepted = (sent ++ waiting).map Prod.fst ++ s.posted
  handed : s.handed = wire (frames s.isClient sent)
  queue : if n = 0 then s.writeQueue = waiting.map fun p => p.1.op s.isClient p.2
    else ∃ op, s.writeQueue = op :: waiting.map fun p => p.1.op s.isClient p.2

structure WriteInv (s : Stream) (sent waiting : Ran) (n : Nat) : Prop where
  queued : Queued s sent waiting n
  turn : Turn s.isWriting s.completing n

/-- When nobody is left to look at the queue, it is empty. -/
def Attended (s : Stream) : Prop :=
  s.looking = false → s.completing = .ending ∨ s.isWriting = false → s.writeQueue = []

theorem writeInv_init (isClient : Bool) : WriteInv (init isClient) [] [] 0 where
  queued := ⟨rfl, rfl, rfl⟩
  turn := .free

theorem WriteInv.post (h : WriteInv s sent waiting n) (j : Job) :
    WriteInv (s.post j) sent waiting n := by
  refine ⟨{ h.queued with accepted := ?_ }, h.turn⟩
  show s.accepted ++ [j] = _ ++ (s.posted ++ [j])
  rw [h.queued.accepted, List.append_assoc]

theorem Attended.congr (h : Attended s) (heq : s'.writing = s.writing) : Attended s' := by
  have hqueue : s'.writeQueue = s.writeQueue := congrArg Writing.writeQueue heq
  have hwriting : s'.isWriting = s.isWriting := congrArg Writing.isWriting heq
  have hcompleting : s'.completing = s.completing := congrArg Writing.completing heq
  have hlooking : s'.looking = s.looking := congrArg Writing.looking heq
  rw [Attended, hqueue, hwriting, hcompleting, hlooking]
  exact h

/-- While a write is outstanding or its handler runs, somebody will look at the queue. -/
theorem attended_of_writing (hw : s.isWriting = true) (hnot : s.completing ≠ .ending) :
    Attended s := by
  rintro - (hend | hend)
  · exact absurd hend hnot
  · rw [hw] at hend
    cases hend

/-- The queue's front is handed over. -/
theorem Queued.begin {p : Job × Mask} (h : Queued s sent (p :: waiting) 0)
    (hidle : s.completing = .idle) :
    WriteInv s.doWrite (sent ++ [p]) waiting 1 ∧ Attended s.doWrite := by
  obtain ⟨j, mask⟩ := p
  have hqueue := h.queue
  rw [if_pos rfl, List.map_cons] at hqueue
  have hwire : s.handed ++ (j.op s.isClient mask).buffers.flatten =
      wire (frames s.isClient (sent ++ [(j, mask)])) := by
    rw [Job.flatten_op, frames, List.map_append, wire_append, ← frames, ← h.handed]
    simp [wire]
  have hdo : s.doWrite = { s with
      isWriting := true, handed := s.handed ++ (j.op s.isClient mask).buffers.flatten } := by
    rw [doWrite, hqueue]
  rw [hdo]
  refine ⟨⟨⟨?_, hwire, ⟨_, hqueue⟩⟩, ?_⟩, attended_of_writing rfl fun hend => ?_⟩
  · show s.accepted = _
    rw [h.accepted, List.append_assoc]
    rfl
  · show Turn true s.completing 1
    rw [hidle]
    exact .writing
  · have hnot : s.completing = .ending := hend
    rw [hidle] at hnot
    cases hnot

/-- A frame is queued. -/
theorem WriteInv.run (h : WriteInv s sent waiting n) {j : Job} {rest : List Job} (mask : Mask)
    (hposted : s.posted = j :: rest) :
    WriteInv { s with
      posted := rest, writeQueue := s.writeQueue ++ [j.op s.isClient mask], looking := true }
      sent (waiting ++ [(j, mask)]) n := by
  refine ⟨⟨?_, h.queued.handed, ?_⟩, h.turn⟩
  · show s.accepted = _
    rw [h.queued.accepted, hposted]
    simp
  · have hqueue := h.queued.queue
    show if n = 0 then s.writeQueue ++ [_] = _ else ∃ op, s.writeQueue ++ [_] = _
    split
    · rename_i hnone
      rw [if_pos hnone] at hqueue
      rw [hqueue, List.map_append]
      rfl
    · rename_i hone
      rw [if_neg hone] at hqueue
      obtain ⟨op, hqueue⟩ := hqueue
      refine ⟨op, ?_⟩
      rw [hqueue, List.map_append]
      rfl

/-- Only the handler of a write, or the strand when there is none, begins the next. -/
theorem WriteInv.look (h : WriteInv s sent waiting n) :
    (∃ sent waiting n, WriteInv s.look sent waiting n) ∧
      (s.noticed .look = true → Attended s.look) := by
  have hqueued : Queued { s with looking := false } sent waiting n :=
    ⟨h.queued.accepted, h.queued.handed, h.queued.queue⟩
  unfold Stream.look
  split
  · rename_i hw
    refine ⟨⟨sent, waiting, n, hqueued, h.turn⟩, fun hok _ hend => ?_⟩
    rw [noticed, Bool.or_eq_true, List.isEmpty_iff, decide_eq_true_eq] at hok
    refine hok.resolve_left fun hne => ?_
    rcases hend with hend | hend
    · exact hne hend
    · have hidle : s.isWriting = false := hend
      rw [hw] at hidle
      cases hidle
  · rename_i hw
    have hfree : s.isWriting = false := Bool.not_eq_true _ ▸ hw
    have hturn := h.turn
    rw [hfree] at hturn
    obtain ⟨hidle, rfl⟩ := hturn.of_free
    cases waiting with
    | nil =>
        have hnil : s.writeQueue = [] := hqueued.queue
        have hdo : { s with looking := false }.doWrite = { s with looking := false } := by
          rw [doWrite]
          split
          · rfl
          · rename_i heq
            have heq' : s.writeQueue = _ := heq
            rw [hnil] at heq'
            cases heq'
        rw [hdo]
        exact ⟨⟨sent, [], 0, hqueued, h.turn⟩, fun _ _ _ => hnil⟩
    | cons p waiting =>
        obtain ⟨hinv, hattended⟩ := hqueued.begin hidle
        exact ⟨⟨_, _, _, hinv⟩, fun _ => hattended⟩

/-- The frame that was written is taken off the queue. -/
theorem WriteInv.onWritten (h : WriteInv s sent waiting n) {op : WriteOp} {queue : List WriteOp}
    (ok : Bool) (hqueue : s.writeQueue = op :: queue) (hw : s.isWriting = true)
    (hidle : s.completing = .idle) :
    WriteInv (s.onWritten op queue ok) sent waiting 0 ∧ Attended (s.onWritten op queue ok) := by
  have hturn := h.turn
  rw [hw, hidle] at hturn
  have hbusy := h.queued.queue
  rw [if_neg (by rw [hturn.of_busy]; exact Nat.one_ne_zero)] at hbusy
  obtain ⟨op', hbusy⟩ := hbusy
  rw [hqueue] at hbusy
  obtain ⟨-, rfl⟩ := List.cons.inj hbusy
  refine ⟨⟨⟨h.queued.accepted, h.queued.handed, rfl⟩, ?_⟩,
    attended_of_writing hw fun hend => (by cases hend)⟩
  show Turn s.isWriting .handling 0
  rw [hw]
  exact .handling

theorem WriteInv.proceed (h : WriteInv s sent waiting n) (hhandling : s.completing = .handling) :
    (∃ sent waiting n, WriteInv s.proceed sent waiting n) ∧ Attended s.proceed := by
  obtain ⟨hw, rfl⟩ := h.turn.of_completing (by rw [hhandling]; decide)
  have hqueued : Queued { s with completing := .idle } sent waiting 0 :=
    ⟨h.queued.accepted, h.queued.handed, h.queued.queue⟩
  unfold Stream.proceed
  cases waiting with
  | nil =>
      have hnil : s.writeQueue = [] := hqueued.queue
      rw [if_neg fun hne => hne hnil]
      refine ⟨⟨sent, [], 0, ⟨h.queued.accepted, h.queued.handed, h.queued.queue⟩, ?_⟩,
        fun _ _ => hnil⟩
      show Turn s.isWriting .ending 0
      rw [hw]
      exact .ending
  | cons p waiting =>
      have hcons : s.writeQueue = _ :: _ := hqueued.queue
      rw [if_pos (by rw [hcons]; exact List.cons_ne_nil _ _)]
      obtain ⟨hinv, hattended⟩ := hqueued.begin rfl
      exact ⟨⟨_, _, _, hinv⟩, hattended⟩

/-- A frame that has come since the handler found the queue empty stays. -/
theorem WriteInv.reset (h : WriteInv s sent waiting n) (hending : s.completing = .ending) :
    WriteInv s.reset sent waiting 0 ∧ (Attended s → Attended s.reset) := by
  obtain ⟨-, rfl⟩ := h.turn.of_completing (by rw [hending]; decide)
  exact ⟨⟨⟨h.queued.accepted, h.queued.handed, h.queued.queue⟩, .free⟩,
    fun hattended hlooking _ => hattended hlooking (Or.inl hending)⟩

end Stream

end Cfrp.Websocket

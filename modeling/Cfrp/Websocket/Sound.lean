import Cfrp.Websocket.Reader

/-!
# Both sides of a WebsocketStream

`Sound` says of both sides what holds whatever comes from the transport: the write queue
holds whole frames, pongs are short, and a read is outstanding exactly while `ReadWsFrame`
awaits something.
-/

namespace Cfrp.Websocket

open Lib
open Mux (maxMessageSize)

namespace Stream

variable {s s' : Stream} {op : ReadOp} {sent waiting : Ran} {n : Nat}

/-! ## Both sides of a stream -/

theorem WriteInv.congr (h : WriteInv s sent waiting n) (hclient : s'.isClient = s.isClient)
    (hposted : s'.posted = s.posted) (hwriting : s'.writing = s.writing)
    (haccepted : s'.accepted = s.accepted) (hhanded : s'.handed = s.handed) :
    WriteInv s' sent waiting n := by
  have hqueue : s'.writeQueue = s.writeQueue := congrArg Writing.writeQueue hwriting
  have hflag : s'.isWriting = s.isWriting := congrArg Writing.isWriting hwriting
  have hcompleting : s'.completing = s.completing := congrArg Writing.completing hwriting
  refine ⟨⟨?_, ?_, ?_⟩, ?_⟩
  · rw [haccepted, hposted]
    exact h.queued.accepted
  · rw [hhanded, hclient]
    exact h.queued.handed
  · rw [hqueue, hclient]
    exact h.queued.queue
  · rw [hflag, hcompleting]
    exact h.turn

/-- The write side, and what it relies on. -/
structure Writes (s : Stream) : Prop where
  queue : ∃ sent waiting n, WriteInv s sent waiting n
  pongs : ∀ payload, Job.pong payload ∈ s.accepted → payload.length ≤ 125

structure Sound (s : Stream) : Prop where
  writes : Writes s
  reader : ReaderInv s

theorem sound_init (isClient : Bool) : Sound (init isClient) where
  writes := ⟨⟨[], [], 0, writeInv_init isClient⟩, fun _ hp => by cases hp⟩
  reader := readerInv_init isClient

theorem Writes.post (h : Writes s) {j : Job}
    (hj : ∀ payload, j = .pong payload → payload.length ≤ 125) : Writes (s.post j) where
  queue := by
    obtain ⟨sent, waiting, n, hw⟩ := h.queue
    exact ⟨sent, waiting, n, hw.post j⟩
  pongs p hp := by
    rcases List.mem_append.mp hp with hp | hp
    · exact h.pongs p hp
    · exact hj p (List.mem_singleton.mp hp).symm

theorem Writes.congr (h : Writes s) (hclient : s'.isClient = s.isClient)
    (hposted : s'.posted = s.posted) (hwriting : s'.writing = s.writing)
    (haccepted : s'.accepted = s.accepted) (hhanded : s'.handed = s.handed) : Writes s' where
  queue := by
    obtain ⟨sent, waiting, n, hw⟩ := h.queue
    exact ⟨sent, waiting, n, hw.congr hclient hposted hwriting haccepted hhanded⟩
  pongs := by
    rw [haccepted]
    exact h.pongs

theorem Writes.of_outside (h : Writes s) (heq : s'.outside = s.outside) : Writes s' :=
  h.congr (congrArg Outside.isClient heq) (congrArg Outside.posted heq)
    (congrArg Outside.writing heq) (congrArg Outside.accepted heq) (congrArg Outside.handed heq)

theorem Answered.sound (h : Answered s op s') (hw : Writes s) : Sound s' :=
  ⟨hw.of_outside h.outside, h.inv⟩

/-- The stream while the handler of a completed read runs. -/
structure Running (s : Stream) (op : ReadOp) : Prop where
  ready : Ready s op
  empty : s.readRemaining = 0
  readOp : s.readOp = some op
  size : 0 < op.size

theorem ReaderInv.running (h : ReaderInv s) {a : Awaiting} (ha : s.awaiting = some a)
    (input : List Byte) : ∃ op, s.readOp = some op ∧
      Running { s with input, awaiting := none } op := by
  have hasking := h.asking
  rw [ha] at hasking
  obtain ⟨op, hop⟩ := Option.isSome_iff_exists.mp hasking.symm
  obtain ⟨hok, hsize⟩ := h.op op hop
  exact ⟨op, hop, ⟨h.buffered, h.reads, hok, rfl⟩,
    h.empty (by rw [hop]; exact Option.some_ne_none _), hop, hsize⟩

/-- A running read that asks the transport for more. -/
theorem Running.ask (h : Running s op) {a : Awaiting} (ha : a.Short) :
    ReaderInv { s with awaiting := some a } where
  buffered := h.ready.buffered
  asking := by
    show true = s.readOp.isSome
    rw [h.readOp]
    rfl
  empty _ := h.empty
  op op' hop := by
    have hop : s.readOp = some op' := hop
    rw [h.readOp] at hop
    obtain rfl := Option.some.inj hop
    exact ⟨h.ready.op, h.size⟩
  reads := h.ready.reads
  short a' ha' := by
    obtain rfl := Option.some.inj ha'
    exact ha

theorem Running.fail (h : Running s op) {ec : ReadError} (hec : ec ≠ .success) :
    ReaderInv (s.fail ec) := by
  have hidle : (s.complete op ec).awaiting = none := h.ready.awaiting
  rw [Stream.fail, h.readOp]
  refine ⟨h.ready.buffered, ?_, fun hop => absurd rfl hop, (fun _ hop => by cases hop),
    fun r hr => ?_, fun a ha => ?_⟩
  · show (s.complete op ec).awaiting.isSome = false
    rw [hidle]
    rfl
  · rcases List.mem_append.mp hr with hr | hr
    · exact h.ready.reads r hr
    · rw [List.mem_singleton.mp hr]
      exact ⟨h.ready.op, fun hf => absurd hf hec⟩
  · have ha : (s.complete op ec).awaiting = some a := ha
    rw [hidle] at ha
    cases ha

theorem Running.close (h : Running s op) : Running s.close op :=
  ⟨⟨h.ready.buffered, h.ready.reads, h.ready.op, h.ready.awaiting⟩, h.empty, h.readOp, h.size⟩

theorem Running.post (h : Running s op) (j : Job) : Running (s.post j) op :=
  ⟨⟨h.ready.buffered, h.ready.reads, h.ready.op, h.ready.awaiting⟩, h.empty, h.readOp, h.size⟩

theorem Running.nextFrame (h : Running s op) : Answered s op s.nextFrame := by
  rw [Stream.nextFrame, h.readOp]
  exact h.ready.readWsFrame h.empty h.size

/-- A data frame is put into `read_buffer_`, its mask still in front. -/
def buffer (s : Stream) (front payload : List Byte) : Stream :=
  { s with
    readBuffer := front ++ payload, readOffset := front.length
    readRemaining := payload.length }

theorem leftover_buffer (s : Stream) (front payload : List Byte) :
    (s.buffer front payload).leftover = payload := by
  show ((front ++ payload).drop front.length).take payload.length = payload
  rw [List.drop_left, List.take_length]

theorem Running.onFrame (h : Running s op) (front payload : List Byte) :
    Answered (s.buffer front payload) op ((s.buffer front payload).onFrame payload.length) := by
  have hready : Ready (s.buffer front payload) op := by
    refine ⟨.inr ?_, h.ready.reads, h.ready.op, h.ready.awaiting⟩
    show front.length + payload.length ≤ (front ++ payload).length
    exact Nat.le_of_eq List.length_append.symm
  exact hready.onFrame h.readOp h.size

/-- The bytes of the payload buffer, unmasked. -/
def unmasked (masked : Bool) (data : List Byte) : List Byte :=
  if masked then (Mask.ofBytes data).apply (data.drop 4) else data

theorem length_unmasked {masked : Bool} {len : Nat} {data : List Byte}
    (hdata : data.length = len + if masked then 4 else 0) :
    (unmasked masked data).length = len := by
  unfold unmasked
  cases masked with
  | true =>
      have hlen : data.length = len + 4 := hdata
      simp [hlen]
  | false => exact hdata

theorem onRead_data {opcode : Byte} {masked : Bool} {len : Nat} {data : List Byte}
    (hdata : data.length = len + if masked then 4 else 0)
    (hopcode : opcode ≠ 0x08 ∧ opcode ≠ 0x09 ∧ opcode ≠ 0x0A) :
    s.onRead data (.payload opcode masked len) =
      (s.buffer (if masked then data.take 4 else []) (unmasked masked data)).onFrame
        (unmasked masked data).length := by
  have hlen := length_unmasked hdata
  have hfront : (if masked then data.take 4 else []).length = if masked then 4 else 0 := by
    cases masked with
    | true =>
        have hlen : data.length = len + 4 := hdata
        simp [hlen]
    | false => rfl
  unfold Stream.onRead
  simp only
  rw [if_neg hopcode.1, if_neg hopcode.2.1, if_neg hopcode.2.2, hlen, buffer, hfront, hlen]
  rfl

theorem Writes.fail (h : Writes s) (hr : Running s op) {ec : ReadError} (hec : ec ≠ .success) :
    Sound (s.fail ec) := by
  refine ⟨h.of_outside ?_, hr.fail hec⟩
  rw [Stream.fail, hr.readOp]
  rfl

theorem Writes.refuse (h : Writes s) (hr : Running s op) {ec : ReadError} (hec : ec ≠ .success) :
    Sound (s.close.fail ec) := by
  have hclose : Writes s.close := h.congr rfl rfl rfl rfl rfl
  exact hclose.fail hr.close hec

theorem Writes.nextStep (h : Writes s) (hr : Running s op) {opcode : Byte} {len : Nat}
    (masked : Bool) (hshort : 0x08 ≤ opcode → len ≤ 125) :
    Sound (s.nextStep opcode masked len) := by
  unfold Stream.nextStep
  split
  · exact h.refuse hr (by decide)
  · exact ⟨h.of_outside rfl, hr.ask hshort⟩

/-- Whatever has been read, both sides stay sound. -/
theorem Writes.onRead (h : Writes s) (hr : Running s op) {a : Awaiting} (ha : a.Short)
    {data : List Byte} (hdata : data.length = a.size) : Sound (s.onRead data a) := by
  cases a with
  | header =>
      unfold Stream.onRead
      simp only
      split
      · exact h.refuse hr (by decide)
      next hcontrol =>
      -- a control frame that passes says its length at once
      have hlong {c : Byte} (hc : data.getD 1 0 &&& 0x7F = c) (hlarge : 125 < c) :
          data.getD 0 0 &&& 0x0F < 0x08 := by
        rw [← UInt8.not_le]
        intro hge
        refine hcontrol ⟨hge, .inr ?_⟩
        rw [hc]
        exact hlarge
      split
      · next hc => exact ⟨h.of_outside rfl, hr.ask (hlong hc (by decide))⟩
      split
      · next hc => exact ⟨h.of_outside rfl, hr.ask (hlong hc (by decide))⟩
      · refine h.nextStep hr _ fun hge => ?_
        by_contra hlarge
        have hlt : (125 : Byte) < data.getD 1 0 &&& 0x7F :=
          UInt8.lt_iff_toNat_lt.mpr (Nat.lt_of_not_le hlarge)
        exact UInt8.not_lt.mpr hge (hlong rfl hlt)
  | ext16 opcode masked =>
      exact h.nextStep hr _ fun hge => absurd ha (UInt8.not_lt.mpr hge)
  | ext64 opcode masked =>
      exact h.nextStep hr _ fun hge => absurd ha (UInt8.not_lt.mpr hge)
  | payload opcode masked len =>
      by_cases h8 : opcode = 0x08
      · unfold Stream.onRead
        simp only
        rw [if_pos h8]
        exact h.refuse hr (by decide)
      by_cases h9 : opcode = 0x09
      · unfold Stream.onRead
        simp only
        rw [if_neg h8, if_pos h9]
        have hpong : Writes (s.post (.pong (unmasked masked data))) := by
          refine h.post fun payload heq => ?_
          obtain rfl := Job.pong.inj heq
          rw [length_unmasked hdata]
          exact ha (by rw [h9]; decide)
        exact (hr.post _).nextFrame.sound hpong
      by_cases h10 : opcode = 0x0A
      · unfold Stream.onRead
        simp only
        rw [if_neg h8, if_neg h9, if_pos h10]
        exact hr.nextFrame.sound h
      · rw [onRead_data hdata ⟨h8, h9, h10⟩]
        exact (hr.onFrame _ _).sound (h.of_outside rfl)

theorem ReaderInv.idle (h : ReaderInv s) (hidle : s.readOp = none) : s.awaiting = none := by
  have hasking := h.asking
  rw [hidle] at hasking
  exact Option.isNone_iff_eq_none.mp (Option.isSome_eq_false_iff.mp hasking)

/-- A new read. -/
theorem ReaderInv.start (h : ReaderInv s) (hidle : s.readOp = none) (all : Bool) (n : Nat) :
    Answered s { all, want := n, size := n } (if all then s.asyncRead { all, want := n, size := n }
      else s.asyncReadSome { all, want := n, size := n }) := by
  have hready : Ready s { all, want := n, size := n } :=
    ⟨h.buffered, h.reads, Nat.zero_add n, h.idle hidle⟩
  cases all with
  | true => exact hready.asyncRead
  | false => exact hready.asyncReadSome rfl

/-! ## Every step -/

/-- What the strand and the handlers of the transport's writes do. -/
def Event.writing : Event → Bool
  | .run _ | .look | .written _ | .proceed | .reset => true
  | _ => false

/-- They do not touch the read side. -/
theorem onWriteSide {e : Event} (he : e.writing = true) (hs : step s e = some s') :
    ∃ posted writeQueue isWriting completing looking handed writes,
      s' = { s with posted, writeQueue, isWriting, completing, looking, handed, writes } := by
  have hdo : ∀ s : Stream, ∃ isWriting handed, s.doWrite = { s with isWriting, handed } := by
    intro s
    rw [doWrite]
    split
    · exact ⟨s.isWriting, s.handed, rfl⟩
    · exact ⟨_, _, rfl⟩
  cases e with
  | run mask =>
      rw [step] at hs
      split at hs
      · cases hs
        exact ⟨_, _, s.isWriting, s.completing, _, s.handed, s.writes, rfl⟩
      · cases hs
  | look =>
      rw [step, Option.ite_none_right_eq_some] at hs
      obtain rfl := Option.some.inj hs.2
      unfold Stream.look
      split
      · exact ⟨s.posted, s.writeQueue, s.isWriting, s.completing, _, s.handed, s.writes, rfl⟩
      · obtain ⟨_, _, heq⟩ := hdo { s with looking := false }
        exact ⟨s.posted, s.writeQueue, _, s.completing, _, _, s.writes, heq⟩
  | written ok =>
      rw [step] at hs
      split at hs
      · rw [Option.ite_none_right_eq_some] at hs
        obtain rfl := Option.some.inj hs.2
        exact ⟨s.posted, _, s.isWriting, _, s.looking, s.handed, _, rfl⟩
      · cases hs
  | proceed =>
      rw [step, Option.ite_none_right_eq_some] at hs
      obtain rfl := Option.some.inj hs.2
      unfold Stream.proceed
      split
      · obtain ⟨_, _, heq⟩ := hdo { s with completing := .idle }
        exact ⟨s.posted, s.writeQueue, _, _, s.looking, _, s.writes, heq⟩
      · exact ⟨s.posted, s.writeQueue, s.isWriting, _, s.looking, s.handed, s.writes, rfl⟩
  | reset =>
      rw [step, Option.ite_none_right_eq_some] at hs
      obtain rfl := Option.some.inj hs.2
      exact ⟨s.posted, s.writeQueue, _, _, s.looking, s.handed, s.writes, rfl⟩
  | write | read | feed | readDone | readFail => cases he

/-- A step of the write side. -/
theorem Writes.step (h : Writes s) {e : Event} (he : e.writing = true) (hs : step s e = some s') :
    Writes s' ∧ (Attended s → s.noticed e = true → Attended s') := by
  obtain ⟨sent, waiting, n, hw⟩ := h.queue
  have hpongs : ∀ payload, Job.pong payload ∈ s'.accepted → payload.length ≤ 125 := by
    obtain ⟨_, _, _, _, _, _, _, rfl⟩ := onWriteSide he hs
    exact h.pongs
  suffices hqueue : (∃ sent waiting n, WriteInv s' sent waiting n) ∧
      (Attended s → s.noticed e = true → Attended s') from ⟨⟨hqueue.1, hpongs⟩, hqueue.2⟩
  cases e with
  | run mask =>
      rw [Stream.step] at hs
      split at hs
      · rename_i hposted
        cases hs
        exact ⟨⟨_, _, _, hw.run mask hposted⟩, fun _ _ hlooking => (by cases hlooking)⟩
      · cases hs
  | look =>
      rw [Stream.step, Option.ite_none_right_eq_some] at hs
      obtain rfl := Option.some.inj hs.2
      exact ⟨hw.look.1, fun _ hnoticed => hw.look.2 hnoticed⟩
  | written ok =>
      rw [Stream.step] at hs
      split at hs
      · rename_i hqueue
        rw [Option.ite_none_right_eq_some] at hs
        obtain ⟨⟨hwriting, hidle⟩, hs⟩ := hs
        obtain rfl := Option.some.inj hs
        obtain ⟨hinv, hattended⟩ := hw.onWritten ok hqueue hwriting hidle
        exact ⟨⟨_, _, _, hinv⟩, fun _ _ => hattended⟩
      · cases hs
  | proceed =>
      rw [Stream.step, Option.ite_none_right_eq_some] at hs
      obtain ⟨hhandling, hs⟩ := hs
      obtain rfl := Option.some.inj hs
      obtain ⟨hinv, hattended⟩ := hw.proceed hhandling
      exact ⟨hinv, fun _ _ => hattended⟩
  | reset =>
      rw [Stream.step, Option.ite_none_right_eq_some] at hs
      obtain ⟨hending, hs⟩ := hs
      obtain rfl := Option.some.inj hs
      obtain ⟨hinv, hattended⟩ := hw.reset hending
      exact ⟨⟨_, _, _, hinv⟩, fun hbefore _ => hattended hbefore⟩
  | write | read | feed | readDone | readFail => cases he

theorem step_sound (h : Sound s) {e : Event} (hs : step s e = some s') : Sound s' := by
  cases e with
  | write buffers =>
      obtain rfl := Option.some.inj hs
      exact ⟨h.writes.post (fun _ heq => by cases heq), { h.reader with }⟩
  | run | look | written | proceed | reset =>
      refine ⟨(h.writes.step rfl hs).1, ?_⟩
      obtain ⟨_, _, _, _, _, _, _, rfl⟩ := onWriteSide rfl hs
      exact { h.reader with }
  | read all n =>
      rw [step] at hs
      split at hs
      · cases hs
      next hidle =>
      obtain rfl := Option.some.inj hs
      exact (h.reader.start (Option.not_isSome_iff_eq_none.mp hidle) all n).sound h.writes
  | feed bytes =>
      rw [step] at hs
      split at hs
      · cases hs
      obtain rfl := Option.some.inj hs
      exact ⟨h.writes.congr rfl rfl rfl rfl rfl, { h.reader with }⟩
  | readDone =>
      rw [step] at hs
      split at hs
      · cases hs
      next a ha =>
      split at hs
      · cases hs
      next hinput =>
      obtain rfl := Option.some.inj hs
      rw [not_or, Nat.not_lt] at hinput
      obtain ⟨op, -, hr⟩ := h.reader.running ha (s.input.drop a.size)
      -- what the frame is answered with is posted, so the reader touches the write side
      have hw : Writes { s with input := s.input.drop a.size, awaiting := none } :=
        h.writes.congr rfl rfl rfl rfl rfl
      exact hw.onRead hr (h.reader.short a ha) (List.length_take_of_le hinput.2)
  | readFail =>
      rw [step] at hs
      split at hs
      · next ha =>
          obtain rfl := Option.some.inj hs
          obtain ⟨a, ha⟩ := Option.isSome_iff_exists.mp ha
          obtain ⟨op, -, hr⟩ := h.reader.running ha s.input
          have hw : Writes { s with awaiting := none, down := true } :=
            h.writes.congr rfl rfl rfl rfl rfl
          exact hw.fail hr.close (by decide)
      · cases hs

theorem sound_of_reach {isClient : Bool} (h : Reach step anyStep (init isClient) s) : Sound s :=
  h.invariant (sound_init isClient) fun _ _ _ hi _ hs => step_sound hi hs

end Stream

end Cfrp.Websocket

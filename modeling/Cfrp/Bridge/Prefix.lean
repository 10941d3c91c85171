import Cfrp.Bridge.CutFrame
import Cfrp.Bridge.Sequential

/-!
# What comes out of a tunnel

As long as the receiving bridge runs, what the sending one has read is, in order, what the
receiving one has written, what it holds, and the packets that lie before it: in the handler
that is to run, in the read queue of its stream, on the way, and in the write that is still to
be sent. `Carried` says so of one direction. Of a write that has failed only some of the packet
may be on the way, so there the rest is left open: nothing is sent behind it any more.
-/

namespace Cfrp

open Lib Mux Bridge

namespace Tunnel

/-- Where direction 2 is among the frames. -/
def Bridge.awaiting (b : Bridge) : Awaiting :=
  match b.inward with
  | .body buffer compressed => .payload buffer.length compressed
  | _ => .header

/-- What direction 2 has taken off the work stream and not written. -/
def Bridge.inHand (b : Bridge) : List Byte :=
  match b.inward with
  | .limited data => data
  | .writing left => left
  | _ => []

/-- What direction 1 has read and not given to the work stream. -/
def Bridge.heldBack (b : Bridge) : List Byte :=
  match b.outward with
  | .limited data _ => data
  | _ => []

/-- What is on its way from `a` to `b`. -/
def way (a : Side) (wire : List Frame) (b : Side) : List Arrival :=
  b.inbox ++ wire.flatMap Frame.arrivals ++ (a.queue.map Prod.fst).flatMap Frame.arrivals

/-- What `b` has still to take. -/
def ahead (a : Side) (wire : List Frame) (b : Side) : List Byte :=
  delivered b.posted ++ b.stream.unread ++ dataOf (way a wire b)

/-- Some bytes are the packets for `pending`, from where the reader is in them. -/
structure Packets (z : Zstd) (useCompression : Bool) (level : Int) (awaiting : Awaiting)
    (bytes : List Byte) (pending : List (List Byte)) : Prop where
  framed : useCompression = true →
    Unframer.InStep bridgeFraming z true level { stream := bytes, awaiting } pending
  plain : useCompression = false → bytes = pending.flatten

/-- What is still to be sent, if that is known. -/
def Rest (a : Side) (rest : List Byte) : Prop :=
  failures a.posted = 0 → a.bridge.outward ≠ .stopped → rest = a.stream.pendingBytes

/-- The direction from `a` to `b`. -/
structure Carried (z : Zstd) (a : Side) (wire : List Frame) (b : Side) : Prop where
  same : a.bridge.useCompression = b.bridge.useCompression
  within : MuxStream.WithinFront b.stream.readQueue b.stream.readQueueOffset
  header : b.bridge.header2.length = bridgeFraming.width
  silent : ∀ c ∈ b.posted, c.handler = writeHandler → c.bytes = []
  full : ∀ c ∈ b.posted, c.handler ≠ writeHandler → c.ec = .success →
    ∀ n, b.bridge.awaits = some (n, true) → c.bytes.length = n
  inOrder : ∃ rest pending, Rest a rest ∧
    Packets z b.bridge.useCompression a.bridge.compressionLevel b.bridge.awaiting
      (ahead a wire b ++ rest) pending ∧
    b.bridge.rawWritten ++ b.bridge.inHand ++ pending.flatten ++ a.bridge.heldBack =
      a.bridge.rawRead

variable {z : Zstd} {t t' : Tunnel} {a a' b b' : Side} {wire : List Frame} {m : MuxStream}
  {r : MuxStream × List Effect}

theorem Carried.prefix_rawRead (h : Carried z a wire b) :
    b.bridge.rawWritten <+: a.bridge.rawRead := by
  obtain ⟨rest, pending, -, -, htotal⟩ := h.inOrder
  rw [← htotal, List.append_assoc, List.append_assoc]
  exact List.prefix_append _ _

/-! ## The sender -/

theorem way_perform (s : Side) (r : MuxStream × List Effect) :
    way (s.perform r) wire b = way s wire b ++ told r.2 := by
  rw [way, way, ← told_sends]
  simp [Side.perform]

/-- `do_write` moves bytes from the pending write to the session. -/
theorem Carried.sender_doWrite (hs : Side.Sequential z { a with stream := m })
    (h : Carried z { a with stream := m } wire b) : Carried z (a.perform m.doWrite) wire b := by
  obtain ⟨rest, pending, hrest, hpackets, htotal⟩ := h.inOrder
  have hwrote := m.doWrite_wrote
  have hbytes := hwrote.bytes hs.opened.session
  have hsettles := doWrite_settles hs.opened.session hs.writing.handlers
  obtain ⟨rest', hsplit, hrest'⟩ : ∃ rest', rest = dataOf (told m.doWrite.2) ++ rest' ∧
      Rest (a.perform m.doWrite) rest' := by
    have hfailures : failures (a.perform m.doWrite).posted = failures a.posted := by
      show failures (a.posted ++ _) = _
      rw [failures_append, hsettles.failures, Nat.add_zero]
    by_cases hknown : failures a.posted = 0 ∧ a.bridge.outward ≠ .stopped
    · refine ⟨m.doWrite.1.pendingBytes, ?_, fun _ _ => rfl⟩
      rw [hrest hknown.1 hknown.2]
      exact hbytes
    · -- the write has failed, so there is none
      have hcount := hs.writing.count
      have hnone : m.pendingWrites = [] := by
        refine List.length_eq_zero_iff.mp ?_
        show ({ a with stream := m } : Side).stream.pendingWrites.length = 0
        rw [not_and_or, not_not] at hknown
        rcases hknown with hfailed | hstopped
        · have hfailed' : failures ({ a with stream := m } : Side).posted ≠ 0 := hfailed
          split at hcount <;> omega
        · have hout : ({ a with stream := m } : Side).bridge.outward = .stopped := hstopped
          rw [if_neg (by rw [hout]; simp)] at hcount
          omega
      have hnil : m.pendingBytes = [] := by rw [MuxStream.pendingBytes, hnone]; rfl
      rw [hnil] at hbytes
      rw [(List.append_eq_nil_iff.mp hbytes.symm).1]
      refine ⟨rest, rfl, fun hf ho => ?_⟩
      exact absurd ⟨hfailures ▸ hf, ho⟩ hknown
  refine ⟨h.same, h.within, h.header, h.silent, h.full, rest', pending, hrest', ?_, htotal⟩
  have hahead : ahead (a.perform m.doWrite) wire b ++ rest' =
      ahead { a with stream := m } wire b ++ rest := by
    rw [ahead, way_perform, dataOf_append, hsplit]
    simp only [ahead, List.append_assoc]
    rfl
  rw [hahead]
  exact hpackets

/-- The loop of the reads sends window updates only. -/
theorem Carried.sender_read (hs : Side.Sequential z { a with stream := m })
    (h : Carried z { a with stream := m } wire b) (hr : Side.EndsInRead m r) :
    Carried z (a.perform r) wire b := by
  obtain ⟨rest, pending, hrest, hpackets, htotal⟩ := h.inOrder
  have hreplies := hr.replies fun pr hpr => (hs.reading.handlers pr hpr).1
  have htold : dataOf (told r.2) = [] := by
    rw [← told_sends, hr.sends, told_sends]
    exact Link.dataOf_of_credit m.doRead_onlyCredit
  have hbytes : r.1.pendingBytes = m.pendingBytes := by
    rw [hr.state, MuxStream.pendingBytes, m.doRead_same]
    rfl
  refine ⟨h.same, h.within, h.header, h.silent, h.full, rest, pending, fun hf ho => ?_, ?_, htotal⟩
  · have hf' : failures (a.posted ++ posts r.2) = 0 := hf
    rw [failures_append, Side.failures_reads hreplies.each, Nat.add_zero] at hf'
    exact (hrest hf' ho).trans hbytes.symm
  · have hahead : ahead (a.perform r) wire b = ahead { a with stream := m } wire b := by
      rw [ahead, way_perform, dataOf_append, htold, List.append_nil]
      rfl
    rw [hahead]
    exact hpackets

/-- The sender changes in nothing that this direction depends on, but for how much of the
pending write is known. -/
theorem Carried.sender_same (h : Carried z a wire b)
    (huse : a'.bridge.useCompression = a.bridge.useCompression)
    (hlevel : a'.bridge.compressionLevel = a.bridge.compressionLevel)
    (hheld : a'.bridge.heldBack = a.bridge.heldBack) (hread : a'.bridge.rawRead = a.bridge.rawRead)
    (hqueue : a'.queue = a.queue) (hrest : ∀ rest, Rest a rest → Rest a' rest) :
    Carried z a' wire b := by
  obtain ⟨rest, pending, hold, hpackets, htotal⟩ := h.inOrder
  refine ⟨huse.trans h.same, h.within, h.header, h.silent, h.full, rest, pending, hrest rest hold,
    ?_, ?_⟩
  · rw [hlevel, ahead, way, hqueue]
    exact hpackets
  · rw [hheld, hread]
    exact htotal

theorem Carried.sender_stop (h : Carried z a wire b) : Carried z a.handleStop wire b := by
  rw [Side.handleStop]
  split
  · exact h
  · exact h.sender_same rfl rfl rfl rfl rfl fun _ hrest => hrest

theorem heldBack_of {b : Bridge} (h : ∀ data packet, b.outward ≠ .limited data packet) :
    b.heldBack = [] := by
  rw [Bridge.heldBack]
  split
  · rename_i data packet hout
    exact absurd hout (h data packet)
  · rfl

/-- The handler of a write runs. -/
theorem Carried.sender_written (hs : a.Sequential z) (h : Carried z a wire b)
    (posted : List Completion) (queue : List (Frame × Callback)) {wire' : List Frame}
    (hway : way { a with posted, queue } wire' b = way a wire b)
    (hcount : successes posted + finals queue + failures posted + 1 =
      successes a.posted + finals a.queue + failures a.posted) (ec : ErrorCode)
    (hec : ec = .success → failures posted = failures a.posted) :
    Carried z ({ a with posted, queue }.onWorkWritten ec) wire' b := by
  have hall := hs.writing.count
  have hone : a.bridge.outward = .writing := by
    by_contra hne
    rw [if_neg hne] at hall
    omega
  rw [if_pos hone] at hall
  have hheld : a.bridge.heldBack = [] := heldBack_of (by rw [hone]; simp)
  obtain ⟨rest, pending, hrest, hpackets, htotal⟩ := h.inOrder
  rw [hheld] at htotal
  rw [Side.onWorkWritten]
  split
  · rename_i hok
    refine ⟨h.same, h.within, h.header, h.silent, h.full, rest, pending, fun hf _ => ?_, ?_, htotal⟩
    · exact hrest ((hec hok).symm.trans hf) (by rw [hone]; simp)
    · show Packets _ _ _ _ (_ ++ _ ++ dataOf (way { a with posted, queue } wire' b) ++ rest) _
      rw [hway]
      exact hpackets
  · refine Carried.sender_stop
      ⟨h.same, h.within, h.header, h.silent, h.full, rest, pending,
        fun _ ho => absurd rfl ho, ?_, htotal⟩
    show Packets _ _ _ _ (_ ++ _ ++ dataOf (way { a with posted, queue } wire' b) ++ rest) _
    rw [hway]
    exact hpackets

/-- A packet is given to the work stream. -/
theorem Carried.sender_write (hs : a.Sequential z) (h : Carried z a wire b)
    {data packet : List Byte} (hout : a.bridge.outward = .limited data packet) :
    Carried z { a.setOutward .writing with
      stream := { a.stream with
        pendingWrites := a.stream.pendingWrites ++ [⟨[packet], writeHandler⟩] } } wire b := by
  obtain ⟨hwrites, -, -, hfailures⟩ := hs.writing.idle (by rw [hout]; simp)
  obtain ⟨hpacket, hlen⟩ := hs.writing.packet data packet hout
  obtain ⟨rest, pending, hrest, hpackets, htotal⟩ := h.inOrder
  have hnil : rest = [] := by
    rw [hrest hfailures (by rw [hout]; simp), MuxStream.pendingBytes, hwrites]
    rfl
  rw [hnil, List.append_nil] at hpackets
  have hheld : a.bridge.heldBack = data := by rw [Bridge.heldBack, hout]
  refine ⟨h.same, h.within, h.header, h.silent, h.full, packet, pending ++ [data], fun _ _ => ?_,
    ⟨fun huse => ?_, fun huse => ?_⟩, ?_⟩
  · show packet = MuxStream.pendingBytes { a.stream with pendingWrites := _ }
    rw [MuxStream.pendingBytes, hwrites]
    simp
  · have hframe : packet = bridgeFraming.frame z true a.bridge.compressionLevel data := by
      rw [hpacket, Side.packet, if_pos (h.same.trans huse)]
    rw [hframe]
    exact (hpackets.framed huse).write (carries_chunk hlen)
  · have hplain : packet = data := by
      rw [hpacket, Side.packet, h.same, huse]
      rfl
    show ahead a wire b ++ packet = _
    rw [hpackets.plain huse, hplain, List.flatten_append, List.flatten_singleton]
  · rw [hheld] at htotal
    show _ ++ _ ++ (pending ++ [data]).flatten ++ [] = a.bridge.rawRead
    rw [← htotal, List.flatten_append, List.flatten_singleton, List.append_nil, List.append_assoc,
      List.append_assoc, List.append_assoc]

theorem Carried.sender_close (hs : a.Sequential z) (h : Carried z a wire b) :
    Carried z ({ a with closing := false }.perform a.stream.close) wire b := by
  obtain ⟨rest, pending, hrest, hpackets, htotal⟩ := h.inOrder
  cases hclosed : a.stream.localClosed with
  | true =>
      have hnil : a.stream.close = (a.stream, []) := by
        rw [MuxStream.close, hclosed]
        rfl
      rw [hnil]
      refine h.sender_same rfl rfl rfl rfl (List.append_nil _) fun rest hold hf ho => hold ?_ ho
      exact (failures_append _ _).symm.trans hf
  | false =>
      obtain ⟨hstream, htold, -⟩ := Link.close_eq hclosed hs.opened.session
      have hposts := posts_close hclosed
      refine ⟨h.same, h.within, h.header, h.silent, h.full, rest, pending,
        fun hf ho => ?_, ?_, htotal⟩
      · -- nothing has failed, so nothing was pending
        have hf' : failures (a.posted ++ posts a.stream.close.2) = 0 := hf
        rw [failures_append, hposts, failures_append] at hf'
        have hnone : a.stream.pendingWrites = [] := by
          cases hwrites : a.stream.pendingWrites with
          | nil => rfl
          | cons pw writes =>
              have hhandler := hs.writing.handlers pw (by rw [hwrites]; exact List.mem_cons_self)
              rw [hwrites, List.map_cons, failures, failures, failures,
                List.countP_cons_of_pos (by simp [hhandler])] at hf'
              omega
        have hold := hrest (by omega) ho
        rw [hold, MuxStream.pendingBytes, hnone]
        show _ = a.stream.close.1.pendingBytes
        rw [hstream]
        rfl
      · have hahead : ahead ({ a with closing := false }.perform a.stream.close) wire b =
            ahead a wire b := by
          rw [ahead, way_perform, htold, dataOf_append]
          show _ ++ (_ ++ []) = _
          rw [List.append_nil]
          rfl
        rw [hahead]
        exact hpackets

theorem Carried.sender_onWorkRead (hs : a.Sequential z) (h : Carried z a wire b) {c : Completion}
    {posted : List Completion} (hposted : a.posted = c :: posted) (hc : c.handler ≠ writeHandler)
    {recycled : List Byte} (hstep : { a with posted }.onWorkRead z c recycled = some a') :
    Carried z a' wire b := by
  obtain ⟨hreads, -, -⟩ := hs.reading.answered hposted hc
  obtain ⟨-, hfailures⟩ := hs.writing.popRead hposted hc
  have hrest : ∀ {rest}, Rest a rest → failures posted = 0 → a.bridge.outward ≠ .stopped →
      rest = a.stream.pendingBytes := fun hrest hf => hrest (hfailures ▸ hf)
  obtain ⟨header2, rfl⟩ | ⟨-, ⟨data, rfl, -⟩ | ⟨compressed, hin, -, -, rfl⟩⟩ :=
    Side.onWorkRead_cases hstep
  · exact Carried.sender_stop (h.sender_same rfl rfl rfl rfl rfl fun _ => hrest)
  · exact h.sender_same rfl rfl rfl rfl rfl fun _ => hrest
  · rw [Side.asyncRead_eq hreads]
    exact Carried.sender_read (hs.askBody hposted hc hin _ recycled compressed)
      (h.sender_same rfl rfl rfl rfl rfl fun _ => hrest) (Side.endsInRead_doRead _)

/-- **A step of the sender.** -/
theorem Carried.sender_step (hs : a.Sequential z) (h : Carried z a wire b) {e : Side.Event}
    (hsound : a.sound e = true) (hstep : a.step z e = some a') : Carried z a' wire b := by
  cases Side.stepped_of_step hstep with
  | @rawRead data hout _ _ =>
      -- what was read is held back until the rate limiter lets it go
      obtain ⟨rest, pending, hrest, hpackets, htotal⟩ := h.inOrder
      rw [heldBack_of (by rw [hout]; simp), List.append_nil] at htotal
      refine ⟨h.same, h.within, h.header, h.silent, h.full, rest, pending,
        fun hf _ => ?_, hpackets, ?_⟩
      · exact hrest hf (by rw [hout]; simp)
      · show _ ++ data = a.bridge.rawRead ++ data
        rw [htotal]
  | rawFail hout =>
      refine Carried.sender_stop (h.sender_same rfl rfl ?_ rfl rfl fun _ _ _ ho => absurd rfl ho)
      exact (heldBack_of (by rw [hout]; simp)).symm
  | limited1 hout =>
      obtain ⟨hwrites, -⟩ := hs.writing.idle (by rw [hout]; simp)
      rw [Side.asyncWrite_eq hwrites]
      exact Carried.sender_doWrite (hs.write hout) (h.sender_write hs hout)
  | limited2 _ => exact h.sender_same rfl rfl rfl rfl rfl fun _ hrest => hrest
  | rawWrite _ _ _ => exact h.sender_same rfl rfl rfl rfl rfl fun _ hrest => hrest
  | rawWritten hin =>
      have hnone : a.bridge.awaits = none := by rw [Bridge.awaits, hin]
      rw [Side.doRead2_eq (hs.reading.idle hnone).1]
      exact Carried.sender_read (hs.askNext hnone)
        (h.sender_same rfl rfl rfl rfl rfl fun _ hrest => hrest) (Side.endsInRead_doRead _)
  | rawWriteFail _ =>
      exact Carried.sender_stop (h.sender_same rfl rfl rfl rfl rfl fun _ hrest => hrest)
  | workClose _ => exact h.sender_close hs
  | @workWritten c posted _ hposted hc =>
      refine h.sender_written hs posted a.queue rfl ?_ c.ec fun hok => ?_
      · exact Side.successes_pop hposted hc
      · rw [hposted, failures, failures, List.countP_cons_of_neg (by simp [hok])]
  | workRead hposted hc hread => exact h.sender_onWorkRead hs hposted hc hread
  | @workHandle arrival inbox _ =>
      have harrived := hs.arrived arrival inbox
      have hbefore : Carried z
          { a with inbox, stream := Side.arrived a.stream arrival } wire b := by
        refine h.sender_same rfl rfl rfl rfl rfl fun _ hrest hf ho => ?_
        cases arrival <;> exact hrest hf ho
      cases arrival with
      | data block => exact hbefore.sender_read harrived (Side.endsInRead_doRead _)
      | windowUpdate delta => exact hbefore.sender_doWrite harrived
      | close => exact hbefore.sender_read harrived (Side.endsInRead_handleClose a.stream)
  | reuse _ _ _ => cases hsound

/-! ## The receiver -/

/-- The writes of the receiver's own direction do not matter. -/
theorem Carried.receiver_doWrite (hs : Side.Sequential z { b with stream := m })
    (h : Carried z a wire { b with stream := m }) : Carried z a wire (b.perform m.doWrite) := by
  obtain ⟨rest, pending, hrest, hpackets, htotal⟩ := h.inOrder
  have hwrote := m.doWrite_wrote
  have hsame := hwrote.same
  have hwrites : ∀ c ∈ posts m.doWrite.2, c.handler = writeHandler := by
    intro c hc
    have hnone := List.countP_eq_zero.mp
      (doWrite_settles hs.opened.session hs.writing.handlers).answers c hc
    simpa using hnone
  have hsilent : delivered (posts m.doWrite.2) = [] := Link.delivered_of_none hwrote.posts
  have hunread : m.doWrite.1.unread = m.unread := by
    rw [hsame]
    rfl
  refine ⟨h.same, ?_, h.header, fun c hc hw => ?_, fun c hc hread => ?_, rest, pending,
    hrest, ?_, htotal⟩
  · show MuxStream.WithinFront m.doWrite.1.readQueue m.doWrite.1.readQueueOffset
    rw [hsame]
    exact h.within
  · rcases List.mem_append.mp hc with hc | hc
    · exact h.silent c hc hw
    · exact (hwrote.posts c hc).1
  · rcases List.mem_append.mp hc with hc | hc
    · exact h.full c hc hread
    · exact absurd (hwrites c hc) hread
  · show Packets _ _ _ _ (delivered (b.posted ++ posts m.doWrite.2) ++
      m.doWrite.1.unread ++ _ ++ rest) _
    rw [delivered_append, hsilent, List.append_nil, hunread]
    exact hpackets

/-- A read that keeps its promise takes the next bytes. -/
theorem Carried.receiver_read (hs : Side.Sequential z { b with stream := m })
    (h : Carried z a wire { b with stream := m }) (hr : Side.EndsInRead m r)
    (hfine : m.buffer.fine = true) : Carried z a wire (b.perform r) := by
  obtain ⟨rest, pending, hrest, hpackets, htotal⟩ := h.inOrder
  obtain ⟨hserved, -⟩ := MuxStream.doRead_served h.within hfine
  rw [← hr.posts, ← hr.state] at hserved
  obtain ⟨taken, htaken, hanswers⟩ := hserved.answers
  have hreplies := hr.replies fun pr hpr => (hs.reading.handlers pr hpr).1
  have hbytes : m.unread = delivered (posts r.2) ++ r.1.unread := hserved.bytes
  refine ⟨h.same, hserved.within, h.header, fun c hc hw => ?_,
    fun c hc hread hok n hawaits => ?_, rest, pending, hrest, ?_, htotal⟩
  · rcases List.mem_append.mp hc with hc | hc
    · exact h.silent c hc hw
    · rw [hreplies.each c hc] at hw
      cases hw
  · rcases List.mem_append.mp hc with hc | hc
    · exact h.full c hc hread hok n hawaits
    · -- the read that was answered is the one direction 2 waits for
      obtain ⟨pr, hpr, hanswer⟩ := hanswers.only c hc
      have hpending : pr ∈ m.pendingReads := by
        have hreads : m.pendingReads = taken ++ r.1.pendingReads := htaken
        rw [hreads]
        exact List.mem_append_left _ hpr
      have hasked := (hs.reading.handlers pr hpending).2
      obtain ⟨rfl, hall⟩ := Prod.mk.inj (Option.some.inj (hasked.symm.trans hawaits))
      exact (hanswer.full hok hall).2
  · show Packets _ _ _ _ (delivered (b.posted ++ posts r.2) ++ r.1.unread ++ _ ++ rest) _
    have hahead : delivered (b.posted ++ posts r.2) ++ r.1.unread =
        delivered b.posted ++ m.unread := by
      rw [delivered_append, hbytes, List.append_assoc]
    rw [hahead]
    exact hpackets

/-- What the receiver's stream has not read yet it finds when it asks. -/
theorem Carried.receiver_ask (h : Carried z a wire b) {inward : Inward}
    (hawaiting : (b.setInward inward).bridge.awaiting = b.bridge.awaiting)
    (hhand : (b.setInward inward).bridge.inHand = b.bridge.inHand)
    (hnone : ∀ c ∈ b.posted, c.handler = writeHandler) (reads : List PendingRead) :
    Carried z a wire { b.setInward inward with
      stream := { b.stream with pendingReads := reads } } := by
  obtain ⟨rest, pending, hrest, hpackets, htotal⟩ := h.inOrder
  refine ⟨h.same, h.within, h.header, h.silent, fun c hc hread => absurd (hnone c hc) hread, rest,
    pending, hrest, ?_, ?_⟩
  · show Packets _ _ _ (b.setInward inward).bridge.awaiting _ _
    rw [hawaiting]
    exact hpackets
  · show _ ++ (b.setInward inward).bridge.inHand ++ _ ++ _ = _
    rw [hhand]
    exact htotal

theorem stopped_handleStop (s : Side) : s.handleStop.bridge.stopped = true := by
  rw [Side.handleStop]
  split
  · assumption
  · rfl

theorem fill_full {buffer bytes : List Byte} (h : bytes.length = buffer.length) :
    fill buffer bytes = bytes := by
  rw [fill, h, List.drop_length, List.append_nil]

/-- A body that was read in full is the next of the packets. -/
theorem Packets.body {level : Int} {length : Nat} {compressed : Bool} {bytes more data : List Byte}
    {pending : List (List Byte)}
    (h : Packets z true level (.payload length compressed) (bytes ++ more) pending)
    (hfull : bytes.length = length)
    (hdata : bridgeFraming.contents z compressed bytes = some data) :
    ∃ ds, pending = data :: ds ∧ Packets z true level .header more ds := by
  obtain ⟨data', ds, hpending, -, hdata', hrest⟩ := (h.framed rfl).payload rfl
  simp only [← hfull, List.take_left, List.drop_left] at hdata' hrest
  rw [hdata] at hdata'
  obtain rfl := Option.some.inj hdata'
  exact ⟨ds, hpending, ⟨fun _ => hrest [], fun hplain => by cases hplain⟩⟩

/-- A header that was read in full says how long the body is. -/
theorem Packets.header (hz : z.Lawful) {level : Int} {bytes more : List Byte}
    {pending : List (List Byte)} {length : Nat} {compressed : Bool}
    (h : Packets z true level .header (bytes ++ more) pending)
    (hfull : bytes.length = bridgeFraming.width)
    (hsplit : bridgeFraming.splitHeader bytes = (length, compressed))
    (hle : length ≤ bridgeFraming.maxLength) :
    Packets z true level (.payload length compressed) more pending := by
  have hread : Unframer.readHeader bridgeFraming { stream := bytes ++ more, awaiting := .header } =
      some { stream := more, awaiting := .payload length compressed } := by
    have hsize : bytes.length ≤ (bytes ++ more).length := by
      rw [List.length_append]
      omega
    simp only [Unframer.readHeader, true_and, ← hfull, if_pos hsize, List.take_left, List.drop_left,
      hsplit, if_neg (Nat.not_lt_of_le hle)]
  obtain ⟨hstep, -, -⟩ := (h.framed rfl).readHeader hz hread
  exact ⟨fun _ => ⟨hstep.carried, hstep.stream⟩, fun hplain => by cases hplain⟩

/-- The handler of a read runs at a receiver that goes on. -/
theorem Carried.receiver_onWorkRead (hz : z.Lawful) (hs : b.Sequential z) (h : Carried z a wire b)
    {c : Completion} {posted : List Completion} (hposted : b.posted = c :: posted)
    (hc : c.handler ≠ writeHandler) {recycled : List Byte}
    (hfine : ∀ stream, b.beforeRead (.workHandler recycled) = some stream →
      stream.buffer.fine = true)
    (hstep : { b with posted }.onWorkRead z c recycled = some b')
    (hruns : b'.bridge.stopped = false) :
    Carried z a wire b' := by
  obtain ⟨rest, pending, hrest, hpackets, htotal⟩ := h.inOrder
  obtain ⟨hreads, hanswers, -⟩ := hs.reading.answered hposted hc
  have hnone : ∀ d ∈ posted, d.handler = writeHandler := by
    intro d hd
    simpa using List.countP_eq_zero.mp hanswers d hd
  have hsilent : ∀ d ∈ posted, d.handler = writeHandler → d.bytes = [] :=
    fun d hd => h.silent d (by rw [hposted]; exact List.mem_cons_of_mem _ hd)
  have hahead : ahead a wire b ++ rest = c.bytes ++ (ahead a wire { b with posted } ++ rest) := by
    rw [ahead, hposted, delivered_cons]
    simp only [ahead, List.append_assoc]
    rfl
  rw [hahead] at hpackets
  have hfull : c.ec = .success → ∀ n, b.bridge.awaits = some (n, true) → c.bytes.length = n :=
    h.full c (by rw [hposted]; exact List.mem_cons_self) hc
  obtain ⟨header2, rfl⟩ | ⟨hok, ⟨data, rfl, hdata⟩ | ⟨compressed, hin, hsplit, hle, rfl⟩⟩ :=
    Side.onWorkRead_cases hstep
  · rw [stopped_handleStop] at hruns
    cases hruns
  · rcases hdata with ⟨hin, rfl⟩ | ⟨buffer, compressed, hin, hdata⟩
    · -- bytes are passed on as they come
      have hin' : b.bridge.inward = .reading := hin
      have huse := hs.reading.plain hin'
      have hplain := hpackets.plain huse
      rw [Bridge.inHand, hin', List.append_nil, ← hplain] at htotal
      refine ⟨h.same, h.within, h.header, hsilent,
        fun d hd hread => absurd (hnone d hd) hread, rest,
        [ahead a wire { b with posted } ++ rest], hrest, ⟨fun hframed => ?_, fun _ => ?_⟩, ?_⟩
      · rw [show b.bridge.useCompression = true from hframed] at huse
        cases huse
      · exact (List.flatten_singleton).symm
      · show b.bridge.rawWritten ++ c.bytes ++ [_].flatten ++ _ = _
        rw [List.flatten_singleton, List.append_assoc b.bridge.rawWritten c.bytes]
        exact htotal
    · have hin' : b.bridge.inward = .body buffer compressed := hin
      have hawaits : b.bridge.awaits = some (buffer.length, true) := by rw [Bridge.awaits, hin']
      have huse := hs.reading.framed (by rw [hin']; simp) (by rw [hawaits]; rfl)
      have hlen := hfull hok _ hawaits
      rw [fill_full hlen] at hdata
      rw [huse, Bridge.awaiting, hin'] at hpackets
      obtain ⟨ds, rfl, hpackets'⟩ := hpackets.body hlen hdata
      rw [Bridge.inHand, hin', List.append_nil] at htotal
      refine ⟨h.same, h.within, h.header, hsilent,
        fun d hd hread => absurd (hnone d hd) hread, rest, ds, hrest, ?_, ?_⟩
      · rw [show (Side.setInward { b with posted } (.limited data)).bridge.useCompression =
          true from huse]
        exact hpackets'
      · show b.bridge.rawWritten ++ data ++ ds.flatten ++ _ = _
        rw [List.append_assoc b.bridge.rawWritten data, ← List.flatten_cons]
        exact htotal
  · have hin' : b.bridge.inward = .header := hin
    have hawaits : b.bridge.awaits = some (bridgeFraming.width, true) := by rw [Bridge.awaits, hin']
    have huse := hs.reading.framed (by rw [hin']; simp) (by rw [hawaits]; rfl)
    have hlen := hfull hok _ hawaits
    have hfill : fill b.bridge.header2 c.bytes = c.bytes := fill_full (hlen.trans h.header.symm)
    rw [Side.asyncRead_eq hreads]
    refine Carried.receiver_read (hs.askBody hposted hc hin' _ recycled compressed) ?_
      (Side.endsInRead_doRead _) (hfine _ ?_)
    · rw [huse, Bridge.awaiting, hin'] at hpackets
      have hsplit' : bridgeFraming.splitHeader (fill b.bridge.header2 c.bytes) = _ := hsplit
      rw [hfill] at hsplit'
      have hpackets' := hpackets.header hz hlen hsplit' hle
      rw [Bridge.inHand, hin'] at htotal
      refine ⟨h.same, h.within, ?_, hsilent, fun d hd hread => absurd (hnone d hd) hread, rest,
        pending, hrest, ?_, htotal⟩
      · show (fill b.bridge.header2 c.bytes).length = _
        rw [hfill]
        exact hlen
      · show Packets z b.bridge.useCompression _ (.payload recycled.length compressed) _ _
        rw [huse]
        exact hpackets'
    · have hsplit' : (bridgeFraming.splitHeader (fill b.bridge.header2 c.bytes)).1 =
          recycled.length :=
        congrArg Prod.fst hsplit
      simp only [Side.beforeRead, hposted, hsplit']
      exact if_pos ⟨hc, hok, hin'⟩

/-- The handler of a write of the receiver's own direction runs. -/
theorem Carried.receiver_pop (h : Carried z a wire b) {c : Completion} {posted : List Completion}
    (hposted : b.posted = c :: posted) (hc : c.handler = writeHandler) :
    Carried z a wire ({ b with posted }.setOutward .reading) := by
  obtain ⟨rest, pending, hrest, hpackets, htotal⟩ := h.inOrder
  have hmem : ∀ d ∈ posted, d ∈ b.posted := fun d hd => by
    rw [hposted]
    exact List.mem_cons_of_mem _ hd
  refine ⟨h.same, h.within, h.header, fun d hd => h.silent d (hmem d hd),
    fun d hd => h.full d (hmem d hd), rest, pending, hrest, ?_, htotal⟩
  have hnil : c.bytes = [] := h.silent c (by rw [hposted]; exact List.mem_cons_self) hc
  rw [ahead, hposted, delivered_cons, hnil] at hpackets
  exact hpackets

/-- What arrives was next on the way. -/
theorem Carried.receiver_arrive (h : Carried z a wire b) {arrival : Arrival} {inbox : List Arrival}
    (hinbox : b.inbox = arrival :: inbox) :
    Carried z a wire { b with inbox, stream := Side.arrived b.stream arrival } := by
  obtain ⟨rest, pending, hrest, hpackets, htotal⟩ := h.inOrder
  have hway : way a wire b = arrival :: way a wire { b with inbox } := by
    rw [way, hinbox]
    rfl
  have hahead : ahead a wire { b with inbox, stream := Side.arrived b.stream arrival } =
      ahead a wire b := by
    rw [ahead, ahead, hway]
    cases arrival with
    | data block =>
        show delivered b.posted ++
            (b.stream.readQueue ++ [block]).flatten.drop b.stream.readQueueOffset ++
          dataOf (way a wire { b with inbox }) = _
        rw [drop_flatten_concat h.within, dataOf_data, ← List.append_assoc, ← List.append_assoc]
        rfl
    | windowUpdate delta => rfl
    | close => rfl
  refine ⟨h.same, ?_, h.header, h.silent, h.full, rest, pending, hrest, ?_, htotal⟩
  · cases arrival with
    | data block => exact h.within.concat block
    | windowUpdate delta => exact h.within
    | close => exact h.within
  · rw [hahead]
    exact hpackets

/-- **A step of the receiver**, after which it still runs. -/
theorem Carried.receiver_step (hz : z.Lawful) (hs : b.Sequential z) (h : Carried z a wire b)
    {e : Side.Event} (hrunning : b.bridge.stopped = false) (hsound : b.sound e = true)
    (hstep : b.step z e = some b') (hruns : b'.bridge.stopped = false) : Carried z a wire b' := by
  have hfine : ∀ stream, b.beforeRead e = some stream → stream.buffer.fine = true := by
    intro stream hbefore
    cases e with
    | reuse i bytes => cases hsound
    | _ =>
        simp only [Side.sound, hrunning, Bool.false_or, hbefore, Option.all_some] at hsound
        exact hsound
  cases Side.stepped_of_step hstep with
  | rawRead _ _ _ => exact ⟨h.same, h.within, h.header, h.silent, h.full, h.inOrder⟩
  | rawFail _ =>
      rw [stopped_handleStop] at hruns
      cases hruns
  | limited1 hout =>
      rw [Side.asyncWrite_eq (hs.writing.idle (by rw [hout]; simp)).1]
      exact Carried.receiver_doWrite (hs.write hout)
        ⟨h.same, h.within, h.header, h.silent, h.full, h.inOrder⟩
  | limited2 hin =>
      obtain ⟨rest, pending, hrest, hpackets, htotal⟩ := h.inOrder
      rw [Bridge.awaiting, hin] at hpackets
      rw [Bridge.inHand, hin] at htotal
      exact ⟨h.same, h.within, h.header, h.silent,
        fun _ _ _ _ _ hawaits => (by cases hawaits), rest, pending, hrest, hpackets, htotal⟩
  | @rawWrite left n hin _ _ =>
      -- bytes go from what is in hand to what is written
      obtain ⟨rest, pending, hrest, hpackets, htotal⟩ := h.inOrder
      rw [Bridge.awaiting, hin] at hpackets
      rw [Bridge.inHand, hin] at htotal
      refine ⟨h.same, h.within, h.header, h.silent,
        fun _ _ _ _ _ hawaits => (by cases hawaits), rest, pending, hrest, hpackets, ?_⟩
      show b.bridge.rawWritten ++ left.take n ++ left.drop n ++ pending.flatten ++ _ = _
      rw [List.append_assoc b.bridge.rawWritten, List.take_append_drop]
      exact htotal
  | rawWritten hin =>
      have hnone : b.bridge.awaits = none := by rw [Bridge.awaits, hin]
      obtain ⟨hreads, hanswers⟩ := hs.reading.idle hnone
      rw [Side.doRead2_eq hreads]
      refine Carried.receiver_read (hs.askNext hnone) ?_ (Side.endsInRead_doRead _) (hfine _ rfl)
      refine h.receiver_ask ?_ ?_ (fun c hc => ?_) _
      · show Bridge.awaiting { b.bridge with inward := b.nextInward } = _
        rw [Bridge.awaiting, Bridge.awaiting, hin]
        rcases Side.nextInward_cases b with hnext | hnext <;> rw [hnext]
      · show Bridge.inHand { b.bridge with inward := b.nextInward } = _
        rw [Bridge.inHand, Bridge.inHand, hin]
        rcases Side.nextInward_cases b with hnext | hnext <;> rw [hnext]
      · simpa using List.countP_eq_zero.mp hanswers c hc
  | rawWriteFail _ =>
      rw [stopped_handleStop] at hruns
      cases hruns
  | workClose hclosing =>
      -- only a bridge that has stopped closes its stream
      rw [hs.opened.closing hclosing] at hrunning
      cases hrunning
  | workWritten hposted hc =>
      rw [Side.onWorkWritten] at hruns ⊢
      split
      · exact h.receiver_pop hposted hc
      · rename_i hec
        rw [if_neg hec, stopped_handleStop] at hruns
        cases hruns
  | workRead hposted hc hread => exact h.receiver_onWorkRead hz hs hposted hc hfine hread hruns
  | @workHandle arrival inbox hinbox =>
      have harrived := hs.arrived arrival inbox
      have hbefore := h.receiver_arrive hinbox
      cases arrival with
      | data block =>
          exact hbefore.receiver_read harrived (Side.endsInRead_doRead _)
            (hfine _ (by rw [Side.beforeRead, hinbox]; rfl))
      | windowUpdate delta => exact hbefore.receiver_doWrite harrived
      | close =>
          exact hbefore.receiver_read harrived (Side.endsInRead_handleClose b.stream)
            (hfine _ (by rw [Side.beforeRead, hinbox]; rfl))
  | reuse _ _ _ => cases hsound

/-! ## Runs -/

/-- **The invariant of a tunnel.** Of a bridge that has stopped it is known that it writes no
more. -/
structure Inv (z : Zstd) (t : Tunnel) : Prop where
  sequential : ∀ x, (t.sides x).Sequential z
  carried : ∀ x y, x ≠ y → (t.sides y).bridge.stopped = false →
    Carried z (t.sides x) (t.wire x) (t.sides y)
  written : ∀ x y, x ≠ y → (t.sides y).bridge.rawWritten <+: (t.sides x).bridge.rawRead

theorem inv_start (z : Zstd) (useCompression : Bool) (level : Bool → Int) (id : UInt32)
    (window consumed : Bool → Nat) : Inv z (start useCompression level id window consumed) where
  sequential := sequential_start z useCompression level id window consumed
  carried x y _ _ := by
    have hbase : Carried z (base useCompression level id window consumed x) []
        (base useCompression level id window consumed y) := by
      refine ⟨rfl, rfl, rfl, fun c hc => (List.not_mem_nil hc).elim,
        fun c hc => (List.not_mem_nil hc).elim, [], [], fun _ _ => rfl,
          ⟨fun _ => ?_, fun _ => rfl⟩, rfl⟩
      exact Unframer.inStep_nil bridgeFraming z true (level x)
    have hx := sequential_base z useCompression level id window consumed x
    have hy := sequential_base z useCompression level id window consumed y
    show Carried z (base useCompression level id window consumed x).doRead2 []
      (base useCompression level id window consumed y).doRead2
    rw [Side.doRead2_eq rfl, Side.doRead2_eq rfl]
    refine Carried.receiver_read (hy.askNext rfl) ?_ (Side.endsInRead_doRead _) rfl
    refine Carried.receiver_ask ?_ ?_ ?_ (fun c hc => (List.not_mem_nil hc).elim) _
    · exact Carried.sender_read (hx.askNext rfl)
        (hbase.sender_same rfl rfl rfl rfl rfl fun _ hrest => hrest) (Side.endsInRead_doRead _)
    · show Bridge.awaiting { (base useCompression level id window consumed y).bridge with
        inward := (base useCompression level id window consumed y).nextInward } = _
      rw [Bridge.awaiting]
      rcases Side.nextInward_cases (base useCompression level id window consumed y) with
        hnext | hnext <;>
        rw [hnext] <;> rfl
    · show Bridge.inHand { (base useCompression level id window consumed y).bridge with
        inward := (base useCompression level id window consumed y).nextInward } = _
      rw [Bridge.inHand]
      rcases Side.nextInward_cases (base useCompression level id window consumed y) with
        hnext | hnext <;>
        rw [hnext] <;> rfl
  written x y _ := List.nil_prefix

/-- What becomes of the raw socket in a step: what was read stays, a bridge that has stopped
stays so and writes no more. -/
structure RawStep (s s' : Side) : Prop where
  read : s.bridge.rawRead <+: s'.bridge.rawRead
  stopped : s.bridge.stopped = true → s'.bridge.stopped = true
  written : s'.bridge.rawWritten = s.bridge.rawWritten ∨ s'.bridge.stopped = false

theorem rawStep_same {s t : Side} (hread : t.bridge.rawRead = s.bridge.rawRead)
    (hwritten : t.bridge.rawWritten = s.bridge.rawWritten)
    (hstopped : t.bridge.stopped = s.bridge.stopped) : RawStep s t :=
  ⟨hread ▸ List.prefix_rfl, fun h => hstopped.trans h, Or.inl hwritten⟩

theorem rawStep_stop {s t : Side} (hread : t.bridge.rawRead = s.bridge.rawRead)
    (hwritten : t.bridge.rawWritten = s.bridge.rawWritten) : RawStep s t.handleStop := by
  have hsame : t.handleStop.bridge.rawRead = t.bridge.rawRead ∧
      t.handleStop.bridge.rawWritten = t.bridge.rawWritten := by
    rw [Side.handleStop]
    split <;> exact ⟨rfl, rfl⟩
  exact ⟨(hsame.1.trans hread) ▸ List.prefix_rfl, fun _ => stopped_handleStop t,
    Or.inl (hsame.2.trans hwritten)⟩

theorem rawStep_written {s t : Side} (hread : t.bridge.rawRead = s.bridge.rawRead)
    (hwritten : t.bridge.rawWritten = s.bridge.rawWritten)
    (hstopped : t.bridge.stopped = s.bridge.stopped) (ec : ErrorCode) :
    RawStep s (t.onWorkWritten ec) := by
  rw [Side.onWorkWritten]
  split
  · exact rawStep_same hread hwritten hstopped
  · exact rawStep_stop hread hwritten

theorem rawStep_step {s s' : Side} {e : Side.Event} (hstep : s.step z e = some s') :
    RawStep s s' := by
  cases Side.stepped_of_step hstep with
  | rawRead _ _ _ => exact ⟨List.prefix_append _ _, id, Or.inl rfl⟩
  | rawFail _ => exact rawStep_stop rfl rfl
  | limited1 _ => exact rawStep_same rfl rfl rfl
  | limited2 _ => exact rawStep_same rfl rfl rfl
  | rawWrite _ hrunning _ => exact ⟨List.prefix_rfl, id, Or.inr hrunning⟩
  | rawWritten _ => exact rawStep_same rfl rfl rfl
  | rawWriteFail _ => exact rawStep_stop rfl rfl
  | workClose _ => exact rawStep_same rfl rfl rfl
  | workWritten _ _ => refine rawStep_written ?_ ?_ ?_ _ <;> rfl
  | workRead _ _ hread =>
      obtain ⟨header2, rfl⟩ | ⟨-, ⟨data, rfl, -⟩ | ⟨compressed, -, -, -, rfl⟩⟩ :=
        Side.onWorkRead_cases hread
      · exact rawStep_stop rfl rfl
      · exact rawStep_same rfl rfl rfl
      · exact rawStep_same rfl rfl rfl
  | workHandle _ => exact rawStep_same rfl rfl rfl
  | reuse _ _ _ => exact rawStep_same rfl rfl rfl

/-- A frame is written to the transport. -/
theorem transmit_cases {s s' : Side} {f : Frame} (h : s.transmit = some (f, s')) :
    ∃ cb queue, s.queue = (f, cb) :: queue ∧
      (finals [(f, cb)] = 0 ∧ s' = { s with queue } ∨
        finals [(f, cb)] = 1 ∧ s' = { s with queue }.onWorkWritten .success) := by
  rw [Side.transmit] at h
  split at h
  · cases h
  · rename_i g cb queue hqueue
    cases cb with
    | none =>
        cases h
        exact ⟨_, _, hqueue, Or.inl ⟨rfl, rfl⟩⟩
    | failPending =>
        cases h
        exact ⟨_, _, hqueue, Or.inl ⟨rfl, rfl⟩⟩
    | invoke handler n =>
        cases h
        exact ⟨_, _, hqueue, Or.inr ⟨rfl, rfl⟩⟩

theorem way_transmit {f : Frame} {cb : Callback} {queue : List (Frame × Callback)}
    (hqueue : a.queue = (f, cb) :: queue) :
    way { a with queue } (wire ++ [f]) b = way a wire b := by
  simp [way, hqueue]

theorem Carried.sender_transmit (hs : a.Sequential z) (h : Carried z a wire b) {f : Frame}
    (hstep : a.transmit = some (f, a')) : Carried z a' (wire ++ [f]) b := by
  obtain ⟨cb, queue, hqueue, ⟨-, rfl⟩ | ⟨hone, rfl⟩⟩ := transmit_cases hstep
  · obtain ⟨rest, pending, hrest, hpackets, htotal⟩ := h.inOrder
    refine ⟨h.same, h.within, h.header, h.silent, h.full, rest, pending, hrest, ?_, htotal⟩
    rw [ahead, way_transmit hqueue]
    exact hpackets
  · refine h.sender_written hs a.posted queue (way_transmit hqueue) ?_ .success fun _ => rfl
    have hfinals : finals a.queue = finals [(f, cb)] + finals queue := by
      rw [hqueue, ← finals_append]
      rfl
    omega

theorem Carried.receiver_transmit (h : Carried z a wire b) {f : Frame}
    (hstep : b.transmit = some (f, b')) : Carried z a wire b' := by
  obtain ⟨cb, queue, -, ⟨-, rfl⟩ | ⟨-, rfl⟩⟩ := transmit_cases hstep
  · exact ⟨h.same, h.within, h.header, h.silent, h.full, h.inOrder⟩
  · exact ⟨h.same, h.within, h.header, h.silent, h.full, h.inOrder⟩

theorem Carried.receive {f : Frame} (h : Carried z a (f :: wire) b) :
    Carried z a wire { b with inbox := b.inbox ++ f.arrivals } := by
  obtain ⟨rest, pending, hrest, hpackets, htotal⟩ := h.inOrder
  refine ⟨h.same, h.within, h.header, h.silent, h.full, rest, pending, hrest, ?_, htotal⟩
  have hway : way a wire { b with inbox := b.inbox ++ f.arrivals } = way a (f :: wire) b := by
    simp [way]
  rw [ahead, hway]
  exact hpackets

theorem rawStep_transmit {s s' : Side} {f : Frame} (hstep : s.transmit = some (f, s')) :
    RawStep s s' := by
  obtain ⟨cb, queue, -, ⟨-, rfl⟩ | ⟨-, rfl⟩⟩ := transmit_cases hstep
  · exact rawStep_same rfl rfl rfl
  · refine rawStep_written ?_ ?_ ?_ _ <;> rfl

/-- The two sides of a direction. -/
theorem eq_of_ne_ne {x y w : Bool} (hxy : x ≠ y) (hx : x ≠ w) : y = w := by
  cases x <;> cases y <;> cases w <;> simp at hxy hx ⊢

/-- One side changes, and the wire from it: what is left to show is what the change means for
the two directions. -/
theorem Inv.change (h : Inv z t) {w : Bool} {s' : Side} {wire' : Bool → List Frame}
    (hs : s'.Sequential z) (hraw : RawStep (t.sides w) s')
    (hsender : ∀ y, w ≠ y → (t.sides y).bridge.stopped = false →
      Carried z (t.sides w) (t.wire w) (t.sides y) → Carried z s' (wire' w) (t.sides y))
    (hreceiver : ∀ x, x ≠ w → (t.sides w).bridge.stopped = false → s'.bridge.stopped = false →
      Carried z (t.sides x) (t.wire x) (t.sides w) → Carried z (t.sides x) (wire' x) s') :
    Inv z { sides := Function.update t.sides w s', wire := wire' } := by
  have hself : Function.update t.sides w s' w = s' := Function.update_self ..
  have hne : ∀ {x}, x ≠ w → Function.update t.sides w s' x = t.sides x :=
    fun hx => Function.update_of_ne hx ..
  -- of two sides one changes: it is the sender of one direction and the receiver of the other
  have hcarried : ∀ x y, x ≠ y → (Function.update t.sides w s' y).bridge.stopped = false →
      Carried z (Function.update t.sides w s' x) (wire' x) (Function.update t.sides w s' y) := by
    intro x y hxy hruns
    by_cases hx : x = w
    · subst hx
      rw [hne hxy.symm] at hruns ⊢
      rw [hself]
      exact hsender y hxy hruns (h.carried x y hxy hruns)
    · obtain rfl := eq_of_ne_ne hxy hx
      rw [hself] at hruns ⊢
      rw [hne hx]
      have hrunning : (t.sides y).bridge.stopped = false := by
        rw [Bool.eq_false_iff]
        intro hstopped
        rw [hraw.stopped hstopped] at hruns
        cases hruns
      exact hreceiver x hx hrunning hruns (h.carried x y hxy hrunning)
  refine ⟨fun x => ?_, hcarried, fun x y hxy => ?_⟩
  · show (Function.update t.sides w s' x).Sequential z
    by_cases hx : x = w
    · rw [hx, hself]
      exact hs
    · rw [hne hx]
      exact h.sequential x
  · show (Function.update t.sides w s' y).bridge.rawWritten <+:
      (Function.update t.sides w s' x).bridge.rawRead
    by_cases hx : x = w
    · subst hx
      rw [hself, hne hxy.symm]
      exact (h.written x y hxy).trans hraw.read
    · obtain rfl := eq_of_ne_ne hxy hx
      rcases hraw.written with hsame | hruns
      · rw [hself, hne hx, hsame]
        exact h.written x y hxy
      · exact (hcarried x y hxy (by rw [hself]; exact hruns)).prefix_rawRead

theorem inv_step (hz : z.Lawful) (h : Inv z t) {e : Event} (hsound : t.sound e = true)
    (hstep : t.step z e = some t') : Inv z t' := by
  cases e with
  | act w e =>
      obtain ⟨s, hs, rfl⟩ := Option.map_eq_some_iff.mp hstep
      refine h.change ((h.sequential w).step hs) (rawStep_step hs) (fun y _ _ hc => ?_)
        fun x _ hrunning hruns hc => ?_
      · exact hc.sender_step (h.sequential w) hsound hs
      · exact hc.receiver_step hz (h.sequential w) hrunning hsound hs hruns
  | transmit w =>
      obtain ⟨⟨f, s⟩, hs, rfl⟩ := Option.map_eq_some_iff.mp hstep
      refine h.change ((h.sequential w).transmit hs) (rawStep_transmit hs) (fun y _ _ hc => ?_)
        fun x hx _ _ hc => ?_
      · rw [Function.update_self]
        exact hc.sender_transmit (h.sequential w) hs
      · rw [Function.update_of_ne hx]
        exact hc.receiver_transmit hs
  | receive w =>
      simp only [step] at hstep
      split at hstep
      · cases hstep
      · rename_i f frames hwire
        cases hstep
        have hsequential := h.sequential w
        refine h.change ?_ ?_ (fun y _ _ hc => ?_) fun x hx hrunning _ hc => ?_
        · split
          · exact hsequential
          · exact hsequential.arrive (m := (t.sides w).stream) _ rfl rfl rfl rfl
        · split
          · exact rawStep_same rfl rfl rfl
          · exact rawStep_same rfl rfl rfl
        · rw [Function.update_of_ne (by cases w <;> simp)]
          split
          · exact hc
          · exact hc.sender_same rfl rfl rfl rfl rfl fun _ hrest => hrest
        · -- a stream is removed only after it was closed
          have hkept : (t.sides w).removed = false := by
            rw [Bool.eq_false_iff]
            intro hremoved
            rw [hsequential.opened.removed hremoved] at hrunning
            cases hrunning
          obtain rfl : x = !w := by cases x <;> cases w <;> simp at hx ⊢
          rw [Function.update_self, if_neg (by rw [hkept]; exact Bool.false_ne_true)]
          rw [hwire] at hc
          exact hc.receive

/-- **Prefix safety of a tunnel.** In a run in which no read of a running bridge is answered
with a part of what it asks for, and no buffer is reused while a queued frame refers to it, what
a bridge has written to its raw socket is a prefix of what the other one has read from its own.
-/
theorem prefix_safe (hz : z.Lawful) {useCompression : Bool} {level : Bool → Int} {id : UInt32}
    {window consumed : Bool → Nat} {x y : Bool} (hxy : x ≠ y)
    (h : Reach (step z) (fun t e => t.sound e = true)
      (start useCompression level id window consumed) t) :
    (t.sides y).bridge.rawWritten <+: (t.sides x).bridge.rawRead := by
  have hinv : Inv z t := h.invariant (P := Inv z)
    (inv_start z useCompression level id window consumed) fun _ _ _ hs hok hstep =>
      inv_step hz hs hok hstep
  exact hinv.written x y hxy

theorem prefix_safe_small : ∃ t, Reach (step Zstd.raw) (fun t e => t.sound e = true)
      (start true (fun _ => 3) 1 (fun _ => initialWindowSize) fun _ => 0) t ∧
    ((t.sides true).bridge.rawRead, (t.sides false).bridge.rawWritten) = ([1, 2, 3], [1, 2]) ∧
    (t.sides false).bridge.rawWritten <+: (t.sides true).bridge.rawRead := by
  have hrun : (runAll (guarded (step Zstd.raw) sound)
      (start true (fun _ => 3) 1 (fun _ => initialWindowSize) fun _ => 0)
      [.act true (.rawRead [1, 2, 3]), .act true .limited1, .transmit true, .receive false,
        .act false .workHandle, .act false (.workHandler [9, 9, 9]), .act false (.workHandler []),
        .act false .limited2, .act false (.rawWrite 2)]).map
      (fun t => ((t.sides true).bridge.rawRead, (t.sides false).bridge.rawWritten)) =
        some ([1, 2, 3], [1, 2]) := by
    decide +kernel
  obtain ⟨t, ht, hobs⟩ := exists_of_runGuarded _ _ _ _ hrun
  exact ⟨t, ht, hobs, prefix_safe Zstd.raw_lawful (by decide) ht⟩

/-- With the initial window, four chunks are enough to have the fourth one cut. -/
theorem prefix_not_safe : ¬ ∀ z : Zstd, z.Lawful → ∀ useCompression level id t x y, x ≠ y →
    Reach (step z) anyStep
      (start useCompression level id (fun _ => initialWindowSize) fun _ => 0) t →
    (t.sides y).bridge.rawWritten <+: (t.sides x).bridge.rawRead := by
  intro h
  have hlen : ∀ b : Byte, (List.replicate chunkSize b).length = chunkSize := fun _ =>
    List.length_replicate
  obtain ⟨t, ht, hread, hwritten⟩ := stale_bytes (hlen 0x55) (hlen 0x55) (hlen 0x55) (hlen 0x55)
    (hlen 0xEE)
  have hprefix := h Zstd.raw Zstd.raw_lawful true _ 1 t true false (by decide) ht
  rw [hread, hwritten, List.prefix_append_right_inj] at hprefix
  have hsame := hprefix.eq_of_length (by
    rw [List.length_append, List.length_take, List.length_drop, hlen, hlen]
    rfl)
  have hend := congrArg (List.drop 32752) hsame
  rw [List.drop_left' (by rw [List.length_take, hlen]; rfl), List.drop_replicate,
    List.drop_replicate] at hend
  exact absurd hend (by decide)

end Tunnel

end Cfrp

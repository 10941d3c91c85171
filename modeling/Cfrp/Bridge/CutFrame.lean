import Cfrp.Bridge.Tunnel

/-!
# A frame that is cut by a close

A stream that closes sends its FIN behind what the window has let through, which may be the
first part of a frame only. The read of the body of that frame is answered with the bytes there
are, and reports success. What the bridge then writes to its raw socket ends with what its
buffer from the pool held before: `stale_bytes`. The chunks and the buffers are arbitrary, the
window is the initial one.
-/

namespace Cfrp

open Lib Mux Bridge

namespace Tunnel

variable {z : Zstd} {t : Tunnel}

/-! ## Runs of one side -/

theorem setSide_sides (t : Tunnel) (x : Bool) (s : Side) : (t.setSide x s).sides x = s :=
  Function.update_self ..

theorem setSide_setSide (t : Tunnel) (x : Bool) (s s' : Side) :
    (t.setSide x s).setSide x s' = t.setSide x s' := by
  rw [setSide, setSide, setSide, Function.update_idem]

theorem setSide_self (t : Tunnel) (x : Bool) : t.setSide x (t.sides x) = t := by
  rw [setSide, Function.update_eq_self]

theorem reach_side (t : Tunnel) (x : Bool) {s : Side}
    (h : Reach (Side.step z) anyStep (t.sides x) s) : Reach (step z) anyStep t (t.setSide x s) := by
  induction h with
  | init =>
      rw [setSide_self]
      exact Reach.init
  | @tail s₁ s₂ e _ _ hstep ih =>
      refine ih.next (.act x e) trivial ?_
      rw [step, setSide_sides, hstep, Option.map_some, setSide_setSide]

theorem reach_transmit (z : Zstd) (t : Tunnel) (x : Bool) {f : Frame} {s : Side}
    (h : (t.sides x).transmit = some (f, s)) :
    Reach (step z) anyStep t
      { t.setSide x s with wire := Function.update t.wire x (t.wire x ++ [f]) } :=
  Reach.init.next (.transmit x) trivial (by rw [step, h, Option.map_some])

/-- Everything that is on its way to a side is received. -/
theorem reach_receive (z : Zstd) (t : Tunnel) (x : Bool) (hremoved : (t.sides x).removed = false) :
    Reach (step z) anyStep t
      { t.setSide x { t.sides x with
          inbox := (t.sides x).inbox ++ (t.wire (!x)).flatMap Frame.arrivals } with
        wire := Function.update t.wire (!x) [] } := by
  generalize hw : t.wire (!x) = way
  induction way generalizing t with
  | nil =>
      rw [List.flatMap_nil, List.append_nil, setSide_self, ← hw, Function.update_eq_self]
      exact Reach.init
  | cons f way ih =>
      have hstep : step z t (.receive x) = some
          { t.setSide x { t.sides x with inbox := (t.sides x).inbox ++ f.arrivals } with
            wire := Function.update t.wire (!x) way } := by
        rw [step, hw]
        dsimp only
        rw [if_neg (by rw [hremoved]; exact Bool.false_ne_true)]
      have hmore := ih { t.setSide x { t.sides x with
          inbox := (t.sides x).inbox ++ f.arrivals } with
        wire := Function.update t.wire (!x) way }
        (by rw [setSide_sides]; exact hremoved) (Function.update_self ..)
      refine (Reach.init.next _ trivial hstep).trans ?_
      simp only [setSide, Function.update_self, Function.update_idem] at hmore ⊢
      rw [List.flatMap_cons, ← List.append_assoc]
      exact hmore

/-! ## The client -/

/-- The header of a frame with a full chunk. -/
def chunkHeader : List Byte := [0x00, 0x00, 0x80, 0x00]

theorem frame_chunk {level : Int} {d : List Byte} (hd : d.length = chunkSize) :
    bridgeFraming.frame Zstd.raw true level d = chunkHeader ++ d := by
  have hbig : ¬ d.length < 256 := by
    rw [hd]
    decide
  have hpayload : payloadOf Zstd.raw true level d = (false, d) := by
    have hnone : Zstd.raw.compress level d = none := if_neg hbig
    rw [payloadOf, if_pos rfl, hnone]
  rw [Framing.frame, hpayload]
  dsimp only
  rw [hd]
  rfl

/-- A bridge that goes on reading while a byte that it was sent waits to be written. -/
def uploading (window : Nat) (read : List Byte) : Side where
  bridge := {
    useCompression := true
    compressionLevel := 3
    header2 := [0x00, 0x00, 0x00, 0x01]
    inward := .writing [0x07]
    rawRead := read }
  stream := { id := 1, remoteWindowSize := window, consumedSinceLastUpdate := 5 }

def dataFrame (bytes : List Byte) : Frame :=
  ⟨{ version := 0, type := FrameType.data, flags := 0, streamId := 1,
     length := UInt32.ofNat bytes.length }, [bytes]⟩

/-- What there is for one turn of `do_write` is sent with the turn. -/
theorem asyncWrite_once {s s' : MuxStream} {bytes : List Byte} {es : List Effect}
    (hnone : s.pendingWrites = [])
    (hturn : { s with pendingWrites := [⟨[bytes], writeHandler⟩] }.writeTurn = some (s', es))
    (hdone : s'.writeTurn = none) : s.asyncWrite [bytes] writeHandler = (s', es) := by
  have hmeasure : 0 < { s with pendingWrites := [⟨[bytes], writeHandler⟩] }.writeMeasure := by
    rw [MuxStream.writeMeasure]
    exact Nat.lt_of_lt_of_le Nat.zero_lt_one (Nat.le_add_right _ _)
  rw [MuxStream.asyncWrite, if_neg (by rw [hnone]; decide), hnone, List.nil_append,
    MuxStream.doWrite, loop_once hmeasure hturn hdone]

/-- A write that the window has room for is one frame. -/
theorem asyncWrite_fits (s : MuxStream) (bytes : List Byte) (hid : s.id = 1)
    (hsession : s.session = true) (hnone : s.pendingWrites = []) (hpos : 0 < bytes.length)
    (hfits : bytes.length ≤ s.remoteWindowSize) (hmax : bytes.length ≤ maxMessageSize) :
    s.asyncWrite [bytes] writeHandler =
      ({ s with remoteWindowSize := s.remoteWindowSize - bytes.length },
        [.send (dataFrame bytes) (.invoke writeHandler bytes.length)]) := by
  have htotal : totalLength [bytes] = bytes.length := by simp [totalLength]
  have hsend : min (min bytes.length s.remoteWindowSize) maxMessageSize = bytes.length := by
    rw [Nat.min_eq_left hfits, Nat.min_eq_left hmax]
  have hslice : sliceBuffers [bytes] bytes.length = [bytes] := by
    simp [sliceBuffers, Nat.ne_of_gt hpos]
  refine asyncWrite_once hnone ?_ ?_
  · simp only [MuxStream.writeTurn, htotal, hsend, hsession, hslice, MuxStream.dataHeader, hid]
    rw [if_neg (by omega), if_neg (by omega), if_neg (by simp), if_neg (by omega), hnone]
    rfl
  · rw [MuxStream.writeTurn]
    simp [hnone]

/-- Of a write that is longer than the window there is a frame that fills the window. -/
theorem asyncWrite_cut (s : MuxStream) (bytes : List Byte) (hid : s.id = 1)
    (hsession : s.session = true) (hnone : s.pendingWrites = []) (hpos : 0 < s.remoteWindowSize)
    (hcut : s.remoteWindowSize < bytes.length) (hmax : s.remoteWindowSize ≤ maxMessageSize) :
    s.asyncWrite [bytes] writeHandler =
      ({ s with
          remoteWindowSize := 0
          pendingWrites := [⟨[bytes.drop s.remoteWindowSize], writeHandler⟩] },
        [.send (dataFrame (bytes.take s.remoteWindowSize)) .failPending]) := by
  have htotal : totalLength [bytes] = bytes.length := by simp [totalLength]
  have hsend : min (min bytes.length s.remoteWindowSize) maxMessageSize = s.remoteWindowSize := by
    rw [Nat.min_eq_right (Nat.le_of_lt hcut), Nat.min_eq_left hmax]
  have hslice : sliceBuffers [bytes] s.remoteWindowSize = [bytes.take s.remoteWindowSize] := by
    simp [sliceBuffers, Nat.ne_of_gt hpos, Nat.min_eq_left (Nat.le_of_lt hcut)]
  have hskip : skipBuffers [bytes] s.remoteWindowSize = [bytes.drop s.remoteWindowSize] := by
    simp [skipBuffers, hcut]
  have hlen : (bytes.take s.remoteWindowSize).length = s.remoteWindowSize := by
    rw [List.length_take, Nat.min_eq_left (Nat.le_of_lt hcut)]
  refine asyncWrite_once hnone ?_ ?_
  · simp only [MuxStream.writeTurn, htotal, hsend, hsession, hslice, hskip, MuxStream.dataHeader,
      hid]
    rw [if_neg (by omega), if_neg (by omega), if_neg (by simp), if_pos hcut, dataFrame, hlen]
    simp
  · rfl

theorem step_rawRead {window : Nat} {read d : List Byte} (hd : d.length = chunkSize) :
    (uploading window read).step Zstd.raw (.rawRead d) = some { uploading window (read ++ d) with
      bridge := { (uploading window (read ++ d)).bridge with
        outward := .limited d (chunkHeader ++ d) } } := by
  have hpacket : (uploading window read).packet Zstd.raw d = chunkHeader ++ d := frame_chunk hd
  rw [Side.step, if_pos ⟨rfl, rfl, Nat.le_of_eq hd⟩, hpacket]
  rfl

theorem run_upload {window : Nat} {read d : List Byte} (hd : d.length = chunkSize)
    (hw : 32772 ≤ window) :
    runAll (Side.step Zstd.raw) (uploading window read) [.rawRead d, .limited1] =
      some { uploading (window - 32772) (read ++ d) with
        bridge := { (uploading window (read ++ d)).bridge with outward := .writing }
        queue := [(dataFrame (chunkHeader ++ d), .invoke writeHandler 32772)] } := by
  have hlen : (chunkHeader ++ d).length = 32772 := by
    rw [List.length_append, hd]
    rfl
  have hwrite := asyncWrite_fits (uploading window read).stream (chunkHeader ++ d) rfl rfl rfl
    (by omega) (by rw [hlen]; exact hw) (by rw [hlen]; decide)
  rw [hlen] at hwrite
  rw [runAll, step_rawRead hd, Option.bind_some, runAll]
  show (some (Side.perform _ ((uploading window read).stream.asyncWrite [chunkHeader ++ d]
    writeHandler))).bind _ = _
  rw [hwrite]
  rfl

/-- The same bridge in a write that the window has stopped. -/
def blocked (read left : List Byte) : Side where
  bridge := { (uploading 0 read).bridge with outward := .writing }
  stream := { (uploading 0 read).stream with pendingWrites := [⟨[left], writeHandler⟩] }

theorem run_cut {window : Nat} (read : List Byte) {d : List Byte} (hd : d.length = chunkSize)
    (hpos : 0 < window) (hw : window < 32772) :
    runAll (Side.step Zstd.raw) (uploading window read) [.rawRead d, .limited1] =
      some { blocked (read ++ d) ((chunkHeader ++ d).drop window) with
        queue := [(dataFrame ((chunkHeader ++ d).take window), .failPending)] } := by
  have hlen : (chunkHeader ++ d).length = 32772 := by
    rw [List.length_append, hd]
    rfl
  have hmax : maxMessageSize = 1048576 := rfl
  have hwrite := asyncWrite_cut (uploading window read).stream (chunkHeader ++ d) rfl rfl rfl hpos
    (by rw [hlen]; exact hw) (by show window ≤ _; omega)
  rw [runAll, step_rawRead hd, Option.bind_some, runAll]
  show (some (Side.perform _ ((uploading window read).stream.asyncWrite [chunkHeader ++ d]
    writeHandler))).bind _ = _
  rw [hwrite]
  rfl

def finFrame : Frame :=
  ⟨{ version := 0, type := FrameType.data, flags := Flags.fin, streamId := 1,
     length := UInt32.ofNat 0 }, []⟩

/-- The write to `s1` fails, and the FIN follows what was sent. -/
theorem run_close (read left : List Byte) :
    ∃ s s', runAll (Side.step Zstd.raw) (blocked read left) [.rawWritten false, .workClose] =
      some s ∧ s.transmit = some (finFrame, s') ∧ s'.bridge.rawRead = read :=
  ⟨_, _, rfl, rfl, rfl⟩

/-! ## The server -/

/-- A bridge in front of a frame of which the header has been read, when the FIN is in already.
-/
def draining (header2 : List Byte) (queue : List (List Byte)) (updates : List (Frame × Callback))
    (written : List Byte) : Side where
  bridge := {
    useCompression := true
    compressionLevel := 3
    header2 := header2
    inward := .header
    rawRead := [0x07]
    rawWritten := written }
  stream := {
    id := 1
    remoteWindowSize := 131067
    consumedSinceLastUpdate := 4
    readQueue := queue
    readQueueOffset := 4
    remoteClosed := true }
  posted := [{ handler := readHandler, count := 4, bytes := chunkHeader }]
  queue := updates

theorem step_workHandler {s : Side} {c : Completion} {posted : List Completion} {r : List Byte}
    (hposted : s.posted = c :: posted) (hc : c.handler = readHandler) :
    s.step z (.workHandler r) = { s with posted }.onWorkRead z c r := by
  rw [Side.step, hposted]
  dsimp only
  rw [if_neg (by rw [hc]; decide)]

/-- One read is answered, and nothing else waits. -/
theorem doRead_once {s s' : MuxStream} {es : List Effect} (hsome : s.pendingReads ≠ [])
    (hturn : s.readTurn = some (s', es)) (hdone : s'.pendingReads = [])
    (hopen : s'.localClosed = false) : s.doRead = (s', es) := by
  have hover : s'.readTurn = none := by rw [MuxStream.readTurn, hdone]
  have hcleanup : s'.checkCleanup = [] := by
    rw [MuxStream.checkCleanup, hopen]
    rfl
  rw [MuxStream.doRead, loop_once (List.length_pos_iff.mpr hsome) hturn hover]
  dsimp only
  rw [hcleanup, List.append_nil]

theorem asyncRead_once {s s' : MuxStream} {size : Nat} {es : List Effect}
    (hnone : s.pendingReads = [])
    (hturn : { s with pendingReads := [⟨size, readHandler, true⟩] }.readTurn = some (s', es))
    (hdone : s'.pendingReads = []) (hopen : s'.localClosed = false) :
    s.asyncRead size readHandler true = (s', es) := by
  rw [MuxStream.asyncRead, if_neg (by rw [hnone]; decide), hnone, List.nil_append]
  exact doRead_once (List.cons_ne_nil _ _) hturn hdone hopen

/-- The rest of a block, if that is what is asked for or all there is. -/
theorem copyOut_rest (front : List Byte) {d : List Byte} {q : List (List Byte)} {n : Nat}
    (hpos : 0 < n) (hle : d.length ≤ n) (hq : q = [] ∨ d.length = n) :
    MuxStream.copyOut ((front ++ d) :: q) front.length n = ((d, d.length), (q, 0)) := by
  have hsub : MuxStream.sizeSub (front ++ d).length front.length = d.length := by
    rw [MuxStream.sizeSub, List.length_append, if_pos (Nat.le_add_right _ _),
      Nat.add_sub_cancel_left]
  have hmore : MuxStream.copyOut q 0 (n - d.length) = (([], 0), (q, 0)) := by
    rcases hq with rfl | hn
    · rfl
    · rw [hn, Nat.sub_self]
      cases q <;> rfl
  rw [MuxStream.copyOut, if_neg (Nat.ne_of_gt hpos)]
  dsimp only
  rw [hsub, Nat.min_eq_right hle, if_pos (List.length_append).symm, hmore, List.drop_left,
    List.take_length, List.append_nil, Nat.add_zero]

/-- The front of a block. -/
theorem copyOut_front {front d : List Byte} {q : List (List Byte)} (hpos : 0 < front.length)
    (hd : 0 < d.length) :
    MuxStream.copyOut ((front ++ d) :: q) 0 front.length =
      ((front, front.length), ((front ++ d) :: q, front.length)) := by
  have hlen : (front ++ d).length = front.length + d.length := List.length_append
  have hsub : MuxStream.sizeSub (front ++ d).length 0 = (front ++ d).length :=
    if_pos (Nat.zero_le _)
  rw [MuxStream.copyOut, if_neg (Nat.ne_of_gt hpos)]
  dsimp only
  rw [hsub, Nat.min_eq_left (by omega), if_neg (by omega), List.drop_zero, List.take_left,
    Nat.zero_add]

theorem splitHeader_chunkHeader : bridgeFraming.splitHeader chunkHeader = (chunkSize, false) := by
  decide

/-- The same bridge when the contents of the frame are written. -/
def drained (queue : List (List Byte)) (consumed : Nat) (updates : List (Frame × Callback))
    (written : List Byte) : Side where
  bridge := {
    useCompression := true
    compressionLevel := 3
    header2 := chunkHeader
    inward := .writing []
    rawRead := [0x07]
    rawWritten := written }
  stream := {
    id := 1
    remoteWindowSize := 131067
    consumedSinceLastUpdate := consumed
    readQueue := queue
    remoteClosed := true }
  queue := updates

/-- Where the counter of consumed bytes is after so many. -/
def consumedAfter (n : Nat) : Nat := if windowUpdateThreshold ≤ n then 0 else n

variable {header2 r d written : List Byte} {q : List (List Byte)}
  {updates : List (Frame × Callback)}

/-- What a read of the body does outside the stream. -/
def bodyEffects (d : List Byte) : List Effect :=
  .post { handler := readHandler, count := d.length, bytes := d } ::
    if windowUpdateThreshold ≤ 4 + d.length then
      let header : Header := {
        version := 0, type := FrameType.windowUpdate, flags := 0, streamId := 1,
        length := UInt32.ofNat (4 + d.length) }
      [.send ⟨header, []⟩ .none]
    else []

theorem asyncRead_body (header2 : List Byte) (updates : List (Frame × Callback))
    (written : List Byte) (hd : d.length ≤ chunkSize) (hq : q = [] ∨ d.length = chunkSize) :
    (draining header2 ((chunkHeader ++ d) :: q) updates written).stream.asyncRead chunkSize
        readHandler true =
      ((drained q (consumedAfter (4 + d.length)) updates written).stream, bodyEffects d) := by
  have hcopy := copyOut_rest chunkHeader (by decide : 0 < chunkSize) hd hq
  have hoffset : chunkHeader.length = 4 := rfl
  rw [hoffset] at hcopy
  refine asyncRead_once rfl ?_ rfl rfl
  simp only [MuxStream.readTurn, draining, List.isEmpty_cons, Bool.false_eq_true, if_false,
    Bool.not_true, Bool.and_false, hcopy, bodyEffects, consumedAfter, drained, ge_iff_le]
  by_cases hupdate : windowUpdateThreshold ≤ 4 + d.length
  · simp only [hupdate, if_true, true_and]
    rfl
  · simp only [hupdate, if_false, false_and]

theorem onWorkRead_header {s : Side} {c : Completion} {r : List Byte}
    (hin : s.bridge.inward = .header) (hec : c.ec = .success)
    (hsplit : bridgeFraming.splitHeader (fill s.bridge.header2 c.bytes) = (r.length, false))
    (hle : r.length ≤ bridgeFraming.maxLength) :
    s.onWorkRead z c r = some ((Side.setInward
      { s with bridge := { s.bridge with header2 := fill s.bridge.header2 c.bytes } }
      (.body r false)).perform (s.stream.asyncRead r.length readHandler true)) := by
  rw [Side.onWorkRead, if_neg (by rw [hec]; decide), hin]
  dsimp only
  rw [hsplit]
  dsimp only
  rw [if_neg (Nat.not_lt.mpr hle), if_pos rfl]

/-- A read of the body gets what there is of it. -/
theorem run_body (updates : List (Frame × Callback)) (written : List Byte)
    (hheader : header2.length = 4) (hr : r.length = chunkSize)
    (hd : d.length ≤ chunkSize) (hq : q = [] ∨ d.length = chunkSize) :
    runAll (Side.step Zstd.raw)
        (draining header2 ((chunkHeader ++ d) :: q) updates written)
        [.workHandler r, .workHandler [], .limited2, .rawWrite chunkSize] =
      some (drained q (consumedAfter (4 + d.length)) (updates ++ sends (bodyEffects d))
        (written ++ (d ++ r.drop d.length))) := by
  have hread := asyncRead_body header2 updates written hd hq
  have hfill : fill header2 chunkHeader = chunkHeader := by
    have hall : header2.drop chunkHeader.length = [] :=
      List.drop_eq_nil_of_le (Nat.le_of_eq hheader)
    rw [fill, hall, List.append_nil]
  have hlen : (d ++ r.drop d.length).length = chunkSize := by
    rw [List.length_append, List.length_drop, hr]
    omega
  have hposts : posts (bodyEffects d) =
      [{ handler := readHandler, count := d.length, bytes := d }] := by
    rw [bodyEffects]
    split <;> rfl
  have hremoves : removes (bodyEffects d) = false := by
    rw [bodyEffects]
    split <;> rfl
  -- the header is read and the body asked for; what there is answers at once
  have hhead : (draining header2 ((chunkHeader ++ d) :: q) updates written).step Zstd.raw
      (.workHandler r) = some { drained q (consumedAfter (4 + d.length))
        (updates ++ sends (bodyEffects d)) written with
          bridge := { (drained q 0 [] written).bridge with inward := .body r false }
          posted := [{ handler := readHandler, count := d.length, bytes := d }] } := by
    rw [step_workHandler rfl rfl, onWorkRead_header rfl rfl ?_ (by rw [hr]; decide)]
    · show some (Side.perform (Side.setInward { draining header2 _ updates written with
        bridge := { (draining header2 [] updates written).bridge with
          header2 := fill header2 chunkHeader }
        posted := [] } _) (MuxStream.asyncRead
          (draining header2 ((chunkHeader ++ d) :: q) updates written).stream r.length readHandler
          true)) = _
      rw [hfill, hr, hread, Side.perform, hposts, hremoves]
      rfl
    · show bridgeFraming.splitHeader (fill header2 chunkHeader) = _
      rw [hfill, splitHeader_chunkHeader, hr]
  -- the body counts as whole, whatever came
  have hbody : Side.step Zstd.raw { drained q (consumedAfter (4 + d.length))
        (updates ++ sends (bodyEffects d)) written with
          bridge := { (drained q 0 [] written).bridge with inward := .body r false }
          posted := [{ handler := readHandler, count := d.length, bytes := d }] }
      (.workHandler []) = some { drained q (consumedAfter (4 + d.length))
        (updates ++ sends (bodyEffects d)) written with
          bridge := { (drained q 0 [] written).bridge with
            inward := .limited (d ++ r.drop d.length) } } := by
    rw [step_workHandler rfl rfl]
    rfl
  rw [runAll, hhead, Option.bind_some, runAll, hbody, Option.bind_some, runAll]
  show (Side.step Zstd.raw { drained q (consumedAfter (4 + d.length))
    (updates ++ sends (bodyEffects d)) written with
      bridge := { (drained q 0 [] written).bridge with
        inward := .writing (d ++ r.drop d.length) } } (.rawWrite chunkSize)).bind _ = _
  rw [Side.step]
  dsimp only
  rw [if_pos ⟨rfl, Nat.le_of_eq hlen.symm⟩, List.drop_eq_nil_of_le (Nat.le_of_eq hlen),
    List.take_of_length_le (Nat.le_of_eq hlen)]
  rfl

/-- The next frame is already there. -/
theorem step_header {e : List Byte} (he : 0 < e.length) :
    (drained ((chunkHeader ++ e) :: q) 0 updates written).step Zstd.raw (.rawWritten true) =
      some (draining chunkHeader ((chunkHeader ++ e) :: q) updates written) := by
  have hcopy := copyOut_front (q := q) (by decide : 0 < chunkHeader.length) he
  have hoffset : chunkHeader.length = 4 := rfl
  rw [hoffset] at hcopy
  have hread : (drained ((chunkHeader ++ e) :: q) 0 updates written).stream.asyncRead 4 readHandler
      true = ((draining chunkHeader ((chunkHeader ++ e) :: q) updates written).stream,
        [.post { handler := readHandler, count := 4, bytes := chunkHeader }]) := by
    refine asyncRead_once rfl ?_ rfl rfl
    simp only [MuxStream.readTurn, draining, List.isEmpty_cons, Bool.false_eq_true, if_false,
      Bool.not_true, Bool.and_false, hcopy, drained, ge_iff_le]
    rfl
  show some (Side.perform _ (MuxStream.asyncRead
    (drained ((chunkHeader ++ e) :: q) 0 updates written).stream 4 readHandler true)) = _
  rw [hread, Side.perform]
  simp only [drained, draining, Side.setInward, posts, sends, removes]
  simp

/-- A bridge that has sent a byte and waits for the header of the first frame. -/
def waiting (inbox : List Arrival) : Side where
  bridge := {
    useCompression := true
    compressionLevel := 3
    inward := .header
    rawRead := [0x07] }
  stream := {
    id := 1
    remoteWindowSize := 131067
    pendingReads := [⟨4, readHandler, true⟩] }
  inbox := inbox

theorem arrivals_dataFrame {bytes : List Byte} (h : 0 < bytes.length) :
    (dataFrame bytes).arrivals = [.data bytes] := by
  have hbody : (dataFrame bytes).body = bytes := by simp [dataFrame, Frame.body]
  have htype : (dataFrame bytes).header.type = FrameType.data := rfl
  have hflags : ¬ (dataFrame bytes).header.flags &&& Flags.fin ≠ 0 := by
    show ¬ (0 : UInt16) &&& Flags.fin ≠ 0
    decide
  rw [Frame.arrivals, hbody, arrivals, if_pos htype, if_pos h, if_neg hflags]
  rfl

/-- The first block answers the read of the header, and the others and the FIN wait. -/
theorem run_arrive {d₁ p₂ p₃ p₄ : List Byte} (hd : 0 < d₁.length) :
    runAll (Side.step Zstd.raw)
        (waiting [.data (chunkHeader ++ d₁), .data p₂, .data p₃, .data p₄, .close])
        (List.replicate 5 .workHandle) =
      some (draining [0, 0, 0, 0] [chunkHeader ++ d₁, p₂, p₃, p₄] [] []) := by
  have hcopy := copyOut_front (q := []) (by decide : 0 < chunkHeader.length) hd
  have hoffset : chunkHeader.length = 4 := rfl
  rw [hoffset] at hcopy
  have hlen : (chunkHeader ++ d₁).length = 4 + d₁.length := by
    rw [List.length_append, hoffset]
  have hfirst : (waiting []).stream.handle (.data (chunkHeader ++ d₁)) =
      ({ (draining [] [chunkHeader ++ d₁] [] []).stream with remoteClosed := false },
        [.post { handler := readHandler, count := 4, bytes := chunkHeader }]) := by
    refine doRead_once (List.cons_ne_nil _ _) ?_ rfl rfl
    have havailable : ¬ MuxStream.sizeSub (totalLength [chunkHeader ++ d₁]) 0 < 4 := by
      rw [MuxStream.sizeSub, if_pos (Nat.zero_le _)]
      simp only [totalLength, List.map_cons, List.map_nil, List.sum_cons, List.sum_nil]
      omega
    simp only [MuxStream.readTurn, MuxStream.available, waiting, List.nil_append,
      List.isEmpty_cons, havailable, decide_false, Bool.and_false, Bool.false_and,
      Bool.false_eq_true, if_false, hcopy]
    rfl
  rw [List.replicate, runAll]
  show (some (Side.perform _ ((waiting []).stream.handle (.data (chunkHeader ++ d₁))))).bind _ = _
  rw [hfirst]
  rfl

/-! ## The run -/

/-- The client, the server, and what is on its way up and down between them. -/
def between (a b : Side) (up down : List Frame) : Tunnel where
  sides x := bif x then a else b
  wire x := bif x then up else down

section Between

variable {a a' b b' : Side} {up up' down down' : List Frame}

theorem update_cond {α : Type} (x : Bool) (u v w : α) :
    Function.update (fun y => bif y then u else v) x w =
      fun y => bif y then (bif x then w else u) else (bif x then v else w) := by
  funext y
  cases x <;> cases y <;> rfl

theorem client_runs (h : Reach (Side.step z) anyStep a a') :
    Reach (step z) anyStep (between a b up down) (between a' b up down) := by
  have hrun := reach_side (between a b up down) true h
  rwa [setSide, between, update_cond] at hrun

theorem server_runs (h : Reach (Side.step z) anyStep b b') :
    Reach (step z) anyStep (between a b up down) (between a b' up down) := by
  have hrun := reach_side (between a b up down) false h
  rwa [setSide, between, update_cond] at hrun

theorem client_sends {f : Frame} (h : a.transmit = some (f, a')) :
    Reach (step z) anyStep (between a b up down) (between a' b (up ++ [f]) down) := by
  have hrun := reach_transmit z (between a b up down) true h
  rwa [setSide, between, update_cond, update_cond] at hrun

theorem server_sends {f : Frame} (h : b.transmit = some (f, b')) :
    Reach (step z) anyStep (between a b up down) (between a b' up (down ++ [f])) := by
  have hrun := reach_transmit z (between a b up down) false h
  rwa [setSide, between, update_cond, update_cond] at hrun

theorem client_receives (hremoved : a.removed = false) :
    Reach (step z) anyStep (between a b up down)
      (between { a with inbox := a.inbox ++ down.flatMap Frame.arrivals } b up []) := by
  have hrun := reach_receive z (between a b up down) true hremoved
  rwa [setSide, between, update_cond, Bool.not_true, update_cond] at hrun

theorem server_receives (hremoved : b.removed = false) :
    Reach (step z) anyStep (between a b up down)
      (between a { b with inbox := b.inbox ++ up.flatMap Frame.arrivals } [] down) := by
  have hrun := reach_receive z (between a b up down) false hremoved
  rwa [setSide, between, update_cond, Bool.not_false, update_cond] at hrun

end Between

/-- Both bridges after `Start`, on a stream that has carried nothing. -/
def fresh : Tunnel := start true (fun _ => 3) 1 (fun _ => initialWindowSize) fun _ => 0

/-- Each of them. -/
def freshSide : Side :=
  (base true (fun _ => 3) 1 (fun _ => initialWindowSize) (fun _ => 0) true).doRead2

theorem fresh_eq : fresh = between freshSide freshSide [] [] := by
  rw [fresh, start, between]
  congr 1
  · funext x
    cases x <;> rfl
  · funext x
    cases x <;> rfl

/-- The server sends a byte, which the client is about to write. -/
theorem reach_uploading :
    Reach (step Zstd.raw) anyStep fresh
      (between (uploading initialWindowSize []) (waiting []) [] []) := by
  have hwrite : runAll (Side.step Zstd.raw) freshSide [.rawRead [0x07], .limited1] = some
      { waiting [] with
        bridge := { (waiting []).bridge with outward := .writing }
        queue := [(dataFrame [0, 0, 0, 1, 0x07], .invoke writeHandler 5)] } := by
    decide +kernel
  have hread : runAll (Side.step Zstd.raw)
      { freshSide with inbox := [dataFrame [0, 0, 0, 1, 0x07]].flatMap Frame.arrivals }
      [.workHandle, .workHandler [0], .workHandler [], .limited2] =
        some (uploading initialWindowSize []) := by
    decide +kernel
  rw [fresh_eq]
  refine (server_runs (reach_of_runAll hwrite)).trans <| (server_sends rfl).trans <|
    (client_receives rfl).trans ?_
  exact client_runs (reach_of_runAll hread)

/-- One chunk goes up. -/
theorem reach_upload {window : Nat} {read d : List Byte} {b : Side} {up down : List Frame}
    (hd : d.length = chunkSize) (hw : 32772 ≤ window) :
    Reach (step Zstd.raw) anyStep (between (uploading window read) b up down)
      (between (uploading (window - 32772) (read ++ d)) b (up ++ [dataFrame (chunkHeader ++ d)])
        down) :=
  (client_runs (reach_of_runAll (run_upload hd hw))).trans (client_sends rfl)

/-- One frame is written to `s1`, and the header of the next one read. -/
theorem reach_next {header2 d e r written : List Byte} {q : List (List Byte)}
    {updates : List (Frame × Callback)} (hheader : header2.length = 4) (hr : r.length = chunkSize)
    (hd : d.length = chunkSize) (he : 0 < e.length) :
    Reach (Side.step Zstd.raw) anyStep
      (draining header2 ((chunkHeader ++ d) :: (chunkHeader ++ e) :: q) updates written)
      (draining chunkHeader ((chunkHeader ++ e) :: q) (updates ++ sends (bodyEffects d))
        (written ++ d)) := by
  have hbody := run_body updates written hheader hr (Nat.le_of_eq hd)
    (Or.inr hd : (chunkHeader ++ e) :: q = [] ∨ d.length = chunkSize)
  have hzero : consumedAfter (4 + d.length) = 0 := by
    rw [hd]
    rfl
  have hall : r.drop d.length = [] := List.drop_eq_nil_of_le (by rw [hr, hd])
  rw [hzero, hall, List.append_nil] at hbody
  exact (reach_of_runAll hbody).next (.rawWritten true) trivial (step_header he)

/-- The last frame is written with what the buffer held where it is too short. -/
theorem reach_last {header2 e r : List Byte} (updates : List (Frame × Callback))
    (written : List Byte) (hheader : header2.length = 4) (he : e.length ≤ chunkSize)
    (hr : r.length = chunkSize) :
    ∃ s, Reach (Side.step Zstd.raw) anyStep
        (draining header2 [chunkHeader ++ e] updates written) s ∧
      s.bridge.rawWritten = written ++ (e ++ r.drop e.length) :=
  ⟨_, reach_of_runAll (run_body updates written hheader hr he (Or.inl rfl)), rfl⟩

/-- The server writes three frames, and then what it takes for the fourth. -/
theorem reach_drained {d₁ d₂ d₃ e r : List Byte} (h₁ : d₁.length = chunkSize)
    (h₂ : d₂.length = chunkSize) (h₃ : d₃.length = chunkSize) (hpos : 0 < e.length)
    (he : e.length ≤ chunkSize) (hr : r.length = chunkSize) :
    ∃ s, Reach (Side.step Zstd.raw) anyStep (waiting [.data (chunkHeader ++ d₁),
        .data (chunkHeader ++ d₂), .data (chunkHeader ++ d₃), .data (chunkHeader ++ e), .close]) s ∧
      s.bridge.rawWritten = d₁ ++ d₂ ++ d₃ ++ (e ++ r.drop e.length) := by
  have hsize : chunkSize = 32768 := rfl
  obtain ⟨updates, hthree⟩ : ∃ updates, Reach (Side.step Zstd.raw) anyStep
      (waiting [.data (chunkHeader ++ d₁), .data (chunkHeader ++ d₂), .data (chunkHeader ++ d₃),
        .data (chunkHeader ++ e), .close])
      (draining chunkHeader [chunkHeader ++ e] updates (d₁ ++ d₂ ++ d₃)) :=
    ⟨_, (reach_of_runAll (run_arrive (by omega))).trans <|
      (reach_next rfl hr h₁ (by omega)).trans <| (reach_next rfl hr h₂ (by omega)).trans <|
      reach_next rfl hr h₃ hpos⟩
  have hheader : chunkHeader.length = 4 := rfl
  obtain ⟨s, hs, hwritten⟩ := reach_last updates (d₁ ++ d₂ ++ d₃) hheader he hr
  exact ⟨s, hthree.trans hs, hwritten⟩

/-- **The end of a frame that a close has cut** is what the buffer held before. -/
theorem stale_bytes {d₁ d₂ d₃ d₄ r : List Byte} (h₁ : d₁.length = chunkSize)
    (h₂ : d₂.length = chunkSize) (h₃ : d₃.length = chunkSize) (h₄ : d₄.length = chunkSize)
    (hr : r.length = chunkSize) :
    ∃ t, Reach (step Zstd.raw) anyStep fresh t ∧
      (t.sides true).bridge.rawRead = d₁ ++ d₂ ++ d₃ ++ d₄ ∧
      (t.sides false).bridge.rawWritten = d₁ ++ d₂ ++ d₃ ++ (d₄.take 32752 ++ r.drop 32752) := by
  have hsize : chunkSize = 32768 := rfl
  have hcut : (chunkHeader ++ d₄).take 32756 = chunkHeader ++ d₄.take 32752 := by
    rw [List.take_append]
    rfl
  have hlen : (d₄.take 32752).length = 32752 := by
    rw [List.length_take]
    omega
  -- up to the FIN behind the first part of the fourth frame
  obtain ⟨s, s', hclose, hfin, hread⟩ :=
    run_close (d₁ ++ d₂ ++ d₃ ++ d₄) ((chunkHeader ++ d₄).drop 32756)
  have hblocked := run_cut (d₁ ++ d₂ ++ d₃) h₄ (by decide : 0 < 32756) (by decide)
  rw [hcut] at hblocked
  let way := [dataFrame (chunkHeader ++ d₁), dataFrame (chunkHeader ++ d₂),
    dataFrame (chunkHeader ++ d₃), dataFrame (chunkHeader ++ d₄.take 32752), finFrame]
  have hup : Reach (step Zstd.raw) anyStep fresh (between s' (waiting []) way []) :=
    reach_uploading.trans <| (reach_upload h₁ (by decide)).trans <|
      (reach_upload h₂ (by decide)).trans <| (reach_upload h₃ (by decide)).trans <|
      (client_runs (reach_of_runAll hblocked)).trans <| (client_sends rfl).trans <|
      (client_runs (reach_of_runAll hclose)).trans <| client_sends hfin
  -- down to the read that finds less than a body
  have hinbox : way.flatMap Frame.arrivals = [.data (chunkHeader ++ d₁),
      .data (chunkHeader ++ d₂), .data (chunkHeader ++ d₃), .data (chunkHeader ++ d₄.take 32752),
      .close] := by
    have hpos : ∀ d : List Byte, 0 < (chunkHeader ++ d).length := fun d => Nat.succ_pos _
    simp only [way, List.flatMap_cons, arrivals_dataFrame (hpos _), List.flatMap_nil]
    rfl
  have hin : Reach (step Zstd.raw) anyStep (between s' (waiting []) way [])
      (between s' (waiting ([] ++ way.flatMap Frame.arrivals)) [] []) := server_receives rfl
  rw [hinbox, List.nil_append] at hin
  have hle : (d₄.take 32752).length ≤ chunkSize := by omega
  obtain ⟨b, hb, hwritten⟩ := reach_drained h₁ h₂ h₃ (by omega) hle hr
  rw [hlen] at hwritten
  exact ⟨_, hup.trans (hin.trans (server_runs hb)), hread, hwritten⟩

end Tunnel

end Cfrp

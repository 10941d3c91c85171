import Cfrp.Mux.Half

/-!
# What a received frame does

The reader of a wire that holds frames of a session finds them one by one: `recv_cases`.
A frame of a stream adds one task to the strand of the object the table has for it, and
nothing if there is none; a SYN creates the object; the rest concerns no stream.
-/

namespace Cfrp.Mux

open Lib Session

namespace Pair

variable {r : Reading} {s : Session} {o : Nat} {obj : StreamObj}

/-! ## Reading frames off the wire -/

/-- The step of a read: it completes a header whose body is to follow, or a frame. -/
theorem recv_cases {p : Pair} {x : Bool} (hrun : (p x).stopped = false)
    (hwire : EncodedFrom (p x).reading (p !x).wire) {e : Session.Event} {left : List Byte}
    (hnext : p.nextRead x = some (e, left)) {s' : Session} (hstep : (p x).step e = some s') :
    (∃ h, s' = { p x with reading := .body h } ∧ EncodedFrom (.body h) left ∧
        parseFrom (.body h) left = parseFrom (p x).reading (p !x).wire) ∨
      ∃ f, SessionFrame f ∧ s' = { (p x).handleFrame f.header f.body with reading := .header } ∧
        Encoded left ∧
        parseFrom (p x).reading (p !x).wire = (f.header, f.body) :: parseFrames left := by
  rw [nextRead] at hnext
  split at hnext
  · -- the read of a header
    rename_i hreading
    rw [hreading] at hwire
    obtain ⟨fs, hfs, hw⟩ := hwire
    split at hnext
    · rename_i hsize
      obtain ⟨rfl, rfl⟩ : e = _ ∧ left = _ := by
        have heq := Option.some.inj hnext
        exact ⟨(congrArg Prod.fst heq).symm, (congrArg Prod.snd heq).symm⟩
      cases fs with
      | nil =>
          rw [hw] at hsize
          exact absurd hsize (by decide)
      | cons f fs =>
          have hf := hfs f List.mem_cons_self
          have hrest : Encoded (fs.flatMap encodeFrame) :=
            ⟨fs, fun g hg => hfs g (List.mem_cons_of_mem _ hg), rfl⟩
          have hhsize : f.header.encode.length = Header.size := f.header.length_encode
          have htake : (p !x).wire.take Header.size = f.header.encode := by
            rw [hw, List.flatMap_cons, encodeFrame, List.append_assoc, ← hhsize, List.take_left]
          have hdrop : (p !x).wire.drop Header.size = f.body ++ fs.flatMap encodeFrame := by
            rw [hw, List.flatMap_cons, encodeFrame, List.append_assoc, ← hhsize, List.drop_left]
          have hparse : parseFrom (p x).reading (p !x).wire =
              (f.header, f.body) :: parseFrames (fs.flatMap encodeFrame) := by
            rw [hreading, hw]
            exact parseFrames_encode hf.wellFormed _
          have hstep' : s' = (p x).headerRead f.header.encode := by
            rw [Session.step, if_pos ⟨hreading, by rw [htake]; exact hhsize⟩, htake] at hstep
            exact (Option.some.inj hstep).symm
          rw [headerRead, if_neg (by rw [hrun]; simp)] at hstep'
          simp only [Header.decode_encode] at hstep'
          rw [hdrop, hparse]
          by_cases hdata : f.header.type = FrameType.data ∧ f.header.length > 0
          · have hlimit := hf.wellFormed.limit
            rw [bodyLength, if_pos hdata.1] at hlimit
            rw [if_pos hdata, if_neg (by omega)] at hstep'
            exact Or.inl ⟨f.header, hstep', ⟨hdata.1, f, _, hf, rfl, rfl, hrest⟩,
              parseFrom_body hf.wellFormed _⟩
          · rw [if_neg hdata] at hstep'
            -- such a frame has no body
            have hbody : f.body = [] := by
              apply List.length_eq_zero_iff.mp
              rw [hf.wellFormed.body, bodyLength]
              split
              · rename_i ht
                rw [not_and] at hdata
                have hzero := hdata ht
                rw [gt_iff_lt, UInt32.lt_iff_toNat_lt, UInt32.toNat_zero] at hzero
                omega
              · rfl
            refine Or.inr ⟨f, hf, by rw [hbody]; exact hstep', ?_, ?_⟩
            · rw [hbody]
              exact hrest
            · rw [hbody]
              rfl
    · cases hnext
  · -- the read of a body
    rename_i h hreading
    rw [hreading] at hwire
    obtain ⟨ht, f, rest, hf, rfl, hw, hrest⟩ := hwire
    have hlen : f.header.length.toNat = f.body.length := by
      rw [hf.wellFormed.body, bodyLength, if_pos ht]
    split at hnext
    · obtain ⟨rfl, rfl⟩ : e = _ ∧ left = _ := by
        have heq := Option.some.inj hnext
        exact ⟨(congrArg Prod.fst heq).symm, (congrArg Prod.snd heq).symm⟩
      have htake : (p !x).wire.take f.header.length.toNat = f.body := by
        rw [hw, hlen, List.take_left]
      have hdrop : (p !x).wire.drop f.header.length.toNat = rest := by
        rw [hw, hlen, List.drop_left]
      have hstep' : s' = (p x).bodyRead f.header f.body := by
        simp only [Session.step, hreading, htake, if_pos hlen.symm] at hstep
        exact (Option.some.inj hstep).symm
      rw [bodyRead, if_neg (by rw [hrun]; simp)] at hstep'
      refine Or.inr ⟨f, hf, hstep', by rw [hdrop]; exact hrest, ?_⟩
      rw [hreading, hw, hlen, List.drop_left, parseFrom_body hf.wellFormed]
    · cases hnext
  · cases hnext

/-! ## Handling a frame -/

/-- A frame of a stream says exactly one thing. -/
theorem StreamFrame.arrivals_eq {id : UInt32} {f : Frame} (h : StreamFrame id f) :
    f.header.streamId = id ∧ ∃ a, f.arrivals = [a] := by
  cases h with
  | data bufs hpos hmax => exact ⟨rfl, _, arrivals_data rfl rfl hpos⟩
  | fin => exact ⟨rfl, _, arrivals_fin rfl rfl⟩
  | windowUpdate n => exact ⟨rfl, _, rfl⟩

/-- What `handle_frame` asks of its header. -/
theorem StreamFrame.kind {id : UInt32} {f : Frame} (h : StreamFrame id f) :
    (f.header.type = FrameType.data ∨ f.header.type = FrameType.windowUpdate) ∧
      ¬(f.header.type = FrameType.data ∧ f.header.flags &&& Flags.syn ≠ 0) := by
  cases h with
  | data bufs _ _ =>
      exact ⟨Or.inl rfl, fun hsyn => hsyn.2 (by show (0 : UInt16) &&& Flags.syn = 0; decide)⟩
  | fin => exact ⟨Or.inl rfl, fun hsyn => hsyn.2 (by show Flags.fin &&& Flags.syn = 0; decide)⟩
  | windowUpdate n =>
      exact ⟨Or.inr rfl, fun hsyn => absurd hsyn.1 (by show (1 : UInt8) ≠ 0; decide)⟩

theorem ControlFrame.arrivals_eq {f : Frame} (h : ControlFrame f) : f.arrivals = [] := by
  have hnoFin : ∀ h : Header, h.type = FrameType.data → h.flags &&& Flags.fin = 0 →
      Frame.arrivals ⟨h, []⟩ = [] := by
    intro h ht hf
    rw [Frame.arrivals, arrivals, if_pos ht, hf]
    rfl
  cases h with
  | syn id => exact hnoFin _ rfl (by show Flags.syn &&& Flags.fin = 0; decide)
  | ack id => exact hnoFin _ rfl (by show Flags.ack &&& Flags.fin = 0; decide)
  | ping => rfl
  | pong => rfl

/-- Tasks join the strand of an object. -/
theorem endAt_pushTasks (h : Half r s) (ho : s.objs[o]? = some obj)
    (tasks : List Task) (i : UInt32) :
    endAt (s.pushTasks o tasks) i =
      if i = obj.id then
        { endOf s obj with
          inbox := (endOf s obj).inbox ++ inbox tasks
          log := (endOf s obj).log ++ completions tasks }
      else endAt s i := by
  rw [pushTasks, endAt_modify h ho (f := fun obj => { obj with tasks := obj.tasks ++ tasks }) rfl]
  split
  · simp only [endOf, inbox_append, completions_append, List.append_assoc]
    rfl
  · rfl

theorem find_pushTasks (h : Half r s) (ho : s.objs[o]? = some obj)
    (tasks : List Task) (i : UInt32) :
    find (s.pushTasks o tasks) i =
      if i = obj.id then some { obj with tasks := obj.tasks ++ tasks } else find s i :=
  find_modify h ho rfl i

/-- What `handle_frame` looks up. -/
theorem streamFor_some {h : Header} (hl : s.streams.lookup h.streamId = some o) :
    s.streamFor h = (s, some o) := by
  rw [streamFor, hl]

theorem streamFor_none {h : Header} (hl : s.streams.lookup h.streamId = none)
    (hsyn : ¬(h.type = FrameType.data ∧ h.flags &&& Flags.syn ≠ 0)) :
    s.streamFor h = (s, none) := by
  rw [streamFor, hl]
  exact if_neg hsyn

theorem handleFrame_data {h : Header} {body : List Byte}
    (ht : h.type = FrameType.data ∨ h.type = FrameType.windowUpdate)
    (hl : s.streams.lookup h.streamId = some o) :
    s.handleFrame h body = s.pushTasks o ((arrivals h body).map Task.arrival) := by
  rw [handleFrame, if_pos ht, streamFor_some hl]

theorem handleFrame_dropped {h : Header} {body : List Byte}
    (ht : h.type = FrameType.data ∨ h.type = FrameType.windowUpdate)
    (hl : s.streams.lookup h.streamId = none)
    (hsyn : ¬(h.type = FrameType.data ∧ h.flags &&& Flags.syn ≠ 0)) :
    s.handleFrame h body = s := by
  rw [handleFrame, if_pos ht, streamFor_none hl hsyn]

theorem pushTasks_nil (s : Session) (o : Nat) : s.pushTasks o [] = s := by
  have hsame : (fun obj : StreamObj => { obj with tasks := obj.tasks ++ [] }) = fun obj => obj := by
    funext obj
    rw [List.append_nil]
  have hobjs : s.objs.modify o (fun obj => { obj with tasks := obj.tasks ++ [] }) = s.objs := by
    rw [hsame]
    exact List.modify_id _ _
  rw [pushTasks, modifyObj, hobjs]

theorem streamFor_syn {id : UInt32} (hl : s.streams.lookup id = none) :
    s.streamFor (synFrame id).header =
      ((addObj s s.nextStreamId id).postFrame ⟨ackFrame id, .none⟩, some s.objs.length) := by
  have hsyn : (synFrame id).header.type = FrameType.data ∧
      (synFrame id).header.flags &&& Flags.syn ≠ 0 :=
        ⟨rfl, by show Flags.syn &&& Flags.syn ≠ 0; decide⟩
  have hl' : s.streams.lookup (synFrame id).header.streamId = none := hl
  rw [streamFor, hl']
  exact if_pos hsyn

/-- A SYN creates the stream; its acknowledgement is posted. -/
theorem handleFrame_syn {id : UInt32} (hl : s.streams.lookup id = none) :
    s.handleFrame (synFrame id).header (synFrame id).body =
      (addObj s s.nextStreamId id).postFrame ⟨ackFrame id, .none⟩ := by
  have ht : (synFrame id).header.type = FrameType.data ∨
      (synFrame id).header.type = FrameType.windowUpdate := Or.inl rfl
  have harr : arrivals (synFrame id).header (synFrame id).body = [] :=
    ControlFrame.arrivals_eq (ControlFrame.syn id)
  rw [handleFrame, if_pos ht, streamFor_syn hl]
  simp only [harr, List.map_nil, pushTasks_nil]

/-- An ACK finds its stream, or not, and changes nothing. -/
theorem handleFrame_ack (id : UInt32) :
    s.handleFrame (ackFrame id).header (ackFrame id).body = s := by
  have ht : (ackFrame id).header.type = FrameType.data ∨
      (ackFrame id).header.type = FrameType.windowUpdate := Or.inl rfl
  have harr : arrivals (ackFrame id).header (ackFrame id).body = [] :=
    ControlFrame.arrivals_eq (ControlFrame.ack id)
  cases hl : s.streams.lookup (ackFrame id).header.streamId with
  | none =>
      refine handleFrame_dropped ht hl fun hsyn => hsyn.2 ?_
      show Flags.ack &&& Flags.syn = 0
      decide
  | some o => rw [handleFrame_data ht hl, harr, List.map_nil, pushTasks_nil]

theorem handleFrame_ping : s.handleFrame pingFrame.header pingFrame.body =
    s.postFrame ⟨pongFrame, .none⟩ := rfl

theorem handleFrame_pong : s.handleFrame pongFrame.header pongFrame.body = s := rfl

end Pair

end Cfrp.Mux

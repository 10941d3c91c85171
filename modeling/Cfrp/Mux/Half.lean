import Cfrp.Mux.Wire

/-!
# One session of a pair

`Half` is the invariant of a session that runs: its sending half is in order, its
objects have distinct identifiers, what its strand has posted says nothing to a stream,
and no task is the consequence of a failed write. Each part of a step of the session
keeps it, and shows in `endAt` and in the frames in flight as stated here.
-/

namespace Cfrp.Mux

open Lib Session

namespace Pair

/-- The invariant of a running session whose peer's read has come to `r`. -/
structure Half (r : Reading) (s : Session) : Prop where
  alive : s.alive = true
  running : s.stopped = false
  output : Output r s
  nodup : (s.objs.map StreamObj.id).Nodup
  table : ∀ i o, s.streams.lookup i = some o → ∃ obj, s.objs[o]? = some obj ∧ obj.id = i
  posted : ∀ pw, .sendFrame pw ∈ s.posted → ControlFrame pw.frame
  noFail : ∀ obj ∈ s.objs, ∀ ec, .failWrites ec ∉ obj.tasks
  /-- Nobody has called a stream whose SYN is still posted. -/
  quiet : ∀ obj ∈ s.objs, s.synPosted obj.id = true →
    obj.tasks = [] ∧ (s.streams.lookup obj.id).isSome = true

variable {r : Reading} {s : Session} {o : Nat} {obj : StreamObj}

theorem Half.find_eq (h : Half r s) (ho : s.objs[o]? = some obj) : find s obj.id = some obj :=
  findKey_of_getElem? h.nodup ho

/-! ## Changing an object -/

theorem Half.modify (h : Half r s) (ho : s.objs[o]? = some obj) {f : StreamObj → StreamObj}
    (hid : (f obj).id = obj.id) (hfail : ∀ ec, .failWrites ec ∉ (f obj).tasks)
    (hquiet : s.synPosted obj.id = true → (f obj).tasks = []) : Half r (s.modifyObj o f) where
  alive := h.alive
  running := h.running
  output := ⟨h.output.isWriting, h.output.busy, h.output.idle, h.output.queued, h.output.wire⟩
  nodup := by
    show ((s.objs.modify o f).map StreamObj.id).Nodup
    rw [map_key_modify ho hid]
    exact h.nodup
  table i o' hlookup := by
    obtain ⟨obj', ho', hi⟩ := h.table i o' hlookup
    show ∃ obj, (s.objs.modify o f)[o']? = some obj ∧ _
    rw [List.getElem?_modify]
    by_cases heq : o = o'
    · subst heq
      rw [ho] at ho'
      cases ho'
      exact ⟨f obj, by simp [ho], hid.trans hi⟩
    · exact ⟨obj', by simp [heq, ho'], hi⟩
  posted := h.posted
  noFail obj' hm ec := by
    rcases mem_modify ho hm with rfl | hm
    · exact hfail ec
    · exact h.noFail obj' hm ec
  quiet obj' hm := by
    show s.synPosted obj'.id = true → _ ∧ (s.streams.lookup obj'.id).isSome = true
    rcases mem_modify ho hm with rfl | hm
    · rw [hid]
      exact fun hsyn => ⟨hquiet hsyn, (h.quiet obj (List.mem_of_getElem? ho) hsyn).2⟩
    · exact h.quiet obj' hm

theorem find_modify (h : Half r s) (ho : s.objs[o]? = some obj) {f : StreamObj → StreamObj}
    (hid : (f obj).id = obj.id) (i : UInt32) :
    find (s.modifyObj o f) i = if i = obj.id then some (f obj) else find s i :=
  findKey_modify h.nodup ho hid i

/-- The end seen of a changed object. -/
theorem endAt_modify (h : Half r s) (ho : s.objs[o]? = some obj) {f : StreamObj → StreamObj}
    (hid : (f obj).id = obj.id) (i : UInt32) :
    endAt (s.modifyObj o f) i = if i = obj.id then endOf s (f obj) else endAt s i := by
  rw [endAt, find_modify h ho hid]
  split
  · rfl
  · rfl

/-! ## Performing an operation -/

theorem map_pendingFrames (o : Nat) (es : List Effect) :
    (pendingFrames o es).map PendingFrame.frame = frames es := by
  induction es with
  | nil => rfl
  | cons e es ih =>
      cases e with
      | post c => exact ih
      | removeStream => exact ih
      | send f cb => cases cb <;> exact congrArg (List.cons f) ih

theorem perform_same (s : Session) (o : Nat) (res : MuxStream × List Effect) :
    SameButOutput { s.modifyObj o (afterOp res) with
      streams := if removes res.2 then s.streams.erase res.1.id else s.streams }
      (s.perform o res) :=
  sendAll_same _ _

theorem perform_objs (s : Session) (o : Nat) (res : MuxStream × List Effect) :
    (s.perform o res).objs = s.objs.modify o (afterOp res) := (perform_same s o res).objs

theorem perform_streams (s : Session) (o : Nat) (res : MuxStream × List Effect) :
    (s.perform o res).streams = if removes res.2 then s.streams.erase res.1.id else s.streams :=
  (perform_same s o res).streams

theorem perform_posted (s : Session) (o : Nat) (res : MuxStream × List Effect) :
    (s.perform o res).posted = s.posted := (perform_same s o res).posted

/-- An operation of a stream: it keeps the identifier, and its frames are the stream's. -/
structure StreamOp (id : UInt32) (res : MuxStream × List Effect) : Prop where
  sameId : res.1.id = id
  frames : ∀ f ∈ frames res.2, StreamFrame id f

theorem Half.perform (h : Half r s) (ho : s.objs[o]? = some obj) {res : MuxStream × List Effect}
    (hop : StreamOp obj.id res) (hcalled : s.synPosted obj.id = false) :
    Half r (s.perform o res) ∧
      flight r (s.perform o res) = flight r s ++
        (frames res.2).map fun f => (f.header, f.body) := by
  have hid : (afterOp res obj).id = obj.id := hop.sameId
  have hmod := h.modify ho hid (fun ec hm => by
    rcases List.mem_append.mp hm with hm | hm
    · exact h.noFail obj (List.mem_of_getElem? ho) ec hm
    · simp at hm) (by rw [hcalled]; intro hf; cases hf)
  have hframes : ∀ pw ∈ pendingFrames o res.2, SessionFrame pw.frame := by
    intro pw hpw
    have hm : pw.frame ∈ frames res.2 := by
      rw [← map_pendingFrames o]
      exact List.mem_map_of_mem hpw
    exact SessionFrame.stream _ (hop.frames _ hm)
  have hsame := perform_same s o res
  -- the object changes first and the frames follow, one after the other
  have hbase : Output r { s.modifyObj o (afterOp res) with
      streams := if removes res.2 then s.streams.erase res.1.id else s.streams } :=
    ⟨h.output.isWriting, h.output.busy, h.output.idle, h.output.queued, h.output.wire⟩
  obtain ⟨hout, hflight⟩ := hbase.sendAll (pendingFrames o res.2) h.running hframes
  refine ⟨⟨?_, ?_, hout, ?_, ?_, ?_, ?_, ?_⟩, ?_⟩
  · exact hsame.alive.trans h.alive
  · exact hsame.stopped.trans h.running
  · rw [perform_objs]; exact hmod.nodup
  · rw [perform_objs, perform_streams]
    intro i o' hlookup
    refine hmod.table i o' ?_
    split at hlookup
    · exact Table.lookup_of_lookup_erase hlookup
    · exact hlookup
  · rw [perform_posted]; exact h.posted
  · rw [perform_objs]; exact hmod.noFail
  · rw [perform_objs]
    intro obj' hm hsyn
    rw [synPosted, perform_posted] at hsyn
    obtain ⟨htasks, hlookup⟩ := hmod.quiet obj' hm hsyn
    refine ⟨htasks, ?_⟩
    -- the stream performed on is not one of those
    have hne : obj'.id ≠ obj.id := by
      intro heq
      have hcalled' : s.synPosted obj'.id = true := hsyn
      rw [heq, hcalled] at hcalled'
      cases hcalled'
    rw [perform_streams, hop.sameId]
    split
    · rw [Table.lookup_erase_if, if_neg hne]
      exact hlookup
    · exact hlookup
  · show flight r ((pendingFrames o res.2).foldl asyncSendFrame _) = _
    rw [hflight]
    have hmap : (pendingFrames o res.2).map asReceived =
        (frames res.2).map fun f => (f.header, f.body) := by
      rw [← map_pendingFrames o, List.map_map]
      rfl
    rw [hmap]
    rfl

theorem find_perform (h : Half r s) (ho : s.objs[o]? = some obj) {res : MuxStream × List Effect}
    (hop : StreamOp obj.id res) (i : UInt32) :
    find (s.perform o res) i = if i = obj.id then some (afterOp res obj) else find s i := by
  rw [find, perform_objs]
  exact find_modify h ho (f := afterOp res) hop.sameId i

theorem inbox_append (l l' : List Task) : inbox (l ++ l') = inbox l ++ inbox l' :=
  List.filterMap_append

theorem completions_append (l l' : List Task) :
    completions (l ++ l') = completions l ++ completions l' := List.filterMap_append

theorem inbox_map_complete (cs : List Completion) : inbox (cs.map Task.complete) = [] := by
  induction cs with
  | nil => rfl
  | cons c cs ih => exact ih

theorem completions_map_complete (cs : List Completion) :
    completions (cs.map Task.complete) = cs := by
  induction cs with
  | nil => rfl
  | cons c cs ih => exact congrArg (List.cons c) ih

theorem completions_map_arrival (l : List Arrival) : completions (l.map Task.arrival) = [] := by
  induction l with
  | nil => rfl
  | cons a l ih => exact ih

/-- The end seen of an object after an operation, in the words of `Link.perform`. -/
theorem endAt_perform (h : Half r s) (ho : s.objs[o]? = some obj) {res : MuxStream × List Effect}
    (hop : StreamOp obj.id res) (i : UInt32) :
    endAt (s.perform o res) i =
      if i = obj.id then
        { endOf s obj with
          stream := res.1
          log := (endOf s obj).log ++ posts res.2
          removed := (endOf s obj).removed || removes res.2
          sent := (endOf s obj).sent ++ dataOf (told res.2) }
      else endAt s i := by
  have hid : (afterOp res obj).id = obj.id := hop.sameId
  rw [endAt, find_perform h ho hop]
  by_cases hi : i = obj.id
  · rw [if_pos hi, if_pos hi]
    show endOf (s.perform o res) (afterOp res obj) = _
    have hremoved : ((s.perform o res).streams.lookup obj.id).isNone =
        ((s.streams.lookup obj.id).isNone || removes res.2) := by
      rw [perform_streams, hop.sameId]
      cases removes res.2 with
      | true => rw [if_pos rfl, Table.lookup_erase_if, if_pos rfl, Bool.or_true]; rfl
      | false => rw [if_neg Bool.false_ne_true, Bool.or_false]
    rw [endOf, hid, hremoved]
    simp only [endOf, afterOp, inbox_append, inbox_map_complete,
      completions_append, completions_map_complete, List.append_nil, List.append_assoc]
  · rw [if_neg hi, if_neg hi, endAt]
    cases hfind : find s i with
    | none => rfl
    | some obj' =>
        have hi' : obj'.id = i := (mem_of_findKey hfind).2
        have hlookup : (s.perform o res).streams.lookup obj'.id = s.streams.lookup obj'.id := by
          rw [perform_streams, hop.sameId, hi']
          split
          · rw [Table.lookup_erase_if, if_neg hi]
          · rfl
        show endOf (s.perform o res) obj' = endOf s obj'
        rw [endOf, endOf, hlookup]

/-! ## The operations of a stream -/

theorem streamOp_doWrite (s : MuxStream) : StreamOp s.id s.doWrite where
  sameId := by rw [(MuxStream.doWrite_wrote s).same]
  frames := (MuxStream.doWrite_wrote s).frames

theorem streamOp_doRead (s : MuxStream) : StreamOp s.id s.doRead where
  sameId := by rw [MuxStream.doRead_same s]
  frames := MuxStream.doRead_frames s

theorem streamOp_asyncRead (s : MuxStream) (size : Nat) (handler : Handler) (readAll : Bool) :
    StreamOp s.id (s.asyncRead size handler readAll) := by
  rw [MuxStream.asyncRead]
  split
  · exact ⟨rfl, by simp⟩
  · exact streamOp_doRead { s with pendingReads := s.pendingReads ++ [⟨size, handler, readAll⟩] }

theorem streamOp_asyncWrite (s : MuxStream) (buffers : List (List Byte)) (handler : Handler) :
    StreamOp s.id (s.asyncWrite buffers handler) := by
  rw [MuxStream.asyncWrite]
  split
  · exact ⟨rfl, by simp⟩
  · exact streamOp_doWrite { s with pendingWrites := s.pendingWrites ++ [⟨buffers, handler⟩] }

theorem streamOp_close (s : MuxStream) : StreamOp s.id s.close := by
  rw [MuxStream.close]
  split
  · exact ⟨rfl, by simp⟩
  · refine ⟨rfl, ?_⟩
    simp only [frames_append, MuxStream.frames_abortEffects, MuxStream.frames_checkCleanup,
      List.append_nil]
    intro f hf
    split at hf
    · rw [frames_send, frames_nil, List.mem_singleton] at hf
      exact hf ▸ StreamFrame.fin
    · cases hf

theorem streamOp_destroy (s : MuxStream) : StreamOp s.id s.destroy where
  sameId := rfl
  frames := by
    rw [MuxStream.destroy, MuxStream.frames_abortEffects]
    intro f hf
    cases hf

theorem streamOp_handle (s : MuxStream) (a : Arrival) : StreamOp s.id (s.handle a) := by
  cases a with
  | data bytes => exact streamOp_doRead { s with readQueue := s.readQueue ++ [bytes] }
  | windowUpdate delta =>
      exact streamOp_doWrite
        { s with remoteWindowSize := min (s.remoteWindowSize + delta.toNat) maxMessageSize }
  | close =>
      have hop := streamOp_doRead { s with remoteClosed := true }
      refine ⟨hop.sameId, ?_⟩
      show ∀ f ∈ frames (_ ++ MuxStream.checkCleanup _), _
      rw [frames_append, MuxStream.frames_checkCleanup, List.append_nil]
      exact hop.frames

/-! ## Control frames -/

theorem Half.congr {s' : Session} (h : Half r s) (halive : s'.alive = s.alive)
    (hstopped : s'.stopped = s.stopped) (hobjs : s'.objs = s.objs)
    (hstreams : s'.streams = s.streams)
    (hout : Output r s') (hposted : ∀ pw, .sendFrame pw ∈ s'.posted → ControlFrame pw.frame)
    (hquiet : ∀ i, s'.synPosted i = true → s.synPosted i = true ∨ find s i = none) : Half r s' := by
  refine ⟨halive.trans h.alive, hstopped.trans h.running, hout, by rw [hobjs]; exact h.nodup,
    by rw [hobjs, hstreams]; exact h.table, hposted, by rw [hobjs]; exact h.noFail, ?_⟩
  rw [hobjs, hstreams]
  intro obj hm hsyn
  rcases hquiet _ hsyn with hsyn | hnone
  · exact h.quiet obj hm hsyn
  · exact absurd rfl (findKey_eq_none.mp hnone obj hm)

/-- A control frame is queued. -/
theorem Half.enqueue (h : Half r s) (pw : PendingFrame) (hpw : ControlFrame pw.frame) :
    Half r (s.asyncSendFrame pw) ∧ flight r (s.asyncSendFrame pw) = flight r s ++
      [asReceived pw] := by
  obtain ⟨hout, hflight⟩ := h.output.asyncSendFrame h.running (SessionFrame.control hpw)
  have hsame := asyncSendFrame_same s pw
  refine ⟨h.congr hsame.alive hsame.stopped hsame.objs hsame.streams hout
    (by rw [hsame.posted]; exact h.posted) fun i hi => ?_, hflight⟩
  rw [synPosted, hsame.posted] at hi
  exact Or.inl hi

/-- The first posted frame is queued. -/
theorem Half.runPosted (h : Half r s) {pw : PendingFrame} {rest : List SessionTask}
    (hp : s.posted = .sendFrame pw :: rest) :
    Half r ({ s with posted := rest }.asyncSendFrame pw) ∧
      flight r ({ s with posted := rest }.asyncSendFrame pw) = flight r s ++ [asReceived pw] := by
  have hpw := h.posted pw (by rw [hp]; exact List.mem_cons_self)
  have hrest : Half r { s with posted := rest } := by
    refine h.congr rfl rfl rfl rfl ⟨h.output.isWriting, h.output.busy, h.output.idle,
      h.output.queued, h.output.wire⟩ ?_ ?_
    · intro g hg
      exact h.posted g (by rw [hp]; exact List.mem_cons_of_mem _ hg)
    · intro i hi
      refine Or.inl ?_
      rw [synPosted, hp, List.any_cons]
      exact Bool.or_eq_true_iff.mpr (Or.inr hi)
  exact hrest.enqueue pw hpw

/-- The end of a write. -/
theorem Half.writeOk (h : Half r s) (hw : s.writing = true) {s' : Session}
    (hstep : s.writeDone .success = some s') :
    Half r s' ∧ flight r s' = flight r s ∧ s'.objs = s.objs ∧ s'.streams = s.streams ∧
      s'.posted = s.posted ∧ s'.reading = s.reading ∧ s'.nextStreamId = s.nextStreamId := by
  rw [writeDone] at hstep
  split at hstep
  · cases hstep
  · rename_i pw rest hq
    have hcall : ∃ inv, callHandler { s with writeQueue := rest, writing := false }
      .success pw.handler =
        { s with writeQueue := rest, writing := false, invoked := inv } := by
      cases pw.handler with
      | none => exact ⟨s.invoked, rfl⟩
      | failPending o => exact ⟨s.invoked, rfl⟩
      | invoke handler n => exact ⟨_, rfl⟩
      | user handler => exact ⟨_, rfl⟩
    obtain ⟨inv, hcall⟩ := hcall
    have hinv : Output r { s with invoked := inv } :=
      ⟨h.output.isWriting, h.output.busy, h.output.idle, h.output.queued, h.output.wire⟩
    obtain ⟨hout, hflight⟩ := hinv.writeOk h.running hw hq
    have hs' : s' = doWrite { s with writeQueue := rest, writing := false, invoked := inv } := by
      rw [← hcall]
      exact (Option.some.inj hstep).symm
    have hsame := doWrite_same { s with writeQueue := rest, writing := false, invoked := inv }
    rw [← hs'] at hsame hout hflight
    refine ⟨h.congr hsame.alive hsame.stopped hsame.objs hsame.streams hout
      (by rw [hsame.posted]; exact h.posted) fun i hi => ?_, hflight, hsame.objs, hsame.streams,
      hsame.posted, hsame.reading, hsame.nextStreamId⟩
    rw [synPosted, hsame.posted] at hi
    exact Or.inl hi

/-! ## New streams -/

/-- A session with one more stream. -/
def addObj (s : Session) (next id : UInt32) : Session :=
  { s with
    nextStreamId := next
    objs := s.objs ++ [StreamObj.new id]
    streams := s.streams.insert id s.objs.length }

theorem find_addObj {next id : UInt32} (hnew : find s id = none) (i : UInt32) :
    find (addObj s next id) i = if i = id then some (StreamObj.new id) else find s i :=
  findKey_concat (a := StreamObj.new id) (findKey_eq_none.mp hnew) i

/-- A stream nobody has used looks like one that does not exist. -/
theorem endAt_addObj {next id : UInt32} (hnew : find s id = none) (i : UInt32) :
    endAt (addObj s next id) i = endAt s i := by
  rw [endAt, find_addObj hnew]
  by_cases hi : i = id
  · rw [if_pos hi, endAt, hi, hnew]
    show endOf (addObj s next id) (StreamObj.new id) = _
    have hlookup : ((addObj s next id).streams.lookup (StreamObj.new id).id).isNone = false := by
      show ((s.streams.insert id s.objs.length).lookup id).isNone = false
      rw [AList.lookup_insert]
      rfl
    rw [endOf, hlookup]
    rfl
  · rw [if_neg hi, endAt]
    cases hfind : find s i with
    | none => rfl
    | some obj =>
        have hid : obj.id = i := (mem_of_findKey hfind).2
        show endOf (addObj s next id) obj = endOf s obj
        have hlookup : (addObj s next id).streams.lookup obj.id = s.streams.lookup obj.id := by
          show (s.streams.insert id s.objs.length).lookup obj.id = _
          rw [Table.lookup_insert_if, if_neg (by rw [hid]; exact hi)]
        rw [endOf, endOf, hlookup]

theorem Half.addObj (h : Half r s) (next : UInt32) {id : UInt32} (hnew : find s id = none) :
    Half r (addObj s next id) where
  alive := h.alive
  running := h.running
  output := ⟨h.output.isWriting, h.output.busy, h.output.idle, h.output.queued, h.output.wire⟩
  nodup := nodup_concat (a := StreamObj.new id) h.nodup (findKey_eq_none.mp hnew)
  table i o hlookup := by
    show ∃ obj, (s.objs ++ [StreamObj.new id])[o]? = some obj ∧ obj.id = i
    have hl : (s.streams.insert id s.objs.length).lookup i = some o := hlookup
    rw [Table.lookup_insert_if] at hl
    split at hl
    · rename_i hi
      cases hl
      exact ⟨StreamObj.new id, by simp, hi.symm⟩
    · obtain ⟨obj, ho, hi⟩ := h.table i o hl
      exact ⟨obj, by rw [List.getElem?_append_left (List.getElem?_eq_some_iff.mp ho).1, ho], hi⟩
  posted := h.posted
  noFail obj hm ec := by
    rcases List.mem_append.mp hm with hm | hm
    · exact h.noFail obj hm ec
    · rw [List.mem_singleton.mp hm]
      exact List.not_mem_nil
  quiet obj hm hsyn := by
    show _ ∧ ((s.streams.insert id s.objs.length).lookup obj.id).isSome = true
    rcases List.mem_append.mp hm with hm | hm
    · obtain ⟨htasks, hlookup⟩ := h.quiet obj hm hsyn
      refine ⟨htasks, ?_⟩
      rw [Table.lookup_insert_if]
      split
      · rfl
      · exact hlookup
    · rw [List.mem_singleton.mp hm]
      refine ⟨rfl, ?_⟩
      rw [Table.lookup_insert_if, if_pos (show (StreamObj.new id).id = id from rfl)]
      rfl

/-- A control frame is posted. A SYN is posted before anybody can use its stream. -/
theorem Half.post (h : Half r s) {pw : PendingFrame} (hpw : ControlFrame pw.frame)
    (hsyn : ∀ obj ∈ s.objs, (s.postFrame pw).synPosted obj.id = true →
      s.synPosted obj.id = true ∨ obj.tasks = [] ∧ (s.streams.lookup obj.id).isSome = true) :
    Half r (s.postFrame pw) where
  alive := h.alive
  running := h.running
  output := ⟨h.output.isWriting, h.output.busy, h.output.idle, h.output.queued, h.output.wire⟩
  nodup := h.nodup
  table := h.table
  posted g hg := by
    rcases List.mem_append.mp hg with hg | hg
    · exact h.posted g hg
    · cases List.mem_singleton.mp hg
      exact hpw
  noFail := h.noFail
  quiet obj hm hi := (hsyn obj hm hi).elim (h.quiet obj hm) id

theorem synPosted_postFrame (s : Session) (pw : PendingFrame) (i : UInt32) :
    (s.postFrame pw).synPosted i =
      (s.synPosted i || decide (pw.frame.header.streamId = i ∧ pw.frame.header.flags = Flags.syn ∧
        pw.frame.header.type = FrameType.data)) := by
  rw [synPosted, postFrame, List.any_append]
  simp [synPosted]

theorem postedFrames_postFrame (s : Session) (pw : PendingFrame) :
    postedFrames (s.postFrame pw) = postedFrames s ++ [asReceived pw] := by
  rw [postedFrames, postFrame, List.filterMap_append]
  rfl

/-- A control frame that is no SYN is posted. -/
theorem Half.postSilent (h : Half r s) (pw : PendingFrame) (hpw : ControlFrame pw.frame)
    (hsyn : ∀ i, pw.frame.header ≠ (synFrame i).header) : Half r (s.postFrame pw) := by
  refine h.post hpw fun obj _ hi => ?_
  rw [synPosted_postFrame, Bool.or_eq_true] at hi
  rcases hi with hi | hi
  · exact Or.inl hi
  · obtain ⟨-, hflags, htype⟩ := of_decide_eq_true hi
    obtain ⟨frame, handler⟩ := pw
    cases hpw with
    | syn id => exact absurd rfl (hsyn id)
    | ack id => exact absurd hflags (by show (2 : UInt16) ≠ 1; decide)
    | ping => exact absurd htype (by show (2 : UInt8) ≠ 0; decide)
    | pong => exact absurd htype (by show (2 : UInt8) ≠ 0; decide)

end Pair

end Cfrp.Mux

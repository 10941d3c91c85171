import Cfrp.Mux.Refine

/-!
# Closed streams and the table

A stream that both sides have closed is taken out of the session's table by
`check_cleanup`, which waits for an empty read queue. `close` empties the queue, but
`handle_data` does not look at `local_closed_`: payload that arrives between `close` and
the FIN of the peer stays, and with it the stream. As long as no data frame is handled
by a stream that was closed, `Tidy` is kept by every step of a running session,
whatever its peer sends.
-/

namespace Cfrp.Mux

open Lib

namespace MuxStream

/-- A stream of a session: what `close` leaves unread is nothing. -/
structure Kept (s : MuxStream) : Prop where
  linked : s.session = true
  emptied : s.localClosed = true → s.readQueue = []

/-- Both sides have closed the stream. -/
def BothClosed (s : MuxStream) : Prop := s.localClosed = true ∧ s.remoteClosed = true

/-- What an operation does for a stream that has to be taken out of the table: the
operation that completes the closing takes it out. -/
structure CleansUp (s : MuxStream) (r : MuxStream × List Effect) : Prop where
  sameId : r.1.id = s.id
  kept : r.1.Kept
  cleaned : r.1.BothClosed → s.BothClosed ∨ removes r.2 = true

variable {s : MuxStream}

theorem removes_checkCleanup (hs : s.Kept) (hb : s.BothClosed) : removes s.checkCleanup = true := by
  have hq := hs.emptied hb.1
  rw [checkCleanup, hb.1, hb.2, hq, hs.linked]
  rfl

theorem copyOut_nil (offset n : Nat) : (copyOut [] offset n).2.1 = [] := rfl

/-- Reading adds nothing to an empty queue. -/
theorem readLoop_empty (n : Nat) (s : MuxStream) (h : s.readQueue = []) :
    (loop readTurn n s).1.readQueue = [] := by
  refine loop_induct (R := fun s _ s' => s.readQueue = [] → s'.readQueue = [])
    (fun _ h => h) ?_ n s h
  intro s es s' es' s'' hturn hrest hq
  refine hrest ?_
  obtain ⟨pr, rest, -, ⟨-, -, rfl, -⟩ | ⟨r, consumed, done, hr, -, -, hcase⟩⟩ :=
    readTurn_cases hturn
  · exact hq
  · have hempty : r.2.1 = [] := by rw [hr, hq, copyOut_nil]
    rcases hcase with ⟨-, rfl, -⟩ | ⟨-, rfl, -⟩
    · exact hempty
    · exact hempty

theorem doRead_kept (hs : s.Kept) : s.doRead.1.Kept where
  linked := by rw [doRead_same]; exact hs.linked
  emptied hl := by
    rw [doRead_same] at hl
    exact readLoop_empty _ s (hs.emptied hl)

/-- `do_read_from_buffer` ends with `check_cleanup`. -/
theorem doRead_cleansUp (hs : s.Kept) : CleansUp s s.doRead where
  sameId := by rw [doRead_same]
  kept := doRead_kept hs
  cleaned hb := by
    refine Or.inr ?_
    have hcleanup := removes_checkCleanup (doRead_kept hs) hb
    show removes (_ ++ s.doRead.1.checkCleanup) = true
    rw [removes_append, hcleanup, Bool.or_true]

theorem doWrite_cleansUp (hs : s.Kept) : CleansUp s s.doWrite := by
  have hsame := (doWrite_wrote s).same
  refine ⟨by rw [hsame], ⟨by rw [hsame]; exact hs.linked, ?_⟩, fun hb => Or.inl ?_⟩
  · rw [hsame]
    exact hs.emptied
  · rw [hsame] at hb
    exact hb

theorem asyncRead_cleansUp (hs : s.Kept) (size : Nat) (handler : Handler) (readAll : Bool) :
    CleansUp s (s.asyncRead size handler readAll) := by
  rw [asyncRead]
  split
  · exact ⟨rfl, hs, Or.inl⟩
  · have hpending : Kept { s with pendingReads := s.pendingReads ++ [⟨size, handler, readAll⟩] } :=
      ⟨hs.linked, hs.emptied⟩
    have h := doRead_cleansUp hpending
    exact ⟨h.sameId, h.kept, h.cleaned⟩

theorem asyncWrite_cleansUp (hs : s.Kept) (buffers : List (List Byte)) (handler : Handler) :
    CleansUp s (s.asyncWrite buffers handler) := by
  rw [asyncWrite]
  split
  · exact ⟨rfl, hs, Or.inl⟩
  · have hpending : Kept { s with pendingWrites := s.pendingWrites ++ [⟨buffers, handler⟩] } :=
      ⟨hs.linked, hs.emptied⟩
    have h := doWrite_cleansUp hpending
    exact ⟨h.sameId, h.kept, h.cleaned⟩

theorem close_cleansUp (hs : s.Kept) : CleansUp s s.close := by
  rw [close]
  split
  · exact ⟨rfl, hs, Or.inl⟩
  · have hclosed : Kept { s with
        localClosed := true, pendingReads := [], pendingWrites := [], readQueue := [] } :=
      ⟨hs.linked, fun _ => rfl⟩
    refine ⟨rfl, hclosed, fun hb => Or.inr ?_⟩
    simp only [removes_append, removes_checkCleanup hclosed hb, Bool.or_true]

theorem handleClose_cleansUp (hs : s.Kept) : CleansUp s s.handleClose := by
  have hremote : Kept { s with remoteClosed := true } := ⟨hs.linked, hs.emptied⟩
  have h := doRead_cleansUp hremote
  refine ⟨h.sameId, h.kept, fun hb => Or.inr ?_⟩
  show removes (_ ++ checkCleanup _) = true
  rw [removes_append, removes_checkCleanup h.kept hb, Bool.or_true]

/-- Data is only good for a stream that is open. -/
theorem handleData_cleansUp (hs : s.Kept) (hopen : s.localClosed = false) (bytes : List Byte) :
    CleansUp s (s.handleData bytes) := by
  have hqueued : Kept { s with readQueue := s.readQueue ++ [bytes] } :=
    ⟨hs.linked, fun hl => by rw [show s.localClosed = true from hl] at hopen; cases hopen⟩
  have h := doRead_cleansUp hqueued
  exact ⟨h.sameId, h.kept, h.cleaned⟩

theorem handle_cleansUp (hs : s.Kept) (a : Arrival)
    (hdata : ∀ bytes, a = .data bytes → s.localClosed = false) : CleansUp s (s.handle a) := by
  cases a with
  | data bytes => exact handleData_cleansUp hs (hdata bytes rfl) bytes
  | windowUpdate delta =>
      have hwindow : Kept { s with
          remoteWindowSize := min (s.remoteWindowSize + delta.toNat) maxMessageSize } :=
        ⟨hs.linked, hs.emptied⟩
      have h := doWrite_cleansUp hwindow
      exact ⟨h.sameId, h.kept, h.cleaned⟩
  | close => exact handleClose_cleansUp hs

theorem failWrites_cleansUp (hs : s.Kept) (ec : ErrorCode) : CleansUp s (s.failWrites ec) :=
  ⟨rfl, ⟨hs.linked, hs.emptied⟩, Or.inl⟩

end MuxStream

namespace Session

open MuxStream Pair

/-! ## The invariant -/

/-- What a stream object owes the table `t`, whose entry for it would be `o`. -/
structure ObjTidy (t : Table UInt32 Nat) (o : Nat) (obj : StreamObj) : Prop where
  kept : obj.stream.Kept
  gone : obj.stream.BothClosed → ∀ i, t.lookup i ≠ some o

/-- **The invariant of a running session.** The table knows its objects, and no object
that both sides have closed is in it. -/
structure Tidy (s : Session) : Prop where
  table : ∀ i o, s.streams.lookup i = some o → ∃ obj, s.objs[o]? = some obj ∧ obj.id = i
  objs : ∀ o obj, s.objs[o]? = some obj → obj.destroyed = false → ObjTidy s.streams o obj

variable {s s' : Session} {o : Nat} {obj : StreamObj}

theorem Tidy.congr (h : Tidy s) (hobjs : s'.objs = s.objs) (hstreams : s'.streams = s.streams) :
    Tidy s' where
  table := by rw [hobjs, hstreams]; exact h.table
  objs := by rw [hobjs, hstreams]; exact h.objs

theorem Tidy.same (h : Tidy s) (hsame : SameButOutput s s') : Tidy s' :=
  h.congr hsame.objs hsame.streams

/-- An object is replaced by one with the same identifier; the table loses entries. -/
theorem Tidy.modify (h : Tidy s) (ho : s.objs[o]? = some obj) {f : StreamObj → StreamObj}
    (hid : (f obj).id = obj.id) {t : Table UInt32 Nat}
    (hsub : ∀ i o', t.lookup i = some o' → s.streams.lookup i = some o')
    (hobj : (f obj).destroyed = false → ObjTidy t o (f obj)) :
    Tidy { s.modifyObj o f with streams := t } where
  table i o' hlookup := by
    obtain ⟨obj', ho', hi⟩ := h.table i o' (hsub i o' hlookup)
    show ∃ obj, (s.objs.modify o f)[o']? = some obj ∧ _
    rw [List.getElem?_modify]
    by_cases heq : o = o'
    · subst heq
      rw [ho] at ho'
      cases ho'
      exact ⟨f obj, by simp [ho], hid.trans hi⟩
    · exact ⟨obj', by simp [heq, ho'], hi⟩
  objs o' obj' ho' hd := by
    rcases of_getElem?_modify ho ho' with ⟨rfl, rfl⟩ | ⟨-, ho'⟩
    · exact hobj hd
    · have hold := h.objs o' obj' ho' hd
      exact ⟨hold.kept, fun hb i hlookup => hold.gone hb i (hsub i o' hlookup)⟩

/-- Something about an object changes that the table does not depend on. -/
theorem Tidy.retouch (h : Tidy s) {f : StreamObj → StreamObj}
    (hstream : ∀ obj, (f obj).stream = obj.stream) (hd : ∀ obj, (f obj).destroyed = obj.destroyed) :
    Tidy (s.modifyObj o f) := by
  cases ho : s.objs[o]? with
  | none =>
      refine h.congr ?_ rfl
      show s.objs.modify o f = s.objs
      rw [List.modify_eq_set_getElem?, ho]
      rfl
  | some obj =>
      refine h.modify ho (congrArg MuxStream.id (hstream obj)) (fun _ _ hl => hl) fun hdest => ?_
      rw [hd] at hdest
      have hold := h.objs o obj ho hdest
      exact ⟨by rw [hstream]; exact hold.kept, by rw [hstream]; exact hold.gone⟩

/-- An operation that cleans up after itself. -/
theorem Tidy.perform (h : Tidy s) (ho : s.objs[o]? = some obj) {r : MuxStream × List Effect}
    (hid : r.1.id = obj.id) (hop : obj.destroyed = false → CleansUp obj.stream r) :
    Tidy (s.perform o r) := by
  refine Tidy.same ?_ (perform_same s o r)
  refine h.modify ho (f := afterOp r) hid (fun i o' hl => ?_) fun hd => ?_
  · split at hl
    · exact Table.lookup_of_lookup_erase hl
    · exact hl
  · have hold := h.objs o obj ho hd
    have hclean := hop hd
    refine ⟨hclean.kept, fun hb i hl => ?_⟩
    -- an entry for the object was there before, under its identifier
    have hbefore : s.streams.lookup i = some o := by
      split at hl
      · exact Table.lookup_of_lookup_erase hl
      · exact hl
    rcases hclean.cleaned hb with hb | hremoves
    · exact hold.gone hb i hbefore
    · obtain ⟨obj', ho', hi⟩ := h.table i o hbefore
      rw [ho] at ho'
      cases ho'
      rw [if_pos hremoves, hid, Table.lookup_erase_if, if_pos hi.symm] at hl
      cases hl

/-- A new object enters the table. -/
theorem Tidy.addObj (h : Tidy s) (next id : UInt32) : Tidy (addObj s next id) where
  table i o' hlookup := by
    show ∃ obj, (s.objs ++ [StreamObj.new id])[o']? = some obj ∧ obj.id = i
    have hl : (s.streams.insert id s.objs.length).lookup i = some o' := hlookup
    rw [Table.lookup_insert_if] at hl
    split at hl
    · rename_i hi
      cases hl
      exact ⟨StreamObj.new id, by simp, hi.symm⟩
    · obtain ⟨obj, ho, hi⟩ := h.table i o' hl
      exact ⟨obj, by rw [List.getElem?_append_left (List.getElem?_eq_some_iff.mp ho).1, ho], hi⟩
  objs o' obj' ho' hd := by
    have hget : (s.objs ++ [StreamObj.new id])[o']? = some obj' := ho'
    show ObjTidy (s.streams.insert id s.objs.length) o' obj'
    by_cases hlt : o' < s.objs.length
    · rw [List.getElem?_append_left hlt] at hget
      have hold := h.objs o' obj' hget hd
      refine ⟨hold.kept, fun hb i hl => ?_⟩
      rw [Table.lookup_insert_if] at hl
      split at hl
      · cases hl
        omega
      · exact hold.gone hb i hl
    · rw [List.getElem?_append_right (by omega), List.getElem?_singleton] at hget
      split at hget
      · cases hget
        exact ⟨⟨rfl, fun hl => by cases hl⟩, fun hb => by cases hb.1⟩
      · cases hget

/-- No stream handles a data frame after its `close` has executed. -/
def noLateData (s : Session) : Event → Bool
  | .runStream o =>
      match s.objs[o]? with
      | some { tasks := .arrival (.data _) :: _, stream, .. } => !stream.localClosed
      | _ => true
  | _ => true

theorem open_of_noLateData {bytes : List Byte} {tasks : List Task}
    (hok : s.noLateData (.runStream o) = true) (ho : s.objs[o]? = some obj)
    (htasks : obj.tasks = .arrival (.data bytes) :: tasks) : obj.stream.localClosed = false := by
  obtain ⟨stream, tasks', destroyed, accepted, lateWrite, sent, reported⟩ := obj
  subst htasks
  rw [noLateData, ho] at hok
  simpa using hok

theorem Tidy.callHandler (h : Tidy s) (ec : ErrorCode) (handler : FrameHandler) :
    Tidy (s.callHandler ec handler) := by
  cases handler with
  | none => exact h
  | failPending o =>
      rw [Session.callHandler]
      split
      · exact h
      · exact h.retouch (fun _ => rfl) fun _ => rfl
  | invoke handler n => exact h.congr rfl rfl
  | user handler => exact h.congr rfl rfl

theorem Tidy.writeDone (h : Tidy s) {ec : ErrorCode} (hstep : s.writeDone ec = some s') :
    Tidy s' := by
  rw [Session.writeDone] at hstep
  split at hstep
  · cases hstep
  · rename_i pw rest _
    have hpopped : Tidy { s with writeQueue := rest, writing := false } := h.congr rfl rfl
    have hcalled := hpopped.callHandler ec pw.handler
    rw [← Option.some.inj hstep]
    split
    · exact hcalled.same (doWrite_same _)
    · exact hcalled.congr rfl rfl

theorem Tidy.handleFrame (h : Tidy s) (hd : Header) (body : List Byte) :
    Tidy (s.handleFrame hd body) := by
  have hfor : Tidy (s.streamFor hd).1 := by
    rw [streamFor]
    split
    · exact h
    · split
      · exact (h.addObj s.nextStreamId hd.streamId).congr rfl rfl
      · exact h
  rw [Session.handleFrame]
  split
  · split
    · rename_i s₁ o heq
      rw [heq] at hfor
      exact hfor.retouch (fun _ => rfl) fun _ => rfl
    · rename_i s₁ heq
      rw [heq] at hfor
      exact hfor
  · split
    · split
      · exact h.congr rfl rfl
      · exact h
    · exact h.congr rfl rfl

/-- One task of an object's strand. -/
theorem Tidy.runStream (h : Tidy s) (hok : s.noLateData (.runStream o) = true)
    (hstep : s.step (.runStream o) = some s') : Tidy s' := by
  obtain ⟨obj, ho, hstep⟩ := Option.bind_eq_some_iff.mp hstep
  split at hstep
  · cases hstep
  · rename_i t tasks htasks
    rw [← Option.some.inj hstep]
    have hpopped : Tidy (s.modifyObj o fun obj => { obj with tasks }) :=
      h.retouch (fun _ => rfl) fun _ => rfl
    have ho' := getElem?_modifyObj ho fun obj => { obj with tasks }
    have hkept : obj.destroyed = false → obj.stream.Kept := fun hd => (h.objs o obj ho hd).kept
    cases t with
    | arrival a =>
        refine hpopped.perform ho' (streamOp_handle obj.stream a).sameId fun hd => ?_
        refine handle_cleansUp (hkept hd) a fun bytes ha => ?_
        exact open_of_noLateData hok ho (by rw [htasks, ha])
    | failWrites ec =>
        exact hpopped.perform ho' rfl fun hd => failWrites_cleansUp (hkept hd) ec
    | complete c =>
        refine Tidy.congr (s := (s.modifyObj o fun obj => { obj with tasks }).modifyObj o
          fun obj => { obj with reported := obj.reported ++ [c] }) ?_ rfl rfl
        exact hpopped.retouch (fun _ => rfl) fun _ => rfl

theorem Tidy.submitted (h : Tidy s) (handler : Option Handler) :
    Tidy (handler.elim s s.submit) := by
  cases handler with
  | none => exact h
  | some handler => exact h.congr rfl rfl

theorem Tidy.asyncWrite (h : Tidy s) (ho : s.objs[o]? = some obj) (buffers : List (List Byte))
    (handler : Handler) :
    Tidy (((s.submit handler).modifyObj o fun obj => acceptPayload obj buffers).perform o
      (obj.stream.asyncWrite buffers handler)) := by
  have hsubmitted : Tidy (s.submit handler) := h.congr rfl rfl
  have haccepted : Tidy ((s.submit handler).modifyObj o fun obj => acceptPayload obj buffers) :=
    hsubmitted.retouch (fun obj => acceptPayload_stream obj buffers)
      fun obj => acceptPayload_destroyed obj buffers
  have ho' := getElem?_modifyObj (s := s.submit handler) ho fun obj => acceptPayload obj buffers
  refine haccepted.perform ho' ?_ fun hd => ?_
  · show _ = (acceptPayload obj buffers).stream.id
    rw [acceptPayload_stream]
    exact (streamOp_asyncWrite _ _ _).sameId
  · rw [acceptPayload_stream]
    rw [acceptPayload_destroyed] at hd
    exact asyncWrite_cleansUp (h.objs o obj ho hd).kept buffers handler

/-- **One step of a running session.** -/
theorem tidy_step {e : Event} (h : Tidy s) (hok : s.noLateData e = true)
    (hstep : s.step e = some s') (halive : s'.alive = true) (hrun : s'.stopped = false) :
    Tidy s' := by
  cases stepped_of_step hstep with
  | openStream onStrand _ =>
      have hadded := h.addObj (s.nextStreamId + 2) s.nextStreamId
      rw [openStream]
      split
      · exact hadded.same (asyncSendFrame_same _ _)
      · exact hadded.congr rfl rfl
  | @asyncRead o obj size handler readAll hcallee =>
      have ho := (callee_eq hcallee).1
      have hsubmitted : Tidy (s.submit handler) := h.congr rfl rfl
      refine hsubmitted.perform ho (streamOp_asyncRead _ _ _ _).sameId fun hd => ?_
      exact asyncRead_cleansUp (h.objs o obj ho hd).kept size handler readAll
  | asyncWrite buffers handler hcallee => exact h.asyncWrite (callee_eq hcallee).1 buffers handler
  | @close o obj hcallee =>
      have ho := (callee_eq hcallee).1
      exact h.perform ho (streamOp_close _).sameId fun hd =>
        close_cleansUp (h.objs o obj ho hd).kept
  | @destroy o obj ho _ =>
      have hdestroyed := h.modify ho
        (f := fun obj' => { afterOp obj.stream.destroy obj' with destroyed := true })
        (show obj.stream.destroy.1.id = obj.id from rfl) (fun _ _ hl => hl) fun hd => by cases hd
      refine hdestroyed.congr ?_ ?_
      · show (s.perform o obj.stream.destroy).objs.modify o _ = s.objs.modify o _
        rw [perform_objs, List.modify_modify_eq]
        rfl
      · show (s.perform o obj.stream.destroy).streams = s.streams
        have hkeeps : removes obj.stream.destroy.2 = false :=
          MuxStream.removes_abortEffects obj.stream
        rw [perform_streams, if_neg (by rw [hkeeps]; simp)]
  | sendFrame f handler _ => exact (h.submitted handler).same (asyncSendFrame_same _ _)
  | postFrame f handler _ => exact (h.submitted handler).congr rfl rfl
  | heartbeat _ => exact h.same (asyncSendFrame_same _ _)
  | stop running _ =>
      rw [stop_stopped] at hrun
      cases hrun
  | postStop _ => exact h.congr rfl rfl
  | runStream _ _ => exact h.runStream hok hstep
  | @sendPosted pw posted _ =>
      have hpopped : Tidy { s with posted } := h.congr rfl rfl
      exact hpopped.same (asyncSendFrame_same _ _)
  | stopPosted _ =>
      rw [stop_stopped] at hrun
      cases hrun
  | writeOk _ _ hdone => exact h.writeDone hdone
  | writeError _ hdone => exact h.writeDone hdone
  | late _ _ _ => exact h.congr rfl rfl
  | header _ _ _ _ _ => exact h.congr rfl rfl
  | tooLong _ _ _ _ => exact h.congr rfl rfl
  | headerFrame _ _ _ => exact (h.handleFrame _ []).congr rfl rfl
  | @bodyFrame _ body _ _ _ => exact (h.handleFrame _ body).congr rfl rfl
  | readError _ _ => exact h.congr rfl rfl
  | expire _ _ _ _ => cases halive

/-! ## Runs -/

theorem tidy_init (isServer : Bool) : Tidy { isServer } where
  table i o hl := by
    rw [show (∅ : Table UInt32 Nat).lookup i = none from rfl] at hl
    cases hl
  objs o obj ho := by
    rw [show ([] : List StreamObj)[o]? = none from rfl] at ho
    cases ho

/-- As long as a session runs, its table is tidy. -/
theorem tidy_of_reach {isServer : Bool}
    (h : Reach Session.step (fun s e => s.noLateData e = true) { isServer } s) :
    s.alive = true → s.stopped = false → Tidy s := by
  refine h.invariant (P := fun s => s.alive = true → s.stopped = false → Tidy s)
    (fun _ _ => tidy_init isServer) ?_
  intro s e s' ih hok hstep halive hrun
  refine tidy_step (ih ?_ ?_) hok hstep halive hrun
  · cases hs : s.alive with
    | true => rfl
    | false =>
        rw [step_expired hstep hs] at halive
        cases halive
  · cases hs : s.stopped with
    | false => rfl
    | true =>
        rw [step_stopped hstep hs] at hrun
        cases hrun

/-- **No zombie streams.** In every run of a session in which no stream handles a data
frame after its `close` has executed, a stream that was closed and has processed the FIN
of its peer is out of the table, with nothing left in its read queue. The peer sends
what it likes, when it likes. -/
theorem no_zombies {isServer : Bool}
    (h : Reach Session.step (fun s e => s.noLateData e = true) { isServer } s)
    (halive : s.alive = true) (hrun : s.stopped = false) (ho : s.objs[o]? = some obj)
    (hobj : obj.destroyed = false) (hlocal : obj.stream.localClosed = true)
    (hremote : obj.stream.remoteClosed = true) :
    (∀ i, s.streams.lookup i ≠ some o) ∧ obj.stream.readQueue = [] := by
  have htidy := (tidy_of_reach h halive hrun).objs o obj ho hobj
  exact ⟨htidy.gone ⟨hlocal, hremote⟩, htidy.kept.emptied hlocal⟩

/-- The header of a data frame of stream 1. -/
def dataFor1 (flags : UInt16) (length : UInt32) : List Byte :=
  Header.encode ⟨0, FrameType.data, flags, 1, length⟩

/-- The object the table has for an identifier. -/
def entry (s : Session) (i : UInt32) : Option Nat := s.streams.lookup i

/-- What decides about a stream: who has closed it, and how many bytes it keeps. -/
structure Closing where
  localClosed : Bool
  remoteClosed : Bool
  kept : Nat
  deriving DecidableEq

/-- The closing of a stream object that exists. -/
def closing (s : Session) (o : Nat) : Option Closing :=
  ((s.objs[o]?).filter fun obj => !obj.destroyed).map fun obj =>
    ⟨obj.stream.localClosed, obj.stream.remoteClosed, obj.stream.readQueue.flatten.length⟩

theorem closing_eq {c : Closing} (h : s.closing o = some c) :
    ∃ obj, s.objs[o]? = some obj ∧ obj.destroyed = false ∧ obj.stream.localClosed = c.localClosed ∧
      obj.stream.remoteClosed = c.remoteClosed ∧ obj.stream.readQueue.flatten.length = c.kept := by
  obtain ⟨obj, ho, rfl⟩ := Option.map_eq_some_iff.mp h
  obtain ⟨ho, hd⟩ := Option.filter_eq_some_iff.mp ho
  exact ⟨obj, ho, by simpa using hd, rfl, rfl, rfl⟩

/-- The peer sends three bytes, which stay unread, and FIN. The close that follows drops
them, and the stream. -/
theorem no_zombies_unread : ∃ s : Session,
    Reach Session.step (fun s e => s.noLateData e = true) { isServer := true } s ∧
    ∃ obj, s.objs[0]? = some obj ∧ (∀ i, s.streams.lookup i ≠ some 0) ∧
      obj.stream.readQueue = [] := by
  obtain ⟨s, hs, hobs⟩ := exists_of_runGuarded Session.step noLateData
    [.recvHeader (dataFor1 Flags.syn 0), .recvHeader (dataFor1 0 3), .recvBody [1, 2, 3],
      .runStream 0, .recvHeader (dataFor1 Flags.fin 0), .runStream 0, .close 0]
    (fun s => (s.alive, s.stopped, s.closing 0)) (s := { isServer := true })
    (a := (true, false, some ⟨true, true, 0⟩)) rfl
  simp only [Prod.mk.injEq] at hobs
  obtain ⟨halive, hrun, hclosing⟩ := hobs
  obtain ⟨obj, ho, hobj, hlocal, hremote, -⟩ := closing_eq hclosing
  exact ⟨s, hs, obj, ho, no_zombies hs halive hrun ho hobj hlocal hremote⟩

/-- **A zombie stream.** Three bytes reach the stream after its close and before FIN:
they stay in the read queue, and the stream in the table. -/
theorem zombie_lateData : ∃ s : Session, Reach Session.step anyStep { isServer := true } s ∧
    s.alive = true ∧ s.stopped = false ∧ s.streams.lookup 1 = some 0 ∧
    ∃ obj, s.objs[0]? = some obj ∧ obj.destroyed = false ∧ obj.stream.localClosed = true ∧
      obj.stream.remoteClosed = true ∧ obj.stream.readQueue.flatten.length = 3 := by
  obtain ⟨s, hs, hobs⟩ := exists_of_runAll Session.step
    [.recvHeader (dataFor1 Flags.syn 0), .recvHeader (dataFor1 0 3), .recvBody [1, 2, 3],
      .close 0, .runStream 0, .recvHeader (dataFor1 Flags.fin 0), .runStream 0]
    (fun s => (s.alive, s.stopped, s.entry 1, s.closing 0)) (s := { isServer := true })
    (a := (true, false, some 0, some ⟨true, true, 3⟩)) (by decide)
  simp only [Prod.mk.injEq] at hobs
  obtain ⟨halive, hrun, hlookup, hclosing⟩ := hobs
  exact ⟨s, hs, halive, hrun, hlookup, closing_eq hclosing⟩

end Session

end Cfrp.Mux

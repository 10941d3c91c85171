import Cfrp.Lib.Keyed
import Cfrp.Lib.Transition
import Cfrp.Quic.Account

/-!
# Closing a QUIC session or a stream

The close of a session ends its streams, and with them their reads; it never looks at the
write queue. `close` of a stream completes nothing. So every handler is called exactly once
as long as no session is closed with a write in its queue or on its way there, no stream with
a read pending or a write in the queue, nothing is written to a closed stream, and no hollow
write, whose handler `do_write` drops, has been made to what is closed.
-/

namespace Cfrp.Quic

open Lib Mux

/-- A write is neither in the queue nor dropped from it. -/
def settled (c : Connection) (concerns : StreamId → Bool) : Bool :=
  (c.session.writeQueue.all fun pw => !concerns pw.streamId) &&
    c.submitted.all fun w => !(concerns w.streamId && w.hollow)

/-- Each handler has been called once. -/
def CalledOnce (asked called : List Handler) : Prop := ∀ h ∈ asked, called.count h = 1

namespace StreamObj

/-- The handlers of the object's reads that have been called. -/
def called (obj : StreamObj) : List Handler := obj.completions.map Completion.handler

/-- What holds of a stream object: `o` is its place, `alive` and `ended` are whether the
session exists and whether it is closed. -/
structure Ok (alive ended : Bool) (streams : Table StreamId Nat) (o : Nat) (obj : StreamObj) :
    Prop where
  account : (obj.called ++ obj.stream.waiting).Perm obj.asked
  numbered : obj.asked = List.range obj.asked.length
  session : obj.stream.session = alive
  place : alive = true → streams.lookup obj.id = some o ∨ obj.stream.Drained
  ended : ended = true → obj.stream.Drained
  gone : obj.closeCalled = true → obj.stream.Drained

/-- What an operation does to a stream object. -/
structure Moves (obj obj' : StreamObj) : Prop where
  id : obj'.id = obj.id
  closeCalled : obj'.closeCalled = obj.closeCalled
  session : obj'.stream.session = obj.stream.session
  account : (obj.called ++ obj.stream.waiting).Perm obj.asked →
    (obj'.called ++ obj'.stream.waiting).Perm obj'.asked
  numbered : obj.asked = List.range obj.asked.length → obj'.asked = List.range obj'.asked.length
  drained : obj.stream.Drained → obj'.stream.Drained

variable {alive ended : Bool} {streams : Table StreamId Nat} {o : Nat} {obj obj' : StreamObj}

theorem Ok.moves (h : Ok alive ended streams o obj) (hm : Moves obj obj') :
    Ok alive ended streams o obj' where
  account := hm.account h.account
  numbered := hm.numbered h.numbered
  session := hm.session.trans h.session
  place ha := by
    rw [hm.id]
    exact (h.place ha).imp_right hm.drained
  ended he := hm.drained (h.ended he)
  gone hc := hm.drained (h.gone (hm.closeCalled.symm.trans hc))

/-- A drained stream stays so whatever becomes of the session. -/
theorem Ok.drained (h : Ok alive ended streams o obj) (hd : obj.stream.Drained) (ended' : Bool)
    (streams' : Table StreamId Nat) : Ok alive ended' streams' o obj :=
  ⟨h.account, h.numbered, h.session, fun _ => Or.inr hd, fun _ => hd, fun _ => hd⟩

/-- Every read of a drained stream has been answered once. -/
theorem Ok.calledOnce (h : Ok alive ended streams o obj) (hd : obj.stream.Drained) :
    CalledOnce obj.asked obj.called := by
  have hperm := h.account
  rw [QuicStream.waiting, hd.1, List.map_nil, List.append_nil] at hperm
  have hnodup : obj.asked.Nodup := by
    rw [h.numbered]
    exact List.nodup_range
  intro handler hmem
  rw [hperm.count_eq]
  exact List.count_eq_one_of_mem hnodup hmem

/-- `do_read`, with more blocks or at the end of the stream. -/
theorem moves_doRead {s : QuicStream} (hs : s.session = obj.stream.session)
    (hreads : s.pendingReads = obj.stream.pendingReads)
    (hclosed : obj.stream.closed = true → s.closed = true) : Moves obj (obj.after s.doRead) where
  id := rfl
  closeCalled := rfl
  session := s.doRead_session.trans hs
  account h := by
    have haccount := s.doRead_account.1
    rw [QuicStream.waiting, hreads] at haccount
    rw [QuicStream.waiting, haccount, ← List.append_assoc] at h
    show (((obj.completions ++ posts s.doRead.2).map Completion.handler) ++ _).Perm obj.asked
    rw [List.map_append]
    exact h
  numbered h := h
  drained h := by
    refine QuicStream.drained_doRead ?_ fun _ => hreads.trans h.1
    rw [hs]
    exact h.2.imp_left hclosed

theorem moves_handleData (bytes : List Byte) :
    Moves obj (obj.after (obj.stream.handleData bytes)) :=
  moves_doRead rfl rfl fun h => h

theorem moves_handleClose : Moves obj (obj.after obj.stream.handleClose) :=
  moves_doRead rfl rfl fun _ => rfl

/-- **The end of a stream** completes its reads. -/
theorem drained_handleClose (hs : obj.stream.session = true) :
    (obj.after obj.stream.handleClose).stream.Drained :=
  QuicStream.drained_doRead (Or.inl rfl) fun hgone => by
    have habsurd : obj.stream.session = false := hgone
    rw [hs] at habsurd
    cases habsurd

theorem numbered_ask (h : obj.asked = List.range obj.asked.length) :
    obj.asked ++ [obj.asked.length] = List.range (obj.asked ++ [obj.asked.length]).length := by
  rw [List.length_append, List.length_singleton, List.range_succ, ← h]

/-- `do_read`, with one more read pending. -/
theorem moves_ask {s : QuicStream} (hlive : obj.stream.session = true) (hs : s.session = true)
    (hwaiting : s.waiting = obj.stream.waiting ++ [obj.asked.length])
    (hclosed : s.closed = obj.stream.closed) :
    Moves obj (StreamObj.after s.doRead { obj with asked := obj.asked ++ [obj.asked.length] }) where
  id := rfl
  closeCalled := rfl
  session := s.doRead_session.trans (hs.trans hlive.symm)
  account h := by
    show ((obj.completions ++ posts s.doRead.2).map Completion.handler ++ _).Perm
      (obj.asked ++ [obj.asked.length])
    rw [List.map_append, List.append_assoc]
    show (_ ++ ((posts s.doRead.2).map Completion.handler ++ s.doRead.1.waiting)).Perm _
    rw [← s.doRead_account.1, hwaiting, ← List.append_assoc]
    exact h.append_right _
  numbered := numbered_ask
  drained h := by
    refine QuicStream.drained_doRead (Or.inl ?_) fun hgone => ?_
    · rcases h.2 with hend | hgone
      · exact hclosed.trans hend
      · rw [hlive] at hgone
        cases hgone
    · rw [hs] at hgone
      cases hgone

/-- A read that is asked for. -/
theorem moves_asyncRead (size : Nat) (readAll : Bool) :
    Moves obj (StreamObj.after (obj.stream.asyncRead size obj.asked.length readAll)
      { obj with asked := obj.asked ++ [obj.asked.length] }) := by
  unfold QuicStream.asyncRead
  cases hs : obj.stream.session with
  | false =>
      rw [if_pos (show (!false) = true from rfl)]
      refine ⟨rfl, rfl, rfl, fun h => ?_, numbered_ask, fun h => h⟩
      show ((obj.completions ++ [_]).map Completion.handler ++ obj.stream.waiting).Perm _
      rw [List.map_append, List.append_assoc]
      refine (List.Perm.append_left _ List.perm_append_comm).trans ?_
      rw [← List.append_assoc]
      exact h.append_right _
  | true =>
      rw [if_neg (show ¬(!true) = true from Bool.false_ne_true)]
      refine moves_ask hs rfl ?_ rfl
      rw [QuicStream.waiting, List.map_append]
      rfl

end StreamObj

namespace Connection

/-- The stream objects of a connection. -/
def ObjsOk (c : Connection) : Prop :=
  ∀ o obj, c.objs[o]? = some obj →
    StreamObj.Ok c.alive c.session.closedNotified c.streams o obj

/-- The writes of a connection. -/
structure WritesOk (c : Connection) : Prop where
  counted : c.session.Counted
  account : (c.session.posted.map Prod.fst ++ QuicSession.solid c.session.writeQueue).Perm
    ((c.submitted.filter fun w => !w.hollow).map Submission.handler)
  numbered : c.submitted.map Submission.handler = List.range c.submitted.length
  known : ∀ pw ∈ c.session.writeQueue, ∃ w ∈ c.submitted,
    w.handler = pw.handler ∧ w.streamId = pw.streamId
  ended : c.session.closedNotified = true → settled c fun _ => true
  gone : ∀ obj ∈ c.objs, obj.closeCalled = true → settled c fun id => id == obj.id

structure Inv (c : Connection) : Prop where
  objs : ObjsOk c
  writes : WritesOk c
  entering : c.entering.isSome → c.session.closedNotified = false

/-- Whether `close` has been called of a stream with this identifier. -/
def closedByUser (c : Connection) (streamId : StreamId) : Bool :=
  c.objs.any fun obj => obj.id == streamId && obj.closeCalled

/-- The step closes nothing that has operations left, and starts none on what is closed. -/
def closesSettled (c : Connection) : Event → Bool
  | .enqueue calls => noSendFails calls && match c.entering with
      | some w => !(c.room && c.closedByUser w.streamId)
      | none => true
  | .doWrite calls => noSendFails calls
  | .close o => match c.objs[o]? with
      | some obj => obj.stream.pendingReads.isEmpty && settled c fun id => id == obj.id
      | none => true
  | .closeSession => c.session.closedNotified || c.entering.isNone && settled c fun _ => true
  | _ => true

theorem inv_init : Inv {} where
  objs o obj h := by
    rw [List.getElem?_nil] at h
    cases h
  writes :=
    { counted := fun pw hpw => (List.not_mem_nil hpw).elim
      account := List.Perm.nil
      numbered := rfl
      known := fun pw hpw => (List.not_mem_nil hpw).elim
      ended := fun h => absurd h Bool.false_ne_true
      gone := fun obj hobj => (List.not_mem_nil hobj).elim }
  entering h := absurd h Bool.false_ne_true

/-! ## The streams -/

/-- A change of one stream object. -/
theorem ObjsOk.modify {c : Connection} (h : ObjsOk c) (o : Nat) {f : StreamObj → StreamObj}
    (hm : ∀ obj, StreamObj.Moves obj (f obj)) : ObjsOk (c.modifyObj o f) := by
  intro o' obj' hobj'
  have hget : (c.objs.modify o f)[o']? = some obj' := hobj'
  rw [List.getElem?_modify] at hget
  obtain ⟨obj, hold, rfl⟩ := Option.map_eq_some_iff.mp hget
  have hok := h o' obj hold
  show StreamObj.Ok c.alive c.session.closedNotified c.streams o' _
  split
  · exact hok.moves (hm obj)
  · exact hok

/-- A new stream object, under an identifier that is not in the table. -/
theorem ObjsOk.add {c : Connection} (h : ObjsOk c) {streamId : StreamId}
    (hnone : c.streams.lookup streamId = none) (halive : c.alive = true)
    (hopen : c.session.closedNotified = false) {obj : StreamObj}
    (hm : StreamObj.Moves { id := streamId } obj) :
    ObjsOk { c with
      objs := c.objs ++ [obj]
      streams := c.streams.insert streamId c.objs.length } := by
  intro o obj' hobj'
  show StreamObj.Ok c.alive c.session.closedNotified
    (c.streams.insert streamId c.objs.length) o obj'
  rcases of_getElem?_concat hobj' with hold | ⟨rfl, rfl⟩
  · have hok := h o obj' hold
    refine ⟨hok.account, hok.numbered, hok.session, fun ha => ?_, hok.ended, hok.gone⟩
    rw [Table.lookup_insert_if]
    by_cases hid : obj'.id = streamId
    · refine Or.inr ((hok.place ha).resolve_left fun hl => ?_)
      rw [hid, hnone] at hl
      cases hl
    · rw [if_neg hid]
      exact hok.place ha
  · have hnew : StreamObj.Ok c.alive c.session.closedNotified
        (c.streams.insert streamId c.objs.length) c.objs.length { id := streamId } := by
      refine ⟨List.Perm.nil, rfl, halive.symm, fun _ => Or.inl ?_, fun he => ?_, fun hc => ?_⟩
      · rw [Table.lookup_insert_if, if_pos rfl]
      · rw [hopen] at he
        cases he
      · cases hc
    exact hnew.moves hm

/-- **The end of the session** completes every read. -/
theorem ObjsOk.closeStreams {c : Connection} (h : ObjsOk c) (halive : c.alive = true)
    (session : QuicSession Byte) :
    ObjsOk { c with session }.closeStreams := by
  intro o obj hobj
  unfold Connection.closeStreams at hobj
  rw [List.getElem?_mapIdx] at hobj
  obtain ⟨old, hold, rfl⟩ := Option.map_eq_some_iff.mp hobj
  have hok := h o old hold
  show StreamObj.Ok c.alive session.closedNotified ∅ o _
  split
  · have hdrained := StreamObj.drained_handleClose (hok.session.trans halive)
    exact (hok.moves StreamObj.moves_handleClose).drained hdrained _ _
  · rename_i hnot
    exact hok.drained ((hok.place halive).resolve_left hnot) _ _

/-- A stream leaves the table as it ends. -/
theorem ObjsOk.streamClose {c : Connection} (h : ObjsOk c) (halive : c.alive = true)
    (streamId : StreamId) : ObjsOk (c.streamClose streamId) := by
  unfold Connection.streamClose
  cases hl : c.streams.lookup streamId with
  | none => exact h
  | some o =>
      intro o' obj' hobj'
      have hget : (c.objs.modify o fun obj => obj.after obj.stream.handleClose)[o']? = some obj' :=
        hobj'
      rw [List.getElem?_modify] at hget
      obtain ⟨obj, hold, rfl⟩ := Option.map_eq_some_iff.mp hget
      have hok := h o' obj hold
      show StreamObj.Ok c.alive c.session.closedNotified (c.streams.erase streamId) o' _
      split
      · have hdrained := StreamObj.drained_handleClose (hok.session.trans halive)
        exact (hok.moves StreamObj.moves_handleClose).drained hdrained _ _
      · rename_i hne
        refine ⟨hok.account, hok.numbered, hok.session, fun ha => ?_, hok.ended, hok.gone⟩
        rw [Table.lookup_erase_if]
        by_cases hid : obj.id = streamId
        · -- the table had another object under this identifier, so this one is drained
          refine Or.inr ((hok.place ha).resolve_left fun hl' => hne ?_)
          rw [hid, hl] at hl'
          exact Option.some.inj hl'
        · rw [if_neg hid]
          exact hok.place ha

/-- **The close of a stream** with no read pending. -/
theorem ObjsOk.close {c : Connection} (h : ObjsOk c) {o : Nat} {obj : StreamObj}
    (ho : c.objs[o]? = some obj) (hnil : obj.stream.pendingReads = []) :
    ObjsOk (c.modifyObj o fun obj =>
      StreamObj.after obj.stream.close { obj with closeCalled := true }) := by
  intro o' obj' hobj'
  rcases of_getElem?_modify ho hobj' with ⟨rfl, rfl⟩ | ⟨-, hold⟩
  · have hok := h o' obj ho
    have hclose : obj.stream.close.1.pendingReads = [] ∧
        obj.stream.close.1.session = obj.stream.session ∧ posts obj.stream.close.2 = [] ∧
        (obj.stream.close.1.closed = true ∨ obj.stream.close.1.session = false) := by
      unfold QuicStream.close
      split
      · rename_i hnot
        refine ⟨hnil, rfl, rfl, ?_⟩
        rw [Bool.or_eq_true, Bool.not_eq_true'] at hnot
        exact hnot.symm
      · exact ⟨hnil, rfl, rfl, Or.inl rfl⟩
    obtain ⟨hreads, hsession, hposts, hend⟩ := hclose
    have hdrained : obj.stream.close.1.Drained := ⟨hreads, hend⟩
    refine ⟨?_, hok.numbered, hsession.trans hok.session, fun _ => Or.inr hdrained,
      fun _ => hdrained, fun _ => hdrained⟩
    have haccount := hok.account
    rw [QuicStream.waiting, hnil] at haccount
    show ((obj.completions ++ posts obj.stream.close.2).map Completion.handler ++
      obj.stream.close.1.pendingReads.map PendingRead.handler).Perm obj.asked
    rw [hposts, hreads, List.append_nil]
    exact haccount
  · exact h o' obj' hold

/-- The session is gone: nothing is completed, and nothing will be asked of it. -/
theorem ObjsOk.expire {c c' : Connection} (h : ObjsOk c)
    (hstep : c.act .expire = some c') : ObjsOk c' := by
  rw [act, Option.ite_none_right_eq_some] at hstep
  cases Option.some.inj hstep.2
  intro o obj' hobj'
  rw [List.getElem?_mapIdx] at hobj'
  obtain ⟨obj, hold, rfl⟩ := Option.map_eq_some_iff.mp hobj'
  have hok := h o obj hold
  have hdrained : ∀ closed, obj.stream.Drained →
      QuicStream.Drained { obj.stream with session := false, closed } :=
    fun _ hd => ⟨hd.1, Or.inr rfl⟩
  exact ⟨hok.account, hok.numbered, rfl, fun ha => absurd ha Bool.false_ne_true,
    fun he => hdrained _ (hok.ended he), fun hc => hdrained _ (hok.gone hc)⟩

/-! ## The writes -/

/-- What is settled stays so while the queue only shrinks. -/
theorem settled_shrink {c c' : Connection} {concerns : StreamId → Bool}
    (hqueue : ∀ pw ∈ c'.session.writeQueue, ∃ q ∈ c.session.writeQueue, pw.streamId = q.streamId)
    (hsubmitted : c'.submitted = c.submitted) (h : settled c concerns = true) :
    settled c' concerns = true := by
  rw [settled, Bool.and_eq_true, List.all_eq_true] at h ⊢
  refine ⟨fun pw hpw => ?_, hsubmitted ▸ h.2⟩
  obtain ⟨q, hq, hid⟩ := hqueue pw hpw
  rw [hid]
  exact h.1 q hq

/-- The writes do not depend on what the streams have read. -/
theorem WritesOk.congr {c c' : Connection} (h : WritesOk c) (hsession : c'.session = c.session)
    (hsubmitted : c'.submitted = c.submitted)
    (hobjs : ∀ obj' ∈ c'.objs, obj'.closeCalled = true →
      ∃ obj ∈ c.objs, obj.closeCalled = true ∧ obj.id = obj'.id) : WritesOk c' := by
  have hsettled : ∀ concerns, settled c' concerns = settled c concerns := by
    intro concerns
    rw [settled, settled, hsession, hsubmitted]
  constructor
  case counted => exact hsession ▸ h.counted
  case account =>
    rw [hsession, hsubmitted]
    exact h.account
  case numbered =>
    rw [hsubmitted]
    exact h.numbered
  case known =>
    rw [hsession, hsubmitted]
    exact h.known
  case ended =>
    intro he
    rw [hsettled]
    exact h.ended (hsession ▸ he)
  case gone =>
    intro obj' hobj' hc
    obtain ⟨obj, hobj, hcalled, hid⟩ := hobjs obj' hobj' hc
    rw [hsettled, ← hid]
    exact h.gone obj hobj hcalled

/-- **`do_write`**, when no send fails. -/
theorem WritesOk.doWrite {c : Connection} (h : WritesOk c) {calls : List Writev}
    (hcalls : noSendFails calls = true) :
    WritesOk { c with session := c.session.doWrite calls } := by
  have hacc := QuicSession.accounts_doWrite h.counted hcalls
  have hqueue := (QuicSession.progress_doWrite c.session calls).queue
  have hids : ∀ pw ∈ (c.session.doWrite calls).writeQueue,
      ∃ q ∈ c.session.writeQueue, pw.streamId = q.streamId := by
    intro pw hpw
    obtain ⟨q, hq, -, hid, -⟩ := hqueue pw hpw
    exact ⟨q, hq, hid⟩
  constructor
  case counted => exact hacc.counted
  case account =>
    obtain ⟨new, hposted, hsolid⟩ := hacc.posted
    have haccount := h.account
    rw [hsolid, ← List.append_assoc, ← List.map_append, ← hposted] at haccount
    exact haccount
  case numbered => exact h.numbered
  case known =>
    intro pw hpw
    obtain ⟨q, hq, -, hid, hhandler⟩ := hqueue pw hpw
    rw [hid, hhandler]
    exact h.known q hq
  case ended =>
    intro he
    exact settled_shrink hids rfl (h.ended (hacc.closed.symm.trans he))
  case gone =>
    intro obj hobj hc
    exact settled_shrink hids rfl (h.gone obj hobj hc)

/-- One more submission. -/
theorem numbered_submit {c : Connection} (h : WritesOk c) (streamId : StreamId) (hl : Bool) :
    (c.submitted ++ [(⟨streamId, c.submitted.length, hl⟩ : Submission)]).map Submission.handler =
      List.range (c.submitted ++ [(⟨streamId, c.submitted.length, hl⟩ : Submission)]).length := by
  rw [List.map_append, h.numbered, List.length_append, List.length_singleton, List.range_succ]
  rfl

/-- **A refused write.** -/
theorem WritesOk.refuse {c : Connection} (h : WritesOk c) (streamId : StreamId)
    (result : WriteResult) :
    WritesOk { c with
      session := c.session.refuse c.submitted.length result
      submitted := c.submitted ++ [⟨streamId, c.submitted.length, false⟩] } := by
  have hsettled : ∀ {concerns}, settled c concerns = true → settled { c with
      session := c.session.refuse c.submitted.length result
      submitted := c.submitted ++ [⟨streamId, c.submitted.length, false⟩] } concerns = true := by
    intro concerns hs
    rw [settled, Bool.and_eq_true] at hs ⊢
    refine ⟨hs.1, ?_⟩
    rw [List.all_append, hs.2, List.all_cons, Bool.and_false]
    rfl
  refine ⟨h.counted, ?_, numbered_submit h streamId false, fun pw hpw => ?_,
    fun he => hsettled (h.ended he), fun obj hobj hc => hsettled (h.gone obj hobj hc)⟩
  · show ((c.session.posted ++ [(c.submitted.length, result)]).map Prod.fst ++
      QuicSession.solid c.session.writeQueue).Perm _
    rw [List.filter_append, List.map_append, List.map_append, List.append_assoc]
    refine (List.Perm.append_left _ List.perm_append_comm).trans ?_
    rw [← List.append_assoc]
    exact h.account.append_right _
  · obtain ⟨w, hw, hwhich⟩ := h.known pw hpw
    exact ⟨w, List.mem_append_left _ hw, hwhich⟩

/-- **A write goes into the queue**, of a session that is open, for a stream that is. -/
theorem WritesOk.enqueue {c : Connection} (h : WritesOk c)
    (hopen : c.session.closedNotified = false) {streamId : StreamId}
    (hid : c.closedByUser streamId = false) (buffers : List (List Byte)) :
    WritesOk { c with
      session := c.session.enqueue streamId buffers c.submitted.length
      submitted := c.submitted ++ [⟨streamId, c.submitted.length, hollow buffers⟩] } := by
  constructor
  case counted =>
    intro pw hpw
    rcases List.mem_append.mp hpw with hold | hnew
    · exact h.counted pw hold
    · rw [List.mem_singleton.mp hnew]
      exact Or.inl rfl
  case account =>
    -- a hollow write adds to neither side of the account
    have hsolid : ∀ pw : PendingWrite Byte, QuicSession.solid (c.session.writeQueue ++ [pw]) =
        QuicSession.solid c.session.writeQueue ++ QuicSession.solid [pw] := by
      intro pw
      rw [QuicSession.solid, List.filter_append, List.map_append]
      rfl
    have hone : ∀ pw : PendingWrite Byte, pw.bodies = buffers → pw.handler = c.submitted.length →
        QuicSession.solid [pw] =
          ([(⟨streamId, c.submitted.length, hollow buffers⟩ : Submission)].filter
            fun w => !w.hollow).map Submission.handler := by
      intro pw hbodies hhandler
      rw [QuicSession.solid, List.filter_cons, List.filter_cons, hbodies]
      cases hollow buffers with
      | true => rfl
      | false => exact congrArg (fun h => [h]) hhandler
    show (c.session.posted.map Prod.fst ++ QuicSession.solid (c.session.writeQueue ++ [_])).Perm _
    rw [hsolid, hone _ rfl rfl, List.filter_append, List.map_append, ← List.append_assoc]
    exact h.account.append_right _
  case numbered => exact numbered_submit h streamId _
  case known =>
    intro pw hpw
    rcases List.mem_append.mp hpw with hold | hnew
    · obtain ⟨w, hw, hwhich⟩ := h.known pw hold
      exact ⟨w, List.mem_append_left _ hw, hwhich⟩
    · rw [List.mem_singleton.mp hnew]
      exact ⟨_, List.mem_append_right _ List.mem_cons_self, rfl, rfl⟩
  case ended =>
    intro he
    have hclosed : c.session.closedNotified = true := he
    rw [hopen] at hclosed
    cases hclosed
  case gone =>
    intro obj hobj hc
    -- an object that is gone has another id than the stream that is written to
    have hne : (streamId == obj.id) = false := by
      rw [Bool.eq_false_iff]
      intro heq
      rw [closedByUser, List.any_eq_false] at hid
      exact hid obj hobj (by rw [hc, beq_iff_eq.mp heq, beq_self_eq_true]; rfl)
    have hgone := h.gone obj hobj hc
    rw [settled, Bool.and_eq_true] at hgone ⊢
    refine ⟨?_, ?_⟩
    · show ((c.session.writeQueue ++ [_]).all _) = true
      rw [List.all_append, hgone.1, List.all_cons, hne]
      rfl
    · rw [List.all_append, hgone.2, List.all_cons, hne]
      rfl

/-- Where everything is settled, the handlers of the writes have been called once. -/
theorem WritesOk.calledOnce {c : Connection} (h : WritesOk c) {concerns : StreamId → Bool}
    (hs : settled c concerns = true) :
    CalledOnce ((c.submitted.filter fun w => concerns w.streamId).map Submission.handler)
      (c.session.posted.map Prod.fst) := by
  rw [settled, Bool.and_eq_true, List.all_eq_true, List.all_eq_true] at hs
  have hnodup : (c.submitted.map Submission.handler).Nodup := by
    rw [h.numbered]
    exact List.nodup_range
  intro handler hmem
  obtain ⟨w, hw, rfl⟩ := List.mem_map.mp hmem
  obtain ⟨hw, hconcerns⟩ := List.mem_filter.mp hw
  have hcalled : w.handler ∈ (c.submitted.filter fun w => !w.hollow).map Submission.handler := by
    refine List.mem_map_of_mem (List.mem_filter.mpr ⟨hw, ?_⟩)
    have hnot := hs.2 w hw
    rw [hconcerns, Bool.true_and] at hnot
    exact hnot
  have hone := h.account.count_eq w.handler
  rw [List.count_append, List.count_eq_one_of_mem
    (hnodup.sublist (List.filter_sublist.map _)) hcalled] at hone
  -- a queued write of this handler would be a write to the same stream
  have hnone : (QuicSession.solid c.session.writeQueue).count w.handler = 0 := by
    rw [List.count_eq_zero]
    intro hqueued
    obtain ⟨pw, hpw, hhandler⟩ := List.mem_map.mp hqueued
    have hpw := (List.mem_filter.mp hpw).1
    obtain ⟨w', hw', hh, hid⟩ := h.known pw hpw
    have hsame : w' = w := List.inj_on_of_nodup_map hnodup hw' hw (hh.trans hhandler)
    have hnot := hs.1 pw hpw
    rw [← hid, hsame, hconcerns] at hnot
    cases hnot
  omega

/-! ## Every run -/

theorem afterWrite_open {c : Connection} {session : QuicSession Byte}
    (h : session.closedNotified = c.session.closedNotified) :
    c.afterWrite session = { c with session } := by
  rw [afterWrite, h, Bool.and_not_self]
  rfl

theorem ObjsOk.congr {c c' : Connection} (h : ObjsOk c) (hobjs : c'.objs = c.objs)
    (halive : c'.alive = c.alive) (hended : c'.session.closedNotified = c.session.closedNotified)
    (hstreams : c'.streams = c.streams) : ObjsOk c' := by
  intro o obj ho
  rw [halive, hended, hstreams]
  exact h o obj (hobjs ▸ ho)

/-- What changes neither the writes nor whether the session is closed. -/
theorem Inv.congr {c c' : Connection} (h : Inv c) (hobjs : ObjsOk c')
    (hsession : c'.session = c.session) (hsubmitted : c'.submitted = c.submitted)
    (hentering : c'.entering = c.entering)
    (hclosed : ∀ obj' ∈ c'.objs, obj'.closeCalled = true →
      ∃ obj ∈ c.objs, obj.closeCalled = true ∧ obj.id = obj'.id) : Inv c' :=
  ⟨hobjs, h.writes.congr hsession hsubmitted hclosed, by
    rw [hentering, hsession]
    exact h.entering⟩

theorem Inv.afterWrite {c : Connection} {session : QuicSession Byte}
    (hclosed : session.closedNotified = c.session.closedNotified) (h : Inv { c with session }) :
    Inv (c.afterWrite session) := by
  rw [afterWrite_open hclosed]
  exact h

theorem Inv.doWrite {c : Connection} (h : Inv c) {calls : List Writev}
    (hcalls : noSendFails calls = true) : Inv (c.afterWrite (c.session.doWrite calls)) := by
  have hclosed := (QuicSession.accounts_doWrite h.writes.counted hcalls).closed
  exact Inv.afterWrite hclosed ⟨h.objs.congr rfl rfl hclosed rfl, h.writes.doWrite hcalls,
    fun he => hclosed.trans (h.entering he)⟩

/-- A refused write is answered on the spot, and is no part of the queue. -/
theorem Inv.refuse {c : Connection} (h : Inv c) (streamId : StreamId) (result : WriteResult)
    {entering : Option Entering}
    (he : entering.isSome → c.session.closedNotified = false) :
    Inv { c with
      session := c.session.refuse c.submitted.length result
      submitted := c.submitted ++ [⟨streamId, c.submitted.length, false⟩]
      entering } :=
  have hw := h.writes.refuse streamId result
  ⟨h.objs.congr rfl rfl rfl rfl,
    ⟨hw.counted, hw.account, hw.numbered, hw.known, hw.ended, hw.gone⟩, he⟩

theorem Inv.write {c : Connection} (h : Inv c) (streamId : StreamId)
    (buffers : List (List Byte)) : Inv (c.write streamId buffers) := by
  unfold Connection.write
  split
  · rename_i hopen
    rw [Bool.and_eq_true, Bool.not_eq_true'] at hopen
    have hw := h.writes
    exact ⟨h.objs.congr rfl rfl rfl rfl,
      ⟨hw.counted, hw.account, hw.numbered, hw.known, hw.ended, hw.gone⟩, fun _ => hopen.2⟩
  · exact h.refuse streamId .connectionReset h.entering

/-- A write that takes the lock: it finds no room, or goes to a stream that is not closed. -/
theorem Inv.push {c : Connection} (h : Inv c) {w : Entering} (hw : c.entering = some w)
    {calls : List Writev} (hcalls : noSendFails calls = true)
    (hid : (!(c.room && c.closedByUser w.streamId)) = true) : Inv (c.push w calls) := by
  have hopen : c.session.closedNotified = false := h.entering (by rw [hw]; rfl)
  unfold Connection.push QuicSession.pushWrite
  cases hroom : c.room with
  | false =>
      rw [room, decide_eq_false_iff_not, Nat.not_lt] at hroom
      rw [if_pos hroom]
      exact Inv.afterWrite rfl (h.refuse w.streamId .noBufferSpace fun he => (by cases he))
  | true =>
      rw [hroom, Bool.true_and, Bool.not_eq_true'] at hid
      rw [room, decide_eq_true_eq] at hroom
      rw [if_neg (Nat.not_le.mpr hroom), Bool.true_and]
      have hqueued := h.writes.enqueue hopen hid w.buffers
      have hinv : Inv { c with
          session := c.session.enqueue w.streamId w.buffers c.submitted.length
          submitted := c.submitted ++ [⟨w.streamId, c.submitted.length, hollow w.buffers⟩]
          entering := none } :=
        ⟨h.objs.congr rfl rfl rfl rfl, ⟨hqueued.counted, hqueued.account, hqueued.numbered,
          hqueued.known, hqueued.ended, hqueued.gone⟩, fun he => (by cases he)⟩
      exact hinv.doWrite hcalls

/-- What reading and the end of streams change of the objects. -/
theorem modify_closeCalled {c : Connection} {o : Nat} {f : StreamObj → StreamObj}
    (hf : ∀ obj, (f obj).id = obj.id ∧ (f obj).closeCalled = obj.closeCalled) :
    ∀ obj' ∈ (c.modifyObj o f).objs, obj'.closeCalled = true →
      ∃ obj ∈ c.objs, obj.closeCalled = true ∧ obj.id = obj'.id := by
  intro obj' hobj' hc
  obtain ⟨o', hget⟩ := List.getElem?_of_mem hobj'
  have hget : (c.objs.modify o f)[o']? = some obj' := hget
  rw [List.getElem?_modify] at hget
  obtain ⟨obj, hold, rfl⟩ := Option.map_eq_some_iff.mp hget
  refine ⟨obj, List.mem_of_getElem? hold, ?_⟩
  split at hc
  · rename_i heq
    rw [if_pos heq, (hf obj).1]
    exact ⟨(hf obj).2.symm.trans hc, rfl⟩
  · rename_i hne
    rw [if_neg hne]
    exact ⟨hc, rfl⟩

theorem mapIdx_closeCalled {c : Connection} {f : Nat → StreamObj → StreamObj}
    (hf : ∀ o obj, (f o obj).id = obj.id ∧ (f o obj).closeCalled = obj.closeCalled) :
    ∀ obj' ∈ c.objs.mapIdx f, obj'.closeCalled = true →
      ∃ obj ∈ c.objs, obj.closeCalled = true ∧ obj.id = obj'.id := by
  intro obj' hobj' hc
  obtain ⟨o, hget⟩ := List.getElem?_of_mem hobj'
  rw [List.getElem?_mapIdx] at hget
  obtain ⟨obj, hold, rfl⟩ := Option.map_eq_some_iff.mp hget
  exact ⟨obj, List.mem_of_getElem? hold, (hf o obj).2.symm.trans hc, (hf o obj).1.symm⟩

theorem concat_closeCalled {c : Connection} {obj : StreamObj} (hobj : obj.closeCalled = false) :
    ∀ obj' ∈ c.objs ++ [obj], obj'.closeCalled = true →
      ∃ old ∈ c.objs, old.closeCalled = true ∧ old.id = obj'.id := by
  intro obj' hobj' hc
  rcases List.mem_append.mp hobj' with hold | hnew
  · exact ⟨obj', hold, hc, rfl⟩
  · rw [List.mem_singleton.mp hnew, hobj] at hc
    cases hc

theorem closeStreams_closeCalled {c : Connection} :
    ∀ obj' ∈ c.closeStreams.objs, obj'.closeCalled = true →
      ∃ obj ∈ c.objs, obj.closeCalled = true ∧ obj.id = obj'.id := by
  refine mapIdx_closeCalled fun o obj => ?_
  split <;> exact ⟨rfl, rfl⟩

/-- A stream is closed with nothing outstanding. -/
theorem Inv.close {c : Connection} (h : Inv c) {o : Nat} {obj : StreamObj}
    (ho : c.objs[o]? = some obj) (hok : c.closesSettled (.close o) = true) :
    Inv (c.modifyObj o fun obj =>
      StreamObj.after obj.stream.close { obj with closeCalled := true }) := by
  rw [closesSettled, ho, Bool.and_eq_true, List.isEmpty_iff] at hok
  have hw := h.writes
  refine ⟨h.objs.close ho hok.1, ⟨hw.counted, hw.account, hw.numbered, hw.known, hw.ended,
    fun obj' hobj' hc => ?_⟩, h.entering⟩
  rcases mem_modify ho hobj' with rfl | hold
  · exact hok.2
  · exact hw.gone obj' hold hc

/-- The session is closed with an empty queue, and nothing is on its way into it. -/
theorem Inv.closeSession {c : Connection} (h : Inv c) (halive : c.alive = true)
    (hok : c.closesSettled .closeSession = true) : Inv c.closeSession := by
  unfold Connection.closeSession
  split
  · exact h
  · rename_i hopen
    rw [closesSettled, Bool.eq_false_iff.mpr hopen, Bool.false_or, Bool.and_eq_true,
      Option.isNone_iff_eq_none] at hok
    have hw := h.writes
    refine ⟨h.objs.closeStreams halive _, ?_, fun he => ?_⟩
    · have hended : WritesOk { c with session := c.session.closeSession } :=
        ⟨hw.counted, hw.account, hw.numbered, hw.known, fun _ => hok.2, hw.gone⟩
      exact hended.congr rfl rfl closeStreams_closeCalled
    · have he' : c.entering.isSome := he
      rw [hok.1] at he'
      cases he'

theorem inv_step {c c' : Connection} {e : Event} (h : Inv c) (hok : c.closesSettled e = true)
    (hstep : c.step e = some c') : Inv c' := by
  rw [step, Option.ite_none_left_eq_some] at hstep
  obtain ⟨-, hact⟩ := hstep
  cases e with
  | openStream streamId =>
      rw [act, Option.ite_none_right_eq_some] at hact
      obtain ⟨hcan, heq⟩ := hact
      cases Option.some.inj heq
      simp only [Bool.and_eq_true, Bool.not_eq_true', Option.isNone_iff_eq_none] at hcan
      refine h.congr (h.objs.add hcan.2 hcan.1.1 hcan.1.2 ?_) rfl rfl rfl (concat_closeCalled rfl)
      exact ⟨rfl, rfl, rfl, fun h => h, fun h => h, fun h => h⟩
  | streamData streamId bytes =>
      rw [act, Option.ite_none_right_eq_some] at hact
      obtain ⟨hcan, heq⟩ := hact
      cases Option.some.inj heq
      rw [Bool.and_eq_true, Bool.not_eq_true'] at hcan
      unfold Connection.streamData
      cases hl : c.streams.lookup streamId with
      | some o =>
          exact h.congr (h.objs.modify o fun _ => StreamObj.moves_handleData bytes) rfl rfl rfl
            (modify_closeCalled fun _ => ⟨rfl, rfl⟩)
      | none =>
          exact h.congr (h.objs.add hl hcan.1 hcan.2 (StreamObj.moves_handleData bytes)) rfl rfl
            rfl (concat_closeCalled rfl)
  | streamClose streamId =>
      rw [act, Option.ite_none_right_eq_some] at hact
      obtain ⟨hcan, heq⟩ := hact
      cases Option.some.inj heq
      rw [Bool.and_eq_true] at hcan
      have hobjs := h.objs.streamClose hcan.1 streamId
      unfold Connection.streamClose at hobjs ⊢
      split at hobjs
      · exact h.congr hobjs rfl rfl rfl (modify_closeCalled fun _ => ⟨rfl, rfl⟩)
      · exact h
  | asyncRead o size readAll =>
      obtain ⟨obj, -, rfl⟩ := Option.map_eq_some_iff.mp hact
      exact h.congr (h.objs.modify o fun _ => StreamObj.moves_asyncRead size readAll) rfl rfl rfl
        (modify_closeCalled fun _ => ⟨rfl, rfl⟩)
  | asyncWrite o buffers =>
      obtain ⟨obj, -, rfl⟩ := Option.map_eq_some_iff.mp hact
      exact h.write obj.id buffers
  | enqueue calls =>
      rw [act, Option.ite_none_right_eq_some] at hact
      obtain ⟨w, hw, rfl⟩ := Option.map_eq_some_iff.mp hact.2
      rw [closesSettled, hw, Bool.and_eq_true] at hok
      exact h.push hw hok.1 hok.2
  | doWrite calls =>
      rw [act, Option.ite_none_right_eq_some] at hact
      cases Option.some.inj hact.2
      exact h.doWrite hok
  | close o =>
      obtain ⟨obj, ho, rfl⟩ := Option.map_eq_some_iff.mp hact
      exact h.close ho hok
  | closeSession =>
      rw [act, Option.ite_none_right_eq_some] at hact
      obtain ⟨halive, heq⟩ := hact
      cases Option.some.inj heq
      exact h.closeSession halive hok
  | expire =>
      have hobjs := h.objs.expire hact
      rw [act, Option.ite_none_right_eq_some] at hact
      cases Option.some.inj hact.2
      exact h.congr hobjs rfl rfl rfl (mapIdx_closeCalled fun _ _ => ⟨rfl, rfl⟩)

/-- Every handler of what is closed has been called exactly once: those of all reads and
writes once the session is closed, and those of a stream once its `close` has been called. -/
structure Complete (c : Connection) : Prop where
  reads : c.session.closedNotified = true → ∀ obj ∈ c.objs, CalledOnce obj.asked obj.called
  writes : c.session.closedNotified = true →
    CalledOnce (c.submitted.map Submission.handler) (c.session.posted.map Prod.fst)
  stream : ∀ obj ∈ c.objs, obj.closeCalled = true → CalledOnce obj.asked obj.called ∧
    CalledOnce ((c.submitted.filter fun w => w.streamId == obj.id).map Submission.handler)
      (c.session.posted.map Prod.fst)

theorem Inv.complete {c : Connection} (h : Inv c) : Complete c where
  reads he obj hobj := by
    obtain ⟨o, ho⟩ := List.getElem?_of_mem hobj
    exact (h.objs o obj ho).calledOnce ((h.objs o obj ho).ended he)
  writes he := by
    have hcalled := h.writes.calledOnce (h.writes.ended he)
    rw [List.filter_true] at hcalled
    exact hcalled
  stream obj hobj hc := by
    obtain ⟨o, ho⟩ := List.getElem?_of_mem hobj
    exact ⟨(h.objs o obj ho).calledOnce ((h.objs o obj ho).gone hc),
      h.writes.calledOnce (h.writes.gone obj hobj hc)⟩

end Connection

end Cfrp.Quic

import Cfrp.Mux.Ledger

/-!
# The buffers of a write

`async_write` does not copy: the frames a write is cut into refer to the buffers of the
caller, who may free them in the handler. `Lending` is a session together with the write to
whose buffers each frame of the write queue refers, if any. A frame is cut from the write
at the front of `pending_writes_`, which is still there until its last frame has been cut.
The handler goes with the last frame, so it is called after the others have been written;
but `close` and a failed partial send call the handlers of what is pending, and look
neither at the write queue nor at the write that is outstanding.

A write is named by its handler, so every call brings a handler of its own.
-/

namespace Cfrp.Mux

open Lib

namespace MuxStream

/-- A turn of `do_write`, and the write its frame is cut from. -/
def writeTurnOf (s : MuxStream) : Option (MuxStream × List (Effect × Option Handler)) :=
  s.writeTurn.map fun r =>
    (r.1, r.2.map fun e => (e, s.pendingWrites.head?.map PendingWrite.handler))

/-- `do_write`, and the writes its frames are cut from. -/
def doWriteOf (s : MuxStream) : MuxStream × List (Effect × Option Handler) :=
  loop writeTurnOf s.writeMeasure s

theorem doWriteOf_eq (s : MuxStream) : s.doWrite = (s.doWriteOf.1, s.doWriteOf.2.map Prod.fst) := by
  refine loop_map (fun s => s) (List.map Prod.fst) rfl (fun _ _ => List.map_append) (fun s => ?_)
    s.writeMeasure s
  rw [writeTurnOf, Option.map_map]
  cases h : s.writeTurn with
  | none => rfl
  | some r =>
      show some (r.1, (r.2.map _).map _) = some r
      rw [List.map_map]
      exact congrArg some (Prod.ext rfl (List.map_id _))

/-- The write at the front, of which something is left. -/
def Fronts (s : MuxStream) (handler : Handler) : Prop :=
  s.session = true ∧ ∃ pw rest, s.pendingWrites = pw :: rest ∧ pw.handler = handler ∧
    pw.buffers.flatten ≠ []

end MuxStream

/-- A frame of the write queue, and the write to whose buffers it refers. -/
abbrev Loan := PendingFrame × Option Handler

structure Lending where
  session : Session
  /-- The write queue of the session. -/
  loans : List Loan := []

namespace Lending

open Session

/-- The frames of an operation of stream object `o`. -/
def loansOf (o : Nat) (es : List (Effect × Option Handler)) : List Loan :=
  es.flatMap fun e => (pendingFrames o [e.1]).map fun pw => (pw, e.2)

/-- The frames an event cuts from the writes of a stream. -/
def slices (s : Session) : Session.Event → List Loan
  | .asyncWrite o buffers handler =>
      match s.objs[o]? with
      | some obj =>
          if obj.stream.pendingWrites.length ≥ maxPendingWrites then []
          else
            loansOf o (MuxStream.doWriteOf { obj.stream with
              pendingWrites := obj.stream.pendingWrites ++ [⟨buffers, handler⟩] }).2
      | none => []
  | .runStream o =>
      match s.objs[o]? with
      | some { tasks := .arrival (.windowUpdate delta) :: _, stream, .. } =>
          loansOf o (MuxStream.doWriteOf { stream with
            remoteWindowSize := min (stream.remoteWindowSize + delta.toNat) maxMessageSize }).2
      | _ => []
  | _ => []

/-- The write queue after an event. The other frames refer to no write. -/
def queueAfter (l : Lending) (e : Session.Event) (s' : Session) : List Loan :=
  match e with
  | .writeOk => l.loans.tail
  | .writeError => l.loans.tail
  | .expire => []
  | e =>
      let cut := l.loans ++ slices l.session e
      cut ++ (s'.writeQueue.drop cut.length).map fun pw => (pw, none)

def step (l : Lending) (e : Session.Event) : Option Lending :=
  if (given e).all fun handler => !l.session.submitted.contains handler then
    (l.session.step e).map fun s' => { session := s', loans := l.queueAfter e s' }
  else none

/-- **Safety.** No frame that is queued or being written refers to the buffers of a write
whose handler has been called. -/
def Safe (l : Lending) : Prop :=
  ∀ loan ∈ l.loans, ∀ handler, loan.2 = some handler →
    handler ∉ l.session.invoked.map Completion.handler

/-- No frame of the write queue refers to a write that is pending in object `o`. -/
def returned (l : Lending) (o : Nat) : Bool :=
  match l.session.objs[o]? with
  | none => true
  | some obj => l.loans.all fun loan =>
      obj.stream.pendingWrites.all fun pw => loan.2 != some pw.handler

/-- A stream is closed, or told that one of its partial sends has failed, only when no frame
of the write queue refers to one of its pending writes. -/
def endsReturned (l : Lending) : Session.Event → Bool
  | .close o =>
      match l.session.objs[o]? with
      | some obj => obj.stream.localClosed || l.returned o
      | none => true
  | .runStream o =>
      match l.session.objs[o]? with
      | some { tasks := .failWrites _ :: _, .. } => l.returned o
      | _ => true
  | _ => true

/-! ## Who owns a frame -/

/-- The frame that takes the handler of its write along. -/
def Last (loan : Loan) (handler : Handler) : Prop := ∃ n, loan.1.handler = .invoke handler n

/-- Each frame is the last one of its write, or the last one follows, or its write is still at
the front of a stream. `front` says which write that is. -/
def Owned (front : Nat → Handler → Prop) : List Loan → Prop
  | [] => True
  | loan :: rest =>
      (∀ handler, loan.2 = some handler → Last loan handler ∨ (∃ other ∈ rest, Last other handler) ∨
        ∃ o, loan.1.handler = .failPending o ∧ front o handler) ∧ Owned front rest

theorem owned_append {front front' : Nat → Handler → Prop} {loans loans' : List Loan}
    (h : Owned front loans) (h' : Owned front' loans')
    (hfront : ∀ loan ∈ loans, ∀ o handler, loan.1.handler = .failPending o →
      loan.2 = some handler → front o handler →
      front' o handler ∨ ∃ other ∈ loans', Last other handler) : Owned front'
        (loans ++ loans') := by
  induction loans with
  | nil => exact h'
  | cons loan rest ih =>
      obtain ⟨hloan, hrest⟩ := h
      have hback := ih hrest fun l hl => hfront l (List.mem_cons_of_mem _ hl)
      refine ⟨fun handler hh => ?_, hback⟩
      rcases hloan handler hh with hlast | ⟨other, hother, hlast⟩ | ⟨o, ho, hf⟩
      · exact Or.inl hlast
      · exact Or.inr (Or.inl ⟨other, List.mem_append_left _ hother, hlast⟩)
      · rcases hfront loan List.mem_cons_self o handler ho hh hf with hf' | ⟨other, hother, hlast⟩
        · exact Or.inr (Or.inr ⟨o, ho, hf'⟩)
        · exact Or.inr (Or.inl ⟨other, List.mem_append_right _ hother, hlast⟩)

theorem owned_mono {front front' : Nat → Handler → Prop} {loans : List Loan} (h : Owned front loans)
    (hfront : ∀ o handler, front o handler → front' o handler) : Owned front' loans := by
  have happend : Owned front' (loans ++ []) :=
    owned_append h trivial fun _ _ o handler _ _ hf => Or.inl (hfront o handler hf)
  rwa [List.append_nil] at happend

theorem owned_none (front : Nat → Handler → Prop) (fs : List PendingFrame) :
    Owned front (fs.map fun pw => (pw, none)) := by
  induction fs with
  | nil => trivial
  | cons pw fs ih =>
      refine ⟨fun handler hh => ?_, ih⟩
      cases hh

theorem owned_tail {front : Nat → Handler → Prop} {loans : List Loan} (h : Owned front loans) :
    Owned front loans.tail := by
  cases loans with
  | nil => trivial
  | cons loan rest => exact h.2

/-- A write with a frame in the queue is not complete. -/
theorem Owned.pending {front : Nat → Handler → Prop} {loans : List Loan} (h : Owned front loans)
    {loan : Loan} (hloan : loan ∈ loans) {handler : Handler} (hh : loan.2 = some handler) :
    (∃ other ∈ loans, Last other handler) ∨ ∃ o, front o handler := by
  induction loans with
  | nil => cases hloan
  | cons first rest ih =>
      rcases List.mem_cons.mp hloan with rfl | hmem
      · rcases h.1 handler hh with hlast | ⟨other, hother, hlast⟩ | ⟨o, -, hf⟩
        · exact Or.inl ⟨loan, List.mem_cons_self, hlast⟩
        · exact Or.inl ⟨other, List.mem_cons_of_mem _ hother, hlast⟩
        · exact Or.inr ⟨o, hf⟩
      · rcases ih h.2 hmem with ⟨other, hother, hlast⟩ | hf
        · exact Or.inl ⟨other, List.mem_cons_of_mem _ hother, hlast⟩
        · exact Or.inr hf

theorem loansOf_append (o : Nat) (es es' : List (Effect × Option Handler)) :
    loansOf o (es ++ es') = loansOf o es ++ loansOf o es' := List.flatMap_append

theorem pendingFrames_append (o : Nat) (es es' : List Effect) :
    pendingFrames o (es ++ es') = pendingFrames o es ++ pendingFrames o es' := List.filterMap_append

theorem loansOf_fst (o : Nat) (es : List (Effect × Option Handler)) :
    (loansOf o es).map Prod.fst = pendingFrames o (es.map Prod.fst) := by
  induction es with
  | nil => rfl
  | cons e es ih =>
      have hone : (loansOf o [e]).map Prod.fst = pendingFrames o [e.1] := by
        rw [loansOf, List.flatMap_singleton, List.map_map]
        exact List.map_id _
      rw [← List.singleton_append, loansOf_append, List.map_append, hone, ih, List.map_append,
        pendingFrames_append]
      rfl

/-! ## Cutting frames -/

/-- What cutting frames does: each of them is owned, and a write leaves the front only with
its last frame. -/
structure Cuts (o : Nat) (s : MuxStream) (es : List (Effect × Option Handler)) (s' : MuxStream) :
    Prop where
  owned : Owned (fun o' handler => o' = o ∧ s'.Fronts handler) (loansOf o es)
  fronts : ∀ handler, s.Fronts handler →
    s'.Fronts handler ∨ ∃ loan ∈ loansOf o es, Last loan handler

theorem Cuts.refl (o : Nat) (s : MuxStream) : Cuts o s [] s := ⟨trivial, fun _ h => Or.inl h⟩

theorem Cuts.trans {o : Nat} {s s' s'' : MuxStream} {es es' : List (Effect × Option Handler)}
    (h : Cuts o s es s') (h' : Cuts o s' es' s'') : Cuts o s (es ++ es') s'' where
  owned := by
    rw [loansOf_append]
    refine owned_append h.owned h'.owned fun loan _ o' handler _ _ hf => ?_
    exact (h'.fronts handler hf.2).imp (fun hf' => ⟨hf.1, hf'⟩) id
  fronts handler hf := by
    rw [loansOf_append]
    rcases h.fronts handler hf with hf' | ⟨loan, hloan, hlast⟩
    · rcases h'.fronts handler hf' with hf'' | ⟨loan, hloan, hlast⟩
      · exact Or.inl hf''
      · exact Or.inr ⟨loan, List.mem_append_right _ hloan, hlast⟩
    · exact Or.inr ⟨loan, List.mem_append_left _ hloan, hlast⟩

theorem cuts_turn (o : Nat) {s s' : MuxStream} {es : List (Effect × Option Handler)}
    (h : s.writeTurnOf = some (s', es)) : Cuts o s es s' := by
  obtain ⟨⟨s₁, es₁⟩, hturn, heq⟩ := Option.map_eq_some_iff.mp h
  obtain ⟨rfl, rfl⟩ := Prod.mk.inj heq
  obtain ⟨pw, rest, hpw, -, hcase⟩ := MuxStream.writeTurn_cases hturn
  have hfront : ∀ handler, s.Fronts handler →
      s.session = true ∧ pw.handler = handler ∧ pw.buffers.flatten ≠ [] := by
    rintro handler ⟨hsession, pw', rest', hpw', hh, hleft⟩
    rw [hpw] at hpw'
    cases hpw'
    exact ⟨hsession, hh, hleft⟩
  rcases hcase with ⟨ec, -, hnil, -, rfl⟩ | ⟨n, -, -, -, ⟨hlt, hs', rfl⟩ | ⟨-, -, rfl⟩⟩
  · -- nothing is left of the front write
    refine ⟨trivial, fun handler hf => ?_⟩
    obtain ⟨hsession, -, hleft⟩ := hfront handler hf
    exact absurd (hnil hsession).2 hleft
  · -- a frame is cut, and the rest stays at the front
    have hsession := MuxStream.session_of_send hturn
    have hstays : s₁.Fronts pw.handler := by
      rw [hs']
      refine ⟨hsession, _, rest, rfl, rfl, ?_⟩
      rw [flatten_skipBuffers]
      intro hnil
      have hlen := congrArg List.length hnil
      rw [List.length_drop, List.length_nil] at hlen
      omega
    refine ⟨⟨fun handler hh => ?_, trivial⟩, fun handler hf => Or.inl ?_⟩
    · rw [hpw] at hh
      cases Option.some.inj hh
      exact Or.inr (Or.inr ⟨o, rfl, rfl, hstays⟩)
    · obtain ⟨-, rfl, -⟩ := hfront handler hf
      exact hstays
  · -- the last frame
    refine ⟨⟨fun handler hh => ?_, trivial⟩, fun handler hf => Or.inr ?_⟩
    · rw [hpw] at hh
      cases Option.some.inj hh
      exact Or.inl ⟨_, rfl⟩
    · obtain ⟨-, rfl, -⟩ := hfront handler hf
      exact ⟨_, List.mem_cons_self, _, rfl⟩

theorem cuts_doWrite (o : Nat) (s : MuxStream) : Cuts o s s.doWriteOf.2 s.doWriteOf.1 :=
  loop_induct (R := Cuts o) (Cuts.refl o) (fun _ _ _ _ _ h h' => (cuts_turn o h).trans h') _ s

/-! ## What a step does to the writes -/

/-- The write of a handler is at the front of a stream. -/
def Front (objs : List StreamObj) (o : Nat) (handler : Handler) : Prop :=
  ∃ obj, objs[o]? = some obj ∧ obj.stream.Fronts handler

/-- Frames are queued, and the writes of the streams stay as they are. -/
structure Quiet (s s' : Session) : Prop where
  queue : ∃ fs, s'.writeQueue = s.writeQueue ++ fs
  writes : ∀ (o : Nat) (obj : StreamObj), s.objs[o]? = some obj →
    ∃ obj' : StreamObj, s'.objs[o]? = some obj' ∧
    obj'.stream.pendingWrites = obj.stream.pendingWrites ∧ obj'.stream.session = obj.stream.session

variable {s s' s'' : Session} {o : Nat} {obj : StreamObj}

theorem Quiet.trans (h : Quiet s s') (h' : Quiet s' s'') : Quiet s s'' where
  queue := by
    obtain ⟨fs, hfs⟩ := h.queue
    obtain ⟨fs', hfs'⟩ := h'.queue
    exact ⟨fs ++ fs', by rw [hfs', hfs, List.append_assoc]⟩
  writes o obj ho := by
    obtain ⟨obj', ho', hwrites, hsession⟩ := h.writes o obj ho
    obtain ⟨obj'', ho'', hwrites', hsession'⟩ := h'.writes o obj' ho'
    exact ⟨obj'', ho'', hwrites'.trans hwrites, hsession'.trans hsession⟩

theorem Quiet.front (h : Quiet s s') {handler : Handler} (hf : Front s.objs o handler) :
    Front s'.objs o handler := by
  obtain ⟨obj, ho, hsession, hfront⟩ := hf
  obtain ⟨obj', ho', hwrites, hsame⟩ := h.writes o obj ho
  exact ⟨obj', ho', hsame.trans hsession, by rw [hwrites]; exact hfront⟩

theorem quiet_same (hqueue : s'.writeQueue = s.writeQueue) (hobjs : s'.objs = s.objs) :
    Quiet s s' where
  queue := ⟨[], by rw [hqueue, List.append_nil]⟩
  writes o obj ho := ⟨obj, by rw [hobjs, ho], rfl, rfl⟩

theorem quiet_asyncSendFrame (s : Session) (pw : PendingFrame) : Quiet s (s.asyncSendFrame pw) where
  queue := ⟨[pw], asyncSendFrame_writeQueue s pw⟩
  writes o obj ho := ⟨obj, by rw [(Pair.asyncSendFrame_same s pw).objs, ho], rfl, rfl⟩

theorem quiet_modifyObj (f : StreamObj → StreamObj)
    (hwrites : ∀ obj, s.objs[o]? = some obj →
      (f obj).stream.pendingWrites = obj.stream.pendingWrites ∧
        (f obj).stream.session = obj.stream.session) : Quiet s (s.modifyObj o f) where
  queue := ⟨[], (List.append_nil _).symm⟩
  writes o' obj ho := by
    show ∃ obj', (s.objs.modify o f)[o']? = some obj' ∧ _
    rw [List.getElem?_modify, ho]
    by_cases heq : o = o'
    · subst heq
      exact ⟨f obj, by simp, hwrites obj ho⟩
    · exact ⟨obj, by simp [heq], rfl, rfl⟩

/-- A read, or what a stream does with what it has received, apart from its window. -/
theorem quiet_perform (ho : s.objs[o]? = some obj) {r : MuxStream × List Effect}
    (hwrites : r.1.pendingWrites = obj.stream.pendingWrites)
    (hsession : r.1.session = obj.stream.session) :
    Quiet s (s.perform o r) := by
  have hmod : Quiet s (s.modifyObj o (afterOp r)) := quiet_modifyObj _ fun obj' ho' => by
    rw [ho] at ho'
    cases ho'
    exact ⟨hwrites, hsession⟩
  refine hmod.trans ⟨⟨pendingFrames o r.2, perform_writeQueue s o r⟩, fun o' obj' ho' => ?_⟩
  exact ⟨obj', by rw [Pair.perform_objs]; exact ho', rfl, rfl⟩

theorem quiet_addObj (s : Session) (next id : UInt32) : Quiet s (Pair.addObj s next id) where
  queue := ⟨[], (List.append_nil _).symm⟩
  writes _ obj ho := ⟨obj, getElem?_concat_of_some ho, rfl, rfl⟩

theorem doRead_writes (s : MuxStream) :
    s.doRead.1.pendingWrites = s.pendingWrites ∧ s.doRead.1.session = s.session := by
  rw [MuxStream.doRead_same]
  exact ⟨rfl, rfl⟩

theorem quiet_handleClose (ho : s.objs[o]? = some obj) :
    Quiet s (s.perform o obj.stream.handleClose) :=
  quiet_perform ho (doRead_writes { obj.stream with remoteClosed := true }).1
    (doRead_writes { obj.stream with remoteClosed := true }).2

theorem quiet_pushTasks (s : Session) (o : Nat) (tasks : List Task) :
    Quiet s (s.pushTasks o tasks) :=
  quiet_modifyObj _ fun _ _ => ⟨rfl, rfl⟩

theorem quiet_stop (s : Session) (running : Option Nat) : Quiet s (s.stop running) := by
  have hall : ∀ (os : List Nat) (s : Session), Quiet s (os.foldl (closeObj running) s) := by
    intro os
    induction os with
    | nil => exact fun s => quiet_same rfl rfl
    | cons o os ih =>
        intro s
        refine Quiet.trans ?_ (ih _)
        rw [closeObj]
        split
        · exact quiet_same rfl rfl
        · rename_i obj ho
          split
          · exact quiet_handleClose ho
          · exact quiet_pushTasks s o _
  rw [stop]
  split
  · exact quiet_same rfl rfl
  · have hopen : Quiet s { s with stopped := true, streams := ∅ } := quiet_same rfl rfl
    exact hopen.trans (hall _ _)

theorem quiet_handleFrame (s : Session) (hd : Header) (body : List Byte) :
    Quiet s (s.handleFrame hd body) := by
  have hfor : Quiet s (s.streamFor hd).1 := by
    rw [streamFor]
    split
    · exact quiet_same rfl rfl
    · split
      · exact (quiet_addObj s s.nextStreamId hd.streamId).trans (quiet_same rfl rfl)
      · exact quiet_same rfl rfl
  rw [handleFrame]
  split
  · split
    · rename_i s₁ o heq
      rw [heq] at hfor
      exact hfor.trans (quiet_pushTasks s₁ o _)
    · rename_i s₁ heq
      rw [heq] at hfor
      exact hfor
  · split
    · split <;> exact quiet_same rfl rfl
    · exact quiet_same rfl rfl

/-- The events that neither add to the writes of a stream, nor take one away, nor a frame. -/
def quietEvent (s : Session) : Session.Event → Bool
  | .asyncWrite .. => false
  | .close _ => false
  | .destroy _ => false
  | .runStream o =>
      match s.objs[o]? with
      | some { tasks := .arrival (.windowUpdate _) :: _, .. } => false
      | some { tasks := .failWrites _ :: _, .. } => false
      | _ => true
  | .writeOk => false
  | .writeError => false
  | .expire => false
  | _ => true

theorem quiet_runTask {t : Task} {tasks : List Task} (he : quietEvent s (.runStream o) = true)
    (ho : s.objs[o]? = some obj) (htasks : obj.tasks = t :: tasks) :
    Quiet s ((s.modifyObj o fun obj => { obj with tasks }).runTask o obj t) := by
  have hpop : Quiet s (s.modifyObj o fun obj => { obj with tasks }) :=
    quiet_modifyObj _ fun _ _ => ⟨rfl, rfl⟩
  have ho' := getElem?_modifyObj ho fun obj => { obj with tasks }
  refine hpop.trans ?_
  obtain ⟨stream, tasks', destroyed, accepted, lateWrite, sent, reported⟩ := obj
  cases htasks
  cases t with
  | arrival a =>
      cases a with
      | data bytes =>
          exact quiet_perform ho' (doRead_writes { stream with readQueue := _ }).1
            (doRead_writes { stream with readQueue := _ }).2
      | windowUpdate delta =>
          rw [quietEvent, ho] at he
          cases he
      | close =>
          exact quiet_perform ho' (doRead_writes { stream with remoteClosed := true }).1
            (doRead_writes { stream with remoteClosed := true }).2
  | failWrites ec =>
      rw [quietEvent, ho] at he
      cases he
  | complete c =>
      have hreported : Quiet (s.modifyObj o fun obj => { obj with tasks })
          ((s.modifyObj o fun obj => { obj with tasks }).modifyObj o
            fun obj => { obj with reported := obj.reported ++ [c] }) :=
        quiet_modifyObj _ fun _ _ => ⟨rfl, rfl⟩
      exact hreported.trans (quiet_same rfl rfl)

theorem quiet_step {e : Session.Event} (he : quietEvent s e = true) (h : s.step e = some s') :
    Quiet s s' := by
  have hsub : ∀ handler : Option Handler, Quiet s (handler.elim s s.submit) := by
    intro handler
    cases handler <;> exact quiet_same rfl rfl
  cases stepped_of_step h with
  | openStream onStrand _ =>
      have hadded := quiet_addObj s (s.nextStreamId + 2) s.nextStreamId
      rw [openStream]
      split
      · exact hadded.trans (quiet_asyncSendFrame _ _)
      · exact hadded.trans (quiet_same rfl rfl)
  | @asyncRead o obj size handler readAll hcallee =>
      have ho := (callee_eq hcallee).1
      have hread : ∀ r : MuxStream × List Effect, r = obj.stream.asyncRead size handler readAll →
          r.1.pendingWrites = obj.stream.pendingWrites ∧ r.1.session = obj.stream.session := by
        rintro r rfl
        rw [MuxStream.asyncRead]
        split
        · exact ⟨rfl, rfl⟩
        · exact doRead_writes _
      have hperform := quiet_perform (s := s.submit handler) ho (hread _ rfl).1 (hread _ rfl).2
      exact (hsub (some handler)).trans hperform
  | asyncWrite buffers handler _ => cases he
  | close _ => cases he
  | destroy _ _ => cases he
  | sendFrame f handler _ => exact (hsub handler).trans (quiet_asyncSendFrame _ _)
  | postFrame f handler _ => exact (hsub handler).trans (quiet_same rfl rfl)
  | heartbeat _ => exact quiet_asyncSendFrame _ _
  | stop running _ => exact quiet_stop s running
  | postStop _ => exact quiet_same rfl rfl
  | runStream ho htasks => exact quiet_runTask he ho htasks
  | @sendPosted pw posted _ =>
      have hpop : Quiet s { s with posted } := quiet_same rfl rfl
      exact hpop.trans (quiet_asyncSendFrame _ _)
  | @stopPosted posted _ =>
      have hpop : Quiet s { s with posted } := quiet_same rfl rfl
      exact hpop.trans (quiet_stop _ _)
  | writeOk _ _ _ => cases he
  | writeError _ _ => cases he
  | late _ _ _ => exact quiet_same rfl rfl
  | header _ _ _ _ _ => exact quiet_same rfl rfl
  | tooLong _ _ _ _ => exact quiet_same rfl rfl
  | headerFrame _ _ _ => exact (quiet_handleFrame s _ []).trans (quiet_same rfl rfl)
  | bodyFrame _ _ _ => exact (quiet_handleFrame s _ _).trans (quiet_same rfl rfl)
  | readError _ _ => exact quiet_same rfl rfl
  | expire _ _ _ _ => cases he

/-- The end of a write takes its frame off the queue. -/
theorem writeDone_tail {ec : ErrorCode} (h : s.writeDone ec = some s') :
    s'.writeQueue = s.writeQueue.tail ∧ Quiet { s with writeQueue := s.writeQueue.tail } s' := by
  rw [Session.writeDone] at h
  split at h
  · cases h
  · rename_i pw rest hq
    have hcall : ∀ t : Session, Quiet t (t.callHandler ec pw.handler) ∧
        (t.callHandler ec pw.handler).writeQueue = t.writeQueue := by
      intro t
      cases pw.handler with
      | none => exact ⟨quiet_same rfl rfl, rfl⟩
      | failPending o =>
          rw [callHandler]
          split
          · exact ⟨quiet_same rfl rfl, rfl⟩
          · exact ⟨quiet_pushTasks t o _, rfl⟩
      | invoke handler n => exact ⟨quiet_same rfl rfl, rfl⟩
      | user handler => exact ⟨quiet_same rfl rfl, rfl⟩
    obtain ⟨hquiet, hqueue⟩ := hcall { s with writeQueue := rest, writing := false }
    have hpopped : Quiet { s with writeQueue := s.writeQueue.tail }
        { s with writeQueue := rest, writing := false } := quiet_same (by rw [hq]; rfl) rfl
    have htail : s.writeQueue.tail = rest := by rw [hq]; rfl
    rw [htail, ← Option.some.inj h]
    rw [htail] at hpopped
    split
    · exact ⟨(doWrite_writeQueue _).trans hqueue, (hpopped.trans hquiet).trans
        (quiet_same (doWrite_writeQueue _) (Pair.doWrite_same _).objs)⟩
    · exact ⟨hqueue, (hpopped.trans hquiet).trans (quiet_same rfl rfl)⟩

/-! ## The invariant -/

/-- Every frame of the queue is accounted for, and so is every handler. -/
structure Inv (l : Lending) : Prop where
  queue : l.loans.map Prod.fst = l.session.writeQueue
  owned : Owned (Front l.session.objs) l.loans
  named : l.session.submitted.Nodup
  placed : Placed l.session

variable {l l' : Lending}

/-- A write with a frame in the queue is not complete, and a handler is in one place. -/
theorem Inv.safe (h : Inv l) : Safe l := by
  intro loan hloan handler hh hcalled
  have hinvoked := List.count_pos_iff.mpr hcalled
  have honce := List.nodup_iff_count_le_one.mp h.named handler
  have hplaced := h.placed handler
  rw [accounted] at hplaced
  rcases h.owned.pending hloan hh with ⟨other, hother, n, hlast⟩ | ⟨o, obj, ho, -, pw,
    rest, hpw, rfl, -⟩
  · have hmem : handler ∈ frameHandlers l.session.writeQueue := by
      rw [← h.queue]
      exact List.mem_filterMap.mpr ⟨other.1, List.mem_map_of_mem hother, by rw [hlast]⟩
    have hframe := List.count_pos_iff.mpr hmem
    omega
  · have hmem : pw.handler ∈ l.session.objs.flatMap handlersOf := by
      refine List.mem_flatMap.mpr ⟨obj, List.mem_of_getElem? ho, ?_⟩
      refine List.mem_append_left _ (List.mem_append_right _ ?_)
      rw [hpw]
      exact List.mem_cons_self
    have hobj := List.count_pos_iff.mpr hmem
    omega

theorem cut_eq {cut : List Loan} {queue : List PendingFrame} (hcut : cut.map Prod.fst = queue) :
    cut ++ (queue.drop cut.length).map (fun pw => (pw, none)) = cut := by
  have hlen : queue.length = cut.length := by rw [← hcut, List.length_map]
  rw [List.drop_eq_nil_of_le (Nat.le_of_eq hlen), List.map_nil, List.append_nil]

/-- The frames of the session's write queue are known, and owned. -/
def Framed (loans : List Loan) (s : Session) : Prop :=
  loans.map Prod.fst = s.writeQueue ∧ Owned (Front s.objs) loans

/-- The queue, when a step cuts no frame from a write. -/
def grown (l : Lending) (s' : Session) : List Loan :=
  l.loans ++ (s'.writeQueue.drop l.loans.length).map fun pw => (pw, none)

/-- Nothing is cut, and every write at a front that has a frame in the queue stays there. -/
theorem grown_ok (h : Inv l) {fs : List PendingFrame}
    (hqueue : s'.writeQueue = l.session.writeQueue ++ fs)
    (hfront : ∀ loan ∈ l.loans, ∀ o handler, loan.1.handler = .failPending o →
      loan.2 = some handler → Front l.session.objs o handler → Front s'.objs o handler) :
    Framed (l.grown s') s' := by
  have hlen : l.loans.length = l.session.writeQueue.length := by rw [← h.queue, List.length_map]
  have hgrown : l.grown s' = l.loans ++ fs.map fun pw => (pw, none) := by
    rw [grown, hqueue, hlen, List.drop_left]
  rw [hgrown]
  refine ⟨?_, owned_append h.owned (owned_none _ fs) fun loan hloan o handler ho hh hf =>
    Or.inl (hfront loan hloan o handler ho hh hf)⟩
  rw [List.map_append, h.queue, hqueue, List.map_map]
  exact congrArg _ (List.map_id fs)

theorem front_of_ne {f : StreamObj → StreamObj} {objs : List StreamObj} {o' : Nat}
    {handler : Handler} (hne : o' ≠ o) (h : Front objs o' handler) :
    Front (objs.modify o f) o' handler := by
  obtain ⟨obj, ho, hf⟩ := h
  exact ⟨obj, by rw [List.getElem?_modify]; simp [ho, Ne.symm hne], hf⟩

/-- Frames are cut from the writes of object `o`, whose stream was `st` before `do_write`. -/
theorem cut_ok (h : Inv l) (ho : l.session.objs[o]? = some obj) {st : MuxStream}
    (hst : ∀ handler, obj.stream.Fronts handler → st.Fronts handler)
    (hqueue : s'.writeQueue = l.session.writeQueue ++ pendingFrames o st.doWrite.2)
    (hself : ∃ obj', s'.objs[o]? = some obj' ∧ obj'.stream = st.doWrite.1)
    (hother : ∀ o' handler, o' ≠ o → Front l.session.objs o' handler → Front s'.objs o' handler) :
    Framed (l.loans ++ loansOf o st.doWriteOf.2) s' := by
  have hcuts := cuts_doWrite o st
  obtain ⟨obj', ho', hstream⟩ := hself
  rw [MuxStream.doWriteOf_eq] at hqueue hstream
  constructor
  · rw [List.map_append, h.queue, loansOf_fst, hqueue]
  · have howned : Owned (Front s'.objs) (loansOf o st.doWriteOf.2) := by
      refine owned_mono hcuts.owned ?_
      rintro o' handler ⟨rfl, hf⟩
      exact ⟨obj', ho', by rw [hstream]; exact hf⟩
    refine owned_append h.owned howned fun loan _ o' handler _ _ hf => ?_
    by_cases heq : o' = o
    · subst heq
      obtain ⟨obj₁, ho₁, hf₁⟩ := hf
      rw [ho] at ho₁
      cases ho₁
      refine (hcuts.fronts handler (hst handler hf₁)).imp (fun hf' => ?_) id
      exact ⟨obj', ho', by rw [hstream]; exact hf'⟩
    · exact Or.inl (hother o' handler heq hf)

/-- What is not referred to any more is not at the front with a frame in the queue. -/
theorem not_front_of_returned (hret : l.returned o = true) {loan : Loan} (hloan : loan ∈ l.loans)
    {handler : Handler} (hh : loan.2 = some handler) : ¬ Front l.session.objs o handler := by
  rintro ⟨obj, ho, -, pw, rest, hpw, rfl, -⟩
  rw [returned, ho] at hret
  have hall := List.all_eq_true.mp (List.all_eq_true.mp hret loan hloan) pw
    (by rw [hpw]; exact List.mem_cons_self)
  rw [hh] at hall
  simp at hall

theorem queueAfter_eq {e : Session.Event} (he : e ≠ .writeOk ∧ e ≠ .writeError ∧ e ≠ .expire) :
    l.queueAfter e s' = (l.loans ++ slices l.session e) ++
      (s'.writeQueue.drop (l.loans ++ slices l.session e).length).map fun pw => (pw, none) := by
  obtain ⟨hok, herror, hexpire⟩ := he
  rw [queueAfter]
  · exact hok
  · exact herror
  · exact hexpire

/-- An event that cuts nothing. -/
theorem queueAfter_grown {e : Session.Event} (he : e ≠ .writeOk ∧ e ≠ .writeError ∧ e ≠ .expire)
    (hcut : slices l.session e = []) : l.queueAfter e s' = l.grown s' := by
  rw [queueAfter_eq he, hcut, List.append_nil, grown]

theorem slices_quiet {e : Session.Event} (he : quietEvent s e = true) : slices s e = [] := by
  cases e with
  | asyncWrite o buffers handler => cases he
  | runStream o =>
      rw [quietEvent] at he
      rw [slices]
      split
      · rename_i ho
        rw [ho] at he
        cases he
      · rfl
  | _ => rfl

theorem ne_of_quiet {e : Session.Event} (he : quietEvent s e = true) :
    e ≠ .writeOk ∧ e ≠ .writeError ∧ e ≠ .expire := by
  refine ⟨?_, ?_, ?_⟩ <;> · rintro rfl; cases he

/-- Frames are cut from the writes of an object. -/
theorem frames_cut (h : Inv l) {e : Session.Event}
    (he : e ≠ .writeOk ∧ e ≠ .writeError ∧ e ≠ .expire) (ho : l.session.objs[o]? = some obj)
    (st : MuxStream) (hst : ∀ handler, obj.stream.Fronts handler → st.Fronts handler)
    (hslices : slices l.session e = loansOf o st.doWriteOf.2) {t : Session}
    {f : StreamObj → StreamObj}
    (hqueue : t.writeQueue = l.session.writeQueue) (hobjs : t.objs = l.session.objs.modify o f) :
    Framed (l.queueAfter e (t.perform o st.doWrite)) (t.perform o st.doWrite) := by
  have hafter : (t.perform o st.doWrite).objs =
      (l.session.objs.modify o f).modify o (afterOp st.doWrite) := by
    rw [Pair.perform_objs, hobjs]
  have hqueued := perform_writeQueue t o st.doWrite
  rw [hqueue] at hqueued
  have hself : ∃ obj', (t.perform o st.doWrite).objs[o]? = some obj' ∧
      obj'.stream = st.doWrite.1 :=
    ⟨afterOp st.doWrite (f obj), by rw [hafter]; simp [ho], rfl⟩
  have hcut := cut_ok h ho hst hqueued hself fun o' handler hne hfront => by
    rw [hafter]
    exact front_of_ne hne (front_of_ne hne hfront)
  rw [queueAfter_eq he, hslices, cut_eq hcut.1]
  exact hcut

theorem fronts_append {st : MuxStream} (pw : PendingWrite) {handler : Handler}
    (h : st.Fronts handler) :
    MuxStream.Fronts { st with pendingWrites := st.pendingWrites ++ [pw] } handler := by
  obtain ⟨hsession, front, rest, hfront, hh, hleft⟩ := h
  exact ⟨hsession, front, rest ++ [pw], by rw [hfront]; rfl, hh, hleft⟩

theorem frames_asyncWrite (h : Inv l) (ho : l.session.objs[o]? = some obj)
    (buffers : List (List Byte)) (handler : Handler) {s' : Session}
    (hs' : s' =
      ((l.session.submit handler).modifyObj o fun obj => acceptPayload obj buffers).perform o
        (obj.stream.asyncWrite buffers handler)) :
    Framed (l.queueAfter (.asyncWrite o buffers handler) s') s' := by
  by_cases hfull : obj.stream.pendingWrites.length ≥ maxPendingWrites
  · -- the write is refused
    have hslices : slices l.session (.asyncWrite o buffers handler) = [] := by
      rw [slices, ho]
      exact if_pos hfull
    have hrefused : obj.stream.asyncWrite buffers handler =
        (obj.stream, [.post { handler, ec := .noBufferSpace }]) := by
      rw [MuxStream.asyncWrite, if_pos hfull]
    rw [hrefused] at hs'
    rw [queueAfter_grown (e := .asyncWrite o buffers handler) (by simp) hslices]
    have hsub : Quiet l.session (l.session.submit handler) := quiet_same rfl rfl
    have haccept : Quiet (l.session.submit handler)
        ((l.session.submit handler).modifyObj o fun obj => acceptPayload obj buffers) :=
      quiet_modifyObj _ fun obj _ => by
        rw [acceptPayload_stream]
        exact ⟨rfl, rfl⟩
    have ho' := getElem?_modifyObj (s := l.session.submit handler) ho
      fun obj => acceptPayload obj buffers
    have hperform := quiet_perform ho'
      (r := (obj.stream, [.post { handler, ec := .noBufferSpace }]))
      (by rw [acceptPayload_stream]) (by rw [acceptPayload_stream])
    have hquiet := (hsub.trans haccept).trans hperform
    rw [← hs'] at hquiet
    obtain ⟨fs, hfs⟩ := hquiet.queue
    exact grown_ok h hfs fun _ _ _ _ _ _ hf => hquiet.front hf
  · have hslices : slices l.session (.asyncWrite o buffers handler) =
        loansOf o (MuxStream.doWriteOf { obj.stream with
          pendingWrites := obj.stream.pendingWrites ++ [⟨buffers, handler⟩] }).2 := by
      rw [slices, ho]
      exact if_neg hfull
    have hwrites : obj.stream.asyncWrite buffers handler = MuxStream.doWrite { obj.stream with
        pendingWrites := obj.stream.pendingWrites ++ [⟨buffers, handler⟩] } := by
      rw [MuxStream.asyncWrite, if_neg hfull]
    rw [hwrites] at hs'
    rw [hs']
    exact frames_cut h (by simp) ho _ (fun _ hf => fronts_append _ hf) hslices rfl rfl

/-- A window update, or a failed partial send. -/
theorem frames_runTask (h : Inv l) (ho : l.session.objs[o]? = some obj) {t : Task}
    {tasks : List Task} (htasks : obj.tasks = t :: tasks)
    (he : ¬ quietEvent l.session (.runStream o) = true)
    (hok : l.endsReturned (.runStream o) = true) {s' : Session}
    (hs' : s' = (l.session.modifyObj o fun obj => { obj with tasks }).runTask o obj t) :
    Framed (l.queueAfter (.runStream o) s') s' := by
  obtain ⟨stream, tasks', destroyed, accepted, lateWrite, sent, reported⟩ := obj
  cases htasks
  rw [quietEvent, ho] at he
  rw [endsReturned, ho] at hok
  cases t with
  | arrival a =>
      cases a with
      | data bytes => exact absurd rfl he
      | windowUpdate delta =>
          rw [hs']
          refine frames_cut h (by simp) ho { stream with
            remoteWindowSize := min (stream.remoteWindowSize + delta.toNat) maxMessageSize }
            (fun _ hf => hf) ?_ rfl rfl
          rw [slices, ho]
      | close => exact absurd rfl he
  | failWrites ec =>
      have hslices : slices l.session (.runStream o) = [] := by rw [slices, ho]
      rw [queueAfter_grown (by simp) hslices, hs']
      refine grown_ok h (perform_writeQueue _ o _) fun loan hloan o' handler _ hh hf => ?_
      have hne : o' ≠ o := fun heq => not_front_of_returned hok hloan hh (heq ▸ hf)
      show Front (perform _ o (stream.failWrites ec)).objs o' handler
      rw [Pair.perform_objs]
      exact front_of_ne hne (front_of_ne hne hf)
  | complete c => exact absurd rfl he

theorem frames_close (h : Inv l) (hok : l.endsReturned (.close o) = true)
    (ho : l.session.objs[o]? = some obj) :
    Framed (l.queueAfter (.close o) (l.session.perform o obj.stream.close))
      (l.session.perform o obj.stream.close) := by
  rw [endsReturned, ho] at hok
  replace hok : (obj.stream.localClosed || l.returned o) = true := hok
  rw [queueAfter_grown (e := .close o) (by simp) rfl]
  refine grown_ok h (perform_writeQueue _ o _) fun loan hloan o' handler _ hh hf => ?_
  by_cases hclosed : obj.stream.localClosed = true
  · have hnothing : obj.stream.close = (obj.stream, []) := by
      rw [MuxStream.close, if_pos hclosed]
    rw [hnothing]
    exact (quiet_perform (r := (obj.stream, [])) ho rfl rfl).front hf
  · -- the frames of the stream have been written, so the loans of the queue are of others
    rw [Bool.eq_false_iff.mpr hclosed, Bool.false_or] at hok
    rw [Pair.perform_objs]
    refine front_of_ne (fun heq => ?_) hf
    exact not_front_of_returned hok hloan hh (heq ▸ hf)

theorem frames_destroy (h : Inv l) (ho : l.session.objs[o]? = some obj)
    (hunowned : l.session.unowned o obj = true) {s' : Session}
    (hs' : s' = (l.session.perform o obj.stream.destroy).modifyObj o fun obj =>
      { obj with destroyed := true }) : Framed (l.queueAfter (.destroy o) s') s' := by
  subst hs'
  rw [queueAfter_grown (e := .destroy o) (by simp) rfl]
  refine grown_ok h (perform_writeQueue l.session o obj.stream.destroy)
    fun loan hloan o' handler hfail _ hf => ?_
  -- a frame of the queue whose handler names the object would own it
  have hne : o' ≠ o := by
    rintro rfl
    have hmem : loan.1 ∈ l.session.writeQueue := by
      rw [← h.queue]
      exact List.mem_map_of_mem hloan
    rw [unowned, Bool.and_eq_true] at hunowned
    have hall := List.all_eq_true.mp hunowned.2 loan.1 hmem
    rw [hfail] at hall
    simp at hall
  show Front ((l.session.perform o obj.stream.destroy).objs.modify o _) o' handler
  rw [Pair.perform_objs]
  exact front_of_ne hne (front_of_ne hne hf)

theorem frames_writeDone (h : Inv l) {ec : ErrorCode} {s' : Session}
    (hdone : l.session.writeDone ec = some s') : Framed l.loans.tail s' := by
  obtain ⟨hqueue, hquiet⟩ := writeDone_tail hdone
  refine ⟨?_, owned_mono (owned_tail h.owned) fun o handler hf => hquiet.front hf⟩
  rw [hqueue, ← h.queue]
  exact List.map_tail

/-- **The write queue after a step**: every frame is there, and owned. -/
theorem frames_step (h : Inv l) {e : Session.Event} (hok : l.endsReturned e = true)
    (hstep : l.session.step e = some s') :
    Framed (l.queueAfter e s') s' := by
  by_cases he : quietEvent l.session e = true
  · have hquiet := quiet_step he hstep
    obtain ⟨fs, hfs⟩ := hquiet.queue
    rw [queueAfter_grown (ne_of_quiet he) (slices_quiet he)]
    exact grown_ok h hfs fun _ _ _ _ _ _ hf => hquiet.front hf
  cases stepped_of_step hstep with
  | asyncWrite buffers handler hcallee =>
      exact frames_asyncWrite h (callee_eq hcallee).1 buffers handler rfl
  | close hcallee => exact frames_close h hok (callee_eq hcallee).1
  | destroy ho hunowned => exact frames_destroy h ho hunowned rfl
  | runStream ho htasks => exact frames_runTask h ho htasks he hok rfl
  | writeOk _ _ hdone => exact frames_writeDone h hdone
  | writeError _ hdone => exact frames_writeDone h hdone
  | expire _ _ _ _ => exact ⟨rfl, trivial⟩
  | @late e hread _ _ =>
      cases e with
      | recvHeader buf => exact absurd rfl he
      | recvBody body => exact absurd rfl he
      | readError => exact absurd rfl he
      | _ => cases hread
  | _ => exact absurd rfl he

/-! ## Every run -/

theorem inv_init (isServer : Bool) : Inv { session := { isServer } } where
  queue := rfl
  owned := trivial
  named := List.nodup_nil
  placed := placed_init isServer

theorem inv_step (h : Inv l) {e : Session.Event} (hok : l.endsReturned e = true)
    (hstep : l.step e = some l') : Inv l' := by
  rw [step, Option.ite_none_right_eq_some] at hstep
  obtain ⟨hfresh, hstep⟩ := hstep
  obtain ⟨s', hs', rfl⟩ := Option.map_eq_some_iff.mp hstep
  obtain ⟨hqueue, howned⟩ := frames_step h hok hs'
  refine ⟨hqueue, howned, ?_, placed_step h.placed hs'⟩
  show s'.submitted.Nodup
  rw [step_submitted hs', List.nodup_append]
  refine ⟨h.named, ?_, fun handler hold handler' hnew heq => ?_⟩
  · -- an event brings at most one handler
    cases e with
    | sendFrame onStrand f handler => cases handler <;> simp [given]
    | _ => simp [given]
  · have hnot := List.all_eq_true.mp hfresh handler' hnew
    rw [← heq] at hnot
    simp [hold] at hnot

/-- **The handler of a write frees its buffers**, in every run in which no stream is closed,
and none is told of a failed partial send, while a frame of the write queue refers to one
of its pending writes. -/
theorem handler_frees {isServer : Bool} {l : Lending}
    (h : Reach Lending.step (fun l e => l.endsReturned e = true) { session := { isServer } } l) :
    l.loans.map Prod.fst = l.session.writeQueue ∧ Safe l := by
  have hinv : Inv l := h.invariant (P := Inv) (inv_init isServer)
    fun s e s' hs hok hstep => inv_step hs hok hstep
  exact ⟨hinv.queue, hinv.safe⟩

/-- A write of three bytes, and a close after its handler. -/
theorem handler_frees_written : ∃ l : Lending,
    l.session.invoked.map Completion.handler = [7] ∧ l.loans.length = 1 ∧ Safe l := by
  obtain ⟨l, hreach, hobs⟩ := exists_of_runGuarded Lending.step endsReturned
    [.openStream true, .writeOk, .asyncWrite 0 [[1], [2, 3]] 7, .writeOk, .close 0]
    (fun l => (l.session.invoked.map Completion.handler, l.loans.length))
    (s := { session := { isServer := false } }) (a := ([7], 1)) (by decide)
  obtain ⟨hinvoked, hlength⟩ := Prod.mk.inj hobs
  exact ⟨l, hinvoked, hlength, (handler_frees hreach).2⟩

/-- The first frame of a write that is longer than the window of a new stream. -/
theorem doWriteOf_first {id : UInt32} {body rest : List Byte} {handler : Handler}
    (hbody : body.length = initialWindowSize) (hrest : 0 < rest.length) :
    MuxStream.doWriteOf { id := id, pendingWrites := [⟨[body, rest], handler⟩] } =
      ({ id := id, remoteWindowSize := 0, pendingWrites := [⟨[rest], handler⟩] },
        [(.send ⟨MuxStream.dataHeader { id := id } 0 initialWindowSize, [body]⟩ .failPending,
          some handler)]) := by
  refine loop_once (Nat.zero_lt_succ _) ?_ rfl
  rw [MuxStream.writeTurnOf, MuxStream.writeTurn_first hbody hrest]
  rfl

theorem step_of {e : Session.Event}
    (hfresh : ((given e).all fun handler => !l.session.submitted.contains handler) = true)
    (h : l.session.step e = some s') :
    l.step e = some { session := s', loans := l.queueAfter e s' } := by
  rw [step, if_pos hfresh, h, Option.map_some]

/-- The frame that uses up the window of a new stream. -/
def firstFrame (body : List Byte) : Frame :=
  ⟨MuxStream.dataHeader { id := 1 } 0 initialWindowSize, [body]⟩

/-- The first stream of a session has been opened. -/
def opened : Session where
  isServer := false
  nextStreamId := 3
  streams := AList.insert 1 0 ∅
  objs := [StreamObj.new 1]
  wire := (synFrame 1).writeBuffers.flatten

/-- Its first write is longer than the window, and the first frame is being written. -/
def halfWritten (body rest : List Byte) : Session :=
  { opened with
    objs := [{
      stream := { id := 1, remoteWindowSize := 0, pendingWrites := [⟨[rest], 7⟩] }
      accepted := [body, rest].flatten
      sent := dataOf (told [.send (firstFrame body) .failPending]) }]
    writeQueue := [⟨firstFrame body, .failPending 0⟩]
    isWriting := true
    writing := true
    wire := opened.wire ++ (firstFrame body).writeBuffers.flatten
    submitted := [7] }

/-- The stream is closed while the first frame of its write is being written: the handler is
called, and the frame still refers to the buffers. -/
theorem handler_not_frees : ¬ ∀ l : Lending,
    Reach Lending.step anyStep { session := { isServer := false } } l → Safe l := by
  intro hall
  obtain ⟨body, hbody⟩ : ∃ body : List Byte, body.length = initialWindowSize :=
    ⟨List.replicate initialWindowSize 0, List.length_replicate⟩
  have hrest : 0 < ([0] : List Byte).length := Nat.zero_lt_one
  have hopened : Reach Lending.step anyStep { session := { isServer := false } }
      { session := opened } :=
    reach_of_runAll (show runAll Lending.step { session := { isServer := false } }
      [.openStream true, .writeOk] = _ from rfl)
  have hwritten := hopened.next (.asyncWrite 0 [body, [0]] 7) trivial (step_of rfl (by
    show some (perform _ 0 (MuxStream.asyncWrite { id := 1 } [body, [0]] 7)) =
      some (halfWritten body [0])
    rw [MuxStream.asyncWrite_first hbody hrest]
    rfl))
  have hloans : queueAfter { session := opened } (.asyncWrite 0 [body, [0]] 7)
        (halfWritten body [0]) =
      [(⟨firstFrame body, .failPending 0⟩, some 7)] := by
    have hslices : slices opened (.asyncWrite 0 [body, [0]] 7) =
        loansOf 0 (MuxStream.doWriteOf { id := 1, pendingWrites := [⟨[body, [0]], 7⟩] }).2 := rfl
    rw [queueAfter_eq (by simp), hslices, doWriteOf_first hbody hrest]
    rfl
  rw [hloans] at hwritten
  have hclosed := hwritten.next (.close 0) trivial (step_of rfl rfl)
  have hcalled := hclosed.next (.runStream 0) trivial (step_of rfl rfl)
  refine hall _ hcalled (⟨firstFrame body, .failPending 0⟩, some 7) List.mem_cons_self 7 rfl ?_
  exact List.mem_cons_self

end Lending

end Cfrp.Mux

import Cfrp.Mux.Refine

/-!
# Where a handler is

A handler given to a session or one of its streams waits in one of four places: in the
queues of its stream, as a completion on the stream's strand, with a frame of the write
queue, or with a frame that is still posted. Until it has been called it is in exactly one of
them: every step takes it from one place to the next, and only a session that expires drops
what is left in its write queue.
-/

namespace Cfrp.Mux

open Lib

/-- The handlers that go with the frames of full sends. -/
def invokes (es : List Effect) : List Handler :=
  es.filterMap fun | .send _ (.invoke handler _) => some handler | _ => none

theorem invokes_append (l l' : List Effect) : invokes (l ++ l') = invokes l ++ invokes l' :=
  List.filterMap_append

/-- How often an operation passes a handler on. -/
def passed (es : List Effect) (x : Handler) : Nat :=
  ((posts es).map Completion.handler).count x + (invokes es).count x

theorem passed_append (l l' : List Effect) (x : Handler) :
    passed (l ++ l') x = passed l x + passed l' x := by
  rw [passed, passed, passed, posts_append, invokes_append, List.map_append, List.count_append,
    List.count_append]
  omega

namespace MuxStream

/-- The handlers in the queues of a stream. -/
def waiting (s : MuxStream) : List Handler :=
  s.pendingReads.map PendingRead.handler ++ s.pendingWrites.map PendingWrite.handler

/-- An operation that is given the handlers `new` loses none and has none twice. -/
def Conserves (s : MuxStream) (new : List Handler) (r : MuxStream × List Effect) : Prop :=
  ∀ x, r.1.waiting.count x + passed r.2 x = s.waiting.count x + new.count x

variable {s : MuxStream}

theorem count_waiting (s : MuxStream) (x : Handler) : s.waiting.count x =
    (s.pendingReads.map PendingRead.handler).count x +
      (s.pendingWrites.map PendingWrite.handler).count x := List.count_append

theorem conserves_nothing (s : MuxStream) : Conserves s [] (s, []) := fun _ => rfl

/-- A turn of a loop, and then the rest of it. -/
theorem conserves_turn {s' s'' : MuxStream} {es es' : List Effect} (h : Conserves s [] (s', es))
    (h' : Conserves s' [] (s'', es')) : Conserves s [] (s'', es ++ es') := by
  intro x
  have hturn := h x
  have hrest := h' x
  simp only [List.count_nil, Nat.add_zero] at hturn hrest ⊢
  rw [passed_append]
  omega

theorem count_front (handler : Handler) (l : List Handler) (x : Handler) :
    (handler :: l).count x = [handler].count x + l.count x := by
  rw [← List.singleton_append, List.count_append]

theorem writeTurn_conserves {s' : MuxStream} {es : List Effect} (h : s.writeTurn = some (s', es)) :
    Conserves s [] (s', es) := by
  obtain ⟨pw, rest, hpw, -, hcase⟩ := writeTurn_cases h
  -- the write at the front is completed, or goes with its last frame
  have hpassed : ∀ s' es, s'.pendingReads = s.pendingReads → s'.pendingWrites = rest →
      (∀ x, passed es x = [pw.handler].count x) → Conserves s [] (s', es) := by
    intro s' es hreads hwrites hes x
    show s'.waiting.count x + passed es x = _
    have hfront := count_front pw.handler (rest.map PendingWrite.handler) x
    rw [count_waiting, count_waiting, hes, hreads, hwrites, hpw, List.map_cons, List.count_nil]
    omega
  obtain ⟨ec, -, -, rfl, rfl⟩ | ⟨n, -, -, -, ⟨-, rfl, rfl⟩ | ⟨-, rfl, rfl⟩⟩ := hcase
  · exact hpassed _ _ rfl rfl fun _ => rfl
  · intro x
    rw [count_waiting, count_waiting, hpw]
    rfl
  · exact hpassed _ _ rfl rfl fun x => Nat.zero_add _

theorem doWrite_conserves (s : MuxStream) : Conserves s [] s.doWrite :=
  loop_induct (R := fun s es s' => Conserves s [] (s', es)) conserves_nothing
    (fun _ _ _ _ _ h h' => conserves_turn (writeTurn_conserves h) h') _ s

theorem readTurn_conserves {s' : MuxStream} {es : List Effect} (h : s.readTurn = some (s', es)) :
    Conserves s [] (s', es) := by
  obtain ⟨pr, rest, hpr, hcase⟩ := readTurn_cases h
  have hpassed : ∀ s' es, s'.pendingReads = rest → s'.pendingWrites = s.pendingWrites →
      (∀ x, passed es x = [pr.handler].count x) → Conserves s [] (s', es) := by
    intro s' es hreads hwrites hes x
    show s'.waiting.count x + passed es x = _
    have hfront := count_front pr.handler (rest.map PendingRead.handler) x
    rw [count_waiting, count_waiting, hes, hreads, hwrites, hpr, List.map_cons, List.count_nil]
    omega
  obtain ⟨-, -, rfl, rfl⟩ | ⟨r, consumed, done, -, -, rfl, ⟨-, rfl, rfl⟩ | ⟨-, rfl, rfl⟩⟩ := hcase
  · exact hpassed _ _ rfl rfl fun _ => rfl
  · exact hpassed _ _ rfl rfl fun _ => rfl
  · exact hpassed _ _ rfl rfl fun _ => rfl

theorem invokes_checkCleanup (s : MuxStream) : invokes s.checkCleanup = [] := by
  rcases s.checkCleanup_eq with hnil | ⟨hone, -⟩
  · rw [hnil]
    rfl
  · rw [hone]
    rfl

theorem passed_checkCleanup (s : MuxStream) (x : Handler) : passed s.checkCleanup x = 0 := by
  rw [passed, posts_checkCleanup, invokes_checkCleanup]
  rfl

theorem conserves_checkCleanup {r : MuxStream × List Effect} {new : List Handler}
    (h : Conserves s new r) (t : MuxStream) : Conserves s new (r.1, r.2 ++ t.checkCleanup) := by
  intro x
  have hx := h x
  rw [passed_append, passed_checkCleanup]
  omega

theorem doRead_conserves (s : MuxStream) : Conserves s [] s.doRead :=
  conserves_checkCleanup
    (loop_induct (R := fun s es s' => Conserves s [] (s', es)) conserves_nothing
      (fun _ _ _ _ _ h h' => conserves_turn (readTurn_conserves h) h') _ s) _

/-- One more handler in a queue, and then an operation that is given none. -/
theorem conserves_new {t : MuxStream} {r : MuxStream × List Effect} {handler : Handler}
    (h : Conserves t [] r) (ht : ∀ x, t.waiting.count x = s.waiting.count x + [handler].count x) :
    Conserves s [handler] r := by
  intro x
  rw [h x, ht x]
  rfl

theorem asyncRead_conserves (s : MuxStream) (size : Nat) (handler : Handler) (readAll : Bool) :
    Conserves s [handler] (s.asyncRead size handler readAll) := by
  rw [asyncRead]
  split
  · exact fun _ => rfl
  · refine conserves_new (doRead_conserves _) fun x => ?_
    rw [count_waiting, count_waiting]
    show ((s.pendingReads ++ _).map PendingRead.handler).count x + _ = _
    rw [List.map_append, List.count_append]
    exact Nat.add_right_comm _ _ _

theorem asyncWrite_conserves (s : MuxStream) (buffers : List (List Byte)) (handler : Handler) :
    Conserves s [handler] (s.asyncWrite buffers handler) := by
  rw [asyncWrite]
  split
  · exact fun _ => rfl
  · refine conserves_new (doWrite_conserves _) fun x => ?_
    rw [count_waiting, count_waiting]
    show _ + ((s.pendingWrites ++ _).map PendingWrite.handler).count x = _
    rw [List.map_append, List.count_append]
    exact (Nat.add_assoc _ _ _).symm

theorem invokes_map_post {α : Type} (l : List α) (f : α → Completion) :
    invokes (l.map fun a => Effect.post (f a)) = [] := by
  induction l with
  | nil => rfl
  | cons a l ih => exact ih

theorem passed_abortEffects (s : MuxStream) (x : Handler) :
    passed s.abortEffects x = s.waiting.count x := by
  rw [abortEffects, passed_append, passed, passed, posts_map_post, posts_map_post,
    invokes_map_post, invokes_map_post, List.map_map, List.map_map, count_waiting]
  rfl

theorem destroy_conserves (s : MuxStream) : Conserves s [] s.destroy := by
  intro x
  show 0 + passed s.abortEffects x = _
  rw [passed_abortEffects]
  exact Nat.zero_add _

theorem close_conserves (s : MuxStream) : Conserves s [] s.close := by
  rw [close]
  split
  · exact conserves_nothing s
  · refine conserves_checkCleanup (r := (_, _)) (fun x => ?_) _
    have hfin : passed (if s.session then [.send ⟨s.dataHeader Flags.fin 0, []⟩ .none]
        else []) x = 0 := by
      split <;> rfl
    show 0 + passed (_ ++ s.abortEffects) x = _
    rw [passed_append, hfin, passed_abortEffects]
    show 0 + (0 + _) = _ + 0
    omega

theorem failWrites_conserves (s : MuxStream) (ec : ErrorCode) :
    Conserves s [] (s.failWrites ec) := by
  intro x
  rw [failWrites, passed, posts_map_post, invokes_map_post, List.map_map, count_waiting,
    count_waiting]
  show _ + 0 + (_ + 0) = _ + _ + 0
  exact rfl

theorem handle_conserves (s : MuxStream) (a : Arrival) : Conserves s [] (s.handle a) := by
  cases a with
  | data bytes => exact doRead_conserves { s with readQueue := s.readQueue ++ [bytes] }
  | windowUpdate delta =>
      exact doWrite_conserves
        { s with remoteWindowSize := min (s.remoteWindowSize + delta.toNat) maxMessageSize }
  | close => exact conserves_checkCleanup (doRead_conserves { s with remoteClosed := true }) _

end MuxStream

namespace Session

open Pair MuxStream

/-- The handlers a stream object has: in the queues, and about to be called. -/
def handlersOf (obj : StreamObj) : List Handler :=
  obj.stream.waiting ++ (completions obj.tasks).map Completion.handler

/-- The handlers that go with frames. -/
def frameHandlers (fs : List PendingFrame) : List Handler :=
  fs.filterMap fun pw =>
    match pw.handler with
    | .invoke handler _ => some handler
    | .user handler => some handler
    | _ => none

/-- The frames the session's strand still has to queue. -/
def postedSends (tasks : List SessionTask) : List PendingFrame :=
  tasks.filterMap fun | .sendFrame pw => some pw | .stop => none

/-- In how many places a handler is, counting its calls. -/
def accounted (s : Session) (x : Handler) : Nat :=
  (s.objs.flatMap handlersOf).count x + (frameHandlers s.writeQueue).count x +
    (frameHandlers (postedSends s.posted)).count x + (s.invoked.map Completion.handler).count x

variable {s s' : Session} {o : Nat} {obj : StreamObj}

/-! ## Frames -/

theorem frameHandlers_append (l l' : List PendingFrame) :
    frameHandlers (l ++ l') = frameHandlers l ++ frameHandlers l' := List.filterMap_append

theorem postedSends_append (l l' : List SessionTask) :
    postedSends (l ++ l') = postedSends l ++ postedSends l' := List.filterMap_append

theorem doWrite_writeQueue (s : Session) : s.doWrite.writeQueue = s.writeQueue := by
  rw [Session.doWrite]
  split <;> rfl

theorem asyncSendFrame_writeQueue (s : Session) (pw : PendingFrame) :
    (s.asyncSendFrame pw).writeQueue = s.writeQueue ++ [pw] := by
  rw [asyncSendFrame]
  simp only
  split
  · rfl
  · rw [doWrite_writeQueue]

theorem sendAll_writeQueue (fs : List PendingFrame) (s : Session) :
    (fs.foldl asyncSendFrame s).writeQueue = s.writeQueue ++ fs := by
  induction fs generalizing s with
  | nil => exact (List.append_nil _).symm
  | cons pw fs ih =>
      rw [List.foldl_cons, ih, asyncSendFrame_writeQueue, List.append_assoc]
      rfl

theorem perform_writeQueue (s : Session) (o : Nat) (r : MuxStream × List Effect) :
    (s.perform o r).writeQueue = s.writeQueue ++ pendingFrames o r.2 :=
  sendAll_writeQueue _ _

/-- Only the handlers of queued and posted frames change. -/
theorem accounted_queues (s s' : Session)
    (hobjs : s'.objs.flatMap handlersOf = s.objs.flatMap handlersOf)
    (hinvoked : s'.invoked = s.invoked) (queue : List PendingFrame) (posted : List SessionTask)
    (hqueue : s'.writeQueue = queue) (hposted : s'.posted = posted) (x : Handler) :
    s'.accounted x + (frameHandlers s.writeQueue).count x +
        (frameHandlers (postedSends s.posted)).count x =
      s.accounted x + (frameHandlers queue).count x +
        (frameHandlers (postedSends posted)).count x := by
  rw [accounted, accounted, hobjs, hinvoked, hqueue, hposted]
  omega

/-- Frames are queued, and nothing else changes. -/
theorem accounted_queued (hsame : SameButOutput s s') (fs : List PendingFrame)
    (hqueue : s'.writeQueue = s.writeQueue ++ fs) (x : Handler) :
    s'.accounted x = s.accounted x + (frameHandlers fs).count x := by
  rw [accounted, accounted, hqueue, hsame.objs, hsame.posted, hsame.invoked, frameHandlers_append,
    List.count_append]
  omega

theorem accounted_asyncSendFrame (s : Session) (pw : PendingFrame) (x : Handler) :
    (s.asyncSendFrame pw).accounted x = s.accounted x + (frameHandlers [pw]).count x :=
  accounted_queued (asyncSendFrame_same s pw) [pw] (asyncSendFrame_writeQueue s pw) x

theorem accounted_postFrame (s : Session) (pw : PendingFrame) (x : Handler) :
    (s.postFrame pw).accounted x = s.accounted x + (frameHandlers [pw]).count x := by
  have hqueues := accounted_queues s (s.postFrame pw) rfl rfl s.writeQueue
    (s.posted ++ [.sendFrame pw]) rfl rfl x
  have hposted : postedSends (s.posted ++ [.sendFrame pw]) = postedSends s.posted ++ [pw] :=
    postedSends_append _ _
  rw [hposted, frameHandlers_append, List.count_append] at hqueues
  omega

theorem accounted_postStop (s : Session) (x : Handler) :
    s.postStop.accounted x = s.accounted x := by
  have hqueues := accounted_queues s (s.postStop) rfl rfl s.writeQueue (s.posted ++ [.stop]) rfl
    rfl x
  have hposted : postedSends (s.posted ++ [.stop]) = postedSends s.posted :=
    (postedSends_append _ _).trans (List.append_nil _)
  rw [hposted] at hqueues
  omega

theorem frameHandlers_pendingFrames (o : Nat) (es : List Effect) :
    frameHandlers (pendingFrames o es) = invokes es := by
  induction es with
  | nil => rfl
  | cons e es ih =>
      cases e with
      | post c => exact ih
      | removeStream => exact ih
      | send f cb =>
          cases cb with
          | none => exact ih
          | failPending => exact ih
          | invoke handler n => exact congrArg (List.cons handler) ih

/-! ## Objects -/

theorem accounted_modifyObj (ho : s.objs[o]? = some obj) (f : StreamObj → StreamObj) (x : Handler) :
    (s.modifyObj o f).accounted x + (handlersOf obj).count x =
      s.accounted x + (handlersOf (f obj)).count x := by
  have hcount := count_flatMap_modify (f := f) ho handlersOf x
  rw [accounted, accounted]
  show ((s.objs.modify o f).flatMap handlersOf).count x + _ + _ + _ + _ = _
  have hposted : (s.modifyObj o f).posted = s.posted := rfl
  have hqueue : (s.modifyObj o f).writeQueue = s.writeQueue := rfl
  have hinvoked : (s.modifyObj o f).invoked = s.invoked := rfl
  rw [hposted, hqueue, hinvoked]
  omega

/-- Something else about an object changes. -/
theorem accounted_retouch (f : StreamObj → StreamObj)
    (hf : ∀ obj, handlersOf (f obj) = handlersOf obj)
    (x : Handler) : (s.modifyObj o f).accounted x = s.accounted x := by
  cases ho : s.objs[o]? with
  | none =>
      have hsame : s.objs.modify o f = s.objs := by
        rw [List.modify_eq_set_getElem?, ho]
        rfl
      show ((s.objs.modify o f).flatMap handlersOf).count x + _ + _ + _ = _
      rw [hsame]
      rfl
  | some obj =>
      have hcount := accounted_modifyObj ho f x
      rw [hf] at hcount
      omega

theorem handlersOf_pushTasks (obj : StreamObj) (tasks : List Task) :
    handlersOf { obj with tasks := obj.tasks ++ tasks } =
      handlersOf obj ++ (completions tasks).map Completion.handler := by
  show obj.stream.waiting ++ (completions (obj.tasks ++ tasks)).map _ = _
  rw [completions_append, List.map_append, ← List.append_assoc]
  rfl

theorem accounted_pushTasks {tasks : List Task} (h : completions tasks = []) (x : Handler) :
    (s.pushTasks o tasks).accounted x = s.accounted x := by
  refine accounted_retouch _ (fun obj => ?_) x
  rw [handlersOf_pushTasks, h, List.map_nil, List.append_nil]

theorem count_afterOp (r : MuxStream × List Effect) (obj : StreamObj) (x : Handler) :
    (handlersOf (afterOp r obj)).count x + obj.stream.waiting.count x =
      (handlersOf obj).count x + r.1.waiting.count x +
        ((posts r.2).map Completion.handler).count x := by
  have hafter : handlersOf (afterOp r obj) = r.1.waiting ++
      ((completions obj.tasks).map Completion.handler ++ (posts r.2).map Completion.handler) := by
    show r.1.waiting ++ (completions (obj.tasks ++ _)).map _ = _
    rw [completions_append, completions_map_complete, List.map_append]
  rw [hafter, handlersOf]
  simp only [List.count_append]
  omega

/-- **An operation of a stream** moves handlers and loses none. -/
theorem accounted_perform (ho : s.objs[o]? = some obj) {new : List Handler}
    {r : MuxStream × List Effect} (hop : Conserves obj.stream new r) (x : Handler) :
    (s.perform o r).accounted x = s.accounted x + new.count x := by
  have hqueued := accounted_queued (perform_same s o r) (pendingFrames o r.2)
    (perform_writeQueue s o r) x
  have hobj := accounted_modifyObj ho (afterOp r) x
  have hafter := count_afterOp r obj x
  have hcons := hop x
  rw [passed] at hcons
  rw [hqueued, frameHandlers_pendingFrames]
  show (s.modifyObj o (afterOp r)).accounted x + _ = _
  omega

theorem accounted_closeObj (running : Option Nat) (s : Session) (o : Nat) (x : Handler) :
    (closeObj running s o).accounted x = s.accounted x := by
  rw [closeObj]
  split
  · rfl
  · rename_i obj ho
    split
    · exact accounted_perform ho (handle_conserves obj.stream .close) x
    · exact accounted_pushTasks rfl x

theorem accounted_stop (s : Session) (running : Option Nat) (x : Handler) :
    (s.stop running).accounted x = s.accounted x := by
  have hall : ∀ (os : List Nat) (s : Session),
      (os.foldl (closeObj running) s).accounted x = s.accounted x := by
    intro os
    induction os with
    | nil => exact fun _ => rfl
    | cons o os ih =>
        intro s
        rw [List.foldl_cons, ih, accounted_closeObj]
  rw [stop]
  split
  · rfl
  · exact hall _ _

theorem accounted_addObj (s : Session) (next id : UInt32) (x : Handler) :
    (addObj s next id).accounted x = s.accounted x := by
  have hnew : (s.objs ++ [StreamObj.new id]).flatMap handlersOf = s.objs.flatMap handlersOf := by
    rw [List.flatMap_append]
    exact List.append_nil _
  show ((s.objs ++ [StreamObj.new id]).flatMap handlersOf).count x + _ + _ + _ = _
  rw [hnew]
  rfl

/-! ## Steps -/

theorem accounted_call (s : Session) (c : Completion) (x : Handler) :
    ({ s with invoked := s.invoked ++ [c] } : Session).accounted x =
      s.accounted x + [c.handler].count x := by
  show _ + _ + _ + ((s.invoked ++ [c]).map Completion.handler).count x = _
  rw [List.map_append, List.count_append, ← Nat.add_assoc]
  rfl

theorem accounted_callHandler (ec : ErrorCode) (handler : FrameHandler) (f : Frame) (x : Handler) :
    (s.callHandler ec handler).accounted x = s.accounted x +
    (frameHandlers [⟨f, handler⟩]).count x := by
  cases handler with
  | none => rfl
  | failPending o =>
      rw [callHandler]
      split
      · rfl
      · exact accounted_pushTasks rfl x
  | invoke handler n => exact accounted_call s _ x
  | user handler => exact accounted_call s _ x

theorem accounted_doWrite (s : Session) (x : Handler) : s.doWrite.accounted x = s.accounted x :=
  accounted_queued (doWrite_same s) [] (by rw [doWrite_writeQueue, List.append_nil]) x

theorem accounted_writeDone {ec : ErrorCode} (h : s.writeDone ec = some s') (x : Handler) :
    s'.accounted x = s.accounted x := by
  rw [Session.writeDone] at h
  split at h
  · cases h
  · rename_i pw rest hq
    have hcalled := accounted_callHandler (s := { s with writeQueue := rest, writing := false }) ec
      pw.handler pw.frame x
    have hpopped : s.accounted x =
      ({ s with writeQueue := rest, writing := false } : Session).accounted x +
        (frameHandlers [pw]).count x := by
      have hqueues := accounted_queues s { s with writeQueue := rest, writing := false } rfl
        rfl rest s.posted rfl rfl x
      have hfront : frameHandlers s.writeQueue = frameHandlers [pw] ++ frameHandlers rest := by
        rw [hq]
        exact frameHandlers_append [pw] rest
      rw [hfront, List.count_append] at hqueues
      omega
    rw [← Option.some.inj h]
    split
    · rw [accounted_doWrite, hcalled, hpopped]
    · rw [accounted_postStop, hcalled, hpopped]

theorem accounted_handleFrame (s : Session) (hd : Header) (body : List Byte) (x : Handler) :
    (s.handleFrame hd body).accounted x = s.accounted x := by
  have hfor : (s.streamFor hd).1.accounted x = s.accounted x := by
    rw [streamFor]
    split
    · rfl
    · split
      · rw [accounted_postFrame]
        exact accounted_addObj s s.nextStreamId hd.streamId x
      · rfl
  rw [handleFrame]
  split
  · split
    · rename_i s₁ o heq
      rw [heq] at hfor
      rw [accounted_pushTasks (completions_map_arrival _)]
      exact hfor
    · rename_i s₁ heq
      rw [heq] at hfor
      exact hfor
  · split
    · split
      · exact accounted_postFrame s _ x
      · rfl
    · exact accounted_postStop s x

theorem accounted_runTask {t : Task} {tasks : List Task} (ho : s.objs[o]? = some obj)
    (htasks : obj.tasks = t :: tasks) (x : Handler) :
    ((s.modifyObj o fun obj => { obj with tasks }).runTask o obj t).accounted x =
      s.accounted x := by
  have hpopped := accounted_modifyObj ho (fun obj => { obj with tasks }) x
  have ho' := getElem?_modifyObj ho fun obj => { obj with tasks }
  have hfront : ∀ c, t = .complete c → (handlersOf obj).count x =
      (handlersOf { obj with tasks }).count x + [c.handler].count x := by
    intro c hc
    have hcount := MuxStream.count_front c.handler ((completions tasks).map Completion.handler) x
    rw [handlersOf, handlersOf, List.count_append, List.count_append, htasks, hc]
    show _ + (c.handler :: (completions tasks).map _).count x =
      obj.stream.waiting.count x + ((completions tasks).map _).count x + _
    omega
  have hother : completions [t] = [] → handlersOf { obj with tasks } = handlersOf obj := by
    intro ht
    rw [handlersOf, handlersOf, htasks]
    show _ = obj.stream.waiting ++ (completions ([t] ++ tasks)).map _
    rw [completions_append, ht]
    rfl
  cases t with
  | arrival a =>
      have hop := accounted_perform ho' (handle_conserves obj.stream a) x
      rw [hother rfl] at hpopped
      rw [runTask, hop, List.count_nil]
      omega
  | failWrites ec =>
      have hop := accounted_perform ho' (failWrites_conserves obj.stream ec) x
      rw [hother rfl] at hpopped
      rw [runTask, hop, List.count_nil]
      omega
  | complete c =>
      have hreported := accounted_retouch
        (s := s.modifyObj o fun obj => { obj with tasks }) (o := o)
        (fun obj => { obj with reported := obj.reported ++ [c] }) (fun _ => rfl) x
      have hc := hfront c rfl
      refine (accounted_call ((s.modifyObj o fun obj => { obj with tasks }).modifyObj o
        fun obj => { obj with reported := obj.reported ++ [c] }) c x).trans ?_
      omega

/-- The handlers an event brings. -/
def given : Event → List Handler
  | .asyncRead _ _ handler _ => [handler]
  | .asyncWrite _ _ handler => [handler]
  | .sendFrame _ _ handler => handler.toList
  | _ => []

/-- The handlers of a step are recorded, and each is in one place. -/
structure Balanced (s s' : Session) (new : List Handler) (x : Handler) : Prop where
  submitted : s'.submitted = s.submitted ++ new
  accounted : s'.accounted x = s.accounted x + new.count x

theorem balanced_same {x : Handler} (hacc : s'.accounted x = s.accounted x)
    (hsubmitted : s'.submitted = s.submitted) : Balanced s s' [] x :=
  ⟨by rw [hsubmitted, List.append_nil], hacc⟩

theorem balanced_perform {x : Handler} {r : MuxStream × List Effect} (ho : s.objs[o]? = some obj)
    (hop : Conserves obj.stream [] r) : Balanced s (s.perform o r) [] x :=
  balanced_same (accounted_perform ho hop x) (perform_same s o r).submitted

theorem stop_submitted (s : Session) (running : Option Nat) :
    (s.stop running).submitted = s.submitted := by
  have hall : ∀ (os : List Nat) (s : Session),
      (os.foldl (closeObj running) s).submitted = s.submitted := by
    intro os
    induction os with
    | nil => exact fun _ => rfl
    | cons o os ih =>
        intro s
        rw [List.foldl_cons, ih, closeObj]
        split
        · rfl
        · split
          · exact (perform_same s o _).submitted
          · rfl
  rw [stop]
  split
  · rfl
  · exact hall _ _

theorem balanced_stop (running : Option Nat) (x : Handler) : Balanced s (s.stop running) [] x :=
  balanced_same (accounted_stop s running x) (stop_submitted s running)

theorem writeDone_submitted {ec : ErrorCode} (h : s.writeDone ec = some s') :
    s'.submitted = s.submitted := by
  have hcall : ∀ (s : Session) (handler : FrameHandler),
      (s.callHandler ec handler).submitted = s.submitted := by
    intro s handler
    cases handler with
    | failPending o =>
        rw [callHandler]
        split <;> rfl
    | none => rfl
    | invoke handler n => rfl
    | user handler => rfl
  rw [Session.writeDone] at h
  split at h
  · cases h
  · rename_i pw rest _
    rw [← Option.some.inj h]
    have hcalled := hcall { s with writeQueue := rest, writing := false } pw.handler
    split
    · exact (doWrite_same _).submitted.trans hcalled
    · exact hcalled

theorem handleFrame_submitted (s : Session) (hd : Header) (body : List Byte) :
    (s.handleFrame hd body).submitted = s.submitted := by
  have hfor : (s.streamFor hd).1.submitted = s.submitted := by
    rw [streamFor]
    split
    · rfl
    · split <;> rfl
  rw [handleFrame]
  split
  · split
    · rename_i s₁ o heq
      rw [heq] at hfor
      exact hfor
    · rename_i s₁ heq
      rw [heq] at hfor
      exact hfor
  · split
    · split <;> rfl
    · rfl

theorem balanced_read {x : Handler} {t : Session} (reading : Reading)
    (hacc : t.accounted x = s.accounted x) (hsubmitted : t.submitted = s.submitted) :
    Balanced s { t with reading } [] x :=
  balanced_same hacc hsubmitted

theorem balanced_asyncWrite (ho : s.objs[o]? = some obj) (buffers : List (List Byte))
    (handler x : Handler) :
    Balanced s (((s.submit handler).modifyObj o fun obj => acceptPayload obj buffers).perform o
      (obj.stream.asyncWrite buffers handler)) [handler] x := by
  have hhandlers : ∀ obj, handlersOf (acceptPayload obj buffers) = handlersOf obj := by
    intro obj
    rw [handlersOf, handlersOf, acceptPayload_stream, acceptPayload_tasks]
  have ho' := getElem?_modifyObj (s := s.submit handler) ho fun obj => acceptPayload obj buffers
  have hop := asyncWrite_conserves obj.stream buffers handler
  rw [← acceptPayload_stream obj buffers] at hop
  refine ⟨(perform_same _ o _).submitted, ?_⟩
  have hacc := accounted_perform ho' hop x
  rw [acceptPayload_stream] at hacc
  rw [hacc, accounted_retouch (s := s.submit handler) _ hhandlers x]
  rfl

/-- What was posted first is sent. -/
theorem accounted_sendPosted {pw : PendingFrame} {posted : List SessionTask}
    (hposted : s.posted = .sendFrame pw :: posted) (x : Handler) :
    ({ s with posted }.asyncSendFrame pw).accounted x = s.accounted x := by
  have hqueues := accounted_queues s { s with posted } rfl rfl s.writeQueue posted rfl rfl x
  have hfront : postedSends s.posted = [pw] ++ postedSends posted := by
    rw [hposted]
    rfl
  rw [hfront, frameHandlers_append, List.count_append] at hqueues
  rw [accounted_asyncSendFrame]
  omega

theorem accounted_stopPosted {posted : List SessionTask} (hposted : s.posted = .stop :: posted)
    (x : Handler) : ({ s with posted }.stop none).accounted x = s.accounted x := by
  have hqueues := accounted_queues s { s with posted } rfl rfl s.writeQueue posted rfl rfl x
  have hfront : postedSends s.posted = postedSends posted := by
    rw [hposted]
    rfl
  rw [hfront] at hqueues
  rw [accounted_stop]
  omega

/-- **A step** takes every handler from one place to the next. -/
theorem balanced_step {e : Event} (h : s.step e = some s') (he : e ≠ .expire) (x : Handler) :
    Balanced s s' (given e) x := by
  cases stepped_of_step h with
  | openStream onStrand _ =>
      have hadded := accounted_addObj s (s.nextStreamId + 2) s.nextStreamId x
      rw [openStream]
      split
      · exact balanced_same ((accounted_asyncSendFrame _ _ x).trans hadded)
          (asyncSendFrame_same _ _).submitted
      · exact balanced_same ((accounted_postFrame _ _ x).trans hadded) rfl
  | @asyncRead o obj size handler readAll hcallee =>
      have ho : (s.submit handler).objs[o]? = some obj := (callee_eq hcallee).1
      have hop := asyncRead_conserves obj.stream size handler readAll
      exact ⟨(perform_same _ o _).submitted, accounted_perform ho hop x⟩
  | asyncWrite buffers handler hcallee =>
      exact balanced_asyncWrite (callee_eq hcallee).1 buffers handler x
  | close hcallee => exact balanced_perform (callee_eq hcallee).1 (close_conserves _)
  | @destroy o obj ho _ =>
      have hperformed := balanced_perform (x := x) ho (destroy_conserves obj.stream)
      have hretouched := accounted_retouch (s := s.perform o obj.stream.destroy) (o := o)
        (fun obj => { obj with destroyed := true }) (fun _ => rfl) x
      exact ⟨hperformed.submitted, hretouched.trans hperformed.accounted⟩
  | sendFrame f handler _ =>
      cases handler with
      | none =>
          exact balanced_same (accounted_asyncSendFrame _ _ x) (asyncSendFrame_same _ _).submitted
      | some handler =>
          exact ⟨(asyncSendFrame_same _ _).submitted,
            accounted_asyncSendFrame (s.submit handler) ⟨f, .user handler⟩ x⟩
  | postFrame f handler _ =>
      cases handler with
      | none => exact balanced_same (accounted_postFrame _ _ x) rfl
      | some handler => exact ⟨rfl, accounted_postFrame (s.submit handler) ⟨f, .user handler⟩ x⟩
  | heartbeat _ =>
      exact balanced_same (accounted_asyncSendFrame _ _ x) (asyncSendFrame_same _ _).submitted
  | stop running _ => exact balanced_stop running x
  | postStop _ => exact balanced_same (accounted_postStop s x) rfl
  | @runStream o obj t tasks ho htasks =>
      refine balanced_same (accounted_runTask ho htasks x) ?_
      cases t with
      | arrival a => exact (perform_same _ o _).submitted
      | failWrites ec => exact (perform_same _ o _).submitted
      | complete c => rfl
  | sendPosted hposted =>
      exact balanced_same (accounted_sendPosted hposted x) (asyncSendFrame_same _ _).submitted
  | stopPosted hposted =>
      exact balanced_same (accounted_stopPosted hposted x) (stop_submitted _ none)
  | writeOk _ _ hdone =>
      exact balanced_same (accounted_writeDone hdone x) (writeDone_submitted hdone)
  | writeError _ hdone =>
      exact balanced_same (accounted_writeDone hdone x) (writeDone_submitted hdone)
  | @late e hread _ _ =>
      cases e with
      | recvHeader buf => exact balanced_same rfl rfl
      | recvBody body => exact balanced_same rfl rfl
      | readError => exact balanced_same rfl rfl
      | _ => cases hread
  | header _ _ _ _ _ => exact balanced_same rfl rfl
  | tooLong _ _ _ _ => exact balanced_read _ (accounted_postStop s x) rfl
  | headerFrame _ _ _ =>
      exact balanced_read _ (accounted_handleFrame s _ [] x) (handleFrame_submitted s _ [])
  | bodyFrame _ _ _ =>
      exact balanced_read _ (accounted_handleFrame s _ _ x) (handleFrame_submitted s _ _)
  | readError _ _ => exact balanced_read _ (accounted_postStop s x) rfl
  | expire _ _ _ _ => exact absurd rfl he

/-- A session that expires drops the handlers of its frames. -/
theorem accounted_expire (h : s.step .expire = some s') (x : Handler) :
    s'.accounted x + (frameHandlers s.writeQueue).count x = s.accounted x ∧
      s'.submitted = s.submitted := by
  simp only [step] at h
  split at h
  · have hs' := (Option.some.inj h).symm
    have hobjs : s'.objs.flatMap handlersOf = s.objs.flatMap handlersOf := by
      rw [hs', List.flatMap_map]
      rfl
    have hqueues := accounted_queues s s' hobjs (by rw [hs']) [] s.posted (by rw [hs'])
      (by rw [hs']) x
    have hnone : (frameHandlers []).count x = 0 := rfl
    refine ⟨by omega, by rw [hs']⟩
  · cases h

theorem step_submitted {e : Event} (h : s.step e = some s') :
    s'.submitted = s.submitted ++ given e := by
  by_cases he : e = .expire
  · subst he
    exact (accounted_expire h 0).2.trans (List.append_nil _).symm
  · exact (balanced_step h he 0).submitted

/-- The handlers that have been called or still wait are handlers that were given. -/
def Placed (s : Session) : Prop := ∀ x, s.accounted x ≤ s.submitted.count x

theorem placed_init (isServer : Bool) : Placed { isServer } := fun _ => Nat.le_refl 0

theorem placed_step {e : Event} (h : Placed s) (hstep : s.step e = some s') : Placed s' := by
  intro x
  have hx := h x
  rw [step_submitted hstep, List.count_append]
  by_cases he : e = .expire
  · subst he
    have hexpire := (accounted_expire hstep x).1
    omega
  · have hacc := (balanced_step hstep he x).accounted
    omega

end Session

end Cfrp.Mux

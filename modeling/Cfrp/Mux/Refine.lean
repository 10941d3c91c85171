import Cfrp.Mux.PairInv

/-!
# Every stream of a running pair is a link

`step_view` takes one step of the pair to at most one step of the link of each stream,
and `view_reach` a run to a run. So what `LinkInv` proves of a link holds of every
stream of two sessions, as long as neither has stopped.
-/

namespace Cfrp.Mux

open Lib Session

/-! ## The end of a session -/

namespace Session

variable {s s' : Session} {o : Nat} {res : MuxStream × List Effect}

/-- Whether the session is held, and whether it has stopped. -/
def lifetime (s : Session) : Bool × Bool := (s.alive, s.stopped)

theorem lifetime_same (h : Pair.SameButOutput s s') : s'.lifetime = s.lifetime := by
  rw [lifetime, lifetime, h.alive, h.stopped]

theorem perform_lifetime : (s.perform o res).lifetime = s.lifetime :=
  (lifetime_same (Pair.perform_same s o res)).trans rfl

theorem send_lifetime (s : Session) (pw : PendingFrame) :
    (s.asyncSendFrame pw).lifetime = s.lifetime :=
  lifetime_same (Pair.asyncSendFrame_same s pw)

theorem callHandler_lifetime {ec : ErrorCode} {handler : FrameHandler} :
    (s.callHandler ec handler).lifetime = s.lifetime := by
  cases handler with
  | none => rfl
  | failPending o =>
      rw [callHandler]
      split <;> rfl
  | invoke handler n => rfl
  | user handler => rfl

theorem writeDone_lifetime {ec : ErrorCode} (h : s.writeDone ec = some s') :
    s'.lifetime = s.lifetime := by
  rw [writeDone] at h
  split at h
  · cases h
  · rename_i pw rest _
    have hcall :
        (callHandler { s with writeQueue := rest, writing := false } ec pw.handler).lifetime =
        s.lifetime := callHandler_lifetime
    rw [← Option.some.inj h]
    split
    · exact (lifetime_same (Pair.doWrite_same _)).trans hcall
    · exact hcall

theorem handleFrame_lifetime (s : Session) (h : Header) (body : List Byte) :
    (s.handleFrame h body).lifetime = s.lifetime := by
  have hfor : (s.streamFor h).1.lifetime = s.lifetime := by
    rw [streamFor]
    split
    · rfl
    · split <;> rfl
  rw [handleFrame]
  split
  · split
    · rename_i s₁ o heq
      rw [heq] at hfor
      exact hfor
    · rename_i s₁ heq
      rw [heq] at hfor
      exact hfor
  · split
    · split <;> rfl
    · rfl

theorem closeAll_lifetime (running : Option Nat) (os : List Nat) (s : Session) :
    (os.foldl (closeObj running) s).lifetime = s.lifetime := by
  induction os generalizing s with
  | nil => rfl
  | cons o os ih =>
      rw [List.foldl_cons, ih, closeObj]
      split
      · rfl
      · split
        · exact perform_lifetime
        · rfl

/-- `stop` stops. -/
theorem stop_lifetime (s : Session) (running : Option Nat) :
    (s.stop running).lifetime = (s.alive, true) := by
  rw [stop]
  split
  · rename_i hs
    rw [lifetime, hs]
  · rw [closeAll_lifetime]
    rfl

theorem stop_stopped (s : Session) (running : Option Nat) : (s.stop running).stopped = true :=
  congrArg Prod.snd (stop_lifetime s running)

/-- What a step can do to the life of a session. -/
theorem step_lifetime {e : Event} (h : s.step e = some s') :
    s'.lifetime = s.lifetime ∨ s'.lifetime = (s.alive, true) ∨
      s'.lifetime = (false, s.stopped) := by
  have hsub : ∀ handler : Option Handler, (handler.elim s s.submit).lifetime = s.lifetime := by
    intro handler
    cases handler <;> rfl
  cases stepped_of_step h with
  | openStream onStrand _ =>
      rw [openStream]
      split
      · exact Or.inl (send_lifetime _ _)
      · exact Or.inl rfl
  | asyncRead size handler readAll _ => exact Or.inl perform_lifetime
  | asyncWrite buffers handler _ => exact Or.inl perform_lifetime
  | close _ => exact Or.inl perform_lifetime
  | destroy _ _ => exact Or.inl perform_lifetime
  | sendFrame f handler _ => exact Or.inl ((send_lifetime _ _).trans (hsub handler))
  | postFrame f handler _ => exact Or.inl (hsub handler)
  | heartbeat _ => exact Or.inl (send_lifetime _ _)
  | stop running _ => exact Or.inr (Or.inl (stop_lifetime s running))
  | postStop _ => exact Or.inl rfl
  | @runStream o obj t tasks _ _ =>
      cases t with
      | arrival a => exact Or.inl perform_lifetime
      | failWrites ec => exact Or.inl perform_lifetime
      | complete c => exact Or.inl rfl
  | @sendPosted pw posted _ => exact Or.inl (send_lifetime { s with posted } pw)
  | @stopPosted posted _ => exact Or.inr (Or.inl (stop_lifetime { s with posted } none))
  | writeOk _ _ hdone => exact Or.inl (writeDone_lifetime hdone)
  | writeError _ hdone => exact Or.inl (writeDone_lifetime hdone)
  | late _ _ _ => exact Or.inl rfl
  | header _ _ _ _ _ => exact Or.inl rfl
  | tooLong _ _ _ _ => exact Or.inl rfl
  | headerFrame _ _ _ => exact Or.inl (handleFrame_lifetime s _ _)
  | bodyFrame _ _ _ => exact Or.inl (handleFrame_lifetime s _ _)
  | readError _ _ => exact Or.inl rfl
  | expire _ _ _ _ => exact Or.inr (Or.inr rfl)

/-- Nothing starts a session again. -/
theorem step_stopped {e : Event} (h : s.step e = some s') (hs : s.stopped = true) :
    s'.stopped = true := by
  rcases step_lifetime h with heq | heq | heq
  · exact (congrArg Prod.snd heq).trans hs
  · exact congrArg Prod.snd heq
  · exact (congrArg Prod.snd heq).trans hs

/-- Nothing brings a session back. -/
theorem step_expired {e : Event} (h : s.step e = some s') (hs : s.alive = false) :
    s'.alive = false := by
  rcases step_lifetime h with heq | heq | heq
  · exact (congrArg Prod.fst heq).trans hs
  · exact (congrArg Prod.fst heq).trans hs
  · exact congrArg Prod.fst heq

theorem callee_eq {s : Session} {o : Nat} {obj : StreamObj} (h : s.callee o = some obj) :
    s.objs[o]? = some obj ∧ s.synPosted obj.id = false := by
  rw [callee, Option.filter_eq_some_iff] at h
  obtain ⟨ho, hg⟩ := h
  simp only [Bool.and_eq_true, Bool.not_eq_true'] at hg
  exact ⟨ho, hg.2⟩

end Session

/-! ## Steps -/

namespace Pair

variable {p p' : Pair} {x : Bool} {s' s₁ : Session} {o : Nat} {obj : StreamObj}

/-- For each stream the step is one step of its link, or nothing. -/
def Follows (p p' : Pair) : Prop :=
  ∀ i, p'.view i = p.view i ∨ ∃ e, (p.view i).step e = some (p'.view i)

/-- What is kept by a step of a running pair. -/
def Step (p p' : Pair) : Prop := PairInv p' ∧ Follows p p'

theorem PairInv.history (h : PairInv p) (sub : List Handler) (inv : List Completion) :
    PairInv (Function.update p x (withHistory (p x) sub inv)) ∧
    ∀ i, view (Function.update p x (withHistory (p x) sub inv)) i = p.view i := by
  have hh := h.half x
  have hhalf : Half (p !x).reading (withHistory (p x) sub inv) :=
    ⟨hh.alive, hh.running, ⟨hh.output.isWriting, hh.output.busy, hh.output.idle, hh.output.queued,
      hh.output.wire⟩, hh.nodup, hh.table, hh.posted, hh.noFail, hh.quiet⟩
  have hreading : (withHistory (p x) sub inv).reading = (p x).reading := rfl
  refine ⟨?_, fun i => view_same hreading rfl rfl⟩
  refine h.local (a := p.inFlight x) (m := []) (b := []) hhalf rfl rfl (fun _ => Iff.rfl) (by simp)
    (by rw [show flightOf p x (withHistory (p x) sub inv) = p.inFlight x from rfl]; simp)
    fun i => Or.inl ?_
  intro f hf
  cases hf

/-- An operation after a change of the same session. -/
theorem perform_after (h : PairInv (Function.update p x s₁)) (ho : s₁.objs[o]? = some obj)
    {res : MuxStream × List Effect} (hop : StreamOp obj.id res)
    (hcalled : s₁.synPosted obj.id = false) :
    PairInv (Function.update p x (s₁.perform o res)) ∧
    ∀ i, view (Function.update p x (s₁.perform o res)) i =
      if i = obj.id then (view (Function.update p x s₁) i).perform x res
      else view (Function.update p x s₁) i := by
  have hself : Function.update p x s₁ x = s₁ := Function.update_self ..
  have hperform := h.perform (x := x) (by rw [hself]; exact ho) hop (by rw [hself]; exact hcalled)
  rw [hself, Function.update_idem] at hperform
  exact hperform

theorem step_asyncRead (h : PairInv p) {size : Nat} {handler : Handler} {readAll : Bool}
    (hstep : (p x).step (.asyncRead o size handler readAll) = some s') :
    Step p (Function.update p x s') := by
  obtain ⟨obj, hcallee, rfl⟩ := Option.map_eq_some_iff.mp hstep
  obtain ⟨ho, hcalled⟩ := callee_eq hcallee
  obtain ⟨hinv, hview⟩ := h.history (x := x) ((p x).submitted ++ [handler]) (p x).invoked
  obtain ⟨hinv', hview'⟩ := perform_after hinv ho
    (streamOp_asyncRead obj.stream size handler readAll) hcalled
  refine ⟨hinv', fun i => ?_⟩
  have hi := hview' i
  rw [hview i] at hi
  by_cases hid : i = obj.id
  · subst hid
    rw [if_pos rfl] at hi
    refine Or.inr ⟨.read x size handler readAll, ?_⟩
    rw [Link.step, h.end_eq ho]
    exact congrArg some hi.symm
  · rw [if_neg hid] at hi
    exact Or.inl hi

theorem step_asyncWrite (h : PairInv p) {buffers : List (List Byte)} {handler : Handler}
    (hstep : (p x).step (.asyncWrite o buffers handler) = some s') :
    Step p (Function.update p x s') := by
  obtain ⟨obj, hcallee, rfl⟩ := Option.map_eq_some_iff.mp hstep
  obtain ⟨ho, hcalled⟩ := callee_eq hcallee
  have hend : endOf (p x) (acceptPayload obj buffers) = Link.accept (endOf (p x) obj) buffers := by
    rw [acceptPayload, Link.accept]
    show endOf _ (if obj.stream.pendingWrites.length ≥ maxPendingWrites then _ else _) =
      if obj.stream.pendingWrites.length ≥ maxPendingWrites then _ else _
    split <;> rfl
  have hid : (acceptPayload obj buffers).id = obj.id :=
    congrArg MuxStream.id (acceptPayload_stream obj buffers)
  obtain ⟨hinv, hview⟩ := h.modify ho (f := fun obj => acceptPayload obj buffers) hid
    (fun ec hm => (h.half x).noFail obj (List.mem_of_getElem? ho) ec
      (acceptPayload_tasks obj buffers ▸ hm))
    (by rw [hcalled]; intro hf; cases hf) ((p x).submitted ++ [handler]) (p x).invoked
  have ho₁ := getElem?_modifyObj ho fun obj => acceptPayload obj buffers
  have hop : StreamOp (acceptPayload obj buffers).id (obj.stream.asyncWrite buffers handler) := by
    rw [hid]
    exact streamOp_asyncWrite obj.stream buffers handler
  obtain ⟨hinv', hview'⟩ := perform_after hinv ho₁ hop (by rw [hid]; exact hcalled)
  refine ⟨hinv', fun i => ?_⟩
  have hi := hview' i
  rw [hview i, hid] at hi
  by_cases heq : i = obj.id
  · subst heq
    rw [if_pos rfl, if_pos rfl, hend] at hi
    refine Or.inr ⟨.write x buffers handler, ?_⟩
    rw [Link.step, h.end_eq ho]
    exact congrArg some hi.symm
  · rw [if_neg heq, if_neg heq] at hi
    exact Or.inl hi

theorem step_close (h : PairInv p) (hstep : (p x).step (.close o) = some s') :
    Step p (Function.update p x s') := by
  obtain ⟨obj, hcallee, rfl⟩ := Option.map_eq_some_iff.mp hstep
  obtain ⟨ho, hcalled⟩ := callee_eq hcallee
  obtain ⟨hinv, hview⟩ := h.perform ho (streamOp_close obj.stream) hcalled
  refine ⟨hinv, fun i => ?_⟩
  have hi := hview i
  by_cases hid : i = obj.id
  · subst hid
    rw [if_pos rfl] at hi
    refine Or.inr ⟨.close x, ?_⟩
    rw [Link.step, h.end_eq ho]
    exact congrArg some hi.symm
  · rw [if_neg hid] at hi
    exact Or.inl hi

/-- The table refers to an object by the index it was created with. -/
theorem lookup_of_unowned (h : PairInv p) (ho : (p x).objs[o]? = some obj)
    (hu : (p x).unowned o obj = true) : (p x).streams.lookup obj.id = none := by
  rw [unowned] at hu
  simp only [Bool.and_eq_true, List.all_eq_true] at hu
  cases hl : (p x).streams.lookup obj.id with
  | none => rfl
  | some o' =>
      obtain ⟨obj', ho', hid⟩ := (h.half x).table _ _ hl
      have heq : o = o' := index_unique (h.half x).nodup ho ho' hid.symm
      have hentry := hu.1.1.2 _ (Table.lookup_eq_some_iff.mp hl)
      simp [heq] at hentry

theorem step_destroy (h : PairInv p) (hstep : (p x).step (.destroy o) = some s') :
    Step p (Function.update p x s') := by
  obtain ⟨obj, ho, hstep⟩ := Option.bind_eq_some_iff.mp hstep
  rw [Option.ite_none_right_eq_some] at hstep
  obtain ⟨hu, hs⟩ := hstep
  have hs' := Option.some.inj hs
  subst hs'
  have hlookup := lookup_of_unowned h ho hu
  have hcalled : (p x).synPosted obj.id = false := by
    cases hsyn : (p x).synPosted obj.id with
    | false => rfl
    | true =>
        have hin := ((h.half x).quiet obj (List.mem_of_getElem? ho) hsyn).2
        rw [hlookup] at hin
        cases hin
  have hop := streamOp_destroy obj.stream
  obtain ⟨hinv, hview⟩ := h.perform ho hop hcalled
  have hself : Function.update p x ((p x).perform o obj.stream.destroy) x =
      (p x).perform o obj.stream.destroy := Function.update_self ..
  have ho₁ : (Function.update p x ((p x).perform o obj.stream.destroy) x).objs[o]? =
      some (afterOp obj.stream.destroy obj) := by
    rw [hself, perform_objs, List.getElem?_modify, ho]
    simp
  have hnone : ∀ ec, .failWrites ec ∉ (afterOp obj.stream.destroy obj).tasks := by
    intro ec
    exact (hinv.half x).noFail _ (List.mem_of_getElem? ho₁) ec
  obtain ⟨hinv', hview'⟩ :=
    hinv.modify ho₁ (f := fun obj => { obj with destroyed := true }) rfl hnone
    (fun hsyn => ((hinv.half x).quiet _ (List.mem_of_getElem? ho₁) hsyn).1)
    ((p x).perform o obj.stream.destroy).submitted ((p x).perform o obj.stream.destroy).invoked
  rw [hself, Function.update_idem] at hinv' hview'
  refine ⟨hinv', fun i => ?_⟩
  have hi := hview' i
  -- the mark is not seen
  have hmark : (if i = obj.id then
      (view (Function.update p x ((p x).perform o obj.stream.destroy)) i).setEnd x
        (endOf ((p x).perform o obj.stream.destroy)
          { afterOp obj.stream.destroy obj with destroyed := true })
      else view (Function.update p x ((p x).perform o obj.stream.destroy)) i) =
      view (Function.update p x ((p x).perform o obj.stream.destroy)) i := by
    split
    · rename_i hid
      have hend : endOf ((p x).perform o obj.stream.destroy)
          { afterOp obj.stream.destroy obj with destroyed := true } =
          (view (Function.update p x ((p x).perform o obj.stream.destroy)) i).ends x := by
        rw [hid]
        have hend' := hinv.end_eq ho₁
        rw [hself] at hend'
        exact hend'.symm
      rw [hend, Link.setEnd, Function.update_eq_self]
    · rfl
  have hi' := (hi.trans hmark).trans (hview i)
  by_cases hid : i = obj.id
  · subst hid
    rw [if_pos rfl] at hi'
    refine Or.inr ⟨.destroy x, ?_⟩
    have hremoved : ((p.view obj.id).ends x).removed = true := by
      rw [h.end_eq ho]
      show ((p x).streams.lookup obj.id).isNone = true
      rw [hlookup]
      rfl
    rw [Link.step, if_pos hremoved, h.end_eq ho]
    exact congrArg some hi'.symm
  · rw [if_neg hid] at hi'
    exact Or.inl hi'

theorem step_runStream (h : PairInv p) (hstep : (p x).step (.runStream o) = some s') :
    Step p (Function.update p x s') := by
  obtain ⟨obj, ho, hstep⟩ := Option.bind_eq_some_iff.mp hstep
  split at hstep
  · cases hstep
  · rename_i t tasks htasks
    have hs' := Option.some.inj hstep
    subst hs'
    have hm := List.mem_of_getElem? ho
    -- an object that has something to run has been introduced
    have hcalled : (p x).synPosted obj.id = false := by
      cases hsyn : (p x).synPosted obj.id with
      | false => rfl
      | true =>
          have hnil := ((h.half x).quiet obj hm hsyn).1
          rw [htasks] at hnil
          cases hnil
    have hrest : ∀ ec, .failWrites ec ∉ tasks := fun ec hin =>
      (h.half x).noFail obj hm ec (by rw [htasks]; exact List.mem_cons_of_mem _ hin)
    obtain ⟨hinv, hview⟩ := h.modify ho (f := fun obj => { obj with tasks := tasks }) rfl hrest
      (by rw [hcalled]; intro hf; cases hf) (p x).submitted (p x).invoked
    have ho₁ := getElem?_modifyObj ho fun obj => { obj with tasks := tasks }
    cases t with
    | failWrites ec =>
        exact absurd (by rw [htasks]; exact List.mem_cons_self) ((h.half x).noFail obj hm ec)
    | arrival a =>
        obtain ⟨hinv', hview'⟩ := perform_after hinv ho₁ (streamOp_handle obj.stream a) hcalled
        refine ⟨hinv', fun i => ?_⟩
        have hi := hview' i
        rw [hview i] at hi
        by_cases hid : i = obj.id
        · rw [if_pos hid] at hi
          rw [if_pos (show i = StreamObj.id { obj with tasks := tasks } from hid)] at hi
          refine Or.inr ⟨.run x, ?_⟩
          have hinbox : ((p.view i).ends x).inbox = a :: inbox tasks := by
            rw [hid, h.end_eq ho, endOf, htasks]
            rfl
          have hend : endOf (p x) { obj with tasks := tasks } =
              { (p.view i).ends x with inbox := inbox tasks } := by
            rw [hid, h.end_eq ho, endOf, endOf, htasks]
            rfl
          have hstream : ((p.view i).ends x).stream = obj.stream := by
            rw [hid, h.end_eq ho]
            rfl
          have hrun : ∀ e, e = { (p.view i).ends x with inbox := inbox tasks } →
              (p.view i).step (.run x) =
                some (((p.view i).setEnd x e).perform x (((p.view i).ends x).stream.handle a)) := by
            intro e he
            rw [he, Link.step, hinbox]
          rw [hrun _ hend, hstream]
          exact congrArg some hi.symm
        · rw [if_neg hid] at hi
          rw [if_neg (show i ≠ StreamObj.id { obj with tasks := tasks } from hid)] at hi
          exact Or.inl hi
    | complete c =>
        have hself : Function.update p x
              (withHistory ((p x).modifyObj o fun obj => { obj with tasks := tasks })
                (p x).submitted (p x).invoked) x =
            withHistory ((p x).modifyObj o fun obj => { obj with tasks := tasks })
              (p x).submitted (p x).invoked := Function.update_self ..
        obtain ⟨hinv', hview'⟩ := hinv.modify (x := x) (by rw [hself]; exact ho₁)
          (f := fun obj => { obj with reported := obj.reported ++ [c] }) rfl hrest
          (fun hsyn => by
            rw [hself] at hsyn
            have hsyn' : (p x).synPosted obj.id = true := hsyn
            rw [hcalled] at hsyn'
            cases hsyn') (p x).submitted ((p x).invoked ++ [c])
        rw [hself, Function.update_idem] at hinv' hview'
        refine ⟨hinv', fun i => Or.inl ?_⟩
        have hi := hview' i
        rw [hview i] at hi
        by_cases hid : i = obj.id
        · -- a completion moves from the tasks to what was reported
          have hend : endOf (withHistory ((p x).modifyObj o fun obj => { obj with tasks := tasks })
              (p x).submitted (p x).invoked)
                { obj with tasks := tasks, reported := obj.reported ++ [c] } = endOf (p x) obj := by
            rw [endOf, endOf, htasks]
            show End.mk _ _ _ (obj.reported ++ [c] ++ completions tasks) _ _ _ = _
            rw [List.append_assoc]
            rfl
          have hidem : ((p.view i).setEnd x (endOf (p x) { obj with tasks := tasks })).setEnd x
              (endOf (p x) obj) = p.view i := by
            rw [Link.setEnd, Link.setEnd, Function.update_idem, ← h.end_eq ho, hid,
              Function.update_eq_self]
          rw [if_pos hid] at hi
          rw [if_pos (show i = StreamObj.id { obj with tasks := tasks } from hid)] at hi
          exact hi.trans ((congrArg _ hend).trans hidem)
        · rw [if_neg hid] at hi
          rw [if_neg (show i ≠ StreamObj.id { obj with tasks := tasks } from hid)] at hi
          exact hi

/-! ## Steps that say nothing to a stream -/

theorem endAt_congr {s s' : Session} (hobjs : s'.objs = s.objs) (hstreams : s'.streams = s.streams)
    (i : UInt32) : endAt s' i = endAt s i := by
  have hend : endOf s' = endOf s := by
    funext obj
    rw [endOf, endOf, hstreams]
  rw [endAt, endAt, find, find, hobjs, hend]

theorem step_silent (h : PairInv p) (hhalf : Half (p !x).reading s')
    (hreading : s'.reading = (p x).reading) (hnext : s'.nextStreamId = (p x).nextStreamId)
    (hobjs : s'.objs = (p x).objs) (hstreams : s'.streams = (p x).streams)
    {a m b : List (Header × List Byte)} (hold : p.inFlight x = a ++ b)
    (hflight : flightOf p x s' = a ++ m ++ b) (hm : ∀ i, Silent i m) :
    Step p (Function.update p x s') := by
  refine ⟨h.local hhalf hreading hnext (fun i => by rw [find, find, hobjs]) hold hflight
    fun i => Or.inl (hm i), fun i => Or.inl ?_⟩
  refine view_same hreading (endAt_congr hobjs hstreams i) ?_
  rw [hflight, hold, said_append, said_append, said_append, said_of_silent (hm i), List.append_nil]

theorem step_heartbeat (h : PairInv p) (hstep : (p x).step .heartbeat = some s') :
    Step p (Function.update p x s') := by
  rw [Session.step, Option.ite_none_right_eq_some] at hstep
  have hs' := Option.some.inj hstep.2
  subst hs'
  obtain ⟨hhalf, hflight⟩ := (h.half x).enqueue ⟨pingFrame, .none⟩ ControlFrame.ping
  have hsame := asyncSendFrame_same (p x) ⟨pingFrame, .none⟩
  refine step_silent h hhalf hsame.reading hsame.nextStreamId hsame.objs hsame.streams rfl ?_
    fun i => silent_control ControlFrame.ping (ping_ne_syn i)
  rw [flightOf, hflight, postedFrames, hsame.posted]
  rfl

theorem step_postStop (h : PairInv p) (hstep : (p x).step .postStop = some s') :
    Step p (Function.update p x s') := by
  rw [Session.step, Option.ite_none_right_eq_some] at hstep
  have hs' := Option.some.inj hstep.2
  subst hs'
  have hsyn : ∀ i, (p x).postStop.synPosted i = (p x).synPosted i := by
    intro i
    rw [synPosted, postStop, List.any_append]
    simp [synPosted]
  have hout := (h.half x).output
  have hhalf : Half (p !x).reading (p x).postStop := by
    refine (h.half x).congr rfl rfl rfl rfl
      ⟨hout.isWriting, hout.busy, hout.idle, hout.queued, hout.wire⟩ ?_ ?_
    · intro pw hpw
      rcases List.mem_append.mp hpw with hpw | hpw
      · exact (h.half x).posted pw hpw
      · simp at hpw
    · intro i hi
      rw [hsyn] at hi
      exact Or.inl hi
  have hreading : (p x).postStop.reading = (p x).reading := rfl
  refine step_silent h hhalf hreading rfl rfl rfl (a := p.inFlight x) (m := []) (b := [])
    (by simp) ?_ fun i f hf => by cases hf
  have hposted : postedFrames (p x).postStop = postedFrames (p x) := by
    rw [postedFrames, postStop, List.filterMap_append]
    simp [postedFrames]
  rw [flightOf, hposted, List.append_nil, List.append_nil]
  rfl

theorem step_writeOk (h : PairInv p) (hstep : (p x).step .writeOk = some s') :
    Step p (Function.update p x s') := by
  simp only [Session.step] at hstep
  split at hstep
  · rename_i hw
    rw [Bool.and_eq_true] at hw
    obtain ⟨hhalf, hflight, hobjs, hstreams, hposted, hreading, hnext⟩ :=
      (h.half x).writeOk hw.1 hstep
    refine step_silent h hhalf hreading hnext hobjs hstreams (a := p.inFlight x) (m := []) (b := [])
      (by simp) ?_ fun i f hf => by cases hf
    rw [flightOf, hflight, postedFrames, hposted, List.append_nil, List.append_nil]
    rfl
  · cases hstep

/-- A posted frame keeps its place when it is queued: it is behind what was queued, and
before what else is posted. -/
theorem step_runPosted (h : PairInv p) (hrun : s'.stopped = false)
    (hstep : (p x).step .runPosted = some s') : Step p (Function.update p x s') := by
  simp only [Session.step] at hstep
  split at hstep
  · cases hstep
  · rename_i pw posted hp
    have hs' := Option.some.inj hstep
    subst hs'
    obtain ⟨hhalf, hflight⟩ := (h.half x).runPosted hp
    have hsame := asyncSendFrame_same { p x with posted := posted } pw
    refine step_silent h hhalf hsame.reading hsame.nextStreamId hsame.objs hsame.streams
      (a := p.inFlight x) (m := []) (b := []) (by simp) ?_ fun i f hf => by cases hf
    have hposted : postedFrames (p x) = asReceived pw :: postedFrames
        { p x with posted := posted } := by
      rw [postedFrames, hp]
      rfl
    have hposted' : postedFrames ({ p x with posted := posted }.asyncSendFrame pw) =
        postedFrames { p x with posted := posted } := by
      rw [postedFrames, hsame.posted]
      rfl
    rw [flightOf, hflight, hposted', inFlight, hposted, List.append_nil, List.append_nil,
      List.append_assoc]
    rfl
  · have hs' := Option.some.inj hstep
    rw [← hs', stop_stopped] at hrun
    cases hrun

/-! ## A new stream -/

theorem parity_ne (x : Bool) : parity x ≠ parity !x := by
  cases x <;> decide

/-- An identifier that is not in use on the side that gives it out is not in use at all. -/
theorem unused_of_notWrapped (h : PairInv p) (hw : notWrapped (p x) = true) :
    find (p x) (p x).nextStreamId = none ∧ find (p !x) (p x).nextStreamId = none := by
  have hself : find (p x) (p x).nextStreamId = none := by
    rw [find, findKey_eq_none]
    rw [notWrapped, List.all_eq_true] at hw
    intro obj hm
    simpa using hw obj hm
  refine ⟨hself, ?_⟩
  by_contra hother
  have hpar := (h.new (!x) _ hother (by rw [Bool.not_not]; exact hself)).2
  exact parity_ne x ((h.next x).symm.trans hpar)

theorem isSyn_synFrame (id : UInt32) : IsSyn id ((synFrame id).header, (synFrame id).body) := rfl

theorem syn_ne_syn {id i : UInt32} (h : i ≠ id) : (synFrame id).header ≠ (synFrame i).header :=
  fun heq => h (congrArg Header.streamId heq).symm

/-- `s'` is the session of `x` once it has opened the stream `id`. Wherever the SYN is put, it
is the last frame about the stream: `a` goes before it and `b` after it. -/
structure SynPut (p : Pair) (x : Bool) (id : UInt32) (s' : Session)
    (a b : List (Header × List Byte)) : Prop where
  half : Half (p !x).reading s'
  reading : s'.reading = (p x).reading
  next : s'.nextStreamId = id + 2
  objs : s'.objs = (addObj (p x) (id + 2) id).objs
  streams : s'.streams = (addObj (p x) (id + 2) id).streams
  old : p.inFlight x = a ++ b
  flight : flightOf p x s' = a ++ [((synFrame id).header, (synFrame id).body)] ++ b
  last : NoSyn id b

/-- On the strand the SYN goes to the write queue, elsewhere it is posted. -/
theorem synPut_openStream (h : PairInv p) {id : UInt32} (hid : (p x).nextStreamId = id)
    (hnew : find (p x) id = none) (onStrand : Bool) :
    ∃ a b, SynPut p x id ((p x).openStream onStrand) a b := by
  have hadd : Half (p !x).reading (addObj (p x) (id + 2) id) := (h.half x).addObj _ hnew
  have hcontrol := ControlFrame.syn id
  have hsilent := h.unknown x id hnew
  rw [openStream, hid]
  cases onStrand with
  | true =>
      show ∃ a b, SynPut p x id
        ((addObj (p x) (id + 2) id).asyncSendFrame ⟨synFrame id, .none⟩) a b
      obtain ⟨hhalf, hflight⟩ := hadd.enqueue ⟨synFrame id, .none⟩ hcontrol
      have hsame := asyncSendFrame_same (addObj (p x) (id + 2) id) ⟨synFrame id, .none⟩
      refine ⟨flight (p !x).reading (p x), postedFrames (p x), hhalf, hsame.reading,
        hsame.nextStreamId, hsame.objs, hsame.streams, rfl, ?_, ?_⟩
      · rw [flightOf, hflight, postedFrames, hsame.posted]
        rfl
      · exact (silent_append.mp hsilent).2.noSyn
  | false =>
      show ∃ a b, SynPut p x id ((addObj (p x) (id + 2) id).postFrame ⟨synFrame id, .none⟩) a b
      refine ⟨p.inFlight x, [], hadd.post hcontrol ?_, rfl, rfl, rfl, rfl, by simp, ?_,
        fun f hf => by cases hf⟩
      · -- the stream whose SYN is posted is the new one, which has no task yet
        intro obj hm hsyn
        by_cases hobj : obj.id = id
        · refine Or.inr ?_
          have hnewObj : obj = StreamObj.new id := by
            rcases List.mem_append.mp hm with hm | hm
            · exact absurd hobj (findKey_eq_none.mp hnew obj hm)
            · exact List.mem_singleton.mp hm
          rw [hnewObj]
          refine ⟨rfl, ?_⟩
          show (((p x).streams.insert id (p x).objs.length).lookup id).isSome = true
          rw [AList.lookup_insert]
          rfl
        · rw [synPosted_postFrame, Bool.or_eq_true] at hsyn
          rcases hsyn with hsyn | hsyn
          · exact Or.inl hsyn
          · exact absurd (of_decide_eq_true hsyn).1.symm hobj
      · rw [flightOf, postedFrames_postFrame, List.append_nil, ← List.append_assoc]
        rfl

theorem SynPut.find_eq {id : UInt32} {a b : List (Header × List Byte)}
    (hput : SynPut p x id s' a b) (hnew : find (p x) id = none) (i : UInt32) :
    find s' i = if i = id then some (StreamObj.new id) else find (p x) i := by
  rw [find, hput.objs]
  exact find_addObj hnew i

theorem SynPut.inv (h : PairInv p) {id : UInt32} {a b : List (Header × List Byte)}
    (hput : SynPut p x id s' a b) (hid : (p x).nextStreamId = id) (hnew : find (p x) id = none)
    (hother : find (p !x) id = none) : PairInv (Function.update p x s') := by
  have hfind := hput.find_eq hnew
  have hflight := hput.flight
  have hin : inFlight (Function.update p x s') (!x) = p.inFlight !x :=
    inFlight_update_not hput.reading
  have hsilent : ∀ i, i ≠ id → Silent i [((synFrame id).header, (synFrame id).body)] :=
    fun i hi => silent_control (.syn id) (syn_ne_syn hi)
  constructor
  case half =>
    refine forall_side x ?_ ?_
    · rw [update_self', update_not]
      exact hput.half
    · have hh := h.half !x
      rw [Bool.not_not, update_self', update_not, hput.reading]
      rwa [Bool.not_not] at hh
  case next =>
    refine forall_side x ?_ ?_
    · have hn := h.next x
      have h2 : (2 : UInt32).toNat = 2 := rfl
      rw [hid] at hn
      rw [update_self', hput.next, UInt32.toNat_add]
      omega
    · rw [update_not]
      exact h.next !x
  case unknown =>
    refine forall_side x (fun i hnone => ?_) fun i hnone => ?_
    · rw [update_self', hfind] at hnone
      split at hnone
      · cases hnone
      · rename_i hi
        have hs := h.unknown x i hnone
        rw [hput.old, silent_append] at hs
        rw [inFlight_update_self, hflight, silent_append, silent_append]
        exact ⟨⟨hs.1, hsilent i hi⟩, hs.2⟩
    · rw [update_not] at hnone
      rw [hin]
      exact h.unknown (!x) i hnone
  case both =>
    -- the other side does not have the new stream yet
    refine forall_side x (fun i h1 h2 => ?_) fun i h1 h2 => ?_
    · rw [update_not] at h2
      have hi : i ≠ id := fun hi => h2 (hi ▸ hother)
      rw [update_self', hfind, if_neg hi] at h1
      have hs := h.both x i h1 h2
      rw [hput.old, noSyn_append] at hs
      rw [inFlight_update_self, hflight, noSyn_append, noSyn_append]
      exact ⟨⟨hs.1, (hsilent i hi).noSyn⟩, hs.2⟩
    · rw [update_not] at h1
      rw [Bool.not_not, update_self', hfind] at h2
      have hi : i ≠ id := fun hi => h1 (hi ▸ hother)
      rw [if_neg hi] at h2
      rw [hin]
      exact h.both (!x) i h1 (by rw [Bool.not_not]; exact h2)
  case new =>
    refine forall_side x (fun i h1 h2 => ?_) fun i h1 h2 => ?_
    · rw [update_not] at h2
      rw [inFlight_update_self, hflight]
      by_cases hi : i = id
      · subst hi
        have hs := h.unknown x i hnew
        rw [hput.old, silent_append] at hs
        refine ⟨(introduces_append hput.last).mpr (introduces_syn hs.1 (isSyn_synFrame i)), ?_⟩
        rw [← hid]
        exact h.next x
      · rw [update_self', hfind, if_neg hi] at h1
        obtain ⟨hs, hpar⟩ := h.new x i h1 h2
        rw [hput.old] at hs
        exact ⟨hs.insert (hsilent i hi), hpar⟩
    · rw [update_not] at h1
      rw [Bool.not_not, update_self', hfind] at h2
      rw [hin]
      split at h2
      · cases h2
      · exact h.new (!x) i h1 (by rw [Bool.not_not]; exact h2)

/-- A stream that is opened is not seen yet. -/
theorem step_openStream (h : PairInv p) {onStrand : Bool} (hw : notWrapped (p x) = true)
    (hstep : (p x).step (.openStream onStrand) = some s') : Step p (Function.update p x s') := by
  rw [Session.step, Option.ite_none_right_eq_some] at hstep
  obtain rfl := Option.some.inj hstep.2
  obtain ⟨hnew, hother⟩ := unused_of_notWrapped h hw
  obtain ⟨a, b, hput⟩ := synPut_openStream h rfl hnew onStrand
  refine ⟨hput.inv h rfl hnew hother, fun i => Or.inl (view_same hput.reading ?_ ?_)⟩
  · exact (endAt_congr hput.objs hput.streams i).trans (endAt_addObj hnew i)
  · have hsyn : said [((synFrame (p x).nextStreamId).header,
        (synFrame (p x).nextStreamId).body)] i = [] := by
      rw [said, List.flatMap_eq_nil_iff]
      intro f hf
      rw [List.mem_singleton.mp (List.mem_filter.mp hf).1]
      exact ControlFrame.arrivals_eq (ControlFrame.syn _)
    rw [hput.flight, hput.old, said_append, said_append, said_append, hsyn, List.append_nil]

end Pair

end Cfrp.Mux

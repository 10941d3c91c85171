import Cfrp.Mux.Identity

/-!
# Objects and identifiers

Of the objects of a session no two have one identifier, and an object of the other session with
the same identifier is its peer. A SYN is for a stream its receiver does not have yet, since
each was opened once. So what a frame says to an identifier it says to the peer of its sender.
-/

namespace Cfrp.Mux

open Lib Session

namespace IdRun

variable {s s' : Session} {r : Reading} {line : List (Header × List Byte)} {who : Option Nat}

/-! ## The invariant -/

/-- The stream that a posted task introduces. -/
def taskSyn : SessionTask → Option UInt32
  | .sendFrame pw => synId pw.frame
  | .stop => none

/-- The streams whose SYN is in the line or posted. -/
def syns (r : IdRun) (x : Bool) : List UInt32 :=
  (r.line x).filterMap (fun g => synId g.frame) ++ (r.waiting x).filterMap fun t => taskSyn t.2

/-- **The invariant.** Of a session's objects no two have one identifier; an object of the
other session with that identifier is its peer; and a SYN is for a stream that its receiver does
not have. -/
structure IdInv (r : IdRun) : Prop where
  signed : ∀ x, ∀ g ∈ r.line x, Signed (ids (r.pair x)) g
  posted : ∀ x, (r.waiting x).map Prod.snd = (r.pair x).posted
  waiting : ∀ x who pw, (who, .sendFrame pw) ∈ r.waiting x →
    Signed (ids (r.pair x)) ⟨who, pw.frame⟩
  carried : ∀ x, (r.pair !x).reading ≠ .idle →
    Carried (r.pair !x).reading (r.pair x) ((r.line x).map Sent.seen)
  nodup : ∀ x, (ids (r.pair x)).Nodup
  table : ∀ x i o, (r.pair x).streams.lookup i = some o → (ids (r.pair x))[o]? = some i
  once : ∀ x, (r.syns x).Nodup
  unknown : ∀ x, ∀ i ∈ r.syns x, i ∉ ids (r.pair !x)
  known : ∀ x, ∀ i ∈ ids (r.pair x), i ∈ r.opened x ∨ i ∈ r.opened !x
  peers : ∀ x o o' i, (ids (r.pair x))[o]? = some i → (ids (r.pair !x))[o']? = some i →
    r.Peers x o o'
  passed : ∀ x, ∀ e ∈ r.passed x, ∃ o', e.2 = some o' ∧ r.Peers x e.1 o'

variable {run : IdRun} {x : Bool} {w : List (Option Nat × SessionTask)}

theorem put_pair_self : (run.put x s' who w).pair x = s' := Function.update_self ..

theorem put_pair_not : (run.put x s' who w).pair (!x) = run.pair !x :=
  Function.update_of_ne (Pair.not_ne_self x) ..

theorem put_line_self : (run.put x s' who w).line x =
    run.line x ++
      (s'.writeQueue.drop (run.pair x).writeQueue.length).map fun pw => ⟨who, pw.frame⟩ :=
  Function.update_self ..

theorem put_line_not : (run.put x s' who w).line (!x) = run.line !x :=
  Function.update_of_ne (Pair.not_ne_self x) ..

theorem put_waiting_self : (run.put x s' who w).waiting x =
    w ++ (s'.posted.drop (run.pair x).posted.length).map fun t => (who, t) :=
  Function.update_self ..

theorem put_waiting_not : (run.put x s' who w).waiting (!x) = run.waiting !x :=
  Function.update_of_ne (Pair.not_ne_self x) ..

theorem put_syns_not : (run.put x s' who w).syns (!x) = run.syns !x := by
  unfold syns
  rw [put_line_not, put_waiting_not]

/-- A step after which the session has the objects it had. -/
structure Keeps (run : IdRun) (x : Bool) (s' : Session) (who : Option Nat)
    (w : List (Option Nat × SessionTask)) (fs : List PendingFrame) : Prop where
  sameIds : ids s' = ids (run.pair x)
  table : ∀ i o, s'.streams.lookup i = some o → (run.pair x).streams.lookup i = some o
  reading : s'.reading = (run.pair x).reading ∨ s'.reading = .idle
  queue : s'.writeQueue.drop (run.pair x).writeQueue.length = fs
  signed : ∀ pw ∈ fs, Signed (ids (run.pair x)) ⟨who, pw.frame⟩
  carried : ∀ {r line}, Carried r (run.pair x) line →
    Carried r s' (line ++ fs.map Pair.asReceived)
  posted : ((run.put x s' who w).waiting x).map Prod.snd = s'.posted
  waiting : ∀ t ∈ (run.put x s' who w).waiting x, t ∈ run.waiting x ∨ t.2 = .stop
  syns : (run.put x s' who w).syns x = run.syns x

theorem Keeps.inv {fs : List PendingFrame} (hk : Keeps run x s' who w fs) (h : IdInv run) :
    IdInv (run.put x s' who w) := by
  have hids : ∀ y, ids ((run.put x s' who w).pair y) = ids (run.pair y) := by
    intro y
    rcases Bool.eq_or_eq_not y x with rfl | rfl
    · rw [put_pair_self, hk.sameIds]
    · rw [put_pair_not]
  have hsyns : ∀ y, (run.put x s' who w).syns y = run.syns y := by
    intro y
    rcases Bool.eq_or_eq_not y x with rfl | rfl
    · exact hk.syns
    · exact put_syns_not
  constructor
  case signed =>
    intro y g hg
    rw [hids]
    rcases Bool.eq_or_eq_not y x with rfl | rfl
    · rw [put_line_self, hk.queue] at hg
      rcases List.mem_append.mp hg with hg | hg
      · exact h.signed y g hg
      · obtain ⟨pw, hpw, rfl⟩ := List.mem_map.mp hg
        exact hk.signed pw hpw
    · rw [put_line_not] at hg
      exact h.signed _ g hg
  case posted =>
    intro y
    rcases Bool.eq_or_eq_not y x with rfl | rfl
    · rw [put_pair_self]
      exact hk.posted
    · rw [put_pair_not, put_waiting_not]
      exact h.posted _
  case waiting =>
    intro y who' pw ht
    rw [hids]
    rcases Bool.eq_or_eq_not y x with rfl | rfl
    · rcases hk.waiting _ ht with ht | hstop
      · exact h.waiting y who' pw ht
      · cases hstop
    · rw [put_waiting_not] at ht
      exact h.waiting _ who' pw ht
  case carried =>
    intro y hreading
    rcases Bool.eq_or_eq_not y x with rfl | rfl
    · rw [put_pair_not] at hreading ⊢
      rw [put_pair_self, put_line_self, hk.queue, List.map_append, List.map_map]
      exact hk.carried (h.carried y hreading)
    · rw [Bool.not_not, put_pair_self] at hreading ⊢
      rw [put_pair_not, put_line_not]
      -- a session that has stopped reading asks nothing of the line to it
      rcases hk.reading with heq | heq
      · rw [heq] at hreading ⊢
        have hc := h.carried !x
        rw [Bool.not_not] at hc
        exact hc hreading
      · exact absurd heq hreading
  case nodup =>
    intro y
    rw [hids]
    exact h.nodup y
  case table =>
    intro y i o ho
    rw [hids]
    rcases Bool.eq_or_eq_not y x with rfl | rfl
    · rw [put_pair_self] at ho
      exact h.table y i o (hk.table i o ho)
    · rw [put_pair_not] at ho
      exact h.table _ i o ho
  case once =>
    intro y
    rw [hsyns]
    exact h.once y
  case unknown =>
    intro y
    rw [hsyns, hids]
    exact h.unknown y
  case known =>
    intro y
    rw [hids]
    exact h.known y
  case peers =>
    intro y
    rw [hids, hids]
    exact h.peers y
  case passed => exact h.passed

theorem filterMap_synId (fs : List PendingFrame) (who : Option Nat)
    (h : ∀ pw ∈ fs, synId pw.frame = none) :
    (fs.map fun pw => (⟨who, pw.frame⟩ : Sent)).filterMap (fun g => synId g.frame) = [] := by
  rw [List.filterMap_map, List.filterMap_eq_nil_iff]
  exact h

theorem Plays.keeps (hp : Plays who (run.pair x) s') (h : IdInv run) :
    ∃ fs, Keeps run x s' who (run.waiting x) fs := by
  obtain ⟨fs, hsends, hqueue, hfs⟩ := hp
  obtain ⟨n, hn⟩ := hsends.posted
  have hwaiting : (run.put x s' who (run.waiting x)).waiting x =
      run.waiting x ++ (List.replicate n .stop).map fun t => (who, t) := by
    rw [put_waiting_self, hn, List.drop_left]
  refine ⟨fs, hsends.sameIds, hsends.table, hsends.reading, hqueue, fun pw hpw => (hfs pw hpw).1,
    fun hc => hsends.carried hc fun pw hpw => (hfs pw hpw).1.sessionFrame, ?_, ?_, ?_⟩
  · rw [hwaiting, List.map_append, h.posted, hn, List.map_map]
    exact congrArg _ (List.map_id _)
  · intro t ht
    rw [hwaiting] at ht
    rcases List.mem_append.mp ht with ht | ht
    · exact Or.inl ht
    · obtain ⟨t', ht', rfl⟩ := List.mem_map.mp ht
      exact Or.inr (List.eq_of_mem_replicate ht')
  · have hstops : ((List.replicate n .stop).map fun t => (who, t)).filterMap
        (fun t : Option Nat × SessionTask => taskSyn t.2) = [] := by
      rw [List.filterMap_map, List.filterMap_eq_nil_iff]
      intro t ht
      rw [List.eq_of_mem_replicate ht]
      rfl
    unfold syns
    rw [hwaiting, put_line_self, hqueue, List.filterMap_append, List.filterMap_append, hstops,
      filterMap_synId fs who fun pw hpw => (hfs pw hpw).2, List.append_nil, List.append_nil]

/-- The task posted first has run, and it sent the frames `fs`. -/
theorem Sends.keeps {t : SessionTask} {rest : List SessionTask} {fs : List PendingFrame}
    (h : Sends { run.pair x with posted := rest } s' fs) (hp : (run.pair x).posted = t :: rest)
    (hw : run.waiting x = (who, t) :: w) (hrest : w.map Prod.snd = rest)
    (hposted : s'.posted = rest) (hqueue : s'.writeQueue = (run.pair x).writeQueue ++ fs)
    (hsigned : ∀ pw ∈ fs, Signed (ids (run.pair x)) ⟨who, pw.frame⟩)
    (hsyn : fs.filterMap (fun pw => synId pw.frame) = (taskSyn t).toList) :
    Keeps run x s' who w fs := by
  have hwaiting : (run.put x s' who w).waiting x = w := by
    rw [put_waiting_self, hposted, hp]
    show w ++ (rest.drop (rest.length + 1)).map _ = w
    rw [List.drop_eq_nil_of_le (Nat.le_succ _), List.map_nil, List.append_nil]
  have hdrop : s'.writeQueue.drop (run.pair x).writeQueue.length = fs := by
    rw [hqueue, List.drop_left]
  refine ⟨h.sameIds, h.table, h.reading, hdrop, hsigned, fun hc => ?_, ?_, fun t ht => ?_, ?_⟩
  · exact h.carried (hc.congr rfl rfl rfl rfl rfl) fun pw hpw => (hsigned pw hpw).sessionFrame
  · rw [hwaiting, hrest, hposted]
  · rw [hwaiting] at ht
    rw [hw]
    exact Or.inl (List.mem_cons_of_mem _ ht)
  · -- a SYN goes from the front of what is posted to the end of the line
    unfold syns
    rw [hwaiting, put_line_self, hdrop, hw, List.filterMap_append, List.filterMap_map,
      List.append_assoc]
    refine congrArg _ ?_
    show fs.filterMap (fun pw => synId pw.frame) ++ _ = _
    rw [hsyn]
    cases hsome : taskSyn t with
    | none => exact (List.filterMap_cons_none (a := (who, t)) hsome).symm
    | some i => exact (List.filterMap_cons_some (a := (who, t)) hsome).symm

/-- What was posted first is sent, or the session stops. -/
theorem keeps_runPosted (h : IdInv run) (hstep : (run.pair x).step .runPosted = some s') :
    ∃ fs, Keeps run x s' ((run.waiting x).head?.bind Prod.fst) (run.waiting x).tail fs := by
  have hposted := h.posted x
  simp only [Session.step] at hstep
  split at hstep
  · cases hstep
  · rename_i pw rest hp
    have hs' := Option.some.inj hstep
    rw [hp] at hposted
    obtain ⟨⟨who, t⟩, w, hw, rfl, hrest⟩ := List.map_eq_cons_iff.mp hposted
    have hsends := sends_asyncSendFrame { run.pair x with posted := rest } pw
    have hsame := Pair.asyncSendFrame_same { run.pair x with posted := rest } pw
    have hqueue := asyncSendFrame_writeQueue { run.pair x with posted := rest } pw
    rw [hs'] at hsends hsame hqueue
    have hsigned := h.waiting x who pw (by rw [hw]; exact List.mem_cons_self)
    rw [hw]
    refine ⟨[pw], hsends.keeps hp hw hrest hsame.posted hqueue (fun g hg => ?_) ?_⟩
    · rw [List.mem_singleton.mp hg]
      exact hsigned
    · show [pw].filterMap _ = (synId pw.frame).toList
      cases hsyn : synId pw.frame with
      | none => exact List.filterMap_cons_none hsyn
      | some i => exact List.filterMap_cons_some hsyn
  · rename_i rest hp
    have hs' := Option.some.inj hstep
    rw [hp] at hposted
    obtain ⟨⟨who, t⟩, w, hw, rfl, hrest⟩ := List.map_eq_cons_iff.mp hposted
    obtain ⟨fs, hsends, hqueue, hfs⟩ := queues_stop { run.pair x with posted := rest } none
    have hposted' := stop_posted { run.pair x with posted := rest } none
    rw [hs'] at hsends hqueue hposted'
    -- nobody's strand runs, so nobody sends
    obtain rfl : fs = [] := by
      cases fs with
      | nil => rfl
      | cons pw fs =>
          obtain ⟨o, i, ho, -⟩ := hfs pw List.mem_cons_self
          cases ho
    rw [hw]
    exact ⟨[], hsends.keeps hp hw hrest hposted' hqueue
      (fun g hg => absurd hg List.not_mem_nil) rfl⟩

/-! ## A new stream -/

/-- The session has one object more, and its SYN is queued or posted. -/
structure Opens (s s' : Session) (i : UInt32) (fs : List PendingFrame) (ps : List SessionTask) :
    Prop where
  sameIds : ids s' = ids s ++ [i]
  table : ∀ j o, s'.streams.lookup j = some o →
    j = i ∧ o = s.objs.length ∨ s.streams.lookup j = some o
  reading : s'.reading = s.reading
  queue : s'.writeQueue = s.writeQueue ++ fs
  posted : s'.posted = s.posted ++ ps
  syn : fs = [⟨synFrame i, .none⟩] ∧ ps = [] ∨ fs = [] ∧ ps = [.sendFrame ⟨synFrame i, .none⟩]
  carried : ∀ {r line}, Carried r s line → Carried r s' (line ++ fs.map Pair.asReceived)

theorem opens_openStream (s : Session) (onStrand : Bool) :
    ∃ fs ps, Opens s (s.openStream onStrand) s.nextStreamId fs ps := by
  have htable : ∀ j o,
      (Pair.addObj s (s.nextStreamId + 2) s.nextStreamId).streams.lookup j = some o →
      j = s.nextStreamId ∧ o = s.objs.length ∨ s.streams.lookup j = some o := by
    intro j o ho
    have ho' : (s.streams.insert s.nextStreamId s.objs.length).lookup j = some o := ho
    rw [Table.lookup_insert_if] at ho'
    split at ho'
    · rename_i hj
      exact Or.inl ⟨hj, (Option.some.inj ho').symm⟩
    · exact Or.inr ho'
  have hids : ids (Pair.addObj s (s.nextStreamId + 2) s.nextStreamId) = ids s ++ [s.nextStreamId] :=
    List.map_append
  cases onStrand with
  | true =>
      have hsends := sends_asyncSendFrame (Pair.addObj s (s.nextStreamId + 2) s.nextStreamId)
        ⟨synFrame s.nextStreamId, .none⟩
      have hsame := Pair.asyncSendFrame_same (Pair.addObj s (s.nextStreamId + 2) s.nextStreamId)
        ⟨synFrame s.nextStreamId, .none⟩
      refine ⟨[⟨synFrame s.nextStreamId, .none⟩], [], hsends.sameIds.trans hids,
        fun j o ho => htable j o (hsends.table j o ho), hsame.reading,
        asyncSendFrame_writeQueue _ _, ?_, Or.inl ⟨rfl, rfl⟩, fun hc => ?_⟩
      · rw [List.append_nil]
        exact hsame.posted
      · refine hsends.carried (hc.congr rfl rfl rfl rfl rfl) fun pw hpw => ?_
        rw [List.mem_singleton.mp hpw]
        exact .control (.syn _)
  | false =>
      refine ⟨[], [.sendFrame ⟨synFrame s.nextStreamId, .none⟩], hids, htable, rfl,
        (List.append_nil _).symm, rfl, Or.inr ⟨rfl, rfl⟩, fun hc => ?_⟩
      rw [List.map_nil, List.append_nil]
      exact hc.congr rfl rfl rfl rfl rfl

theorem IdInv.syn_known (h : IdInv run) {i : UInt32} (hi : i ∈ run.syns x) :
    i ∈ ids (run.pair x) := by
  have hsigned : ∀ g : Sent, Signed (ids (run.pair x)) g → synId g.frame = some i →
      i ∈ ids (run.pair x) := by
    intro g hg hsyn
    cases hg with
    | stream _ hf =>
        rw [synId_stream hf] at hsyn
        cases hsyn
    | syn ho =>
        obtain rfl := Option.some.inj hsyn
        exact List.mem_of_getElem? ho
    | ack _ => cases hsyn
    | ping => cases hsyn
    | pong => cases hsyn
  rcases List.mem_append.mp hi with hi | hi
  · obtain ⟨g, hg, hsyn⟩ := List.mem_filterMap.mp hi
    exact hsigned g (h.signed x g hg) hsyn
  · obtain ⟨⟨who, t⟩, ht, hsyn⟩ := List.mem_filterMap.mp hi
    cases t with
    | sendFrame pw => exact hsigned _ (h.waiting x who pw ht) hsyn
    | stop => cases hsyn

/-- Nobody has an identifier that was never opened. -/
theorem IdInv.unused (h : IdInv run) {i : UInt32} (hx : i ∉ run.opened x)
    (hy : i ∉ run.opened !x) : ∀ y, i ∉ ids (run.pair y) := by
  intro y hi
  have hknown := h.known y i hi
  rcases Bool.eq_or_eq_not y x with rfl | rfl
  · exact hknown.elim hx hy
  · rw [Bool.not_not] at hknown
    exact hknown.elim hy hx

theorem getElem?_newest (s : Session) (i : UInt32) : (ids s ++ [i])[s.objs.length]? = some i := by
  have hlen : s.objs.length = (ids s).length := (List.length_map _).symm
  rw [hlen, List.getElem?_concat_length]

theorem getElem?_concat {l : List UInt32} {i j : UInt32} {o : Nat}
    (h : (l ++ [i])[o]? = some j) : l[o]? = some j ∨ o = l.length ∧ j = i := by
  rw [List.getElem?_append] at h
  split at h
  · exact Or.inl h
  · rename_i hle
    obtain ⟨hlt, heq⟩ := List.getElem?_eq_some_iff.mp h
    rw [List.length_singleton] at hlt
    refine Or.inr ⟨by omega, ?_⟩
    rw [List.getElem_singleton] at heq
    exact heq.symm

theorem Opens.inv {i : UInt32} {fs : List PendingFrame} {ps : List SessionTask}
    (ho : Opens (run.pair x) s' i fs ps) (h : IdInv run) (hx : i ∉ run.opened x)
    (hy : i ∉ run.opened !x) :
    IdInv { run.put x s' (some (run.pair x).objs.length) (run.waiting x) with
      opened := Function.update run.opened x (run.opened x ++ [i]) } := by
  have hnew := h.unused hx hy
  let new := some (run.pair x).objs.length
  let run' : IdRun := { run.put x s' new (run.waiting x) with
    opened := Function.update run.opened x (run.opened x ++ [i]) }
  show IdInv run'
  have hpair : run'.pair x = s' := Function.update_self ..
  have hpair' : run'.pair (!x) = run.pair !x := Function.update_of_ne (Pair.not_ne_self x) ..
  have hids : ids (run'.pair x) = ids (run.pair x) ++ [i] := by rw [hpair, ho.sameIds]
  have hat : (ids (run.pair x) ++ [i])[(run.pair x).objs.length]? = some i := getElem?_newest ..
  have hline : run'.line x = run.line x ++ fs.map fun pw => ⟨new, pw.frame⟩ := by
    show (run.put x s' new (run.waiting x)).line x = _
    rw [put_line_self, ho.queue, List.drop_left]
  have hline' : run'.line (!x) = run.line !x := Function.update_of_ne (Pair.not_ne_self x) ..
  have hwaiting : run'.waiting x = run.waiting x ++ ps.map fun t => (new, t) := by
    show (run.put x s' new (run.waiting x)).waiting x = _
    rw [put_waiting_self, ho.posted, List.drop_left]
  have hwaiting' : run'.waiting (!x) = run.waiting !x :=
    Function.update_of_ne (Pair.not_ne_self x) ..
  have hsyns : List.Perm (run'.syns x) (i :: run.syns x) := by
    unfold syns
    rw [hline, hwaiting, List.filterMap_append, List.filterMap_append]
    rcases ho.syn with ⟨rfl, rfl⟩ | ⟨rfl, rfl⟩
    · show List.Perm (_ ++ [i] ++ (_ ++ [])) _
      rw [List.append_nil, List.append_assoc]
      exact List.perm_middle
    · show List.Perm (_ ++ [] ++ (_ ++ [i])) _
      rw [List.append_nil, ← List.append_assoc]
      exact List.perm_append_singleton _ _
  have hsyns' : run'.syns (!x) = run.syns !x := by
    unfold syns
    rw [hline', hwaiting']
  have hopened : ∀ y j, j ∈ run.opened y → j ∈ run'.opened y := by
    intro y j hj
    rcases Bool.eq_or_eq_not y x with rfl | rfl
    · show j ∈ Function.update run.opened y (run.opened y ++ [i]) y
      rw [Function.update_self]
      exact List.mem_append_left _ hj
    · show j ∈ Function.update run.opened x (run.opened x ++ [i]) (!x)
      rw [Function.update_of_ne (Pair.not_ne_self x)]
      exact hj
  have hlast : Signed (ids (run.pair x) ++ [i]) ⟨new, synFrame i⟩ := .syn (hat)
  constructor
  case signed =>
    intro y g hg
    rcases Bool.eq_or_eq_not y x with rfl | rfl
    · rw [hids]
      rw [hline] at hg
      rcases List.mem_append.mp hg with hg | hg
      · exact (h.signed y g hg).mono [i]
      · obtain ⟨pw, hpw, rfl⟩ := List.mem_map.mp hg
        rcases ho.syn with ⟨rfl, -⟩ | ⟨rfl, -⟩
        · rw [List.mem_singleton.mp hpw]
          exact hlast
        · cases hpw
    · rw [hpair']
      rw [hline'] at hg
      exact h.signed _ g hg
  case posted =>
    intro y
    rcases Bool.eq_or_eq_not y x with rfl | rfl
    · rw [hwaiting, hpair, ho.posted, List.map_append, h.posted, List.map_map]
      exact congrArg _ (List.map_id _)
    · rw [hwaiting', hpair']
      exact h.posted _
  case waiting =>
    intro y who' pw ht
    rcases Bool.eq_or_eq_not y x with rfl | rfl
    · rw [hids]
      rw [hwaiting] at ht
      rcases List.mem_append.mp ht with ht | ht
      · exact (h.waiting y who' pw ht).mono [i]
      · rcases ho.syn with ⟨-, rfl⟩ | ⟨-, rfl⟩
        · cases ht
        · obtain ⟨rfl, hpw⟩ := Prod.mk.inj (List.mem_singleton.mp ht)
          rw [SessionTask.sendFrame.inj hpw]
          exact hlast
    · rw [hpair']
      rw [hwaiting'] at ht
      exact h.waiting _ who' pw ht
  case carried =>
    intro y hreading
    rcases Bool.eq_or_eq_not y x with rfl | rfl
    · rw [hpair'] at hreading ⊢
      rw [hpair, hline, List.map_append, List.map_map]
      exact ho.carried (h.carried y hreading)
    · have hc := h.carried !x
      rw [Bool.not_not] at hc hreading ⊢
      rw [hpair, ho.reading] at hreading ⊢
      rw [hpair', hline']
      exact hc hreading
  case nodup =>
    intro y
    rcases Bool.eq_or_eq_not y x with rfl | rfl
    · rw [hids]
      exact List.nodup_append_comm.mp (List.nodup_cons.mpr ⟨hnew y, h.nodup y⟩)
    · rw [hpair']
      exact h.nodup _
  case table =>
    intro y j o hl
    rcases Bool.eq_or_eq_not y x with rfl | rfl
    · rw [hids]
      rw [hpair] at hl
      rcases ho.table j o hl with ⟨rfl, rfl⟩ | hl
      · exact hat
      · have hold := h.table y j o hl
        rw [List.getElem?_append_left (List.getElem?_eq_some_iff.mp hold).1, hold]
    · rw [hpair'] at hl ⊢
      exact h.table _ j o hl
  case once =>
    intro y
    rcases Bool.eq_or_eq_not y x with rfl | rfl
    · -- no session has the new identifier, so no SYN for it was sent before
      refine hsyns.nodup_iff.mpr (List.nodup_cons.mpr ⟨fun hi => hnew y (h.syn_known hi), h.once y⟩)
    · rw [hsyns']
      exact h.once _
  case unknown =>
    intro y j hj
    rcases Bool.eq_or_eq_not y x with rfl | rfl
    · rw [hpair']
      -- the new SYN is for a stream that nobody but its sender has
      rcases List.mem_cons.mp (hsyns.mem_iff.mp hj) with rfl | hj
      · exact hnew _
      · exact h.unknown y j hj
    · rw [hsyns'] at hj
      have hold := h.unknown (!x) j hj
      rw [Bool.not_not] at hold ⊢
      rw [hids]
      intro hmem
      rcases List.mem_append.mp hmem with hmem | hmem
      · exact hold hmem
      · -- a SYN of the other session for the new identifier would be of a stream it has
        rw [List.mem_singleton.mp hmem] at hj
        exact hnew _ (h.syn_known hj)
  case known =>
    intro y j hj
    rcases Bool.eq_or_eq_not y x with rfl | rfl
    · rw [hids] at hj
      rcases List.mem_append.mp hj with hj | hj
      · exact (h.known y j hj).imp (hopened _ j) (hopened _ j)
      · refine Or.inl ?_
        show j ∈ Function.update run.opened y (run.opened y ++ [i]) y
        rw [Function.update_self]
        exact List.mem_append_right _ hj
    · rw [hpair'] at hj
      exact (h.known _ j hj).imp (hopened _ j) (hopened _ j)
  case peers =>
    -- the other session has no object with the new identifier
    intro y o o' j hj hj'
    rcases Bool.eq_or_eq_not y x with rfl | rfl
    · rw [hids] at hj
      rw [hpair'] at hj'
      rcases getElem?_concat hj with hj | ⟨-, rfl⟩
      · exact h.peers y o o' j hj hj'
      · exact absurd (List.mem_of_getElem? hj') (hnew _)
    · rw [hpair'] at hj
      rw [Bool.not_not, hids] at hj'
      rcases getElem?_concat hj' with hj' | ⟨-, rfl⟩
      · refine h.peers (!x) o o' j hj ?_
        rw [Bool.not_not]
        exact hj'
      · exact absurd (List.mem_of_getElem? hj) (hnew _)
  case passed => exact h.passed

/-! ## A frame that is received -/

theorem Carried.wire (h : Carried r s line) :
    EncodedFrom r s.wire ∧ parseFrom r s.wire <+: line := by
  rcases h with ⟨-, hout, hflight⟩ | ⟨-, hwire⟩
  · refine ⟨hout.wire, ?_⟩
    rw [← hflight]
    exact List.prefix_append _ _
  · exact hwire

/-- What was read leaves the wire and the line. -/
theorem Carried.read {r' : Reading} {left : List Byte} {line' : List (Header × List Byte)}
    (h : Carried r s line) (got : List (Header × List Byte)) (hwire : EncodedFrom r' left)
    (hparse : parseFrom r s.wire = got ++ parseFrom r' left) (hline : line = got ++ line') :
    Carried r' { s with wire := left } line' := by
  rcases h with ⟨hrun, hout, hflight⟩ | ⟨hdead, -, hprefix⟩
  · refine Or.inl ⟨hrun, ⟨hout.isWriting, hout.busy, hout.idle, hout.queued, hwire⟩, ?_⟩
    rw [Pair.flight, hparse, hline, List.append_assoc] at hflight
    exact List.append_cancel_left hflight
  · refine Or.inr ⟨hdead, hwire, ?_⟩
    rw [hparse, hline] at hprefix
    exact (List.prefix_append_right_inj _).mp hprefix

theorem nextRead_cases {e : Session.Event} {left : List Byte} {p : Pair}
    (hnext : p.nextRead x = some (e, left)) :
    (p x).reading = .header ∧ Header.size ≤ (p !x).wire.length ∧
        e = .recvHeader ((p !x).wire.take Header.size) ∨
      ∃ h, (p x).reading = .body h ∧ ∃ body, e = .recvBody body := by
  rw [Pair.nextRead] at hnext
  split at hnext
  · rename_i hreading
    split at hnext
    · rename_i hsize
      exact Or.inl ⟨hreading, hsize, (Prod.mk.inj (Option.some.inj hnext)).1.symm⟩
    · cases hnext
  · rename_i h hreading
    split at hnext
    · exact Or.inr ⟨h, hreading, _, (Prod.mk.inj (Option.some.inj hnext)).1.symm⟩
    · cases hnext
  · cases hnext

/-- The read completes a frame exactly when the next read is of a header. -/
theorem frameRead_reading {e : Session.Event} {left : List Byte} {p : Pair}
    (hrun : (p x).stopped = false) (hnext : p.nextRead x = some (e, left))
    (hstep : (p x).step e = some s') :
    (frameRead (p x) e).isSome = true ↔ s'.reading = .header := by
  have hgo : ¬(p x).stopped = true := by
    rw [hrun]
    exact Bool.false_ne_true
  unfold frameRead
  rw [if_neg hgo]
  rcases nextRead_cases hnext with ⟨-, -, rfl⟩ | ⟨h, hreading, body, rfl⟩
  · simp only [Session.step] at hstep
    split at hstep
    · rw [← Option.some.inj hstep]
      unfold headerRead
      rw [if_neg hgo]
      simp only
      by_cases hbody : (Header.decode ((p !x).wire.take Header.size)).type = FrameType.data ∧
          (Header.decode ((p !x).wire.take Header.size)).length > 0
      · rw [if_pos hbody, if_pos hbody]
        refine ⟨fun hsome => (by cases hsome), fun hreading => ?_⟩
        split at hreading
        · cases hreading
        · cases hreading
      · rw [if_neg hbody, if_neg hbody]
        exact ⟨fun _ => rfl, fun _ => rfl⟩
    · cases hstep
  · simp only [Session.step, hreading] at hstep ⊢
    split at hstep
    · rw [← Option.some.inj hstep]
      unfold bodyRead
      rw [if_neg hgo]
      exact ⟨fun _ => rfl, fun _ => rfl⟩
    · cases hstep

/-- It is the frame the parser finds. -/
theorem frameRead_parse {e : Session.Event} {left : List Byte} {p : Pair} {h : Header}
    (hnext : p.nextRead x = some (e, left)) (hread : frameRead (p x) e = some h)
    {f : Header × List Byte} {rest : List (Header × List Byte)}
    (hparse : parseFrom (p x).reading (p !x).wire = f :: rest) : f.1 = h := by
  unfold frameRead at hread
  split at hread
  · cases hread
  · rcases nextRead_cases hnext with ⟨hreading, hsize, rfl⟩ | ⟨hd, hreading, body, rfl⟩
    · simp only at hread
      split at hread
      · cases hread
      · rw [hreading, parseFrom, parseFrames, if_neg (Nat.not_lt.mpr hsize)] at hparse
        rw [← Option.some.inj hread]
        exact (congrArg Prod.fst (List.cons.inj hparse).1).symm
    · simp only [hreading] at hread
      rw [hreading] at hparse
      rw [← Option.some.inj hread]
      exact (congrArg Prod.fst (List.cons.inj hparse).1).symm

/-- Session `x` has received the first frame `g` of the line to it, and posted `ps`. It has a
new object if `g` is a SYN. -/
structure Receives (run run' : IdRun) (x : Bool) (left : List Byte) (g : Sent) (tail : List Sent)
    (new : Option Nat) (ps : List SessionTask) (cs qs : List (Nat × Option Nat)) : Prop where
  other : run'.pair (!x) = { run.pair !x with wire := left }
  sameIds : ids (run'.pair x) = ids (run.pair x) ++ (synId g.frame).toList
  table : ∀ j o, (run'.pair x).streams.lookup j = some o → (ids (run'.pair x))[o]? = some j
  output : ∀ {r line}, Carried r (run.pair x) line → Carried r (run'.pair x) line
  posted : (run'.pair x).posted = (run.pair x).posted ++ ps
  waiting : run'.waiting x = run.waiting x ++ ps.map fun t => (new, t)
  waitingOther : run'.waiting (!x) = run.waiting !x
  line : run'.line x = run.line x
  before : run.line (!x) = g :: tail
  after : run'.line (!x) = tail
  answer : ∀ t ∈ ps, ∃ pw, t = .sendFrame pw ∧ Signed (ids (run'.pair x)) ⟨new, pw.frame⟩ ∧
    synId pw.frame = none
  carried : Carried (run'.pair x).reading (run'.pair !x) (tail.map Sent.seen)
  opened : run'.opened = run.opened
  created : run'.created = Function.update run.created x (run.created x ++ cs)
  passed : run'.passed = Function.update run.passed x (run.passed x ++ qs)
  peer : ∀ i ∈ (synId g.frame).toList, ∀ o', (ids (run.pair !x))[o']? = some i →
    ((run.pair x).objs.length, some o') ∈ cs
  addressee : ∀ q ∈ qs, ∃ o', q.2 = some o' ∧ run'.Peers x q.1 o'

variable {run' : IdRun} {left : List Byte} {g : Sent} {tail : List Sent} {new : Option Nat}
variable {ps : List SessionTask} {cs qs : List (Nat × Option Nat)}

theorem Peers.symm {o o' : Nat} (h : run.Peers x o o') : run.Peers (!x) o' o := by
  unfold Peers at *
  rw [Bool.not_not]
  exact h.symm

/-- Who was made for whom is not forgotten. -/
theorem peers_mono (hcreated : run'.created = Function.update run.created x (run.created x ++ cs))
    {y : Bool} {o o' : Nat} (h : run.Peers y o o') : run'.Peers y o o' := by
  have hmono : ∀ z q, q ∈ run.created z → q ∈ run'.created z := by
    intro z q hq
    rw [hcreated]
    by_cases hz : z = x
    · rw [hz, Function.update_self]
      rw [hz] at hq
      exact List.mem_append_left _ hq
    · rw [Function.update_of_ne hz]
      exact hq
  exact h.imp (hmono _ _) (hmono _ _)

theorem Receives.syns_self (hg : Receives run run' x left g tail new ps cs qs) :
    run'.syns x = run.syns x := by
  have hno : (ps.map fun t => (new, t)).filterMap
      (fun t : Option Nat × SessionTask => taskSyn t.2) = [] := by
    rw [List.filterMap_map, List.filterMap_eq_nil_iff]
    intro t ht
    obtain ⟨pw, rfl, -, hsyn⟩ := hg.answer t ht
    exact hsyn
  unfold syns
  rw [hg.line, hg.waiting, List.filterMap_append, hno, List.append_nil]

theorem Receives.syns_other (hg : Receives run run' x left g tail new ps cs qs) :
    run.syns (!x) = (synId g.frame).toList ++ run'.syns !x := by
  unfold syns
  rw [hg.before, hg.after, hg.waitingOther, ← List.append_assoc]
  refine congrArg (· ++ _) ?_
  cases hsyn : synId g.frame with
  | none => exact List.filterMap_cons_none hsyn
  | some i => exact List.filterMap_cons_some hsyn

/-- The SYN was for a stream that the session did not have. -/
theorem Receives.fresh (hg : Receives run run' x left g tail new ps cs qs) (h : IdInv run)
    {i : UInt32} (hi : i ∈ (synId g.frame).toList) :
    i ∉ ids (run.pair x) ∧ i ∈ ids (run.pair !x) ∧ i ∉ run'.syns !x := by
  have hmem : i ∈ run.syns !x := by
    rw [hg.syns_other]
    exact List.mem_append_left _ hi
  have hunknown := h.unknown (!x) i hmem
  have honce := h.once !x
  rw [Bool.not_not] at hunknown
  rw [hg.syns_other] at honce
  exact ⟨hunknown, h.syn_known hmem, List.disjoint_of_nodup_append honce hi⟩

theorem Receives.ids_other (hg : Receives run run' x left g tail new ps cs qs) :
    ids (run'.pair !x) = ids (run.pair !x) := by
  rw [hg.other]
  rfl

/-- The object that a SYN makes is the peer of the one that sent it. -/
theorem Receives.peers_self (hg : Receives run run' x left g tail new ps cs qs) (h : IdInv run)
    {o o' : Nat} {j : UInt32} (hj : (ids (run'.pair x))[o]? = some j)
    (hj' : (ids (run'.pair !x))[o']? = some j) : run'.Peers x o o' := by
  rw [hg.sameIds, List.getElem?_append] at hj
  rw [hg.ids_other] at hj'
  split at hj
  · exact peers_mono hg.created (h.peers x o o' j hj hj')
  · rename_i hle
    have hmem := List.mem_of_getElem? hj
    have hlen : (run.pair x).objs.length = (ids (run.pair x)).length := (List.length_map _).symm
    have hcs := hg.peer j hmem o' hj'
    have ho : o = (run.pair x).objs.length := by
      have hlt := (List.getElem?_eq_some_iff.mp hj).1
      have hone : (synId g.frame).toList.length ≤ 1 := by
        cases synId g.frame with
        | none => exact Nat.zero_le _
        | some i => exact Nat.le_refl _
      omega
    refine Or.inl ?_
    rw [hg.created, Function.update_self, ho]
    exact List.mem_append_right _ hcs

theorem Receives.inv (hg : Receives run run' x left g tail new ps cs qs) (h : IdInv run) :
    IdInv run' := by
  have hother := hg.ids_other
  constructor
  case signed =>
    intro y f hf
    rcases Bool.eq_or_eq_not y x with rfl | rfl
    · rw [hg.line] at hf
      rw [hg.sameIds]
      exact (h.signed y f hf).mono _
    · rw [hg.after] at hf
      rw [hother]
      exact h.signed _ f (by rw [hg.before]; exact List.mem_cons_of_mem _ hf)
  case posted =>
    intro y
    rcases Bool.eq_or_eq_not y x with rfl | rfl
    · rw [hg.waiting, hg.posted, List.map_append, h.posted, List.map_map]
      exact congrArg _ (List.map_id _)
    · rw [hg.waitingOther, hg.other]
      exact h.posted _
  case waiting =>
    intro y who' pw ht
    rcases Bool.eq_or_eq_not y x with rfl | rfl
    · rw [hg.waiting] at ht
      rcases List.mem_append.mp ht with ht | ht
      · rw [hg.sameIds]
        exact (h.waiting y who' pw ht).mono _
      · obtain ⟨t, htps, heq⟩ := List.mem_map.mp ht
        obtain ⟨pw', rfl, hsigned, -⟩ := hg.answer t htps
        obtain ⟨rfl, hpw⟩ := Prod.mk.inj heq
        rw [SessionTask.sendFrame.inj hpw] at hsigned
        exact hsigned
    · rw [hg.waitingOther] at ht
      rw [hother]
      exact h.waiting _ who' pw ht
  case carried =>
    intro y hreading
    rcases Bool.eq_or_eq_not y x with rfl | rfl
    · rw [hg.line]
      rw [hg.other] at hreading ⊢
      exact hg.output (h.carried y hreading)
    · rw [Bool.not_not, hg.after]
      exact hg.carried
  case nodup =>
    intro y
    rcases Bool.eq_or_eq_not y x with rfl | rfl
    · rw [hg.sameIds]
      cases hsyn : synId g.frame with
      | none =>
          rw [Option.toList_none, List.append_nil]
          exact h.nodup y
      | some i =>
          -- the session did not have the stream of the SYN
          have hi : i ∈ (synId g.frame).toList := by
            rw [hsyn]
            exact List.mem_singleton_self i
          exact List.nodup_append_comm.mp (List.nodup_cons.mpr ⟨(hg.fresh h hi).1, h.nodup y⟩)
    · rw [hother]
      exact h.nodup _
  case table =>
    intro y j o hl
    rcases Bool.eq_or_eq_not y x with rfl | rfl
    · exact hg.table j o hl
    · rw [hother]
      rw [hg.other] at hl
      exact h.table _ j o hl
  case once =>
    intro y
    rcases Bool.eq_or_eq_not y x with rfl | rfl
    · rw [hg.syns_self]
      exact h.once y
    · have honce := h.once !x
      rw [hg.syns_other] at honce
      exact honce.of_append_right
  case unknown =>
    intro y j hj
    rcases Bool.eq_or_eq_not y x with rfl | rfl
    · rw [hg.syns_self] at hj
      rw [hother]
      exact h.unknown y j hj
    · rw [Bool.not_not, hg.sameIds]
      intro hmem
      rcases List.mem_append.mp hmem with hmem | hmem
      · have hold := h.unknown (!x) j (by rw [hg.syns_other]; exact List.mem_append_right _ hj)
        rw [Bool.not_not] at hold
        exact hold hmem
      · -- each stream has one SYN, and this was it
        exact (hg.fresh h hmem).2.2 hj
  case known =>
    intro y j hj
    rw [hg.opened]
    rcases Bool.eq_or_eq_not y x with rfl | rfl
    · rw [hg.sameIds] at hj
      rcases List.mem_append.mp hj with hj | hj
      · exact h.known y j hj
      · -- the sender of the SYN has the stream, so one of the two opened it
        have hold := h.known (!y) j (hg.fresh h hj).2.1
        rw [Bool.not_not] at hold
        exact hold.symm
    · rw [hother] at hj
      exact h.known _ j hj
  case peers =>
    intro y o o' j hj hj'
    rcases Bool.eq_or_eq_not y x with rfl | rfl
    · exact hg.peers_self h hj hj'
    · rw [Bool.not_not] at hj'
      exact (hg.peers_self h hj' hj).symm
  case passed =>
    intro y q hq
    rw [hg.passed] at hq
    rcases Bool.eq_or_eq_not y x with rfl | rfl
    · rw [Function.update_self] at hq
      rcases List.mem_append.mp hq with hq | hq
      · obtain ⟨o', heq, hp⟩ := h.passed y q hq
        exact ⟨o', heq, peers_mono hg.created hp⟩
      · -- the frame that was passed on now
        exact hg.addressee q hq
    · rw [Function.update_of_ne (Pair.not_ne_self x)] at hq
      obtain ⟨o', heq, hp⟩ := h.passed _ q hq
      exact ⟨o', heq, peers_mono hg.created hp⟩

/-- A read after which the session only reads on, or no more. -/
theorem IdInv.turn (h : IdInv run) (reading : Reading)
    (hc : reading ≠ .idle →
      Carried reading { run.pair !x with wire := left } ((run.line !x).map Sent.seen)) :
    IdInv { run with
      pair := Pair.afterRecv run.pair x (Pair.withReading (run.pair x) reading) left } := by
  let p' := Pair.afterRecv run.pair x (Pair.withReading (run.pair x) reading) left
  have hself : p' x = Pair.withReading (run.pair x) reading := Pair.afterRecv_self
  have hother : p' (!x) = { run.pair !x with wire := left } := Pair.afterRecv_not
  have hids : ∀ y, ids (p' y) = ids (run.pair y) := by
    intro y
    rcases Bool.eq_or_eq_not y x with rfl | rfl
    · rw [hself]
      rfl
    · rw [hother]
      rfl
  constructor
  case signed =>
    intro y
    rw [hids]
    exact h.signed y
  case posted =>
    intro y
    rcases Bool.eq_or_eq_not y x with rfl | rfl
    · show _ = (p' y).posted
      rw [hself]
      exact h.posted y
    · show _ = (p' !x).posted
      rw [hother]
      exact h.posted _
  case waiting =>
    intro y
    rw [hids]
    exact h.waiting y
  case carried =>
    intro y hreading
    rcases Bool.eq_or_eq_not y x with rfl | rfl
    · show Carried (p' !y).reading (p' y) _
      have hreading' : (p' !y).reading ≠ .idle := hreading
      rw [hother] at hreading' ⊢
      rw [hself]
      exact (h.carried y hreading').congr rfl rfl rfl rfl rfl
    · show Carried (p' !!x).reading (p' !x) _
      have hreading' : (p' !!x).reading ≠ .idle := hreading
      -- the reader itself goes on where the read has left it
      rw [Bool.not_not, hself] at hreading' ⊢
      rw [hother]
      exact hc hreading'
  case nodup =>
    intro y
    rw [hids]
    exact h.nodup y
  case table =>
    intro y j o hl
    rw [hids]
    refine h.table y j o ?_
    have hl' : (p' y).streams.lookup j = some o := hl
    rcases Bool.eq_or_eq_not y x with rfl | rfl
    · rw [hself] at hl'
      exact hl'
    · rw [hother] at hl'
      exact hl'
  case once => exact h.once
  case unknown =>
    intro y
    rw [hids]
    exact h.unknown y
  case known =>
    intro y
    rw [hids]
    exact h.known y
  case peers =>
    intro y
    rw [hids, hids]
    exact h.peers y
  case passed => exact h.passed

/-- A stopped session reads once more, and no frame. -/
theorem step_recv_stopped {e : Session.Event} {p : Pair} (hstop : (p x).stopped = true)
    (hnext : p.nextRead x = some (e, left)) (hstep : (p x).step e = some s') :
    frameRead (p x) e = none ∧ s' = Pair.withReading (p x) .idle := by
  refine ⟨if_pos hstop, ?_⟩
  rcases nextRead_cases hnext with ⟨-, -, rfl⟩ | ⟨h, hreading, body, rfl⟩
  · simp only [Session.step] at hstep
    split at hstep
    · rw [← Option.some.inj hstep]
      exact if_pos hstop
    · cases hstep
  · simp only [Session.step, hreading] at hstep
    split at hstep
    · rw [← Option.some.inj hstep]
      exact if_pos hstop
    · cases hstep

theorem newObj_none (h : ids s' = ids s) : newObj s s' = none := by
  have hlen : s'.objs.length = s.objs.length := by
    have heq := congrArg List.length h
    unfold ids at heq
    rwa [List.length_map, List.length_map] at heq
  exact if_neg (by omega)

theorem newObj_some {i : UInt32} (h : ids s' = ids s ++ [i]) :
    newObj s s' = some s.objs.length := by
  have hlen : s'.objs.length = s.objs.length + 1 := by
    have heq := congrArg List.length h
    rw [List.length_append, List.length_singleton] at heq
    unfold ids at heq
    rwa [List.length_map, List.length_map] at heq
  exact if_pos (by omega)

/-- What is left to show of a frame once it is known what `handle_frame` does with it. -/
theorem receives_take {hd : Header} {ps : List SessionTask} (hline : run.line (!x) = g :: tail)
    (hids : ids s' = ids (run.pair x) ++ (synId g.frame).toList)
    (htable : ∀ j o, s'.streams.lookup j = some o → (ids s')[o]? = some j)
    (houtput : ∀ {r line}, Carried r (run.pair x) line → Carried r s' line)
    (hposted : s'.posted = (run.pair x).posted ++ ps)
    (hanswer : ∀ t ∈ ps, ∃ pw, t = .sendFrame pw ∧
      Signed (ids s') ⟨newObj (run.pair x) s', pw.frame⟩ ∧ synId pw.frame = none)
    (hcarried : Carried s'.reading { run.pair !x with wire := left } (tail.map Sent.seen))
    (hpeer : ∀ i ∈ (synId g.frame).toList, ∀ o', (ids (run.pair !x))[o']? = some i →
      g.sender = some o')
    (haddressee : ∀ o, receiver (run.pair x) hd = some o → ∃ o', g.sender = some o' ∧
      (run.Peers x o o' ∨ newObj (run.pair x) s' = some o)) :
    ∃ cs qs, Receives run (run.take x hd (Pair.afterRecv run.pair x s' left)) x left g tail
      (newObj (run.pair x) s') ps cs qs := by
  let run' := run.take x hd (Pair.afterRecv run.pair x s' left)
  have hself : run'.pair x = s' := Pair.afterRecv_self
  have hother : run'.pair (!x) = { run.pair !x with wire := left } := Pair.afterRecv_not
  have hsender : (run.line !x).head?.bind Sent.sender = g.sender := by
    rw [hline]
    rfl
  let cs := (newObj (run.pair x) s').toList.map fun o => (o, g.sender)
  let qs := (receiver (run.pair x) hd).toList.map fun o => (o, g.sender)
  have hcreated : run'.created = Function.update run.created x (run.created x ++ cs) := by
    show Function.update run.created x (run.created x ++
      (newObj (run.pair x) (run'.pair x)).toList.map fun o =>
        (o, (run.line !x).head?.bind Sent.sender)) = _
    rw [hself, hsender]
  have hpassed : run'.passed = Function.update run.passed x (run.passed x ++ qs) := by
    show Function.update run.passed x (run.passed x ++
      (receiver (run.pair x) hd).toList.map fun o => (o, (run.line !x).head?.bind Sent.sender)) = _
    rw [hsender]
  have hwaiting : run'.waiting = Function.update run.waiting x
      (run.waiting x ++ ps.map fun t => (newObj (run.pair x) s', t)) := by
    show Function.update run.waiting x (run.waiting x ++
      ((run'.pair x).posted.drop (run.pair x).posted.length).map fun t =>
        (newObj (run.pair x) (run'.pair x), t)) = _
    rw [hself, hposted, List.drop_left]
  have htail : run'.line = Function.update run.line (!x) tail := by
    show Function.update run.line (!x) (run.line !x).tail = _
    rw [hline]
    rfl
  -- `cs` records who the new object was made for, `qs` whom the frame was passed to
  refine ⟨cs, qs, hother, ?_, ?_, ?_, ?_, ?_, ?_, ?_, hline, ?_, ?_, ?_, rfl, hcreated, hpassed,
    ?_, ?_⟩
  · rw [hself, hids]
  · rw [hself]
    exact htable
  · rw [hself]
    exact houtput
  · rw [hself, hposted]
  · rw [hwaiting, Function.update_self]
  · rw [hwaiting, Function.update_of_ne (Pair.not_ne_self x)]
  · rw [htail, Function.update_of_ne (Ne.symm (Pair.not_ne_self x))]
  · rw [htail, Function.update_self]
  · rw [hself]
    exact hanswer
  · rw [hself, hother]
    exact hcarried
  · intro i hi o' ho'
    rw [Option.mem_toList.mp hi] at hids
    show _ ∈ (newObj (run.pair x) s').toList.map _
    rw [newObj_some hids, hpeer i hi o' ho']
    exact List.mem_singleton_self _
  · intro q hq
    obtain ⟨o, ho, rfl⟩ := List.mem_map.mp hq
    obtain ⟨o', hsome, hp⟩ := haddressee o (Option.mem_toList.mp ho)
    refine ⟨o', hsome, ?_⟩
    -- a frame reaches an object that was there, or the one that it makes
    rcases hp with hp | hnew'
    · exact peers_mono hcreated hp
    · refine Or.inl ?_
      rw [hcreated, Function.update_self]
      refine List.mem_append_right _ ?_
      show _ ∈ (newObj (run.pair x) s').toList.map _
      rw [hnew', hsome]
      exact List.mem_singleton_self _

theorem receiver_none {hd : Header} (hl : s.streams.lookup hd.streamId = none)
    (hsyn : ¬(hd.type = FrameType.data ∧ hd.flags &&& Flags.syn ≠ 0)) : receiver s hd = none := by
  unfold receiver
  rw [Pair.streamFor_none hl hsyn]
  exact ite_self _

/-- A frame of a stream, or an ACK, is for the peer of its sender, if there is one still. -/
theorem IdInv.receiver_peer (h : IdInv run) {hd : Header} {o o' : Nat}
    (ho : (ids (run.pair !x))[o']? = some hd.streamId)
    (hsyn : ¬(hd.type = FrameType.data ∧ hd.flags &&& Flags.syn ≠ 0))
    (hr : receiver (run.pair x) hd = some o) : run.Peers x o o' := by
  cases hl : (run.pair x).streams.lookup hd.streamId with
  | none =>
      rw [receiver_none hl hsyn] at hr
      cases hr
  | some o₁ =>
      unfold receiver at hr
      split at hr
      · rw [Pair.streamFor_some hl] at hr
        obtain rfl := Option.some.inj hr
        exact h.peers x _ _ _ (h.table x _ _ hl) ho
      · cases hr

/-- A frame that makes no object, and is answered by a PONG at most. -/
theorem IdInv.take_quiet (h : IdInv run) (ps : List SessionTask)
    (hbefore : run.line (!x) = g :: tail)
    (hcarried : Carried s'.reading { run.pair !x with wire := left } (tail.map Sent.seen))
    (hto : ∀ o, receiver (run.pair x) g.frame.header = some o →
      ∃ o', g.sender = some o' ∧ run.Peers x o o')
    (hsyn : synId g.frame = none) (hids : ids s' = ids (run.pair x))
    (hstreams : s'.streams = (run.pair x).streams) (hposted : s'.posted = (run.pair x).posted ++ ps)
    (hps : ∀ t ∈ ps, t = .sendFrame ⟨pongFrame, .none⟩)
    (hout : ∀ {r line}, Carried r (run.pair x) line → Carried r s' line) :
    IdInv (run.take x g.frame.header (Pair.afterRecv run.pair x s' left)) := by
  have htable : ∀ j o, s'.streams.lookup j = some o → (ids s')[o]? = some j := by
    intro j o hl
    rw [hids]
    rw [hstreams] at hl
    exact h.table x j o hl
  obtain ⟨cs, qs, hg⟩ : ∃ cs qs, Receives run
      (run.take x g.frame.header (Pair.afterRecv run.pair x s' left)) x left g tail
      (newObj (run.pair x) s') ps cs qs := by
    refine receives_take hbefore ?_ htable hout hposted (fun t ht => ?_) hcarried (fun i hi => ?_)
      fun o ho => ?_
    · rw [hsyn, hids, Option.toList_none, List.append_nil]
    · rw [newObj_none hids]
      exact ⟨_, hps t ht, .pong, rfl⟩
    · rw [hsyn] at hi
      cases hi
    · obtain ⟨o', hsome, hp⟩ := hto o ho
      exact ⟨o', hsome, Or.inl hp⟩
  exact hg.inv h

/-- A SYN makes an object, which is answered by an ACK. -/
theorem IdInv.take_syn (h : IdInv run) {o' : Nat} {i : UInt32}
    (ho : (ids (run.pair !x))[o']? = some i)
    (hbefore : run.line (!x) = ⟨some o', synFrame i⟩ :: tail)
    (hs' : s' =
      Pair.withReading ((run.pair x).handleFrame (synFrame i).header (synFrame i).body) .header)
    (hcarried : Carried s'.reading { run.pair !x with wire := left } (tail.map Sent.seen)) :
    IdInv (run.take x (synFrame i).header (Pair.afterRecv run.pair x s' left)) := by
  have hsyn : i ∈ run.syns !x := by
    unfold syns
    rw [hbefore]
    exact List.mem_append_left _ List.mem_cons_self
  have hnew := h.unknown (!x) i hsyn
  rw [Bool.not_not] at hnew
  -- the receiver has no object with the identifier, so its table has none
  have hl : (run.pair x).streams.lookup i = none := by
    cases hl : (run.pair x).streams.lookup i with
    | none => rfl
    | some o => exact absurd (List.mem_of_getElem? (h.table x i o hl)) hnew
  rw [Pair.handleFrame_syn hl] at hs'
  have hids : ids s' = ids (run.pair x) ++ [i] := by
    rw [hs']
    exact List.map_append
  have hself : newObj (run.pair x) s' = some (run.pair x).objs.length := newObj_some hids
  have htable : ∀ j o, s'.streams.lookup j = some o → (ids s')[o]? = some j := by
    intro j o ho
    rw [hids]
    rw [hs'] at ho
    have ho' : ((run.pair x).streams.insert i (run.pair x).objs.length).lookup j = some o := ho
    rw [Table.lookup_insert_if] at ho'
    split at ho'
    · rename_i hj
      rw [hj, ← Option.some.inj ho']
      exact getElem?_newest ..
    · have hold := h.table x j o ho'
      rw [List.getElem?_append_left (List.getElem?_eq_some_iff.mp hold).1, hold]
  obtain ⟨cs, qs, hg⟩ : ∃ cs qs, Receives run
      (run.take x (synFrame i).header (Pair.afterRecv run.pair x s' left)) x left
      ⟨some o', synFrame i⟩ tail (newObj (run.pair x) s')
      [.sendFrame ⟨ackFrame i, .none⟩] cs qs := by
    refine receives_take hbefore hids htable (fun hc => ?_) ?_ (fun t ht => ?_) hcarried
      (fun j hj o'' ho'' => ?_) fun o hr => ⟨o', rfl, Or.inr ?_⟩
    · rw [hs']
      exact hc.congr rfl rfl rfl rfl rfl
    · rw [hs']
      rfl
    · refine ⟨_, List.mem_singleton.mp ht, ?_, rfl⟩
      rw [hself, hids]
      exact .ack (getElem?_newest ..)
    · -- the sender is the only object of the other session with that identifier
      obtain rfl := List.mem_singleton.mp hj
      have hlt := (List.getElem?_eq_some_iff.mp ho).1
      exact congrArg some ((List.getElem?_inj hlt (h.nodup _)).mp (ho.trans ho''.symm))
    · rw [hself]
      have hfor : receiver (run.pair x) (synFrame i).header =
          some (run.pair x).objs.length := by
        have ht : (synFrame i).header.type = FrameType.data ∨
            (synFrame i).header.type = FrameType.windowUpdate := Or.inl rfl
        unfold receiver
        rw [if_pos ht, Pair.streamFor_syn hl]
      exact hfor.symm.trans hr
  exact hg.inv h

/-- **A frame is received.** -/
theorem IdInv.take (h : IdInv run) {f : Frame} (hbefore : run.line (!x) = g :: tail)
    (hseen : g.seen = (f.header, f.body))
    (hs' : s' = Pair.withReading ((run.pair x).handleFrame f.header f.body) .header)
    (hcarried : Carried .header { run.pair !x with wire := left } (tail.map Sent.seen)) :
    IdInv (run.take x f.header (Pair.afterRecv run.pair x s' left)) := by
  obtain ⟨hheader, hbody⟩ := Prod.mk.inj hseen
  have hsigned := h.signed (!x) g (by rw [hbefore]; exact List.mem_cons_self)
  rw [← hheader, ← hbody] at hs'
  rw [← hheader]
  have hreading : s'.reading = .header := by rw [hs']; rfl
  rw [← hreading] at hcarried
  -- the frame changes nothing but the reading
  have hsame : (run.pair x).handleFrame g.frame.header g.frame.body = run.pair x →
      synId g.frame = none → (∀ o, receiver (run.pair x) g.frame.header = some o →
        ∃ o', g.sender = some o' ∧ run.Peers x o o') →
      IdInv (run.take x g.frame.header (Pair.afterRecv run.pair x s' left)) := by
    intro hhandle hsyn hto
    rw [hhandle] at hs'
    refine h.take_quiet [] hbefore hcarried hto hsyn ?_ ?_ ?_
      (fun t ht => absurd ht List.not_mem_nil) fun hc => ?_
    · rw [hs']
      rfl
    · rw [hs']
      rfl
    · rw [hs', List.append_nil]
      rfl
    · rw [hs']
      exact hc.congr rfl rfl rfl rfl rfl
  obtain ⟨who, frame⟩ := g
  cases hsigned with
  | @stream o' i _ ho hf =>
      -- what a stream sends is for the peer, if it is still in the table
      obtain ⟨ht, hnosyn⟩ := Pair.StreamFrame.kind hf
      have hid := (Pair.StreamFrame.arrivals_eq hf).1
      rw [← hid] at ho
      have hto : ∀ o, receiver (run.pair x) frame.header = some o →
          ∃ o'', some o' = some o'' ∧ run.Peers x o o'' := fun o hr =>
        ⟨o', rfl, h.receiver_peer ho hnosyn hr⟩
      cases hl : (run.pair x).streams.lookup frame.header.streamId with
      | none => exact hsame (Pair.handleFrame_dropped ht hl hnosyn) (synId_stream hf) hto
      | some o =>
          have hhandle : (run.pair x).handleFrame frame.header frame.body = _ :=
            Pair.handleFrame_data ht hl
          rw [hhandle] at hs'
          refine h.take_quiet [] hbefore hcarried hto (synId_stream hf) ?_ ?_ ?_
            (fun t ht => absurd ht List.not_mem_nil) fun hc => ?_
          · rw [hs']
            exact ids_modify fun _ _ => rfl
          · rw [hs']
            rfl
          · rw [hs', List.append_nil]
            rfl
          · rw [hs']
            exact hc.congr rfl rfl rfl rfl rfl
  | ack ho =>
      refine hsame (Pair.handleFrame_ack _) rfl fun o hr => ⟨_, rfl, h.receiver_peer ho ?_ hr⟩
      exact fun hsyn => hsyn.2 (by show Flags.ack &&& Flags.syn = 0; decide)
  | ping =>
      rw [Pair.handleFrame_ping] at hs'
      refine h.take_quiet [.sendFrame ⟨pongFrame, .none⟩] hbefore hcarried (fun o hr => ?_) rfl
        ?_ ?_ ?_ (fun t ht => List.mem_singleton.mp ht) fun hc => ?_
      · unfold receiver at hr
        rw [if_neg (by decide)] at hr
        cases hr
      · rw [hs']
        rfl
      · rw [hs']
        rfl
      · rw [hs']
        rfl
      · rw [hs']
        exact hc.congr rfl rfl rfl rfl rfl
  | pong =>
      refine hsame Pair.handleFrame_pong rfl fun o hr => ?_
      unfold receiver at hr
      rw [if_neg (by decide)] at hr
      cases hr
  | syn ho => exact h.take_syn ho hbefore hs' hcarried

theorem IdInv.recv (h : IdInv run) {e : Session.Event}
    (hnext : run.pair.nextRead x = some (e, left)) (hstep : (run.pair x).step e = some s') :
    IdInv (run.recv x e (Pair.afterRecv run.pair x s' left)) := by
  unfold IdRun.recv
  cases hstop : (run.pair x).stopped with
  | true =>
      obtain ⟨hread, rfl⟩ := step_recv_stopped hstop hnext hstep
      rw [hread]
      exact h.turn .idle fun hne => absurd rfl hne
  | false =>
      have hreading : (run.pair x).reading ≠ .idle := by
        rcases nextRead_cases hnext with ⟨heq, -⟩ | ⟨hd, heq, -⟩
        · rw [heq]
          exact Reading.noConfusion
        · rw [heq]
          exact Reading.noConfusion
      have hc := h.carried !x
      rw [Bool.not_not] at hc
      have hc := hc hreading
      obtain ⟨hwire, hprefix⟩ := hc.wire
      have hframe := frameRead_reading hstop hnext hstep
      rcases Pair.recv_cases hstop hwire hnext hstep with ⟨hd, rfl, henc, hparse⟩ |
        ⟨f, hf, hs', henc, hparse⟩
      · -- only the header has come
        cases hread : frameRead (run.pair x) e with
        | none => exact h.turn (.body hd) fun _ => hc.read [] henc hparse.symm rfl
        | some hd' =>
            rw [hread] at hframe
            cases hframe.mp rfl
      · rw [hparse] at hprefix
        obtain ⟨rest, hline⟩ := hprefix
        obtain ⟨g, tail, hbefore, hseen, htail⟩ := List.map_eq_cons_iff.mp hline.symm
        cases hread : frameRead (run.pair x) e with
        | none =>
            rw [hread, hs'] at hframe
            cases hframe.mpr rfl
        | some hd =>
            obtain rfl : f.header = hd := frameRead_parse hnext hread hparse
            refine h.take hbefore hseen hs' (hc.read [(f.header, f.body)] henc hparse ?_)
            rw [hbefore, List.map_cons, hseen]
            rfl

end IdRun

end Cfrp.Mux

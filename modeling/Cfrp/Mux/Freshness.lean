import Cfrp.Mux.IdentityInv

/-!
# Fresh identifiers

A side gives out its numbers in order and comes back to the first after 2^31 of them. Before
that what it opens is new to both sides, so the invariant of `IdentityInv` is kept; after that
`open_stream` may return what is in use.
-/

namespace Cfrp.Mux

open Lib Session

namespace IdRun

variable {s s' : Session} {run run' : IdRun} {x : Bool}

/-! ## The numbers -/

/-- The `k`-th identifier that a session gives out. -/
def streamIdAt (isServer : Bool) (k : Nat) : UInt32 :=
  UInt32.ofNat ((if isServer then 2 else 1) + 2 * k)

/-- What a side has opened so far, and what it opens next. -/
def Counted (r : IdRun) : Prop :=
  ∀ x, r.opened x = (List.range (r.opened x).length).map (streamIdAt x) ∧
    (r.pair x).nextStreamId = streamIdAt x (r.opened x).length

theorem streamIdAt_succ (x : Bool) (k : Nat) : streamIdAt x k + 2 = streamIdAt x (k + 1) := by
  unfold streamIdAt
  rw [Nat.mul_succ, ← Nat.add_assoc]
  exact (UInt32.ofNat_add _ 2).symm

theorem toNat_streamIdAt (x : Bool) (k : Nat) :
    (streamIdAt x k).toNat = ((if x then 2 else 1) + 2 * k) % 4294967296 := UInt32.toNat_ofNat'

/-- The sides give out different identifiers. -/
theorem streamIdAt_ne (x : Bool) (k k' : Nat) : streamIdAt x k ≠ streamIdAt (!x) k' := by
  intro h
  have heq := congrArg UInt32.toNat h
  rw [toNat_streamIdAt, toNat_streamIdAt] at heq
  cases x with
  | true =>
      simp only [if_true, Bool.not_true, Bool.false_eq_true, if_false] at heq
      omega
  | false =>
      simp only [if_true, Bool.not_false, Bool.false_eq_true, if_false] at heq
      omega

/-- The numbers come round after 2^31 of them, and not before. -/
theorem streamIdAt_old (x : Bool) (n : Nat) :
    streamIdAt x n ∈ (List.range n).map (streamIdAt x) ↔ 2 ^ 31 ≤ n := by
  rw [List.mem_map]
  constructor
  · rintro ⟨k, hk, heq⟩
    rw [List.mem_range] at hk
    have heq := congrArg UInt32.toNat heq
    rw [toNat_streamIdAt, toNat_streamIdAt] at heq
    omega
  · intro hn
    refine ⟨n - 2 ^ 31, List.mem_range.mpr (by omega), UInt32.toNat_inj.mp ?_⟩
    rw [toNat_streamIdAt, toNat_streamIdAt]
    omega

theorem handleFrame_next (s : Session) (hd : Header) (body : List Byte) :
    (s.handleFrame hd body).nextStreamId = s.nextStreamId := by
  have hfor : (s.streamFor hd).1.nextStreamId = s.nextStreamId := by
    unfold streamFor
    split
    · rfl
    · split
      · rfl
      · rfl
  unfold handleFrame
  split
  · split
    · rename_i s₁ o heq
      rw [heq] at hfor
      exact hfor
    · rename_i s₁ heq
      rw [heq] at hfor
      exact hfor
  · split
    · split
      · rfl
      · rfl
    · rfl

/-- Only `open_stream` takes a number. -/
theorem step_next {e : Session.Event} (he : ∀ onStrand, e ≠ .openStream onStrand)
    (h : s.step e = some s') : s'.nextStreamId = s.nextStreamId := by
  have hplain : Plain e → s'.nextStreamId = s.nextStreamId := by
    intro hp
    obtain ⟨fs, hsends, -⟩ := plays_step hp h
    exact hsends.next
  have hsubmit : ∀ handler : Option Handler,
      (handler.elim s s.submit).nextStreamId = s.nextStreamId := by
    intro handler
    cases handler <;> rfl
  cases stepped_of_step h with
  | openStream onStrand _ => exact absurd rfl (he onStrand)
  | sendFrame f handler _ =>
      exact (Pair.asyncSendFrame_same _ _).nextStreamId.trans (hsubmit handler)
  | postFrame f handler _ => exact hsubmit handler
  | sendPosted _ => exact (sends_asyncSendFrame _ _).next
  | stopPosted _ =>
      obtain ⟨fs, hsends, -⟩ := queues_stop { s with posted := _ } none
      exact hsends.next
  | late _ _ _ => rfl
  | header _ _ _ _ _ => rfl
  | tooLong _ _ _ _ => rfl
  | headerFrame _ _ _ => exact handleFrame_next s _ _
  | bodyFrame _ _ _ => exact handleFrame_next s _ _
  | asyncRead _ _ _ _ => exact hplain trivial
  | asyncWrite _ _ _ => exact hplain trivial
  | close _ => exact hplain trivial
  | destroy _ _ => exact hplain trivial
  | heartbeat _ => exact hplain trivial
  | stop _ _ => exact hplain trivial
  | postStop _ => exact hplain trivial
  | runStream _ _ => exact hplain trivial
  | writeOk _ _ _ => exact hplain trivial
  | writeError _ _ => exact hplain trivial
  | readError _ _ => exact hplain trivial
  | expire _ _ _ _ => exact hplain trivial

/-! ## Steps and runs -/

/-- A step is one of a session by itself, or a read. -/
theorem step_cases {e : Pair.Event} (hstep : run.step e = some run') :
    (∃ x e' s', e = .act x e' ∧ (run.pair x).step e' = some s' ∧ run' = run.act x e' s' ∧
        (Plain e' ∨ e' = .runPosted ∨ ∃ onStrand, e' = .openStream onStrand)) ∨
      ∃ x e' left s', e = .recv x ∧ run.pair.nextRead x = some (e', left) ∧
        (run.pair x).step e' = some s' ∧
        run' = run.recv x e' (Pair.afterRecv run.pair x s' left) := by
  cases e with
  | recv x =>
      obtain ⟨⟨e', left⟩, hnext, hstep⟩ := Option.bind_eq_some_iff.mp hstep
      obtain ⟨p, hp, rfl⟩ := Option.map_eq_some_iff.mp hstep
      rw [Pair.step, hnext] at hp
      obtain ⟨s', hs', rfl⟩ := Option.map_eq_some_iff.mp hp
      exact Or.inr ⟨x, e', left, s', rfl, hnext, hs', rfl⟩
  | act x e' =>
      refine Or.inl ?_
      have hself : ∀ s', Function.update run.pair x s' x = s' := fun _ => Function.update_self ..
      cases e' with
      | sendFrame b f handler => cases hstep
      | recvHeader b => cases hstep
      | recvBody b => cases hstep
      | openStream onStrand =>
          obtain ⟨p, hp, rfl⟩ := Option.map_eq_some_iff.mp hstep
          obtain ⟨s', hs', rfl⟩ := Option.map_eq_some_iff.mp hp
          exact ⟨x, _, s', rfl, hs', by rw [hself], Or.inr (Or.inr ⟨onStrand, rfl⟩)⟩
      | runPosted =>
          obtain ⟨p, hp, rfl⟩ := Option.map_eq_some_iff.mp hstep
          obtain ⟨s', hs', rfl⟩ := Option.map_eq_some_iff.mp hp
          exact ⟨x, _, s', rfl, hs', by rw [hself], Or.inr (Or.inl rfl)⟩
      | _ =>
          obtain ⟨p, hp, rfl⟩ := Option.map_eq_some_iff.mp hstep
          obtain ⟨s', hs', rfl⟩ := Option.map_eq_some_iff.mp hp
          exact ⟨x, _, s', rfl, hs', by rw [hself], Or.inl trivial⟩

theorem act_plain {e : Session.Event} (he : Plain e) :
    run.act x e s' = run.put x s' (actor (run.pair x) e) (run.waiting x) := by
  cases e with
  | openStream onStrand => exact he.elim
  | runPosted => exact he.elim
  | _ => rfl

theorem step_openStream {onStrand : Bool} (h : s.step (.openStream onStrand) = some s') :
    s' = s.openStream onStrand := by
  rw [Session.step, Option.ite_none_right_eq_some] at h
  exact (Option.some.inj h.2).symm

theorem counted_init : Counted {} := by
  intro x
  cases x with
  | true => exact ⟨rfl, rfl⟩
  | false => exact ⟨rfl, rfl⟩

theorem act_pair (x : Bool) (e : Session.Event) (s' : Session) :
    (run.act x e s').pair = Function.update run.pair x s' := by
  unfold act
  split
  · rfl
  · rfl
  · rfl

theorem act_opened {e : Session.Event} (he : ∀ onStrand, e ≠ .openStream onStrand) (s' : Session) :
    (run.act x e s').opened = run.opened := by
  unfold act
  split
  · exact absurd rfl (he _)
  · rfl
  · rfl

theorem opened_openStream (run : IdRun) (x onStrand : Bool) (s' : Session) :
    (run.act x (.openStream onStrand) s').opened x =
      run.opened x ++ [(run.pair x).nextStreamId] := by
  show Function.update run.opened x (run.opened x ++ [(run.pair x).nextStreamId]) x = _
  rw [Function.update_self]

theorem recv_keeps (run : IdRun) (x : Bool) (e : Session.Event) (p : Pair) :
    (run.recv x e p).pair = p ∧ (run.recv x e p).opened = run.opened := by
  unfold IdRun.recv
  split
  · exact ⟨rfl, rfl⟩
  · exact ⟨rfl, rfl⟩

theorem counted_step {e : Pair.Event} (h : Counted run) (hstep : run.step e = some run') :
    Counted run' := by
  intro y
  -- a side that opens nothing
  have hkeep : run'.opened y = run.opened y →
      (run'.pair y).nextStreamId = (run.pair y).nextStreamId →
      run'.opened y = (List.range (run'.opened y).length).map (streamIdAt y) ∧
        (run'.pair y).nextStreamId = streamIdAt y (run'.opened y).length := by
    intro hopened hnext
    rw [hopened, hnext]
    exact h y
  rcases step_cases hstep with ⟨x, e', s', rfl, hs', rfl, hkind⟩ |
    ⟨x, e', left, s', rfl, hnext, hs', rfl⟩
  · by_cases hopen : ∃ onStrand, e' = .openStream onStrand
    · obtain ⟨onStrand, rfl⟩ := hopen
      rcases Bool.eq_or_eq_not y x with rfl | rfl
      · obtain ⟨hopened, hid⟩ := h y
        have hopened' := opened_openStream run y onStrand s'
        have hnext' : s'.nextStreamId = (run.pair y).nextStreamId + 2 := by
          obtain rfl := step_openStream hs'
          cases onStrand with
          | true => exact (Pair.asyncSendFrame_same _ _).nextStreamId
          | false => rfl
        rw [act_pair, Function.update_self, hopened', hnext', List.length_append,
          List.length_singleton, hid, streamIdAt_succ, List.range_succ, List.map_append, ← hopened]
        exact ⟨rfl, rfl⟩
      · refine hkeep (Function.update_of_ne (Pair.not_ne_self x) ..) ?_
        rw [act_pair, Function.update_of_ne (Pair.not_ne_self x)]
    · have hno : ∀ onStrand, e' ≠ .openStream onStrand := fun onStrand heq => hopen ⟨onStrand, heq⟩
      refine hkeep (congrFun (act_opened hno s') y) ?_
      rw [act_pair]
      rcases Bool.eq_or_eq_not y x with rfl | rfl
      · rw [Function.update_self]
        exact step_next hno hs'
      · rw [Function.update_of_ne (Pair.not_ne_self x)]
  · obtain ⟨hpair, hopened⟩ := recv_keeps run x e' (Pair.afterRecv run.pair x s' left)
    refine hkeep (congrFun hopened y) ?_
    rw [hpair]
    rcases Bool.eq_or_eq_not y x with rfl | rfl
    · rw [Pair.afterRecv_self]
      refine step_next ?_ hs'
      rintro onStrand rfl
      rcases nextRead_cases hnext with ⟨-, -, heq⟩ | ⟨hd, -, body, heq⟩
      · cases heq
      · cases heq
    · rw [Pair.afterRecv_not]

theorem counted_reach {ok : IdRun → Pair.Event → Prop} (h : Reach step ok {} run) : Counted run :=
  h.invariant counted_init fun _ _ _ hc _ hstep => counted_step hc hstep

theorem idInv_init : IdInv {} where
  signed _ _ hg := absurd hg List.not_mem_nil
  posted _ := rfl
  waiting _ _ _ ht := absurd ht List.not_mem_nil
  carried x _ := by
    refine Or.inl ⟨rfl, ⟨rfl, fun hw => absurd hw Bool.false_ne_true, fun _ => rfl,
      fun pw hpw => ?_, encoded_nil⟩, ?_⟩
    · exact absurd hpw List.not_mem_nil
    · show parseFrames [] ++ [] = []
      rw [parseFrames_nil, List.append_nil]
  nodup _ := List.nodup_nil
  table _ _ _ ho := by cases ho
  once _ := List.nodup_nil
  unknown _ _ hi := absurd hi List.not_mem_nil
  known _ _ hi := absurd hi List.not_mem_nil
  peers _ o _ _ ho := by cases ho
  passed _ _ he := absurd he List.not_mem_nil

/-- What a side opens next it has not opened before, and the other side never. -/
theorem Counted.fresh (h : Counted run) (hlen : (run.opened x).length < 2 ^ 31) :
    (run.pair x).nextStreamId ∉ run.opened x ∧ (run.pair x).nextStreamId ∉ run.opened !x := by
  obtain ⟨hopened, hnext⟩ := h x
  rw [hnext]
  refine ⟨fun hmem => ?_, fun hmem => ?_⟩
  · rw [hopened, List.length_map, List.length_range] at hmem
    have hle := (streamIdAt_old x _).mp hmem
    omega
  · rw [(h !x).1] at hmem
    obtain ⟨k, -, heq⟩ := List.mem_map.mp hmem
    exact streamIdAt_ne x _ k heq.symm

theorem idInv_step {e : Pair.Event} (h : IdInv run) (hc : Counted run) (hok : run.mayOpen e = true)
    (hstep : run.step e = some run') : IdInv run' := by
  rcases step_cases hstep with ⟨x, e', s', rfl, hs', rfl, hkind⟩ |
    ⟨x, e', left, s', rfl, hnext, hs', rfl⟩
  · rcases hkind with hplain | rfl | ⟨onStrand, rfl⟩
    · rw [act_plain hplain]
      obtain ⟨fs, hk⟩ := (plays_step hplain hs').keeps h
      exact hk.inv h
    · obtain ⟨fs, hk⟩ := keeps_runPosted h hs'
      exact hk.inv h
    · obtain ⟨hx, hy⟩ := hc.fresh (of_decide_eq_true hok)
      obtain rfl := step_openStream hs'
      obtain ⟨fs, ps, ho⟩ := opens_openStream (run.pair x) onStrand
      exact ho.inv h hx hy
  · exact h.recv hnext hs'

theorem exists_open (run : IdRun) (halive : (run.pair false).alive = true) :
    run.step (.act false (.openStream true)) =
      some (run.act false (.openStream true) ((run.pair false).openStream true)) := by
  show ((run.pair.step (.act false (.openStream true))).map _) = _
  have hstep : run.pair.step (.act false (.openStream true)) =
      some (Function.update run.pair false ((run.pair false).openStream true)) := by
    show (((run.pair false).step (.openStream true)).map _) = _
    rw [Session.step, if_pos halive]
    rfl
  rw [hstep, Option.map_some, Function.update_self]

/-- **Stream identifiers.** In every run the two sides open different streams, and a side opens
one anew exactly from the 2^31st on. As long as each side opens fewer, what `open_stream` takes
next is in nobody's `streams_`, and every frame that is passed to an object was sent by the
object it is the peer of. -/
theorem streams_fresh {run : IdRun} (hr : Reach step anyStep {} run) :
    (∀ i ∈ run.opened false, i ∉ run.opened true) ∧
    (∀ x, (run.pair x).nextStreamId ∈ run.opened x ↔ 2 ^ 31 ≤ (run.opened x).length) ∧
    (Reach step (fun r e => r.mayOpen e = true) {} run →
      (∀ x, (run.opened x).length < 2 ^ 31 →
        ∀ y, (run.pair y).streams.lookup (run.pair x).nextStreamId = none) ∧
      ∀ x, ∀ q ∈ run.passed x, ∃ o', q.2 = some o' ∧ run.Peers x q.1 o') := by
  have hc := counted_reach hr
  refine ⟨fun i hi hi' => ?_, fun x => ?_, fun hmay => ?_⟩
  · rw [(hc false).1] at hi
    rw [(hc true).1] at hi'
    obtain ⟨k, -, rfl⟩ := List.mem_map.mp hi
    obtain ⟨k', -, heq⟩ := List.mem_map.mp hi'
    exact streamIdAt_ne true k' k heq
  · obtain ⟨hopened, hnext⟩ := hc x
    rw [hnext]
    have hold := streamIdAt_old x (run.opened x).length
    rwa [← hopened] at hold
  · have hinv : Counted run ∧ IdInv run := by
      refine hmay.invariant (P := fun r => Counted r ∧ IdInv r) ⟨counted_init, idInv_init⟩ ?_
      intro r e r' h hok hstep
      exact ⟨counted_step h.1 hstep, idInv_step h.2 h.1 hok hstep⟩
    obtain ⟨-, hi⟩ := hinv
    refine ⟨fun x hlen y => ?_, hi.passed⟩
    obtain ⟨hx, hy⟩ := hc.fresh hlen
    cases hl : (run.pair y).streams.lookup (run.pair x).nextStreamId with
    | none => rfl
    | some o => exact absurd (List.mem_of_getElem? (hi.table y _ o hl)) (hi.unused hx hy y)

/-- The client's payload is passed to the object that its SYN created. -/
theorem streams_fresh_data : ∃ r : IdRun, r.passed true = [(0, some 0), (0, some 0)] ∧
    r.Peers true 0 0 ∧ ∀ y, (r.pair y).streams.lookup (r.pair false).nextStreamId = none := by
  obtain ⟨r, hr, hobs⟩ := exists_of_runGuarded step mayOpen
    [.act false (.openStream true), .recv true, .act false (.asyncWrite 0 [[1, 2], [3]] 10),
      .act false .writeOk, .recv true, .recv true]
    (fun r => (r.passed true, (r.opened false).length)) (s := {})
    (a := ([(0, some 0), (0, some 0)], 1)) (by decide +kernel)
  obtain ⟨hpassed, hopened⟩ := Prod.mk.inj hobs
  obtain ⟨-, -, hfull⟩ := streams_fresh hr.any
  obtain ⟨hfresh, hpeers⟩ := hfull hr
  refine ⟨r, hpassed, ?_, hfresh false ?_⟩
  · obtain ⟨o', ho', hp⟩ := hpeers true (0, some 0) (by rw [hpassed]; exact List.mem_cons_self)
    obtain rfl := Option.some.inj ho'
    exact hp
  · rw [hopened]
    exact Nat.one_lt_two_pow (Nat.succ_ne_zero 30)

/-! ## After 2^31 streams -/

/-- Opening more streams takes none out of a table. -/
theorem exists_opens (n : Nat) (run : IdRun) (halive : (run.pair false).alive = true)
    (hone : ∀ y, ((run.pair y).streams.lookup 1).isSome = true) :
    ∃ run', Reach step anyStep run run' ∧ (run'.pair false).alive = true ∧
      (run'.opened false).length = (run.opened false).length + n ∧
      ∀ y, ((run'.pair y).streams.lookup 1).isSome = true := by
  induction n generalizing run with
  | zero => exact ⟨run, .init, halive, rfl, hone⟩
  | succ n ih =>
      let run' := run.act false (.openStream true) ((run.pair false).openStream true)
      have hsame := Pair.asyncSendFrame_same (Pair.addObj (run.pair false)
        ((run.pair false).nextStreamId + 2) (run.pair false).nextStreamId)
        ⟨synFrame (run.pair false).nextStreamId, .none⟩
      have hself : run'.pair false = (run.pair false).openStream true := by
        rw [act_pair, Function.update_self]
      have hother : run'.pair true = run.pair true := by
        rw [act_pair]
        exact Function.update_of_ne (Pair.not_ne_self false) ..
      have halive' : (run'.pair false).alive = true := by
        rw [hself]
        exact hsame.alive.trans halive
      have hone' : ∀ y, ((run'.pair y).streams.lookup 1).isSome = true := by
        intro y
        cases y with
        | true =>
            rw [hother]
            exact hone true
        | false =>
            have hstreams : (run'.pair false).streams = (run.pair false).streams.insert
                (run.pair false).nextStreamId (run.pair false).objs.length := by
              rw [hself]
              exact hsame.streams
            rw [hstreams, Table.lookup_insert_if]
            split
            · rfl
            · exact hone false
      obtain ⟨run'', hreach, halive'', hlen, hone''⟩ := ih run' halive' hone'
      refine ⟨run'', ?_, halive'', ?_, hone''⟩
      · exact (Reach.tail .init trivial (exists_open run halive)).trans hreach
      · have hopened : run'.opened false = run.opened false ++ [(run.pair false).nextStreamId] :=
          opened_openStream run false true _
        rw [hlen, hopened, List.length_append, List.length_singleton]
        omega

/-- The first stream, which both sides have, and 2^31 - 1 more: the next one is the first
again. -/
theorem streams_wrap : ∃ r r' : IdRun, Reach step anyStep {} r ∧ (r.opened false).length = 2 ^ 31 ∧
    r.step (.act false (.openStream true)) = some r' ∧
    r'.opened false = r.opened false ++ [1] ∧
    ∀ y, ((r.pair y).streams.lookup 1).isSome = true := by
  obtain ⟨r, hr, hobs⟩ := exists_of_runAll step [.act false (.openStream true), .recv true]
    (fun r => ((r.pair false).alive, (r.opened false).length,
      ((r.pair false).streams.lookup 1).isSome, ((r.pair true).streams.lookup 1).isSome))
    (s := ({} : IdRun)) (a := (true, 1, true, true)) rfl
  simp only [Prod.mk.injEq] at hobs
  obtain ⟨halive, hone, hclient, hserver⟩ := hobs
  obtain ⟨r', hr', halive', hlen, hstreams⟩ := exists_opens (2 ^ 31 - 1) r halive
    fun y => by cases y <;> assumption
  rw [hone] at hlen
  have hlen' : (r'.opened false).length = 2 ^ 31 := hlen
  have hreach := hr.trans hr'
  have hnext : (r'.pair false).nextStreamId = 1 := by
    rw [(counted_reach hreach false).2, hlen']
    refine UInt32.toNat_inj.mp ?_
    rw [toNat_streamIdAt]
    rfl
  refine ⟨r', _, hreach, hlen', exists_open r' halive', ?_, hstreams⟩
  rw [← hnext]
  exact opened_openStream r' false true _

end IdRun

end Cfrp.Mux

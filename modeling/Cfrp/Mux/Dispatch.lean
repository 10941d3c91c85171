import Cfrp.Mux.Refine

/-!
# Receiving, and whole runs

The step of a read takes the first frame in flight off one side and lets the other
handle it. With it, every step of a running pair is known, and `view_reach` says that
each stream of a pair went through a run of its link.
-/

namespace Cfrp.Mux

open Lib Session

namespace Pair

variable {p p' : Pair} {x : Bool} {s' : Session} {left : List Byte} {o : Nat} {obj : StreamObj}

theorem link_ext {l l' : Link} (hends : l.ends = l'.ends) (hpipe : l.pipe = l'.pipe) : l = l' := by
  cases l
  cases l'
  cases hends
  cases hpipe
  rfl

/-- The pair after a read of `x` that left `left` on the wire. -/
def afterRecv (p : Pair) (x : Bool) (s' : Session) (left : List Byte) : Pair :=
  Function.update (Function.update p x s') (!x) { p !x with wire := left }

theorem afterRecv_self : afterRecv p x s' left x = s' := by
  rw [afterRecv, Function.update_of_ne (Ne.symm (not_ne_self x)), Function.update_self]

theorem afterRecv_not : afterRecv p x s' left (!x) = { p !x with wire := left } :=
  Function.update_self ..

theorem inFlight_afterRecv_self : inFlight (afterRecv p x s' left) x = flightOf p x s' := by
  rw [inFlight, afterRecv_self, afterRecv_not]
  rfl

theorem inFlight_afterRecv_not : inFlight (afterRecv p x s' left) (!x) =
    parseFrom s'.reading left ++ (unsent (p !x)).map asReceived ++ postedFrames (p !x) := by
  rw [inFlight, Bool.not_not, afterRecv_self, afterRecv_not]
  rfl

theorem inFlight_not : inFlight p (!x) =
    parseFrom (p x).reading (p !x).wire ++ (unsent (p !x)).map asReceived ++
      postedFrames (p !x) := by
  rw [inFlight, Bool.not_not]
  rfl

/-- The other session only loses bytes of its wire. -/
theorem half_afterRecv (h : PairInv p) (hwire : EncodedFrom s'.reading left) :
    Half s'.reading { p !x with wire := left } := by
  have hh := h.half !x
  exact ⟨hh.alive, hh.running, ⟨hh.output.isWriting, hh.output.busy, hh.output.idle,
    hh.output.queued, hwire⟩, hh.nodup, hh.table, hh.posted, hh.noFail, hh.quiet⟩

theorem find_afterRecv_not (i : UInt32) : find (afterRecv p x s' left !x) i = find (p !x) i := by
  rw [afterRecv_not]
  rfl

theorem ends_afterRecv (i : UInt32) : (view (afterRecv p x s' left) i).ends =
    Function.update (p.view i).ends x (endAt s' i) := by
  funext y
  by_cases hy : y = x
  · rw [hy, Function.update_self]
    show endAt (afterRecv p x s' left x) i = _
    rw [afterRecv_self]
  · rw [Function.update_of_ne hy, Bool.eq_not_of_ne hy]
    show endAt (afterRecv p x s' left !x) i = endAt (p !x) i
    rw [afterRecv_not]
    exact endAt_congr rfl rfl i

theorem pipe_afterRecv (i : UInt32) : (view (afterRecv p x s' left) i).pipe =
    Function.update (Function.update (p.view i).pipe x (said (flightOf p x s') i)) (!x)
      (said (inFlight (afterRecv p x s' left) !x) i) := by
  funext y
  by_cases hy : y = x
  · rw [hy, Function.update_of_ne (Ne.symm (not_ne_self x)), Function.update_self]
    show said (inFlight (afterRecv p x s' left) x) i = _
    rw [inFlight_afterRecv_self]
  · rw [Bool.eq_not_of_ne hy, Function.update_self]
    rfl

theorem half_both (h : PairInv p) (hhalf : Half (p !x).reading s')
    (hwire : EncodedFrom s'.reading left) :
    ∀ y, Half (afterRecv p x s' left !y).reading (afterRecv p x s' left y) := by
  refine forall_side x ?_ ?_
  · rw [afterRecv_self, afterRecv_not]
    exact hhalf
  · rw [Bool.not_not, afterRecv_self, afterRecv_not]
    exact half_afterRecv h hwire

theorem next_both (h : PairInv p) (hnext : s'.nextStreamId = (p x).nextStreamId) :
    ∀ y, (afterRecv p x s' left y).nextStreamId.toNat % 2 = parity y := by
  refine forall_side x ?_ ?_
  · rw [afterRecv_self, hnext]
    exact h.next x
  · rw [afterRecv_not]
    exact h.next !x

/-- The pipes after a frame was taken off one of them and nothing that counts was put on
the other. -/
theorem pipe_pop {m tail : List (Header × List Byte)} (hself : flightOf p x s' = p.inFlight x ++ m)
    (hm : ∀ i, Silent i m) (hnot : inFlight (afterRecv p x s' left) (!x) = tail) (i : UInt32) :
    (view (afterRecv p x s' left) i).pipe =
      Function.update (p.view i).pipe (!x) (said tail i) := by
  have hsame : Function.update (p.view i).pipe x (said (p.inFlight x) i) = (p.view i).pipe :=
    Function.update_eq_self x (p.view i).pipe
  rw [pipe_afterRecv, hself, said_append, said_of_silent (hm i), List.append_nil, hsame, hnot]

/-- A frame that tells no stream anything leaves the pipe as it was. -/
theorem said_tail {f : Header × List Byte} {tail : List (Header × List Byte)}
    (hold : p.inFlight (!x) = f :: tail) (hsaid : arrivals f.1 f.2 = []) (i : UInt32) :
    said tail i = (p.view i).pipe (!x) := by
  have hone : said [f] i = [] := by
    rw [said, List.flatMap_eq_nil_iff]
    intro g hg
    rw [List.mem_singleton.mp (List.mem_filter.mp hg).1]
    exact hsaid
  show _ = said (p.inFlight !x) i
  rw [hold, show f :: tail = [f] ++ tail from rfl, said_append, hone, List.nil_append]

/-- A session that goes on to another read. -/
def withReading (s : Session) (reading : Reading) : Session := { s with reading }

theorem Half.withReading {r : Reading} {s : Session} (h : Half r s) (reading : Reading) :
    Half r (withReading s reading) :=
  ⟨h.alive, h.running, ⟨h.output.isWriting, h.output.busy, h.output.idle, h.output.queued,
    h.output.wire⟩, h.nodup, h.table, h.posted, h.noFail, h.quiet⟩

/-! ## A header whose body is to follow -/

theorem step_recvHeader (h : PairInv p) {hd : Header}
    (hwire : EncodedFrom (.body hd) left)
    (hparse : parseFrom (.body hd) left = parseFrom (p x).reading (p !x).wire) :
    Step p (afterRecv p x (withReading (p x) (.body hd)) left) := by
  have hself : inFlight (afterRecv p x (withReading (p x) (.body hd)) left) x = p.inFlight x := by
    rw [inFlight_afterRecv_self]
    rfl
  have hnot : inFlight (afterRecv p x (withReading (p x) (.body hd)) left) (!x) =
      p.inFlight !x := by
    rw [inFlight_afterRecv_not, inFlight_not]
    show parseFrom (.body hd) left ++ _ ++ _ = _
    rw [hparse]
  have hin : ∀ y, inFlight (afterRecv p x (withReading (p x) (.body hd)) left) y =
      p.inFlight y := forall_side x hself hnot
  have hfind : ∀ y i, find (afterRecv p x (withReading (p x) (.body hd)) left y) i =
      find (p y) i := by
    refine forall_side x (fun i => ?_) find_afterRecv_not
    rw [afterRecv_self]
    rfl
  refine ⟨⟨half_both h ((h.half x).withReading _) hwire, next_both h rfl, ?_, ?_, ?_⟩,
    fun i => Or.inl ?_⟩
  · intro y i
    rw [hfind, hin]
    exact h.unknown y i
  · intro y i
    rw [hfind, hfind, hin]
    exact h.both y i
  · intro y i
    rw [hfind, hfind, hin]
    exact h.new y i
  · have hends : (view (afterRecv p x (withReading (p x) (.body hd)) left) i).ends =
        (p.view i).ends := by
      have hend : endAt (withReading (p x) (.body hd)) i = endAt (p x) i := endAt_congr rfl rfl i
      rw [ends_afterRecv, hend]
      exact Function.update_eq_self x (p.view i).ends
    have hpipe : (view (afterRecv p x (withReading (p x) (.body hd)) left) i).pipe =
        (p.view i).pipe := by
      funext y
      show said (inFlight _ y) i = said (p.inFlight y) i
      rw [hin]
    exact link_ext hends hpipe

/-! ## A frame -/

/-- A frame that is no SYN leaves the wire. `m` is what its receiver posts. -/
theorem PairInv.pop (h : PairInv p) {f : Header × List Byte} {m tail : List (Header × List Byte)}
    (hhalf : Half (p !x).reading s') (hwire : EncodedFrom s'.reading left)
    (hnext : s'.nextStreamId = (p x).nextStreamId)
    (hfind : ∀ i, find s' i = none ↔ find (p x) i = none)
    (hself : flightOf p x s' = p.inFlight x ++ m) (hm : ∀ i, Silent i m)
    (hold : p.inFlight (!x) = f :: tail) (hnot : inFlight (afterRecv p x s' left) (!x) = tail)
    (hf : ∀ i, ¬IsSyn i f) : PairInv (afterRecv p x s' left) := by
  have hfind' : ∀ y i, find (afterRecv p x s' left y) i = none ↔ find (p y) i = none := by
    refine forall_side x (fun i => ?_) fun i => ?_
    · rw [afterRecv_self]
      exact hfind i
    · rw [find_afterRecv_not]
  have hin : inFlight (afterRecv p x s' left) x = p.inFlight x ++ m := by
    rw [inFlight_afterRecv_self, hself]
  refine ⟨half_both h hhalf hwire, next_both h hnext, forall_side x ?_ ?_, forall_side x ?_ ?_,
    forall_side x ?_ ?_⟩
  · intro i hnone
    rw [hin, silent_append]
    exact ⟨h.unknown x i ((hfind' x i).mp hnone), hm i⟩
  · intro i hnone
    have hs := h.unknown (!x) i ((hfind' _ i).mp hnone)
    rw [hold] at hs
    rw [hnot]
    exact fun g hg => hs g (List.mem_cons_of_mem _ hg)
  · intro i h1 h2
    rw [Ne, hfind'] at h1 h2
    rw [hin, noSyn_append]
    exact ⟨h.both x i h1 h2, (hm i).noSyn⟩
  · intro i h1 h2
    rw [Ne, hfind'] at h1 h2
    have hs := h.both (!x) i h1 h2
    rw [hold] at hs
    rw [hnot]
    exact fun g hg => hs g (List.mem_cons_of_mem _ hg)
  · intro i h1 h2
    rw [Ne, hfind'] at h1
    rw [hfind'] at h2
    obtain ⟨hs, hpar⟩ := h.new x i h1 h2
    rw [hin]
    exact ⟨(introduces_append (hm i).noSyn).mpr hs, hpar⟩
  · intro i h1 h2
    rw [Ne, hfind'] at h1
    rw [hfind'] at h2
    obtain ⟨hs, hpar⟩ := h.new (!x) i h1 h2
    rw [hold] at hs
    rw [hnot]
    refine ⟨?_, hpar⟩
    -- the frame that left was not the one that introduces the stream
    rcases hs with ⟨hsyn, -⟩ | ⟨-, hs⟩
    · exact absurd hsyn (hf i)
    · exact hs

/-- A stream that is spoken of exists. -/
theorem PairInv.known (h : PairInv p) {f : Header × List Byte} {tail : List (Header × List Byte)}
    (hold : p.inFlight (!x) = f :: tail) {i : UInt32} (hs : Speaks i f) (hf : ¬IsSyn i f) :
    find (p x) i ≠ none := by
  intro hnone
  by_cases hother : find (p !x) i = none
  · have hsil := h.unknown (!x) i hother
    rw [hold] at hsil
    exact (hsil f List.mem_cons_self).1 hs
  · have hintro := (h.new (!x) i hother (by rw [Bool.not_not]; exact hnone)).1
    rw [hold] at hintro
    rcases hintro with ⟨hsyn, -⟩ | ⟨hno, -⟩
    · exact hf hsyn
    · exact hno.2 hs

/-- A SYN is for a stream that only its sender knows. -/
theorem PairInv.introduced (h : PairInv p) {f : Header × List Byte}
    {tail : List (Header × List Byte)} (hold : p.inFlight (!x) = f :: tail) {i : UInt32}
    (hf : IsSyn i f) : find (p x) i = none ∧ find (p !x) i ≠ none := by
  have hother : find (p !x) i ≠ none := by
    intro hnone
    have hsil := h.unknown (!x) i hnone
    rw [hold] at hsil
    exact (hsil f List.mem_cons_self).2 hf
  refine ⟨?_, hother⟩
  by_contra hsome
  have hno := h.both (!x) i hother (by rw [Bool.not_not]; exact hsome)
  rw [hold] at hno
  exact hno f List.mem_cons_self hf

theorem lookup_none (h : PairInv p) {i : UInt32} (hnone : find (p x) i = none) :
    (p x).streams.lookup i = none := by
  cases hl : (p x).streams.lookup i with
  | none => rfl
  | some o =>
      obtain ⟨obj, ho, hid⟩ := (h.half x).table i o hl
      exact absurd hid (findKey_eq_none.mp hnone obj (List.mem_of_getElem? ho))

/-- A frame that changes no stream: nothing is seen of it. -/
theorem step_recvSilent (h : PairInv p) {f : Header × List Byte}
    {m tail : List (Header × List Byte)} (hhalf : Half (p !x).reading s')
    (hwire : EncodedFrom s'.reading left) (hnext : s'.nextStreamId = (p x).nextStreamId)
    (hobjs : s'.objs = (p x).objs) (hstreams : s'.streams = (p x).streams)
    (hself : flightOf p x s' = p.inFlight x ++ m) (hm : ∀ i, Silent i m)
    (hold : p.inFlight (!x) = f :: tail) (hnot : inFlight (afterRecv p x s' left) (!x) = tail)
    (hf : ∀ i, ¬IsSyn i f) (hsaid : arrivals f.1 f.2 = []) : Step p (afterRecv p x s' left) := by
  refine ⟨h.pop hhalf hwire hnext (fun i => by rw [find, find, hobjs]) hself hm hold hnot hf,
    fun i => Or.inl ?_⟩
  have hends : (view (afterRecv p x s' left) i).ends = (p.view i).ends := by
    rw [ends_afterRecv, endAt_congr hobjs hstreams]
    exact Function.update_eq_self x (p.view i).ends
  have hpipe : (view (afterRecv p x s' left) i).pipe = (p.view i).pipe := by
    rw [pipe_pop hself hm hnot, said_tail hold hsaid]
    exact Function.update_eq_self (!x) (p.view i).pipe
  exact link_ext hends hpipe

/-- A SYN creates the stream on the side that receives it. -/
theorem step_recvSyn (h : PairInv p) {id : UInt32} {tail : List (Header × List Byte)}
    (hwire : Encoded left)
    (hold : p.inFlight (!x) = ((synFrame id).header, (synFrame id).body) :: tail)
    (hs' : s' = withReading ((p x).handleFrame (synFrame id).header (synFrame id).body) .header)
    (hnot : inFlight (afterRecv p x s' left) (!x) = tail) : Step p (afterRecv p x s' left) := by
  obtain ⟨hnew, hother⟩ := h.introduced hold (isSyn_synFrame id)
  have hsyn := isSyn_synFrame id
  have hack := ControlFrame.ack id
  rw [handleFrame_syn (lookup_none h hnew)] at hs'
  have hobjs : s'.objs = (p x).objs ++ [StreamObj.new id] := by rw [hs']; rfl
  have hhalf : Half (p !x).reading s' := by
    rw [hs']
    exact (((h.half x).addObj _ hnew).postSilent ⟨ackFrame id, .none⟩ hack
      (ack_ne_syn id)).withReading _
  have hnext : s'.nextStreamId = (p x).nextStreamId := by rw [hs']; rfl
  have hstreams : s'.streams = (addObj (p x) (p x).nextStreamId id).streams := by rw [hs']; rfl
  have hfind : ∀ i, find s' i = if i = id then some (StreamObj.new id) else find (p x) i := by
    intro i
    rw [find, hobjs]
    exact findKey_concat (a := StreamObj.new id) (findKey_eq_none.mp hnew) i
  have hself : flightOf p x s' = p.inFlight x ++ [((ackFrame id).header, (ackFrame id).body)] := by
    have hposted : postedFrames s' = postedFrames (p x) ++
        [((ackFrame id).header, (ackFrame id).body)] := by
      rw [hs']
      exact postedFrames_postFrame (addObj (p x) (p x).nextStreamId id) ⟨ackFrame id, .none⟩
    have hflight : flight (p !x).reading s' = flight (p !x).reading (p x) := by rw [hs']; rfl
    rw [flightOf, hposted, hflight, ← List.append_assoc]
    rfl
  have hackSilent : ∀ i, Silent i [((ackFrame id).header, (ackFrame id).body)] := fun i =>
    silent_control hack (ack_ne_syn id i)
  have hin : inFlight (afterRecv p x s' left) x =
      p.inFlight x ++ [((ackFrame id).header, (ackFrame id).body)] := by
    rw [inFlight_afterRecv_self, hself]
  have hfindNot : ∀ i, find (afterRecv p x s' left !x) i = find (p !x) i := find_afterRecv_not
  have hfindSelf : ∀ i, find (afterRecv p x s' left x) i =
      if i = id then some (StreamObj.new id) else find (p x) i := by
    intro i
    rw [afterRecv_self, hfind]
  refine ⟨⟨half_both h hhalf (by rw [hs']; exact hwire), next_both h hnext, forall_side x ?_ ?_,
    forall_side x ?_ ?_, forall_side x ?_ ?_⟩, fun i => Or.inl ?_⟩
  · intro i hnone
    rw [hfindSelf] at hnone
    split at hnone
    · cases hnone
    · rw [hin, silent_append]
      exact ⟨h.unknown x i hnone, hackSilent i⟩
  · intro i hnone
    rw [hfindNot] at hnone
    have hs := h.unknown (!x) i hnone
    rw [hold] at hs
    rw [hnot]
    exact fun g hg => hs g (List.mem_cons_of_mem _ hg)
  · intro i h1 h2
    rw [hfindNot] at h2
    rw [hfindSelf] at h1
    rw [hin, noSyn_append]
    refine ⟨?_, (hackSilent i).noSyn⟩
    by_cases hi : i = id
    · -- so far this side did not know the stream, and sent nothing of it
      rw [hi]
      exact (h.unknown x id hnew).noSyn
    · rw [if_neg hi] at h1
      exact h.both x i h1 h2
  · intro i h1 h2
    rw [hfindNot] at h1
    rw [Bool.not_not, hfindSelf] at h2
    rw [hnot]
    by_cases hi : i = id
    · -- a stream is introduced by one SYN, so none is behind the one that was taken
      have hintro := (h.new (!x) id hother (by rw [Bool.not_not]; exact hnew)).1
      rw [hold] at hintro
      rcases hintro with ⟨-, hno⟩ | ⟨hno, -⟩
      · rw [hi]
        exact hno
      · exact absurd hsyn hno.1
    · rw [if_neg hi] at h2
      have hs := h.both (!x) i h1 (by rw [Bool.not_not]; exact h2)
      rw [hold] at hs
      exact fun g hg => hs g (List.mem_cons_of_mem _ hg)
  · intro i h1 h2
    rw [hfindNot] at h2
    rw [hfindSelf] at h1
    have hi : i ≠ id := fun hi => hother (hi ▸ h2)
    rw [if_neg hi] at h1
    obtain ⟨hs, hpar⟩ := h.new x i h1 h2
    rw [hin]
    exact ⟨(introduces_append (hackSilent i).noSyn).mpr hs, hpar⟩
  · intro i h1 h2
    rw [hfindNot] at h1
    rw [Bool.not_not, hfindSelf] at h2
    split at h2
    · cases h2
    · rename_i hi
      obtain ⟨hs, hpar⟩ := h.new (!x) i h1 (by rw [Bool.not_not]; exact h2)
      rw [hold] at hs
      rw [hnot]
      refine ⟨?_, hpar⟩
      rcases hs with ⟨hsyn', -⟩ | ⟨-, hs⟩
      · exact absurd hsyn' (syn_ne_syn hi)
      · exact hs
  · have hends : (view (afterRecv p x s' left) i).ends = (p.view i).ends := by
      have hobjs' : s'.objs = (addObj (p x) (p x).nextStreamId id).objs := hobjs
      rw [ends_afterRecv, endAt_congr hobjs' hstreams, endAt_addObj hnew]
      exact Function.update_eq_self x (p.view i).ends
    have hpipe : (view (afterRecv p x s' left) i).pipe = (p.view i).pipe := by
      rw [pipe_pop hself hackSilent hnot,
        said_tail hold (ControlFrame.arrivals_eq (ControlFrame.syn id))]
      exact Function.update_eq_self (!x) (p.view i).pipe
    exact link_ext hends hpipe

/-! ## The frames of a stream -/

/-- A side that was spoken to has no SYN of the stream left to send. -/
theorem PairInv.called (h : PairInv p) {f : Header × List Byte} {tail : List (Header × List Byte)}
    (hold : p.inFlight (!x) = f :: tail) {i : UInt32} (hs : Speaks i f)
    (hknown : find (p x) i ≠ none) : (p x).synPosted i = false := by
  by_contra hsyn
  have hother : find (p !x) i ≠ none := by
    intro hnone
    have hsil := h.unknown (!x) i hnone
    rw [hold] at hsil
    exact (hsil f List.mem_cons_self).1 hs
  have hno := h.both x i hknown hother
  rw [Bool.not_eq_false, synPosted, List.any_eq_true] at hsyn
  obtain ⟨t, htm, htsyn⟩ := hsyn
  cases t with
  | stop => cases htsyn
  | sendFrame pw =>
      have hctl := (h.half x).posted pw htm
      have hmem : asReceived pw ∈ p.inFlight x :=
        List.mem_append_right _ (List.mem_filterMap.mpr ⟨_, htm, rfl⟩)
      obtain ⟨hsid, hsflags, hstype⟩ := of_decide_eq_true htsyn
      refine hno _ hmem ?_
      obtain ⟨frame, handler⟩ := pw
      cases hctl with
      | syn id' =>
          show (synFrame id').header = (synFrame i).header
          rw [show id' = i from hsid]
      | ack id' => exact absurd hsflags (by show (2 : UInt16) ≠ 1; decide)
      | ping => exact absurd hstype (by show (2 : UInt8) ≠ 0; decide)
      | pong => exact absurd hstype (by show (2 : UInt8) ≠ 0; decide)

/-- A frame of a stream is the next that its end of the link is told, and tells no other. -/
theorem pipe_stream {id : UInt32} {f : Frame} {a : Arrival} {tail : List (Header × List Byte)}
    (hid : f.header.streamId = id) (harr : arrivals f.header f.body = [a])
    (hold : p.inFlight (!x) = (f.header, f.body) :: tail) (i : UInt32) :
    (p.view i).pipe (!x) = (if i = id then [a] else []) ++ said tail i := by
  have hone : said [(f.header, f.body)] i = if i = id then [a] else [] := by
    by_cases hi : i = id
    · simp [said, hid, hi, harr]
    · simp [said, hid, hi, Ne.symm hi]
  show said (p.inFlight !x) i = _
  rw [hold, show ∀ g : Header × List Byte, g :: tail = [g] ++ tail from fun _ => rfl,
    said_append, hone]

/-- The streams that a frame does not name see nothing of it. -/
theorem view_other {id : UInt32} {f : Frame} {a : Arrival} {tail : List (Header × List Byte)}
    (hid : f.header.streamId = id) (harr : arrivals f.header f.body = [a])
    (hold : p.inFlight (!x) = (f.header, f.body) :: tail)
    (hself : flightOf p x s' = p.inFlight x) (hnot : inFlight (afterRecv p x s' left) (!x) = tail)
    {i : UInt32} (hi : i ≠ id) (hend : endAt s' i = endAt (p x) i) :
    view (afterRecv p x s' left) i = p.view i := by
  have hends : (view (afterRecv p x s' left) i).ends = (p.view i).ends := by
    rw [ends_afterRecv, hend]
    exact Function.update_eq_self x (p.view i).ends
  have hpipe : (view (afterRecv p x s' left) i).pipe = (p.view i).pipe := by
    have hsame : said tail i = (p.view i).pipe (!x) := by
      rw [pipe_stream hid harr hold, if_neg hi]
      rfl
    rw [pipe_pop (m := []) (by rw [hself, List.append_nil]) (fun i g hg => by cases hg) hnot, hsame]
    exact Function.update_eq_self (!x) (p.view i).pipe
  exact link_ext hends hpipe

/-- A frame of a stream that has left the table is dropped. -/
theorem step_dropped (h : PairInv p) {id : UInt32} {f : Frame} (hf : StreamFrame id f)
    {tail : List (Header × List Byte)} (hwire : Encoded left)
    (hold : p.inFlight (!x) = (f.header, f.body) :: tail)
    (hs' : s' = withReading ((p x).handleFrame f.header f.body) .header)
    (hnot : inFlight (afterRecv p x s' left) (!x) = tail)
    (hl : (p x).streams.lookup id = none) : Step p (afterRecv p x s' left) := by
  obtain ⟨hid, a, harr⟩ := StreamFrame.arrivals_eq hf
  obtain ⟨ht, hsynFlag⟩ := StreamFrame.kind hf
  have hspeaks : Speaks id (f.header, f.body) := ⟨hid, by show f.arrivals ≠ []; rw [harr]; simp⟩
  obtain ⟨obj, hobj⟩ := Option.ne_none_iff_exists'.mp
    (h.known hold hspeaks (streamFrame_noSyn hf id))
  rw [handleFrame_dropped ht (by rw [hid]; exact hl) hsynFlag] at hs'
  have hself : flightOf p x s' = p.inFlight x := by rw [hs']; rfl
  have hend : ∀ i, endAt s' i = endAt (p x) i := by
    intro i
    rw [hs']
    exact endAt_congr rfl rfl i
  refine ⟨h.pop (m := []) (by rw [hs']; exact (h.half x).withReading _)
    (by rw [hs']; exact hwire) (by rw [hs']; rfl) (fun i => by rw [hs']; exact Iff.rfl)
    (by rw [hself, List.append_nil]) (fun i g hg => by cases hg) hold hnot (streamFrame_noSyn hf),
    fun i => ?_⟩
  by_cases hi : i = id
  · refine Or.inr ⟨.dispatch x, ?_⟩
    have hpipeHead := pipe_stream hid harr hold i
    rw [if_pos hi] at hpipeHead
    have hends : (view (afterRecv p x s' left) i).ends = (p.view i).ends := by
      rw [ends_afterRecv, hend]
      exact Function.update_eq_self x (p.view i).ends
    have hpipe := pipe_pop (m := []) (by rw [hself, List.append_nil]) (fun i g hg => by cases hg)
      hnot i
    -- an end that is not in the table drops what it is told
    have hremoved : ((p.view i).ends x).removed = true := by
      show (endAt (p x) i).removed = true
      rw [hi, endAt, hobj]
      show ((p x).streams.lookup obj.id).isNone = true
      rw [(mem_of_findKey hobj).2, hl]
      rfl
    rw [Link.step, hpipeHead]
    simp only [List.cons_append, List.nil_append, hremoved, if_true, Function.update_eq_self]
    rw [← hends, ← hpipe]
  · exact Or.inl (view_other hid harr hold hself hnot hi (hend i))

/-- A frame of a stream in the table is posted to the strand of its object. -/
theorem step_posted (h : PairInv p) {id : UInt32} {f : Frame} (hf : StreamFrame id f)
    {tail : List (Header × List Byte)} (hwire : Encoded left)
    (hold : p.inFlight (!x) = (f.header, f.body) :: tail)
    (hs' : s' = withReading ((p x).handleFrame f.header f.body) .header)
    (hnot : inFlight (afterRecv p x s' left) (!x) = tail)
    (hl : (p x).streams.lookup id = some o) : Step p (afterRecv p x s' left) := by
  obtain ⟨hid, a, harr⟩ := StreamFrame.arrivals_eq hf
  have harr' : arrivals f.header f.body = [a] := harr
  obtain ⟨ht, -⟩ := StreamFrame.kind hf
  have hspeaks : Speaks id (f.header, f.body) := ⟨hid, by show f.arrivals ≠ []; rw [harr]; simp⟩
  have hknown := h.known hold hspeaks (streamFrame_noSyn hf id)
  obtain ⟨obj, ho, hobjid⟩ := (h.half x).table id o hl
  have hobj : find (p x) id = some obj := hobjid ▸ (h.half x).find_eq ho
  rw [handleFrame_data ht (by rw [hid]; exact hl), harr'] at hs'
  -- the peer has been introduced, or it could not have spoken
  have hcalled : (p x).synPosted obj.id = false := by
    rw [hobjid]
    exact h.called hold hspeaks hknown
  have hmod := (h.half x).modify ho
    (f := fun obj => { obj with tasks := obj.tasks ++ [.arrival a] })
    rfl (fun ec hm => by
      rcases List.mem_append.mp hm with hm | hm
      · exact (h.half x).noFail obj (List.mem_of_getElem? ho) ec hm
      · simp at hm) (by rw [hcalled]; intro hf; cases hf)
  have hself : flightOf p x s' = p.inFlight x := by rw [hs']; rfl
  have hfind : ∀ i, find s' i = none ↔ find (p x) i = none := by
    intro i
    rw [hs']
    show find ((p x).pushTasks o [.arrival a]) i = none ↔ _
    rw [find_pushTasks (h.half x) ho]
    split
    · rename_i hi
      rw [hi, hobjid, hobj]
      simp
    · exact Iff.rfl
  have hend : ∀ i, endAt s' i = if i = obj.id then
      { endOf (p x) obj with
        inbox := (endOf (p x) obj).inbox ++ [a]
        log := (endOf (p x) obj).log ++ [] } else endAt (p x) i := by
    intro i
    rw [hs']
    exact (endAt_congr rfl rfl i).trans (endAt_pushTasks (h.half x) ho [.arrival a] i)
  refine ⟨h.pop (m := []) (by rw [hs']; exact hmod.withReading _) (by rw [hs']; exact hwire)
    (by rw [hs']; rfl) hfind (by rw [hself, List.append_nil]) (fun i g hg => by cases hg) hold hnot
    (streamFrame_noSyn hf), fun i => ?_⟩
  by_cases hi : i = id
  · refine Or.inr ⟨.dispatch x, ?_⟩
    have hpipeHead := pipe_stream hid harr hold i
    rw [if_pos hi] at hpipeHead
    have hpipe := pipe_pop (m := []) (by rw [hself, List.append_nil]) (fun i g hg => by cases hg)
      hnot i
    have hends : (view (afterRecv p x s' left) i).ends =
        Function.update (p.view i).ends x (endAt s' i) := ends_afterRecv i
    have hview : (p.view i).ends x = endOf (p x) obj := by
      rw [hi, ← hobjid]
      exact h.end_eq ho
    have hremoved : ((p.view i).ends x).removed = false := by
      rw [hview]
      show ((p x).streams.lookup obj.id).isNone = false
      rw [hobjid, hl]
      rfl
    rw [Link.step, hpipeHead]
    simp only [List.cons_append, List.nil_append]
    rw [if_neg (by rw [hremoved]; simp), hview, ← hpipe]
    rw [hend, if_pos (hi.trans hobjid.symm), List.append_nil] at hends
    exact congrArg some (congrArg (Link.mk · _) hends.symm)
  · exact Or.inl (view_other hid harr' hold hself hnot hi
      ((hend i).trans (if_neg fun heq => hi (heq.trans hobjid))))

/-- A frame of a stream reaches the strand of its object, or is dropped. -/
theorem step_recvStream (h : PairInv p) {id : UInt32} {f : Frame} (hf : StreamFrame id f)
    {tail : List (Header × List Byte)} (hwire : Encoded left)
    (hold : p.inFlight (!x) = (f.header, f.body) :: tail)
    (hs' : s' = withReading ((p x).handleFrame f.header f.body) .header)
    (hnot : inFlight (afterRecv p x s' left) (!x) = tail) : Step p (afterRecv p x s' left) := by
  cases hl : (p x).streams.lookup id with
  | none => exact step_dropped h hf hwire hold hs' hnot hl
  | some o => exact step_posted h hf hwire hold hs' hnot hl

/-! ## Every read -/

/-- A control frame other than SYN: its receiver may post an answer, and no more. -/
theorem step_recvControl (h : PairInv p) {f : Frame} (hf : ControlFrame f)
    (hnosyn : ∀ i, f.header ≠ (synFrame i).header) {tail : List (Header × List Byte)}
    (hwire : Encoded left) (hold : p.inFlight (!x) = (f.header, f.body) :: tail)
    (hs' : s' = withReading ((p x).handleFrame f.header f.body) .header)
    (hnot : inFlight (afterRecv p x s' left) (!x) = tail) : Step p (afterRecv p x s' left) := by
  have hsaid := ControlFrame.arrivals_eq hf
  have hsame : (p x).handleFrame f.header f.body = p x → Step p (afterRecv p x s' left) := by
    intro hhandle
    rw [hhandle] at hs'
    refine step_recvSilent h (m := []) (by rw [hs']; exact (h.half x).withReading _)
      (by rw [hs']; exact hwire) (by rw [hs']; rfl) (by rw [hs']; rfl) (by rw [hs']; rfl) ?_
      (fun i g hg => by cases hg) hold hnot hnosyn hsaid
    rw [hs', List.append_nil]
    rfl
  cases hf with
  | syn id => exact absurd rfl (hnosyn id)
  | ack id => exact hsame (handleFrame_ack id)
  | pong => exact hsame handleFrame_pong
  | ping =>
      rw [handleFrame_ping] at hs'
      have hhalf := (h.half x).postSilent ⟨pongFrame, .none⟩ ControlFrame.pong pong_ne_syn
      have hposted := postedFrames_postFrame (p x) ⟨pongFrame, .none⟩
      refine step_recvSilent h (m := [(pongFrame.header, pongFrame.body)])
        (by rw [hs']; exact hhalf.withReading _) (by rw [hs']; exact hwire) (by rw [hs']; rfl)
        (by rw [hs']; rfl) (by rw [hs']; rfl) ?_
        (fun i => silent_control ControlFrame.pong (pong_ne_syn i)) hold hnot hnosyn hsaid
      have hposted' : postedFrames s' = postedFrames (p x) ++
          [(pongFrame.header, pongFrame.body)] := by
        rw [hs']
        exact hposted
      have hflight : flight (p !x).reading s' = flight (p !x).reading (p x) := by rw [hs']; rfl
      rw [flightOf, hposted', hflight, ← List.append_assoc]
      rfl

/-- A read of a running pair. -/
theorem step_recv (h : PairInv p) {e : Session.Event} (hnext : p.nextRead x = some (e, left))
    (hstep : (p x).step e = some s') : Step p (afterRecv p x s' left) := by
  have hwire : EncodedFrom (p x).reading (p !x).wire := by
    have hout := (h.half !x).output.wire
    rwa [Bool.not_not] at hout
  rcases recv_cases (h.half x).running hwire hnext hstep with
    ⟨hd, rfl, hw, hparse⟩ | ⟨f, hf, hs', hw, hparse⟩
  · exact step_recvHeader h hw hparse
  · have hold : p.inFlight (!x) = (f.header, f.body) ::
        (parseFrames left ++ (unsent (p !x)).map asReceived ++ postedFrames (p !x)) := by
      rw [inFlight_not, hparse]
      rfl
    have hnot : inFlight (afterRecv p x s' left) (!x) =
        parseFrames left ++ (unsent (p !x)).map asReceived ++ postedFrames (p !x) := by
      rw [inFlight_afterRecv_not, hs']
      rfl
    cases hf with
    | stream id hf => exact step_recvStream h hf hw hold hs' hnot
    | control hf =>
        cases hf with
        | syn id => exact step_recvSyn h hw hold hs' hnot
        | ack id => exact step_recvControl h (.ack id) (ack_ne_syn id) hw hold hs' hnot
        | ping => exact step_recvControl h .ping ping_ne_syn hw hold hs' hnot
        | pong => exact step_recvControl h .pong pong_ne_syn hw hold hs' hnot

end Pair

end Cfrp.Mux

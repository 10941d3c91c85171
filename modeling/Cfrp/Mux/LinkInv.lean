import Cfrp.Mux.Link

/-!
# The invariant of a link

Every operation of an end is a change of that end's own state followed by one of the two
loops. `Inv.write` and `Inv.read` deal with the loops once; what is left for each
operation is the change before its loop, which is one operation of `Lib.Channel`.
-/

namespace Cfrp.Mux

open Lib MuxStream

namespace Link

variable {l : Link} {x : Bool}

theorem no_close_of_data {es : List Effect} (h : ∀ a ∈ told es, ∃ b, a = .data b ∧ 0 < b.length) :
    Arrival.close ∉ told es := by
  intro hm
  obtain ⟨b, hb, -⟩ := h _ hm
  cases hb

theorem no_close_of_credit {es : List Effect} (h : ∀ a ∈ told es, ∃ d, a = .windowUpdate d) :
    Arrival.close ∉ told es := by
  intro hm
  obtain ⟨d, hd⟩ := h _ hm
  cases hd

theorem finLast_of_no_close {l : List Arrival} (h : .close ∉ l) : FinLast l := by
  induction l with
  | nil => trivial
  | cons a l ih =>
      have hl := ih fun hm => h (List.mem_cons_of_mem _ hm)
      cases a with
      | data b => exact hl
      | windowUpdate d => exact hl
      | close => exact absurd List.mem_cons_self h

theorem creditOf_of_data {l : List Arrival} (h : ∀ a ∈ l, ∃ b, a = .data b ∧ 0 < b.length) :
    creditOf l = 0 := by
  induction l with
  | nil => rfl
  | cons a l ih =>
      obtain ⟨b, rfl, -⟩ := h a List.mem_cons_self
      rw [creditOf_data]
      exact ih fun a ha => h a (List.mem_cons_of_mem _ ha)

theorem dataOf_of_credit {l : List Arrival} (h : ∀ a ∈ l, ∃ d, a = .windowUpdate d) :
    dataOf l = [] := by
  induction l with
  | nil => rfl
  | cons a l ih =>
      obtain ⟨d, rfl⟩ := h a List.mem_cons_self
      rw [dataOf_windowUpdate]
      exact ih fun a ha => h a (List.mem_cons_of_mem _ ha)

theorem nil_of_dataOf_nil {l : List Arrival} (h : ∀ a ∈ l, ∃ b, a = .data b ∧ 0 < b.length)
    (hnil : dataOf l = []) : l = [] := by
  cases l with
  | nil => rfl
  | cons a l =>
      obtain ⟨b, rfl, hb⟩ := h a List.mem_cons_self
      rw [dataOf_data, List.append_eq_nil_iff] at hnil
      rw [hnil.1] at hb
      exact absurd hb (Nat.lt_irrefl 0)

theorem delivered_of_none {cs : List Completion} (h : ∀ c ∈ cs, c.bytes = [] ∧ c.ec ≠ .eof) :
    delivered cs = [] := by
  induction cs with
  | nil => rfl
  | cons c cs ih =>
      rw [delivered_cons, (h c List.mem_cons_self).1]
      exact ih fun c hc => h c (List.mem_cons_of_mem _ hc)

theorem eofLast_append_none {cs cs' : List Completion} (h : EofLast cs)
    (h' : ∀ c ∈ cs', c.bytes = [] ∧ c.ec ≠ .eof) : EofLast (cs ++ cs') := by
  refine h.append ?_ fun _ _ _ => delivered_of_none h'
  intro m c r heq hec
  exact absurd hec (h' c (by rw [heq]; simp)).2

/-! ## The two loops -/

/-- What a direction says about an end as a receiver, when that end only wrote. -/
theorem Direction.receiver_wrote {a : Bool} (hne : a ≠ x) (h : Direction l a x)
    {s' : MuxStream} {es : List Effect} (hw : Wrote (l.ends x).stream es s') :
    Direction (l.perform x (s', es)) a x := by
  have hends : (l.perform x (s', es)).ends a = l.ends a := perform_ends_ne hne _
  have htransit : (l.perform x (s', es)).transit a x = l.transit a x := transit_perform_to hne _
  have hsame := hw.same
  have hlocal : s'.localClosed = (l.ends x).stream.localClosed := by rw [hsame]
  have hremote : s'.remoteClosed = (l.ends x).stream.remoteClosed := by rw [hsame]
  have hqueue : s'.readQueue = (l.ends x).stream.readQueue := by rw [hsame]
  have hoffset : s'.readQueueOffset = (l.ends x).stream.readQueueOffset := by rw [hsame]
  have hconsumed : s'.consumedSinceLastUpdate = (l.ends x).stream.consumedSinceLastUpdate := by
    rw [hsame]
  have hunread : s'.unread = (l.ends x).stream.unread := by rw [unread, hqueue, hoffset]; rfl
  constructor
  case session => rw [hends]; exact h.session
  case lateWrite => rw [hends]; exact h.lateWrite
  case notFinished =>
    rw [hends, htransit, perform_ends_self]
    show _ → _ ∧ s'.remoteClosed = false
    rw [hremote]
    exact h.notFinished
  case finSent =>
    rw [hends, htransit, perform_ends_self]
    show _ → s'.localClosed = false → _ ∨ s'.remoteClosed = true
    rw [hremote, hlocal]
    exact h.finSent
  case removed =>
    rw [perform_ends_self]
    show ((l.ends x).removed || removes es) = true → s'.localClosed = true ∧ s'.remoteClosed = true
    rw [hw.keeps, Bool.or_false, hlocal, hremote]
    exact h.removed
  case flow =>
    intro hlate hopen
    rw [hends] at hlate
    rw [perform_ends_self] at hopen
    have hflow := h.flow hlate (hlocal ▸ hopen)
    -- all that an end sends when it writes is payload, which is no credit for the other one
    have hchannel : (l.perform x (s', es)).channel a x = l.channel a x := by
      simp only [channel, hends, htransit, perform_ends_self,
        transit_perform_from hne, delivered_append, creditOf_append, creditOf_of_data hw.onlyData,
        delivered_of_none hw.posts, List.append_nil, Nat.add_zero, hunread, hconsumed]
    constructor
    case ok => rw [hchannel]; exact hflow.ok
    case queueOk =>
      rw [perform_ends_self]
      show QueueOk s'.readQueue s'.readQueueOffset
      rw [hqueue, hoffset]; exact hflow.queueOk
    case small =>
      rw [perform_ends_self]
      show s'.consumedSinceLastUpdate < _
      rw [hconsumed]; exact hflow.small
    case blocks => rw [htransit]; exact hflow.blocks
    case finLast => rw [htransit]; exact hflow.finLast
    case finished =>
      rw [htransit, perform_ends_self]
      show s'.remoteClosed = true → _
      rw [hremote]; exact hflow.finished
    case eof =>
      rw [perform_ends_self]
      intro c hc hec
      show s'.remoteClosed = true ∧ s'.unread = []
      rw [hremote, hunread]
      rcases List.mem_append.mp hc with hc | hc
      · exact hflow.eof c hc hec
      · exact absurd hec (hw.posts c hc).2
    case eofLast =>
      rw [perform_ends_self]
      exact eofLast_append_none hflow.eofLast hw.posts

/-- What a direction says about an end as a sender, when that end only wrote. -/
theorem Direction.sender_wrote {b : Bool} (hne : b ≠ x) (h : Direction l x b)
    {s' : MuxStream} {es : List Effect} (hw : Wrote (l.ends x).stream es s') :
    Direction (l.perform x (s', es)) x b := by
  have hends : (l.perform x (s', es)).ends b = l.ends b := perform_ends_ne hne _
  have htransit : (l.perform x (s', es)).transit x b = l.transit x b ++ told es :=
    transit_perform_from hne _
  have hlocal : s'.localClosed = (l.ends x).stream.localClosed := by rw [hw.same]
  have hsession : s'.session = (l.ends x).stream.session := by rw [hw.same]
  constructor
  case session =>
    rw [perform_ends_self]
    exact hsession.trans h.session
  case lateWrite =>
    rw [perform_ends_self]
    show _ → s'.localClosed = true
    rw [hlocal]; exact h.lateWrite
  case notFinished =>
    rw [perform_ends_self, htransit, hends]
    show s'.localClosed = false → _
    rw [hlocal]
    intro hopen
    obtain ⟨hnot, hr⟩ := h.notFinished hopen
    refine ⟨?_, hr⟩
    rw [List.mem_append, not_or]
    exact ⟨hnot, no_close_of_data hw.onlyData⟩
  case finSent =>
    rw [perform_ends_self, htransit, hends]
    show s'.localClosed = true → _
    rw [hlocal]
    intro hclosed hopen
    rcases h.finSent hclosed hopen with hm | hr
    · exact Or.inl (List.mem_append_left _ hm)
    · exact Or.inr hr
  case removed => rw [hends]; exact h.removed
  case flow =>
    intro hlate hopen
    rw [perform_ends_self] at hlate
    rw [hends] at hopen
    have hflow := h.flow hlate hopen
    have hok := hflow.ok
    have hbytes := hw.bytes h.session
    have hwindow := hw.window
    -- a closed sender has nothing left to send
    have hsilent : (l.ends x).stream.localClosed = true → told es = [] := by
      intro hclosed
      have hnil : (l.ends x).stream.pendingBytes = [] := (hok.ofClosed hclosed).1
      rw [hnil] at hbytes
      exact nil_of_dataOf_nil hw.onlyData (List.append_eq_nil_iff.mp hbytes.symm).1
    -- what was sent is a first part of what was pending, and what is pending now is the rest
    have hdata : dataOf (told es) = (l.ends x).stream.pendingBytes.take
        (dataOf (told es)).length := by
      rw [hbytes, List.take_left]
    have hrest : s'.pendingBytes = (l.ends x).stream.pendingBytes.drop
        (dataOf (told es)).length := by
      rw [hbytes, List.drop_left]
    have hchannel : (l.perform x (s', es)).channel x b =
        (l.channel x b).send (dataOf (told es)).length := by
      have hwin : s'.remoteWindowSize =
          (l.ends x).stream.remoteWindowSize - (dataOf (told es)).length := by omega
      simp only [channel, Channel.send, hends, htransit, perform_ends_self, dataOf_append,
        transit_perform_to hne, ← hdata, ← hrest, hwin, hlocal]
    constructor
    case ok =>
      rw [hchannel]
      refine hok.send ?_ ?_
      · show _ ≤ (l.ends x).stream.remoteWindowSize
        omega
      · show _ ≤ (l.ends x).stream.pendingBytes.length
        rw [hbytes, List.length_append]
        omega
    case queueOk => rw [hends]; exact hflow.queueOk
    case small => rw [hends]; exact hflow.small
    case blocks =>
      rw [htransit]
      intro d hd
      rcases List.mem_append.mp hd with hd | hd
      · exact hflow.blocks d hd
      · obtain ⟨d', heq, hpos⟩ := hw.onlyData _ hd
        cases heq
        exact hpos
    case finLast =>
      rw [htransit]
      -- while the sender is open its FIN is not on the way, and a closed one sends nothing
      refine hflow.finLast.append ?_ ?_
      · cases hc : (l.ends x).stream.localClosed with
        | true => rw [hsilent hc]; trivial
        | false =>
            exact finLast_of_no_close (no_close_of_data hw.onlyData)
      · intro hm
        cases hc : (l.ends x).stream.localClosed with
        | true => rw [hsilent hc]; rfl
        | false => exact absurd hm (h.notFinished hc).1
    case finished =>
      rw [htransit, hends]
      intro hr
      cases hc : (l.ends x).stream.localClosed with
      | true => rw [hsilent hc, List.append_nil]; exact hflow.finished hr
      | false =>
          rw [(h.notFinished hc).2] at hr
          cases hr
    case eof => rw [hends]; exact hflow.eof
    case eofLast => rw [hends]; exact hflow.eofLast

/-- **Writing keeps the invariant.** -/
theorem Inv.write (h : Inv l) {s' : MuxStream} {es : List Effect}
    (hw : Wrote (l.ends x).stream es s') : Inv (l.perform x (s', es)) := by
  intro a b hab
  rcases sides hab x with rfl | rfl
  · exact (h a b hab).sender_wrote (Ne.symm hab) hw
  · exact (h a b hab).receiver_wrote hab hw

/-- The credit that is in the receiver's hands. -/
theorem Flow.canRead {x y : Bool} (h : Flow l x y) (hs : (l.ends y).stream.session = true) :
    CanRead (l.ends y).stream where
  queueOk := h.queueOk
  session := hs
  small := h.small
  fits := by
    have hc := h.ok.conserved
    have hW : initialWindowSize = 131072 := rfl
    simp only [channel] at hc
    omega

/-- What a direction says about an end as a sender, when that end only read. -/
theorem Direction.sender_read {b : Bool} (hne : b ≠ x) (h : Direction l x b) :
    Direction (l.perform x (l.ends x).stream.doRead) x b := by
  have hcredit := doRead_onlyCredit (l.ends x).stream
  have hsame := doRead_same (l.ends x).stream
  generalize (l.ends x).stream.doRead = r at hcredit hsame
  have hends : (l.perform x r).ends b = l.ends b := perform_ends_ne hne _
  have htransit : (l.perform x r).transit x b = l.transit x b ++ told r.2 :=
    transit_perform_from hne _
  have hlocal : r.1.localClosed = (l.ends x).stream.localClosed := by rw [hsame]
  have hsession : r.1.session = (l.ends x).stream.session := by rw [hsame]
  have hwindow : r.1.remoteWindowSize = (l.ends x).stream.remoteWindowSize := by rw [hsame]
  have hpending : r.1.pendingBytes = (l.ends x).stream.pendingBytes := by rw [hsame]; rfl
  have hdata := dataOf_of_credit hcredit
  constructor
  case session =>
    rw [perform_ends_self]
    exact hsession.trans h.session
  case lateWrite =>
    rw [perform_ends_self]
    show _ → r.1.localClosed = true
    rw [hlocal]; exact h.lateWrite
  case notFinished =>
    rw [perform_ends_self, htransit, hends]
    show r.1.localClosed = false → _
    rw [hlocal]
    intro hopen
    obtain ⟨hnot, hr⟩ := h.notFinished hopen
    refine ⟨?_, hr⟩
    rw [List.mem_append, not_or]
    exact ⟨hnot, no_close_of_credit hcredit⟩
  case finSent =>
    rw [perform_ends_self, htransit, hends]
    show r.1.localClosed = true → _
    rw [hlocal]
    intro hclosed hopen
    rcases h.finSent hclosed hopen with hm | hr
    · exact Or.inl (List.mem_append_left _ hm)
    · exact Or.inr hr
  case removed => rw [hends]; exact h.removed
  case flow =>
    intro hlate hopen
    rw [perform_ends_self] at hlate
    rw [hends] at hopen
    have hflow := h.flow hlate hopen
    -- credit for the other direction is no payload of this one
    have hchannel : (l.perform x r).channel x b = l.channel x b := by
      simp only [channel, hends, htransit, perform_ends_self, dataOf_append,
        transit_perform_to hne, hdata, List.append_nil, hlocal, hwindow, hpending]
    constructor
    case ok => rw [hchannel]; exact hflow.ok
    case queueOk => rw [hends]; exact hflow.queueOk
    case small => rw [hends]; exact hflow.small
    case blocks =>
      rw [htransit]
      intro d hd
      rcases List.mem_append.mp hd with hd | hd
      · exact hflow.blocks d hd
      · obtain ⟨d', heq⟩ := hcredit _ hd
        cases heq
    case finLast =>
      rw [htransit]
      exact hflow.finLast.append (finLast_of_dataOf_nil hdata) fun _ => hdata
    case finished =>
      rw [htransit, hends, dataOf_append, hdata, List.append_nil]
      exact hflow.finished
    case eof => rw [hends]; exact hflow.eof
    case eofLast => rw [hends]; exact hflow.eofLast

/-- What a direction says about an end as a receiver, when that end only read. -/
theorem Direction.receiver_read {a : Bool} (hne : a ≠ x) (h : Direction l a x)
    (hsession : (l.ends x).stream.session = true) :
    Direction (l.perform x (l.ends x).stream.doRead) a x := by
  have hends : (l.perform x (l.ends x).stream.doRead).ends a = l.ends a := perform_ends_ne hne _
  have htransit : (l.perform x (l.ends x).stream.doRead).transit a x = l.transit a x :=
    transit_perform_to hne _
  have hsame := doRead_same (l.ends x).stream
  have hlocal : (l.ends x).stream.doRead.1.localClosed = (l.ends x).stream.localClosed := by
    rw [hsame]
  have hremote : (l.ends x).stream.doRead.1.remoteClosed = (l.ends x).stream.remoteClosed := by
    rw [hsame]
  constructor
  case session => rw [hends]; exact h.session
  case lateWrite => rw [hends]; exact h.lateWrite
  case notFinished =>
    rw [hends, htransit, perform_ends_self]
    show _ → _ ∧ (l.ends x).stream.doRead.1.remoteClosed = false
    rw [hremote]; exact h.notFinished
  case finSent =>
    rw [hends, htransit, perform_ends_self]
    show _ → (l.ends x).stream.doRead.1.localClosed = false →
      _ ∨ (l.ends x).stream.doRead.1.remoteClosed = true
    rw [hremote, hlocal]; exact h.finSent
  case removed =>
    rw [perform_ends_self]
    intro hr
    rcases Bool.or_eq_true_iff.mp hr with hr | hr
    · show (l.ends x).stream.doRead.1.localClosed = true ∧ _
      rw [hlocal, hremote]
      exact h.removed hr
    · exact closed_of_doRead hr
  case flow =>
    intro hlate hopen
    rw [hends] at hlate
    rw [perform_ends_self] at hopen
    have hflow := h.flow hlate (hlocal ▸ hopen)
    have hread := doRead_readFrom (hflow.canRead hsession)
    generalize (l.ends x).stream.doRead = r at *
    have hbytes := hread.bytes
    have hcredit := hread.credit
    -- what was delivered is a first part of what was unread
    have htake : delivered (posts r.2) =
        (l.ends x).stream.unread.take (delivered (posts r.2)).length := by
      rw [hbytes, List.take_left]
    have hdrop : r.1.unread = (l.ends x).stream.unread.drop (delivered (posts r.2)).length := by
      rw [hbytes, List.drop_left]
    have hchannel : (l.perform x r).channel a x =
        (l.channel a x).read (delivered (posts r.2)).length (creditOf (told r.2)) := by
      have hcons : r.1.consumedSinceLastUpdate = (l.ends x).stream.consumedSinceLastUpdate +
          (delivered (posts r.2)).length - creditOf (told r.2) := by omega
      simp only [channel, Channel.read, hends, htransit, perform_ends_self, delivered_append,
        transit_perform_from hne, creditOf_append, hcons, ← htake, ← hdrop]
    constructor
    case ok =>
      rw [hchannel]
      refine hflow.ok.read ?_ ?_
      · show _ ≤ (l.ends x).stream.unread.length
        rw [hbytes, List.length_append]
        omega
      · show _ ≤ (l.ends x).stream.consumedSinceLastUpdate + _
        omega
    case queueOk => rw [perform_ends_self]; exact hread.queueOk
    case small => rw [perform_ends_self]; exact hread.small
    case blocks => rw [htransit]; exact hflow.blocks
    case finLast => rw [htransit]; exact hflow.finLast
    case finished =>
      rw [htransit, perform_ends_self]
      show r.1.remoteClosed = true → _
      rw [hremote]; exact hflow.finished
    case eof =>
      rw [perform_ends_self]
      intro c hc hec
      show r.1.remoteClosed = true ∧ r.1.unread = []
      rw [hremote]
      rcases List.mem_append.mp hc with hc | hc
      · -- after an EOF there was nothing left to deliver
        obtain ⟨hr, hnil⟩ := hflow.eof c hc hec
        rw [hnil] at hbytes
        exact ⟨hr, (List.append_eq_nil_iff.mp hbytes.symm).2⟩
      · exact hread.eof c hc hec
    case eofLast =>
      rw [perform_ends_self]
      refine hflow.eofLast.append hread.eofLast fun c hc hec => ?_
      rw [(hflow.eof c hc hec).2] at hbytes
      exact (List.append_eq_nil_iff.mp hbytes.symm).1

/-- **Reading keeps the invariant.** -/
theorem Inv.read (h : Inv l) : Inv (l.perform x (l.ends x).stream.doRead) := by
  intro a b hab
  rcases sides hab x with rfl | rfl
  · exact (h a b hab).sender_read (Ne.symm hab)
  · exact (h a b hab).receiver_read hab (h b a (Ne.symm hab)).session

/-! ## What comes before a loop -/

/-- Nothing that concerns the sending direction of an end has changed. -/
structure SameSender (e e' : End) : Prop where
  session : e'.stream.session = e.stream.session
  lateWrite : e'.lateWrite = e.lateWrite
  localClosed : e'.stream.localClosed = e.stream.localClosed
  window : e'.stream.remoteWindowSize = e.stream.remoteWindowSize
  pending : e'.stream.pendingBytes = e.stream.pendingBytes
  accepted : e'.accepted = e.accepted
  sent : e'.sent = e.sent
  credit : creditOf e'.inbox = creditOf e.inbox

/-- Nothing that concerns the receiving direction of an end has changed. -/
structure SameReceiver (e e' : End) : Prop where
  localClosed : e'.stream.localClosed = e.stream.localClosed
  remoteClosed : e'.stream.remoteClosed = e.stream.remoteClosed
  removed : e'.removed = e.removed
  queue : e'.stream.readQueue = e.stream.readQueue
  offset : e'.stream.readQueueOffset = e.stream.readQueueOffset
  consumed : e'.stream.consumedSinceLastUpdate = e.stream.consumedSinceLastUpdate
  log : e'.log = e.log
  inbox : e.inbox = e'.inbox ∨ ∃ d, e.inbox = .windowUpdate d :: e'.inbox

theorem Direction.sender_same {b : Bool} (hne : b ≠ x) (h : Direction l x b) {e : End}
    (he : SameSender (l.ends x) e) : Direction (l.setEnd x e) x b := by
  have hends : (l.setEnd x e).ends b = l.ends b := setEnd_ends_ne hne e
  have htransit : (l.setEnd x e).transit x b = l.transit x b := transit_setEnd_from hne e
  constructor
  case session => rw [setEnd_ends_self, he.session]; exact h.session
  case lateWrite => rw [setEnd_ends_self, he.lateWrite, he.localClosed]; exact h.lateWrite
  case notFinished => rw [setEnd_ends_self, he.localClosed, htransit, hends]; exact h.notFinished
  case finSent => rw [setEnd_ends_self, he.localClosed, htransit, hends]; exact h.finSent
  case removed => rw [hends]; exact h.removed
  case flow =>
    rw [setEnd_ends_self, he.lateWrite, hends]
    intro hlate hopen
    have hflow := h.flow hlate hopen
    have hchannel : (l.setEnd x e).channel x b = l.channel x b := by
      have hcredit : creditOf ((l.setEnd x e).transit b x) = creditOf (l.transit b x) := by
        rw [transit_setEnd_to, creditOf_append, he.credit, transit, creditOf_append]
      simp only [channel, hends, htransit, setEnd_ends_self, hcredit, he.window, he.pending,
        he.localClosed, he.accepted, he.sent]
    exact ⟨by rw [hchannel]; exact hflow.ok, by rw [hends]; exact hflow.queueOk,
      by rw [hends]; exact hflow.small, by rw [htransit]; exact hflow.blocks,
      by rw [htransit]; exact hflow.finLast, by rw [htransit, hends]; exact hflow.finished,
      by rw [hends]; exact hflow.eof, by rw [hends]; exact hflow.eofLast⟩

theorem Direction.receiver_same {a : Bool} (hne : a ≠ x) (h : Direction l a x) {e : End}
    (he : SameReceiver (l.ends x) e) : Direction (l.setEnd x e) a x := by
  have hends : (l.setEnd x e).ends a = l.ends a := setEnd_ends_ne hne e
  have htransit : l.transit a x = (l.setEnd x e).transit a x ∨
      ∃ d, l.transit a x = .windowUpdate d :: (l.setEnd x e).transit a x := by
    rw [transit_setEnd_to, transit]
    rcases he.inbox with heq | ⟨d, heq⟩
    · exact Or.inl (by rw [heq])
    · exact Or.inr ⟨d, by rw [heq]; rfl⟩
  have hclose : .close ∈ l.transit a x ↔ .close ∈ (l.setEnd x e).transit a x := by
    rcases htransit with heq | ⟨d, heq⟩
    · rw [heq]
    · rw [heq]
      simp
  have hdata : dataOf (l.transit a x) = dataOf ((l.setEnd x e).transit a x) := by
    rcases htransit with heq | ⟨d, heq⟩
    · rw [heq]
    · rw [heq]
      rfl
  have hunread : e.stream.unread = (l.ends x).stream.unread := by
    rw [unread, he.queue, he.offset]
    rfl
  constructor
  case session => rw [hends]; exact h.session
  case lateWrite => rw [hends]; exact h.lateWrite
  case notFinished => rw [hends, setEnd_ends_self, he.remoteClosed, ← hclose]; exact h.notFinished
  case finSent =>
    rw [hends, setEnd_ends_self, he.remoteClosed, he.localClosed, ← hclose]; exact h.finSent
  case removed =>
    rw [setEnd_ends_self, he.removed, he.remoteClosed, he.localClosed]; exact h.removed
  case flow =>
    rw [setEnd_ends_self, hends, he.localClosed]
    intro hlate hopen
    have hflow := h.flow hlate hopen
    have hchannel : (l.setEnd x e).channel a x = l.channel a x := by
      simp only [channel, hends, setEnd_ends_self, ← hdata, transit_setEnd_from hne, hunread,
        he.consumed, he.log]
    constructor
    case ok => rw [hchannel]; exact hflow.ok
    case queueOk => rw [setEnd_ends_self, he.queue, he.offset]; exact hflow.queueOk
    case small => rw [setEnd_ends_self, he.consumed]; exact hflow.small
    case blocks =>
      intro d hd
      refine hflow.blocks d ?_
      rcases htransit with heq | ⟨d', heq⟩
      · rw [heq]; exact hd
      · rw [heq]; exact List.mem_cons_of_mem _ hd
    case finLast =>
      have hfin := hflow.finLast
      rcases htransit with heq | ⟨d', heq⟩
      · rw [heq] at hfin; exact hfin
      · rw [heq] at hfin; exact hfin
    case finished => rw [setEnd_ends_self, he.remoteClosed, ← hdata]; exact hflow.finished
    case eof => rw [setEnd_ends_self, he.log, he.remoteClosed, hunread]; exact hflow.eof
    case eofLast => rw [setEnd_ends_self, he.log]; exact hflow.eofLast

/-- A read joins the queue. -/
theorem Inv.queueRead (h : Inv l) (pr : PendingRead) :
    Inv (l.setEnd x { l.ends x with
      stream := { (l.ends x).stream with
        pendingReads := (l.ends x).stream.pendingReads ++ [pr] } }) := by
  intro a b hab
  rcases sides hab x with rfl | rfl
  · exact (h a b hab).sender_same (Ne.symm hab) ⟨rfl, rfl, rfl, rfl, rfl, rfl, rfl, rfl⟩
  · exact (h a b hab).receiver_same hab ⟨rfl, rfl, rfl, rfl, rfl, rfl, rfl, Or.inl rfl⟩

/-- A write joins the queue. -/
theorem Inv.queueWrite (h : Inv l) (pw : PendingWrite)
    (hroom : (l.ends x).stream.pendingWrites.length < maxPendingWrites) :
    Inv (l.setEnd x { accept (l.ends x) pw.buffers with
      stream := { (l.ends x).stream with
        pendingWrites := (l.ends x).stream.pendingWrites ++ [pw] } }) := by
  have haccept : accept (l.ends x) pw.buffers =
      { l.ends x with
        accepted := (l.ends x).accepted ++ pw.buffers.flatten
        lateWrite := (l.ends x).lateWrite || (l.ends x).stream.localClosed } :=
    if_neg (by omega)
  rw [haccept]
  intro a b hab
  rcases sides hab x with rfl | rfl
  · have hd := h a b hab
    have hends := setEnd_ends_ne (l := l) (Ne.symm hab)
    have htransit := transit_setEnd_from (l := l) (Ne.symm hab)
    constructor
    case session => rw [setEnd_ends_self]; exact hd.session
    case lateWrite =>
      rw [setEnd_ends_self]
      -- a write after `close` is late, and the stream is closed
      intro hlate
      rcases Bool.or_eq_true_iff.mp hlate with hlate | hclosed
      · exact hd.lateWrite hlate
      · exact hclosed
    case notFinished => rw [setEnd_ends_self, htransit, hends]; exact hd.notFinished
    case finSent => rw [setEnd_ends_self, htransit, hends]; exact hd.finSent
    case removed => rw [hends]; exact hd.removed
    case flow =>
      rw [setEnd_ends_self, hends]
      intro hlate hopen
      obtain ⟨hlate, hlocal⟩ := Bool.or_eq_false_iff.mp hlate
      have hflow := hd.flow hlate hopen
      refine ⟨?_, by rw [hends]; exact hflow.queueOk, by rw [hends]; exact hflow.small,
        by rw [htransit]; exact hflow.blocks, by rw [htransit]; exact hflow.finLast,
        by rw [htransit, hends]; exact hflow.finished, by rw [hends]; exact hflow.eof,
        by rw [hends]; exact hflow.eofLast⟩
      -- the channel accepts the payload
      have hchannel := hflow.ok.accept hlocal pw.buffers.flatten
      have hpending : ((l.ends a).stream.pendingWrites ++ [pw]).flatMap
          (fun pw => pw.buffers.flatten) = (l.ends a).stream.pendingBytes ++
            pw.buffers.flatten := by
        rw [List.flatMap_append, List.flatMap_singleton]
        rfl
      simp only [channel, Channel.accept] at hchannel
      simp only [channel, hends, htransit, setEnd_ends_self, transit_setEnd_to,
        pendingBytes, hpending]
      exact hchannel
  · exact (h a b hab).receiver_same hab ⟨rfl, rfl, rfl, rfl, rfl, rfl, rfl, Or.inl rfl⟩

/-- The window grows by what arrives. -/
theorem Inv.regain (h : Inv l) {delta : UInt32} {inbox : List Arrival}
    (hin : (l.ends x).inbox = .windowUpdate delta :: inbox) :
    Inv (l.setEnd x { l.ends x with
      inbox := inbox
      stream := { (l.ends x).stream with
        remoteWindowSize := min ((l.ends x).stream.remoteWindowSize + delta.toNat)
          maxMessageSize } }) := by
  intro a b hab
  rcases sides hab x with rfl | rfl
  · have hd := h a b hab
    have hends := setEnd_ends_ne (l := l) (Ne.symm hab)
    have htransit := transit_setEnd_from (l := l) (Ne.symm hab)
    constructor
    case session => rw [setEnd_ends_self]; exact hd.session
    case lateWrite => rw [setEnd_ends_self]; exact hd.lateWrite
    case notFinished => rw [setEnd_ends_self, htransit, hends]; exact hd.notFinished
    case finSent => rw [setEnd_ends_self, htransit, hends]; exact hd.finSent
    case removed => rw [hends]; exact hd.removed
    case flow =>
      rw [setEnd_ends_self, hends]
      intro hlate hopen
      have hflow := hd.flow hlate hopen
      refine ⟨?_, by rw [hends]; exact hflow.queueOk, by rw [hends]; exact hflow.small,
        by rw [htransit]; exact hflow.blocks, by rw [htransit]; exact hflow.finLast,
        by rw [htransit, hends]; exact hflow.finished, by rw [hends]; exact hflow.eof,
        by rw [hends]; exact hflow.eofLast⟩
      have hcredit : creditOf (l.transit b a) = delta.toNat + creditOf (inbox ++ l.pipe b) := by
        rw [transit, hin, List.cons_append, creditOf_windowUpdate]
      -- all the credit there is fits the cap
      have hcap : min ((l.ends a).stream.remoteWindowSize + delta.toNat) maxMessageSize =
          (l.ends a).stream.remoteWindowSize + delta.toNat := by
        have hc := hflow.ok.conserved
        have hW : initialWindowSize = 131072 := rfl
        have hM : maxMessageSize = 1048576 := rfl
        simp only [channel] at hc
        omega
      have hchannel := hflow.ok.regain (n := delta.toNat) (by simp only [channel]; omega)
      simp only [channel, Channel.regain] at hchannel
      simp only [channel, hends, htransit, setEnd_ends_self, hcap]
      rw [transit_setEnd_to]
      have hleft : creditOf (inbox ++ l.pipe b) = creditOf (l.transit b a) - delta.toNat := by omega
      rw [hleft]
      exact hchannel
  · exact (h a b hab).receiver_same hab
      ⟨rfl, rfl, rfl, rfl, rfl, rfl, rfl, Or.inr ⟨delta, hin⟩⟩

/-- A block reaches the read queue. -/
theorem Inv.arrive (h : Inv l) {block : List Byte} {inbox : List Arrival}
    (hin : (l.ends x).inbox = .data block :: inbox) :
    Inv (l.setEnd x { l.ends x with
      inbox := inbox
      stream := { (l.ends x).stream with
        readQueue := (l.ends x).stream.readQueue ++ [block] } }) := by
  intro a b hab
  rcases sides hab x with rfl | rfl
  · refine (h a b hab).sender_same (Ne.symm hab) ⟨rfl, rfl, rfl, rfl, rfl, rfl, rfl, ?_⟩
    rw [hin, creditOf_data]
  · have hd := h a b hab
    have hends := setEnd_ends_ne (l := l) hab
    have hcons : l.transit a b = .data block :: (inbox ++ l.pipe a) := by
      rw [transit, hin]
      rfl
    constructor
    case session => rw [hends]; exact hd.session
    case lateWrite => rw [hends]; exact hd.lateWrite
    case notFinished =>
      rw [hends, setEnd_ends_self, transit_setEnd_to]
      intro hopen
      obtain ⟨hnot, hr⟩ := hd.notFinished hopen
      rw [hcons] at hnot
      exact ⟨fun hm => hnot (List.mem_cons_of_mem _ hm), hr⟩
    case finSent =>
      rw [hends, setEnd_ends_self, transit_setEnd_to]
      intro hclosed hopen
      have hfin := hd.finSent hclosed hopen
      rw [hcons] at hfin
      simpa using hfin
    case removed => rw [setEnd_ends_self]; exact hd.removed
    case flow =>
      rw [hends, setEnd_ends_self]
      intro hlate hopen
      have hflow := hd.flow hlate hopen
      have hpos : 0 < block.length := hflow.blocks block (by rw [hcons]; exact List.mem_cons_self)
      have hdata : dataOf (l.transit a b) = block ++ dataOf (inbox ++ l.pipe a) := by
        rw [hcons, dataOf_data]
      -- after FIN no block can arrive
      have hnotFinished : (l.ends b).stream.remoteClosed ≠ true := by
        intro hr
        have hnil := hflow.finished hr
        rw [hdata, List.append_eq_nil_iff] at hnil
        rw [hnil.1] at hpos
        exact Nat.lt_irrefl 0 hpos
      -- the block is behind all that is unread
      have hunread : ((l.ends b).stream.readQueue ++ [block]).flatten.drop
          (l.ends b).stream.readQueueOffset = (l.ends b).stream.unread ++ block := by
        rw [List.flatten_append, List.drop_append_of_le_length hflow.queueOk.le]
        simp [unread]
      constructor
      case ok =>
        have hchannel := hflow.ok.arrive block.length
        simp only [channel, Channel.arrive, hdata, List.take_left, List.drop_left] at hchannel
        simp only [channel, hends, setEnd_ends_self, transit_setEnd_to, transit_setEnd_from hab,
          unread, hunread]
        exact hchannel
      case queueOk => rw [setEnd_ends_self]; exact hflow.queueOk.concat hpos
      case small => rw [setEnd_ends_self]; exact hflow.small
      case blocks =>
        rw [transit_setEnd_to]
        intro d hdm
        exact hflow.blocks d (by rw [hcons]; exact List.mem_cons_of_mem _ hdm)
      case finLast =>
        have hfin := hflow.finLast
        rw [hcons] at hfin
        rw [transit_setEnd_to]
        exact hfin
      case finished =>
        rw [setEnd_ends_self]
        intro hr
        exact absurd hr hnotFinished
      case eof =>
        rw [setEnd_ends_self]
        intro c hc hec
        exact absurd (hflow.eof c hc hec).1 hnotFinished
      case eofLast => rw [setEnd_ends_self]; exact hflow.eofLast

/-- FIN reaches the stream. -/
theorem Inv.finish (h : Inv l) {inbox : List Arrival} (hin : (l.ends x).inbox = .close :: inbox) :
    Inv (l.setEnd x { l.ends x with
      inbox := inbox
      stream := { (l.ends x).stream with remoteClosed := true } }) := by
  intro a b hab
  rcases sides hab x with rfl | rfl
  · refine (h a b hab).sender_same (Ne.symm hab) ⟨rfl, rfl, rfl, rfl, rfl, rfl, rfl, ?_⟩
    rw [hin, creditOf_close]
  · have hd := h a b hab
    have hends := setEnd_ends_ne (l := l) hab
    have hcons : l.transit a b = .close :: (inbox ++ l.pipe a) := by
      rw [transit, hin]
      rfl
    constructor
    case session => rw [hends]; exact hd.session
    case lateWrite => rw [hends]; exact hd.lateWrite
    case notFinished =>
      rw [hends]
      intro hopen
      -- the FIN on the way says that the sender has closed
      have hnot := (hd.notFinished hopen).1
      rw [hcons] at hnot
      exact absurd List.mem_cons_self hnot
    case finSent =>
      rw [setEnd_ends_self]
      exact fun _ _ => Or.inr rfl
    case removed =>
      rw [setEnd_ends_self]
      exact fun hr => ⟨(hd.removed hr).1, rfl⟩
    case flow =>
      rw [hends, setEnd_ends_self]
      intro hlate hopen
      have hflow := hd.flow hlate hopen
      -- nothing but credit is behind the FIN
      have hfin := hflow.finLast
      rw [hcons] at hfin
      constructor
      case ok =>
        have hchannel := hflow.ok
        simp only [channel, hcons, dataOf_close] at hchannel
        simp only [channel, hends, setEnd_ends_self, transit_setEnd_to, transit_setEnd_from hab,
          unread]
        exact hchannel
      case queueOk => rw [setEnd_ends_self]; exact hflow.queueOk
      case small => rw [setEnd_ends_self]; exact hflow.small
      case blocks =>
        rw [transit_setEnd_to]
        intro d hdm
        exact hflow.blocks d (by rw [hcons]; exact List.mem_cons_of_mem _ hdm)
      case finLast => rw [transit_setEnd_to]; exact hfin.2
      case finished => rw [transit_setEnd_to]; exact fun _ => hfin.1
      case eof =>
        rw [setEnd_ends_self]
        exact fun c hc hec => ⟨rfl, (hflow.eof c hc hec).2⟩
      case eofLast => rw [setEnd_ends_self]; exact hflow.eofLast

/-! ## Closing -/

theorem close_eq {s : MuxStream} (hopen : s.localClosed = false) (hs : s.session = true) :
    s.close.1 = { s with
      localClosed := true, pendingReads := [], pendingWrites := [], readQueue := [] } ∧
    told s.close.2 = [.close] ∧ (removes s.close.2 = true → s.remoteClosed = true) := by
  rw [close, if_neg (by simp [hopen]), if_pos hs]
  refine ⟨rfl, ?_, ?_⟩
  · rw [told_append, told_append, told_abortEffects, told_checkCleanup, told_send,
      arrivals_fin rfl rfl]
    rfl
  · intro hr
    rw [removes_append, removes_append, removes_abortEffects, removes_send, removes_nil,
      Bool.or_false, Bool.false_or] at hr
    exact (closed_of_checkCleanup hr).2

theorem Inv.close (h : Inv l) : Inv (l.perform x (l.ends x).stream.close) := by
  cases hopen : (l.ends x).stream.localClosed with
  | true =>
      have hnil : (l.ends x).stream.close = ((l.ends x).stream, []) := by
        rw [MuxStream.close, hopen]
        rfl
      rw [hnil]
      exact h.write (Wrote.refl _)
  | false =>
      intro a b hab
      rcases sides hab x with rfl | rfl
      · have hd := h a b hab
        obtain ⟨hstream, htold, -⟩ := close_eq hopen hd.session
        have hends := perform_ends_ne (l := l) (Ne.symm hab) (l.ends a).stream.close
        have htransit : (l.perform a (l.ends a).stream.close).transit a b =
            l.transit a b ++ [.close] := by
          rw [transit_perform_from (Ne.symm hab), htold]
        obtain ⟨hnot, hr⟩ := hd.notFinished hopen
        constructor
        case session => rw [perform_ends_self, hstream]; exact hd.session
        case lateWrite => rw [perform_ends_self, hstream]; exact fun _ => rfl
        case notFinished =>
          rw [perform_ends_self, hstream]
          intro hf
          cases hf
        case finSent =>
          rw [htransit]
          exact fun _ _ => Or.inl (List.mem_append_right _ List.mem_cons_self)
        case removed => rw [hends]; exact hd.removed
        case flow =>
          rw [perform_ends_self, hends]
          intro hlate hropen
          have hflow := hd.flow hlate hropen
          refine ⟨?_, by rw [hends]; exact hflow.queueOk, by rw [hends]; exact hflow.small, ?_, ?_,
            ?_, by rw [hends]; exact hflow.eof, by rw [hends]; exact hflow.eofLast⟩
          · -- the FIN goes behind all the payload that was sent
            have hchannel := hflow.ok.close
            simp only [channel, Channel.close] at hchannel
            simp only [channel, hends, perform_ends_self, htransit, transit_perform_to hab.symm,
              hstream, htold, dataOf_append, dataOf_close, dataOf_nil, List.append_nil]
            exact hchannel
          · rw [htransit]
            intro d hdm
            rcases List.mem_append.mp hdm with hdm | hdm
            · exact hflow.blocks d hdm
            · exact absurd (List.mem_singleton.mp hdm) (by simp)
          · rw [htransit]
            exact hflow.finLast.append ⟨rfl, trivial⟩ fun _ => rfl
          · -- an open sender has not finished at the other end
            rw [hends, hr]
            intro hf
            cases hf
      · have hd := h a b hab
        obtain ⟨hstream, -, hremoves⟩ := close_eq hopen (h b a (Ne.symm hab)).session
        have hends := perform_ends_ne (l := l) hab (l.ends b).stream.close
        have htransit := transit_perform_to (l := l) hab (l.ends b).stream.close
        constructor
        case session => rw [hends]; exact hd.session
        case lateWrite => rw [hends]; exact hd.lateWrite
        case notFinished => rw [hends, htransit, perform_ends_self, hstream]; exact hd.notFinished
        case finSent =>
          rw [perform_ends_self, hstream]
          intro _ hf
          cases hf
        case removed =>
          rw [perform_ends_self, hstream]
          intro hr
          rcases Bool.or_eq_true_iff.mp hr with hr | hr
          · exact ⟨rfl, (hd.removed hr).2⟩
          · exact ⟨rfl, hremoves hr⟩
        case flow =>
          rw [perform_ends_self, hstream]
          -- of a closed receiver nothing is said about payload
          intro _ hf
          cases hf

/-- The destructor runs on a stream that is closed on both sides. -/
theorem Inv.destroy (h : Inv l) (hremoved : (l.ends x).removed = true) :
    Inv (l.perform x (l.ends x).stream.destroy) := by
  have htold : told (l.ends x).stream.destroy.2 = [] := told_abortEffects _
  have hremoves : removes (l.ends x).stream.destroy.2 = false := removes_abortEffects _
  intro a b hab
  rcases sides hab x with rfl | rfl
  · have hd := h a b hab
    have hback := h b a (Ne.symm hab)
    obtain ⟨hlocal, hremote⟩ := hback.removed hremoved
    have hends := perform_ends_ne (l := l) (Ne.symm hab) (l.ends a).stream.destroy
    have htransit : (l.perform a (l.ends a).stream.destroy).transit a b = l.transit a b := by
      rw [transit_perform_from (Ne.symm hab), htold, List.append_nil]
    -- both ends have closed, so nothing is promised about payload
    have hother : (l.ends b).stream.localClosed = true := by
      cases hb : (l.ends b).stream.localClosed with
      | true => rfl
      | false =>
          rw [(hback.notFinished hb).2] at hremote
          cases hremote
    constructor
    case session => rw [perform_ends_self]; exact hd.session
    case lateWrite => rw [perform_ends_self]; exact fun _ => rfl
    case notFinished =>
      rw [perform_ends_self]
      intro hf
      cases hf
    case finSent =>
      rw [hends, hother]
      intro _ hf
      cases hf
    case removed => rw [hends]; exact hd.removed
    case flow =>
      rw [hends, hother]
      intro _ hf
      cases hf
  · have hd := h a b hab
    obtain ⟨hlocal, hremote⟩ := hd.removed hremoved
    have hends := perform_ends_ne (l := l) hab (l.ends b).stream.destroy
    have htransit := transit_perform_to (l := l) hab (l.ends b).stream.destroy
    constructor
    case session => rw [hends]; exact hd.session
    case lateWrite => rw [hends]; exact hd.lateWrite
    case notFinished => rw [hends, htransit, perform_ends_self]; exact hd.notFinished
    case finSent =>
      rw [perform_ends_self]
      intro _ hf
      cases hf
    case removed =>
      rw [perform_ends_self]
      exact fun _ => ⟨rfl, hremote⟩
    case flow =>
      rw [perform_ends_self]
      intro _ hf
      cases hf

/-! ## Steps and runs -/

theorem perform_congr {s : MuxStream} {es es' : List Effect} (hp : posts es = posts es')
    (ht : told es = told es') (hr : removes es = removes es') :
    l.perform x (s, es) = l.perform x (s, es') := by
  simp only [perform, hp, ht, hr]

/-- The state an operation starts from is replaced by the one it leads to. -/
theorem perform_setEnd (e : End) (s : MuxStream) (r : MuxStream × List Effect) :
    (l.setEnd x e).perform x r = (l.setEnd x { e with stream := s }).perform x r := by
  simp only [perform, setEnd, Function.update_self, Function.update_idem]

/-- `handle_close` checks for the clean-up twice. -/
theorem perform_handleClose (s : MuxStream) :
    l.perform x s.handleClose = l.perform x (doRead { s with remoteClosed := true }) := by
  have hremoves : ∀ s : MuxStream, removes (s.doRead.2 ++ s.doRead.1.checkCleanup) =
      removes s.doRead.2 := by
    intro s
    rw [removes_append, doRead, removes_append, (readLoop_readOnly _).keeps]
    simp
  have htwice : ∀ s : MuxStream, l.perform x (s.doRead.1, s.doRead.2 ++ s.doRead.1.checkCleanup) =
      l.perform x (s.doRead.1, s.doRead.2) := fun s =>
    perform_congr (by rw [posts_append, posts_checkCleanup, List.append_nil])
      (by rw [told_append, told_checkCleanup, List.append_nil]) (hremoves s)
  exact htwice _

theorem wrote_refused (s : MuxStream) (handler : Handler) :
    Wrote s [.post { handler, ec := .noBufferSpace }] s where
  same := rfl
  window := rfl
  bytes _ := rfl
  onlyData := by simp
  frames := by simp
  posts := by simp
  keeps := rfl

theorem Inv.asyncRead (h : Inv l) (size : Nat) (handler : Handler) (readAll : Bool) :
    Inv (l.perform x ((l.ends x).stream.asyncRead size handler readAll)) := by
  rw [MuxStream.asyncRead]
  split
  · exact h.write (wrote_refused _ handler)
  · have hinv := (h.queueRead (x := x) ⟨size, handler, readAll⟩).read (x := x)
    rw [setEnd_ends_self] at hinv
    have heq := perform_setEnd (l := l) (x := x) (l.ends x)
      { (l.ends x).stream with
        pendingReads := (l.ends x).stream.pendingReads ++ [⟨size, handler, readAll⟩] }
      (doRead { (l.ends x).stream with
        pendingReads := (l.ends x).stream.pendingReads ++ [⟨size, handler, readAll⟩] })
    rw [← heq] at hinv
    have hself : l.setEnd x (l.ends x) = l := by rw [setEnd, Function.update_eq_self]
    rwa [hself] at hinv

theorem Inv.asyncWrite (h : Inv l) (buffers : List (List Byte)) (handler : Handler) :
    Inv ((l.setEnd x (accept (l.ends x) buffers)).perform x
      ((l.ends x).stream.asyncWrite buffers handler)) := by
  by_cases hfull : (l.ends x).stream.pendingWrites.length ≥ maxPendingWrites
  · have hself : l.setEnd x (l.ends x) = l := by rw [setEnd, Function.update_eq_self]
    rw [MuxStream.asyncWrite, if_pos hfull, accept, if_pos hfull, hself]
    exact h.write (wrote_refused _ handler)
  · rw [MuxStream.asyncWrite, if_neg hfull, perform_setEnd _
      { (l.ends x).stream with
        pendingWrites := (l.ends x).stream.pendingWrites ++ [⟨buffers, handler⟩] }]
    refine (h.queueWrite (x := x) ⟨buffers, handler⟩ (by omega)).write ?_
    rw [setEnd_ends_self]
    exact doWrite_wrote _

theorem Inv.handle (h : Inv l) {a : Arrival} {inbox : List Arrival}
    (hin : (l.ends x).inbox = a :: inbox) :
    Inv ((l.setEnd x { l.ends x with inbox := inbox }).perform x ((l.ends x).stream.handle a)) := by
  cases a with
  | data block =>
      have hinv := (h.arrive hin).read (x := x)
      rw [setEnd_ends_self] at hinv
      rw [perform_setEnd _ { (l.ends x).stream with
        readQueue := (l.ends x).stream.readQueue ++ [block] }]
      exact hinv
  | windowUpdate delta =>
      rw [perform_setEnd _ { (l.ends x).stream with
        remoteWindowSize := min ((l.ends x).stream.remoteWindowSize + delta.toNat) maxMessageSize }]
      refine (h.regain hin).write ?_
      rw [setEnd_ends_self]
      exact doWrite_wrote _
  | close =>
      have hinv := (h.finish hin).read (x := x)
      rw [setEnd_ends_self] at hinv
      show Inv (perform _ _ (handleClose _))
      rw [perform_handleClose, perform_setEnd _ { (l.ends x).stream with remoteClosed := true }]
      exact hinv

/-- A direction whose ends differ in nothing it speaks about. -/
theorem Direction.congr {l' : Link} {a b : Bool} (h : Direction l a b)
    (hsend : (l'.ends a).stream = (l.ends a).stream ∧ (l'.ends a).lateWrite = (l.ends a).lateWrite ∧
      (l'.ends a).accepted = (l.ends a).accepted ∧ (l'.ends a).sent = (l.ends a).sent)
    (hrecv : (l'.ends b).stream = (l.ends b).stream ∧ (l'.ends b).removed = (l.ends b).removed ∧
      (l'.ends b).log = (l.ends b).log)
    (hto : l'.transit a b = l.transit a b) (hback : l'.transit b a = l.transit b a) :
    Direction l' a b := by
  obtain ⟨hs, hlw, hacc, hsent⟩ := hsend
  obtain ⟨hr, hrem, hlog⟩ := hrecv
  refine ⟨by rw [hs]; exact h.session, by rw [hs, hlw]; exact h.lateWrite,
    by rw [hs, hr, hto]; exact h.notFinished, by rw [hs, hr, hto]; exact h.finSent,
    by rw [hr, hrem]; exact h.removed, ?_⟩
  rw [hlw, hr]
  intro hlate hopen
  have hflow := h.flow hlate hopen
  have hchannel : l'.channel a b = l.channel a b := by
    simp only [channel, hs, hr, hto, hback, hacc, hsent, hlog]
  exact ⟨by rw [hchannel]; exact hflow.ok, by rw [hr]; exact hflow.queueOk,
    by rw [hr]; exact hflow.small, by rw [hto]; exact hflow.blocks,
      by rw [hto]; exact hflow.finLast,
    by rw [hr, hto]; exact hflow.finished, by rw [hr, hlog]; exact hflow.eof,
    by rw [hlog]; exact hflow.eofLast⟩

theorem Inv.dispatch (h : Inv l) {l' : Link} (hstep : l.step (.dispatch x) = some l') : Inv l' := by
  simp only [step] at hstep
  split at hstep
  · cases hstep
  · rename_i a rest hpipe
    have hx : (!x) ≠ x := by simp
    cases hremoved : (l.ends x).removed with
    | false =>
        -- the inbox takes it: nothing that is on its way changes
        rw [if_neg (by simp [hremoved])] at hstep
        have hl := Option.some.inj hstep
        have hself : l'.ends x = { l.ends x with inbox := (l.ends x).inbox ++ [a] } := by
          rw [← hl]
          exact Function.update_self x _ l.ends
        have hother : l'.ends (!x) = l.ends (!x) := by
          rw [← hl]; exact Function.update_of_ne hx _ _
        have hto : l'.transit (!x) x = l.transit (!x) x := by
          have hp : l'.pipe (!x) = rest := by
            rw [← hl]
            exact Function.update_self (!x) _ l.pipe
          rw [transit, transit, hself, hp, hpipe]
          simp
        have hback : l'.transit x (!x) = l.transit x (!x) := by
          have hp : l'.pipe x = l.pipe x := by
            rw [← hl]
            exact Function.update_of_ne (Ne.symm hx) _ _
          rw [transit, transit, hother, hp]
        intro b c hbc
        rcases sides hbc x with rfl | rfl
        · obtain rfl : c = !b := by cases b <;> cases c <;> simp at hbc ⊢
          exact (h b (!b) hbc).congr (by rw [hself]; exact ⟨rfl, rfl, rfl, rfl⟩)
            (by rw [hother]; exact ⟨rfl, rfl, rfl⟩) hback hto
        · obtain rfl : b = !c := by cases b <;> cases c <;> simp at hbc ⊢
          exact (h (!c) c hbc).congr (by rw [hother]; exact ⟨rfl, rfl, rfl, rfl⟩)
            (by rw [hself]; exact ⟨rfl, rfl, rfl⟩) hto hback
    | true =>
        -- it is dropped: both ends have closed, and no more is said than before
        simp only [hremoved, if_true, Function.update_eq_self, Option.some.injEq] at hstep
        obtain ⟨hlocal, hremote⟩ := (h (!x) x hx).removed hremoved
        have hotherClosed : (l.ends !x).stream.localClosed = true := by
          cases hb : (l.ends !x).stream.localClosed with
          | true => rfl
          | false =>
              rw [((h (!x) x hx).notFinished hb).2] at hremote
              cases hremote
        have hends : ∀ y, l'.ends y = l.ends y := by
          intro y
          rw [← hstep]
        intro b c hbc
        have hboth : ∀ y, (l.ends y).stream.localClosed = true := by
          intro y
          by_cases hy : y = x
          · rw [hy]; exact hlocal
          · rw [Bool.eq_not_of_ne hy]; exact hotherClosed
        have hd := h b c hbc
        refine ⟨by rw [hends]; exact hd.session, by rw [hends]; exact hd.lateWrite, ?_, ?_,
          by rw [hends]; exact hd.removed, ?_⟩
        · rw [hends, hboth]
          intro hf
          cases hf
        · rw [hends, hends, hboth, hboth]
          intro _ hf
          cases hf
        · rw [hends, hends, hboth]
          intro _ hf
          cases hf

/-- **One step keeps the invariant.** -/
theorem Inv.step (h : Inv l) {e : Event} {l' : Link} (hstep : l.step e = some l') : Inv l' := by
  cases e with
  | read x size handler readAll => cases hstep; exact h.asyncRead size handler readAll
  | write x buffers handler => cases hstep; exact h.asyncWrite buffers handler
  | close x => cases hstep; exact h.close
  | destroy x =>
      rw [Link.step, Option.ite_none_right_eq_some] at hstep
      obtain ⟨hremoved, hl⟩ := hstep
      cases hl
      exact h.destroy hremoved
  | dispatch x => exact h.dispatch hstep
  | run x =>
      simp only [Link.step] at hstep
      split at hstep
      · cases hstep
      · rename_i a inbox hin
        cases hstep
        exact h.handle hin

/-- **Every run keeps the invariant.** -/
theorem inv_reach {id : UInt32} (h : Reach step anyStep (fresh id) l) : Inv l :=
  h.invariant (inv_fresh id) fun _ _ _ hinv _ hstep => hinv.step hstep

end Link

end Cfrp.Mux

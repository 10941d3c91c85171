import Cfrp.Mux.Delivery

/-!
# When credit and reads block each other

Credit goes back only when a read completes, and then only in batches of 32 KiB; a
`read_all` completes only when all its bytes are there. A stalled writer faces a buffer of
at least 98305 bytes (`credit_conserved`), so a read of up to that many bytes never waits
for it. A larger read does, as the run at the end shows.
-/

namespace Cfrp.Mux

open Lib MuxStream Session

/-! ## A read that is pending has to wait -/

namespace MuxStream

theorem Blocked.congr {s s' : MuxStream} (h : Blocked s) (hreads : s'.pendingReads = s.pendingReads)
    (hclosed : s'.remoteClosed = s.remoteClosed) (hqueue : s'.readQueue = s.readQueue)
    (hoffset : s'.readQueueOffset = s.readQueueOffset) : Blocked s' := by
  intro pr rest hpr
  rw [hreads] at hpr
  rw [hclosed, hqueue, available, hqueue, hoffset]
  exact h pr rest hpr

theorem blocked_of_noReads {s : MuxStream} (h : s.pendingReads = []) : Blocked s := by
  intro pr rest hpr
  rw [h] at hpr
  cases hpr

theorem doWrite_blocked {s : MuxStream} (h : Blocked s) : Blocked s.doWrite.1 := by
  have hsame := (doWrite_wrote s).same
  rw [hsame]
  exact h.congr rfl rfl rfl rfl

theorem asyncRead_blocked {s : MuxStream} (h : Blocked s) (size : Nat) (handler : Handler)
    (readAll : Bool) : Blocked (s.asyncRead size handler readAll).1 := by
  rw [asyncRead]
  split
  · exact h
  · exact doRead_blocked _

theorem asyncWrite_blocked {s : MuxStream} (h : Blocked s) (buffers : List (List Byte))
    (handler : Handler) : Blocked (s.asyncWrite buffers handler).1 := by
  rw [asyncWrite]
  split
  · exact h
  · exact doWrite_blocked (h.congr rfl rfl rfl rfl)

theorem close_blocked {s : MuxStream} (h : Blocked s) : Blocked s.close.1 := by
  rw [close]
  split
  · exact h
  · exact blocked_of_noReads rfl

theorem handle_blocked {s : MuxStream} (h : Blocked s) (a : Arrival) : Blocked (s.handle a).1 := by
  cases a with
  | data bytes => exact doRead_blocked _
  | windowUpdate delta => exact doWrite_blocked (h.congr rfl rfl rfl rfl)
  | close => exact doRead_blocked _

end MuxStream

namespace Link

variable {l l' : Link}

theorem blocked_step {e : Event} (h : ∀ x, Blocked (l.ends x).stream)
    (hstep : l.step e = some l') (x : Bool) : Blocked (l'.ends x).stream := by
  -- only one end changes, and its operation kept what it was in
  have hperform : ∀ (l : Link) (y : Bool) (r : MuxStream × List Effect), Blocked r.1 →
      (∀ z, z ≠ y → Blocked (l.ends z).stream) → Blocked ((l.perform y r).ends x).stream := by
    intro l y r hr hother
    by_cases hxy : x = y
    · rw [hxy, perform_ends_self]
      exact hr
    · rw [perform_ends_ne hxy]
      exact hother x hxy
  cases e with
  | read y size handler readAll =>
      cases hstep
      exact hperform _ _ _ (asyncRead_blocked (h y) size handler readAll) fun z _ => h z
  | write y buffers handler =>
      cases hstep
      refine hperform _ _ _ (asyncWrite_blocked (h y) buffers handler) fun z hz => ?_
      rw [setEnd_ends_ne hz]
      exact h z
  | close y =>
      cases hstep
      exact hperform _ _ _ (close_blocked (h y)) fun z _ => h z
  | destroy y =>
      rw [Link.step, Option.ite_none_right_eq_some] at hstep
      cases hstep.2
      exact hperform _ _ _ (blocked_of_noReads rfl) fun z _ => h z
  | dispatch y =>
      simp only [Link.step] at hstep
      split at hstep
      · cases hstep
      · cases hstep
        by_cases hxy : x = y
        · rw [hxy]
          simp only [Function.update_self]
          split <;> exact h y
        · simp only [Function.update_of_ne hxy]
          exact h x
  | run y =>
      simp only [Link.step] at hstep
      split at hstep
      · cases hstep
      · cases hstep
        refine hperform _ _ _ (handle_blocked (h y) _) fun z hz => ?_
        rw [setEnd_ends_ne hz]
        exact h z

theorem blocked_reach {id : UInt32} (h : Reach step anyStep (fresh id) l) (x : Bool) :
    Blocked (l.ends x).stream :=
  h.invariant (P := fun l => ∀ x, Blocked (l.ends x).stream) (fun _ => blocked_of_noReads rfl)
    (fun _ _ _ hb _ hstep => blocked_step hb hstep) x

end Link

namespace Pair

variable {p : Pair} {x y : Bool} {i : UInt32} {n : Nat}

/-- The stream `i` is stuck: its reader waits for an `async_read` of `n` bytes that the
writer has been given long since, the writer has no window, and nothing is on its way
that would change either. -/
structure Deadlocked (p : Pair) (x y : Bool) (i : UInt32) (n : Nat) : Prop where
  reading : ∃ handler rest, ((p.view i).ends y).stream.pendingReads = ⟨n, handler, true⟩ :: rest
  given : (delivered ((p.view i).ends y).log).length + n ≤ ((p.view i).ends x).accepted.length
  noWindow : ((p.view i).ends x).stream.remoteWindowSize = 0
  noFrame : (p.view i).transit x y = []
  noCredit : (p.view i).transit y x = []

/-- A read of at most 98305 bytes on a stream that its reader has not closed is never
part of a deadlock: with no window left and nothing on its way, that many bytes are
there. -/
theorem not_deadlocked (h : Reach step Conforming init p) (hrun : Running p) (hxy : x ≠ y)
    (hopen : ((p.view i).ends y).stream.localClosed = false) (hn : n ≤ 98305) :
    ¬Deadlocked p x y i n := by
  intro hdead
  obtain ⟨handler, rest, hpr⟩ := hdead.reading
  obtain ⟨hremote, hwait⟩ := Link.blocked_reach ((view_reach h hrun).2 i) y _ _ hpr
  -- the writer has not closed either: its FIN would be here
  have hwriter : ((p.view i).ends x).stream.localClosed = false := by
    cases hl : ((p.view i).ends x).stream.localClosed with
    | false => rfl
    | true =>
        rcases (view_inv h hrun i x y hxy).finSent hl hopen with hfin | hfin
        · rw [hdead.noFrame] at hfin
          cases hfin
        · rw [hremote] at hfin
          cases hfin
  obtain ⟨-, -, -, -, -, hfull⟩ := credit_conserved h hrun hxy hwriter hopen
  have hunread : 98305 ≤ ((p.view i).ends y).stream.unread.length :=
    hfull hdead.noWindow (by rw [hdead.noFrame]; rfl) (by rw [hdead.noCredit]; rfl)
  have hlate : ((p.view i).ends x).lateWrite = false := by
    cases hl : ((p.view i).ends x).lateWrite with
    | false => rfl
    | true =>
        rw [(view_inv h hrun i x y hxy).lateWrite hl] at hwriter
        cases hwriter
  have hqueue := (flow_of_running h hrun hxy hopen hlate).queueOk
  rcases hwait with hempty | ⟨-, hless⟩
  · rw [unread, hempty, List.flatten_nil, List.drop_nil, List.length_nil] at hunread
    omega
  · rw [available_eq hqueue] at hless
    have hsize : (⟨n, handler, true⟩ : PendingRead).size = n := rfl
    omega

end Pair

/-! ## A run into a deadlock -/

namespace MuxStream

theorem doRead_once {s s' : MuxStream} {es : List Effect} (h : s.readTurn = some (s', es))
    (hdone : s'.readTurn = none) : s.doRead = (s', es ++ s'.checkCleanup) := by
  have hlt := readTurn_measure h
  rw [doRead, loop_once (by omega) h hdone]

theorem available_block (block : List Byte) (offset : Nat) (h : offset ≤ block.length) :
    sizeSub (totalLength [block]) offset = block.length - offset := by
  rw [totalLength_eq, List.flatten_singleton, sizeSub, if_pos h]

/-- Less than a batch is read from a full buffer: no credit is given. -/
theorem asyncRead_uncredited {id : UInt32} {block : List Byte} {handler : Handler}
    (hblock : block.length = initialWindowSize) :
    asyncRead { id := id, readQueue := [block] } 32767 handler true =
      ({ id := id, readQueue := [block], readQueueOffset := 32767
         consumedSinceLastUpdate := 32767 },
        [.post { handler, count := 32767, bytes := block.take 32767 }]) := by
  have hW : initialWindowSize = 131072 := rfl
  have havail := available_block block 0 (Nat.zero_le _)
  have hcopy : copyOut [block] 0 32767 = ((block.take 32767, 32767), ([block], 32767)) := by
    have hmin : min 32767 (sizeSub block.length 0) = 32767 := by
      rw [sizeSub, if_pos (Nat.zero_le _)]
      omega
    rw [copyOut, if_neg (by omega)]
    simp only [hmin]
    rw [if_neg (by omega), List.drop_zero]
  have hturn : readTurn
      { id := id, readQueue := [block], pendingReads := [⟨32767, handler, true⟩] } =
      some
        ({ id := id, readQueue := [block], readQueueOffset := 32767
           consumedSinceLastUpdate := 32767 },
        [.post { handler, count := 32767, bytes := block.take 32767 }]) := by
    rw [readTurn]
    simp only [hcopy, available, havail]
    rw [if_neg (by simp), if_neg (by simp; omega), if_neg (by decide)]
  exact doRead_once hturn rfl

/-- A read that has to wait. -/
theorem asyncRead_waits {s : MuxStream} {n : Nat} {handler : Handler}
    (hnone : s.pendingReads = [])
    (hturn : readTurn { s with pendingReads := [⟨n, handler, true⟩] } = none)
    (hremote : s.remoteClosed = false) :
    s.asyncRead n handler true = ({ s with pendingReads := [⟨n, handler, true⟩] }, []) := by
  have hclean : checkCleanup { s with pendingReads := [⟨n, handler, true⟩] } = [] := by
    rw [checkCleanup, hremote, Bool.and_false]
    rfl
  rw [asyncRead, hnone, if_neg (by decide), doRead, List.nil_append, loop_of_none hturn, hclean,
    List.append_nil]

end MuxStream

namespace Pair

def ofEnds (client server : Session) : Pair := fun x => if x then server else client

/-- The client has opened stream 1, and the server has acknowledged it. -/
def opened (x : Bool) (obj : StreamObj) (submitted : List Handler) : Session :=
  { isServer := x
    nextStreamId := if x then 2 else 3
    streams := AList.insert 1 0 ∅
    objs := [obj]
    submitted := submitted }

theorem reach_opened : Reach step Conforming init
    (ofEnds (opened false (.new 1) []) (opened true (.new 1) [])) := by
  obtain ⟨p, hp, hobs⟩ := exists_of_runGuarded step conforming
    [.act false (.openStream true), .recv true, .act true .runPosted, .act false .writeOk,
      .recv false, .act true .writeOk]
    (fun p => (p false, p true)) (s := init)
    (a := (opened false (.new 1) [], opened true (.new 1) [])) rfl
  obtain ⟨hclient, hserver⟩ := Prod.mk.inj hobs
  have heq : p = ofEnds (opened false (.new 1) []) (opened true (.new 1) []) := by
    funext x
    cases x
    · exact hclient
    · exact hserver
  exact heq ▸ hp

variable {c s t : Session} {e : Session.Event}

theorem update_ofEnds_client : Function.update (ofEnds c s) false t = ofEnds t s := by
  funext x
  cases x <;> rfl

theorem update_ofEnds_server : Function.update (ofEnds c s) true t = ofEnds c t := by
  funext x
  cases x <;> rfl

theorem reach_client (h : Reach step Conforming init (ofEnds c s))
    (hok : conforming (ofEnds c s) (.act false e) = true)
    (hact : (ofEnds c s).step (.act false e) = (c.step e).map (Function.update (ofEnds c s) false))
    (hstep : c.step e = some t) : Reach step Conforming init (ofEnds t s) := by
  refine Reach.tail h hok ?_
  rw [hact, hstep, Option.map_some, update_ofEnds_client]

theorem reach_server (h : Reach step Conforming init (ofEnds c s))
    (hok : conforming (ofEnds c s) (.act true e) = true)
    (hact : (ofEnds c s).step (.act true e) = (s.step e).map (Function.update (ofEnds c s) true))
    (hstep : s.step e = some t) : Reach step Conforming init (ofEnds c t) := by
  refine Reach.tail h hok ?_
  rw [hact, hstep, Option.map_some, update_ofEnds_server]

theorem reach_serverRecv (left : List Byte) (h : Reach step Conforming init (ofEnds c s))
    (hnext : (ofEnds c s).nextRead true = some (e, left)) (hstep : s.step e = some t) :
    Reach step Conforming init (ofEnds { c with wire := left } t) := by
  refine Reach.tail (e := .recv true) h rfl ?_
  show ((ofEnds c s).nextRead true).bind _ = _
  rw [hnext]
  show (s.step e).map _ = _
  rw [hstep, Option.map_some, update_ofEnds_server]
  exact congrArg some update_ofEnds_client

theorem reach_clientRecv (left : List Byte) (h : Reach step Conforming init (ofEnds c s))
    (hnext : (ofEnds c s).nextRead false = some (e, left)) (hstep : c.step e = some t) :
    Reach step Conforming init (ofEnds t { s with wire := left }) := by
  refine Reach.tail (e := .recv false) h rfl ?_
  show ((ofEnds c s).nextRead false).bind _ = _
  rw [hnext]
  show (c.step e).map _ = _
  rw [hstep, Option.map_some, update_ofEnds_client]
  exact congrArg some update_ofEnds_server

/-- The frame that uses up the window of a new stream. -/
def windowFrame (body : List Byte) : Frame :=
  ⟨dataHeader { id := 1 } 0 initialWindowSize, [body]⟩

def finFrame : Frame := ⟨dataHeader { id := 1 } Flags.fin 0, []⟩

/-- The client has sent all it may of what it was given. -/
def stalledObj (body rest : List Byte) : StreamObj where
  stream := { id := 1, remoteWindowSize := 0, pendingWrites := [⟨[rest], 1⟩] }
  accepted := [body, rest].flatten
  sent := dataOf (told [.send (windowFrame body) .failPending])

/-- The server has what was sent. -/
def fullObj (body : List Byte) : StreamObj where
  stream := { id := 1, readQueue := [body] }

/-- The client is given more than the window, and the server receives what the window
allows. -/
theorem reach_stalled (body rest : List Byte) (hbody : body.length = initialWindowSize)
    (hrest : 0 < rest.length) :
    Reach step Conforming init
      (ofEnds (opened false (stalledObj body rest) [1]) (opened true (fullObj body) [])) := by
  have hW : initialWindowSize = 131072 := rfl
  have hlength : (windowFrame body).header.length.toNat = body.length := by
    rw [hbody]
    rfl
  have hflat : (windowFrame body).body = body := List.flatten_singleton
  -- the write
  have hwrite := reach_client (e := .asyncWrite 0 [body, rest] 1)
    (t := { opened false (stalledObj body rest) [1] with
      writeQueue := [⟨windowFrame body, .failPending 0⟩]
      isWriting := true
      writing := true
      wire := (windowFrame body).writeBuffers.flatten }) reach_opened rfl rfl (by
        show some (perform _ 0 (asyncWrite { id := 1 } [body, rest] 1)) = _
        rw [asyncWrite_first hbody hrest]
        rfl)
  rw [Frame.flatten_writeBuffers, hflat] at hwrite
  have hsize : (windowFrame body).header.encode.length = Header.size := Header.length_encode _
  -- the header, and the body
  have hheader := reach_serverRecv body (e := .recvHeader (windowFrame body).header.encode)
    (t := { opened true (.new 1) [] with reading := .body (windowFrame body).header }) hwrite (by
      have hlen : Header.size ≤ ((windowFrame body).header.encode ++ body).length := by
        rw [List.length_append, hsize]
        omega
      show (if Header.size ≤ ((windowFrame body).header.encode ++ body).length then
        some (Session.Event.recvHeader
          (((windowFrame body).header.encode ++ body).take Header.size),
          ((windowFrame body).header.encode ++ body).drop Header.size) else none) = _
      rw [if_pos hlen, ← hsize, List.take_left, List.drop_left]) (by
      have hdecode : Header.decode (windowFrame body).header.encode = (windowFrame body).header :=
        Header.decode_encode _
      rw [Session.step, if_pos ⟨rfl, hsize⟩, headerRead, hdecode]
      rfl)
  have hread := reach_serverRecv [] (e := .recvBody body)
    (t := opened true { StreamObj.new 1 with tasks := [.arrival (.data body)] } []) hheader (by
      show (if (windowFrame body).header.length.toNat ≤ body.length then
        some (Session.Event.recvBody (body.take (windowFrame body).header.length.toNat),
          body.drop (windowFrame body).header.length.toNat) else none) = _
      rw [hlength, if_pos (Nat.le_refl _), List.take_length, List.drop_length]) (by
      show (if body.length = (windowFrame body).header.length.toNat then
        some (bodyRead _ (windowFrame body).header body) else none) = _
      rw [if_pos hlength.symm]
      have harr : arrivals (windowFrame body).header body = [.data body] := by
        have hdata : (windowFrame body).arrivals = [.data [body].flatten] :=
          arrivals_data rfl rfl (by rw [List.flatten_singleton]; omega)
        rw [Frame.arrivals, hflat, List.flatten_singleton] at hdata
        exact hdata
      show some { handleFrame _ (windowFrame body).header body with reading := .header } = _
      rw [handleFrame_data (o := 0) (Or.inl rfl) rfl, harr]
      rfl)
  -- the strand of the server's stream, and the end of the client's write
  have hrun := reach_server (e := .runStream 0) (t := opened true (fullObj body) [])
    hread rfl rfl rfl
  exact reach_client (e := .writeOk) hrun rfl rfl rfl

theorem running_ofEnds (hc : c.stopped = false) (hs : s.stopped = false) :
    Running (ofEnds c s) := by
  intro x
  cases x
  · exact hc
  · exact hs

theorem transit_quiet {p : Pair} {x y : Bool} {i : UInt32} (hinbox : ((p.view i).ends y).inbox = [])
    (hreading : (p !x).reading = .header) (hwire : (p x).wire = []) (hqueue : unsent (p x) = [])
    (hposted : (p x).posted = []) : (p.view i).transit x y = [] := by
  rw [Link.transit, hinbox]
  show said (p.inFlight x) i = []
  rw [inFlight, flight, postedFrames, hreading, hwire, hqueue, hposted, parseFrom, parseFrames_nil]
  rfl

/-- The reader has consumed 32767 bytes, one less than what is credited at once, and asks
for more than there is. -/
theorem deadlocked_open {n : Nat} (hn : 98305 < n) : ∃ p, Reach step Conforming init p ∧ Running p ∧
    ((p.view 1).ends true).stream.localClosed = false ∧ Deadlocked p false true 1 n := by
  obtain ⟨body, hbody⟩ : ∃ body : List Byte, body.length = initialWindowSize :=
    ⟨List.replicate initialWindowSize 0, List.length_replicate⟩
  obtain ⟨rest, hrest⟩ : ∃ rest : List Byte, rest.length = n :=
    ⟨List.replicate n 0, List.length_replicate⟩
  have hW : initialWindowSize = 131072 := rfl
  have hfirst := reach_server (e := .asyncRead 0 32767 2 true)
    (t := opened true { fullObj body with
      stream :=
        { id := 1, readQueue := [body], readQueueOffset := 32767, consumedSinceLastUpdate := 32767 }
      tasks := [.complete ⟨2, .success, 32767, body.take 32767⟩] } [2])
    (reach_stalled body rest hbody (by omega)) rfl rfl (by
      show some (perform _ 0 (asyncRead { id := 1, readQueue := [body] } 32767 2 true)) = _
      rw [asyncRead_uncredited hbody]
      rfl)
  -- neither what is queued nor a credit lets the second read go on
  have hwait : readTurn
      { id := 1, readQueue := [body], readQueueOffset := 32767
        pendingReads := [⟨n, 3, true⟩], consumedSinceLastUpdate := 32767 } = none := by
    have havail := available_block body 32767 (by omega)
    rw [readTurn]
    simp only [available, havail]
    rw [if_neg (by simp), if_pos (by simp; omega)]
  have hsecond := reach_server (e := .asyncRead 0 n 3 true)
    (t := opened true { fullObj body with
      stream :=
        { id := 1, readQueue := [body], readQueueOffset := 32767
          pendingReads := [⟨n, 3, true⟩], consumedSinceLastUpdate := 32767 }
      tasks := [.complete ⟨2, .success, 32767, body.take 32767⟩] } [2, 3])
    hfirst rfl rfl (by
      show some (perform _ 0 (asyncRead
        { id := 1, readQueue := [body], readQueueOffset := 32767, consumedSinceLastUpdate := 32767 }
        n 3 true)) = _
      rw [asyncRead_waits rfl hwait rfl]
      rfl)
  refine ⟨_, hsecond, running_ofEnds rfl rfl, rfl, ⟨3, [], rfl⟩, ?_, rfl, ?_, ?_⟩
  · show (delivered [⟨2, .success, 32767, body.take 32767⟩]).length + n ≤
      [body, rest].flatten.length
    simp [delivered]
    omega
  · exact transit_quiet rfl rfl rfl rfl rfl
  · exact transit_quiet rfl rfl rfl rfl rfl

/-- The object of a stream that has sent FIN and nothing else. -/
def closedObj (stream : MuxStream) : StreamObj where
  stream := stream
  sent := dataOf (told [.send finFrame .none])

/-- The server, whose FIN is on the wire. -/
def finishing (stream : MuxStream) (submitted : List Handler) : Session :=
  { opened true (closedObj stream) submitted with
    writeQueue := [⟨finFrame, .none⟩]
    isWriting := true
    writing := true
    wire := finFrame.writeBuffers.flatten }

theorem deadlocked_closed (n : Nat) : ∃ p, Reach step Conforming init p ∧ Running p ∧
    ((p.view 1).ends true).stream.localClosed = true ∧ Deadlocked p false true 1 n := by
  obtain ⟨body, hbody⟩ : ∃ body : List Byte, body.length = initialWindowSize :=
    ⟨List.replicate initialWindowSize 0, List.length_replicate⟩
  obtain ⟨rest, hrest⟩ : ∃ rest : List Byte, rest.length = n + 1 :=
    ⟨List.replicate (n + 1) 0, List.length_replicate⟩
  -- the reader closes, and what it had is dropped
  have hclose := reach_server (e := .close 0) (t := finishing { id := 1, localClosed := true } [])
    (reach_stalled body rest hbody (by omega)) rfl rfl (by
      have heq : MuxStream.close { id := 1, readQueue := [body] } =
          ({ id := 1, localClosed := true }, [.send finFrame .none]) := rfl
      show some (perform _ 0 (MuxStream.close { id := 1, readQueue := [body] })) = _
      rw [heq]
      rfl)
  have hread := reach_server (e := .asyncRead 0 n 3 true)
    (t := finishing { id := 1, pendingReads := [⟨n, 3, true⟩], localClosed := true } [3])
    hclose rfl rfl rfl
  have hdone := reach_server (e := .writeOk)
    (t := { finishing { id := 1, pendingReads := [⟨n, 3, true⟩], localClosed := true } [3] with
      writeQueue := []
      isWriting := false
      writing := false })
    hread rfl rfl rfl
  have hflat : finFrame.writeBuffers.flatten = finFrame.header.encode := by
    rw [Frame.flatten_writeBuffers]
    exact List.append_nil _
  have hsize : finFrame.header.encode.length = Header.size := Header.length_encode _
  have hrecv := reach_clientRecv [] (e := .recvHeader finFrame.header.encode)
    (t := opened false { stalledObj body rest with tasks := [.arrival .close] } [1]) hdone (by
      show (if Header.size ≤ finFrame.writeBuffers.flatten.length then
        some (Session.Event.recvHeader (finFrame.writeBuffers.flatten.take Header.size),
          finFrame.writeBuffers.flatten.drop Header.size) else none) = _
      rw [hflat, ← hsize, if_pos (Nat.le_refl _), List.take_length, List.drop_length]) (by
      have hdecode : Header.decode finFrame.header.encode = finFrame.header :=
        Header.decode_encode _
      have harr : arrivals finFrame.header [] = [.close] := rfl
      rw [Session.step, if_pos ⟨rfl, hsize⟩, headerRead, hdecode]
      show some { handleFrame _ finFrame.header [] with reading := .header } = _
      rw [handleFrame_data (o := 0) (Or.inl rfl) rfl, harr]
      rfl)
  have hrun := reach_client (e := .runStream 0)
    (t := opened false { stalledObj body rest with
      stream :=
        { id := 1, remoteWindowSize := 0, pendingWrites := [⟨[rest], 1⟩], remoteClosed := true }
      sent := (stalledObj body rest).sent ++ [] } [1])
    hrecv rfl rfl rfl
  refine ⟨_, hrun, running_ofEnds rfl rfl, rfl, ⟨3, [], rfl⟩, ?_, rfl, ?_, ?_⟩
  · show (delivered []).length + n ≤ [body, rest].flatten.length
    simp [delivered]
    omega
  · exact transit_quiet rfl rfl rfl rfl rfl
  · exact transit_quiet rfl rfl rfl rfl rfl

/-- **When reads and credit block each other.** No run gets stuck on a read of `n` bytes,
exactly if the reader has not closed the stream and `n` is at most 98305. -/
theorem noDeadlock_iff (closed : Bool) (n : Nat) :
    (∀ p, Reach step Conforming init p → Running p → ∀ x y, x ≠ y → ∀ i,
      ((p.view i).ends y).stream.localClosed = closed → ¬Deadlocked p x y i n) ↔
      closed = false ∧ n ≤ 98305 := by
  refine ⟨fun h => ?_, ?_⟩
  · cases closed with
    | true =>
        obtain ⟨p, hp, hrun, hclosed, hdead⟩ := deadlocked_closed n
        exact absurd hdead (h p hp hrun false true (by decide) 1 hclosed)
    | false =>
        refine ⟨rfl, ?_⟩
        by_contra hn
        obtain ⟨p, hp, hrun, hopen, hdead⟩ := deadlocked_open (n := n) (by omega)
        exact h p hp hrun false true (by decide) 1 hopen hdead
  · rintro ⟨rfl, hn⟩ p hp hrun x y hxy i hopen
    exact not_deadlocked hp hrun hxy hopen hn

/-- A control message of 98306 bytes, which `DoReadBody` accepts, is never received when
32767 bytes before it have not been credited. -/
theorem deadlock_controlMessage : ¬∀ p, Reach step Conforming init p → Running p →
    ∀ x y, x ≠ y → ∀ i n, n ≤ maxControlMessageSize → ¬Deadlocked p x y i n := by
  intro h
  obtain ⟨p, hp, hrun, -, hdead⟩ := deadlocked_open (n := 98306) (by omega)
  exact h p hp hrun false true (by decide) 1 98306 (by decide) hdead

end Pair

end Cfrp.Mux

import Cfrp.Quic.Completion
import Cfrp.Quic.Pool

/-!
# The buffers behind a stream

ngtcp2 copies nothing: of what it has taken for a stream it keeps pointers, and reads the
bytes again when it has to retransmit them, until the peer has acknowledged them. So the
queue of `Write.lean` runs here over cells, each an address together with the byte that
was passed to `write_stream` there, and the memory is part of the state.

`init` registers no callback for acknowledgements. `do_write` posts the handler of a write as soon
as ngtcp2 has taken its last byte, the handler drops the pooled copy, and the buffer may
be filled by the next `Get` while ngtcp2 still points into it.
-/

namespace Cfrp.Quic

open Lib

/-- A place in memory: in a buffer of the pool, or in a buffer of the caller's own. -/
inductive Addr where
  | pooled (buf : BufId) (i : Nat)
  | caller (a : Nat)
  deriving DecidableEq

/-- A byte of a write: where it is, what it was when it was passed to `write_stream`, and the
handler of the write. -/
structure Cell where
  addr : Addr
  byte : UInt8
  handler : HandlerId
  deriving DecidableEq

/-- What is given back when a handler has run: the pooled copy that it captures, or the
buffers its caller lent. -/
inductive Storage where
  | pooled (h : Handle)
  | caller (addrs : List Nat)
  deriving DecidableEq

def Storage.owns : Storage → Addr → Bool
  | .pooled h, .pooled buf _ => h.buf == buf
  | .caller addrs, .caller a => addrs.contains a
  | _, _ => false

def Storage.buf? : Storage → Option BufId
  | .pooled h => some h.buf
  | .caller _ => none

/-- A range of a stream in a packet: the cells it covers, and the bytes it carries. -/
structure Transmission where
  cells : List Cell
  bytes : List UInt8

structure Transport where
  session : QuicSession Cell := {}
  pool : BufferPool
  memory : Addr → UInt8
  /-- What the handlers that have not run yet hold on to. -/
  storage : List (HandlerId × Storage) := []
  /-- The buffers that other users of the pool hold. -/
  others : List Handle := []
  nextHandler : HandlerId := 0
  /-- How many of the posted handlers have run. -/
  ran : Nat := 0
  acked : StreamId → Nat → Bool := fun _ _ => false
  sent : List Transmission := []

inductive TransportEvent where
  /-- `write_stream` of one buffer, which it copies. -/
  | writeData (streamId : StreamId) (data : List UInt8) (calls : List Writev)
  /-- `write_stream` of a list of buffers, which stay the caller's. -/
  | writeBuffers (streamId : StreamId) (buffers : List (List Nat)) (calls : List Writev)
  | doWrite (calls : List Writev)
  | closeSession
  /-- The next posted handler runs. -/
  | runHandler
  /-- ngtcp2 puts a range of a stream into a packet, for the first time or again. -/
  | transmit (streamId : StreamId) (offset len : Nat)
  | ack (streamId : StreamId) (offset : Nat)
  /-- Another user of the pool gets a buffer, fills it, gives it back. -/
  | getBuffer (size : Nat)
  | storeBuffer (h : Handle) (i : Nat) (byte : UInt8)
  | dropBuffer (h : Handle)
  /-- A caller writes to memory of its own that is not lent. -/
  | storeCaller (a : Nat) (byte : UInt8)

namespace Transport

/-- `memcpy` to the start of a buffer. -/
def copyTo (memory : Addr → UInt8) (buf : BufId) (data : List UInt8) : Addr → UInt8
  | .pooled b i => if b = buf then data[i]?.getD (memory (.pooled b i)) else memory (.pooled b i)
  | .caller a => memory (.caller a)

/-- The call of `write_stream` that queues, with a new handler. -/
def lend (t : Transport) (streamId : StreamId) (bodies : List (List Cell)) (storage : Storage)
    (calls : List Writev) : Transport :=
  { t with
    session := t.session.writeStream streamId bodies t.nextHandler calls
    storage := t.storage ++ [(t.nextHandler, storage)]
    nextHandler := t.nextHandler + 1 }

/-- The cells of a pooled copy. -/
def pooledCells (buf : BufId) (data : List UInt8) (handler : HandlerId) : List Cell :=
  data.zipIdx.map fun b => ⟨.pooled buf b.2, b.1, handler⟩

/-- The cells of a caller's buffer. -/
def callerCells (memory : Addr → UInt8) (handler : HandlerId) (buffer : List Nat) : List Cell :=
  buffer.map fun a => ⟨.caller a, memory (.caller a), handler⟩

/-- A copy of the data in a buffer of the pool. -/
def copyData (t : Transport) (data : List UInt8) : Transport × Handle :=
  let (pool, h) := t.pool.get data.length
  ({ t with pool := pool, memory := copyTo t.memory h.buf data }, h)

def writeData (t : Transport) (streamId : StreamId) (data : List UInt8) (calls : List Writev) :
    Transport :=
  if data.length > 0 then
    let (t, h) := t.copyData data
    t.lend streamId [pooledCells h.buf data t.nextHandler] (.pooled h) calls
  else t.lend streamId [] (.caller []) calls

def writeBuffers (t : Transport) (streamId : StreamId) (buffers : List (List Nat))
    (calls : List Writev) : Transport :=
  t.lend streamId (buffers.map (callerCells t.memory t.nextHandler)) (.caller buffers.flatten) calls

/-- A handler has run: what it held on to is given back. -/
def giveBack (t : Transport) (handler : HandlerId) : Transport :=
  match t.storage.find? fun e => e.1 == handler with
  | some e =>
      { t with
        ran := t.ran + 1
        storage := t.storage.erase e
        pool := match e.2 with
          | .pooled h => t.pool.drop h
          | .caller _ => t.pool }
  | none => { t with ran := t.ran + 1 }

def step (t : Transport) : TransportEvent → Option Transport
  | .writeData streamId data calls => some (t.writeData streamId data calls)
  | .writeBuffers streamId buffers calls => some (t.writeBuffers streamId buffers calls)
  | .doWrite calls => some { t with session := t.session.doWrite calls }
  | .closeSession => some { t with session := t.session.closeSession }
  | .runHandler => t.session.posted[t.ran]?.map fun p => t.giveBack p.1
  | .transmit streamId offset len =>
      let cells := ((t.session.accepted streamId).drop offset).take len
      if t.session.closedNotified = false ∧ cells.length = len ∧
          ∀ i < len, t.acked streamId (offset + i) = false then
        some { t with sent := t.sent ++ [⟨cells, cells.map fun c => t.memory c.addr⟩] }
      else none
  | .ack streamId offset =>
      if offset < (t.session.accepted streamId).length then
        some { t with
          acked := fun sid i => t.acked sid i || (sid == streamId && i == offset) }
      else none
  | .getBuffer size =>
      let (pool, h) := t.pool.get size
      some { t with pool := pool, others := h :: t.others }
  | .storeBuffer h i byte =>
      if h ∈ t.others then
        some { t with memory := Function.update t.memory (.pooled h.buf i) byte }
      else none
  | .dropBuffer h =>
      if h ∈ t.others then some { t with pool := t.pool.drop h, others := t.others.erase h }
      else none
  | .storeCaller a byte =>
      if t.storage.all fun e => !e.2.owns (.caller a) then
        some { t with memory := Function.update t.memory (.caller a) byte }
      else none

/-- **Stability.** Every transmission of a range carries the bytes that were passed to
`write_stream` for it, and no handler was told that its write is complete while one of
its bytes is unacknowledged. -/
structure Stable (t : Transport) : Prop where
  sent : ∀ x ∈ t.sent, x.bytes = x.cells.map Cell.byte
  kept : ∀ streamId i cell, (t.session.accepted streamId)[i]? = some cell →
    t.acked streamId i = false → ∀ pw ∈ t.session.completed, pw.handler ≠ cell.handler

/-! ## Runs in which no write is completed -/

/-- The answers of ngtcp2 leave the end of every write in the queue. -/
def unfinished (t : Transport) (streamId : StreamId) (bodies : List (List Cell))
    (calls : List Writev) : Bool :=
  t.session.closedNotified || decide (t.session.writeQueue.length ≥ QuicSession.maxPendingWrites) ||
    (t.session.enqueue streamId bodies t.nextHandler).writesNothingOff calls

/-- No call of `ngtcp2_conn_writev_stream` takes the last byte of a write in a packet that is
sent. -/
def nothingCompletes (t : Transport) : TransportEvent → Bool
  | .writeData streamId data calls =>
      if data.length > 0 then
        t.unfinished streamId [pooledCells (t.pool.get data.length).2.buf data t.nextHandler] calls
      else t.unfinished streamId [] calls
  | .writeBuffers streamId buffers calls =>
      t.unfinished streamId (buffers.map (callerCells t.memory t.nextHandler)) calls
  | .doWrite calls => t.session.writesNothingOff calls
  | _ => true

/-- The buffers of the pool that are in use. -/
def used (t : Transport) : List BufId :=
  t.others.map Handle.buf ++ t.storage.filterMap fun e => e.2.buf?

/-- A cell that was written to a stream is still what it was, and its handler holds it. -/
structure HeldCell (t : Transport) (cell : Cell) : Prop where
  old : cell.handler < t.nextHandler
  waiting : ∀ p ∈ t.session.posted, p.1 ≠ cell.handler
  same : t.memory cell.addr = cell.byte
  held : ∃ e ∈ t.storage, e.1 = cell.handler ∧ e.2.owns cell.addr = true

/-- What holds as long as no write was completed. -/
structure Held (t : Transport) : Prop where
  completed : t.session.completed = []
  written : ∀ streamId, ∀ cell ∈ t.session.written streamId, HeldCell t cell
  queue : ∀ pw ∈ t.session.writeQueue, ∀ cell ∈ pw.bodies.flatten,
    cell ∈ t.session.written pw.streamId ∧ cell.handler = pw.handler
  accepted : ∀ streamId, ∀ cell ∈ t.session.accepted streamId, cell ∈ t.session.written streamId
  posted : ∀ p ∈ t.session.posted, p.1 < t.nextHandler
  pool : BufferPool.PoolInv t.pool t.used
  acked : ∀ streamId i, t.acked streamId i = true → i < (t.session.accepted streamId).length
  sent : ∀ x ∈ t.sent, x.bytes = x.cells.map Cell.byte

theorem Held.stable {t : Transport} (h : Held t) : Stable t where
  sent := h.sent
  kept _ _ _ _ _ pw hpw := by
    rw [h.completed] at hpw
    exact absurd hpw List.not_mem_nil

/-- A turn of `do_write` that completes nothing. -/
theorem Held.quiet {t : Transport} (h : Held t) {s : QuicSession Cell}
    (hp : QuicSession.Progress t.session s) (hq : QuicSession.Quiet t.session s) :
    Held { t with session := s } where
  completed := hq.1.trans h.completed
  written streamId cell hcell := by
    have hcell : cell ∈ s.written streamId := hcell
    rw [hp.written] at hcell
    obtain ⟨hold, hwaiting, hsame, hheld⟩ := h.written streamId cell hcell
    exact ⟨hold, fun p hmem => hwaiting p (hq.2 ▸ hmem), hsame, hheld⟩
  queue pw hpw cell hcell := by
    obtain ⟨q, hmem, hbodies, hid, hhandler⟩ := hp.queue pw hpw
    show cell ∈ s.written pw.streamId ∧ cell.handler = pw.handler
    rw [hp.written, hid, hhandler]
    exact h.queue q hmem cell (hbodies ▸ hcell)
  accepted streamId cell hcell := by
    have hcell : cell ∈ s.accepted streamId := hcell
    obtain ⟨new, heq, hnew⟩ := hp.accepted streamId
    show cell ∈ s.written streamId
    rw [heq, List.mem_append] at hcell
    rw [hp.written]
    rcases hcell with hcell | hcell
    · exact h.accepted streamId cell hcell
    · obtain ⟨pw, hpw, hid, hmem⟩ := hnew cell hcell
      exact hid ▸ (h.queue pw hpw cell hmem).1
  posted p hmem := h.posted p (hq.2 ▸ hmem)
  pool := h.pool
  acked streamId i hack := by
    obtain ⟨new, heq, -⟩ := hp.accepted streamId
    show i < (s.accepted streamId).length
    rw [heq, List.length_append]
    exact Nat.lt_of_lt_of_le (h.acked streamId i hack) (Nat.le_add_right _ _)
  sent := h.sent

/-- A turn that completes a write tells its handler too early. -/
theorem not_stable_completed {t : Transport} {s : QuicSession Cell}
    (hcells : ∀ pw ∈ t.session.writeQueue, ∀ cell ∈ pw.bodies.flatten, cell.handler = pw.handler)
    (hacked : ∀ streamId i, t.acked streamId i = true →
      i < (t.session.accepted streamId).length)
    (h : QuicSession.Completed t.session s) : ¬ Stable { t with session := s } := by
  intro hstable
  obtain ⟨q, hq, pw, hpw, hhandler, i, cell, hi, hget, hcell⟩ := h
  have hunacked : t.acked q.streamId i = false := by
    rw [Bool.eq_false_iff]
    intro hack
    have hlt := hacked _ _ hack
    omega
  have hne := hstable.kept q.streamId i cell hget hunacked pw hpw
  exact hne (hhandler.trans (hcells q hq cell hcell).symm)

theorem held_doWrite {t : Transport} (h : Held t) (calls : List Writev) :
    let t' := { t with session := t.session.doWrite calls }
    (t.session.writesNothingOff calls = true → Held t') ∧
      (t.session.writesNothingOff calls = false → ¬ Stable t') := by
  obtain ⟨hquiet, hdone⟩ := QuicSession.quiet_or_completed_doWrite t.session calls
  constructor
  · intro hoff
    exact h.quiet (QuicSession.progress_doWrite t.session calls) (hquiet hoff)
  · intro hoff
    exact not_stable_completed (fun pw hpw cell hcell => (h.queue pw hpw cell hcell).2) h.acked
      (hdone hoff)

/-- A new handler, that holds on to its storage. The memory it holds may have been filled. -/
def newHandler (t : Transport) (memory : Addr → UInt8) (pool : BufferPool) (storage : Storage) :
    Transport :=
  { t with
    memory := memory
    pool := pool
    storage := t.storage ++ [(t.nextHandler, storage)]
    nextHandler := t.nextHandler + 1 }

theorem Held.newHandler {t : Transport} (h : Held t) {memory : Addr → UInt8} {pool : BufferPool}
    {storage : Storage}
    (hmemory : ∀ e ∈ t.storage, ∀ a, e.2.owns a = true → memory a = t.memory a)
    (hpool : BufferPool.PoolInv pool (t.used ++ storage.buf?.toList)) :
    Held (t.newHandler memory pool storage) where
  completed := h.completed
  written streamId cell hcell := by
    obtain ⟨hold, hwaiting, hsame, e, he, hid, howns⟩ := h.written streamId cell hcell
    refine ⟨Nat.lt_succ_of_lt hold, hwaiting, ?_, e, List.mem_append_left _ he, hid, howns⟩
    exact (hmemory e he cell.addr howns).trans hsame
  queue := h.queue
  accepted := h.accepted
  posted p hp := Nat.lt_succ_of_lt (h.posted p hp)
  pool := by
    have hused : (t.newHandler memory pool storage).used = t.used ++ storage.buf?.toList := by
      rw [used, used, Transport.newHandler, List.filterMap_append, List.append_assoc]
      congr 2
    rw [hused]
    exact hpool
  acked := h.acked
  sent := h.sent

theorem Held.enqueue {t : Transport} (h : Held t) {bodies : List (List Cell)}
    {handler : HandlerId}
    (hcells : ∀ cell ∈ bodies.flatten, cell.handler = handler ∧ HeldCell t cell)
    (streamId : StreamId) :
    Held { t with session := t.session.enqueue streamId bodies handler } where
  completed := h.completed
  written other cell hcell := by
    have hcell : cell ∈ (t.session.enqueue streamId bodies handler).written other := hcell
    -- a cell is old, or one of the write that comes in
    have hone : HeldCell t cell := by
      by_cases hid : other = streamId
      · rw [hid, QuicSession.enqueue_self, List.mem_append] at hcell
        rcases hcell with hcell | hcell
        · exact h.written streamId cell hcell
        · exact (hcells cell hcell).2
      · rw [QuicSession.enqueue_of_ne _ _ _ hid] at hcell
        exact h.written other cell hcell
    exact ⟨hone.old, hone.waiting, hone.same, hone.held⟩
  queue pw hpw cell hcell := by
    show cell ∈ (t.session.enqueue streamId bodies handler).written pw.streamId ∧ _
    rcases List.mem_append.mp hpw with hpw | hpw
    · obtain ⟨hmem, hhandler⟩ := h.queue pw hpw cell hcell
      refine ⟨?_, hhandler⟩
      by_cases hid : pw.streamId = streamId
      · rw [hid, QuicSession.enqueue_self]
        exact List.mem_append_left _ (hid ▸ hmem)
      · rw [QuicSession.enqueue_of_ne _ _ _ hid]
        exact hmem
    · rw [List.mem_singleton.mp hpw] at hcell ⊢
      refine ⟨?_, (hcells cell hcell).1⟩
      rw [QuicSession.enqueue_self]
      exact List.mem_append_right _ hcell
  accepted other cell hcell := by
    have hmem := h.accepted other cell hcell
    show cell ∈ (t.session.enqueue streamId bodies handler).written other
    by_cases hid : other = streamId
    · rw [hid, QuicSession.enqueue_self]
      exact List.mem_append_left _ (hid ▸ hmem)
    · rw [QuicSession.enqueue_of_ne _ _ _ hid]
      exact hmem
  posted := h.posted
  pool := h.pool
  acked := h.acked
  sent := h.sent

/-- A write that is refused: its handler is told so. -/
theorem Held.refuse {t : Transport} (h : Held t) {handler : HandlerId}
    (hnew : ∀ streamId, ∀ cell ∈ t.session.written streamId, cell.handler ≠ handler)
    (hlt : handler < t.nextHandler) (result : WriteResult) :
    Held { t with session := t.session.refuse handler result } where
  completed := h.completed
  written streamId cell hcell := by
    obtain ⟨hold, hwaiting, hsame, hheld⟩ := h.written streamId cell hcell
    refine ⟨hold, fun p hp => ?_, hsame, hheld⟩
    rcases List.mem_append.mp hp with hp | hp
    · exact hwaiting p hp
    · rw [List.mem_singleton.mp hp]
      exact Ne.symm (hnew streamId cell hcell)
  queue := h.queue
  accepted := h.accepted
  posted p hp := by
    rcases List.mem_append.mp hp with hp | hp
    · exact h.posted p hp
    · rw [List.mem_singleton.mp hp]
      exact hlt
  pool := h.pool
  acked := h.acked
  sent := h.sent

/-- **`write_stream`** keeps what is held, unless it completes a write. -/
theorem held_lend {t : Transport} (h : Held t) (memory : Addr → UInt8) (pool : BufferPool)
    (storage : Storage) {bodies : List (List Cell)}
    (hmemory : ∀ e ∈ t.storage, ∀ a, e.2.owns a = true → memory a = t.memory a)
    (hpool : BufferPool.PoolInv pool (t.used ++ storage.buf?.toList))
    (hcells : ∀ cell ∈ bodies.flatten, cell.handler = t.nextHandler ∧
      memory cell.addr = cell.byte ∧ storage.owns cell.addr = true)
    (streamId : StreamId) (calls : List Writev) :
    let t' := { t with memory := memory, pool := pool }.lend streamId bodies storage calls
    (t.unfinished streamId bodies calls = true → Held t') ∧
      (t.unfinished streamId bodies calls = false → ¬ Stable t') := by
  have hready := h.newHandler hmemory hpool
  have hlt : t.nextHandler < (t.newHandler memory pool storage).nextHandler := Nat.lt_succ_self _
  have hnew : ∀ streamId, ∀ cell ∈ t.session.written streamId, cell.handler ≠ t.nextHandler :=
    fun streamId cell hcell => Nat.ne_of_lt (h.written streamId cell hcell).old
  -- past the checks: the write is queued, and `do_write` decides
  have hqueued : Held { t.newHandler memory pool storage with
      session := t.session.enqueue streamId bodies t.nextHandler } := by
    refine hready.enqueue (fun cell hcell => ?_) streamId
    obtain ⟨hid, hsame, howns⟩ := hcells cell hcell
    refine ⟨hid, hid ▸ hlt, fun p hp => ?_, hsame, _, List.mem_append_right _ List.mem_cons_self,
      hid.symm, howns⟩
    rw [hid]
    exact Nat.ne_of_lt (h.posted p hp)
  show (_ → Held { t.newHandler memory pool storage with
      session := t.session.writeStream streamId bodies t.nextHandler calls }) ∧
    (_ → ¬ Stable { t.newHandler memory pool storage with
      session := t.session.writeStream streamId bodies t.nextHandler calls })
  rw [QuicSession.writeStream, unfinished]
  by_cases hclosed : t.session.closedNotified = true
  · rw [if_pos hclosed, hclosed]
    exact ⟨fun _ => hready.refuse hnew hlt .connectionReset,
      fun hh => absurd hh.symm Bool.false_ne_true⟩
  · rw [if_neg hclosed]
    by_cases hfull : t.session.writeQueue.length ≥ QuicSession.maxPendingWrites
    · rw [if_pos hfull, decide_eq_true hfull, Bool.or_true]
      exact ⟨fun _ => hready.refuse hnew hlt .noBufferSpace,
        fun hh => absurd hh.symm Bool.false_ne_true⟩
    · rw [if_neg hfull, decide_eq_false hfull, Bool.eq_false_iff.mpr hclosed, Bool.false_or,
        Bool.false_or]
      exact held_doWrite hqueued calls

/-! ## The other events -/

/-- The buffer that a handler holds is in use. -/
theorem mem_used_of_owns {t : Transport} {e : HandlerId × Storage} (he : e ∈ t.storage)
    {buf : BufId} {i : Nat} (howns : e.2.owns (.pooled buf i) = true) :
    buf ∈ t.storage.filterMap fun e => e.2.buf? := by
  refine List.mem_filterMap.mpr ⟨e, he, ?_⟩
  cases hst : e.2 with
  | pooled h =>
      rw [hst] at howns
      exact congrArg some (beq_iff_eq.mp howns)
  | caller addrs =>
      rw [hst] at howns
      exact absurd howns Bool.false_ne_true

/-- Changes of memory that no handler holds. -/
theorem Held.store {t : Transport} (h : Held t) {memory : Addr → UInt8}
    (hmemory : ∀ e ∈ t.storage, ∀ a, e.2.owns a = true → memory a = t.memory a) :
    Held { t with memory := memory } where
  completed := h.completed
  written streamId cell hcell := by
    obtain ⟨hold, hwaiting, hsame, e, he, hid, howns⟩ := h.written streamId cell hcell
    exact ⟨hold, hwaiting, (hmemory e he cell.addr howns).trans hsame, e, he, hid, howns⟩
  queue := h.queue
  accepted := h.accepted
  posted := h.posted
  pool := h.pool
  acked := h.acked
  sent := h.sent

/-- Other users of the pool exchange buffers with it. -/
theorem Held.exchange {t : Transport} (h : Held t) (pool : BufferPool) (others : List Handle)
    (hpool : BufferPool.PoolInv pool
      (others.map Handle.buf ++ t.storage.filterMap fun e => e.2.buf?)) :
    Held { t with pool := pool, others := others } where
  completed := h.completed
  written streamId cell hcell := by
    obtain ⟨hold, hwaiting, hsame, hheld⟩ := h.written streamId cell hcell
    exact ⟨hold, hwaiting, hsame, hheld⟩
  queue := h.queue
  accepted := h.accepted
  posted := h.posted
  pool := hpool
  acked := h.acked
  sent := h.sent

/-- A handler that runs was refused its write: it holds no cell of a stream. -/
theorem Held.giveBack {t : Transport} (h : Held t) {p : HandlerId × WriteResult}
    (hp : p ∈ t.session.posted) : Held (t.giveBack p.1) := by
  rw [Transport.giveBack]
  split
  · rename_i e hfound
    have hid : e.1 = p.1 := by simpa using List.find?_some hfound
    have hmem := List.mem_of_find?_eq_some hfound
    have hperm : t.storage.Perm (e :: t.storage.erase e) := List.perm_cons_erase hmem
    refine ⟨h.completed, fun streamId cell hcell => ?_, h.queue, h.accepted, h.posted, ?_, h.acked,
      h.sent⟩
    · obtain ⟨hold, hwaiting, hsame, e', he', hid', howns⟩ := h.written streamId cell hcell
      refine ⟨hold, hwaiting, hsame, e', ?_, hid', howns⟩
      -- the storage of another handler stays
      refine (List.mem_erase_of_ne fun heq => ?_).mpr he'
      rw [heq, hid] at hid'
      exact hwaiting p hp hid'
    · show BufferPool.PoolInv _
        (t.others.map Handle.buf ++ (t.storage.erase e).filterMap fun e => e.2.buf?)
      cases hst : e.2 with
      | pooled handle =>
          refine h.pool.drop ?_
          have hused := (hperm.filterMap fun e => e.2.buf?).append_left (t.others.map Handle.buf)
          rw [List.filterMap_cons_some (b := handle.buf) (by rw [hst]; rfl)] at hused
          exact hused.trans List.perm_middle
      | caller addrs =>
          have hsame := hperm.filterMap fun e => e.2.buf?
          rw [List.filterMap_cons_none (by rw [hst]; rfl)] at hsame
          have hused := hsame.append_left (t.others.map Handle.buf)
          refine ⟨(hused.append_left _).nodup_iff.mp h.pool.disjoint, fun buf hbuf => ?_⟩
          exact h.pool.allocated buf ((hused.append_left _).mem_iff.mpr hbuf)
  · refine ⟨h.completed, fun streamId cell hcell => ?_, h.queue, h.accepted, h.posted, h.pool,
      h.acked, h.sent⟩
    obtain ⟨hold, hwaiting, hsame, hheld⟩ := h.written streamId cell hcell
    exact ⟨hold, hwaiting, hsame, hheld⟩

theorem copyTo_of_ne (memory : Addr → UInt8) {buf other : BufId} (data : List UInt8) (i : Nat)
    (h : other ≠ buf) : copyTo memory buf data (.pooled other i) = memory (.pooled other i) := by
  rw [copyTo, if_neg h]

/-- The copy is what was copied. -/
theorem copyTo_cells (memory : Addr → UInt8) (buf : BufId) (data : List UInt8)
    (handler : HandlerId) {cell : Cell} (h : cell ∈ pooledCells buf data handler) :
    cell.handler = handler ∧ copyTo memory buf data cell.addr = cell.byte ∧
      ∃ i, cell.addr = .pooled buf i := by
  obtain ⟨⟨byte, i⟩, hmem, rfl⟩ := List.mem_map.mp h
  refine ⟨rfl, ?_, i, rfl⟩
  have hget : data[i]? = some byte := List.mem_zipIdx_iff_getElem?.mp hmem
  show copyTo memory buf data (.pooled buf i) = byte
  rw [copyTo, if_pos rfl, hget]
  rfl

/-- What a buffer that is not in a handler's hands holds may change. -/
theorem owns_ne {t : Transport} {buf : BufId}
    (hfree : buf ∉ t.storage.filterMap fun e => e.2.buf?) {e : HandlerId × Storage}
    (he : e ∈ t.storage) {a : Addr} (howns : e.2.owns a = true) {i : Nat} :
    a ≠ .pooled buf i := by
  rintro rfl
  exact hfree (mem_used_of_owns he howns)

theorem held_writeData {t : Transport} (h : Held t) (streamId : StreamId) (data : List UInt8)
    (calls : List Writev) :
    (t.nothingCompletes (.writeData streamId data calls) = true →
        Held (t.writeData streamId data calls)) ∧
      (t.nothingCompletes (.writeData streamId data calls) = false →
        ¬ Stable (t.writeData streamId data calls)) := by
  rw [nothingCompletes, writeData]
  by_cases hlen : data.length > 0
  · rw [if_pos hlen, if_pos hlen]
    have hpool := h.pool.get data.length
    -- the pool hands out a buffer nobody uses, so the copy changes no cell
    have hnew : (t.pool.get data.length).2.buf ∉ t.used := by
      have hnodup := List.nodup_append.mp hpool.disjoint
      exact (List.nodup_cons.mp hnodup.2.1).1
    refine held_lend h (copyTo t.memory (t.pool.get data.length).2.buf data)
      (t.pool.get data.length).1 (.pooled (t.pool.get data.length).2)
      ?_ ?_ ?_ streamId calls
    · intro e he a howns
      cases a with
      | caller a => rfl
      | pooled buf i =>
          refine copyTo_of_ne t.memory data i ?_
          rintro rfl
          exact hnew (List.mem_append_right _ (mem_used_of_owns he howns))
    · have hperm : (t.used ++ [(t.pool.get data.length).2.buf]).Perm
          ((t.pool.get data.length).2.buf :: t.used) := List.perm_append_singleton _ _
      exact ⟨(hperm.append_left _).nodup_iff.mpr hpool.disjoint,
        fun buf hbuf => hpool.allocated buf ((hperm.append_left _).mem_iff.mp hbuf)⟩
    · intro cell hcell
      rw [List.flatten_singleton] at hcell
      obtain ⟨hid, hsame, i, haddr⟩ := copyTo_cells t.memory _ data t.nextHandler hcell
      refine ⟨hid, hsame, ?_⟩
      rw [haddr]
      exact beq_iff_eq.mpr rfl
  · rw [if_neg hlen, if_neg hlen]
    refine held_lend h t.memory t.pool (.caller [])
      (fun _ _ _ _ => rfl) ?_ ?_ streamId calls
    · rw [show (Storage.caller []).buf?.toList = [] from rfl, List.append_nil]
      exact h.pool
    · intro cell hcell
      exact absurd hcell List.not_mem_nil

theorem held_writeBuffers {t : Transport} (h : Held t) (streamId : StreamId)
    (buffers : List (List Nat)) (calls : List Writev) :
    (t.nothingCompletes (.writeBuffers streamId buffers calls) = true →
        Held (t.writeBuffers streamId buffers calls)) ∧
      (t.nothingCompletes (.writeBuffers streamId buffers calls) = false →
        ¬ Stable (t.writeBuffers streamId buffers calls)) := by
  refine held_lend h t.memory t.pool (.caller buffers.flatten)
    (fun _ _ _ _ => rfl) ?_ ?_ streamId calls
  · rw [show (Storage.caller buffers.flatten).buf?.toList = [] from rfl, List.append_nil]
    exact h.pool
  · intro cell hcell
    obtain ⟨cells, hcells, hmem⟩ := List.mem_flatten.mp hcell
    obtain ⟨buffer, hbuffer, rfl⟩ := List.mem_map.mp hcells
    obtain ⟨a, ha, rfl⟩ := List.mem_map.mp hmem
    exact ⟨rfl, rfl, List.contains_iff_mem.mpr (List.mem_flatten.mpr ⟨buffer, hbuffer, ha⟩)⟩

/-- **One step** keeps every byte that was taken where it is, unless it completes a write. -/
theorem held_step {t t' : Transport} {e : TransportEvent} (h : Held t)
    (hstep : t.step e = some t') :
    (t.nothingCompletes e = true → Held t') ∧ (t.nothingCompletes e = false → ¬ Stable t') := by
  have hother : Held t' → t.nothingCompletes e = true →
      (t.nothingCompletes e = true → Held t') ∧
        (t.nothingCompletes e = false → ¬ Stable t') := fun h' he =>
    ⟨fun _ => h', fun hf => Bool.noConfusion (he.symm.trans hf)⟩
  cases e with
  | writeData streamId data calls =>
      rw [← Option.some.inj hstep]
      exact held_writeData h streamId data calls
  | writeBuffers streamId buffers calls =>
      rw [← Option.some.inj hstep]
      exact held_writeBuffers h streamId buffers calls
  | doWrite calls =>
      rw [← Option.some.inj hstep]
      exact held_doWrite h calls
  | closeSession =>
      obtain rfl : _ = t' := Option.some.inj hstep
      exact hother (h.quiet (QuicSession.progress_closeSession t.session) ⟨rfl, rfl⟩) rfl
  | runHandler =>
      simp only [step, Option.map_eq_some_iff] at hstep
      obtain ⟨p, hp, rfl⟩ := hstep
      exact hother (h.giveBack (List.mem_of_getElem? hp)) rfl
  | transmit streamId offset len =>
      simp only [step, Option.ite_none_right_eq_some, Option.some.injEq] at hstep
      obtain ⟨-, rfl⟩ := hstep
      refine hother ⟨h.completed, fun sid cell hcell => ?_, h.queue, h.accepted, h.posted, h.pool,
        h.acked, fun x hx => ?_⟩ rfl
      · obtain ⟨hold, hwaiting, hsame, hheld⟩ := h.written sid cell hcell
        exact ⟨hold, hwaiting, hsame, hheld⟩
      · rcases List.mem_append.mp hx with hx | hx
        · exact h.sent x hx
        · rw [List.mem_singleton.mp hx]
          refine List.map_congr_left fun cell hcell => ?_
          have hmem := List.mem_of_mem_drop (List.mem_of_mem_take hcell)
          exact (h.written streamId cell (h.accepted streamId cell hmem)).same
  | ack streamId offset =>
      simp only [step, Option.ite_none_right_eq_some, Option.some.injEq] at hstep
      obtain ⟨hlt, rfl⟩ := hstep
      refine hother ⟨h.completed, fun sid cell hcell => ?_, h.queue, h.accepted, h.posted, h.pool,
        fun sid i hack => ?_, h.sent⟩ rfl
      · obtain ⟨hold, hwaiting, hsame, hheld⟩ := h.written sid cell hcell
        exact ⟨hold, hwaiting, hsame, hheld⟩
      · rcases Bool.or_eq_true_iff.mp hack with hack | hack
        · exact h.acked sid i hack
        · obtain ⟨hsid, hi⟩ := Bool.and_eq_true_iff.mp hack
          rw [beq_iff_eq.mp hsid, beq_iff_eq.mp hi]
          exact hlt
  | getBuffer size =>
      obtain rfl : _ = t' := Option.some.inj hstep
      refine hother (h.exchange (t.pool.get size).1 ((t.pool.get size).2 :: t.others) ?_) rfl
      exact h.pool.get size
  | storeBuffer handle i byte =>
      simp only [step, Option.ite_none_right_eq_some, Option.some.injEq] at hstep
      obtain ⟨hmem, rfl⟩ := hstep
      refine hother (h.store fun e he a howns => Function.update_of_ne ?_ _ _) rfl
      -- no handler holds a buffer that another user of the pool holds
      have hnodup := (List.nodup_append.mp h.pool.disjoint).2.1
      refine owns_ne (fun hbuf => ?_) he howns
      exact (List.nodup_append.mp hnodup).2.2 _ (List.mem_map_of_mem hmem) _ hbuf rfl
  | dropBuffer handle =>
      simp only [step, Option.ite_none_right_eq_some, Option.some.injEq] at hstep
      obtain ⟨hmem, rfl⟩ := hstep
      refine hother (h.exchange _ _ (h.pool.drop ?_)) rfl
      exact ((List.perm_cons_erase hmem).map Handle.buf).append_right _
  | storeCaller a byte =>
      simp only [step, Option.ite_none_right_eq_some, Option.some.injEq, List.all_eq_true,
        Bool.not_eq_true'] at hstep
      obtain ⟨hnot, rfl⟩ := hstep
      refine hother (h.store fun e he addr howns => Function.update_of_ne ?_ _ _) rfl
      rintro rfl
      rw [hnot e he] at howns
      exact Bool.false_ne_true howns

/-! ## Every run -/

/-- A session that has just been made. -/
def start (configs : List PoolConfig) (memory : Addr → UInt8) : Transport :=
  { pool := BufferPool.create configs, memory := memory }

theorem held_start (configs : List PoolConfig) (memory : Addr → UInt8) :
    Held (start configs memory) where
  completed := rfl
  written _ _ hcell := absurd hcell List.not_mem_nil
  queue _ hpw := absurd hpw List.not_mem_nil
  accepted _ _ hcell := absurd hcell List.not_mem_nil
  posted _ hp := absurd hp List.not_mem_nil
  pool := BufferPool.poolInv_create configs
  acked _ _ hack := Bool.noConfusion hack
  sent _ hx := absurd hx List.not_mem_nil

/-- **Retransmissions are stable** as long as ngtcp2 never takes the last byte of a write; and
the first time it does, the handler of that write is told so with the byte unacknowledged. -/
theorem retransmission_stable {configs : List PoolConfig} {memory : Addr → UInt8} {t : Transport}
    (h : Reach step (fun t e => t.nothingCompletes e = true) (start configs memory) t) :
    Stable t ∧ ∀ e t', t.step e = some t' → (Stable t' ↔ t.nothingCompletes e = true) := by
  have hheld : Held t := h.invariant (P := Held) (held_start configs memory)
    fun t e t' ht hok hstep => (held_step ht hstep).1 hok
  refine ⟨hheld.stable, fun e t' hstep => ?_⟩
  obtain ⟨hkeeps, hbreaks⟩ := held_step hheld hstep
  cases hok : t.nothingCompletes e with
  | true => exact iff_of_true (hkeeps hok).stable rfl
  | false => exact iff_of_false (hbreaks hok) Bool.false_ne_true

theorem retransmission_stable_partial :
    ∃ t : Transport, t.sent.map Transmission.bytes = [[1]] ∧ Stable t := by
  obtain ⟨t, hreach, hobs⟩ := exists_of_runGuarded step nothingCompletes
    [.writeData 0 [1, 2] [.packet (some 1) .ok], .transmit 0 0 1]
    (fun t => t.sent.map Transmission.bytes) (s := start [⟨512, 8, 32⟩] fun _ => 0) (a := [[1]])
    (by decide)
  exact ⟨t, hobs, (retransmission_stable hreach).1⟩

/-- A pooled copy goes back to the pool while it is in flight. Its next user fills it, the
packet is lost, and the retransmission carries the other user's byte. -/
theorem retransmission_stable_reused :
    ¬ ∀ (configs : List PoolConfig) (memory : Addr → UInt8) (t : Transport),
      Reach step anyStep (start configs memory) t →
      ∀ x ∈ t.sent, x.bytes = x.cells.map Cell.byte := by
  intro hall
  obtain ⟨t, hreach, hobs⟩ := exists_of_runAll step
    [.writeData 0 [1, 2] [.packet (some 2) .ok], .transmit 0 0 2, .runHandler, .getBuffer 100,
      .storeBuffer ⟨7, some 512⟩ 0 9, .transmit 0 0 2]
    (fun t => t.sent.map fun x => (x.bytes, x.cells.map Cell.byte))
    (s := start [⟨512, 8, 32⟩] fun _ => 0) (a := [([1, 2], [1, 2]), ([9, 2], [1, 2])]) (by decide)
  obtain ⟨x, hx, heq⟩ := List.mem_map.mp
    (hobs.symm ▸ List.mem_cons_of_mem _ List.mem_cons_self :
      ([9, 2], [1, 2]) ∈ t.sent.map fun x => (x.bytes, x.cells.map Cell.byte))
  have hsame := hall _ _ t hreach x hx
  rw [(Prod.mk.inj heq).1, (Prod.mk.inj heq).2] at hsame
  exact absurd hsame (by decide)

end Transport

end Cfrp.Quic

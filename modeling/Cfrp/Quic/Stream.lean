import Cfrp.Lib.Loop
import Cfrp.Mux.Stream

/-!
# A QUIC stream

The reading side of `QuicStream`. `do_read` is the loop of `MuxStream` once more, without
the limit on pending reads and with the credit given to ngtcp2. Two things are different:
`recv_stream_data` passes every block on, also the empty one of a bare FIN, and while the
session is gone `do_read` does nothing. The methods run on the session's strand.
-/

namespace Cfrp.Quic

open Lib Mux

/-- What an operation does outside the stream. -/
inductive StreamEffect where
  /-- A handler is posted to the strand. -/
  | post (c : Completion)
  /-- `ngtcp2_conn_extend_max_stream_offset`. -/
  | extendMaxStreamOffset (n : Nat)
  /-- `QuicSession::close_stream`. -/
  | closeStream
  deriving DecidableEq

/-- The completions posted to the strand. -/
def posts (es : List StreamEffect) : List Completion :=
  es.filterMap fun | .post c => some c | _ => none

theorem posts_append (l l' : List StreamEffect) : posts (l ++ l') = posts l ++ posts l' :=
  List.filterMap_append

structure QuicStream where
  /-- Whether `session_.lock()` still finds the session. -/
  session : Bool := true
  readQueue : List (List Byte) := []
  readQueueOffset : Nat := 0
  pendingReads : List PendingRead := []
  closed : Bool := false

namespace QuicStream

/-- The body of the loop of `do_read`. -/
def readTurn (s : QuicStream) : Option (QuicStream × List StreamEffect) :=
  match s.pendingReads with
  | [] => none
  | pr :: rest =>
      if s.readQueue.isEmpty then
        if s.closed then
          some ({ s with pendingReads := rest }, [.post { handler := pr.handler, ec := .eof }])
        else none
      else if pr.readAll &&
          decide (MuxStream.sizeSub (totalLength s.readQueue) s.readQueueOffset < pr.size) &&
          !s.closed then
        none
      else
        let r := MuxStream.copyOut s.readQueue s.readQueueOffset pr.size
        let credit := if r.1.2 > 0 then [.extendMaxStreamOffset r.1.2] else []
        some ({ s with readQueue := r.2.1, readQueueOffset := r.2.2, pendingReads := rest },
          .post { handler := pr.handler, count := r.1.2, bytes := r.1.1 } :: credit)

/-- `do_read`. -/
def doRead (s : QuicStream) : QuicStream × List StreamEffect :=
  if !s.session then (s, []) else loop readTurn s.pendingReads.length s

/-- `async_read` and `async_read_some`. -/
def asyncRead (s : QuicStream) (size : Nat) (handler : Handler) (readAll : Bool) :
    QuicStream × List StreamEffect :=
  if !s.session then (s, [.post { handler, ec := .connectionReset }])
  else doRead { s with pendingReads := s.pendingReads ++ [⟨size, handler, readAll⟩] }

/-- `close`, which completes nothing. -/
def close (s : QuicStream) : QuicStream × List StreamEffect :=
  if !s.session || s.closed then (s, []) else ({ s with closed := true }, [.closeStream])

def handleData (s : QuicStream) (bytes : List Byte) : QuicStream × List StreamEffect :=
  doRead { s with readQueue := s.readQueue ++ [bytes] }

def handleClose (s : QuicStream) : QuicStream × List StreamEffect :=
  doRead { s with closed := true }

/-! ## What reading does -/

theorem doRead_live {s : QuicStream} (hs : s.session = true) :
    s.doRead = loop readTurn s.pendingReads.length s := by
  rw [doRead, hs]
  rfl

theorem readTurn_session {s s' : QuicStream} {es : List StreamEffect}
    (h : s.readTurn = some (s', es)) : s'.session = s.session := by
  unfold readTurn at h
  split at h
  · cases h
  · split at h
    · split at h
      · cases h
        rfl
      · cases h
    · split at h
      · cases h
      · cases h
        rfl

theorem doRead_session (s : QuicStream) : s.doRead.1.session = s.session := by
  unfold doRead
  split
  · rfl
  · refine loop_induct (R := fun s _ s' => s'.session = s.session) (fun _ => rfl) ?_
      s.pendingReads.length s
    intro s es s' es' s'' hturn hrest
    exact hrest.trans (readTurn_session hturn)

theorem readTurn_measure {s s' : QuicStream} {es : List StreamEffect}
    (h : s.readTurn = some (s', es)) : s'.pendingReads.length < s.pendingReads.length := by
  unfold readTurn at h
  split at h
  · cases h
  · rename_i pr rest hreads
    have hlen : s.pendingReads.length = rest.length + 1 := by rw [hreads]; rfl
    split at h
    · split at h
      · cases h
        show rest.length < _
        omega
      · cases h
    · split at h
      · cases h
      · cases h
        show rest.length < _
        omega

end QuicStream

end Cfrp.Quic

import Cfrp.Lib.Transition
import Cfrp.Protocol.Messages
import Mathlib.Data.List.Basic

/-!
# The endpoint of a client's UDP bridge

The two loops of the client's `UdpBridge` share one variable. `DoReadFromStream` sends to
`local_endpoint_`, and `async_receive_from` in `DoReadFromLocal` writes the sender of each
datagram into it. So the endpoint the bridge was made with is lost with the first datagram
from anybody else, and nothing looks at where a datagram came from before it is forwarded.

A rate limiter may put any time between a frame or a datagram and what is done with it; the
operation that waits for it is the state `delayed` of its loop. A send that fails, and that of
a payload that is too long for a datagram does, ends `DoReadFromStream`, and the payload is
lost.
-/

namespace Cfrp.Bridge

open Lib

/-- What a UDP datagram over IPv4 can carry. -/
def maxDatagram : Nat := 65507

/-- Where `DoReadFromStream` is. -/
inductive FrameLoop (E : Type) where
  | reading
  | delayed (payload : List Byte)
  | sending (payload : List Byte) (destination : E)
  /-- A send has failed. -/
  | stopped
  /-- The stream has no more frames. -/
  | ended
  deriving DecidableEq

/-- Where `DoReadFromLocal` is. The sender of a datagram is history. -/
inductive DatagramLoop (E : Type) where
  | receiving
  | delayed (sender : E) (data : List Byte)
  | writing
  | stopped
  deriving DecidableEq

/-- The bridge, over any kind of endpoint. What it has read from the work stream, sent to its
local socket and forwarded to the user is history. -/
structure UdpBridge (E : Type) where
  localEndpoint : E
  frameLoop : FrameLoop E := .reading
  datagramLoop : DatagramLoop E := .receiving
  read : List (List Byte) := []
  toLocal : List (List Byte × E) := []
  toUser : List (E × List Byte) := []
  deriving DecidableEq

namespace UdpBridge

variable {E : Type}

inductive Event (E : Type) where
  /-- A frame was read from the work stream and decoded. -/
  | frame (payload : List Byte)
  /-- The read or the decoder failed: the stream is closed. -/
  | frameFailed
  /-- `send_op` runs. -/
  | sendOp
  | sent (ok : Bool)
  /-- `async_receive_from` completes. -/
  | datagram (sender : E) (data : List Byte)
  | receiveFailed
  /-- `write_op` runs. -/
  | writeOp
  | written (ok : Bool)

def step (b : UdpBridge E) : Event E → Option (UdpBridge E)
  | .frame payload =>
      match b.frameLoop with
      | .reading => some { b with frameLoop := .delayed payload, read := b.read ++ [payload] }
      | _ => none
  | .frameFailed =>
      match b.frameLoop with
      | .reading => some { b with frameLoop := .ended }
      | _ => none
  | .sendOp =>
      match b.frameLoop with
      | .delayed payload => some { b with frameLoop := .sending payload b.localEndpoint }
      | _ => none
  | .sent ok =>
      match b.frameLoop with
      | .sending payload destination =>
          if ok then
            if payload.length ≤ maxDatagram then
              some { b with
                frameLoop := .reading
                toLocal := b.toLocal ++ [(payload, destination)] }
            else none
          else some { b with frameLoop := .stopped }
      | _ => none
  | .datagram sender data =>
      match b.datagramLoop with
      | .receiving =>
          some { b with localEndpoint := sender, datagramLoop := .delayed sender data }
      | _ => none
  | .receiveFailed =>
      match b.datagramLoop with
      | .receiving => some { b with datagramLoop := .stopped }
      | _ => none
  | .writeOp =>
      match b.datagramLoop with
      | .delayed sender data =>
          some { b with datagramLoop := .writing, toUser := b.toUser ++ [(sender, data)] }
      | _ => none
  | .written ok =>
      match b.datagramLoop with
      | .writing => some { b with datagramLoop := if ok then .receiving else .stopped }
      | _ => none

/-- Datagrams come from the local service, and it can be sent to. -/
def FromService (service : E) (_ : UdpBridge E) : Event E → Prop
  | .datagram sender _ => sender = service
  | .sent ok => ok = true
  | _ => True

/-- The payload that was read and whose send has not completed. -/
def underway : FrameLoop E → List (List Byte)
  | .delayed payload => [payload]
  | .sending payload _ => [payload]
  | _ => []

/-- Every payload that was read has gone to the service, in the order of the frames, or is on
its way; and only the service's datagrams go to the user. -/
structure Faithful (service : E) (b : UdpBridge E) : Prop where
  read : b.read = b.toLocal.map Prod.fst ++ underway b.frameLoop
  toLocal : ∀ x ∈ b.toLocal, x.2 = service
  toUser : ∀ x ∈ b.toUser, x.1 = service

/-- The endpoints that are written to at this moment. -/
def destinations : FrameLoop E → List E
  | .sending _ destination => [destination]
  | _ => []

/-- The senders of the datagrams that were received and not forwarded. -/
def senders : DatagramLoop E → List E
  | .delayed sender _ => [sender]
  | _ => []

/-- **The invariant** as long as datagrams come from the service and it can be sent to: the
shared variable keeps its value. -/
structure Kept (service : E) (b : UdpBridge E) : Prop where
  endpoint : b.localEndpoint = service
  faithful : Faithful service b
  sending : ∀ e ∈ destinations b.frameLoop, e = service
  delayed : ∀ e ∈ senders b.datagramLoop, e = service
  runs : b.frameLoop ≠ .stopped

variable {service : E} {b b' : UdpBridge E}

theorem kept_start (service : E) : Kept service { localEndpoint := service } where
  endpoint := rfl
  faithful := ⟨rfl, fun _ hx => (by cases hx), fun _ hx => (by cases hx)⟩
  sending _ he := by cases he
  delayed _ he := by cases he
  runs := nofun

theorem kept_frame (h : Kept service b) (hloop : b.frameLoop = .reading) (payload : List Byte) :
    Kept service { b with frameLoop := .delayed payload, read := b.read ++ [payload] } := by
  refine ⟨h.endpoint, ⟨?_, h.faithful.toLocal, h.faithful.toUser⟩, fun e he => (by cases he),
    h.delayed, nofun⟩
  have hread := h.faithful.read
  rw [hloop] at hread
  show b.read ++ [payload] = b.toLocal.map Prod.fst ++ [payload]
  rw [hread]
  simp only [underway, List.append_nil]

theorem kept_sendOp (h : Kept service b) {payload : List Byte}
    (hloop : b.frameLoop = .delayed payload) :
    Kept service { b with frameLoop := .sending payload b.localEndpoint } := by
  refine ⟨h.endpoint, ⟨?_, h.faithful.toLocal, h.faithful.toUser⟩, fun e he => ?_, h.delayed,
    nofun⟩
  · have hread := h.faithful.read
    rwa [hloop] at hread
  · rw [List.mem_singleton.mp he]
    exact h.endpoint

theorem kept_sent (h : Kept service b) {payload : List Byte} {destination : E}
    (hloop : b.frameLoop = .sending payload destination) :
    Kept service { b with
      frameLoop := .reading
      toLocal := b.toLocal ++ [(payload, destination)] } := by
  refine ⟨h.endpoint, ⟨?_, fun x hx => ?_, h.faithful.toUser⟩, fun e he => (by cases he),
    h.delayed, nofun⟩
  · have hread := h.faithful.read
    rw [hloop] at hread
    show b.read = (b.toLocal ++ [(payload, destination)]).map Prod.fst ++ []
    rw [hread, List.map_append, List.append_nil]
    rfl
  · rcases List.mem_append.mp hx with hx | hx
    · exact h.faithful.toLocal x hx
    · have hsending := h.sending destination
      rw [hloop] at hsending
      rw [List.mem_singleton.mp hx]
      exact hsending List.mem_cons_self

theorem kept_writeOp (h : Kept service b) {sender : E} {data : List Byte}
    (hloop : b.datagramLoop = .delayed sender data) :
    Kept service { b with datagramLoop := .writing, toUser := b.toUser ++ [(sender, data)] } := by
  refine ⟨h.endpoint, ⟨h.faithful.read, h.faithful.toLocal, fun x hx => ?_⟩, h.sending,
    fun e he => (by cases he), h.runs⟩
  rcases List.mem_append.mp hx with hx | hx
  · exact h.faithful.toUser x hx
  · have hsender := h.delayed sender
    rw [hloop] at hsender
    rw [List.mem_singleton.mp hx]
    exact hsender List.mem_cons_self

/-- The stream ends while nothing is underway. -/
theorem kept_frameFailed (h : Kept service b) (hloop : b.frameLoop = .reading) :
    Kept service { b with frameLoop := .ended } := by
  refine ⟨h.endpoint, ⟨?_, h.faithful.toLocal, h.faithful.toUser⟩, fun e he => (by cases he),
    h.delayed, nofun⟩
  have hread := h.faithful.read
  rwa [hloop] at hread

/-- The loop over datagrams goes on, or it stops; nothing waits in it then. -/
theorem Kept.idleDatagrams (h : Kept service b) {loop : DatagramLoop E}
    (hafter : senders loop = []) : Kept service { b with datagramLoop := loop } :=
  ⟨h.endpoint, ⟨h.faithful.read, h.faithful.toLocal, h.faithful.toUser⟩, h.sending,
    fun e he => (by rw [hafter] at he; cases he), h.runs⟩

theorem kept_step {e : Event E} (h : Kept service b) (hok : FromService service b e)
    (hstep : b.step e = some b') : Kept service b' := by
  cases e with
  | frame payload =>
      cases hloop : b.frameLoop <;> simp only [step, hloop, Option.some.injEq] at hstep
      case reading => exact hstep ▸ kept_frame h hloop payload
      all_goals cases hstep
  | frameFailed =>
      cases hloop : b.frameLoop <;> simp only [step, hloop, Option.some.injEq] at hstep
      case reading => exact hstep ▸ kept_frameFailed h hloop
      all_goals cases hstep
  | sendOp =>
      cases hloop : b.frameLoop <;> simp only [step, hloop, Option.some.injEq] at hstep
      case delayed payload => exact hstep ▸ kept_sendOp h hloop
      all_goals cases hstep
  | sent ok =>
      cases hloop : b.frameLoop <;> simp only [step, hloop] at hstep
      case sending payload destination =>
        obtain rfl : ok = true := hok
        rw [if_pos rfl, Option.ite_none_right_eq_some, Option.some.injEq] at hstep
        exact hstep.2 ▸ kept_sent h hloop
      all_goals cases hstep
  | datagram sender data =>
      cases hloop : b.datagramLoop <;> simp only [step, hloop, Option.some.injEq] at hstep
      case receiving =>
        subst hstep
        -- the variable is overwritten, with the value it had
        refine ⟨hok, ⟨h.faithful.read, h.faithful.toLocal, h.faithful.toUser⟩, h.sending,
          fun e he => ?_, h.runs⟩
        rw [List.mem_singleton.mp he]
        exact hok
      all_goals cases hstep
  | receiveFailed =>
      cases hloop : b.datagramLoop <;> simp only [step, hloop, Option.some.injEq] at hstep
      case receiving => exact hstep ▸ h.idleDatagrams rfl
      all_goals cases hstep
  | writeOp =>
      cases hloop : b.datagramLoop <;> simp only [step, hloop, Option.some.injEq] at hstep
      case delayed sender data => exact hstep ▸ kept_writeOp h hloop
      all_goals cases hstep
  | written ok =>
      cases hloop : b.datagramLoop <;> simp only [step, hloop, Option.some.injEq] at hstep
      case writing => exact hstep ▸ h.idleDatagrams (by cases ok <;> rfl)
      all_goals cases hstep

theorem kept_of_reach (h : Reach step (FromService service) { localEndpoint := service } b) :
    Kept service b :=
  h.invariant (kept_start service) fun _ _ _ hkept hok hstep => kept_step hkept hok hstep

end UdpBridge

end Cfrp.Bridge

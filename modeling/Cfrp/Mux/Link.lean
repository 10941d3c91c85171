import Cfrp.Lib.Channel
import Cfrp.Lib.Transition
import Cfrp.Mux.StreamSpec
import Mathlib.Logic.Function.Basic

/-!
# Two streams joined by reliable pipes

The two ends of one stream, and for each direction what an end has told the other and
has not arrived. It is what remains of a pair of sessions when one looks at one stream
identifier. `Inv` is its invariant: in each direction, as long as the receiver has not
closed, the link is a credit-controlled channel of the initial window size, and FIN is
the last thing the sender says.
-/

namespace Cfrp.Mux

open Lib MuxStream

/-- One end: the stream, what its strand still has to run, and whether the session has
taken it out of its table. The rest is history: the completions posted, the payload
accepted by `async_write`, the payload put into frames, and whether a write was accepted
after `close`. -/
structure End where
  stream : MuxStream
  inbox : List Arrival := []
  removed : Bool := false
  log : List Completion := []
  accepted : List Byte := []
  sent : List Byte := []
  lateWrite : Bool := false

/-- `pipe x` is what end `x` has told the other end and the other end has not received. -/
structure Link where
  ends : Bool → End
  pipe : Bool → List Arrival

namespace Link

/-- A stream nobody has used. -/
def fresh (id : UInt32) : Link where
  ends _ := { stream := { id } }
  pipe _ := []

inductive Event where
  | read (x : Bool) (size : Nat) (handler : Handler) (readAll : Bool)
  | write (x : Bool) (buffers : List (List Byte)) (handler : Handler)
  | close (x : Bool)
  | destroy (x : Bool)
  /-- The session of `x` receives the next thing said to `x`. -/
  | dispatch (x : Bool)
  /-- The strand of `x` runs the next `handle_*`. -/
  | run (x : Bool)
  deriving DecidableEq, Repr

def setEnd (l : Link) (x : Bool) (e : End) : Link := { l with ends := Function.update l.ends x e }

/-- The state and the effects an operation of end `x` led to. -/
def perform (l : Link) (x : Bool) (r : MuxStream × List Effect) : Link where
  ends := Function.update l.ends x
    { l.ends x with
      stream := r.1
      log := (l.ends x).log ++ posts r.2
      removed := (l.ends x).removed || removes r.2
      sent := (l.ends x).sent ++ dataOf (told r.2) }
  pipe := Function.update l.pipe x (l.pipe x ++ told r.2)

/-- The payload of a write counts as accepted unless the queue is full. -/
def accept (e : End) (buffers : List (List Byte)) : End :=
  if e.stream.pendingWrites.length ≥ maxPendingWrites then e
  else
    { e with
      accepted := e.accepted ++ buffers.flatten
      lateWrite := e.lateWrite || e.stream.localClosed }

def step (l : Link) : Event → Option Link
  | .read x size handler readAll => some
    (l.perform x ((l.ends x).stream.asyncRead size handler readAll))
  | .write x buffers handler =>
      some ((l.setEnd x (accept (l.ends x) buffers)).perform x
        ((l.ends x).stream.asyncWrite buffers handler))
  | .close x => some (l.perform x (l.ends x).stream.close)
  | .destroy x =>
      if (l.ends x).removed then some (l.perform x (l.ends x).stream.destroy) else none
  | .dispatch x =>
      match l.pipe !x with
      | [] => none
      | a :: rest =>
          let e := l.ends x
          -- nobody is found in the table: the frame is dropped
          let e' := if e.removed then e else { e with inbox := e.inbox ++ [a] }
          some { ends := Function.update l.ends x e', pipe := Function.update l.pipe (!x) rest }
  | .run x =>
      match (l.ends x).inbox with
      | [] => none
      | a :: inbox =>
          some ((l.setEnd x { l.ends x with inbox }).perform x ((l.ends x).stream.handle a))

/-- What is on its way from `x` to `y`. -/
def transit (l : Link) (x y : Bool) : List Arrival := (l.ends y).inbox ++ l.pipe x

/-- The direction from `x` to `y`, as a channel. -/
def channel (l : Link) (x y : Bool) : Channel Byte where
  window := (l.ends x).stream.remoteWindowSize
  pending := (l.ends x).stream.pendingBytes
  transit := dataOf (l.transit x y)
  unread := (l.ends y).stream.unread
  consumed := (l.ends y).stream.consumedSinceLastUpdate
  credit := creditOf (l.transit y x)
  closed := (l.ends x).stream.localClosed
  accepted := (l.ends x).accepted
  sent := (l.ends x).sent
  delivered := delivered (l.ends y).log

/-! ## The invariant -/

/-- No payload follows FIN. -/
def FinLast : List Arrival → Prop
  | [] => True
  | .close :: l => dataOf l = [] ∧ FinLast l
  | _ :: l => FinLast l

theorem finLast_of_dataOf_nil {l : List Arrival} (h : dataOf l = []) : FinLast l := by
  induction l with
  | nil => trivial
  | cons a l ih =>
      cases a with
      | data b => exact ih (List.append_eq_nil_iff.mp h).2
      | windowUpdate d => exact ih h
      | close => exact ⟨h, ih h⟩

theorem FinLast.append {l l' : List Arrival} (h : FinLast l) (h' : FinLast l')
    (hclose : .close ∈ l → dataOf l' = []) : FinLast (l ++ l') := by
  induction l with
  | nil => exact h'
  | cons a l ih =>
      have hcl : .close ∈ l → dataOf l' = [] := fun hm => hclose (List.mem_cons_of_mem _ hm)
      cases a with
      | data b => exact ih h hcl
      | windowUpdate d => exact ih h hcl
      | close =>
          refine ⟨?_, ih h.2 hcl⟩
          show dataOf (l ++ l') = []
          rw [dataOf_append, h.1, hclose List.mem_cons_self]
          rfl

/-- The direction from `x` to `y` while `y` reads and `x` has written nothing late. -/
structure Flow (l : Link) (x y : Bool) : Prop where
  ok : (l.channel x y).Ok initialWindowSize
  queueOk : QueueOk (l.ends y).stream.readQueue (l.ends y).stream.readQueueOffset
  small : (l.ends y).stream.consumedSinceLastUpdate < windowUpdateThreshold
  blocks : ∀ b, .data b ∈ l.transit x y → 0 < b.length
  finLast : FinLast (l.transit x y)
  finished : (l.ends y).stream.remoteClosed = true → dataOf (l.transit x y) = []
  eof : ∀ c ∈ (l.ends y).log, c.ec = .eof →
    (l.ends y).stream.remoteClosed = true ∧ (l.ends y).stream.unread = []
  eofLast : EofLast (l.ends y).log

/-- What holds of the direction from `x` to `y` whatever its users do. -/
structure Direction (l : Link) (x y : Bool) : Prop where
  session : (l.ends x).stream.session = true
  lateWrite : (l.ends x).lateWrite = true → (l.ends x).stream.localClosed = true
  notFinished : (l.ends x).stream.localClosed = false →
    .close ∉ l.transit x y ∧ (l.ends y).stream.remoteClosed = false
  finSent : (l.ends x).stream.localClosed = true → (l.ends y).stream.localClosed = false →
    .close ∈ l.transit x y ∨ (l.ends y).stream.remoteClosed = true
  removed : (l.ends y).removed = true →
    (l.ends y).stream.localClosed = true ∧ (l.ends y).stream.remoteClosed = true
  flow : (l.ends x).lateWrite = false → (l.ends y).stream.localClosed = false → Flow l x y

/-- **The invariant of a link.** -/
def Inv (l : Link) : Prop := ∀ x y, x ≠ y → Direction l x y

theorem inv_fresh (id : UInt32) : Inv (fresh id) := fun _ _ _ => {
  session := rfl
  lateWrite := by intro h; cases h
  notFinished _ := ⟨List.not_mem_nil, rfl⟩
  finSent := by intro h; cases h
  removed := by intro h; cases h
  flow _ _ := {
    ok := Channel.ok_new initialWindowSize
    queueOk := rfl
    small := by show 0 < windowUpdateThreshold; decide
    blocks := by intro b hb; cases hb
    finLast := trivial
    finished _ := rfl
    eof := by intro c hc; cases hc
    eofLast := eofLast_nil } }

/-! ## Where an operation shows -/

variable {l : Link} {x a b : Bool}

@[simp] theorem perform_ends_self (r : MuxStream × List Effect) : (l.perform x r).ends x =
    { l.ends x with
      stream := r.1
      log := (l.ends x).log ++ posts r.2
      removed := (l.ends x).removed || removes r.2
      sent := (l.ends x).sent ++ dataOf (told r.2) } := Function.update_self ..

theorem perform_ends_ne (h : a ≠ x) (r : MuxStream × List Effect) :
    (l.perform x r).ends a = l.ends a := Function.update_of_ne h ..

theorem transit_perform_from (h : b ≠ x) (r : MuxStream × List Effect) :
    (l.perform x r).transit x b = l.transit x b ++ told r.2 := by
  rw [transit, perform_ends_ne h, transit, List.append_assoc]
  congr 1
  exact Function.update_self ..

theorem transit_perform_to (h : a ≠ x) (r : MuxStream × List Effect) :
    (l.perform x r).transit a x = l.transit a x := by
  rw [transit, perform_ends_self, transit]
  congr 1
  exact Function.update_of_ne h ..

@[simp] theorem setEnd_ends_self (e : End) : (l.setEnd x e).ends x = e := Function.update_self ..

theorem setEnd_ends_ne (h : a ≠ x) (e : End) : (l.setEnd x e).ends a = l.ends a :=
  Function.update_of_ne h ..

theorem transit_setEnd_from (h : b ≠ x) (e : End) :
    (l.setEnd x e).transit x b = l.transit x b := by
  rw [transit, setEnd_ends_ne h]
  rfl

theorem transit_setEnd_to (e : End) : (l.setEnd x e).transit a x = e.inbox ++ l.pipe a := by
  rw [transit, setEnd_ends_self]
  rfl

/-- The sides other than `x` are one side. -/
theorem sides {a b : Bool} (hab : a ≠ b) (x : Bool) : a = x ∨ b = x := by
  cases a <;> cases b <;> cases x <;> simp at hab ⊢

end Link

end Cfrp.Mux

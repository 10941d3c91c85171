import Cfrp.Transport.Buffered
import Cfrp.Websocket.Transparency

/-!
# What a mux session runs on

The stream that `start_mux` or `OnConnect` gives to a mux session is a plain one, or a
`WebsocketStream` over one. A `Channel` is either, and `use` is what its session and the
stream itself do with it. The stream below is read with `read`, which leaves `τ`.
-/

namespace Cfrp

open Lib

namespace Websocket.Stream

variable {s s' : Stream}

/-! ## What its user has written -/

/-- The messages among the jobs. -/
def messages (js : List Job) : List (List (List Byte)) :=
  js.filterMap fun | .write buffers => some buffers | .pong _ => none

theorem messages_append (js js' : List Job) : messages (js ++ js') = messages js ++ messages js' :=
  List.filterMap_append

theorem writtenBy_eq (js : List Job) : writtenBy js = (messages js).flatMap List.flatten := by
  induction js with
  | nil => rfl
  | cons j js ih =>
      cases j with
      | write buffers => exact congrArg (buffers.flatten ++ ·) ih
      | pong payload => exact ih

theorem mem_messages {js : List Job} {buffers : List (List Byte)} :
    buffers ∈ messages js ↔ .write buffers ∈ js := by
  rw [messages, List.mem_filterMap]
  constructor
  · rintro ⟨j, hj, heq⟩
    cases j with
    | write b =>
        cases heq
        exact hj
    | pong payload => cases heq
  · exact fun h => ⟨_, h, rfl⟩

/-! ## What reading leaves alone -/

/-- Reading hands over nothing, writes nothing for the user, and takes no result back. -/
structure Kept (s s' : Stream) : Prop where
  handed : s'.handed = s.handed
  messages : messages s'.accepted = messages s.accepted
  reads : s.reads <+: s'.reads

theorem Kept.refl (s : Stream) : Kept s s := ⟨rfl, rfl, List.prefix_refl _⟩

theorem Kept.trans {s s' s'' : Stream} (h : Kept s s') (h' : Kept s' s'') : Kept s s'' :=
  ⟨h'.handed.trans h.handed, h'.messages.trans h.messages, h.reads.trans h'.reads⟩

theorem Kept.complete (h : Kept s s') (op : ReadOp) (ec : ReadError) :
    Kept s (s'.complete op ec) :=
  ⟨h.handed, h.messages, h.reads.trans (List.prefix_append _ _)⟩

theorem Kept.fail (h : Kept s s') (ec : ReadError) : Kept s (s'.fail ec) := by
  unfold Stream.fail
  split
  · exact h
  · exact h.complete _ _

theorem Kept.asyncRead (h : Kept s s') (op : ReadOp) : Kept s (s'.asyncRead op) := by
  fun_induction Stream.asyncRead s' op with
  | case1 => exact h.complete _ _
  | case2 _ _ _ _ _ ih => exact ih ⟨h.handed, h.messages, h.reads⟩
  | case3 =>
      refine Kept.complete ?_ _ _
      exact ⟨h.handed, h.messages, h.reads⟩
  | case4 => exact ⟨h.handed, h.messages, h.reads⟩

theorem Kept.asyncReadSome (h : Kept s s') (op : ReadOp) : Kept s (s'.asyncReadSome op) := by
  unfold Stream.asyncReadSome
  split
  · exact h.complete _ _
  split
  · refine Kept.complete ?_ _ _
    exact ⟨h.handed, h.messages, h.reads⟩
  · exact ⟨h.handed, h.messages, h.reads⟩

theorem Kept.onFrame (h : Kept s s') (len : Nat) : Kept s (s'.onFrame len) := by
  unfold Stream.onFrame
  split
  · exact h
  next op _ =>
  have hnext : Kept s (if len > min len op.size then
      { s' with
        readOffset := s'.readOffset + min len op.size
        readRemaining := len - min len op.size }
      else { s' with readOffset := 0, readRemaining := 0, readBuffer := [] }) := by
    split
    · exact ⟨h.handed, h.messages, h.reads⟩
    · exact ⟨h.handed, h.messages, h.reads⟩
  simp only
  split
  · exact hnext.asyncRead _
  · exact hnext.complete _ _

theorem Kept.nextFrame (h : Kept s s') : Kept s s'.nextFrame := by
  unfold Stream.nextFrame
  split
  · exact h
  · exact ⟨h.handed, h.messages, h.reads⟩

theorem Kept.close (h : Kept s s') : Kept s s'.close := ⟨h.handed, h.messages, h.reads⟩

theorem Kept.nextStep (h : Kept s s') (opcode : Byte) (masked : Bool) (len : Nat) :
    Kept s (s'.nextStep opcode masked len) := by
  unfold Stream.nextStep
  split
  · exact h.close.fail _
  · exact ⟨h.handed, h.messages, h.reads⟩

theorem Kept.onRead (h : Kept s s') (data : List Byte) (a : Awaiting) :
    Kept s (s'.onRead data a) := by
  unfold Stream.onRead
  cases a with
  | header =>
      simp only
      split
      · exact h.close.fail _
      split
      · exact ⟨h.handed, h.messages, h.reads⟩
      split
      · exact ⟨h.handed, h.messages, h.reads⟩
      · exact h.nextStep ..
  | ext16 opcode masked => exact h.nextStep ..
  | ext64 opcode masked => exact h.nextStep ..
  | payload opcode masked len =>
      simp only
      split
      · exact h.close.fail _
      split
      · -- a pong is no message of the user
        refine Kept.nextFrame ⟨h.handed, ?_, h.reads⟩
        refine (messages_append _ _).trans ?_
        rw [h.messages]
        exact List.append_nil _
      split
      · exact h.nextFrame
      · refine Kept.onFrame ?_ _
        exact ⟨h.handed, h.messages, h.reads⟩

/-! ## What a WebsocketStream does, seen from its transport and its user -/

theorem handed_doWrite {t : Stream} (h : t.handed = s.handed) :
    s.handed <+: t.doWrite.handed := by
  rw [doWrite, ← h]
  split
  · exact List.prefix_refl _
  · exact List.prefix_append _ _

/-- The bytes that come from the transport with an event. -/
def Event.brought : Event → List Byte
  | .feed bytes => bytes
  | _ => []

/-- The message that the user writes. -/
def Event.message : Event → List (List (List Byte))
  | .write buffers => [buffers]
  | _ => []

structure Carried (s : Stream) (e : Event) (s' : Stream) : Prop where
  fed : s'.fed = s.fed ++ e.brought
  handed : s.handed <+: s'.handed
  messages : messages s'.accepted = messages s.accepted ++ e.message
  reads : s.reads <+: s'.reads

theorem Kept.carried (h : Kept s s') (hfed : s'.fed = s.fed) (e : Event) (hbrought : e.brought = [])
    (hmessage : e.message = []) : Carried s e s' where
  fed := by rw [hfed, hbrought, List.append_nil]
  handed := h.handed ▸ List.prefix_refl _
  messages := by rw [h.messages, hmessage, List.append_nil]
  reads := h.reads

/-- The side that writes hands on more. -/
theorem handed_of_writing {e : Event} (he : e.writing = true) (hs : step s e = some s') :
    s.handed <+: s'.handed := by
  cases e with
  | run mask =>
      rw [step] at hs
      split at hs
      · cases hs
        exact List.prefix_refl _
      · cases hs
  | look =>
      rw [step, Option.ite_none_right_eq_some] at hs
      obtain rfl := Option.some.inj hs.2
      unfold Stream.look
      split
      · exact List.prefix_refl _
      · exact handed_doWrite rfl
  | written ok =>
      rw [step] at hs
      split at hs
      · rw [Option.ite_none_right_eq_some] at hs
        obtain rfl := Option.some.inj hs.2
        exact List.prefix_refl _
      · cases hs
  | proceed =>
      rw [step, Option.ite_none_right_eq_some] at hs
      obtain rfl := Option.some.inj hs.2
      unfold Stream.proceed
      split
      · exact handed_doWrite rfl
      · exact List.prefix_refl _
  | reset =>
      rw [step, Option.ite_none_right_eq_some] at hs
      obtain rfl := Option.some.inj hs.2
      exact List.prefix_refl _
  | write | read | feed | readDone | readFail => cases he

theorem carried_of_writing {e : Event} (he : e.writing = true) (hs : step s e = some s') :
    Carried s e s' := by
  have hhanded := handed_of_writing he hs
  -- nothing arrives and nothing is accepted on this side
  have hnone : e.brought = [] ∧ e.message = [] := by
    cases e with
    | run | look | written | proceed | reset => exact ⟨rfl, rfl⟩
    | write | read | feed | readDone | readFail => cases he
  obtain ⟨_, _, _, _, _, _, _, rfl⟩ := onWriteSide he hs
  exact ⟨by rw [hnone.1, List.append_nil], hhanded, by rw [hnone.2, List.append_nil],
    List.prefix_refl _⟩

/-- **A step of a WebsocketStream.** -/
theorem transport_step (h : Sound s) {e : Event} (hs : step s e = some s') : Carried s e s' := by
  cases e with
  | write buffers =>
      obtain rfl := Option.some.inj hs
      exact ⟨(List.append_nil _).symm, List.prefix_refl _, messages_append _ _,
        List.prefix_refl _⟩
  | run | look | written | proceed | reset => exact carried_of_writing rfl hs
  | read all n =>
      rw [step] at hs
      split at hs
      · cases hs
      next hidle =>
      obtain rfl := Option.some.inj hs
      -- a read takes what has arrived, and changes nothing outside
      have hfed := congrArg Outside.fed
        (h.reader.start (Option.not_isSome_iff_eq_none.mp hidle) all n).outside
      refine Kept.carried ?_ hfed (.read all n) rfl rfl
      cases all with
      | true => exact (Kept.refl s).asyncRead _
      | false => exact (Kept.refl s).asyncReadSome _
  | feed bytes =>
      rw [step] at hs
      split at hs
      · cases hs
      obtain rfl := Option.some.inj hs
      exact ⟨rfl, List.prefix_refl _, (List.append_nil _).symm, List.prefix_refl _⟩
  | readDone =>
      rw [step] at hs
      split at hs
      · cases hs
      next a ha =>
      split at hs
      · cases hs
      obtain rfl := Option.some.inj hs
      refine Kept.carried ?_ ?_ .readDone rfl rfl
      · refine Kept.onRead ?_ _ a
        exact ⟨rfl, rfl, List.prefix_refl _⟩
      · exact congrArg Arrived.fed (arrived_onRead _ _ a)
  | readFail =>
      rw [step] at hs
      split at hs
      · obtain rfl := Option.some.inj hs
        refine Kept.carried ?_ ?_ .readFail rfl rfl
        · refine Kept.fail ?_ _
          exact ⟨rfl, rfl, List.prefix_refl _⟩
        · exact congrArg Arrived.fed (arrived_fail _ _)
      · cases hs

end Websocket.Stream

namespace Transport

open Websocket (Mask Stream writtenBy)

inductive Channel where
  /-- What its session has written to it and read from it. -/
  | plain (written taken : List Byte)
  | websocket (s : Stream)

/-- What is done with a channel. All but the first two are what a `WebsocketStream` does by
itself. -/
inductive Use where
  | write (buffers : List (List Byte))
  | read (n : Nat)
  | run (mask : Mask)
  | look
  | written (ok : Bool)
  | proceed
  | reset
  | arrive
  | readFail

/-- The event of the `WebsocketStream`. -/
def Use.event : Use → Option Stream.Event
  | .write buffers => some (.write buffers)
  | .read n => some (.read true n)
  | .run mask => some (.run mask)
  | .look => some .look
  | .written ok => some (.written ok)
  | .proceed => some .proceed
  | .reset => some .reset
  | .readFail => some .readFail
  | .arrive => none

/-- What the session writes. -/
def Use.payload : Use → List Byte
  | .write buffers => buffers.flatten
  | _ => []

namespace Channel

variable {τ : Type}

/-- `async_read` of the stream below brings what `ReadWsFrame` awaits. -/
def arrive (read : Nat → Option (List Byte × τ)) (s : Stream) : Option (Channel × τ) := do
  let a ← s.awaiting
  let (data, rest) ← read a.size
  let s ← s.step (.feed data)
  let s ← s.step .readDone
  some (.websocket s, rest)

def use (read : Nat → Option (List Byte × τ)) (rest : τ) : Channel → Use → Option (Channel × τ)
  | .plain written taken, .write buffers => some (.plain (written ++ buffers.flatten) taken, rest)
  | .plain written taken, .read n => (read n).map fun r => (.plain written (taken ++ r.1), r.2)
  | .plain _ _, _ => none
  | .websocket s, .arrive => arrive read s
  | .websocket s, u => do
      let e ← u.event
      let s ← s.step e
      some (.websocket s, rest)

def isWebsocket : Channel → Bool
  | .plain _ _ => false
  | .websocket _ => true

/-- What the session has written. -/
def written : Channel → List Byte
  | .plain written _ => written
  | .websocket s => writtenBy s.accepted

/-- What it has read. -/
def delivered : Channel → List Byte
  | .plain _ taken => taken
  | .websocket s => s.delivered

/-- What the channel has written to the stream below. -/
def handed : Channel → List Byte
  | .plain written _ => written
  | .websocket s => s.handed

/-- What it has read from there. -/
def fed : Channel → List Byte
  | .plain _ taken => taken
  | .websocket s => s.fed

/-- A `WebsocketStream` is one that has run from its handshake on. -/
def Runs (isClient : Bool) : Channel → Prop
  | .plain _ _ => True
  | .websocket s => Reach Stream.step anyStep (Stream.init isClient) s

/-- No message of a `WebsocketStream` is longer than its peer takes. -/
def Fits : Channel → Prop
  | .plain _ _ => True
  | .websocket s => ∀ buffers, .write buffers ∈ s.accepted →
      buffers.flatten.length ≤ Mux.maxMessageSize

/-- A channel that has been used, seen from the stream below and from its session. -/
structure Used (isClient : Bool) (ch ch' : Channel) (data payload : List Byte) : Prop where
  runs : ch'.Runs isClient
  same : ch'.isWebsocket = ch.isWebsocket
  fed : ch'.fed = ch.fed ++ data
  handed : ch.handed <+: ch'.handed
  written : ch'.written = ch.written ++ payload
  delivered : ch.delivered <+: ch'.delivered
  fits : ch.Fits → (ch.isWebsocket = true → payload.length ≤ Mux.maxMessageSize) → ch'.Fits

theorem Used.of_carried {isClient : Bool} {s s' : Stream} {e : Stream.Event}
    (h : (Channel.websocket s).Runs isClient) (hs : s.step e = some s') :
    Used isClient (.websocket s) (.websocket s') e.brought (e.message.flatMap List.flatten) := by
  have hstep := Stream.transport_step (Stream.sound_of_reach h) hs
  refine ⟨Reach.tail h trivial hs, rfl, hstep.fed, hstep.handed, ?_, ?_, fun hfits hshort => ?_⟩
  · show writtenBy s'.accepted = writtenBy s.accepted ++ _
    rw [Stream.writtenBy_eq, Stream.writtenBy_eq, hstep.messages, List.flatMap_append]
  · obtain ⟨reads, hreads⟩ := hstep.reads
    show s.delivered <+: s'.delivered
    rw [Stream.delivered, Stream.delivered, ← hreads, List.flatMap_append]
    exact List.prefix_append _ _
  · intro buffers hbuffers
    rw [← Stream.mem_messages, hstep.messages, List.mem_append] at hbuffers
    rcases hbuffers with hbuffers | hbuffers
    · exact hfits buffers (Stream.mem_messages.mp hbuffers)
    · cases e with
      | write b =>
          rw [List.mem_singleton.mp hbuffers]
          exact (List.append_nil b.flatten) ▸ hshort rfl
      | run | look | written | proceed | reset | read | feed | readDone | readFail =>
          cases hbuffers

theorem Used.trans {isClient : Bool} {ch ch' ch'' : Channel}
    {data data' payload payload' : List Byte} (h : Used isClient ch ch' data payload)
    (h' : Used isClient ch' ch'' data' payload') :
    Used isClient ch ch'' (data ++ data') (payload ++ payload') where
  runs := h'.runs
  same := h'.same.trans h.same
  fed := by rw [h'.fed, h.fed, List.append_assoc]
  handed := h.handed.trans h'.handed
  written := by rw [h'.written, h.written, List.append_assoc]
  delivered := h.delivered.trans h'.delivered
  fits hfits hshort := by
    rw [List.length_append] at hshort
    refine h'.fits (h.fits hfits fun hkind => ?_) fun hkind => ?_
    · have hle := hshort hkind
      omega
    · have hle := hshort (h.same ▸ hkind)
      omega

/-- **A channel that is used** takes nothing from the stream below, or what one read there
returns, and writes to it behind what it has written. -/
theorem used {isClient : Bool} {read : Nat → Option (List Byte × τ)} {rest rest' : τ}
    {ch ch' : Channel} {u : Use} (h : ch.Runs isClient)
    (hu : ch.use read rest u = some (ch', rest')) :
    Used isClient ch ch' [] u.payload ∧ rest' = rest ∨
      ∃ n data, read n = some (data, rest') ∧ Used isClient ch ch' data u.payload := by
  cases ch with
  | plain w taken =>
      cases u with
      | write buffers =>
          cases hu
          exact .inl ⟨⟨trivial, rfl, (List.append_nil _).symm, List.prefix_append _ _, rfl,
            List.prefix_refl _, fun _ _ => trivial⟩, rfl⟩
      | read n =>
          obtain ⟨⟨data, left⟩, hread, heq⟩ := Option.map_eq_some_iff.mp hu
          cases heq
          exact .inr ⟨n, data, hread, trivial, rfl, rfl, List.prefix_refl _,
            (List.append_nil _).symm, List.prefix_append _ _, fun _ _ => trivial⟩
      | run | look | written | proceed | reset | arrive | readFail => cases hu
  | websocket s =>
      by_cases harrive : u = .arrive
      · subst harrive
        simp only [use, arrive, Option.bind_eq_bind, Option.bind_eq_some_iff] at hu
        obtain ⟨a, -, ⟨data, left⟩, hread, s₁, hfeed, s₂, hdone, heq⟩ := hu
        cases heq
        have hfed := Used.of_carried h hfeed
        have hall := hfed.trans (Used.of_carried hfed.runs hdone)
        rw [show Stream.Event.brought (.feed data) ++ Stream.Event.brought .readDone = data from
          List.append_nil data] at hall
        exact .inr ⟨a.size, data, hread, hall⟩
      · have hstep : ∃ e, u.event = some e ∧ ∃ s', s.step e = some s' ∧
            ch' = .websocket s' ∧ rest' = rest := by
          cases u with
          | arrive => exact absurd rfl harrive
          | write | read | run | look | written | proceed | reset | readFail =>
              simp only [use, Use.event, Option.bind_eq_bind, Option.bind_some,
                Option.bind_eq_some_iff] at hu
              obtain ⟨s', hs, heq⟩ := hu
              cases heq
              exact ⟨_, rfl, s', hs, rfl, rfl⟩
        obtain ⟨e, he, s', hs, rfl, rfl⟩ := hstep
        have hused := Used.of_carried h hs
        have hbrought : e.brought = [] ∧ e.message.flatMap List.flatten = u.payload := by
          cases u with
          | arrive => cases he
          | write buffers =>
              cases he
              exact ⟨rfl, List.append_nil _⟩
          | read | run | look | written | proceed | reset | readFail =>
              cases he
              exact ⟨rfl, rfl⟩
        rw [hbrought.1, hbrought.2] at hused
        exact .inl ⟨hused, rfl⟩

end Channel

end Transport

end Cfrp

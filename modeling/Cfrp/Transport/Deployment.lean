import Cfrp.Transport.Detection

/-!
# Two sessions over a connection

The mux sessions of a client and a server, each over the channel it has when the handshakes
are over. What a session writes goes to its channel, and its reads are answered by what the
channel delivers. When a session is told that a write has ended is left open.

`abs` forgets the connection: what a session has written and its peer was not given is on the
wire between them. As long as both run, that is a run of `Pair`.
-/

namespace Cfrp.Transport

open Lib Websocket
open Mux (Session Pair Reading Header Encoded EncodedFrom)

namespace AutoLink

/-- The channel of an end, as soon as its session is started. The client is `false`. -/
def channel (l : AutoLink) : Bool → Option Channel
  | false => match l.near with
      | .opened _ ch => some ch
      | _ => none
  | true => match l.far with
      | .muxed _ ch => some ch
      | _ => none

def closed (l : AutoLink) : Bool → Bool
  | false => l.nearClosed
  | true => l.farClosed

namespace Event

/-- End `x` uses its channel. -/
def uses (u : Use) : Bool → Event
  | false => .near (.use u)
  | true => .far (.use u)

def closes : Bool → Event
  | false => .near .close
  | true => .far .close

/-- The reads and writes of the sessions. -/
def ofSession : Event → Bool
  | .near (.use (.write _)) | .near (.use (.read _)) => true
  | .far (.use (.write _)) | .far (.use (.read _)) => true
  | _ => false

/-- What the session of an end writes. -/
def payload : Event → Bool → List Byte
  | .near e, false => match e with
      | .use u => u.payload
      | _ => []
  | .far e, true => match e with
      | .use u => u.payload
      | _ => []
  | _, _ => []

end Event

end AutoLink

structure Deployment where
  link : AutoLink
  /-- `wire` is all that a session has written. -/
  sessions : Pair := Pair.init
  /-- How much of what its channel has delivered a session was given. -/
  heard : Bool → Nat := fun _ => 0

namespace Deployment

def start (websocket : Bool) : Deployment := { link := .start websocket }

inductive Event where
  /-- The handshake, or what a `WebsocketStream` does by itself. -/
  | link (e : AutoLink.Event)
  /-- Session `x` does something that needs nothing from the other session. -/
  | act (x : Bool) (e : Session.Event)
  /-- Session `x` starts the read it has to make next. -/
  | read (x : Bool)
  /-- That read completes. -/
  | recv (x : Bool)

/-- The size of the read that a session makes. -/
def awaited : Reading → Option Nat
  | .header => some Header.size
  | .body h => some h.length.toNat
  | .idle => none

/-- Its handler. -/
def readEvent (data : List Byte) : Reading → Option Session.Event
  | .header => some (.recvHeader data)
  | .body _ => some (.recvBody data)
  | .idle => none

section

variable (c : Crypto) (nonce : List Byte)

/-- What a session has written goes to its channel, or nowhere if that is closed. -/
def transmit (d : Deployment) (x : Bool) (out : List Byte) : Option AutoLink :=
  if out = [] ∨ d.link.closed x = true then some d.link
  else d.link.step c nonce (.uses (.write [out]) x)

/-- Session `x` does `e`. -/
def act (d : Deployment) (x : Bool) (e : Session.Event) : Option Deployment := do
  let _ ← d.link.channel x
  let s ← (d.sessions x).step e
  let link ← d.transmit c nonce x (s.wire.drop (d.sessions x).wire.length)
  some { d with link, sessions := Function.update d.sessions x s }

def read (d : Deployment) (x : Bool) : Option Deployment := do
  let ch ← d.link.channel x
  let n ← awaited (d.sessions x).reading
  if d.heard x = ch.delivered.length then
    let link ← d.link.step c nonce (.uses (.read n) x)
    some { d with link }
  else none

/-- What a session answers to a frame is posted, so nothing is written here. -/
def recv (d : Deployment) (x : Bool) : Option Deployment := do
  let ch ← d.link.channel x
  let e ← readEvent (ch.delivered.drop (d.heard x)) (d.sessions x).reading
  let s ← (d.sessions x).step e
  some { d with
    sessions := Function.update d.sessions x s
    heard := Function.update d.heard x ch.delivered.length }

def step (d : Deployment) : Event → Option Deployment
  | .link e =>
      if e.ofSession then none else (d.link.step c nonce e).map fun link => { d with link }
  | .act _ (.recvHeader _) => none
  | .act _ (.recvBody _) => none
  | .act x e => d.act c nonce x e
  | .read x => d.read c nonce x
  | .recv x => d.recv x

/-- What is assumed of a run. The sessions do what those of a `Pair` are assumed to do, and do
not write more at once than a `WebsocketStream` takes for a message. The client reads the
response, no more and no less, and nobody closes the connection of a session that runs. -/
def conforming (d : Deployment) : Event → Bool
  | .act x e => Pair.conforming d.sessions (.act x e) &&
      ((d.sessions x).step e).all fun s => (d.link.channel x).all fun ch =>
        !ch.isWebsocket ||
          (s.wire.drop (d.sessions x).wire.length).length ≤ Mux.maxMessageSize
  | .link (.near (.response n)) =>
      (readSome 1024 n d.link.down).map Prod.fst = some (AutoLink.expected c nonce)
  | .link (.near .close) => (d.sessions false).stopped
  | .link (.far .close) => (d.sessions true).stopped
  | _ => true

abbrev Conforming (d : Deployment) (e : Event) : Prop := conforming c nonce d e = true

end

/-- What a session has written and the other was not given is on the wire. -/
def abs (d : Deployment) : Pair := fun x => (d.sessions x).ahead (d.heard !x)

end Deployment

/-! ## The channels of a connection -/

namespace Channel

variable {ch ch' : Channel} {payload : List Byte}

/-- What a session sees of its channel from one moment to the next. -/
structure Grows (ch ch' : Channel) (payload : List Byte) : Prop where
  written : ch'.written = ch.written ++ payload
  delivered : ch.delivered <+: ch'.delivered
  fits : ch.Fits → (ch.isWebsocket = true → payload.length ≤ Mux.maxMessageSize) → ch'.Fits

theorem Grows.refl (ch : Channel) : Grows ch ch [] :=
  ⟨(List.append_nil _).symm, List.prefix_refl _, fun h _ => h⟩

theorem Used.grows {isClient : Bool} {data : List Byte} (h : Used isClient ch ch' data payload) :
    Grows ch ch' payload := ⟨h.written, h.delivered, h.fits⟩

end Channel

namespace AutoLink

variable {c : Crypto} {nonce : List Byte} {websocket : Bool} {l l' : AutoLink}

/-- The channel of an end, unused before its session is started. -/
def channelAt (websocket : Bool) (l : AutoLink) : Bool → Channel
  | false => nearChannel websocket l.near
  | true => farChannel websocket l.far

theorem channelAt_eq (websocket : Bool) {x : Bool} {ch : Channel} (h : l.channel x = some ch) :
    channelAt websocket l x = ch := by
  cases x with
  | false =>
      rw [channel] at h
      split at h
      · rename_i r ch' hnear
        cases h
        rw [channelAt, hnear]
        rfl
      · cases h
  | true =>
      rw [channel] at h
      split at h
      · rename_i b ch' hfar
        cases h
        rw [channelAt, hfar]
        rfl
      · cases h

theorem unused_fresh (websocket isClient : Bool) : (unused websocket isClient).written = [] ∧
    (unused websocket isClient).delivered = [] ∧ (unused websocket isClient).Fits := by
  cases websocket with
  | false => exact ⟨rfl, rfl, trivial⟩
  | true => exact ⟨rfl, rfl, fun _ h => by cases h⟩

/-- A step of the client's end. -/
structure NearMoved (c : Crypto) (nonce : List Byte) (websocket : Bool) (l : AutoLink)
    (e : NearEvent) (l' : AutoLink) : Prop where
  grows : (channelAt websocket l false).Grows (channelAt websocket l' false)
    (Event.payload (.near e) false)
  far : l'.far = l.far
  farClosed : l'.farClosed = l.farClosed
  closed : l'.nearClosed = l.nearClosed ∨ e = .close
  response : ∀ r ch, l'.near = .opened r ch → websocket = true →
    (∃ ch, l.near = .opened r ch) ∨
      ∃ n, e = .response n ∧ (readSome 1024 n l.down).map Prod.fst = some r

theorem Inv.nearMoved (h : Inv c nonce websocket l) {e : NearEvent}
    (hs : l.nearStep c nonce e = some l') : NearMoved c nonce websocket l e l' := by
  cases e with
  | connected =>
      rw [AutoLink.nearStep] at hs
      split at hs
      · rename_i w hnear
        cases hs
        have hclient := h.near
        rw [hnear] at hclient
        obtain rfl : w = websocket := hclient
        rw [AutoLink.onConnected]
        cases w with
        | false =>
            refine ⟨?_, rfl, rfl, .inl rfl, fun _ _ _ hfalse => by cases hfalse⟩
            rw [channelAt, hnear]
            exact Channel.Grows.refl _
        | true =>
            refine ⟨?_, rfl, rfl, .inl rfl, fun _ _ hopened => by cases hopened⟩
            rw [channelAt, hnear]
            exact Channel.Grows.refl _
      · cases hs
  | response n =>
      rw [AutoLink.nearStep] at hs
      split at hs
      · rename_i hnear
        have hclient := h.near
        rw [hnear] at hclient
        obtain rfl : websocket = true := hclient
        simp only [AutoLink.onResponse, Option.bind_eq_bind, Option.bind_eq_some_iff] at hs
        obtain ⟨⟨data, down⟩, hread, temp, -, hs⟩ := hs
        split at hs
        · cases hs
          refine ⟨?_, rfl, rfl, .inl rfl, fun r ch hopened _ => .inr ⟨n, rfl, ?_⟩⟩
          · rw [channelAt, hnear]
            exact Channel.Grows.refl _
          · cases hopened
            rw [hread]
            rfl
        · cases hs
          refine ⟨?_, rfl, rfl, .inl rfl, fun _ _ hopened => by cases hopened⟩
          rw [channelAt, hnear]
          exact Channel.Grows.refl _
      · cases hs
  | use u =>
      rw [AutoLink.nearStep] at hs
      split at hs
      · rename_i response ch hnear
        have hclient := h.near
        rw [hnear] at hclient
        simp only [AutoLink.useNear, Option.bind_eq_bind, Option.bind_eq_some_iff] at hs
        obtain ⟨⟨ch', down⟩, huse, hs⟩ := hs
        cases hs
        refine ⟨?_, rfl, rfl, .inl rfl, fun r ch'' hopened _ => .inl ⟨ch, ?_⟩⟩
        · rw [channelAt, hnear]
          rcases Channel.used hclient.2.1 huse with ⟨hused, -⟩ | ⟨n, data, -, hused⟩
          · exact hused.grows
          · exact hused.grows
        · cases hopened
          exact hnear
      · cases hs
  | close =>
      cases hs
      exact ⟨Channel.Grows.refl _, rfl, rfl, .inr rfl, fun _ ch hopened _ => .inl ⟨ch, hopened⟩⟩

/-- A step of the server's end. -/
structure FarMoved (websocket : Bool) (l : AutoLink) (e : FarEvent) (l' : AutoLink) : Prop where
  grows : (channelAt websocket l true).Grows (channelAt websocket l' true)
    (Event.payload (.far e) true)
  near : l'.near = l.near
  nearClosed : l'.nearClosed = l.nearClosed
  closed : l'.farClosed = l.farClosed ∨ e = .close

theorem Inv.farMoved (h : Inv c nonce websocket l) {e : FarEvent}
    (hs : l.farStep c e = some l') : FarMoved websocket l e l' := by
  cases e with
  | firstByte =>
      rw [AutoLink.farStep] at hs
      split at hs
      · rename_i hfar
        have hserver := (h.onFirstByte hfar hs).far
        rw [AutoLink.onFirstByte] at hs
        split at hs
        · cases hs
        · rename_i b up hup
          cases hs
          refine ⟨?_, rfl, rfl, .inl rfl⟩
          dsimp only at hserver
          rw [channelAt, channelAt, hfar]
          dsimp only
          by_cases hG : b = 0x47
          · rw [if_pos hG]
            exact Channel.Grows.refl _
          · rw [if_neg hG] at hserver ⊢
            obtain rfl : false = websocket := hserver.1
            exact Channel.Grows.refl _
      · cases hs
  | request n =>
      rw [AutoLink.farStep] at hs
      split at hs
      · rename_i requestBuf hfar
        simp only [AutoLink.onRequest, Option.bind_eq_bind, Option.bind_eq_some_iff] at hs
        obtain ⟨⟨data, buffered, up⟩, -, temp, -, hs⟩ := hs
        have hunused : channelAt websocket l true = unused websocket false := by
          rw [channelAt, hfar]
          rfl
        split at hs
        · cases hs
          exact ⟨hunused ▸ Channel.Grows.refl _, rfl, rfl, .inl rfl⟩
        · cases hs
          exact ⟨hunused ▸ Channel.Grows.refl _, rfl, rfl, .inl rfl⟩
        · cases hs
          exact ⟨hunused ▸ Channel.Grows.refl _, rfl, rfl, .inl rfl⟩
      · cases hs
  | responded =>
      rw [AutoLink.farStep] at hs
      split at hs
      · rename_i requestBuf hfar
        have hserver := h.far
        rw [hfar] at hserver
        obtain ⟨rfl, -⟩ : websocket = true ∧ _ := hserver
        cases hs
        refine ⟨?_, rfl, rfl, .inl rfl⟩
        rw [channelAt, hfar]
        exact Channel.Grows.refl _
      · cases hs
  | use u =>
      rw [AutoLink.farStep] at hs
      split at hs
      · rename_i requestBuf ch hfar
        have hserver := h.far
        rw [hfar] at hserver
        simp only [AutoLink.useFar, Option.bind_eq_bind, Option.bind_eq_some_iff] at hs
        obtain ⟨⟨ch', buffered, up⟩, huse, hs⟩ := hs
        cases hs
        refine ⟨?_, rfl, rfl, .inl rfl⟩
        rw [channelAt, hfar]
        rcases Channel.used hserver.2.1 huse with ⟨hused, -⟩ | ⟨n, data, -, hused⟩
        · exact hused.grows
        · exact hused.grows
      · cases hs
  | close =>
      cases hs
      exact ⟨Channel.Grows.refl _, rfl, rfl, .inr rfl⟩

/-- **A step of a connection, seen from the two sessions.** -/
structure Moved (c : Crypto) (nonce : List Byte) (websocket : Bool) (l : AutoLink) (e : Event)
    (l' : AutoLink) : Prop where
  grows : ∀ x, (channelAt websocket l x).Grows (channelAt websocket l' x) (e.payload x)
  closed : ∀ x, l'.closed x = l.closed x ∨ e = .closes x
  response : ∀ r ch, l'.near = .opened r ch → websocket = true →
    (∃ ch, l.near = .opened r ch) ∨
      ∃ n, e = .near (.response n) ∧ (readSome 1024 n l.down).map Prod.fst = some r

theorem Inv.moved (h : Inv c nonce websocket l) {e : Event} (hs : step c nonce l e = some l') :
    Moved c nonce websocket l e l' := by
  cases e with
  | near e =>
      rw [step, Option.ite_none_left_eq_some] at hs
      have hmoved := h.nearMoved hs.2
      refine ⟨fun x => ?_, fun x => ?_, fun r ch hopened hw => ?_⟩
      · cases x with
        | false => exact hmoved.grows
        | true =>
            rw [channelAt, channelAt, hmoved.far]
            exact Channel.Grows.refl _
      · cases x with
        | false => exact hmoved.closed.imp id fun he => by rw [he]; rfl
        | true => exact .inl hmoved.farClosed
      · rcases hmoved.response r ch hopened hw with hbefore | ⟨n, he, hr⟩
        · exact .inl hbefore
        · exact .inr ⟨n, by rw [he], hr⟩
  | far e =>
      rw [step, Option.ite_none_left_eq_some] at hs
      have hmoved := h.farMoved hs.2
      refine ⟨fun x => ?_, fun x => ?_, fun r ch hopened _ => .inl ⟨ch, hmoved.near ▸ hopened⟩⟩
      · cases x with
        | false =>
            rw [channelAt, channelAt, hmoved.near]
            exact Channel.Grows.refl _
        | true => exact hmoved.grows
      · cases x with
        | false => exact .inl hmoved.nearClosed
        | true => exact hmoved.closed.imp id fun he => by rw [he]; rfl

end AutoLink

/-! ## The sessions of a connection are a pair -/

namespace Deployment

variable {c : Crypto} {nonce : List Byte} {websocket : Bool} {d d' : Deployment}

structure Inv (c : Crypto) (nonce : List Byte) (websocket : Bool) (d : Deployment) : Prop where
  link : AutoLink.Inv c nonce websocket d.link
  response : ∀ r ch, d.link.near = .opened r ch → websocket = true → r = AutoLink.expected c nonce
  stays : ∀ x, d.link.closed x = false
  written : ∀ x, (AutoLink.channelAt websocket d.link x).written = (d.sessions x).wire
  fits : ∀ x, (AutoLink.channelAt websocket d.link x).Fits
  heard : ∀ x, d.heard x ≤ (AutoLink.channelAt websocket d.link x).delivered.length
  refines : Reach Pair.step Pair.Conforming Pair.init d.abs

theorem inv_start : Inv c nonce websocket (start websocket) := by
  have hchannel : ∀ x, AutoLink.channelAt websocket (start websocket).link x =
      AutoLink.unused websocket !x := by
    intro x
    cases x with
    | false => rfl
    | true => rfl
  refine ⟨AutoLink.inv_start, fun _ _ h => (by cases h), fun x => ?_, fun x => ?_, fun x => ?_,
    fun x => Nat.zero_le _, ?_⟩
  · cases x with
    | false => rfl
    | true => rfl
  · rw [hchannel]
    exact (AutoLink.unused_fresh websocket !x).1
  · rw [hchannel]
    exact (AutoLink.unused_fresh websocket !x).2.2
  · have habs : (start websocket).abs = Pair.init := by
      funext x
      cases x with
      | false => rfl
      | true => rfl
    rw [habs]
    exact Reach.init

/-- **What a channel delivers was written by the other session.** -/
theorem Inv.delivered (h : Inv c nonce websocket d) (x : Bool) :
    (AutoLink.channelAt websocket d.link x).delivered <+: (d.sessions !x).wire := by
  obtain ⟨hnearKind, hnearRuns⟩ := h.link.nearChannel
  obtain ⟨hfarKind, hfarRuns⟩ := h.link.farChannel
  rw [← h.written !x]
  cases x with
  | false =>
      cases hnear : d.link.near with
      | opened r ch =>
          obtain ⟨hkind, hfed⟩ := h.link.opened hnear
          rw [AutoLink.channelAt, hnear]
          rw [hnear] at hnearRuns
          exact AutoLink.delivered_of_fed hfarRuns hnearRuns (hkind.trans hfarKind.symm)
            (h.fits true) (hfed (h.response r ch hnear) ▸ List.prefix_append _ _)
      | connecting | requesting | refused =>
          rw [AutoLink.channelAt, hnear]
          have hnil := (AutoLink.unused_fresh websocket true).2.1
          exact hnil.symm ▸ List.nil_prefix
  | true =>
      cases hfar : d.link.far with
      | muxed b ch =>
          obtain ⟨hkind, hfed⟩ := h.link.muxed hfar
          rw [AutoLink.channelAt, hfar]
          rw [hfar] at hfarRuns
          exact AutoLink.delivered_of_fed hnearRuns hfarRuns (hkind.trans hnearKind.symm)
            (h.fits false) (hfed ▸ List.prefix_append _ _)
      | firstByte | upgrading | responding | refused =>
          rw [AutoLink.channelAt, hfar]
          have hnil := (AutoLink.unused_fresh websocket false).2.1
          exact hnil.symm ▸ List.nil_prefix

theorem Inv.heard_le (h : Inv c nonce websocket d) (x : Bool) :
    d.heard (!x) ≤ (d.sessions x).wire.length := by
  have hle := (h.delivered !x).length_le
  rw [Bool.not_not] at hle
  exact (h.heard !x).trans hle

/-- A step of the connection in which the sessions stay where they are. -/
theorem Inv.ofLink (h : Inv c nonce websocket d) {e : AutoLink.Event} {link : AutoLink}
    (hkey : EncodesKey c nonce) (hs : d.link.step c nonce e = some link)
    (hwrites : AutoLink.muxWrites d.link e) (hnone : ∀ x, e.payload x = [])
    (hcloses : ∀ x, e ≠ .closes x)
    (hresponse : ∀ n, e = .near (.response n) →
      (readSome 1024 n d.link.down).map Prod.fst = some (AutoLink.expected c nonce)) :
    Inv c nonce websocket { d with link } := by
  have hmoved := h.link.moved hs
  refine ⟨AutoLink.inv_step hkey h.link hwrites hs, fun r ch hopened hw => ?_, fun x => ?_,
    fun x => ?_, fun x => ?_, fun x => ?_, h.refines⟩
  · rcases hmoved.response r ch hopened hw with ⟨ch', hbefore⟩ | ⟨n, he, hr⟩
    · exact h.response r ch' hbefore hw
    · exact Option.some.inj (hr.symm.trans (hresponse n he))
  · rcases hmoved.closed x with hsame | he
    · exact hsame.trans (h.stays x)
    · exact absurd he (hcloses x)
  · rw [(hmoved.grows x).written, hnone x, List.append_nil]
    exact h.written x
  · exact (hmoved.grows x).fits (h.fits x) fun _ => by rw [hnone x]; exact Nat.zero_le _
  · exact (h.heard x).trans (hmoved.grows x).delivered.length_le

/-- What a session does is done by that session of the pair. -/
theorem step_abs {x : Bool} {e : Session.Event} {s : Session} (hheader : ∀ b, e ≠ .recvHeader b)
    (hbody : ∀ b, e ≠ .recvBody b) (hs : (d.abs x).step e = some s) :
    Pair.step d.abs (.act x e) = some (Function.update d.abs x s) := by
  have heq : Pair.step d.abs (.act x e) =
      ((d.abs x).step e).map fun s => Function.update d.abs x s := by
    cases e with
    | recvHeader b => exact absurd rfl (hheader b)
    | recvBody b => exact absurd rfl (hbody b)
    | _ => rfl
  rw [heq, hs]
  rfl

theorem conforming_abs (d : Deployment) (x : Bool) (e : Session.Event) :
    Pair.conforming d.abs (.act x e) = Pair.conforming d.sessions (.act x e) := by
  cases e with
  | _ => rfl

theorem abs_act (d : Deployment) (link : AutoLink) (x : Bool) (s : Session) :
    abs { d with link, sessions := Function.update d.sessions x s } =
      Function.update d.abs x (s.ahead (d.heard !x)) := by
  funext y
  show Session.ahead (d.heard !y) (Function.update d.sessions x s y) = _
  by_cases hy : y = x
  · rw [hy, Function.update_self, Function.update_self]
  · rw [Function.update_of_ne hy, Function.update_of_ne hy]
    rfl

/-- A session that acts writes frames, and they go to its channel. -/
theorem Inv.act (h : Inv c nonce websocket d) (hkey : EncodesKey c nonce) {x : Bool}
    {e : Session.Event} (hheader : ∀ b, e ≠ .recvHeader b) (hbody : ∀ b, e ≠ .recvBody b)
    (hok : Conforming c nonce d (.act x e)) (hrun : d'.sessions.Running)
    (hs : d.act c nonce x e = some d') : Inv c nonce websocket d' := by
  simp only [Deployment.act, Option.bind_eq_bind, Option.bind_eq_some_iff] at hs
  obtain ⟨ch, hch, s, hstep, link, hlink, heq⟩ := hs
  cases heq
  obtain ⟨hahead, out, hout⟩ := Session.step_ahead hstep (h.heard_le x)
  have hshort : ch.isWebsocket = true → out.length ≤ Mux.maxMessageSize := by
    intro hkind
    have hall := (Bool.and_eq_true_iff.mp hok).2
    rw [hstep, Option.all_some, hch, Option.all_some, hkind, ← hout, List.drop_left] at hall
    exact of_decide_eq_true hall
  rw [← hout, List.drop_left] at hlink
  have habs := abs_act d link x s
  have hpair := step_abs hheader hbody hahead
  have hreach := Reach.tail h.refines
    ((conforming_abs d x e).trans (Bool.and_eq_true_iff.mp hok).1) hpair
  rw [← habs] at hpair hreach
  have hrun' :
      Pair.Running (abs { d with link, sessions := Function.update d.sessions x s }) := hrun
  -- what was written is frames
  have hframes : Encoded out := by
    have hbefore := ((Pair.view_reach h.refines (Pair.running_of_step hrun' hpair)).1.half x).output
    have hafter := ((Pair.view_reach hreach hrun').1.half x).output
    rw [habs, Function.update_self, Function.update_of_ne (Pair.not_ne_self x)] at hafter
    refine EncodedFrom.cancel hbefore.wire ?_
    have hwire : (s.ahead (d.heard !x)).wire = (d.abs x).wire ++ out := by
      show s.wire.drop _ = (d.sessions x).wire.drop _ ++ out
      rw [← hout, List.drop_append_of_le_length (h.heard_le x)]
    exact hwire ▸ hafter.wire
  have hwritten : ∀ y, (Function.update d.sessions x s y).wire =
      (d.sessions y).wire ++ if y = x then out else [] := by
    intro y
    by_cases hy : y = x
    · rw [hy, Function.update_self, if_pos rfl, hout]
    · rw [Function.update_of_ne hy, if_neg hy, List.append_nil]
  rw [transmit] at hlink
  split at hlink
  · -- nothing to write: a session that runs has not been closed
    rename_i hnone
    cases hlink
    obtain rfl : out = [] := hnone.resolve_right fun hclosed => by
      rw [h.stays x] at hclosed
      cases hclosed
    refine ⟨h.link, h.response, h.stays, fun y => ?_, h.fits, h.heard, hreach⟩
    rw [hwritten y, ite_self, List.append_nil]
    exact h.written y
  · have hmoved := h.link.moved hlink
    have hpayload : ∀ y, (AutoLink.Event.uses (.write [out]) x).payload y =
        if y = x then out else [] := by
      intro y
      cases x with
      | false =>
          cases y with
          | false => exact List.append_nil out
          | true => rfl
      | true =>
          cases y with
          | false => rfl
          | true => exact List.append_nil out
    have hwrites : AutoLink.muxWrites d.link (.uses (.write [out]) x) := by
      cases x with
      | false =>
          show Encoded [out].flatten
          rw [List.flatten_singleton]
          exact hframes
      | true => trivial
    refine ⟨AutoLink.inv_step hkey h.link hwrites hlink, fun r ch' hopened hw => ?_, fun y => ?_,
      fun y => ?_, fun y => ?_, fun y => ?_, hreach⟩
    · rcases hmoved.response r ch' hopened hw with ⟨ch'', hbefore⟩ | ⟨n, he, -⟩
      · exact h.response r ch'' hbefore hw
      · cases x with
        | false => cases he
        | true => cases he
    · rcases hmoved.closed y with hsame | he
      · exact hsame.trans (h.stays y)
      · cases x <;> cases y <;> cases he
    · rw [(hmoved.grows y).written, hpayload y, h.written y]
      exact (hwritten y).symm
    · by_cases hy : y = x
      · subst hy
        refine (hmoved.grows y).fits (h.fits y) fun hkind => ?_
        rw [hpayload y, if_pos rfl]
        exact hshort (AutoLink.channelAt_eq websocket hch ▸ hkind)
      · refine (hmoved.grows y).fits (h.fits y) fun _ => ?_
        rw [hpayload y, if_neg hy]
        exact Nat.zero_le _
    · exact (h.heard y).trans (hmoved.grows y).delivered.length_le

/-! ## Reads -/

/-- What a reader is given of what it has not read yet. -/
theorem drop_of_prefix {wire data : List Byte} {n : Nat} (h : data <+: wire)
    (hn : n ≤ data.length) : (data.drop n).length ≤ (wire.drop n).length ∧
      (wire.drop n).take (data.drop n).length = data.drop n ∧
      (wire.drop n).drop (data.drop n).length = wire.drop data.length := by
  obtain ⟨rest, rfl⟩ := h
  rw [List.drop_append_of_le_length hn, List.take_left, List.drop_left, List.drop_left]
  exact ⟨(List.prefix_append _ _).length_le, rfl, rfl⟩

/-- A read that completes is the next one of the pair. -/
theorem Inv.nextRead (h : Inv c nonce websocket d) {x : Bool} {ch : Channel} {e : Session.Event}
    {s : Session} (hch : d.link.channel x = some ch)
    (he : readEvent (ch.delivered.drop (d.heard x)) (d.sessions x).reading = some e)
    (hs : (d.sessions x).step e = some s) :
    Pair.nextRead d.abs x = some (e, (d.sessions !x).wire.drop ch.delivered.length) := by
  have hchannel := AutoLink.channelAt_eq websocket hch
  have hheard := h.heard x
  have hdelivered := h.delivered x
  rw [hchannel] at hheard hdelivered
  obtain ⟨hle, htake, hdrop⟩ := drop_of_prefix hdelivered hheard
  have hwire : (d.abs !x).wire = (d.sessions !x).wire.drop (d.heard x) := by
    show (d.sessions !x).wire.drop (d.heard !!x) = _
    rw [Bool.not_not]
  have hreading : (d.abs x).reading = (d.sessions x).reading := rfl
  rw [Pair.nextRead, hwire, hreading]
  cases hr : (d.sessions x).reading with
  | idle =>
      rw [hr] at he
      cases he
  | header =>
      rw [hr] at he
      cases he
      rw [Session.step, Option.ite_none_right_eq_some] at hs
      obtain ⟨⟨-, hlength⟩, -⟩ := hs
      dsimp only
      rw [← hlength, if_pos hle, htake, hdrop]
  | body hd =>
      rw [hr] at he
      cases he
      rw [Session.step, hr] at hs
      obtain ⟨hlength, -⟩ := Option.ite_none_right_eq_some.mp hs
      dsimp only
      rw [← hlength, if_pos hle, htake, hdrop]

theorem isRead_of_readEvent {data : List Byte} {r : Reading} {e : Session.Event}
    (h : readEvent data r = some e) : e.isRead = true := by
  cases r with
  | header =>
      cases h
      rfl
  | body hd =>
      cases h
      rfl
  | idle => cases h

/-- A session is given what the other has written. -/
theorem Inv.recv (h : Inv c nonce websocket d) {x : Bool} (hs : d.recv x = some d') :
    Inv c nonce websocket d' := by
  simp only [Deployment.recv, Option.bind_eq_bind, Option.bind_eq_some_iff] at hs
  obtain ⟨ch, hch, e, he, s, hstep, heq⟩ := hs
  cases heq
  have hchannel := AutoLink.channelAt_eq websocket hch
  have hnext := h.nextRead hch he hstep
  have hahead := (Session.step_ahead hstep (h.heard_le x)).1
  have hpair : Pair.step d.abs (.recv x) = some (Function.update
      (Function.update d.abs x (s.ahead (d.heard !x))) (!x)
      { d.abs !x with wire := (d.sessions !x).wire.drop ch.delivered.length }) := by
    rw [Pair.step, hnext]
    show ((d.abs x).step e).map _ = _
    rw [show (d.abs x).step e = _ from hahead]
    rfl
  have habs : abs { d with
      sessions := Function.update d.sessions x s
      heard := Function.update d.heard x ch.delivered.length } = Function.update
      (Function.update d.abs x (s.ahead (d.heard !x))) (!x)
      { d.abs !x with wire := (d.sessions !x).wire.drop ch.delivered.length } := by
    funext y
    show Session.ahead (Function.update d.heard x ch.delivered.length !y)
      (Function.update d.sessions x s y) = _
    by_cases hy : y = x
    · subst hy
      rw [Function.update_self, Function.update_of_ne (Pair.not_ne_self y),
        Function.update_of_ne (Ne.symm (Pair.not_ne_self y)), Function.update_self]
    · obtain rfl := Bool.eq_not_of_ne hy
      rw [Function.update_of_ne hy, Bool.not_not, Function.update_self, Function.update_self]
      rfl
  refine ⟨h.link, h.response, h.stays, fun y => ?_, h.fits, fun y => ?_,
    habs ▸ Reach.tail h.refines rfl hpair⟩
  · by_cases hy : y = x
    · subst hy
      dsimp only
      rw [Function.update_self, Session.wire_of_isRead (isRead_of_readEvent he) hstep]
      exact h.written y
    · dsimp only
      rw [Function.update_of_ne hy]
      exact h.written y
  · by_cases hy : y = x
    · subst hy
      dsimp only
      rw [Function.update_self, hchannel]
    · dsimp only
      rw [Function.update_of_ne hy]
      exact h.heard y

theorem Inv.read (h : Inv c nonce websocket d) (hkey : EncodesKey c nonce) {x : Bool}
    (hs : d.read c nonce x = some d') : Inv c nonce websocket d' := by
  simp only [Deployment.read, Option.bind_eq_bind, Option.bind_eq_some_iff] at hs
  obtain ⟨ch, hch, n, hn, hs⟩ := hs
  rw [Option.ite_none_right_eq_some] at hs
  obtain ⟨-, link, hlink, heq⟩ := (And.imp_right Option.bind_eq_some_iff.mp hs)
  cases heq
  cases x with
  | false =>
      refine h.ofLink hkey hlink trivial (fun y => ?_) (fun y he => ?_) fun n he => by cases he
      · cases y <;> rfl
      · cases y <;> cases he
  | true =>
      refine h.ofLink hkey hlink trivial (fun y => ?_) (fun y he => ?_) fun n he => by cases he
      · cases y <;> rfl
      · cases y <;> cases he

/-- The handshake goes on, or a `WebsocketStream` does. -/
theorem Inv.transport (h : Inv c nonce websocket d) (hkey : EncodesKey c nonce)
    {e : AutoLink.Event} (hown : e.ofSession = false) (hok : Conforming c nonce d (.link e))
    (hrun : d.sessions.Running) {link : AutoLink} (hs : d.link.step c nonce e = some link) :
    Inv c nonce websocket { d with link } := by
  refine h.ofLink hkey hs ?_ (fun x => ?_) (fun x he => ?_) fun n he => ?_
  · cases e with
    | near e =>
        cases e with
        | use u =>
            cases u with
            | write buffers => cases hown
            | _ => trivial
        | _ => trivial
    | far e => trivial
  · cases e with
    | near e =>
        cases x with
        | true => rfl
        | false =>
            cases e with
            | use u =>
                cases u with
                | write buffers => cases hown
                | _ => rfl
            | _ => rfl
    | far e =>
        cases x with
        | false => rfl
        | true =>
            cases e with
            | use u =>
                cases u with
                | write buffers => cases hown
                | _ => rfl
            | _ => rfl
  · -- nobody closes the connection of a session that runs
    subst he
    cases x with
    | false =>
        have hstopped : (d.sessions false).stopped = true := hok
        rw [hrun false] at hstopped
        cases hstopped
    | true =>
        have hstopped : (d.sessions true).stopped = true := hok
        rw [hrun true] at hstopped
        cases hstopped
  · subst he
    exact of_decide_eq_true hok

theorem inv_step (hkey : EncodesKey c nonce) (h : Inv c nonce websocket d) {e : Event}
    (hok : Conforming c nonce d e) (hrun : d'.sessions.Running)
    (hs : step c nonce d e = some d') : Inv c nonce websocket d' := by
  cases e with
  | link e =>
      rw [step, Option.ite_none_left_eq_some] at hs
      obtain ⟨hown, hs⟩ := hs
      obtain ⟨link, hlink, rfl⟩ := Option.map_eq_some_iff.mp hs
      exact h.transport hkey (Bool.not_eq_true _ ▸ hown) hok hrun hlink
  | act x e =>
      cases e with
      | recvHeader b => cases hs
      | recvBody b => cases hs
      | _ =>
          exact h.act hkey (fun _ => Session.Event.noConfusion) (fun _ => Session.Event.noConfusion)
            hok hrun hs
  | read x => exact h.read hkey hs
  | recv x => exact h.recv hs

/-- Sessions that run ran before. -/
theorem running_of_step {e : Event} (hrun : d'.sessions.Running)
    (hs : step c nonce d e = some d') : d.sessions.Running := by
  have hback : ∀ {x : Bool} {e : Session.Event} {s : Session}, (d.sessions x).step e = some s →
      Pair.Running (Function.update d.sessions x s) → d.sessions.Running := by
    intro x e s hstep hrun y
    by_cases hy : y = x
    · subst hy
      by_contra hne
      have hstopped := Session.step_stopped hstep (Bool.not_eq_false _ ▸ hne)
      have hnot := hrun y
      rw [Function.update_self, hstopped] at hnot
      cases hnot
    · have hsame := hrun y
      rwa [Function.update_of_ne hy] at hsame
  cases e with
  | link e =>
      rw [step, Option.ite_none_left_eq_some] at hs
      obtain ⟨link, -, rfl⟩ := Option.map_eq_some_iff.mp hs.2
      exact hrun
  | act x e =>
      have hact : d.act c nonce x e = some d' := by
        cases e with
        | recvHeader b => cases hs
        | recvBody b => cases hs
        | _ => exact hs
      simp only [Deployment.act, Option.bind_eq_bind, Option.bind_eq_some_iff] at hact
      obtain ⟨_, -, s, hstep, link, -, heq⟩ := hact
      cases heq
      exact hback hstep hrun
  | read x =>
      simp only [step, Deployment.read, Option.bind_eq_bind, Option.bind_eq_some_iff] at hs
      obtain ⟨_, -, _, -, hs⟩ := hs
      rw [Option.ite_none_right_eq_some] at hs
      obtain ⟨link, -, heq⟩ := Option.bind_eq_some_iff.mp hs.2
      cases heq
      exact hrun
  | recv x =>
      simp only [step, Deployment.recv, Option.bind_eq_bind, Option.bind_eq_some_iff] at hs
      obtain ⟨_, -, _, -, s, hstep, heq⟩ := hs
      cases heq
      exact hback hstep hrun

theorem inv_reach (hkey : EncodesKey c nonce)
    (h : Reach (step c nonce) (Conforming c nonce) (start websocket) d)
    (hrun : d.sessions.Running) : Inv c nonce websocket d := by
  induction h with
  | init => exact inv_start
  | tail _ hok hs ih => exact inv_step hkey (ih (running_of_step hrun hs)) hok hrun hs

/-! ## What the two ends see -/

/-- What a reader has been told so far was accepted at the other end, and when it was told of the
end of the stream, it was told everything. -/
theorem told_of_flow {l : Mux.Link} {x y : Bool} (hinv : Mux.Link.Direction l x y)
    (hflow : Mux.Link.Flow l x y) {reported later : List Mux.Completion}
    (hlog : (l.ends y).log = reported ++ later) :
    Mux.delivered reported <+: (l.ends x).accepted ∧
    ∀ co ∈ reported, co.ec = .eof → (l.ends x).stream.localClosed = true ∧
      Mux.delivered reported = (l.ends x).sent := by
  have hsplit : Mux.delivered (l.ends y).log = Mux.delivered reported ++ Mux.delivered later := by
    rw [hlog, Mux.delivered_append]
  refine ⟨?_, fun co hco hec => ?_⟩
  · refine List.IsPrefix.trans ?_ hflow.ok.delivered_prefix
    show _ <+: Mux.delivered (l.ends y).log
    exact hsplit ▸ List.prefix_append _ _
  · obtain ⟨hclosed, hunread⟩ := hflow.eof co (hlog ▸ List.mem_append_left _ hco) hec
    have hfin : (l.ends x).stream.localClosed = true := by
      by_contra hopen
      have hnone := (hinv.notFinished (Bool.not_eq_true _ ▸ hopen)).2
      rw [hclosed] at hnone
      cases hnone
    refine ⟨hfin, ?_⟩
    -- nothing is on its way or buffered, and nothing is told behind the end of the stream
    have hall : (l.ends x).sent = Mux.delivered (l.ends y).log := by
      have horder : (l.ends x).sent = Mux.delivered (l.ends y).log ++
          (l.ends y).stream.unread ++ Mux.dataOf (l.transit x y) := hflow.ok.inOrder
      rwa [hunread, hflow.finished hclosed, List.append_nil, List.append_nil] at horder
    obtain ⟨before, after, rfl⟩ := List.append_of_mem hco
    have hlast := hflow.eofLast before co (after ++ later) (by rw [hlog]; simp) hec
    rw [Mux.delivered_append] at hlast
    rw [hall, hsplit, (List.append_eq_nil_iff.mp hlast).2, List.append_nil]

/-- **Two mux sessions over a connection are a pair.** Whichever of the two protocols the client
speaks, and however its bytes and the server's are cut and interleaved: as long as both sessions
run, what they do is a run of two sessions joined by a wire. So on each stream, what the reads of
one end were told is a prefix of what was written at the other, and all that was sent once they
were told of its end. -/
theorem refines_pair (hkey : EncodesKey c nonce)
    (h : Reach (step c nonce) (Conforming c nonce) (start websocket) d)
    (hrun : d.sessions.Running) :
    Reach Pair.step Pair.Conforming Pair.init d.abs ∧
    ∀ x i reader, Pair.find (d.sessions !x) i = some reader →
      reader.stream.localClosed = false → (Pair.endAt (d.sessions x) i).lateWrite = false →
      Mux.delivered reader.reported <+: (Pair.endAt (d.sessions x) i).accepted ∧
      ∀ co ∈ reader.reported, co.ec = .eof →
        (Pair.endAt (d.sessions x) i).stream.localClosed = true ∧
        Mux.delivered reader.reported = (Pair.endAt (d.sessions x) i).sent := by
  have hreach := (inv_reach hkey h hrun).refines
  refine ⟨hreach, fun x i reader hfind hreader hwriter => ?_⟩
  have hend : (d.abs.view i).ends (!x) = Pair.endOf (d.sessions !x) reader := by
    show Pair.endAt (d.sessions !x) i = _
    rw [Pair.endAt, hfind]
    rfl
  have hinv := Pair.view_inv hreach hrun i x (!x) (Ne.symm (Pair.not_ne_self x))
  exact told_of_flow hinv (hinv.flow hwriter (by rw [hend]; exact hreader))
    (congrArg Mux.End.log hend)

/-- A client that speaks WebSocket opens a stream, and the server reads what it writes to it. -/
def upgradedStream : List Event :=
  [.link (.near .connected), .link (.far .firstByte), .link (.far (.request 1)),
    .link (.far (.request 142)), .link (.far .responded), .link (.near (.response 129)),
    .act false (.openStream true), .link (.near (.use (.run ⟨1, 2, 3, 4⟩))),
    .link (.near (.use .look)), .read true, .link (.far (.use .arrive)),
    .link (.far (.use .arrive)), .recv true, .link (.near (.use (.written true))),
    .act false .writeOk, .act false (.asyncWrite 0 [[1, 2], [3]] 10),
    .link (.near (.use (.run ⟨5, 6, 7, 8⟩))), .link (.near (.use .look)),
    .link (.near (.use .proceed)), .read true, .link (.far (.use .arrive)),
    .link (.far (.use .arrive)), .recv true, .read true, .recv true,
    .act true (.asyncRead 0 3 20 true), .act true (.runStream 0), .act true (.runStream 0)]

/-- What is seen of it at the end. -/
def seen (d : Deployment) : (Bool × Bool × Bool) × Option (Bool × List Mux.Completion) :=
  (((d.sessions false).stopped, (d.sessions true).stopped,
      (Pair.endAt (d.sessions false) 1).lateWrite),
    (Pair.find (d.sessions true) 1).map fun reader =>
      (reader.stream.localClosed, reader.reported))

theorem refines_pair_upgraded : ∃ d, Reach (step sampleCrypto (ascii "the sample nonce"))
      (Conforming sampleCrypto (ascii "the sample nonce")) (start true) d ∧
    Reach Pair.step Pair.Conforming Pair.init d.abs ∧
    ∃ reader, Pair.find (d.sessions true) 1 = some reader ∧
      reader.reported = [⟨20, .success, 3, [1, 2, 3]⟩] ∧
      Mux.delivered reader.reported <+: (Pair.endAt (d.sessions false) 1).accepted := by
  obtain ⟨d, hreach, hobs⟩ := exists_of_runGuarded
    (step sampleCrypto (ascii "the sample nonce"))
    (conforming sampleCrypto (ascii "the sample nonce")) upgradedStream seen (s := start true)
    (a := ((false, false, false), some (false, [⟨20, .success, 3, [1, 2, 3]⟩]))) (by decide +kernel)
  simp only [seen, Prod.mk.injEq] at hobs
  obtain ⟨⟨hclient, hserver, hlate⟩, hreader⟩ := hobs
  obtain ⟨reader, hfind, hobs⟩ := Option.map_eq_some_iff.mp hreader
  obtain ⟨hopen, hreported⟩ := Prod.mk.inj hobs
  have hrun : d.sessions.Running := fun x => by cases x <;> assumption
  obtain ⟨hpair, htold⟩ := refines_pair AutoLink.encodesKey_sample hreach hrun
  exact ⟨d, hreach, hpair, reader, hfind, hreported, (htold false 1 reader hfind hopen hlate).1⟩

end Deployment

end Cfrp.Transport

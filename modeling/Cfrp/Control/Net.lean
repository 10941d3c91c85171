import Cfrp.Control.Stream
import Cfrp.Server.Announce

/-!
# The server behind its control streams

Clients do not call the handlers of the server, they write bytes. A `Net` is the server with
one control stream for each of its sessions: what clients send is framed and cut up, and a
message is handled when the bytes of its body have been read. What the server sends waits in
the session's strand until `SendMessage` runs there, and takes the same way back.

`refines` connects this to the server of the other modules. The handlers that run are those of
a run of `Server.step`, and the messages in it are for every session the first ones its client
has sent, in order.
-/

namespace Cfrp

open Lib Bridge Protocol

namespace Control

/-- A control stream with both its ends. -/
structure Link where
  /-- `compression_` of the client. -/
  compression : Bool
  compressionLevel : Int
  /-- `compression_enabled_` of the session. -/
  compressionEnabled : Bool := false
  /-- What is posted to the session's strand to be sent. -/
  posted : List RawMessage := []
  up : Direction := {}
  down : Direction := {}

structure Net where
  server : Server
  links : CtrlId → Link
  /-- The handlers that have run, in order. -/
  events : List Server.Event := []

/-- A message whose handler throws. What a session that has not logged in sends is not decoded,
unless it is a login. -/
def throwsOn (cs : ControlSession) (m : RawMessage) : Bool :=
  parse m == .malformed && (m.type == 0 || cs.authenticated && (m.type == 2 || m.type == 7))

namespace Net

def setLink (n : Net) (c : CtrlId) (l : Link) : Net :=
  { n with links := Function.update n.links c l }

/-- A call of `SendMessage` from outside the strand. -/
def post (links : CtrlId → Link) (m : CtrlId × Message) : CtrlId → Link :=
  Function.update links m.1
    { links m.1 with posted := (links m.1).posted ++ (unparse m.2).toList }

/-- A handler of the server runs, and what it sends is posted. -/
def runHandler (n : Net) (e : Server.Event) : Option Net :=
  (n.server.step e).map fun s =>
    { server := s
      links := (s.sent.drop n.server.sent.length).foldl post n.links
      events := n.events ++ [e] }

inductive Event where
  /-- Any handler but that of a message. -/
  | server (e : Server.Event)
  | clientSends (c : CtrlId) (m : RawMessage)
  | arriveUp (c : CtrlId) (n : Nat)
  | serverReadsHeader (c : CtrlId)
  | serverReadsBody (c : CtrlId) (thrown : Option Thrown)
  | serverReadFails (c : CtrlId)
  /-- `SendMessage` runs on the session's strand. -/
  | serverSends (c : CtrlId)
  | arriveDown (c : CtrlId) (n : Nat)
  | clientReadsHeader (c : CtrlId)
  | clientReadsBody (c : CtrlId)
  /-- `HandleDisconnect`: the client does not read from this stream again. -/
  | clientDisconnects (c : CtrlId)

def isMessage : Server.Event → Bool
  | .message .. => true
  | _ => false

/-- The header of a compressed message has been read: `DoReadBody` begins. -/
def enables (up : Direction) : Bool :=
  match up.stream.wanted with
  | .payload compressed _ => compressed
  | _ => false

def step (z : Zstd) (n : Net) : Event → Option Net
  | .server e => if isMessage e then none else n.runHandler e
  | .clientSends c m =>
      let l := n.links c
      if l.down.ended = none then
        some (n.setLink c { l with up := l.up.send z l.compression l.compressionLevel m })
      else none
  | .arriveUp c k => some (n.setLink c { n.links c with up := (n.links c).up.arrive k })
  | .serverReadsHeader c =>
      let l := n.links c
      l.up.readHeader.map fun up =>
        n.setLink c { l with up, compressionEnabled := l.compressionEnabled || enables up }
  | .serverReadsBody c thrown =>
      (n.server.controls c).bind fun cs =>
        ((n.links c).up.readBody z (some .threw)
          (fun m => if throwsOn cs m then some .threw else none)).bind fun (m?, up) =>
            let n := n.setLink c { n.links c with up }
            match m? with
            | none => some n
            | some m => n.runHandler (.message c (parse m) thrown)
  | .serverReadFails c =>
      (n.links c).up.fail.map fun up => n.setLink c { n.links c with up }
  | .serverSends c =>
      let l := n.links c
      match l.posted with
      | [] => none
      | m :: posted =>
          some (n.setLink c { l with posted, down := l.down.send z l.compressionEnabled 1 m })
  | .arriveDown c k => some (n.setLink c { n.links c with down := (n.links c).down.arrive k })
  | .clientReadsHeader c =>
      (n.links c).down.readHeader.map fun down => n.setLink c { n.links c with down }
  | .clientReadsBody c =>
      ((n.links c).down.readBody z none fun _ => none).map fun (_, down) =>
        n.setLink c { n.links c with down }
  | .clientDisconnects c =>
      (n.links c).down.fail.map fun down => n.setLink c { n.links c with down }

/-- A server that has just started. `settings` is the compression each client has configured
and its level. -/
def start (token : String) (allowedPorts : List PortRange) (allowedClients : List String)
    (settings : CtrlId → Bool × Int) : Net where
  server := Server.init token allowedPorts allowedClients
  links c := { compression := (settings c).1, compressionLevel := (settings c).2 }

/-! ## What a step does -/

/-- Everything that happens to a control stream without a handler. -/
inductive LinkStep (z : Zstd) (l : Link) : Link → Prop where
  | clientSends {m} (h : l.down.ended = none) :
      LinkStep z l { l with up := l.up.send z l.compression l.compressionLevel m }
  | arriveUp {k} : LinkStep z l { l with up := l.up.arrive k }
  | serverReadsHeader {up} (h : l.up.readHeader = some up) :
      LinkStep z l { l with up, compressionEnabled := l.compressionEnabled || enables up }
  | serverReadsBody {cs up} (h : l.up.readBody z (some .threw)
      (fun m => if throwsOn cs m then some .threw else none) = some (none, up)) :
      LinkStep z l { l with up }
  | serverReadFails {up} (h : l.up.fail = some up) : LinkStep z l { l with up }
  | serverSends {m posted} (h : l.posted = m :: posted) :
      LinkStep z l { l with posted, down := l.down.send z l.compressionEnabled 1 m }
  | arriveDown {k} : LinkStep z l { l with down := l.down.arrive k }
  | clientReadsHeader {down} (h : l.down.readHeader = some down) : LinkStep z l { l with down }
  | clientReadsBody {m? down} (h : l.down.readBody z none (fun _ => none) = some (m?, down)) :
      LinkStep z l { l with down }
  | clientDisconnects {down} (h : l.down.fail = some down) : LinkStep z l { l with down }

variable {z : Zstd} {n n' : Net}

/-- **A step** concerns one control stream, or a handler runs, which is that of a message if
and only if one has just been read. -/
theorem step_cases {e : Event} (h : step z n e = some n') :
    (∃ c l, LinkStep z (n.links c) l ∧ n' = n.setLink c l) ∨
    (∃ e, isMessage e = false ∧ n.runHandler e = some n') ∨
    ∃ c cs m up thrown, n.server.controls c = some cs ∧
      (n.links c).up.readBody z (some .threw)
        (fun m => if throwsOn cs m then some .threw else none) = some (some m, up) ∧
      (n.setLink c { n.links c with up }).runHandler (.message c (parse m) thrown) =
        some n' := by
  cases e with
  | server e =>
      simp only [step] at h
      split at h
      · cases h
      · rename_i hmessage
        exact Or.inr (Or.inl ⟨e, by simpa using hmessage, h⟩)
  | clientSends c m =>
      simp only [step, Option.ite_none_right_eq_some, Option.some.injEq] at h
      exact Or.inl ⟨c, _, .clientSends h.1, h.2.symm⟩
  | arriveUp c k => exact Or.inl ⟨c, _, .arriveUp, (Option.some.inj h).symm⟩
  | serverReadsHeader c =>
      simp only [step, Option.map_eq_some_iff] at h
      obtain ⟨up, hup, rfl⟩ := h
      exact Or.inl ⟨c, _, .serverReadsHeader hup, rfl⟩
  | serverReadsBody c thrown =>
      simp only [step, Option.bind_eq_some_iff] at h
      obtain ⟨cs, hcs, ⟨m?, up⟩, hread, h⟩ := h
      cases m? with
      | none => exact Or.inl ⟨c, _, .serverReadsBody hread, (Option.some.inj h).symm⟩
      | some m => exact Or.inr (Or.inr ⟨c, cs, m, up, thrown, hcs, hread, h⟩)
  | serverReadFails c =>
      simp only [step, Option.map_eq_some_iff] at h
      obtain ⟨up, hup, rfl⟩ := h
      exact Or.inl ⟨c, _, .serverReadFails hup, rfl⟩
  | serverSends c =>
      simp only [step] at h
      split at h
      · cases h
      · rename_i m posted hposted
        exact Or.inl ⟨c, _, .serverSends hposted, (Option.some.inj h).symm⟩
  | arriveDown c k => exact Or.inl ⟨c, _, .arriveDown, (Option.some.inj h).symm⟩
  | clientReadsHeader c =>
      simp only [step, Option.map_eq_some_iff] at h
      obtain ⟨down, hdown, rfl⟩ := h
      exact Or.inl ⟨c, _, .clientReadsHeader hdown, rfl⟩
  | clientReadsBody c =>
      simp only [step, Option.map_eq_some_iff] at h
      obtain ⟨⟨m?, down⟩, hdown, rfl⟩ := h
      exact Or.inl ⟨c, _, .clientReadsBody hdown, rfl⟩
  | clientDisconnects c =>
      simp only [step, Option.map_eq_some_iff] at h
      obtain ⟨down, hdown, rfl⟩ := h
      exact Or.inl ⟨c, _, .clientDisconnects hdown, rfl⟩

/-- What the messages of a list have for one session. -/
def outbox (c : CtrlId) (sent : List (CtrlId × Message)) : List RawMessage :=
  sent.filterMap fun m => if m.1 = c then unparse m.2 else none

/-- The messages of one session that were handled. -/
def inbox (c : CtrlId) (events : List Server.Event) : List Message :=
  events.filterMap fun
    | .message d m _ => if d = c then some m else none
    | _ => none

theorem inbox_of_not_message {e : Server.Event} (h : isMessage e = false) (c : CtrlId) :
    inbox c [e] = [] := by
  cases e with
  | message => cases h
  | _ => rfl

/-- Posting touches the queues of the streams and nothing else of them. -/
theorem foldl_post (links : CtrlId → Link) (sent : List (CtrlId × Message)) (c : CtrlId) :
    sent.foldl post links c =
      { links c with posted := (links c).posted ++ outbox c sent } := by
  induction sent generalizing links with
  | nil => simp [outbox]
  | cons m sent ih =>
      rw [List.foldl_cons, ih]
      by_cases hm : m.1 = c
      · subst hm
        cases hraw : unparse m.2 <;> simp [post, outbox, hraw]
      · simp [post, outbox, hm, Function.update_of_ne (Ne.symm hm)]

/-! ## What a step keeps -/

/-- A control stream whose two directions are in order. -/
structure LinkInv (z : Zstd) (l : Link) : Prop where
  up : l.up.Short → l.up.Inv z
  down : l.down.Short → l.down.Inv z
  /-- The server gives up at a message only if that does not decode. -/
  upThrew : l.up.Short → l.up.ended = some .threw →
    ∃ m, l.up.handled.getLast? = some m ∧ parse m = .malformed
  downThrew : l.down.Short → l.down.ended ≠ some .threw

theorem LinkStep.same {l l' : Link} (h : LinkStep z l l') :
    l'.up.handled = l.up.handled ∧ l'.down.sent ++ l'.posted = l.down.sent ++ l.posted := by
  cases h with
  | clientSends | arriveUp | arriveDown => exact ⟨rfl, rfl⟩
  | serverReadsHeader h => exact ⟨(Direction.readHeader_same h).2.2, rfl⟩
  | serverReadsBody h =>
      refine ⟨?_, rfl⟩
      rw [(Direction.readBody_same h).2.2, Option.toList_none, List.append_nil]
  | serverReadFails h => exact ⟨(Direction.fail_same h).2.2, rfl⟩
  | @serverSends m posted h =>
      refine ⟨rfl, ?_⟩
      show (l.down.sent ++ [m]) ++ posted = _
      rw [h, List.append_assoc, List.singleton_append]
  | clientReadsHeader h => exact ⟨rfl, by rw [(Direction.readHeader_same h).1]⟩
  | clientReadsBody h => exact ⟨rfl, by rw [(Direction.readBody_same h).1]⟩
  | clientDisconnects h => exact ⟨rfl, by rw [(Direction.fail_same h).1]⟩

theorem LinkInv.step (hz : z.Lawful) {l l' : Link} (hl : LinkInv z l) (h : LinkStep z l l') :
    LinkInv z l' := by
  cases h with
  | @clientSends m h =>
      have hold : (l.up.send z l.compression l.compressionLevel m).Short → l.up.Short :=
        fun hshort => hshort.mono rfl
      exact ⟨fun hshort => (hl.up (hold hshort)).send (hshort _ (by simp [Direction.send,
        PacketStream.write])), hl.down, fun hshort => hl.upThrew (hold hshort), hl.downThrew⟩
  | arriveUp => exact ⟨fun hshort => (hl.up hshort).arrive _, hl.down, hl.upThrew, hl.downThrew⟩
  | @serverReadsHeader up h =>
      obtain ⟨-, hwritten, hhandled⟩ := Direction.readHeader_same h
      have hold : up.Short → l.up.Short := fun hshort => hshort.of_eq hwritten
      refine ⟨fun hshort => (hl.up (hold hshort)).readHeader h, hl.down, fun hshort hthrew => ?_,
        hl.downThrew⟩
      rcases Direction.readHeader_ended h with heq | heq
      · obtain ⟨m, hm, hparse⟩ := hl.upThrew (hold hshort) (heq.symm.trans hthrew)
        exact ⟨m, by rw [← hm, ← hhandled], hparse⟩
      · cases heq.symm.trans hthrew
  | @serverReadsBody cs up h =>
      obtain ⟨-, hwritten, -⟩ := Direction.readBody_same h
      have hread : up.Short → up.Inv z ∧ up.ended = some .refused := fun hshort =>
        (hl.up (hshort.of_eq hwritten)).readBody hz (fun m => by split <;> simp) h
      refine ⟨fun hshort => (hread hshort).1, hl.down, fun hshort hthrew => ?_, hl.downThrew⟩
      cases (hread hshort).2.symm.trans hthrew
  | @serverReadFails up h =>
      obtain ⟨-, hwritten, -⟩ := Direction.fail_same h
      refine ⟨fun hshort => (hl.up (hshort.of_eq hwritten)).fail h, hl.down, fun _ hthrew => ?_,
        hl.downThrew⟩
      cases (Direction.fail_ended h).symm.trans hthrew
  | @serverSends m posted h =>
      have hold : (l.down.send z l.compressionEnabled 1 m).Short → l.down.Short :=
        fun hshort => hshort.mono rfl
      exact ⟨hl.up, fun hshort => (hl.down (hold hshort)).send (hshort _ (by simp [Direction.send,
        PacketStream.write])), hl.upThrew, fun hshort => hl.downThrew (hold hshort)⟩
  | arriveDown => exact ⟨hl.up, fun hshort => (hl.down hshort).arrive _, hl.upThrew, hl.downThrew⟩
  | @clientReadsHeader down h =>
      obtain ⟨-, hwritten, -⟩ := Direction.readHeader_same h
      refine ⟨hl.up, fun hshort => (hl.down (hshort.of_eq hwritten)).readHeader h, hl.upThrew,
        fun hshort hthrew => ?_⟩
      rcases Direction.readHeader_ended h with heq | heq
      · exact hl.downThrew (hshort.of_eq hwritten) (heq.symm.trans hthrew)
      · cases heq.symm.trans hthrew
  | @clientReadsBody m? down h =>
      obtain ⟨-, hwritten, -⟩ := Direction.readBody_same h
      have hread : down.Short → down.Inv z ∧ down.ended = m?.elim (some .refused) fun _ => none :=
        fun hshort => (hl.down (hshort.of_eq hwritten)).readBody hz (fun m => by simp) h
      refine ⟨hl.up, fun hshort => (hread hshort).1, hl.upThrew, fun hshort hthrew => ?_⟩
      have hended := (hread hshort).2.symm.trans hthrew
      cases m? with
      | none => cases hended
      | some m => cases hended
  | @clientDisconnects down h =>
      obtain ⟨-, hwritten, -⟩ := Direction.fail_same h
      refine ⟨hl.up, fun hshort => (hl.down (hshort.of_eq hwritten)).fail h, hl.upThrew,
        fun _ hthrew => ?_⟩
      cases (Direction.fail_ended h).symm.trans hthrew

/-- The message that the server handles next. -/
theorem LinkInv.message (hz : z.Lawful) {l : Link} (hl : LinkInv z l) {cs : ControlSession}
    {m : RawMessage} {up : Direction}
    (h : l.up.readBody z (some .threw)
      (fun m => if throwsOn cs m then some .threw else none) = some (some m, up)) :
    LinkInv z { l with up } := by
  obtain ⟨-, hwritten, hhandled⟩ := Direction.readBody_same h
  have hread : up.Short → up.Inv z ∧ up.ended = if throwsOn cs m then some .threw else none :=
    fun hshort => (hl.up (hshort.of_eq hwritten)).readBody hz (fun m => by split <;> simp) h
  refine ⟨fun hshort => (hread hshort).1, hl.down, fun hshort hthrew => ⟨m, ?_, ?_⟩, hl.downThrew⟩
  · show up.handled.getLast? = some m
    rw [hhandled, Option.toList_some, List.getLast?_concat]
  · have hended := (hread hshort).2.symm.trans hthrew
    rw [Option.ite_none_right_eq_some, throwsOn, Bool.and_eq_true, beq_iff_eq] at hended
    exact hended.1.1

/-- The net is at a state of the server that its handlers lead to, and its control streams
carry what these handlers were given and what they sent. -/
structure Refines (z : Zstd) (s₀ : Server) (n : Net) : Prop where
  run : runAll Server.step s₀ n.events = some n.server
  links : ∀ c, LinkInv z (n.links c)
  handled : ∀ c, inbox c n.events = (n.links c).up.handled.map parse
  sent : ∀ c, (n.links c).down.sent ++ (n.links c).posted = outbox c n.server.sent

variable {s₀ : Server}

/-- A handler has run that found its message, if it is one of a message, on its stream. -/
theorem Refines.handler {e : Server.Event} (howned : Server.Owned n.server)
    (hrun : runAll Server.step s₀ n.events = some n.server) (hlinks : ∀ c, LinkInv z (n.links c))
    (hhandled : ∀ c, inbox c (n.events ++ [e]) = (n.links c).up.handled.map parse)
    (hsent : ∀ c, (n.links c).down.sent ++ (n.links c).posted = outbox c n.server.sent)
    (h : n.runHandler e = some n') : Refines z s₀ n' := by
  rw [runHandler, Option.map_eq_some_iff] at h
  obtain ⟨s, hstep, rfl⟩ := h
  obtain ⟨more, hmore, -⟩ := Server.sent_step howned hstep
  have hlink : ∀ c, (s.sent.drop n.server.sent.length).foldl post n.links c =
      { n.links c with posted := (n.links c).posted ++ outbox c more } := by
    intro c
    rw [hmore, List.drop_left, foldl_post]
  constructor
  · show runAll Server.step s₀ (n.events ++ [e]) = some s
    rw [runAll_concat, hrun]
    exact hstep
  · intro c
    rw [show (_ : Net).links c = _ from hlink c]
    obtain ⟨hup, hdown, hupThrew, hdownThrew⟩ := hlinks c
    exact ⟨hup, hdown, hupThrew, hdownThrew⟩
  · intro c
    rw [show (_ : Net).links c = _ from hlink c]
    exact hhandled c
  · intro c
    rw [show (_ : Net).links c = _ from hlink c]
    show (n.links c).down.sent ++ ((n.links c).posted ++ outbox c more) = outbox c s.sent
    rw [← List.append_assoc, hsent c, hmore, outbox, outbox, outbox, List.filterMap_append]

theorem Refines.step (hz : z.Lawful) (howned : Server.Owned n.server) (hn : Refines z s₀ n)
    {e : Event} (h : step z n e = some n') : Refines z s₀ n' := by
  rcases step_cases h with ⟨c, l, hl, rfl⟩ | ⟨e, hmessage, hrun⟩ |
    ⟨c, cs, m, up, thrown, -, hread, hrun⟩
  · -- one control stream has changed, and it has the same messages at the server's end
    obtain ⟨hhandled, hsent⟩ := hl.same
    have hother : ∀ d, d ≠ c → (n.setLink c l).links d = n.links d := fun d hd =>
      Function.update_of_ne hd _ _
    have hself : (n.setLink c l).links c = l := Function.update_self _ _ _
    refine ⟨hn.run, fun d => ?_, fun d => ?_, fun d => ?_⟩
    · by_cases hd : d = c
      · rw [hd, hself]
        exact (hn.links c).step hz hl
      · rw [hother d hd]
        exact hn.links d
    · by_cases hd : d = c
      · rw [hd, hself, hhandled]
        exact hn.handled c
      · rw [hother d hd]
        exact hn.handled d
    · by_cases hd : d = c
      · rw [hd, hself, hsent]
        exact hn.sent c
      · rw [hother d hd]
        exact hn.sent d
  · refine Refines.handler howned hn.run hn.links (fun c => ?_) hn.sent hrun
    rw [inbox, List.filterMap_append]
    show inbox c n.events ++ inbox c [e] = _
    rw [inbox_of_not_message hmessage, List.append_nil, hn.handled c]
  · obtain ⟨-, -, hhandled⟩ := Direction.readBody_same hread
    have hother : ∀ d, d ≠ c → (n.setLink c { n.links c with up }).links d = n.links d :=
      fun d hd => Function.update_of_ne hd _ _
    have hself : (n.setLink c { n.links c with up }).links c = { n.links c with up } :=
      Function.update_self _ _ _
    refine Refines.handler (n := n.setLink c { n.links c with up }) howned hn.run (fun d => ?_)
      (fun d => ?_) (fun d => ?_) hrun
    · by_cases hd : d = c
      · rw [hd, hself]
        exact (hn.links c).message hz hread
      · rw [hother d hd]
        exact hn.links d
    · show inbox d (n.events ++ [_]) = _
      rw [inbox, List.filterMap_append]
      show inbox d n.events ++ inbox d [_] = _
      rw [hn.handled d]
      by_cases hd : d = c
      · rw [hd, hself]
        show _ = up.handled.map parse
        rw [hhandled, List.map_append]
        simp [inbox]
      · rw [hother d hd]
        simp [inbox, Ne.symm hd]
    · by_cases hd : d = c
      · rw [hd, hself]
        exact hn.sent c
      · rw [hother d hd]
        exact hn.sent d

variable {token : String} {ports : List PortRange} {clients : List String}
  {settings : CtrlId → Bool × Int}

theorem refines_start :
    Refines z (Server.init token ports clients) (start token ports clients settings) where
  run := rfl
  links _ := ⟨fun _ => Direction.inv_new z, fun _ => Direction.inv_new z, fun _ h => (by cases h),
    fun _ h => (by cases h)⟩
  handled _ := rfl
  sent _ := rfl

theorem refines_reachable (hz : z.Lawful)
    (h : Reach (Net.step z) anyStep (start token ports clients settings) n) :
    Refines z (Server.init token ports clients) n := by
  refine h.invariant refines_start fun n e n' hn _ hstep => ?_
  exact hn.step hz (Server.owned_reachable (reach_of_runAll hn.run)) hstep

/-! ## Every run -/

/-- Nothing of a direction is on its way, and the reader has nothing to read. -/
def Rests (d : Direction) : Prop :=
  d.stream.inFlight = [] ∧ d.readHeader = none ∧ d.stream.nextPayload = none

/-- **The server behind bytes is the server behind messages.** The handlers that have run are a
run of the server. For every session, the messages among them are the first ones that its
client has sent, whatever else is sent and however the bytes arrive; if these were put together
from structs, they are those structs. And what the client has handled are the first of the
messages that the server has sent to it. -/
theorem messages_refine (hz : z.Lawful)
    (h : Reach (Net.step z) anyStep (start token ports clients settings) n) :
    runAll Server.step (Server.init token ports clients) n.events = some n.server ∧
    ∀ c,
      inbox c n.events = (n.links c).up.handled.map parse ∧
      ((n.links c).up.Short → (n.links c).up.handled <+: (n.links c).up.sent ∧
        ∀ ms : List (Σ t : Struct, t.Value), (∀ m ∈ ms, m.1.IsValue m.2 ∧ m.1.Short m.2) →
          (n.links c).up.sent = ms.map (fun m => rawOf m.1 m.2) →
          inbox c n.events <+: ms.map fun m => messageOf m.1 m.2) ∧
      (n.links c).down.sent ++ (n.links c).posted = outbox c n.server.sent ∧
      ((n.links c).down.Short → (n.links c).down.handled <+: (n.links c).down.sent) := by
  obtain ⟨hrun, hlinks, hhandled, hsent⟩ := refines_reachable hz h
  refine ⟨hrun, fun c => ⟨hhandled c, fun hshort => ?_, hsent c, fun hshort => ?_⟩⟩
  · have hfirst := ((hlinks c).up hshort).handled
    refine ⟨hfirst, fun ms hms heq => ?_⟩
    have hparse : ms.map (fun m => messageOf m.1 m.2) = (n.links c).up.sent.map parse := by
      rw [heq, List.map_map]
      exact List.map_congr_left fun m hm => (parse_rawOf (hms m hm).1 (hms m hm).2).symm
    rw [hhandled c, hparse]
    exact hfirst.map parse
  · exact ((hlinks c).down hshort).handled

/-- A compressing client that logs in, and has its answer. -/
def oneLogin : List Event :=
  [.server (.controlStream 1), .clientSends 0 (rawOf .login ⟨"tok", "a"⟩), .arriveUp 0 3,
    .arriveUp 0 30, .serverReadsHeader 0, .serverReadsBody 0 none, .serverSends 0,
    .arriveDown 0 100, .clientReadsHeader 0, .clientReadsBody 0]

/-- The settings of a client that compresses at level 3. -/
def compressing : CtrlId → Bool × Int := fun _ => (true, 3)

theorem messages_refine_oneLogin :
    ∃ n : Net, (n.links 0).down.handled.map RawMessage.type = [1] ∧
      runAll Server.step (Server.init "tok" [] []) n.events = some n.server ∧
      inbox 0 n.events <+: [.login ⟨"tok", "a"⟩] := by
  obtain ⟨n, hreach, hobs⟩ := exists_of_runAll (Net.step Zstd.raw) oneLogin
    (fun n => (decide (n.links 0).up.Short, (n.links 0).up.sent,
      (n.links 0).down.handled.map RawMessage.type))
    (s := start "tok" [] [] compressing) (a := (true, [rawOf .login ⟨"tok", "a"⟩], [1]))
    (by decide +kernel)
  obtain ⟨hshort, hobs⟩ := Prod.mk.inj hobs
  obtain ⟨hsent, hhandled⟩ := Prod.mk.inj hobs
  obtain ⟨hrun, hlink⟩ := messages_refine Zstd.raw_lawful hreach
  obtain ⟨-, hup, -⟩ := hlink 0
  refine ⟨n, hhandled, hrun, (hup (of_decide_eq_true hshort)).2 [⟨.login, ⟨"tok", "a"⟩⟩] ?_ hsent⟩
  intro m hm
  rw [List.mem_singleton.mp hm]
  exact ⟨⟨by decide, trivial⟩, ⟨by decide, by decide⟩⟩

/-- **What is delivered, exactly.** No message that was handled is one the reader refuses. When
everything has arrived and nothing is left to be read, all messages were handled, unless the
stream failed, or the next message is refused, or the server could not decode the last. -/
theorem delivery_exact (hz : z.Lawful)
    (h : Reach (Net.step z) anyStep (start token ports clients settings) n) (c : CtrlId) :
    ((n.links c).up.Short →
      (∀ i < (n.links c).up.handled.length, ¬(n.links c).up.RefusedAt i) ∧
      (Rests (n.links c).up → (n.links c).up.handled = (n.links c).up.sent ∨
        (n.links c).up.ended = some .failed ∨
        (n.links c).up.RefusedAt (n.links c).up.handled.length ∨
        ∃ m, (n.links c).up.handled.getLast? = some m ∧ parse m = .malformed)) ∧
    ((n.links c).down.Short →
      (∀ i < (n.links c).down.handled.length, ¬(n.links c).down.RefusedAt i) ∧
      (Rests (n.links c).down → (n.links c).down.handled = (n.links c).down.sent ∨
        (n.links c).down.ended = some .failed ∨
        (n.links c).down.RefusedAt (n.links c).down.handled.length)) := by
  have hlink := (refines_reachable hz h).links c
  refine ⟨fun hshort => ?_, fun hshort => ?_⟩
  · have hup := hlink.up hshort
    refine ⟨hup.accepted, fun ⟨hflight, hheader, hpayload⟩ => ?_⟩
    cases hended : (n.links c).up.ended with
    | none => exact Or.inl (hup.rest hflight hheader hpayload hended)
    | some ending =>
        cases ending with
        | failed => exact Or.inr (Or.inl rfl)
        | refused => exact Or.inr (Or.inr (Or.inl (hup.refused hended)))
        | threw => exact Or.inr (Or.inr (Or.inr (hlink.upThrew hshort hended)))
  · have hdown := hlink.down hshort
    refine ⟨hdown.accepted, fun ⟨hflight, hheader, hpayload⟩ => ?_⟩
    cases hended : (n.links c).down.ended with
    | none => exact Or.inl (hdown.rest hflight hheader hpayload hended)
    | some ending =>
        cases ending with
        | failed => exact Or.inr (Or.inl rfl)
        | refused => exact Or.inr (Or.inr (hdown.refused hended))
        | threw => exact absurd hended (hlink.downThrew hshort)

theorem delivery_exact_oneLogin :
    ∃ n : Net, (n.links 0).up.handled.length = 1 ∧ ¬(n.links 0).up.RefusedAt 0 := by
  obtain ⟨n, hreach, hobs⟩ := exists_of_runAll (Net.step Zstd.raw) oneLogin
    (fun n => (decide (n.links 0).up.Short, (n.links 0).up.handled.length))
    (s := start "tok" [] [] compressing) (a := (true, 1)) (by decide +kernel)
  obtain ⟨hshort, hhandled⟩ := Prod.mk.inj hobs
  obtain ⟨hup, -⟩ := delivery_exact Zstd.raw_lawful hreach 0
  exact ⟨n, hhandled, (hup (of_decide_eq_true hshort)).1 0 (by omega)⟩

end Net

end Control

end Cfrp

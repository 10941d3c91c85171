import Cfrp.Control.Net
import Cfrp.Server.Admission

/-!
# Who compresses

Only the client is told whether to compress control messages. The server compresses what it
sends on a stream from the first compressed message on that it has read there. It sends
nothing before it has handled a message, so both directions follow the client's setting from
their first message to their last.
-/

namespace Cfrp.Control

open Lib Bridge Protocol

namespace Net

variable {z : Zstd} {n n' : Net}

/-- zstd compresses what the client sends, if it is to. -/
def Compressible (z : Zstd) (setting : Bool × Int) (l : Link) : Prop :=
  setting.1 = true → ∀ m ∈ l.up.sent, (z.compress setting.2 m.encode).isSome

/-- What is known of the compression on a stream. -/
structure Agreed (z : Zstd) (setting : Bool × Int) (l : Link) : Prop where
  compression : l.compression = setting.1
  level : l.compressionLevel = setting.2
  up : l.up.stream.written = l.up.sent.map (packetOf z setting.1 setting.2)
  /-- The server is in no doubt once it reads the body of a message. -/
  enabled : l.up.Short → Compressible z setting l →
    (l.compressionEnabled = true → setting.1 = true) ∧
    (l.up.handled ≠ [] ∨ (∃ t k, l.up.stream.wanted = .payload t k) →
      l.compressionEnabled = setting.1) ∧
    l.down.stream.written = l.down.sent.map (packetOf z setting.1 1)
  /-- It sends nothing unasked. -/
  posted : l.posted ≠ [] → l.up.handled ≠ []

/-- The flag in the header of a message is the client's setting. -/
theorem tag_packetOf {setting : Bool × Int} {m : RawMessage}
    (h : setting.1 = true → (z.compress setting.2 m.encode).isSome) :
    (packetOf z setting.1 setting.2 m).tag = setting.1 := by
  rw [packetOf]
  cases hs : setting.1 with
  | false => rfl
  | true =>
      obtain ⟨c, hc⟩ := Option.isSome_iff_exists.mp (h hs)
      simp only [hc, if_true]

/-- The header that is read is that of a packet which was written. -/
theorem wanted_of_readHeader {d d' : Direction} (hd : d.Inv z) (h : d.readHeader = some d')
    {t : Bool} {k : Nat} (hw : d'.stream.wanted = .payload t k) :
    ∃ p ∈ d.stream.written, p.tag = t := by
  rw [Direction.readHeader, Option.map_eq_some_iff] at h
  obtain ⟨⟨compressed, length⟩, hnext, rfl⟩ := h
  obtain ⟨pending, hpending⟩ := hd.inStep
  obtain ⟨p, rest, rfl, rfl, rfl, -⟩ := hpending.nextHeader hnext
  refine ⟨p, ?_, ?_⟩
  · rw [hpending.written]
    exact List.mem_append_right _ List.mem_cons_self
  · simp only at hw
    split at hw
    · cases hw
    · cases hw
      rfl

theorem Agreed.same_down {setting : Bool × Int} {l : Link} (h : Agreed z setting l)
    {down : Direction} (hsent : down.sent = l.down.sent)
    (hwritten : down.stream.written = l.down.stream.written) :
    Agreed z setting { l with down } := by
  refine ⟨h.compression, h.level, h.up, fun hshort hzstd => ?_, h.posted⟩
  obtain ⟨hsetting, hstarted, hdown⟩ := h.enabled hshort hzstd
  exact ⟨hsetting, hstarted, by rw [hwritten, hsent, hdown]⟩

/-- The reader of the server has moved on, and it is not at a body now. -/
theorem Agreed.same_up {setting : Bool × Int} {l : Link} (h : Agreed z setting l)
    {up : Direction} (hsent : up.sent = l.up.sent)
    (hwritten : up.stream.written = l.up.stream.written) (hhandled : up.handled = l.up.handled)
    (hwanted : ∀ t k, up.stream.wanted = .payload t k → l.up.stream.wanted = .payload t k) :
    Agreed z setting { l with up } := by
  refine ⟨h.compression, h.level, by rw [hwritten, hsent, h.up], fun hshort hzstd => ?_,
    fun hposted => hhandled ▸ h.posted hposted⟩
  have hzstd' : Compressible z setting l := fun hs m hm => hzstd hs m (hsent ▸ hm)
  obtain ⟨hsetting, hstarted, hdown⟩ := h.enabled (hshort.of_eq hwritten) hzstd'
  refine ⟨hsetting, fun hstart => hstarted (hstart.imp (hhandled ▸ ·) ?_), hdown⟩
  rintro ⟨t, k, hw⟩
  exact ⟨t, k, hwanted t k hw⟩

theorem wanted_stopIf {ending : Ending} {d : Direction} {t : Bool} {k : Nat} :
    (d.stopIf (some ending)).stream.wanted ≠ .payload t k := by
  intro h
  cases h

theorem wanted_of_fail {d d' : Direction} (h : d.fail = some d') {t : Bool} {k : Nat} :
    d'.stream.wanted ≠ .payload t k := by
  rw [Direction.fail] at h
  split at h
  · cases h
  · rw [← Option.some.inj h]
    exact wanted_stopIf

theorem wanted_of_readBody {d d' : Direction} {onEmpty : Option Ending}
    {after : RawMessage → Option Ending} {m? : Option RawMessage}
    (h : d.readBody z onEmpty after = some (m?, d')) :
    (∃ t k, d.stream.wanted = .payload t k) ∧
      ∀ t k, d'.stream.wanted ≠ .payload t k := by
  rw [Direction.readBody, Option.map_eq_some_iff] at h
  obtain ⟨p, hnext, h⟩ := h
  refine ⟨⟨_, _, PacketStream.wanted_of_nextPayload hnext⟩, fun t k hw => ?_⟩
  have hstop : ∀ (ending : Option Ending) (d₁ : Direction), d₁.stream.wanted = .header →
      (d₁.stopIf ending).stream.wanted ≠ .payload t k := by
    intro ending d₁ hd₁ heq
    cases ending with
    | none => cases hd₁.symm.trans heq
    | some e => exact wanted_stopIf heq
  simp only at h
  split at h
  · obtain ⟨rfl, rfl⟩ := Prod.mk.inj h
    exact wanted_stopIf hw
  · split at h
    · obtain ⟨rfl, rfl⟩ := Prod.mk.inj h
      exact hstop _ _ rfl hw
    · obtain ⟨rfl, rfl⟩ := Prod.mk.inj h
      exact hstop _ _ rfl hw

theorem Agreed.step {setting : Bool × Int} {l l' : Link} (hl : LinkInv z l)
    (h : Agreed z setting l) (hstep : LinkStep z l l') : Agreed z setting l' := by
  cases hstep with
  | @clientSends m hm =>
      refine ⟨h.compression, h.level, ?_, fun hshort hzstd => ?_, h.posted⟩
      · show l.up.stream.written ++ [packetOf z l.compression l.compressionLevel m] = _
        rw [h.up, h.compression, h.level, Direction.send, List.map_append]
        rfl
      · have hzstd' : Compressible z setting l := fun hs m' hm' =>
          hzstd hs m' (List.mem_append_left _ hm')
        exact h.enabled (Direction.Short.mono hshort rfl) hzstd'
  | arriveUp => exact h.same_up rfl rfl rfl fun _ _ hw => hw
  | @serverReadsHeader up hread =>
      obtain ⟨hsent, hwritten, hhandled⟩ := Direction.readHeader_same hread
      refine ⟨h.compression, h.level, by rw [hwritten, hsent, h.up], fun hshort hzstd => ?_,
        fun hposted => hhandled ▸ h.posted hposted⟩
      have hzstd' : Compressible z setting l := fun hs m hm => hzstd hs m (hsent ▸ hm)
      obtain ⟨hsetting, hstarted, hdown⟩ := h.enabled (hshort.of_eq hwritten) hzstd'
      have hheader : ∀ t k, up.stream.wanted = .payload t k → t = setting.1 := by
        intro t k hw
        obtain ⟨p, hp, rfl⟩ := wanted_of_readHeader (hl.up (hshort.of_eq hwritten)) hread hw
        rw [h.up] at hp
        obtain ⟨m, hm, rfl⟩ := List.mem_map.mp hp
        exact tag_packetOf fun hs => hzstd' hs m hm
      have henables : enables up = true → setting.1 = true := by
        rw [enables]
        cases hw : up.stream.wanted with
        | header => exact fun h => (by cases h)
        | closed => exact fun h => (by cases h)
        | payload t k => exact fun ht => (hheader t k hw).symm.trans ht
      refine ⟨fun hor => ?_, fun hstart => ?_, hdown⟩
      · exact ((Bool.or_eq_true _ _).mp hor).elim hsetting henables
      · show (l.compressionEnabled || enables up) = setting.1
        rcases hstart with hne | ⟨t, k, hw⟩
        · have heq := hstarted (Or.inl (hhandled ▸ hne))
          rw [heq]
          cases hs : setting.1 with
          | true => rfl
          | false =>
              rw [Bool.false_or, ← Bool.not_eq_true]
              exact fun ht => absurd (henables ht) (by simp [hs])
        · have henabled : enables up = setting.1 := by
            rw [enables, hw]
            exact hheader t k hw
          rw [henabled]
          cases hs : setting.1 with
          | true => exact Bool.or_true _
          | false =>
              rw [Bool.or_false, ← Bool.not_eq_true]
              exact fun ht => absurd (hsetting ht) (by simp [hs])
  | @serverReadsBody cs up hread =>
      obtain ⟨hsent, hwritten, hhandled⟩ := Direction.readBody_same hread
      rw [Option.toList_none, List.append_nil] at hhandled
      exact h.same_up hsent hwritten hhandled fun t k hw =>
        absurd hw ((wanted_of_readBody hread).2 t k)
  | @serverReadFails up hread =>
      obtain ⟨hsent, hwritten, hhandled⟩ := Direction.fail_same hread
      exact h.same_up hsent hwritten hhandled fun t k hw => absurd hw (wanted_of_fail hread)
  | @serverSends m posted hposted =>
      have hhandled := h.posted (by rw [hposted]; exact List.cons_ne_nil _ _)
      refine ⟨h.compression, h.level, h.up, fun hshort hzstd => ?_, fun _ => hhandled⟩
      obtain ⟨hsetting, hstarted, hdown⟩ := h.enabled hshort hzstd
      refine ⟨hsetting, hstarted, ?_⟩
      show l.down.stream.written ++ [packetOf z l.compressionEnabled 1 m] = _
      rw [hdown, hstarted (Or.inl hhandled), Direction.send, List.map_append]
      rfl
  | arriveDown => exact h.same_down rfl rfl
  | clientReadsHeader hread =>
      obtain ⟨hsent, hwritten, -⟩ := Direction.readHeader_same hread
      exact h.same_down hsent hwritten
  | clientReadsBody hread =>
      obtain ⟨hsent, hwritten, -⟩ := Direction.readBody_same hread
      exact h.same_down hsent hwritten
  | clientDisconnects hread =>
      obtain ⟨hsent, hwritten, -⟩ := Direction.fail_same hread
      exact h.same_down hsent hwritten

/-- The server has read the body of a message and handles it. -/
theorem Agreed.message {setting : Bool × Int} {l : Link} (h : Agreed z setting l)
    {cs : ControlSession} {m : RawMessage} {up : Direction}
    (hread : l.up.readBody z (some .threw)
      (fun m => if throwsOn cs m then some .threw else none) = some (some m, up)) :
    Agreed z setting { l with up } ∧ up.handled ≠ [] := by
  obtain ⟨hsent, hwritten, hhandled⟩ := Direction.readBody_same hread
  obtain ⟨hwanted, -⟩ := wanted_of_readBody hread
  have hne : up.handled ≠ [] := by
    rw [hhandled]
    simp
  refine ⟨⟨h.compression, h.level, by rw [hwritten, hsent, h.up], fun hshort hzstd => ?_,
    fun _ => hne⟩, hne⟩
  have hzstd' : Compressible z setting l := fun hs m hm => hzstd hs m (hsent ▸ hm)
  obtain ⟨hsetting, hstarted, hdown⟩ := h.enabled (hshort.of_eq hwritten) hzstd'
  exact ⟨hsetting, fun _ => hstarted (Or.inr hwanted), hdown⟩

/-- What a handler sends is posted, and only to a session it has read a message from. -/
theorem Agreed.handler {settings : CtrlId → Bool × Int} {e : Server.Event}
    (howned : Server.Owned n.server)
    (hasked : ∀ c, (∃ msg thrown, e = .message c msg thrown) ∨
      n.server.Authenticated c → (n.links c).up.handled ≠ [])
    (h : ∀ c, Agreed z (settings c) (n.links c)) (hrun : n.runHandler e = some n') (c : CtrlId) :
    Agreed z (settings c) (n'.links c) := by
  rw [runHandler, Option.map_eq_some_iff] at hrun
  obtain ⟨s, hstep, rfl⟩ := hrun
  obtain ⟨more, hmore, hto⟩ := Server.sent_step howned hstep
  show Agreed z (settings c) ((s.sent.drop n.server.sent.length).foldl post n.links c)
  rw [hmore, List.drop_left, foldl_post]
  refine ⟨(h c).compression, (h c).level, (h c).up, (h c).enabled, fun hposted => ?_⟩
  by_cases hold : (n.links c).posted = []
  · have hout : outbox c more ≠ [] := fun hout => hposted (by simp [hold, hout])
    obtain ⟨raw, hraw⟩ := List.exists_mem_of_ne_nil _ hout
    obtain ⟨m, hm, hraw⟩ := List.mem_filterMap.mp hraw
    rw [Option.ite_none_right_eq_some] at hraw
    exact hraw.1 ▸ hasked m.1 (hto m hm)
  · exact (h c).posted hold

variable {token : String} {ports : List PortRange} {clients : List String}
  {settings : CtrlId → Bool × Int}

/-- A session that has logged in has sent a message. -/
theorem handled_of_authenticated (hn : Refines z (Server.init token ports clients) n)
    {c : CtrlId} (hc : n.server.Authenticated c) : (n.links c).up.handled ≠ [] := by
  obtain ⟨m, thrown, hmem, -⟩ := (Server.admitted_of_run hn.run).login hc
  intro hnil
  have hinbox := hn.handled c
  rw [hnil, List.map_nil] at hinbox
  have hlogin : Message.login m ∈ inbox c n.events :=
    List.mem_filterMap.mpr ⟨_, hmem, by simp⟩
  rw [hinbox] at hlogin
  exact List.not_mem_nil hlogin

theorem agreed_start (c : CtrlId) :
    Agreed z (settings c) ((start token ports clients settings).links c) where
  compression := rfl
  level := rfl
  up := rfl
  enabled _ _ := ⟨fun h => (by cases h), by rintro (h | ⟨t, k, h⟩) <;> simp [start] at h, rfl⟩
  posted h := absurd rfl h

theorem agreed_step (hn : Refines z (Server.init token ports clients) n)
    (h : ∀ c, Agreed z (settings c) (n.links c)) {e : Event} (hstep : step z n e = some n')
    (c : CtrlId) : Agreed z (settings c) (n'.links c) := by
  have howned : Server.Owned n.server := Server.owned_reachable (reach_of_runAll hn.run)
  rcases step_cases hstep with ⟨d, l, hl, rfl⟩ | ⟨e, hmessage, hrun⟩ |
    ⟨d, cs, m, up, thrown, -, hread, hrun⟩
  · by_cases hc : c = d
    · rw [hc, show (n.setLink d l).links d = l from Function.update_self _ _ _]
      exact (h d).step (hn.links d) hl
    · rw [show (n.setLink d l).links c = n.links c from Function.update_of_ne hc _ _]
      exact h c
  · refine Agreed.handler howned (fun c hc => ?_) h hrun c
    rcases hc with ⟨_, _, rfl⟩ | hc
    · cases hmessage
    · exact handled_of_authenticated hn hc
  · have hself : (n.setLink d { n.links d with up }).links d = { n.links d with up } :=
      Function.update_self _ _ _
    have hother : ∀ c, c ≠ d → (n.setLink d { n.links d with up }).links c = n.links c :=
      fun c hc => Function.update_of_ne hc _ _
    obtain ⟨hagreed, hne⟩ := (h d).message hread
    refine Agreed.handler (n := n.setLink d { n.links d with up }) howned (fun c hc => ?_)
      (fun c => ?_) hrun c
    · by_cases hcd : c = d
      · rw [hcd, hself]
        exact hne
      · rw [hother c hcd]
        rcases hc with ⟨_, _, heq⟩ | hc
        · cases heq
          exact absurd rfl hcd
        · exact handled_of_authenticated hn hc
    · by_cases hcd : c = d
      · rw [hcd, hself]
        exact hagreed
      · rw [hother c hcd]
        exact h c

/-- **Both directions follow the client's setting.** If zstd compresses what the client sends
with compression switched on, then every packet of either direction is written as this setting
asks for, the first message of the server included. -/
theorem compression_agreed (hz : z.Lawful)
    (h : Reach (Net.step z) anyStep (start token ports clients settings) n) (c : CtrlId)
    (hshort : (n.links c).up.Short)
    (hzstd : (settings c).1 = true →
      ∀ m ∈ (n.links c).up.sent, (z.compress (settings c).2 m.encode).isSome) :
    (n.links c).up.stream.written =
      (n.links c).up.sent.map (packetOf z (settings c).1 (settings c).2) ∧
    (n.links c).down.stream.written = (n.links c).down.sent.map (packetOf z (settings c).1 1) := by
  have hboth : Refines z (Server.init token ports clients) n ∧
      ∀ c, Agreed z (settings c) (n.links c) := by
    refine h.invariant (P := fun n => Refines z (Server.init token ports clients) n ∧
      ∀ c, Agreed z (settings c) (n.links c)) ⟨refines_start, agreed_start⟩ ?_
    rintro n e n' ⟨hn, hagreed⟩ - hstep
    exact ⟨hn.step hz (Server.owned_reachable (reach_of_runAll hn.run)) hstep,
      agreed_step hn hagreed hstep⟩
  have hagreed := hboth.2 c
  exact ⟨hagreed.up, (hagreed.enabled hshort hzstd).2.2⟩

theorem compression_agreed_oneLogin :
    ∃ n : Net, (n.links 0).down.handled.map RawMessage.type = [1] ∧
      (n.links 0).down.stream.written = (n.links 0).down.sent.map (packetOf Zstd.raw true 1) := by
  obtain ⟨n, hreach, hobs⟩ := exists_of_runAll (Net.step Zstd.raw) oneLogin
    (fun n => (decide (n.links 0).up.Short, (n.links 0).up.sent,
      (n.links 0).down.handled.map RawMessage.type))
    (s := start "tok" [] [] compressing) (a := (true, [rawOf .login ⟨"tok", "a"⟩], [1]))
    (by decide +kernel)
  obtain ⟨hshort, hobs⟩ := Prod.mk.inj hobs
  obtain ⟨hsent, hhandled⟩ := Prod.mk.inj hobs
  refine ⟨n, hhandled, (compression_agreed Zstd.raw_lawful hreach 0 (of_decide_eq_true hshort)
    fun _ m hm => ?_).2⟩
  rw [hsent] at hm
  rw [List.mem_singleton.mp hm]
  decide +kernel

end Net

end Cfrp.Control

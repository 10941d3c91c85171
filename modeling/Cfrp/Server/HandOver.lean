import Cfrp.Server.Ownership

/-!
# Who is handed a user connection

`HandleMessage` refuses everything but a login from a session that has not logged in. The
other way into the tables has no such test: `HandleNewMuxStream` hands what is
pending under a ticket to the work stream that presents it. All that ties a pending
connection to its session is that nobody else knows the ticket, and this is what
`ticketsPrivate` asks for: tickets are drawn afresh, and a work stream presents one
that was announced to its own mux session.
-/

namespace Cfrp

open Lib Protocol

namespace Server

/-- The owner of what was handed out has logged in, over the mux session that got it. -/
def HandedToOwner (s : Server) (hand : HandOver) : Prop :=
  ∃ cs, s.controls hand.owner = some cs ∧ cs.authenticated = true ∧ cs.muxSession = hand.mux

/-- The message announces the ticket. -/
def announces (ticket : String) : Message → Bool
  | .newUserConn m => m.ticket == ticket
  | _ => false

def isPending (s : Server) (ticket : String) : Bool :=
  (s.pendingUserConns.lookup ticket).isSome || (s.pendingUdpSessions.lookup ticket).isSome

/-- A drawn ticket is new: it is not pending, and no session was ever told of it. A
presented ticket that is pending was announced to a session of the presenting mux
session. -/
def ticketsPrivate (s : Server) : Event → Bool
  | .workStream mux bytes =>
      !s.isPending (ticketOf bytes) || s.sent.any fun m =>
        announces (ticketOf bytes) m.2 && (s.controls m.1).any fun cs => cs.muxSession == mux
  | e =>
      (s.drawnTicket e).all fun drawn =>
        !s.isPending drawn.2 && !s.sent.any fun m => announces drawn.2 m.2

theorem announces_iff {ticket : String} {msg : Message} :
    announces ticket msg = true ↔ ∃ name, msg = .newUserConn ⟨name, ticket⟩ := by
  unfold announces
  split
  · rename_i m
    rw [beq_iff_eq]
    constructor
    · rintro rfl
      exact ⟨m.proxyName, rfl⟩
    · rintro ⟨name, h⟩
      rw [Message.newUserConn.inj h]
  · rename_i h
    refine ⟨fun h => absurd h (by simp), ?_⟩
    rintro ⟨name, rfl⟩
    exact absurd rfl (h _)

theorem isPending_iff {s : Server} {ticket : String} :
    s.isPending ticket = true ↔ ∃ c, s.PendingFor ticket c := by
  unfold isPending PendingFor
  rw [Bool.or_eq_true, Option.isSome_iff_exists, Option.isSome_iff_exists]
  constructor
  · rintro (⟨i, hi⟩ | ⟨i, hi⟩)
    · exact ⟨i.owner, Or.inl ⟨i, hi, rfl⟩⟩
    · exact ⟨i.owner, Or.inr ⟨i, hi, rfl⟩⟩
  · rintro ⟨c, ⟨i, hi, _⟩ | ⟨i, hi, _⟩⟩
    · exact Or.inl ⟨i, hi⟩
    · exact Or.inr ⟨i, hi⟩

/-- What a private ticket guarantees. -/
structure HandOverInv (s : Server) : Prop where
  /-- A pending ticket was announced to nobody but the session it is pending for. -/
  announced : ∀ {t c}, s.PendingFor t c → ∀ {d name},
    (d, Message.newUserConn ⟨name, t⟩) ∈ s.sent → d = c
  handed : ∀ hand ∈ s.handed, s.HandedToOwner hand

/-! ## One step -/

theorem handOverInv_init (token : String) (ports : List PortRange) (clients : List String) :
    HandOverInv (init token ports clients) where
  announced := fun {_ _} _ {_ _} hmem => absurd hmem (by simp [init])
  handed _ hmem := absurd hmem (by simp [init])

theorem handOverInv_controlStream {s : Server} (ho : Owned s) (hs : HandOverInv s)
    (mux : MuxId) : HandOverInv (s.handleControlStream mux) where
  announced := hs.announced
  handed hand hmem := by
    obtain ⟨cs, hc, hrest⟩ := hs.handed hand hmem
    have hne : hand.owner ≠ s.nextControl := fun h => by
      rw [h, ho.fresh (Nat.le_refl _)] at hc
      exact absurd hc (by simp)
    exact ⟨cs, (Function.update_of_ne hne _ _).trans hc, hrest⟩

theorem handOverInv_actsFor {s s' : Server} (hs : HandOverInv s) {c : CtrlId}
    {cs cs' : ControlSession} (hc : s.controls c = some cs) (h : ActsFor s s' c cs cs') :
    HandOverInv s' where
  announced := fun {_ _} hp {_ _} hmem => hs.announced (h.pending hp) (h.announced hmem)
  handed hand hmem := by
    rw [h.handed] at hmem
    exact exists_control_update hc h.controls
      (fun hown => ⟨h.auth hown.1, h.sameMux.trans hown.2⟩) (fun _ hown _ => hown)
      (hs.handed hand hmem)

theorem handOverInv_files {s s' : Server} (hs : HandOverInv s) {c : CtrlId} {ticket : String}
    (hnew : s.isPending ticket = false)
    (hunsent : ∀ d name, (d, Message.newUserConn ⟨name, ticket⟩) ∉ s.sent)
    (h : Files s s' c ticket) : HandOverInv s' := by
  have hpending : ∀ d, ¬ s.PendingFor ticket d := by
    intro d hd
    rw [isPending_iff.mpr ⟨d, hd⟩] at hnew
    exact absurd hnew (by simp)
  constructor
  case announced =>
    intro t d hp k name hmem
    have hsent : (k, Message.newUserConn ⟨name, t⟩) ∈ s.sent ∨ k = c ∧ t = ticket := by
      rcases h.sent with heq | ⟨_, heq⟩
      · exact Or.inl (heq ▸ hmem)
      · rw [heq] at hmem
        rcases List.mem_append.mp hmem with hmem | hmem
        · exact Or.inl hmem
        · simp only [List.mem_singleton, Prod.mk.injEq, Message.newUserConn.injEq,
            NewUserConnMessage.mk.injEq] at hmem
          exact Or.inr ⟨hmem.1, hmem.2.2⟩
    rcases h.pendingFor hp with hold | ⟨rfl, rfl⟩
    · rcases hsent with hsent | ⟨_, rfl⟩
      · exact hs.announced hold hsent
      · exact absurd hold (hpending d)
    · rcases hsent with hsent | ⟨rfl, _⟩
      · exact absurd hsent (hunsent k name)
      · rfl
  case handed =>
    intro hand hmem
    rw [h.handed] at hmem
    obtain ⟨_, _, _, _, _, _, rfl⟩ := h.only
    exact hs.handed hand hmem

/-- **The hand-over itself.** The ticket was announced within the mux session that
presents it, and to nobody but the owner of what is pending. -/
theorem handedToOwner_workStream {s : Server} (ho : Owned s) (hs : HandOverInv s) {mux : MuxId}
    {bytes : List Byte} (hok : s.ticketsPrivate (.workStream mux bytes) = true)
    {hand : HandOver} (hmux : hand.mux = mux) (hp : s.PendingFor (ticketOf bytes) hand.owner) :
    s.HandedToOwner hand := by
  simp only [ticketsPrivate, isPending_iff.mpr ⟨_, hp⟩, Bool.not_true, Bool.false_or,
    List.any_eq_true, Bool.and_eq_true, Option.any_eq_true, beq_iff_eq] at hok
  obtain ⟨⟨d, msg⟩, hmem, hannounces, ds, hds, hdmux⟩ := hok
  obtain ⟨name, rfl⟩ := announces_iff.mp hannounces
  obtain rfl := hs.announced hp hmem
  obtain ⟨cs, hc, hauth⟩ := ho.pending hp
  rw [hc] at hds
  obtain rfl := Option.some.inj hds
  exact ⟨cs, hc, hauth, hdmux.trans hmux.symm⟩

theorem handOverInv_step {s s' : Server} (ho : Owned s) (hs : HandOverInv s) {e : Event}
    (hok : s.ticketsPrivate e = true) (h : s.step e = some s') : HandOverInv s' := by
  rcases step_cases ho h with ⟨mux, _, rfl⟩ | ⟨c, cs, cs', _, hc, hacts⟩ |
    ⟨hkind, ⟨c, ticket, hdrawn, _, hfiles⟩ | rfl⟩ |
    ⟨mux, bytes, rfl, rfl | ⟨hand, hmux, hp, hhanded, hsent, honly, hshrinks⟩⟩
  · exact handOverInv_controlStream ho hs mux
  · exact handOverInv_actsFor hs hc hacts
  · have hfresh : (!s.isPending ticket && !s.sent.any fun m => announces ticket m.2) = true := by
      cases e with
      | workStream => exact absurd hkind (by simp [Event.isUserTraffic])
      | _ =>
          simp only [ticketsPrivate, hdrawn, Option.all_some] at hok
          exact hok
    rw [Bool.and_eq_true, Bool.not_eq_true', Bool.not_eq_true'] at hfresh
    refine handOverInv_files hs hfresh.1 (fun d name hmem => ?_) hfiles
    have := List.any_eq_false.mp hfresh.2 _ hmem
    exact this (announces_iff.mpr ⟨name, rfl⟩)
  · exact hs
  · exact hs
  · have hown := handedToOwner_workStream ho hs hok hmux hp
    constructor
    case announced =>
      intro t d hpend k name hmem
      exact hs.announced (hshrinks.pendingFor hpend) (hsent ▸ hmem)
    case handed =>
      intro k hmem
      rw [hhanded] at hmem
      obtain ⟨_, _, _, _, _, _, rfl⟩ := honly
      rcases List.mem_append.mp hmem with hmem | hmem
      · exact hs.handed k hmem
      · rw [List.mem_singleton.mp hmem]
        exact hown

/-! ## Every run -/

/-- **A user connection reaches its own client.** In a run whose tickets stay private,
everything handed out went to a work stream of its owner's mux session, and at that
moment the owner had logged in. -/
theorem handOver_owner {token : String} {ports : List PortRange} {clients : List String}
    {s : Server}
    (h : Reach step (fun s e => s.ticketsPrivate e = true) (init token ports clients) s) :
    (∀ hand ∈ s.handed, s.HandedToOwner hand) ∧
    ∀ e s' hand, s.ticketsPrivate e = true → s.step e = some s' →
      s'.handed = s.handed ++ [hand] → s.HandedToOwner hand := by
  have hboth : Owned s ∧ HandOverInv s := by
    refine h.invariant (P := fun s => Owned s ∧ HandOverInv s)
      ⟨owned_init token ports clients, handOverInv_init token ports clients⟩ ?_
    rintro s e s' ⟨ho, hs⟩ hok hstep
    exact ⟨owned_step ho hstep, handOverInv_step ho hs hok hstep⟩
  obtain ⟨ho, hs⟩ := hboth
  refine ⟨hs.handed, fun e s' hand hok hstep hhand => ?_⟩
  have hgrew : s'.handed ≠ s.handed := by
    rw [hhand]
    simp
  rcases step_cases ho hstep with ⟨mux, _, rfl⟩ | ⟨_, _, _, _, _, hacts⟩ |
    ⟨_, ⟨_, _, _, _, hfiles⟩ | rfl⟩ |
    ⟨mux, bytes, rfl, rfl | ⟨k, hmux, hp, hhanded, _⟩⟩
  · exact absurd rfl hgrew
  · exact absurd hacts.handed hgrew
  · exact absurd hfiles.handed hgrew
  · exact absurd rfl hgrew
  · exact absurd rfl hgrew
  · rw [hhanded] at hhand
    obtain rfl : k = hand := by simpa using hhand
    exact handedToOwner_workStream ho hs hok hmux hp

/-- The 65 bytes that ask for the ticket `12`. -/
def askFor12 : List Byte := 0 :: 49 :: 50 :: List.replicate 62 32

/-- A session with one TCP proxy, and a user waiting for it. -/
def oneWaitingUser : List Event :=
  [.controlStream 1, .message 0 (.login ⟨"tok", "a"⟩) none,
    .message 0 (.registerProxy ⟨"ssh", "tcp", 6000, [], 0⟩) none,
    .acceptUser ⟨0, .tcp, 6000, "ssh", 0⟩ "12" 7 5 true]

theorem handOver_owner_oneUser :
    ∃ s : Server, s.handed.map (fun hand => (hand.mux, hand.owner)) = [(1, 0)] ∧
      ∀ hand ∈ s.handed, s.HandedToOwner hand := by
  obtain ⟨s, hreach, hobs⟩ := exists_of_runGuarded step ticketsPrivate
    (oneWaitingUser ++ [.workStream 1 askFor12])
    (fun s => s.handed.map fun hand => (hand.mux, hand.owner))
    (s := init "tok" [] []) (a := [(1, 0)]) (by decide)
  exact ⟨s, hobs, (handOver_owner hreach).1⟩

/-- A mux session that has never logged in asks for the ticket, and gets the user. -/
theorem handOver_stranger :
    ¬ ∀ (token : String) (ports : List PortRange) (clients : List String) (s : Server),
      Reach step anyStep (init token ports clients) s →
      ∀ hand ∈ s.handed, s.HandedToOwner hand := by
  intro hall
  obtain ⟨s, hreach, hobs⟩ := exists_of_runAll step
    (oneWaitingUser ++ [.workStream 2 askFor12])
    (fun s => (s.handed.map fun hand => (hand.mux, hand.owner),
      (s.controls 0).map ControlSession.muxSession))
    (s := init "tok" [] []) (a := ([(2, 0)], some 1)) (by decide)
  obtain ⟨hhanded, hmux⟩ := Prod.mk.inj hobs
  obtain ⟨hand, hhand, heq⟩ := List.map_eq_singleton_iff.mp hhanded
  obtain ⟨hhmux, howner⟩ := Prod.mk.inj heq
  obtain ⟨cs, hc, _, hcs⟩ := hall _ _ _ s hreach hand (by simp [hhand])
  rw [howner] at hc
  rw [hc, Option.map_some, hcs, hhmux] at hmux
  exact absurd hmux (by decide)

end Server

end Cfrp

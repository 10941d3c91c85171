import Cfrp.Lib.Keyed
import Cfrp.Quic.Server

/-!
# The table of the QUIC sessions

Until `Stop` clears it, `quic_sessions_` has exactly the sessions whose `on_closed` has not
run. What a step does to one session is said in `ServerSession.Becomes`, so only the steps that
touch the table need more. Nobody but the handler of a receive makes a session, so the one it
has found is the last of its endpoint until the packet is posted.
-/

namespace Cfrp.Quic

open Lib Mux

namespace QuicServer

variable {ε : Type} [DecidableEq ε] {v v' : QuicServer ε}

/-- The packets of an endpoint that went to a session. -/
def receivedFrom (v : QuicServer ε) (e : ε) : List (List Byte) :=
  (v.received.filter fun r => r.1 = e).map Prod.snd

/-- What a session was given of them. -/
def givenFrom (e : ε) (s : ServerSession ε) : List (List Byte) :=
  if s.endpoint = e then s.given else []

def endpoints (v : QuicServer ε) : List ε := v.objs.map ServerSession.endpoint

/-- The endpoint of a session, and how often its `on_closed` has run. -/
def tag (s : ServerSession ε) : ε × Nat := (s.endpoint, s.closings)

/-- Session `o` is the last one of endpoint `e`. -/
structure Newest (es : List ε) (e : ε) (o : Nat) : Prop where
  own : es[o]? = some e
  last : ∀ o', o < o' → es[o']? ≠ some e

omit [DecidableEq ε] in
theorem Newest.concat {es : List ε} {e e' : ε} {o : Nat} (h : Newest es e o) (hne : e' ≠ e) :
    Newest (es ++ [e']) e o := by
  refine ⟨getElem?_concat_of_some h.own, fun o' hlt ho' => ?_⟩
  rcases of_getElem?_concat ho' with hold | ⟨-, heq⟩
  · exact h.last o' hlt hold
  · exact hne heq.symm

omit [DecidableEq ε] in
theorem newest_concat (es : List ε) (e : ε) : Newest (es ++ [e]) e es.length := by
  refine ⟨List.getElem?_concat_length, fun o' hlt ho' => ?_⟩
  have hbound := (List.getElem?_eq_some_iff.mp ho').1
  rw [List.length_append, List.length_singleton] at hbound
  omega

/-- Only the sessions that `Stop` has collected are known to end: one that is made before it
clears the table is in nobody's hands then. -/
structure Inv (v : QuicServer ε) : Prop where
  orderly : ∀ s ∈ v.objs, s.Orderly
  alive : ∀ (o : Nat) (s : ServerSession ε), v.objs[o]? = some s → v.holds o s →
    s.connection.alive = true
  newest : ∀ e o, v.quicSessions.lookup e = some o → Newest v.endpoints e o
  reading : ∀ r o, v.reading = some r → r.session = some o → Newest v.endpoints r.endpoint o
  table : v.phase.hasCleared = false → ∀ e o, v.quicSessions.lookup e = some o ↔
    (v.objs.map tag)[o]? = some (e, 0)
  earlier : v.phase.hasCleared = false → ∀ (o o' : Nat) e n n', o < o' →
    (v.objs.map tag)[o]? = some (e, n) → (v.objs.map tag)[o']? = some (e, n') → n = 1
  bound : v.collected ≤ v.objs.length
  collected : ∀ (o : Nat) (s : ServerSession ε), v.objs[o]? = some s → o < v.collected →
    o ∉ v.phase.sessions → s.active = false
  received : ∀ e, v.receivedFrom e = v.objs.flatMap (givenFrom e)

theorem inv_init : Inv ({} : QuicServer ε) where
  orderly s hs := (List.not_mem_nil hs).elim
  alive o s hs := by cases hs
  newest e o h := by
    rw [AList.lookup_empty] at h
    cases h
  reading r o h := by cases h
  table _ e o := by
    rw [AList.lookup_empty]
    exact ⟨fun h => (by cases h), fun h => (by cases h)⟩
  earlier _ o o' e n n' _ h := by cases h
  bound := Nat.le_refl _
  collected o s hs := by cases hs
  received e := rfl

/-- A session whose `on_closed` has not run is in the table. -/
theorem Inv.lookup (h : Inv v) (hkept : v.phase.hasCleared = false) {o : Nat}
    {s : ServerSession ε} (ho : v.objs[o]? = some s) (hclosings : s.closings = 0) :
    v.quicSessions.lookup s.endpoint = some o := by
  refine (h.table hkept s.endpoint o).mpr ?_
  rw [List.getElem?_map, ho, Option.map_some, tag, hclosings]

/-- A session that is not in the table any more has closed. -/
theorem Inv.inactive (h : Inv v) (hkept : v.phase.hasCleared = false) {o : Nat}
    {s : ServerSession ε} (ho : v.objs[o]? = some s)
    (hnot : v.quicSessions.lookup s.endpoint ≠ some o) : s.active = false := by
  by_contra ha
  obtain ⟨-, hopen⟩ := ServerSession.active_iff.mp (Bool.not_eq_false _ ▸ ha)
  have hends := (h.orderly s (List.mem_of_getElem? ho)).notified.early hopen
  exact hnot (h.lookup hkept ho (Nat.eq_zero_of_add_eq_zero_right hends))

omit [DecidableEq ε] in
/-- The session that is looked up or being read for. -/
theorem Newest.session {e : ε} {o : Nat} (h : Newest v.endpoints e o) :
    ∃ s, v.objs[o]? = some s ∧ s.endpoint = e := by
  have hown := h.own
  rw [endpoints, List.getElem?_map] at hown
  exact Option.map_eq_some_iff.mp hown

/-! ## The table and the tags -/

section Tags

variable {t : Table ε Nat} {tags : List (ε × Nat)}

theorem lookup_insert_cases {e endpoint : ε} {o n : Nat}
    (h : (t.insert endpoint n).lookup e = some o) :
    e = endpoint ∧ o = n ∨ e ≠ endpoint ∧ t.lookup e = some o := by
  rw [Table.lookup_insert_if] at h
  split at h
  · rename_i he
    cases h
    exact Or.inl ⟨he, rfl⟩
  · rename_i he
    exact Or.inr ⟨he, h⟩

/-- A session whose `on_closed` has run leaves the table. -/
theorem table_erase (h : ∀ e o, t.lookup e = some o ↔ tags[o]? = some (e, 0)) {endpoint : ε}
    {o : Nat} (ho : tags[o]? = some (endpoint, 0)) (e : ε) (o' : Nat) :
    (t.erase endpoint).lookup e = some o' ↔
      (tags.modify o fun _ => (endpoint, 1))[o']? = some (e, 0) := by
  rw [Table.lookup_erase_if]
  constructor
  · intro hl
    split at hl
    · cases hl
    · rename_i hne
      have hbefore := (h e o').mp hl
      -- an entry of another endpoint is another session's
      have hdiff : o ≠ o' := by
        rintro rfl
        rw [ho] at hbefore
        cases hbefore
        exact hne rfl
      rw [List.getElem?_modify, hbefore]
      simp [hdiff]
  · intro ht
    rcases of_getElem?_modify ho ht with ⟨-, heq⟩ | ⟨hne, hbefore⟩
    · cases heq
    · rw [if_neg]
      · exact (h e o').mpr hbefore
      -- an endpoint has one entry
      · rintro rfl
        have hl := (h e o').mpr hbefore
        rw [(h e o).mpr ho] at hl
        exact hne (Option.some.inj hl).symm

/-- A new session enters it, as the first of its endpoint whose `on_closed` has not run. -/
theorem table_insert (h : ∀ e o, t.lookup e = some o ↔ tags[o]? = some (e, 0)) {endpoint : ε}
    (hl : t.lookup endpoint = none) (e : ε) (o : Nat) :
    (t.insert endpoint tags.length).lookup e = some o ↔
      (tags ++ [(endpoint, 0)])[o]? = some (e, 0) := by
  constructor
  · intro ho
    rcases lookup_insert_cases ho with ⟨rfl, rfl⟩ | ⟨-, hsame⟩
    · exact List.getElem?_concat_length
    · exact getElem?_concat_of_some ((h e o).mp hsame)
  · intro ht
    rw [Table.lookup_insert_if]
    rcases of_getElem?_concat ht with hold | ⟨ho, heq⟩
    · have hfound := (h e o).mpr hold
      rw [if_neg, hfound]
      rintro rfl
      rw [hl] at hfound
      cases hfound
    · cases heq
      rw [if_pos rfl, ho]

omit [DecidableEq ε] in
theorem earlier_modify (h : ∀ (o o' : Nat) e n n', o < o' → tags[o]? = some (e, n) →
      tags[o']? = some (e, n') → n = 1) {endpoint : ε} {o₀ n₀ : Nat}
    (ho : tags[o₀]? = some (endpoint, n₀)) {o o' : Nat} {e : ε} {n n' : Nat} (hlt : o < o')
    (ht : (tags.modify o₀ fun _ => (endpoint, 1))[o]? = some (e, n))
    (ht' : (tags.modify o₀ fun _ => (endpoint, 1))[o']? = some (e, n')) : n = 1 := by
  rcases of_getElem?_modify ho ht with ⟨-, heq⟩ | ⟨-, hbefore⟩
  · cases heq
    rfl
  · rcases of_getElem?_modify ho ht' with ⟨rfl, heq⟩ | ⟨-, hbefore'⟩
    · cases heq
      exact h o o' endpoint n n₀ hlt hbefore ho
    · exact h o o' e n n' hlt hbefore hbefore'

omit [DecidableEq ε] in
theorem earlier_concat (h : ∀ (o o' : Nat) e n n', o < o' → tags[o]? = some (e, n) →
      tags[o']? = some (e, n') → n = 1) {endpoint : ε}
    (hended : ∀ (o n : Nat), tags[o]? = some (endpoint, n) → n = 1) {o o' : Nat} {e : ε}
    {n n' : Nat} (hlt : o < o') (ht : (tags ++ [(endpoint, 0)])[o]? = some (e, n))
    (ht' : (tags ++ [(endpoint, 0)])[o']? = some (e, n')) : n = 1 := by
  rcases of_getElem?_concat ht' with hold' | ⟨rfl, heq⟩
  · rcases of_getElem?_concat ht with hold | ⟨rfl, -⟩
    · exact h o o' e n n' hlt hold hold'
    · have hbound := (List.getElem?_eq_some_iff.mp hold').1
      omega
  · cases heq
    rcases of_getElem?_concat ht with hold | ⟨rfl, -⟩
    · exact hended o n hold
    · exact absurd hlt (Nat.lt_irrefl _)

end Tags

/-! ## The steps of one session -/

/-- A step of one session. -/
theorem Inv.replace (h : Inv v) {o : Nat} {s s' : ServerSession ε} (ho : v.objs[o]? = some s)
    (horderly : s'.Orderly) (hendpoint : s'.endpoint = s.endpoint) (hgiven : s'.given = s.given)
    (hclosings : s'.closings = s.closings) (hactive : s'.active = true → s.active = true)
    (halive : v.holds o s → s'.connection.alive = true) : Inv (v.put o s') := by
  have hendpoints : (v.put o s').endpoints = v.endpoints := map_key_modify ho hendpoint
  have htags : (v.put o s').objs.map tag = v.objs.map tag :=
    map_key_modify ho (Prod.ext hendpoint hclosings)
  have hback : ∀ {o' : Nat} {t : ServerSession ε}, (v.put o s').objs[o']? = some t →
      o' = o ∧ t = s' ∨ o' ≠ o ∧ v.objs[o']? = some t := fun ht => of_getElem?_modify ho ht
  refine ⟨fun t ht => ?_, fun o' t ht hholds => ?_, fun e o' hl => ?_, fun r o' hr hsession => ?_,
    fun hkept e o' => ?_, fun hkept => ?_, ?_, fun o' t ht hlt hnot => ?_, fun e => ?_⟩
  · rcases mem_modify ho ht with rfl | hold
    · exact horderly
    · exact h.orderly t hold
  · rcases hback ht with ⟨rfl, rfl⟩ | ⟨-, hold⟩
    · refine halive ?_
      rw [holds, ← hendpoint]
      exact hholds
    · exact h.alive o' t hold hholds
  · rw [hendpoints]
    exact h.newest e o' hl
  · rw [hendpoints]
    exact h.reading r o' hr hsession
  · rw [htags]
    exact h.table hkept e o'
  · rw [htags]
    exact h.earlier hkept
  · exact (List.length_modify _ _ _).symm ▸ h.bound
  · rcases hback ht with ⟨rfl, rfl⟩ | ⟨-, hold⟩
    · by_contra ha
      have hbefore := h.collected o' s ho hlt hnot
      rw [hactive (Bool.not_eq_false _ ▸ ha)] at hbefore
      cases hbefore
    · exact h.collected o' t hold hlt hnot
  · refine (h.received e).trans (flatMap_modify_of_eq ho ?_).symm
    rw [givenFrom, givenFrom, hendpoint, hgiven]

theorem Inv.put (h : Inv v) {o : Nat} {s s' : ServerSession ε} (ho : v.objs[o]? = some s)
    (hs : ServerSession.Becomes s s') : Inv (v.put o s') :=
  h.replace ho hs.orderly hs.endpoint hs.given hs.closings hs.active
    fun hholds => hs.alive.trans (h.alive o s ho hholds)

/-- **`on_closed` erases the entry of its own session.** Until it has run, nobody else of this
endpoint is in the table. -/
theorem Inv.onClosed (h : Inv v) {o : Nat} {s : ServerSession ε} {tasks : List Posted}
    (ho : v.objs[o]? = some s) (htasks : s.tasks = .closed :: tasks) :
    (v.phase.hasCleared = false → v.quicSessions.lookup s.endpoint = some o) ∧
    Inv ({ v with quicSessions := v.quicSessions.erase s.endpoint }.put o
      { s with tasks, closings := s.closings + 1 }) := by
  have hold := h.orderly s (List.mem_of_getElem? ho)
  have hzero : s.closings = 0 := hold.closings_eq_zero htasks
  have hown : (v.objs.map tag)[o]? = some (s.endpoint, 0) := by
    rw [List.getElem?_map, ho, Option.map_some, tag, hzero]
  have htags : (v.objs.modify o fun _ => { s with tasks, closings := s.closings + 1 }).map tag =
      (v.objs.map tag).modify o fun _ => (s.endpoint, 1) := by
    rw [map_modify_const]
    show List.modify _ _ (fun _ => (s.endpoint, s.closings + 1)) = _
    rw [hzero]
  have hendpoints : (v.objs.modify o fun _ => { s with tasks, closings := s.closings + 1 }).map
      ServerSession.endpoint = v.endpoints := map_key_modify ho rfl
  have hback : ∀ {o' : Nat} {t : ServerSession ε},
      (v.objs.modify o fun _ => { s with tasks, closings := s.closings + 1 })[o']? = some t →
      o' = o ∧ t = { s with tasks, closings := s.closings + 1 } ∨
        o' ≠ o ∧ v.objs[o']? = some t := fun ht => of_getElem?_modify ho ht
  refine ⟨fun hkept => h.lookup hkept ho hzero, fun t ht => ?_, fun o' t ht hholds => ?_,
    fun e o' hl => ?_, fun r o' hr hsession => ?_, fun hkept e o' => ?_,
    fun hkept o₁ o₂ e n n' hlt ht ht' => ?_, ?_, fun o' t ht hlt hnot => ?_, fun e => ?_⟩
  · rcases mem_modify ho ht with rfl | hsame
    · exact hold.onClosed htasks
    · exact h.orderly t hsame
  -- who is held now was held before
  · have hheld : v.holds o' t := hholds.imp_left Table.lookup_of_lookup_erase
    rcases hback ht with ⟨rfl, rfl⟩ | ⟨-, hsame⟩
    · exact h.alive o' s ho hheld
    · exact h.alive o' t hsame hheld
  · show Newest ((v.objs.modify o _).map _) e o'
    rw [hendpoints]
    exact h.newest e o' (Table.lookup_of_lookup_erase hl)
  · show Newest ((v.objs.modify o _).map _) r.endpoint o'
    rw [hendpoints]
    exact h.reading r o' hr hsession
  · show (v.quicSessions.erase s.endpoint).lookup e = some o' ↔
      ((v.objs.modify o _).map tag)[o']? = some (e, 0)
    rw [htags]
    exact table_erase (h.table hkept) hown e o'
  · have ht₁ : ((v.objs.map tag).modify o fun _ => (s.endpoint, 1))[o₁]? = some (e, n) :=
      htags ▸ ht
    have ht₂ : ((v.objs.map tag).modify o fun _ => (s.endpoint, 1))[o₂]? = some (e, n') :=
      htags ▸ ht'
    exact earlier_modify (h.earlier hkept) hown hlt ht₁ ht₂
  · exact (List.length_modify _ _ _).symm ▸ h.bound
  · rcases hback ht with ⟨rfl, rfl⟩ | ⟨-, hsame⟩
    · exact h.collected o' s ho hlt hnot
    · exact h.collected o' t hsame hlt hnot
  · exact (h.received e).trans (flatMap_modify_of_eq ho rfl).symm

theorem Inv.run (h : Inv v) {o : Nat}
    (hstrand : ∀ s, v.objs[o]? = some s → s.connection.entering = none)
    {callbacks : List Callback} {p : Option Packets}
    (hs : v.run o callbacks p = some v') : Inv v' := by
  simp only [QuicServer.run, Option.bind_eq_bind, Option.bind_eq_some_iff] at hs
  obtain ⟨s, ho, hs⟩ := hs
  have hold := h.orderly s (List.mem_of_getElem? ho)
  split at hs
  · cases hs
  · rename_i packet tasks htasks
    cases hs
    exact h.put ho (hold.handlePacket (hstrand s ho) htasks callbacks p)
  · rename_i stream tasks htasks
    cases hs
    exact h.put ho (hold.newStream htasks)
  · rename_i tasks htasks
    cases hs
    exact (h.onClosed ho htasks).2

/-- A session goes when nobody has a pointer to it. It may still be open. -/
theorem Inv.expire (h : Inv v) {o : Nat} {s : ServerSession ε} {c : Connection}
    (ho : v.objs[o]? = some s) (hnot : ¬v.holds o s) (howning : Posted.owning s.tasks = false)
    (hs : s.connection.step .expire = some c) : Inv (v.put o { s with connection := c }) := by
  have hold := h.orderly s (List.mem_of_getElem? ho)
  obtain ⟨hobjs, hsession⟩ := Connection.expire_frame hs
  have hclosed : ServerSession.closed { s with connection := c } = s.closed :=
    congrArg QuicSession.closedNotified hsession
  have hactive : ServerSession.active { s with connection := c } = s.active := by
    rw [ServerSession.active, ServerSession.active, hclosed]
  have horderly : ServerSession.Orderly { s with connection := c } := by
    refine ⟨Reach.tail hold.reach trivial hs, fun hown => ?_, ?_, ?_, ?_, ?_⟩
    · have hown' : Posted.owning s.tasks = true := hown
      rw [howning] at hown'
      cases hown'
    · rw [hactive]
      exact hold.packets
    · show _ = List.range c.objs.length
      rw [hobjs]
      exact hold.streams
    · rw [hclosed]
      exact hold.notified
    · rw [hclosed]
      exact hold.inert
  exact h.replace ho horderly rfl rfl rfl (fun ha => hactive ▸ ha) fun hholds =>
    absurd hholds hnot

/-! ## The handler of a receive -/

/-- The handler has found a session, or has none. -/
theorem Inv.found (h : Inv v) {reading : Option (Reading ε)}
    (hl : ∀ r o, reading = some r → r.session = some o →
      v.quicSessions.lookup r.endpoint = some o) : Inv { v with reading } := by
  refine ⟨h.orderly, fun o s ho hholds => h.alive o s ho ?_, h.newest,
    fun r o hr hsession => h.newest r.endpoint o (hl r o hr hsession), h.table, h.earlier, h.bound,
    h.collected, h.received⟩
  rcases hholds with htable | hphase | hreading
  · exact Or.inl htable
  · exact Or.inr (Or.inl hphase)
  · obtain ⟨r, hr, hsession⟩ := Option.bind_eq_some_iff.mp hreading
    have hfound := hl r o hr hsession
    obtain ⟨t, ht, hendpoint⟩ := (h.newest r.endpoint o hfound).session
    rw [ho] at ht
    cases ht
    exact Or.inl (hendpoint ▸ hfound)

/-- The sessions of an endpoint that has none in the table are over. -/
theorem Inv.ended (h : Inv v) (hkept : v.phase.hasCleared = false) {endpoint : ε}
    (hl : v.quicSessions.lookup endpoint = none) (o n : Nat)
    (ht : (v.objs.map tag)[o]? = some (endpoint, n)) : n = 1 := by
  have hne : n ≠ 0 := by
    rintro rfl
    have hfound := (h.table hkept endpoint o).mpr ht
    rw [hl] at hfound
    cases hfound
  rw [List.getElem?_map] at ht
  obtain ⟨s, hs, heq⟩ := Option.map_eq_some_iff.mp ht
  have honce := (h.orderly s (List.mem_of_getElem? hs)).notified.once
  have hn : s.closings = n := congrArg Prod.snd heq
  rw [ServerSession.ends] at honce
  omega

/-- A session is made for an endpoint that has none. -/
theorem Inv.insert (h : Inv v) (hreading : v.reading = none) {endpoint : ε}
    (hl : v.quicSessions.lookup endpoint = none) (ready : Bool) :
    Inv { v with
      quicSessions := v.quicSessions.insert endpoint v.objs.length
      objs := v.objs ++ [{ endpoint, ready : ServerSession ε }] } := by
  have hendpoints : (v.objs ++ [{ endpoint, ready : ServerSession ε }]).map
      ServerSession.endpoint = v.endpoints ++ [endpoint] := List.map_append
  have htags : (v.objs ++ [{ endpoint, ready : ServerSession ε }]).map tag =
      v.objs.map tag ++ [(endpoint, 0)] := List.map_append
  have hlength : (v.objs.map tag).length = v.objs.length := List.length_map _
  refine ⟨fun t ht => ?_, fun o t ht hholds => ?_, fun e o ho => ?_, fun r o hr => ?_,
    fun hkept e o => ?_, fun hkept o₁ o₂ e n n' hlt ht ht' => ?_, ?_, fun o t ht hlt => ?_,
    fun e => ?_⟩
  · rcases List.mem_append.mp ht with hold | hnew
    · exact h.orderly t hold
    · rw [List.mem_singleton.mp hnew]
      exact ServerSession.orderly_new endpoint ready
  · rcases of_getElem?_concat ht with hold | ⟨-, rfl⟩
    -- the new entry is that of the new session
    · refine h.alive o t hold (hholds.imp_left fun htable => ?_)
      rcases lookup_insert_cases htable with ⟨-, rfl⟩ | ⟨-, hsame⟩
      · exact absurd (List.getElem?_eq_some_iff.mp hold).1 (Nat.lt_irrefl _)
      · exact hsame
    · rfl
  · show Newest (List.map _ _) e o
    rw [hendpoints]
    rcases lookup_insert_cases ho with ⟨rfl, rfl⟩ | ⟨hne, hsame⟩
    · have hnew := newest_concat v.endpoints e
      rw [endpoints, List.length_map] at hnew
      exact hnew
    · exact (h.newest e o hsame).concat hne.symm
  · have hr' : v.reading = some r := hr
    rw [hreading] at hr'
    cases hr'
  · show (v.quicSessions.insert endpoint v.objs.length).lookup e = some o ↔ _
    rw [htags, ← hlength]
    exact table_insert (h.table hkept) hl e o
  · have ht₁ : (v.objs.map tag ++ [(endpoint, 0)])[o₁]? = some (e, n) := htags ▸ ht
    have ht₂ : (v.objs.map tag ++ [(endpoint, 0)])[o₂]? = some (e, n') := htags ▸ ht'
    exact earlier_concat (h.earlier hkept) (h.ended hkept hl) hlt ht₁ ht₂
  · show v.collected ≤ (v.objs ++ _).length
    rw [List.length_append]
    exact Nat.le_trans h.bound (Nat.le_add_right _ _)
  · rcases of_getElem?_concat ht with hold | ⟨rfl, -⟩
    · exact h.collected o t hold hlt
    · exact absurd h.bound (Nat.not_le.mpr hlt)
  · show _ = (v.objs ++ [_]).flatMap _
    rw [List.flatMap_append, ← h.received e]
    simp [givenFrom, receivedFrom]

theorem Inv.accept (h : Inv v) (decodes : List Byte → Bool) (r : Reading ε) (ready : Bool) :
    Inv (v.accept decodes r ready) := by
  -- a packet that is not decoded is dropped
  have hnone : Inv { v with reading := none } := h.found fun r o hr => (by cases hr)
  unfold QuicServer.accept
  split
  · split
    · rename_i o hl
      exact h.found fun r' o' hr hsession => (by cases hr; cases hsession; exact hl)
    · rename_i hl
      refine (hnone.insert rfl hl ready).found fun r' o' hr hsession => ?_
      cases hr
      cases hsession
      exact AList.lookup_insert _
  · exact hnone

/-- A packet goes to the last session of its endpoint. -/
theorem Inv.give (h : Inv v) {o : Nat} {endpoint : ε} {packet : List Byte}
    (hr : v.reading = some ⟨endpoint, packet, some o⟩) : Inv (v.give o endpoint packet) := by
  have hnewest := h.reading _ o hr rfl
  obtain ⟨s, ho, hendpoint⟩ := hnewest.session
  have halive : s.connection.alive = true :=
    h.alive o s ho (Or.inr (Or.inr (by rw [hr]; rfl)))
  have hendpoints : (v.give o endpoint packet).endpoints = v.endpoints := map_key_modify ho rfl
  have htags : (v.give o endpoint packet).objs.map tag = v.objs.map tag := map_key_modify ho rfl
  have hback : ∀ {o' : Nat} {t : ServerSession ε}, (v.give o endpoint packet).objs[o']? = some t →
      o' = o ∧ t = s.give packet ∨ o' ≠ o ∧ v.objs[o']? = some t :=
    fun ht => of_getElem?_modify ho ht
  have hheld : ∀ {o' : Nat} {t : ServerSession ε}, (v.give o endpoint packet).holds o' t →
      v.holds o' t := by
    rintro o' t (htable | hphase | hreading)
    · exact Or.inl htable
    · exact Or.inr (Or.inl hphase)
    · cases hreading
  refine ⟨fun t ht => ?_, fun o' t ht hholds => ?_, fun e o' hl => ?_, fun r o' hr => (by cases hr),
    fun hkept e o' => ?_, fun hkept => ?_, ?_, fun o' t ht hlt hnot => ?_, fun e => ?_⟩
  · rcases mem_modify ho ht with rfl | hold
    · exact (h.orderly s (List.mem_of_getElem? ho)).give halive packet
    · exact h.orderly t hold
  · rcases hback ht with ⟨rfl, rfl⟩ | ⟨-, hold⟩
    · exact halive
    · exact h.alive o' t hold (hheld hholds)
  · rw [hendpoints]
    exact h.newest e o' hl
  · rw [htags]
    exact h.table hkept e o'
  · rw [htags]
    exact h.earlier hkept
  · exact (List.length_modify _ _ _).symm ▸ h.bound
  · rcases hback ht with ⟨rfl, rfl⟩ | ⟨-, hold⟩
    · exact h.collected o' s ho hlt hnot
    · exact h.collected o' t hold hlt hnot
  · show ((v.received ++ [(endpoint, packet)]).filter _).map Prod.snd =
      (v.objs.modify o (ServerSession.give · packet)).flatMap (givenFrom e)
    rw [List.filter_append, List.map_append]
    -- behind the session that is given the packet the endpoint has no other
    by_cases he : endpoint = e
    · subst he
      have hlast : ∀ o' t, o < o' → v.objs[o']? = some t → givenFrom endpoint t = [] := by
        intro o' t hlt ht
        refine if_neg fun hsame => hnewest.last o' hlt ?_
        rw [endpoints, List.getElem?_map, ht, Option.map_some, hsame]
      have hgiven : givenFrom endpoint (s.give packet) = givenFrom endpoint s ++ [packet] := by
        show (if s.endpoint = endpoint then s.given ++ [packet] else []) = _
        rw [givenFrom, if_pos hendpoint, if_pos hendpoint]
      rw [flatMap_modify_last ho hgiven hlast, ← h.received endpoint]
      simp [receivedFrom]
    · have hother : givenFrom e (s.give packet) = givenFrom e s := by
        show (if s.endpoint = e then s.given ++ [packet] else []) = _
        rw [givenFrom, if_neg (hendpoint ▸ he), if_neg (hendpoint ▸ he)]
      rw [flatMap_modify_of_eq ho hother, ← h.received e]
      simp [receivedFrom, he]

/-! ## `Stop` -/

/-- `Stop` collects what is in the table. -/
theorem Inv.stop (h : Inv v) (hkept : v.phase.hasCleared = false) :
    Inv { v with
      phase := .closing (v.quicSessions.entries.map Sigma.snd)
      collected := v.objs.length } := by
  have hmem : ∀ {o : Nat}, o ∈ v.quicSessions.entries.map Sigma.snd ↔
      ∃ e, v.quicSessions.lookup e = some o := by
    intro o
    rw [List.mem_map]
    constructor
    · rintro ⟨⟨e, o'⟩, hentry, rfl⟩
      exact ⟨e, Table.lookup_eq_some_iff.mpr hentry⟩
    · rintro ⟨e, hl⟩
      exact ⟨⟨e, o⟩, Table.lookup_eq_some_iff.mp hl, rfl⟩
  refine ⟨h.orderly, fun o s ho hholds => h.alive o s ho ?_, h.newest, h.reading,
    fun _ => h.table hkept, fun _ => h.earlier hkept, Nat.le_refl _,
    fun o s ho _ hnot => h.inactive hkept ho fun hl => hnot (hmem.mpr ⟨_, hl⟩), h.received⟩
  rcases hholds with htable | hphase | hreading
  · exact Or.inl htable
  · obtain ⟨e, hl⟩ := hmem.mp hphase
    obtain ⟨t, ht, hendpoint⟩ := (h.newest e o hl).session
    rw [ho] at ht
    cases ht
    exact Or.inl (hendpoint ▸ hl)
  · exact Or.inr (Or.inr hreading)

/-- `close_session` of the next one that has been collected. -/
theorem Inv.closeNext (h : Inv v) {o : Nat} {rest : List Nat}
    (hphase : v.phase = .closing (o :: rest)) {s : ServerSession ε} (ho : v.objs[o]? = some s) :
    Inv { v.put o s.closeSession with phase := .closing rest } := by
  have hheld : v.holds o s := by
    refine Or.inr (Or.inl ?_)
    rw [hphase]
    exact List.mem_cons_self
  have hput := h.put ho
    ((h.orderly s (List.mem_of_getElem? ho)).closeSession (h.alive o s ho hheld))
  have hkept : (v.put o s.closeSession).phase.hasCleared = false := by
    show v.phase.hasCleared = false
    rw [hphase]
    rfl
  refine ⟨hput.orderly, fun o' t ht hholds => hput.alive o' t ht ?_, hput.newest, hput.reading,
    fun _ => hput.table hkept, fun _ => hput.earlier hkept, hput.bound,
    fun o' t ht hlt hnot => ?_, hput.received⟩
  · refine hholds.imp_right (Or.imp_left fun hrest => ?_)
    show o' ∈ v.phase.sessions
    rw [hphase]
    exact List.mem_cons_of_mem _ hrest
  -- `close_session` has closed it, or it is not among those that are left
  · rcases of_getElem?_modify ho ht with ⟨-, rfl⟩ | ⟨hne, hold⟩
    · exact (ServerSession.closeSession_frame s).2.2
    · refine h.collected o' t hold hlt ?_
      rw [hphase]
      exact fun hmem => (List.mem_cons.mp hmem).elim hne hnot

theorem Inv.clear (h : Inv v) (hphase : v.phase = .closing []) :
    Inv { v with quicSessions := ∅, phase := .cleared } := by
  refine ⟨h.orderly, fun o s ho hholds => h.alive o s ho ?_, fun e o hl => ?_, h.reading,
    fun hkept => (by cases hkept), fun hkept => (by cases hkept), h.bound,
    fun o s ho hlt _ => h.collected o s ho hlt ?_, h.received⟩
  · rcases hholds with htable | hnone | hreading
    · cases htable
    · cases hnone
    · exact Or.inr (Or.inr hreading)
  · cases hl
  · rw [hphase]
    exact List.not_mem_nil

theorem Inv.closeSocket (h : Inv v) (hphase : v.phase = .cleared) :
    Inv { v with phase := .stopped } := by
  refine ⟨h.orderly, fun o s ho hholds => h.alive o s ho ?_, h.newest, h.reading,
    fun hkept => (by cases hkept), fun hkept => (by cases hkept), h.bound,
    fun o s ho hlt _ => h.collected o s ho hlt ?_, h.received⟩
  · exact hholds.imp_right (Or.imp_left fun hnone => (by cases hnone))
  · rw [hphase]
    exact List.not_mem_nil

variable {decodes : List Byte → Bool}

theorem inv_step (h : Inv v) {e : Event ε} (hs : step decodes v e = some v') : Inv v' := by
  cases e with
  | receive endpoint packet =>
      rw [step] at hs
      split at hs
      · cases hs
      · cases hs
      · cases hs
        exact h.found fun r o hr hsession => (by cases hr; exact hsession)
  | accept ready =>
      rw [step] at hs
      split at hs
      · cases hs
        exact h.accept decodes _ ready
      · cases hs
  | post =>
      rw [step] at hs
      split at hs
      · rename_i hr
        cases hs
        exact h.give hr
      · cases hs
  | run o callbacks p =>
      rw [step, Option.ite_none_right_eq_some] at hs
      refine h.run (fun s ho => ?_) hs.2
      have hall := hs.1
      rw [ho, Option.all_some, Option.isNone_iff_eq_none] at hall
      exact hall
  | own o e =>
      simp only [step, Option.bind_eq_bind, Option.bind_eq_some_iff] at hs
      obtain ⟨s, ho, hs⟩ := hs
      rw [Option.ite_none_right_eq_some, Bool.and_eq_true] at hs
      obtain ⟨⟨hready, hown⟩, hs⟩ := hs
      obtain ⟨c, hstep, hs⟩ := Option.bind_eq_some_iff.mp hs
      cases hs
      exact h.put ho ((h.orderly s (List.mem_of_getElem? ho)).become hready hown hstep)
  | expire o =>
      simp only [step, Option.bind_eq_bind, Option.bind_eq_some_iff] at hs
      obtain ⟨s, ho, hs⟩ := hs
      rw [Option.ite_none_right_eq_some] at hs
      obtain ⟨⟨hnot, howning⟩, hs⟩ := hs
      obtain ⟨c, hstep, hs⟩ := Option.bind_eq_some_iff.mp hs
      cases hs
      exact h.expire ho hnot howning hstep
  | stop =>
      rw [step] at hs
      split at hs
      · rename_i hphase
        cases hs
        exact h.stop (by rw [hphase]; rfl)
      · cases hs
  | forget =>
      rw [step] at hs
      split at hs
      · obtain ⟨s, ho, rfl⟩ := Option.map_eq_some_iff.mp hs
        exact h.put ho (h.orderly s (List.mem_of_getElem? ho)).forget
      · cases hs
  | closeNext =>
      rw [step] at hs
      split at hs
      · rename_i hphase
        simp only [Option.bind_eq_bind, Option.bind_eq_some_iff] at hs
        obtain ⟨s, ho, hs⟩ := hs
        rw [Option.ite_none_left_eq_some] at hs
        obtain ⟨-, hs⟩ := hs
        cases hs
        exact h.closeNext hphase ho
      · cases hs
  | clear =>
      rw [step] at hs
      split at hs
      · rename_i hphase
        cases hs
        exact h.clear hphase
      · cases hs
  | closeSocket =>
      rw [step] at hs
      split at hs
      · rename_i hphase
        cases hs
        exact h.closeSocket hphase
      · cases hs

/-- **The QUIC sessions of a server.** Until `Stop` clears the table, it has exactly the
sessions whose `on_closed` has not run, which erases nobody else's entry, and a session is made
for an endpoint when those before it are over. One that could not be initialised stays in the
table until then, and nothing that is sent to it is read. The packets of an endpoint go to its
sessions one after the other, and when `Stop` has cleared the table, all the sessions that it
found there, and those before them, are closed. -/
theorem sessions_exact (h : Reach (step decodes) anyStep {} v) :
    (v.phase.hasCleared = false → ∀ e o, v.quicSessions.lookup e = some o ↔
      ∃ s, v.objs[o]? = some s ∧ s.endpoint = e ∧ s.closings = 0) ∧
    (∀ (o : Nat) (s : ServerSession ε), v.objs[o]? = some s →
      s.Orderly ∧
      (v.phase.hasCleared = true → o < v.collected → s.ready = true → s.closed = true) ∧
      (v.phase.hasCleared = false → s.ready = false →
        v.quicSessions.lookup s.endpoint = some o ∧ s.handled = []) ∧
      (v.phase.hasCleared = false → ∀ (o' : Nat) (s' : ServerSession ε), o < o' →
        v.objs[o']? = some s' → s.endpoint = s'.endpoint → s.closed = true ∧ s.closings = 1)) ∧
    ∀ e, v.receivedFrom e = v.objs.flatMap (givenFrom e) := by
  have hinv : Inv v := h.invariant (P := Inv) inv_init fun s e s' hs _ hstep => inv_step hs hstep
  refine ⟨fun hkept e o => (hinv.table hkept e o).trans ?_, fun o s ho => ?_, hinv.received⟩
  · rw [List.getElem?_map, Option.map_eq_some_iff]
    exact exists_congr fun s => and_congr_right fun _ => Prod.mk.injEq _ _ _ _ ▸ Iff.rfl
  have hs := List.mem_of_getElem? ho
  have hold := hinv.orderly s hs
  refine ⟨hold, fun hcleared hlt hready => ?_, fun hkept hnot => ?_,
    fun hkept o' s' hlt ho' he => ?_⟩
  -- past the loop over the sessions none is left to be closed
  · have hnone : o ∉ v.phase.sessions := by
      cases hphase : v.phase with
      | running => rw [hphase] at hcleared; cases hcleared
      | closing sessions => rw [hphase] at hcleared; cases hcleared
      | cleared => exact List.not_mem_nil
      | stopped => exact List.not_mem_nil
    have hinactive := hinv.collected o s ho hlt hnone
    rw [ServerSession.active, hready, Bool.true_and, Bool.not_eq_false'] at hinactive
    exact hinactive
  · obtain ⟨hopen, hhandled⟩ := hold.inert hnot
    have hends := hold.notified.early hopen
    exact ⟨hinv.lookup hkept ho (Nat.eq_zero_of_add_eq_zero_right hends), hhandled⟩
  -- `on_closed` of the earlier session has run, and it runs of closed sessions only
  · have hended : s.closings = 1 := by
      refine hinv.earlier hkept o o' s.endpoint s.closings s'.closings hlt ?_ ?_
      · rw [List.getElem?_map, ho]
        rfl
      · rw [List.getElem?_map, ho', he]
        rfl
    refine ⟨?_, hended⟩
    by_contra hopen
    have hends := hold.notified.early (Bool.not_eq_true _ ▸ hopen)
    rw [ServerSession.ends, hended] at hends
    omega

/-- A packet for which there is no session. -/
def first (endpoint : Nat) (packet : List Byte) : List (Event Nat) :=
  [.receive endpoint packet, .accept true, .post]

def next (endpoint : Nat) (packet : List Byte) : List (Event Nat) :=
  [.receive endpoint packet, .post]

/-- Two clients. The session of the first is closed by its peer, what comes before `on_closed`
has run is lost, and then there is a new one. Then the server stops. A third client comes after
the sessions have been collected. -/
def twoClients : List (Event Nat) :=
  first 1 [10] ++ first 2 [20] ++
    [.run 0 [.recvStreamData 0 [7] false] (some { expiry := none })] ++ next 1 [11] ++
    [.run 0 [] none] ++ next 1 [12] ++ [.run 1 [] (some { expiry := none }), .run 0 [] none] ++
    next 1 [13] ++ [.run 0 [] none, .run 0 [] none, .run 0 [] none] ++ first 1 [14] ++
    [.stop] ++ first 3 [30] ++ [.forget, .closeNext, .forget, .closeNext, .clear, .closeSocket]

/-- What is seen of a session at the end. -/
def seen (s : ServerSession Nat) : List (List Byte) × List Nat × Nat × Bool :=
  (s.handled, s.muxes, s.closings, s.closed)

theorem sessions_exact_twoClients : ∃ v : QuicServer Nat,
    v.objs.map seen = [([[10], [11]], [0], 1, true), ([[20]], [], 0, true), ([], [], 0, true),
      ([], [], 0, false)] ∧
    v.receivedFrom 1 = v.objs.flatMap (givenFrom 1) ∧
    (∀ s ∈ v.objs, s.Orderly) ∧ ∀ s, v.objs[2]? = some s → s.ready = true → s.closed = true := by
  obtain ⟨v, hreach, hobs⟩ := exists_of_runAll (step fun _ => true) twoClients
    (fun v => decide (v.objs.map seen = [([[10], [11]], [0], 1, true), ([[20]], [], 0, true),
      ([], [], 0, true), ([], [], 0, false)]) && v.phase.hasCleared && decide (2 < v.collected))
    (s := ({} : QuicServer Nat)) (a := true) (by decide +kernel)
  rw [Bool.and_eq_true, Bool.and_eq_true, decide_eq_true_eq, decide_eq_true_eq] at hobs
  obtain ⟨⟨hseen, hcleared⟩, hcollected⟩ := hobs
  obtain ⟨-, heach, hreceived⟩ := sessions_exact hreach
  refine ⟨v, hseen, hreceived 1, fun s hs => ?_, fun s ho hready => ?_⟩
  · obtain ⟨o, ho⟩ := List.getElem?_of_mem hs
    exact (heach o s ho).1
  · exact (heach 2 s ho).2.1 hcleared hcollected hready

end QuicServer

end Cfrp.Quic

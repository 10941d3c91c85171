import Cfrp.Quic.Write

/-!
# When a write completes

A handler is posted as soon as ngtcp2 has taken the last byte of its write. `Progress` is
what a turn of `do_write` can do to the queue at all, and `nothingCompletes` tells the turns
in which no call takes the last byte of a write. In those, no handler is told that its write
is complete; in every other turn one is, and the write's last bytes are then the newest that
ngtcp2 has of the stream.
-/

namespace Cfrp.Quic

universe u

namespace QuicSession

variable {β : Type u}

/-- What `do_write` may have done to a session. -/
structure Progress (s s' : QuicSession β) : Prop where
  written : s'.written = s.written
  accepted : ∀ streamId, ∃ new, s'.accepted streamId = s.accepted streamId ++ new ∧
    ∀ x ∈ new, ∃ pw ∈ s.writeQueue, pw.streamId = streamId ∧ x ∈ pw.bodies.flatten
  completed : s.completed <+: s'.completed
  queue : ∀ pw ∈ s'.writeQueue, ∃ q ∈ s.writeQueue,
    pw.bodies = q.bodies ∧ pw.streamId = q.streamId ∧ pw.handler = q.handler

theorem Progress.refl (s : QuicSession β) : Progress s s where
  written := rfl
  accepted _ := ⟨[], (List.append_nil _).symm, fun _ hx => absurd hx List.not_mem_nil⟩
  completed := List.prefix_rfl
  queue pw hpw := ⟨pw, hpw, rfl, rfl, rfl⟩

theorem Progress.trans {s₁ s₂ s₃ : QuicSession β} (h₁ : Progress s₁ s₂) (h₂ : Progress s₂ s₃) :
    Progress s₁ s₃ where
  written := h₂.written.trans h₁.written
  accepted streamId := by
    obtain ⟨new₁, heq₁, hnew₁⟩ := h₁.accepted streamId
    obtain ⟨new₂, heq₂, hnew₂⟩ := h₂.accepted streamId
    refine ⟨new₁ ++ new₂, by rw [heq₂, heq₁, List.append_assoc], fun x hx => ?_⟩
    rcases List.mem_append.mp hx with hx | hx
    · exact hnew₁ x hx
    · obtain ⟨pw, hpw, hid, hmem⟩ := hnew₂ x hx
      obtain ⟨q, hq, hbodies, hqid, -⟩ := h₁.queue pw hpw
      exact ⟨q, hq, hqid.symm.trans hid, hbodies ▸ hmem⟩
  completed := h₁.completed.trans h₂.completed
  queue pw hpw := by
    obtain ⟨p, hp, hb, hid, hh⟩ := h₂.queue pw hpw
    obtain ⟨q, hq, hb', hid', hh'⟩ := h₁.queue p hp
    exact ⟨q, hq, hb.trans hb', hid.trans hid', hh.trans hh'⟩

theorem PendingWrite.left_subset (pw : PendingWrite β) {x : β} (h : x ∈ pw.left) :
    x ∈ pw.bodies.flatten := by
  rw [PendingWrite.left_eq] at h
  exact List.mem_of_mem_drop h

theorem progress_popStale (s : QuicSession β) : Progress s s.popStale where
  written := rfl
  accepted _ := ⟨[], (List.append_nil _).symm, fun _ hx => absurd hx List.not_mem_nil⟩
  completed := List.prefix_rfl
  queue pw hpw := ⟨pw, (List.dropWhile_sublist _).subset hpw, rfl, rfl, rfl⟩

theorem progress_offer (s : QuicSession β) (pw : PendingWrite β) : Progress s (s.offer pw) where
  written := rfl
  accepted _ := ⟨[], (List.append_nil _).symm, fun _ hx => absurd hx List.not_mem_nil⟩
  completed := List.prefix_rfl
  queue p hp := ⟨p, hp, rfl, rfl, rfl⟩

theorem progress_accept {s : QuicSession β} {pw : PendingWrite β}
    {queue : List (PendingWrite β)} (hq : s.writeQueue = pw :: queue) (n : Nat) :
    Progress s (s.accept pw.streamId (pw.left.take n)) where
  written := rfl
  accepted streamId := by
    by_cases hid : streamId = pw.streamId
    · refine ⟨pw.left.take n, by rw [hid, accept_self], fun x hx => ?_⟩
      exact ⟨pw, hq ▸ List.mem_cons_self, hid.symm,
        PendingWrite.left_subset pw (List.mem_of_mem_take hx)⟩
    · exact ⟨[], by rw [accept_of_ne s _ hid, List.append_nil],
        fun x hx => absurd hx List.not_mem_nil⟩
  completed := List.prefix_rfl
  queue p hp := ⟨p, hp, rfl, rfl, rfl⟩

theorem progress_count {s : QuicSession β} {pw : PendingWrite β} {queue : List (PendingWrite β)}
    (hq : s.writeQueue = pw :: queue) (n : Nat) : Progress s (s.count pw queue n) := by
  have hrest : ∀ p ∈ queue, p ∈ s.writeQueue := fun p hp => hq ▸ List.mem_cons_of_mem _ hp
  rw [count]
  split
  · exact ⟨rfl, (Progress.refl s).accepted, List.prefix_append _ _,
      fun p hp => ⟨p, hrest p hp, rfl, rfl, rfl⟩⟩
  · refine ⟨rfl, (Progress.refl s).accepted, List.prefix_rfl, fun p hp => ?_⟩
    rcases List.mem_cons.mp hp with rfl | hp
    · exact ⟨pw, hq ▸ List.mem_cons_self, rfl, rfl, rfl⟩
    · exact ⟨p, hrest p hp, rfl, rfl, rfl⟩

theorem progress_closeSession (s : QuicSession β) : Progress s s.closeSession :=
  ⟨rfl, (Progress.refl s).accepted, List.prefix_rfl, (Progress.refl s).queue⟩

theorem progress_afterCall {s : QuicSession β} {pw : PendingWrite β}
    {queue : List (PendingWrite β)} (hq : s.writeQueue = pw :: queue) (call : Writev) :
    Progress s (s.afterCall pw queue call).1 := by
  cases call with
  | nothing => exact Progress.refl s
  | packet consumed send =>
      have haccept := progress_accept hq (pw.taken consumed)
      cases send with
      | wouldBlock => exact haccept
      | operationAborted => exact haccept
      | failed => exact haccept.trans (progress_closeSession _)
      | ok =>
          rw [afterCall]
          by_cases hpos : 0 < pw.taken consumed
          · simp only [hpos, if_true]
            exact haccept.trans (progress_count (s := s.accept pw.streamId _) hq _)
          · simp only [hpos, if_false]
            exact haccept

theorem progress_turn (s : QuicSession β) (call : Writev) : Progress s (s.turn call).1 := by
  rw [turn]
  cases hq : s.popStale.writeQueue with
  | nil => exact progress_popStale s
  | cons pw queue =>
      exact ((progress_popStale s).trans (progress_offer _ pw)).trans
        (progress_afterCall (s := s.popStale.offer pw) hq call)

theorem progress_writeLoop (calls : List Writev) (packetsSent : Nat) (s : QuicSession β) :
    Progress s (writeLoop calls packetsSent s) := by
  induction calls generalizing packetsSent s with
  | nil =>
      rw [writeLoop]
      split
      · exact Progress.refl s
      · exact progress_turn s .nothing
  | cons call calls ih =>
      rw [writeLoop]
      split
      · exact Progress.refl s
      · have hturn := progress_turn s call
        generalize s.turn call = r at hturn
        obtain ⟨s', goes⟩ := r
        cases goes with
        | false => exact hturn
        | true => exact hturn.trans (ih (packetsSent + 1) s')

/-! ## Completing a write -/

/-- The call takes the last byte of the write, and the packet is sent. -/
def completes (pw : PendingWrite β) : Writev → Bool
  | .packet consumed .ok =>
      decide (0 < pw.taken consumed) &&
        decide (pw.consumed + pw.taken consumed ≥ pw.bodies.flatten.length)
  | _ => false

/-- No call of the turn takes the last byte of a write. -/
def noneCompletes : List Writev → Nat → QuicSession β → Bool
  | [], _, _ => true
  | call :: calls, packetsSent, s =>
      if packetsSent ≥ 16 then true
      else
        (match s.popStale.writeQueue with
          | [] => true
          | pw :: _ => !completes pw call) &&
        match s.turn call with
        | (s', true) => noneCompletes calls (packetsSent + 1) s'
        | (_, false) => true

/-- No handler was told anything. -/
def Quiet (s s' : QuicSession β) : Prop := s'.completed = s.completed ∧ s'.posted = s.posted

/-- A handler was told that its write is complete, and ngtcp2 has just taken a byte of the
write, which it cannot have been told about before. -/
def Completed (s s' : QuicSession β) : Prop :=
  ∃ q ∈ s.writeQueue, ∃ pw ∈ s'.completed, pw.handler = q.handler ∧ ∃ i x,
    (s.accepted q.streamId).length ≤ i ∧ (s'.accepted q.streamId)[i]? = some x ∧
      x ∈ q.bodies.flatten

theorem quiet_or_completed_afterCall {s : QuicSession β} {pw : PendingWrite β}
    {queue : List (PendingWrite β)} (hq : s.writeQueue = pw :: queue) (call : Writev) :
    (completes pw call = false → Quiet s (s.afterCall pw queue call).1) ∧
      (completes pw call = true → Completed s (s.afterCall pw queue call).1) := by
  cases call with
  | nothing => exact ⟨fun _ => ⟨rfl, rfl⟩, fun h => absurd h Bool.false_ne_true⟩
  | packet consumed send =>
      cases send with
      | wouldBlock => exact ⟨fun _ => ⟨rfl, rfl⟩, fun h => absurd h Bool.false_ne_true⟩
      | operationAborted => exact ⟨fun _ => ⟨rfl, rfl⟩, fun h => absurd h Bool.false_ne_true⟩
      | failed => exact ⟨fun _ => ⟨rfl, rfl⟩, fun h => absurd h Bool.false_ne_true⟩
      | ok =>
          rw [afterCall, completes]
          by_cases hpos : 0 < pw.taken consumed
          · simp only [hpos, if_true, decide_true, Bool.true_and, decide_eq_false_iff_not,
              decide_eq_true_eq, count]
            constructor
            · intro hmore
              rw [if_neg hmore]
              exact ⟨rfl, rfl⟩
            · intro hdone
              rw [if_pos hdone]
              -- the first of the bytes just taken
              have hne : pw.left.take (pw.taken consumed) ≠ [] := by
                intro hnil
                have hlen := congrArg List.length hnil
                rw [List.length_take, List.length_nil,
                  Nat.min_eq_left (PendingWrite.taken_le consumed pw)] at hlen
                omega
              obtain ⟨x, xs, hx⟩ := List.exists_cons_of_ne_nil hne
              refine ⟨pw, hq ▸ List.mem_cons_self, _, List.mem_append_right _ List.mem_cons_self,
                rfl, (s.accepted pw.streamId).length, x, Nat.le_refl _, ?_, ?_⟩
              · show ((s.accept pw.streamId _).accepted pw.streamId)[_]? = some x
                rw [accept_self, hx, List.getElem?_append_right (Nat.le_refl _), Nat.sub_self]
                rfl
              · refine PendingWrite.left_subset pw
                  (List.mem_of_mem_take (i := pw.taken consumed) ?_)
                rw [hx]
                exact List.mem_cons_self
          · simp only [hpos, if_false, decide_false, Bool.false_and, Bool.false_eq_true]
            exact ⟨fun _ => ⟨rfl, rfl⟩, fun h => h.elim⟩

theorem Quiet.trans {s₁ s₂ s₃ : QuicSession β} (h₁ : Quiet s₁ s₂) (h₂ : Quiet s₂ s₃) :
    Quiet s₁ s₃ :=
  ⟨h₂.1.trans h₁.1, h₂.2.trans h₁.2⟩

/-- What was told stays told. -/
theorem Completed.later {s₁ s₂ s₃ : QuicSession β} (h : Completed s₁ s₂) (hp : Progress s₂ s₃) :
    Completed s₁ s₃ := by
  obtain ⟨q, hq, pw, hpw, hhandler, i, x, hi, hget, hx⟩ := h
  obtain ⟨new, heq, -⟩ := hp.accepted q.streamId
  refine ⟨q, hq, pw, hp.completed.subset hpw, hhandler, i, x, hi, ?_, hx⟩
  obtain ⟨hlt, -⟩ := List.getElem?_eq_some_iff.mp hget
  rw [heq, List.getElem?_append_left hlt]
  exact hget

/-- What is new now was new before. -/
theorem Completed.earlier {s₁ s₂ s₃ : QuicSession β} (hp : Progress s₁ s₂)
    (h : Completed s₂ s₃) : Completed s₁ s₃ := by
  obtain ⟨q, hq, pw, hpw, hhandler, i, x, hi, hget, hx⟩ := h
  obtain ⟨q', hq', hbodies, hid, hhandler'⟩ := hp.queue q hq
  obtain ⟨new, heq, -⟩ := hp.accepted q.streamId
  refine ⟨q', hq', pw, hpw, hhandler.trans hhandler', i, x, ?_, hid ▸ hget, hbodies ▸ hx⟩
  rw [heq, List.length_append] at hi
  rw [← hid]
  omega

theorem quiet_or_completed_turn (s : QuicSession β) (call : Writev) :
    ((match s.popStale.writeQueue with
        | [] => true
        | pw :: _ => !completes pw call) = true → Quiet s (s.turn call).1) ∧
      ((match s.popStale.writeQueue with
        | [] => true
        | pw :: _ => !completes pw call) = false → Completed s (s.turn call).1) := by
  have hpop : Quiet s s.popStale := ⟨rfl, rfl⟩
  rw [turn]
  cases hq : s.popStale.writeQueue with
  | nil => exact ⟨fun _ => hpop, fun h => absurd h.symm Bool.false_ne_true⟩
  | cons pw queue =>
      have hoffer : Quiet s (s.popStale.offer pw) := ⟨rfl, rfl⟩
      have hprogress : Progress s (s.popStale.offer pw) :=
        (progress_popStale s).trans (progress_offer _ pw)
      obtain ⟨hquiet, hdone⟩ :=
        quiet_or_completed_afterCall (s := s.popStale.offer pw) hq call
      constructor
      · intro h
        exact hoffer.trans (hquiet (by simpa using h))
      · intro h
        exact Completed.earlier hprogress (hdone (by simpa using h))

theorem quiet_or_completed_writeLoop (calls : List Writev) (packetsSent : Nat)
    (s : QuicSession β) :
    (noneCompletes calls packetsSent s = true → Quiet s (writeLoop calls packetsSent s)) ∧
      (noneCompletes calls packetsSent s = false →
        Completed s (writeLoop calls packetsSent s)) := by
  induction calls generalizing packetsSent s with
  | nil =>
      refine ⟨fun _ => ?_, fun h => absurd h.symm Bool.false_ne_true⟩
      rw [writeLoop]
      split
      · exact ⟨rfl, rfl⟩
      · refine (quiet_or_completed_turn s .nothing).1 ?_
        cases s.popStale.writeQueue <;> rfl
  | cons call calls ih =>
      rw [noneCompletes, writeLoop]
      by_cases hcap : packetsSent ≥ 16
      · rw [if_pos hcap, if_pos hcap]
        exact ⟨fun _ => ⟨rfl, rfl⟩, fun h => absurd h.symm Bool.false_ne_true⟩
      · rw [if_neg hcap, if_neg hcap]
        obtain ⟨hquiet, hdone⟩ := quiet_or_completed_turn s call
        have hprogress := progress_turn s call
        generalize s.turn call = r at hquiet hdone hprogress
        obtain ⟨s', goes⟩ := r
        -- what is completed by a turn stays so in the turns to come
        have hrest : Progress s' (match (s', goes) with
            | (s, true) => writeLoop calls (packetsSent + 1) s
            | (s, false) => s) := by
          cases goes with
          | false => exact Progress.refl s'
          | true => exact progress_writeLoop calls _ s'
        cases hcall : (match s.popStale.writeQueue with
          | [] => true
          | pw :: _ => !completes pw call) with
        | false =>
            refine ⟨fun h => absurd h Bool.false_ne_true, fun _ => ?_⟩
            exact (hdone hcall).later hrest
        | true =>
            rw [Bool.true_and]
            cases goes with
            | false => exact ⟨fun _ => hquiet hcall, fun h => absurd h.symm Bool.false_ne_true⟩
            | true =>
                obtain ⟨hquiet', hdone'⟩ := ih (packetsSent + 1) s'
                exact ⟨fun h => (hquiet hcall).trans (hquiet' h),
                  fun h => Completed.earlier hprogress (hdone' h)⟩

/-- The condition on the answers of ngtcp2 in one call of `do_write`. -/
def writesNothingOff (s : QuicSession β) (calls : List Writev) : Bool :=
  s.closedNotified || s.isWriting || noneCompletes calls 0 (s.setWriting true)

theorem progress_doWrite (s : QuicSession β) (calls : List Writev) :
    Progress s (s.doWrite calls) := by
  rw [doWrite]
  by_cases hclosed : s.closedNotified = true
  · rw [if_pos hclosed]
    exact Progress.refl s
  · by_cases hwriting : s.isWriting = true
    · rw [if_neg hclosed, if_pos hwriting]
      exact Progress.refl s
    · rw [if_neg hclosed, if_neg hwriting]
      have hloop := progress_writeLoop calls 0 (s.setWriting true)
      exact ⟨hloop.written, hloop.accepted, hloop.completed, hloop.queue⟩

/-- **Completion.** A turn of `do_write` either tells no handler anything, or it tells one that
its write is complete when ngtcp2 has only just taken the end of it. -/
theorem quiet_or_completed_doWrite (s : QuicSession β) (calls : List Writev) :
    (s.writesNothingOff calls = true → Quiet s (s.doWrite calls)) ∧
      (s.writesNothingOff calls = false → Completed s (s.doWrite calls)) := by
  rw [doWrite, writesNothingOff]
  by_cases hclosed : s.closedNotified = true
  · rw [if_pos hclosed, hclosed]
    exact ⟨fun _ => ⟨rfl, rfl⟩, fun h => absurd h.symm Bool.false_ne_true⟩
  · by_cases hwriting : s.isWriting = true
    · rw [if_neg hclosed, if_pos hwriting, hwriting, Bool.or_true]
      exact ⟨fun _ => ⟨rfl, rfl⟩, fun h => absurd h.symm Bool.false_ne_true⟩
    · rw [if_neg hclosed, if_neg hwriting, Bool.eq_false_iff.mpr hclosed,
        Bool.eq_false_iff.mpr hwriting, Bool.false_or, Bool.false_or]
      exact quiet_or_completed_writeLoop calls 0 (s.setWriting true)

end QuicSession

end Cfrp.Quic

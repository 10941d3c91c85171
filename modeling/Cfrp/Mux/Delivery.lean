import Cfrp.Mux.Runs

/-!
# What a stream delivers, and its credit

The invariant of a link, read off the two sessions: what a reader is told is a prefix of
what the writer was given, end of file comes last, and the window of a stream is always
somewhere.
-/

namespace Cfrp.Mux

open Lib Session

namespace Pair

variable {p : Pair} {x y : Bool} {i : UInt32}

theorem delivered_prefix_of_append {l l' : List Completion} :
    delivered l <+: delivered (l ++ l') := by
  rw [delivered_append]
  exact List.prefix_append _ _

/-- The direction from `x` to `y` of a stream whose reader has not closed it and whose
writer has written nothing after its own close. -/
theorem flow_of_running (h : Reach step Conforming init p) (hrun : Running p) (hxy : x ≠ y)
    (hreader : ((p.view i).ends y).stream.localClosed = false)
    (hwriter : ((p.view i).ends x).lateWrite = false) : Link.Flow (p.view i) x y :=
  (view_inv h hrun i x y hxy).flow hwriter hreader

/-! ## Delivery -/

/-- **End-to-end delivery.** On a stream whose reader has not closed it and whose writer
writes nothing after its own close, what the completed reads reported is a prefix of
what `async_write` accepted at the other end, in the order of the calls. When a read has
reported end of file, the writer has sent FIN, and everything it had sent before was
reported. -/
theorem delivery (h : Reach step Conforming init p) (hrun : Running p) (hxy : x ≠ y)
    {reader : StreamObj} (hfind : find (p y) i = some reader)
    (hreader : reader.stream.localClosed = false)
    (hwriter : ((p.view i).ends x).lateWrite = false) :
    delivered reader.reported <+: ((p.view i).ends x).accepted ∧
    ∀ c ∈ reader.reported, c.ec = .eof →
      ((p.view i).ends x).stream.localClosed = true ∧
      delivered reader.reported = ((p.view i).ends x).sent := by
  have hend : (p.view i).ends y = endOf (p y) reader := by
    show endAt (p y) i = _
    rw [endAt, hfind]
    rfl
  have hflow := flow_of_running h hrun hxy (i := i) (by rw [hend]; exact hreader) hwriter
  have hlog : ((p.view i).ends y).log = reader.reported ++ completions reader.tasks := by
    rw [hend]
    rfl
  refine ⟨?_, ?_⟩
  · refine List.IsPrefix.trans ?_ hflow.ok.delivered_prefix
    show _ <+: delivered ((p.view i).ends y).log
    rw [hlog]
    exact delivered_prefix_of_append
  · intro c hc hec
    have hmem : c ∈ ((p.view i).ends y).log := by
      rw [hlog]
      exact List.mem_append_left _ hc
    obtain ⟨hclosed, hunread⟩ := hflow.eof c hmem hec
    -- FIN was received, so it was sent
    have hsent : ((p.view i).ends x).stream.localClosed = true := by
      cases hl : ((p.view i).ends x).stream.localClosed with
      | true => rfl
      | false =>
          have hopen := ((view_inv h hrun i x y hxy).notFinished hl).2
          rw [hclosed] at hopen
          cases hopen
    refine ⟨hsent, ?_⟩
    -- nothing is on its way, nothing is buffered, and nothing is reported after end of file
    have horder := hflow.ok.inOrder
    have hall : ((p.view i).ends x).sent = delivered ((p.view i).ends y).log := by
      show (Link.channel (p.view i) x y).sent = _
      rw [horder]
      show delivered ((p.view i).ends y).log ++ ((p.view i).ends y).stream.unread ++
        dataOf ((p.view i).transit x y) = _
      rw [hunread, hflow.finished hclosed, List.append_nil, List.append_nil]
    obtain ⟨before, after, hsplit⟩ := List.append_of_mem hc
    have hlast := hflow.eofLast before c (after ++ completions reader.tasks)
      (by rw [hlog, hsplit, List.append_assoc]; rfl) hec
    rw [delivered_append] at hlast
    have htasks := (List.append_eq_nil_iff.mp hlast).2
    rw [hall, hlog, delivered_append, htasks, List.append_nil]

/-- The server reads what the client wrote before it closed the stream, and then the end
of it. -/
theorem delivery_untilFin : ∃ p : Pair, Reach step Conforming init p ∧ Running p ∧
    ∃ reader, find (p true) 1 = some reader ∧
      reader.reported = [⟨20, .success, 3, [1, 2, 3]⟩, ⟨21, .eof, 0, []⟩] ∧
      delivered reader.reported <+: ((p.view 1).ends false).accepted ∧
      delivered reader.reported = ((p.view 1).ends false).sent := by
  obtain ⟨p, hp, hobs⟩ := exists_of_runGuarded step conforming
    [.act false (.openStream true), .recv true, .act false (.asyncWrite 0 [[1, 2], [3]] 10),
      .act false (.close 0), .act false .writeOk, .recv true, .recv true, .act false .writeOk,
      .recv true, .act true (.asyncRead 0 8 20 true), .act true (.runStream 0),
      .act true (.runStream 0), .act true (.asyncRead 0 8 21 false), .act true (.runStream 0),
      .act true (.runStream 0)]
    (fun p => ((p false).stopped, (p true).stopped, ((p.view 1).ends false).lateWrite,
      (find (p true) 1).map fun reader => (reader.stream.localClosed, reader.reported)))
    (s := init)
    (a := (false, false, false,
      some (false, [⟨20, .success, 3, [1, 2, 3]⟩, ⟨21, .eof, 0, []⟩]))) rfl
  simp only [Prod.mk.injEq] at hobs
  obtain ⟨hclient, hserver, hlate, hreader⟩ := hobs
  obtain ⟨reader, hfind, hobs⟩ := Option.map_eq_some_iff.mp hreader
  obtain ⟨hopen, hreported⟩ := Prod.mk.inj hobs
  have hrun : Running p := fun x => by cases x <;> assumption
  obtain ⟨hbefore, heof⟩ := delivery hp hrun (x := false) (y := true) (by decide) hfind hopen hlate
  refine ⟨p, hp, hrun, reader, hfind, hreported, hbefore, ?_⟩
  exact (heof ⟨21, .eof, 0, []⟩ (by rw [hreported]; decide) rfl).2

/-! ## Credit -/

theorem credit_of_mem {l : List Arrival} {δ : UInt32} (h : .windowUpdate δ ∈ l) :
    δ.toNat ≤ creditOf l := by
  obtain ⟨before, after, rfl⟩ := List.append_of_mem h
  rw [creditOf_append, creditOf_windowUpdate]
  omega

/-- **The credit of a stream is conserved.** On a stream that neither side has closed,
the window of the writer, the payload on its way, what the reader has buffered and what
it has consumed and not credited, and the credit on its way back are `128 * 1024` in
all. So the buffer is bounded, a window update that arrives is never cut by the cap, the
`uint32_t` of the next one can count what there is to be consumed, and a writer whose
window is gone while nothing is on its way faces a full buffer. -/
theorem credit_conserved (h : Reach step Conforming init p) (hrun : Running p) (hxy : x ≠ y)
    (hx : ((p.view i).ends x).stream.localClosed = false)
    (hy : ((p.view i).ends y).stream.localClosed = false) :
    ((p.view i).ends x).stream.remoteWindowSize + (dataOf ((p.view i).transit x y)).length +
        ((p.view i).ends y).stream.unread.length +
        ((p.view i).ends y).stream.consumedSinceLastUpdate +
        creditOf ((p.view i).transit y x) = 131072 ∧
    ((p.view i).ends y).stream.consumedSinceLastUpdate < 32768 ∧
    ((p.view i).ends y).stream.unread.length ≤ 131072 ∧
    (∀ δ, .windowUpdate δ ∈ (p.view i).transit y x →
      min (((p.view i).ends x).stream.remoteWindowSize + δ.toNat) maxMessageSize =
        ((p.view i).ends x).stream.remoteWindowSize + δ.toNat) ∧
    (∀ n ≤ ((p.view i).ends y).stream.unread.length,
      (UInt32.ofNat (((p.view i).ends y).stream.consumedSinceLastUpdate + n)).toNat =
        ((p.view i).ends y).stream.consumedSinceLastUpdate + n) ∧
    (((p.view i).ends x).stream.remoteWindowSize = 0 → dataOf ((p.view i).transit x y) = [] →
      creditOf ((p.view i).transit y x) = 0 →
        98305 ≤ ((p.view i).ends y).stream.unread.length) := by
  have hlate : ((p.view i).ends x).lateWrite = false := by
    cases hl : ((p.view i).ends x).lateWrite with
    | false => rfl
    | true =>
        rw [(view_inv h hrun i x y hxy).lateWrite hl] at hx
        cases hx
  have hflow := flow_of_running h hrun hxy hy hlate
  have hW : initialWindowSize = 131072 := rfl
  have hM : maxMessageSize = 1048576 := rfl
  have hsmall : ((p.view i).ends y).stream.consumedSinceLastUpdate < 32768 := hflow.small
  have hcons : ((p.view i).ends x).stream.remoteWindowSize +
      (dataOf ((p.view i).transit x y)).length + ((p.view i).ends y).stream.unread.length +
      ((p.view i).ends y).stream.consumedSinceLastUpdate +
      creditOf ((p.view i).transit y x) = 131072 := hflow.ok.conserved
  refine ⟨hcons, hsmall, by omega, ?_, ?_, ?_⟩
  · intro δ hδ
    have hle := credit_of_mem hδ
    omega
  · intro n hn
    rw [UInt32.toNat_ofNat', Nat.mod_eq_of_lt (by omega)]
  · intro hw ht hc
    rw [hw, ht, hc, List.length_nil] at hcons
    omega

/-- Three bytes are on their way to the server. -/
theorem credit_conserved_inFlight : ∃ p : Pair, Reach step Conforming init p ∧ Running p ∧
    ((p.view 1).ends false).stream.remoteWindowSize = 131069 ∧
    ((p.view 1).ends false).stream.remoteWindowSize +
        (dataOf ((p.view 1).transit false true)).length +
        ((p.view 1).ends true).stream.unread.length +
        ((p.view 1).ends true).stream.consumedSinceLastUpdate +
        creditOf ((p.view 1).transit true false) = 131072 := by
  obtain ⟨p, hp, hobs⟩ := exists_of_runGuarded step conforming
    [.act false (.openStream true), .recv true, .act false (.asyncWrite 0 [[1, 2], [3]] 10)]
    (fun p => ((p false).stopped, (p true).stopped, ((p.view 1).ends false).stream.localClosed,
      ((p.view 1).ends true).stream.localClosed,
      ((p.view 1).ends false).stream.remoteWindowSize))
    (s := init) (a := (false, false, false, false, 131069)) rfl
  simp only [Prod.mk.injEq] at hobs
  obtain ⟨hclient, hserver, hx, hy, hw⟩ := hobs
  have hrun : Running p := fun x => by cases x <;> assumption
  exact ⟨p, hp, hrun, hw, (credit_conserved hp hrun (x := false) (y := true) (by decide) hx hy).1⟩

end Pair

end Cfrp.Mux

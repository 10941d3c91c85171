import Cfrp.Mux.LinkInv
import Cfrp.Mux.Receive

/-!
# A pair of sessions, one stream at a time

Besides what holds of each session, a pair keeps the order in which a stream is
introduced: what a session sends about a stream the other does not know yet starts with
one SYN. From that, every step of a running pair is for each stream identifier either
one step of its link or nothing: `step_view`.
-/

namespace Cfrp.Mux

open Lib Session

namespace Pair

/-! ## Introductions -/

/-- The frame says something to the stream `i`. -/
def Speaks (i : UInt32) (f : Header × List Byte) : Prop := f.1.streamId = i ∧ arrivals f.1 f.2 ≠ []

def IsSyn (i : UInt32) (f : Header × List Byte) : Prop := f.1 = (synFrame i).header

def NoSyn (i : UInt32) (fs : List (Header × List Byte)) : Prop := ∀ f ∈ fs, ¬IsSyn i f

def Silent (i : UInt32) (fs : List (Header × List Byte)) : Prop :=
  ∀ f ∈ fs, ¬Speaks i f ∧ ¬IsSyn i f

/-- The first frame about the stream `i` is its SYN, and there is one SYN only. -/
def Introduces (i : UInt32) : List (Header × List Byte) → Prop
  | [] => False
  | f :: fs => IsSyn i f ∧ NoSyn i fs ∨ (¬IsSyn i f ∧ ¬Speaks i f) ∧ Introduces i fs

variable {i : UInt32} {l l' m : List (Header × List Byte)}

theorem Silent.noSyn (h : Silent i l) : NoSyn i l := fun f hf => (h f hf).2

theorem noSyn_append : NoSyn i (l ++ l') ↔ NoSyn i l ∧ NoSyn i l' := List.forall_mem_append

theorem silent_append : Silent i (l ++ l') ↔ Silent i l ∧ Silent i l' := List.forall_mem_append

/-- Without a SYN behind it, the introduction happens in the first part. -/
theorem introduces_append (h' : NoSyn i l') : Introduces i (l ++ l') ↔ Introduces i l := by
  induction l with
  | nil =>
      refine ⟨fun h => ?_, False.elim⟩
      induction l' with
      | nil => exact h
      | cons f l' ih =>
          rcases h with ⟨hf, -⟩ | ⟨-, h⟩
          · exact h' f List.mem_cons_self hf
          · exact ih (fun g hg => h' g (List.mem_cons_of_mem _ hg)) h
  | cons f l ih =>
      show (_ ∧ NoSyn i (l ++ l') ∨ _ ∧ Introduces i (l ++ l')) ↔
        (_ ∧ NoSyn i l ∨ _ ∧ Introduces i l)
      rw [ih, noSyn_append]
      simp [h']

/-- Frames about other streams do not matter. -/
theorem Introduces.insert (h : Introduces i (l ++ l')) (hm : Silent i m) :
    Introduces i (l ++ m ++ l') := by
  induction l with
  | nil =>
      induction m with
      | nil => exact h
      | cons f m ih =>
          have hf := hm f List.mem_cons_self
          exact Or.inr ⟨⟨hf.2, hf.1⟩, ih fun g hg => hm g (List.mem_cons_of_mem _ hg)⟩
  | cons f l ih =>
      rcases h with ⟨hf, hl⟩ | ⟨hf, hl⟩
      · obtain ⟨hl, hl'⟩ := noSyn_append.mp hl
        refine Or.inl ⟨hf, ?_⟩
        show NoSyn i (l ++ m ++ l')
        rw [noSyn_append, noSyn_append]
        exact ⟨⟨hl, hm.noSyn⟩, hl'⟩
      · exact Or.inr ⟨hf, ih hl⟩

/-- A SYN after silence is an introduction. -/
theorem introduces_syn {f : Header × List Byte} (h : Silent i l) (hf : IsSyn i f) :
    Introduces i (l ++ [f]) := by
  induction l with
  | nil => exact Or.inl ⟨hf, fun g hg => by cases hg⟩
  | cons g l ih =>
      have hg := h g List.mem_cons_self
      exact Or.inr ⟨⟨hg.2, hg.1⟩, ih fun g hg => h g (List.mem_cons_of_mem _ hg)⟩

/-! ## What frames say -/

theorem said_append (i : UInt32) : said (l ++ l') i = said l i ++ said l' i := by
  rw [said, List.filter_append, List.flatMap_append]
  rfl

theorem said_of_silent (h : Silent i l) : said l i = [] := by
  rw [said, List.flatMap_eq_nil_iff]
  intro f hf
  rw [List.mem_filter] at hf
  by_contra hne
  exact (h f hf.1).1 ⟨by simpa using hf.2, hne⟩

/-- The frames of a stream, as its peer receives them. -/
def received (fs : List Frame) : List (Header × List Byte) := fs.map fun f => (f.header, f.body)

theorem streamFrame_noSyn {id : UInt32} {f : Frame} (h : StreamFrame id f) (i : UInt32) :
    ¬IsSyn i (f.header, f.body) := by
  intro hsyn
  have hflags : f.header.flags = Flags.syn := congrArg Header.flags hsyn
  have htype : f.header.type = FrameType.data := congrArg Header.type hsyn
  cases h with
  | data bufs _ _ => exact absurd hflags (by show (0 : UInt16) ≠ 1; decide)
  | fin => exact absurd hflags (by show (4 : UInt16) ≠ 1; decide)
  | windowUpdate n => exact absurd htype (by show (1 : UInt8) ≠ 0; decide)

theorem noSyn_received {id : UInt32} {fs : List Frame} (h : ∀ f ∈ fs, StreamFrame id f)
    (i : UInt32) : NoSyn i (received fs) := by
  intro f hf
  obtain ⟨g, hg, rfl⟩ := List.mem_map.mp hf
  exact streamFrame_noSyn (h g hg) i

theorem silent_received {id : UInt32} {fs : List Frame} (h : ∀ f ∈ fs, StreamFrame id f)
    (hne : i ≠ id) : Silent i (received fs) := by
  intro f hf
  obtain ⟨g, hg, rfl⟩ := List.mem_map.mp hf
  refine ⟨fun hs => hne ?_, streamFrame_noSyn (h g hg) i⟩
  exact hs.1.symm.trans (StreamFrame.arrivals_eq (h g hg)).1

theorem said_received {id : UInt32} {fs : List Frame} (h : ∀ f ∈ fs, StreamFrame id f) :
    said (received fs) id = fs.flatMap Frame.arrivals := by
  induction fs with
  | nil => rfl
  | cons f fs ih =>
      have hid := (StreamFrame.arrivals_eq (h f List.mem_cons_self)).1
      have hcons : received (f :: fs) = [(f.header, f.body)] ++ received fs := rfl
      have hone : said [(f.header, f.body)] id = f.arrivals := by
        simp [said, hid, Frame.arrivals]
      rw [hcons, said_append, hone, ih fun g hg => h g (List.mem_cons_of_mem _ hg)]
      rfl

theorem control_not_speaks {f : Frame} (h : ControlFrame f) (i : UInt32) :
    ¬Speaks i (f.header, f.body) := fun hs => hs.2 (ControlFrame.arrivals_eq h)

/-- A control frame that is not the SYN of a stream says nothing about it. -/
theorem silent_control {f : Frame} (h : ControlFrame f) (hne : f.header ≠ (synFrame i).header) :
    Silent i [(f.header, f.body)] := by
  intro g hg
  rw [List.mem_singleton.mp hg]
  exact ⟨control_not_speaks h i, hne⟩

theorem ack_ne_syn (id i : UInt32) : (ackFrame id).header ≠ (synFrame i).header := fun h =>
  absurd (congrArg Header.flags h) (by show (2 : UInt16) ≠ 1; decide)

theorem ping_ne_syn (i : UInt32) : pingFrame.header ≠ (synFrame i).header := fun h =>
  absurd (congrArg Header.type h) (by show (2 : UInt8) ≠ 0; decide)

theorem pong_ne_syn (i : UInt32) : pongFrame.header ≠ (synFrame i).header := fun h =>
  absurd (congrArg Header.type h) (by show (2 : UInt8) ≠ 0; decide)

section

variable {r : Reading} {s : Session}

theorem mem_postedFrames {f : Header × List Byte} (h : f ∈ postedFrames s) :
    ∃ pw, .sendFrame pw ∈ s.posted ∧ asReceived pw = f := by
  obtain ⟨t, ht, hf⟩ := List.mem_filterMap.mp h
  cases t with
  | sendFrame pw => exact ⟨pw, ht, Option.some.inj hf⟩
  | stop => cases hf

/-- What is posted says nothing to a stream. -/
theorem Half.said_posted (h : Half r s) (i : UInt32) : said (postedFrames s) i = [] := by
  rw [said, List.flatMap_eq_nil_iff]
  intro f hf
  rw [List.mem_filter] at hf
  obtain ⟨pw, hpw, rfl⟩ := mem_postedFrames hf.1
  exact ControlFrame.arrivals_eq (h.posted pw hpw)

theorem noSyn_posted (h : s.synPosted i = false) : NoSyn i (postedFrames s) := by
  intro f hf hsyn
  obtain ⟨pw, hpw, rfl⟩ := mem_postedFrames hf
  have hheader : pw.frame.header = (synFrame i).header := hsyn
  rw [synPosted, List.any_eq_false] at h
  have hpost := h _ hpw
  simp only [hheader] at hpost
  exact hpost (by simp [synFrame])

end

/-! ## The invariant -/

/-- The parity of the stream identifiers a side gives out. -/
def parity (x : Bool) : Nat := if x then 0 else 1

/-- **The invariant of a running pair.** -/
structure PairInv (p : Pair) : Prop where
  half : ∀ x, Half (p !x).reading (p x)
  next : ∀ x, (p x).nextStreamId.toNat % 2 = parity x
  unknown : ∀ x i, find (p x) i = none → Silent i (p.inFlight x)
  both : ∀ x i, find (p x) i ≠ none → find (p !x) i ≠ none → NoSyn i (p.inFlight x)
  new : ∀ x i, find (p x) i ≠ none → find (p !x) i = none →
    Introduces i (p.inFlight x) ∧ i.toNat % 2 = parity x

variable {p : Pair} {x : Bool} {s' : Session}

theorem not_ne_self (x : Bool) : (!x) ≠ x := by simp

/-- What holds of a side and of the other one. -/
theorem forall_side {P : Bool → Prop} (x : Bool) (hself : P x) (hnot : P !x) (y : Bool) : P y := by
  by_cases hy : y = x
  · exact hy ▸ hself
  · exact Bool.eq_not_of_ne hy ▸ hnot

theorem update_self' : Function.update p x s' x = s' := Function.update_self ..

theorem update_not : Function.update p x s' (!x) = p !x := Function.update_of_ne (not_ne_self x) ..

/-- The frames that the session `s'` in the place of `x` would have in flight. -/
def flightOf (p : Pair) (x : Bool) (s' : Session) : List (Header × List Byte) :=
  flight (p !x).reading s' ++ postedFrames s'

theorem inFlight_update_self : inFlight (Function.update p x s') x = flightOf p x s' := by
  rw [inFlight, update_self', update_not]
  rfl

theorem inFlight_update_not (hreading : s'.reading = (p x).reading) :
    inFlight (Function.update p x s') (!x) = inFlight p !x := by
  rw [inFlight, inFlight, Bool.not_not, update_self', update_not, hreading]

/-- A change of one session that says nothing new about streams it does not have, and no
SYN. `m` is what it sends, between what it had sent and what it has posted. -/
theorem PairInv.local (h : PairInv p) (hhalf : Half (p !x).reading s')
    (hreading : s'.reading = (p x).reading) (hnext : s'.nextStreamId = (p x).nextStreamId)
    (hfind : ∀ i, find s' i = none ↔ find (p x) i = none) {a m b : List (Header × List Byte)}
    (hold : p.inFlight x = a ++ b) (hflight : flightOf p x s' = a ++ m ++ b)
    (hm : ∀ i, Silent i m ∨ find (p x) i ≠ none ∧ NoSyn i m ∧ NoSyn i b) :
    PairInv (Function.update p x s') := by
  have hother : Half s'.reading (p !x) := by
    rw [hreading]
    have hh := h.half !x
    rwa [Bool.not_not] at hh
  have hfind' : ∀ y i, find (Function.update p x s' y) i = none ↔ find (p y) i = none := by
    refine forall_side x (fun i => ?_) fun i => ?_
    · rw [update_self']
      exact hfind i
    · rw [update_not]
  have hin : inFlight (Function.update p x s') (!x) = p.inFlight !x := inFlight_update_not hreading
  constructor
  case half =>
    refine forall_side x ?_ ?_
    · rw [update_self', update_not]
      exact hhalf
    · rw [Bool.not_not, update_self', update_not]
      exact hother
  case next =>
    refine forall_side x ?_ ?_
    · rw [update_self', hnext]
      exact h.next x
    · rw [update_not]
      exact h.next !x
  case unknown =>
    refine forall_side x (fun i hnone => ?_) fun i hnone => ?_
    · rw [hfind'] at hnone
      rw [inFlight_update_self, hflight]
      have hs := h.unknown x i hnone
      rw [hold, silent_append] at hs
      rw [silent_append, silent_append]
      rcases hm i with hmi | ⟨hne, -, -⟩
      · exact ⟨⟨hs.1, hmi⟩, hs.2⟩
      · exact absurd hnone hne
    · rw [hfind'] at hnone
      rw [hin]
      exact h.unknown (!x) i hnone
  case both =>
    refine forall_side x (fun i h1 h2 => ?_) fun i h1 h2 => ?_
    · rw [Ne, hfind'] at h1 h2
      rw [inFlight_update_self, hflight]
      have hs := h.both x i h1 h2
      rw [hold, noSyn_append] at hs
      rw [noSyn_append, noSyn_append]
      rcases hm i with hmi | ⟨-, hmi, -⟩
      · exact ⟨⟨hs.1, hmi.noSyn⟩, hs.2⟩
      · exact ⟨⟨hs.1, hmi⟩, hs.2⟩
    · rw [Ne, hfind'] at h1 h2
      rw [hin]
      exact h.both (!x) i h1 h2
  case new =>
    refine forall_side x (fun i h1 h2 => ?_) fun i h1 h2 => ?_
    · rw [Ne, hfind'] at h1
      rw [hfind'] at h2
      rw [inFlight_update_self, hflight]
      obtain ⟨hs, hpar⟩ := h.new x i h1 h2
      rw [hold] at hs
      refine ⟨?_, hpar⟩
      rcases hm i with hmi | ⟨-, hmi, hb⟩
      · exact hs.insert hmi
      · -- the SYN of the stream is before what was sent now
        rw [introduces_append hb] at hs
        rw [introduces_append hb, introduces_append hmi]
        exact hs
    · rw [Ne, hfind'] at h1
      rw [hfind'] at h2
      rw [hin]
      exact h.new (!x) i h1 h2

/-- What is seen of a stream when one session changes. -/
theorem view_update (hreading : s'.reading = (p x).reading) (i : UInt32) :
    view (Function.update p x s') i =
      { ends := Function.update (p.view i).ends x (endAt s' i)
        pipe := Function.update (p.view i).pipe x (said (flightOf p x s') i) } := by
  have hends : (view (Function.update p x s') i).ends =
      Function.update (p.view i).ends x (endAt s' i) := by
    funext y
    by_cases hy : y = x
    · rw [hy, Function.update_self]
      show endAt (Function.update p x s' x) i = _
      rw [update_self']
    · rw [Function.update_of_ne hy]
      show endAt (Function.update p x s' y) i = endAt (p y) i
      rw [Function.update_of_ne hy]
  have hpipe : (view (Function.update p x s') i).pipe =
      Function.update (p.view i).pipe x (said (flightOf p x s') i) := by
    funext y
    by_cases hy : y = x
    · rw [hy, Function.update_self]
      show said (inFlight (Function.update p x s') x) i = _
      rw [inFlight_update_self]
    · rw [Function.update_of_ne hy]
      show said (inFlight (Function.update p x s') y) i = said (p.inFlight y) i
      rw [Bool.eq_not_of_ne hy, inFlight_update_not hreading]
  rw [← hends, ← hpipe]

/-- A change that cannot be seen. -/
theorem view_same (hreading : s'.reading = (p x).reading) {i : UInt32}
    (hend : endAt s' i = endAt (p x) i)
    (hsaid : said (flightOf p x s') i = said (p.inFlight x) i) :
    view (Function.update p x s') i = p.view i := by
  rw [view_update hreading, hend, hsaid]
  have hends : Function.update (p.view i).ends x (endAt (p x) i) = (p.view i).ends :=
    Function.update_eq_self x (p.view i).ends
  have hpipe : Function.update (p.view i).pipe x (said (p.inFlight x) i) = (p.view i).pipe :=
    Function.update_eq_self x (p.view i).pipe
  rw [hends, hpipe]

/-! ## Steps of one object -/

variable {o : Nat} {obj : StreamObj}

theorem PairInv.find_eq (h : PairInv p) (ho : (p x).objs[o]? = some obj) :
    find (p x) obj.id = some obj := (h.half x).find_eq ho

theorem PairInv.end_eq (h : PairInv p) (ho : (p x).objs[o]? = some obj) :
    (p.view obj.id).ends x = endOf (p x) obj := by
  show endAt (p x) obj.id = _
  rw [endAt, h.find_eq ho]
  rfl

/-- A session with another history. -/
def withHistory (s : Session) (submitted : List Handler) (invoked : List Completion) : Session :=
  { s with submitted, invoked }

/-- A change of an object that sends nothing, and of the history of its session. -/
theorem PairInv.modify (h : PairInv p) (ho : (p x).objs[o]? = some obj)
    {f : StreamObj → StreamObj} (hid : (f obj).id = obj.id)
    (hfail : ∀ ec, .failWrites ec ∉ (f obj).tasks)
    (hquiet : (p x).synPosted obj.id = true → (f obj).tasks = []) (sub : List Handler)
    (inv : List Completion) :
    PairInv (Function.update p x (withHistory ((p x).modifyObj o f) sub inv)) ∧
    ∀ i, view (Function.update p x (withHistory ((p x).modifyObj o f) sub inv)) i =
      if i = obj.id then (p.view i).setEnd x (endOf (p x) (f obj)) else p.view i := by
  have hh := h.half x
  have hmod := hh.modify ho hid hfail hquiet
  have hhalf : Half (p !x).reading (withHistory ((p x).modifyObj o f) sub inv) :=
    ⟨hmod.alive, hmod.running, ⟨hmod.output.isWriting, hmod.output.busy, hmod.output.idle,
      hmod.output.queued, hmod.output.wire⟩, hmod.nodup, hmod.table, hmod.posted, hmod.noFail,
      hmod.quiet⟩
  have hreading : (withHistory ((p x).modifyObj o f) sub inv).reading = (p x).reading := rfl
  have hfind : ∀ i, find (withHistory ((p x).modifyObj o f) sub inv) i = none ↔
      find (p x) i = none := by
    intro i
    show find ((p x).modifyObj o f) i = none ↔ _
    rw [find_modify hh ho hid i]
    split
    · rename_i hi
      rw [hi, hh.find_eq ho]
      simp
    · exact Iff.rfl
  -- nothing is sent, so both views change in this end only
  have hflight : flightOf p x (withHistory ((p x).modifyObj o f) sub inv) = p.inFlight x := rfl
  refine ⟨?_, fun i => ?_⟩
  · refine h.local (a := p.inFlight x) (m := []) (b := []) hhalf hreading rfl hfind (by simp)
      (by rw [hflight]; simp) fun i => Or.inl ?_
    intro f hf
    cases hf
  · have hend : endAt (withHistory ((p x).modifyObj o f) sub inv) i =
        if i = obj.id then endOf (p x) (f obj) else endAt (p x) i := endAt_modify hh ho hid i
    split
    · rename_i hi
      rw [if_pos hi] at hend
      have hpipe : Function.update (p.view i).pipe x (said (p.inFlight x) i) = (p.view i).pipe :=
        Function.update_eq_self x (p.view i).pipe
      rw [view_update hreading, hend, hflight, hpipe]
      rfl
    · rename_i hi
      rw [if_neg hi] at hend
      exact view_same hreading hend (by rw [hflight])

/-- An operation of a stream is an operation of its end of the link. -/
theorem PairInv.perform (h : PairInv p) (ho : (p x).objs[o]? = some obj)
    {res : MuxStream × List Effect} (hop : StreamOp obj.id res)
    (hcalled : (p x).synPosted obj.id = false) :
    PairInv (Function.update p x ((p x).perform o res)) ∧
    ∀ i, view (Function.update p x ((p x).perform o res)) i =
      if i = obj.id then (p.view i).perform x res else p.view i := by
  have hh := h.half x
  obtain ⟨hhalf, hflight⟩ := hh.perform ho hop hcalled
  have hsame := perform_same (p x) o res
  have hfind : ∀ i, find ((p x).perform o res) i = none ↔ find (p x) i = none := by
    intro i
    rw [find_perform hh ho hop i]
    split
    · rename_i hi
      rw [hi, hh.find_eq ho]
      simp
    · exact Iff.rfl
  -- what is sent comes behind what is in flight, and before what is posted
  have hout : flightOf p x ((p x).perform o res) =
      flight (p !x).reading (p x) ++ received (frames res.2) ++ postedFrames (p x) := by
    rw [flightOf, hflight, postedFrames, perform_posted]
    rfl
  refine ⟨?_, ?_⟩
  · refine h.local hhalf hsame.reading hsame.nextStreamId hfind rfl hout fun i => ?_
    by_cases hi : i = obj.id
    · subst hi
      exact Or.inr ⟨by rw [hh.find_eq ho]; simp, noSyn_received hop.frames _, noSyn_posted hcalled⟩
    · exact Or.inl (silent_received hop.frames hi)
  · intro i
    have hsaid : said (flightOf p x ((p x).perform o res)) i =
        said (p.inFlight x) i ++ said (received (frames res.2)) i := by
      rw [hout, said_append, said_append, inFlight, said_append, hh.said_posted]
      simp
    have hend := endAt_perform hh ho hop i
    split
    · rename_i hi
      subst hi
      rw [if_pos rfl] at hend
      rw [view_update hsame.reading, hend, hsaid, said_received hop.frames,
        Link.perform, h.end_eq ho]
      rfl
    · rename_i hi
      rw [if_neg hi] at hend
      refine view_same hsame.reading hend ?_
      rw [hsaid, said_of_silent (silent_received hop.frames hi), List.append_nil]

end Pair

end Cfrp.Mux

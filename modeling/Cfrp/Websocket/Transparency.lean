import Cfrp.Websocket.Sound

/-!
# WebSocket transparency

What a stream hands to its transport is whole frames. When what comes from the transport
is a sequence of acceptable frames, the reader follows it frame by frame (`Follows`): it
delivers the data payloads and nothing else, and posts a pong for every ping.
-/

namespace Cfrp.Websocket

open Lib
open Mux (maxMessageSize)

/-! ## Inside a frame -/

namespace Awaiting

/-- What has been read of the frame before. -/
def front (f : Frame) : Awaiting → List Byte
  | .header => []
  | .ext16 _ _ => [f.first, f.second]
  | .ext64 _ _ => [f.first, f.second]
  | .payload _ _ _ => [f.first, f.second] ++ f.extended

/-- What is read of it now. -/
def now (f : Frame) : Awaiting → List Byte
  | .header => [f.first, f.second]
  | .ext16 _ _ => f.extended
  | .ext64 _ _ => f.extended
  | .payload _ _ _ => f.body

/-- What the reader knows of the frame is right. -/
def Of (f : Frame) : Awaiting → Prop
  | .header => True
  | .ext16 opcode masked => opcode = f.opcode ∧ masked = f.mask.isSome ∧ f.form = .ext16
  | .ext64 opcode masked => opcode = f.opcode ∧ masked = f.mask.isSome ∧ f.form = .ext64
  | .payload opcode masked len =>
      opcode = f.opcode ∧ masked = f.mask.isSome ∧ len = f.payload.length

theorem size_of {f : Frame} {a : Awaiting} (h : a.Of f) : (a.now f).length = a.size := by
  cases a with
  | header => rfl
  | ext16 opcode masked =>
      show f.extended.length = 2
      rw [Frame.extended, h.2.2]
      exact length_be 2 _
  | ext64 opcode masked =>
      show f.extended.length = 8
      rw [Frame.extended, h.2.2]
      exact length_be 8 _
  | payload opcode masked len =>
      obtain ⟨-, rfl, rfl⟩ := h
      exact f.length_body

/-- Front and next read are at the beginning of the frame. -/
theorem front_now (f : Frame) (a : Awaiting) : ∃ l, f.bytes = a.front f ++ (a.now f ++ l) := by
  cases a with
  | header => exact ⟨_, rfl⟩
  | ext16 opcode masked => exact ⟨_, rfl⟩
  | ext64 opcode masked => exact ⟨_, rfl⟩
  | payload opcode masked len =>
      refine ⟨[], ?_⟩
      show _ = [f.first, f.second] ++ f.extended ++ (f.body ++ [])
      rw [List.append_nil, List.append_assoc]
      rfl

end Awaiting

theorem Frame.Fits.code_lt {f : Frame} (hfits : f.Fits) : f.lengthCode < 128 := by
  unfold Frame.Fits at hfits
  unfold Frame.lengthCode
  cases hform : f.form with
  | short =>
      rw [hform] at hfits
      rw [UInt8.lt_iff_toNat_lt]
      show f.payload.length % 256 < 128
      omega
  | ext16 =>
      show (126 : Byte) < 128
      decide
  | ext64 =>
      show (127 : Byte) < 128
      decide

theorem split_prefix {α : Type} {l a b : List α} (h : l <+: a ++ b) (hlen : a.length ≤ l.length) :
    ∃ m, l = a ++ m ∧ m <+: b := by
  obtain ⟨m, rfl⟩ := List.prefix_of_prefix_length_le (List.prefix_append a b) h hlen
  exact ⟨m, rfl, (List.prefix_append_right_inj a).mp h⟩

namespace Stream

variable {s s' : Stream} {op : ReadOp} {f : Frame} {fs done rest : List Frame} {a : Awaiting}

/-! ## The handlers on the bytes of a frame -/

theorem nextStep_of_size (masked : Bool) (opcode : Byte) {len : Nat} (h : len ≤ maxMessageSize) :
    s.nextStep opcode masked len = { s with awaiting := some (.payload opcode masked len) } := by
  rw [nextStep, if_neg (Nat.not_lt.mpr h)]

/-- The two bytes of the header. Only a short form says the length there and then. -/
theorem onRead_head (hfits : f.Fits)
    (hcontrol : f.isData = false → f.fin = true ∧ f.form = .short) :
    s.onRead [f.first, f.second] .header =
      match f.form with
      | .short => s.nextStep f.opcode f.mask.isSome f.payload.length
      | .ext16 => { s with awaiting := some (.ext16 f.opcode f.mask.isSome) }
      | .ext64 => { s with awaiting := some (.ext64 f.opcode f.mask.isSome) } := by
  have hcode := hfits.code_lt
  unfold Frame.Fits at hfits
  have hmasked : decide (f.second &&& 0x80 ≠ 0) = f.mask.isSome := by
    rw [Bool.eq_iff_iff, decide_eq_true_iff]
    exact f.second_and_mask hcode
  -- the reader turns away long or fragmented control frames only
  have hpass : ¬ (f.opcode ≥ 0x08 ∧ (f.fin = false ∨ f.lengthCode > 125)) := by
    rintro ⟨hop, hbad⟩
    have hdata : f.isData = false := decide_eq_false (UInt8.not_lt.mpr hop)
    obtain ⟨hfin, hform⟩ := hcontrol hdata
    rw [hform] at hfits
    rcases hbad with hbad | hbad
    · rw [hfin] at hbad
      cases hbad
    · rw [Frame.lengthCode, hform] at hbad
      have hlt : 125 < f.payload.length % 256 := UInt8.lt_iff_toNat_lt.mp hbad
      have hle : f.payload.length ≤ 125 := hfits
      omega
  have hread : s.onRead [f.first, f.second] .header =
      if f.opcode ≥ 0x08 ∧ (f.fin = false ∨ f.lengthCode > 125) then s.close.fail .noBufferSpace
      else if f.lengthCode = 126 then { s with awaiting := some (.ext16 f.opcode f.mask.isSome) }
      else if f.lengthCode = 127 then { s with awaiting := some (.ext64 f.opcode f.mask.isSome) }
      else s.nextStep f.opcode f.mask.isSome f.lengthCode.toNat := by
    rw [← hmasked, ← f.second_and_code hcode]
    rfl
  rw [hread, if_neg hpass]
  cases hform : f.form with
  | short =>
      have hle : f.payload.length ≤ 125 := by
        rw [hform] at hfits
        exact hfits
      have hnat : f.lengthCode.toNat = f.payload.length := by
        rw [Frame.lengthCode, hform]
        exact Nat.mod_eq_of_lt (by omega)
      have hne {c : Byte} (hc : 125 < c.toNat) : f.lengthCode ≠ c := by
        rintro rfl
        omega
      rw [if_neg (hne (by decide)), if_neg (hne (by decide)), hnat]
  | ext16 =>
      have hc : f.lengthCode = 126 := by rw [Frame.lengthCode, hform]
      rw [if_pos hc]
  | ext64 =>
      have hc : f.lengthCode = 127 := by rw [Frame.lengthCode, hform]
      rw [if_neg (by rw [hc]; decide), if_pos hc]

/-- The extended length, when there is one. -/
theorem onRead_length (hfits : f.Fits)
    (ha : a = .ext16 f.opcode f.mask.isSome ∧ f.form = .ext16 ∨
      a = .ext64 f.opcode f.mask.isSome ∧ f.form = .ext64) :
    s.onRead f.extended a = s.nextStep f.opcode f.mask.isSome f.payload.length := by
  unfold Frame.Fits at hfits
  rcases ha with ⟨rfl, hform⟩ | ⟨rfl, hform⟩
  · rw [hform] at hfits
    rw [onRead, Frame.extended, hform]
    have hle : f.payload.length ≤ 65535 := hfits
    rw [ofBE_be (show f.payload.length < 256 ^ 2 by omega)]
  · rw [hform] at hfits
    rw [onRead, Frame.extended, hform]
    have hlt : f.payload.length < 2 ^ 64 := hfits
    rw [ofBE_be (show f.payload.length < 256 ^ 8 by omega)]

/-- The header and the extended length tell the next read what to expect. -/
theorem onRead_header (h : f.Acceptable) :
    ∃ a', a'.Of f ∧ a'.front f = [f.first, f.second] ∧
      s.onRead [f.first, f.second] .header = { s with awaiting := some a' } := by
  rw [onRead_head h.fits fun hdata => (h.control hdata).2]
  cases hform : f.form with
  | short =>
      rw [nextStep_of_size _ _ h.size]
      refine ⟨.payload f.opcode f.mask.isSome f.payload.length, ⟨rfl, rfl, rfl⟩, ?_, rfl⟩
      rw [Awaiting.front, Frame.extended, hform]
      exact List.append_nil _
  | ext16 => exact ⟨.ext16 f.opcode f.mask.isSome, ⟨rfl, rfl, hform⟩, rfl, rfl⟩
  | ext64 => exact ⟨.ext64 f.opcode f.mask.isSome, ⟨rfl, rfl, hform⟩, rfl, rfl⟩

theorem onRead_extended (h : f.Acceptable)
    (ha : a = .ext16 f.opcode f.mask.isSome ∧ f.form = .ext16 ∨
      a = .ext64 f.opcode f.mask.isSome ∧ f.form = .ext64) :
    s.onRead f.extended a =
      { s with awaiting := some (.payload f.opcode f.mask.isSome f.payload.length) } := by
  rw [onRead_length h.fits ha, nextStep_of_size _ _ h.size]

/-- The mask comes off. -/
theorem unmasked_body (f : Frame) : unmasked f.mask.isSome f.body = f.payload := by
  unfold unmasked Frame.body Frame.maskBytes Frame.masked
  cases f.mask with
  | none => rfl
  | some m =>
      simp only [Option.isSome_some, if_true]
      rw [Mask.ofBytes_append]
      exact m.apply_apply f.payload

/-- The end of a frame: what the reader does with it, and what it has taken then. -/
theorem Running.onBody (h : Running s op) (hf : f.Acceptable) :
    ∃ s₁ js, Answered s₁ op (s.onRead f.body (.payload f.opcode f.mask.isSome f.payload.length)) ∧
      s₁.outside = { s.outside with posted := s.posted ++ js, accepted := s.accepted ++ js } ∧
      pongsBy js = pings [f] ∧ s₁.reads = s.reads ∧ s₁.leftover = payloads [f] := by
  have hsize : f.body.length = f.payload.length + if f.mask.isSome then 4 else 0 := f.length_body
  cases hdata : f.isData with
  | true =>
      have hlt : f.opcode < 0x08 := of_decide_eq_true hdata
      have hne {c : Byte} (hc : 0x08 ≤ c) : f.opcode ≠ c := by
        rintro rfl
        exact UInt8.not_lt.mpr hc hlt
      have hping : pings [f] = [] := by
        simp [pings, hne (show (0x08 : Byte) ≤ 0x09 by decide)]
      have hpayload : payloads [f] = f.payload := by
        simp [payloads, hdata]
      -- data frames: the payload is buffered, and read from there
      rw [onRead_data hsize ⟨hne (by decide), hne (by decide), hne (by decide)⟩, unmasked_body,
        hping, hpayload]
      refine ⟨_, [], h.onFrame _ _, ?_, rfl, rfl, leftover_buffer s _ _⟩
      rw [List.append_nil, List.append_nil]
      rfl
  | false =>
      have hpayload : payloads [f] = [] := by
        simp [payloads, hdata]
      obtain ⟨hopcode, -, -⟩ := hf.control hdata
      rw [hpayload]
      -- a ping is answered, a pong is dropped
      rcases hopcode with hopcode | hopcode
      · have hping : pings [f] = [f.payload] := by
          simp [pings, hopcode]
        refine ⟨s.post (.pong f.payload), [.pong f.payload], ?_, rfl, hping.symm, rfl,
          leftover_of_empty h.empty⟩
        have hread : s.onRead f.body (.payload f.opcode f.mask.isSome f.payload.length) =
            (s.post (.pong (unmasked f.mask.isSome f.body))).nextFrame := by
          rw [onRead, hopcode]
          rfl
        rw [hread, unmasked_body]
        exact (h.post _).nextFrame
      · have hping : pings [f] = [] := by
          simp [pings, hopcode]
        refine ⟨s, [], ?_, ?_, hping.symm, rfl, leftover_of_empty h.empty⟩
        · have hread : s.onRead f.body (.payload f.opcode f.mask.isSome f.payload.length) =
              s.nextFrame := by
            rw [onRead, hopcode]
            rfl
          rw [hread]
          exact h.nextFrame
        · rw [List.append_nil, List.append_nil]
          rfl

/-! ## Frame by frame -/

/-- Where the reader is: between two frames, or inside the next one. -/
inductive At (s : Stream) (done rest : List Frame) : Prop
  | between (h : s.awaiting = none ∨ s.awaiting = some .header)
      (hfed : s.fed = wire done ++ s.input)
  | inside {a : Awaiting} {f : Frame} {rest' : List Frame} (ha : s.awaiting = some a)
      (hrest : rest = f :: rest') (hof : a.Of f)
      (hfed : s.fed = wire done ++ (a.front f ++ s.input))

/-- The reader is done with the frames `done`, and has `rest` to come. -/
structure Follows (s : Stream) (done rest : List Frame) : Prop where
  taken : s.taken = payloads done
  pongs : pongsBy s.accepted = pings done
  ecs : ∀ r ∈ s.reads, r.ec = .success ∨ r.ec = .transport
  position : s.down = false → At s done rest

theorem payloads_append (fs gs : List Frame) :
    payloads (fs ++ gs) = payloads fs ++ payloads gs := by
  rw [payloads, List.filter_append, List.flatMap_append]
  rfl

theorem pings_append (fs gs : List Frame) : pings (fs ++ gs) = pings fs ++ pings gs := by
  rw [pings, List.filter_append, List.map_append]
  rfl

theorem pongsBy_append (js js' : List Job) : pongsBy (js ++ js') = pongsBy js ++ pongsBy js' :=
  List.filterMap_append

theorem follows_init (isClient : Bool) (fs : List Frame) : Follows (init isClient) [] fs where
  taken := rfl
  pongs := rfl
  ecs r hr := by cases hr
  position _ := .between (.inl rfl) rfl

/-- An outstanding read has nothing left over. -/
theorem ReaderInv.taken_of_running (h : ReaderInv s) (hop : s.readOp = some op) :
    s.taken = s.delivered ++ (op.got ++ []) := by
  have hempty : s.readRemaining = 0 := h.empty (by rw [hop]; exact Option.some_ne_none _)
  rw [taken, underway, hop, leftover_of_empty hempty]
  rfl

/-- Between two frames the reader is at the front of the next. -/
theorem Follows.inside (h : Follows s done (f :: rest)) (hup : s.down = false)
    (ha : s.awaiting = some a) :
    a.Of f ∧ s.fed = wire done ++ (a.front f ++ s.input) := by
  cases h.position hup with
  | between hawaiting hat =>
      rw [ha] at hawaiting
      rcases hawaiting with hnone | hheader
      · cases hnone
      · obtain rfl := Option.some.inj hheader
        exact ⟨trivial, hat⟩
  | inside ha' hrest hof hat =>
      rw [ha] at ha'
      obtain rfl := Option.some.inj ha'
      obtain ⟨rfl, -⟩ := List.cons.inj hrest
      exact ⟨hof, hat⟩

/-- The frame the reader is at, and the bytes it reads now. -/
theorem Follows.frame (h : Follows s done rest) (hup : s.down = false) (ha : s.awaiting = some a)
    (hfed : s.fed <+: wire (done ++ rest)) (hsize : a.size ≤ s.input.length) :
    ∃ f rest' input, rest = f :: rest' ∧ a.Of f ∧ s.input = a.now f ++ input ∧
      s.fed = wire done ++ (a.front f ++ (a.now f ++ input)) := by
  rw [wire_append] at hfed
  cases rest with
  | nil =>
      cases h.position hup with
      | between hawaiting hat =>
          rw [hat, List.prefix_append_right_inj] at hfed
          rw [ha] at hawaiting
          rcases hawaiting with hnone | hheader
          · cases hnone
          · obtain rfl := Option.some.inj hheader
            rw [List.prefix_nil.mp hfed] at hsize
            exact absurd hsize (by decide)
      | inside _ hrest _ _ => cases hrest
  | cons f rest' =>
      obtain ⟨hof, hat⟩ := h.inside hup ha
      obtain ⟨l, hbytes⟩ := Awaiting.front_now f a
      rw [hat, List.prefix_append_right_inj, wire_cons, hbytes, List.append_assoc,
        List.prefix_append_right_inj, List.append_assoc] at hfed
      obtain ⟨input, hinput, -⟩ := split_prefix hfed (by rw [Awaiting.size_of hof]; exact hsize)
      exact ⟨f, rest', input, rfl, hof, hinput, by rw [← hinput]; exact hat⟩

/-- The transport's read completes. -/
theorem Follows.readDone (h : Follows s done rest) (hs : ReaderInv s) (hup : s.down = false)
    (ha : s.awaiting = some a) (hacceptable : ∀ f ∈ rest, f.Acceptable)
    (hfed : s.fed <+: wire (done ++ rest)) (hsize : a.size ≤ s.input.length) :
    ∃ done' rest', done' ++ rest' = done ++ rest ∧
      Follows ({ s with input := s.input.drop a.size, awaiting := none }.onRead
        (s.input.take a.size) a) done' rest' := by
  obtain ⟨f, rest', input, rfl, hof, hinput, hat⟩ := h.frame hup ha hfed hsize
  have hf : f.Acceptable := hacceptable f (List.mem_cons_self ..)
  have htake : s.input.take a.size = a.now f := by
    rw [hinput, ← Awaiting.size_of hof, List.take_left]
  have hdrop : s.input.drop a.size = input := by
    rw [hinput, ← Awaiting.size_of hof, List.drop_left]
  obtain ⟨op, hop, hr⟩ := hs.running ha input
  rw [htake, hdrop]
  -- the frame goes on with another read
  have hgoes {a' : Awaiting} (hof' : a'.Of f) (hfront : a'.front f = a.front f ++ a.now f) :
      Follows { s with input, awaiting := some a' } done (f :: rest') := by
    refine ⟨h.taken, h.pongs, h.ecs, fun _ => .inside rfl rfl hof' ?_⟩
    show s.fed = _
    rw [hat, hfront, List.append_assoc]
  cases a with
  | header =>
      obtain ⟨a', hof', hfront, hread⟩ :=
        onRead_header (s := { s with input, awaiting := none }) hf
      refine ⟨done, f :: rest', rfl, ?_⟩
      show Follows (onRead _ [f.first, f.second] .header) _ _
      rw [hread]
      exact hgoes hof' hfront
  | ext16 opcode masked =>
      obtain ⟨rfl, rfl, hform⟩ := hof
      refine ⟨done, f :: rest', rfl, ?_⟩
      show Follows (onRead _ f.extended _) _ _
      rw [onRead_extended hf (.inl ⟨rfl, hform⟩)]
      exact hgoes ⟨rfl, rfl, rfl⟩ rfl
  | ext64 opcode masked =>
      obtain ⟨rfl, rfl, hform⟩ := hof
      refine ⟨done, f :: rest', rfl, ?_⟩
      show Follows (onRead _ f.extended _) _ _
      rw [onRead_extended hf (.inr ⟨rfl, hform⟩)]
      exact hgoes ⟨rfl, rfl, rfl⟩ rfl
  | payload opcode masked len =>
      obtain ⟨rfl, rfl, rfl⟩ := hof
      obtain ⟨s₁, js, hanswer, houtside, hpongs, hreads, hleft⟩ := hr.onBody hf
      have hout := hanswer.outside.trans houtside
      have haccepted := congrArg Outside.accepted hout
      have hfed' := congrArg Outside.fed hout
      have hinput' := congrArg Outside.input hout
      refine ⟨done ++ [f], rest', by rw [List.append_assoc]; rfl, ?_⟩
      show Follows (onRead _ f.body _) _ _
      refine ⟨?_, ?_, ?_, fun _ => ?_⟩
      · rw [hanswer.taken, hleft, payloads_append, ← h.taken,
          hs.taken_of_running hop, delivered, hreads, List.append_nil, List.append_assoc]
        rfl
      · show pongsBy (Stream.outside _).accepted = _
        rw [haccepted]
        show pongsBy (s.accepted ++ js) = _
        rw [pongsBy_append, h.pongs, hpongs, pings_append]
      · intro r hr'
        rcases hanswer.success r hr' with hold | hnew
        · rw [hreads] at hold
          exact h.ecs r hold
        · exact .inl hnew
      · refine .between hanswer.awaiting ?_
        show (Stream.outside _).fed = _ ++ (Stream.outside _).input
        rw [hfed', hinput']
        show s.fed = wire (done ++ [f]) ++ input
        obtain ⟨l, hbytes⟩ := Awaiting.front_now f
          (.payload f.opcode f.mask.isSome f.payload.length)
        rw [hat, wire_append, List.append_assoc]
        simp [wire, Frame.bytes, Awaiting.front, Awaiting.now]

/-! ## Every step -/

/-- What the handlers leave alone: the role, the bytes from the transport, and the writing. -/
structure Arrived where
  isClient : Bool
  fed : List Byte
  input : List Byte
  writing : Writing

def arrived (s : Stream) : Arrived := ⟨s.isClient, s.fed, s.input, s.writing⟩

theorem arrived_fail (s : Stream) (ec : ReadError) : (s.fail ec).arrived = s.arrived := by
  unfold Stream.fail
  split
  · rfl
  · rfl

theorem arrived_asyncRead (s : Stream) (op : ReadOp) : (s.asyncRead op).arrived = s.arrived := by
  fun_induction Stream.asyncRead s op with
  | case1 => rfl
  | case2 _ _ _ _ _ ih => exact ih
  | case3 => rfl
  | case4 => rfl

theorem arrived_onFrame (s : Stream) (len : Nat) : (s.onFrame len).arrived = s.arrived := by
  unfold Stream.onFrame
  split
  · rfl
  simp only
  split
  · rw [arrived_asyncRead]
    split
    · rfl
    · rfl
  · split
    · rfl
    · rfl

theorem arrived_nextFrame (s : Stream) : s.nextFrame.arrived = s.arrived := by
  unfold Stream.nextFrame
  split
  · rfl
  · rfl

theorem arrived_nextStep (s : Stream) (opcode : Byte) (masked : Bool) (len : Nat) :
    (s.nextStep opcode masked len).arrived = s.arrived := by
  unfold Stream.nextStep
  split
  · exact arrived_fail s.close _
  · rfl

theorem arrived_onRead (s : Stream) (data : List Byte) (a : Awaiting) :
    (s.onRead data a).arrived = s.arrived := by
  unfold Stream.onRead
  cases a with
  | header =>
      simp only
      split
      · exact arrived_fail s.close _
      split
      · rfl
      split
      · rfl
      · exact arrived_nextStep ..
  | ext16 opcode masked => exact arrived_nextStep ..
  | ext64 opcode masked => exact arrived_nextStep ..
  | payload opcode masked len =>
      simp only
      split
      · exact arrived_fail s.close _
      split
      · exact arrived_nextFrame _
      split
      · exact arrived_nextFrame s
      · exact arrived_onFrame _ _

/-- What came from the transport stays. -/
theorem arrived_step (h : Sound s) {e : Event} (hs : step s e = some s') :
    s'.isClient = s.isClient ∧ s.fed <+: s'.fed ∧ (e.writing = false → s'.writing = s.writing) := by
  have hkeep {t : Stream} (ht : t.arrived = s.arrived) : t.isClient = s.isClient ∧
      s.fed <+: t.fed ∧ (e.writing = false → t.writing = s.writing) := by
    refine ⟨congrArg Arrived.isClient ht, ⟨[], ?_⟩, fun _ => congrArg Arrived.writing ht⟩
    rw [List.append_nil]
    exact (congrArg Arrived.fed ht).symm
  cases e with
  | write buffers =>
      obtain rfl := Option.some.inj hs
      exact hkeep rfl
  | run | look | written | proceed | reset =>
      obtain ⟨_, _, _, _, _, _, _, rfl⟩ := onWriteSide rfl hs
      exact ⟨rfl, List.prefix_refl _, fun he => (by cases he)⟩
  | read all n =>
      rw [step] at hs
      split at hs
      · cases hs
      next hidle =>
      obtain rfl := Option.some.inj hs
      have hout := (h.reader.start (Option.not_isSome_iff_eq_none.mp hidle) all n).outside
      exact hkeep (congrArg
        (fun o : Outside => (⟨o.isClient, o.fed, o.input, o.writing⟩ : Arrived)) hout)
  | feed bytes =>
      rw [step] at hs
      split at hs
      · cases hs
      obtain rfl := Option.some.inj hs
      exact ⟨rfl, List.prefix_append _ _, fun _ => rfl⟩
  | readDone =>
      rw [step] at hs
      split at hs
      · cases hs
      next a ha =>
      split at hs
      · cases hs
      obtain rfl := Option.some.inj hs
      have hkept := arrived_onRead { s with input := s.input.drop a.size, awaiting := none }
        (s.input.take a.size) a
      refine ⟨congrArg Arrived.isClient hkept, ⟨[], ?_⟩, fun _ => congrArg Arrived.writing hkept⟩
      rw [List.append_nil]
      exact (congrArg Arrived.fed hkept).symm
  | readFail =>
      rw [step] at hs
      split at hs
      · obtain rfl := Option.some.inj hs
        exact hkeep (arrived_fail _ _)
      · cases hs

/-- What the reader follows by does not depend on the write side. -/
theorem Follows.congr (h : Follows s done rest) (htaken : s'.taken = s.taken)
    (hpongs : pongsBy s'.accepted = pongsBy s.accepted) (hreads : s'.reads = s.reads)
    (hdown : s'.down = s.down) (hposition : At s done rest → At s' done rest) :
    Follows s' done rest := by
  refine ⟨htaken.trans h.taken, hpongs.trans h.pongs, ?_, ?_⟩
  · rw [hreads]
    exact h.ecs
  · rw [hdown]
    exact fun hup => hposition (h.position hup)

theorem At.congr (h : At s done rest) (hawaiting : s'.awaiting = s.awaiting)
    (hfed : s'.fed = s.fed) (hinput : s'.input = s.input) : At s' done rest := by
  cases h with
  | between hidle hat =>
      exact .between (by rw [hawaiting]; exact hidle) (by rw [hfed, hinput]; exact hat)
  | inside ha hrest hof hat =>
      exact .inside (by rw [hawaiting]; exact ha) hrest hof (by rw [hfed, hinput]; exact hat)

/-- A new read. -/
theorem Follows.start (h : Follows s done rest) (hidle : s.readOp = none)
    (hnone : s.awaiting = none) {op : ReadOp} (hgot : op.got = []) (hanswer : Answered s op s') :
    Follows s' done rest := by
  have hfed : s'.fed = s.fed := congrArg Outside.fed hanswer.outside
  have hinput : s'.input = s.input := congrArg Outside.input hanswer.outside
  have hdown : s'.down = s.down := congrArg Outside.down hanswer.outside
  have haccepted : s'.accepted = s.accepted := congrArg Outside.accepted hanswer.outside
  refine ⟨?_, ?_, fun r hr => ?_, fun hup => ?_⟩
  · rw [hanswer.taken, hgot, ← h.taken, Stream.taken, Stream.underway, hidle]
    rfl
  · rw [haccepted]
    exact h.pongs
  · rcases hanswer.success r hr with hold | hnew
    · exact h.ecs r hold
    · exact .inl hnew
  · rw [hdown] at hup
    cases h.position hup with
    | between _ hat => exact .between hanswer.awaiting (by rw [hfed, hinput]; exact hat)
    | inside ha _ _ _ =>
        rw [hnone] at ha
        cases ha

/-- The transport fails. -/
theorem Follows.readFail (h : Follows s done rest) (hs : ReaderInv s) (hop : s.readOp = some op) :
    Follows ({ s with awaiting := none, down := true }.fail .transport) done rest := by
  have hfail : { s with awaiting := none, down := true }.fail .transport =
      { s with awaiting := none, down := true }.complete op .transport := by
    rw [Stream.fail, hop]
  rw [hfail]
  refine ⟨?_, h.pongs, fun r hr => ?_, fun hup => by cases hup⟩
  · have hempty : s.readRemaining = 0 := hs.empty (by rw [hop]; exact Option.some_ne_none _)
    rw [← h.taken, hs.taken_of_running hop]
    show (s.reads ++ [_]).flatMap _ ++ ([] ++ s.leftover) = _
    rw [List.flatMap_append, leftover_of_empty hempty]
    simp [delivered]
  · rcases List.mem_append.mp hr with hr | hr
    · exact h.ecs r hr
    · rw [List.mem_singleton.mp hr]
      exact .inr rfl

theorem step_follows (h : Follows s done rest) (hs : Sound s)
    (hacceptable : ∀ f ∈ done ++ rest, f.Acceptable) (hfed : s.fed <+: wire (done ++ rest))
    {e : Event} (hstep : step s e = some s') :
    ∃ done' rest', done' ++ rest' = done ++ rest ∧ Follows s' done' rest' := by
  cases e with
  | write buffers =>
      obtain rfl := Option.some.inj hstep
      refine ⟨done, rest, rfl, h.congr rfl ?_ rfl rfl fun hat => hat.congr rfl rfl rfl⟩
      show pongsBy (s.accepted ++ [_]) = _
      rw [pongsBy_append]
      exact List.append_nil _
  | run | look | written | proceed | reset =>
      obtain ⟨_, _, _, _, _, _, _, rfl⟩ := onWriteSide rfl hstep
      exact ⟨done, rest, rfl, h.congr rfl rfl rfl rfl fun hat => hat.congr rfl rfl rfl⟩
  | read all n =>
      rw [step] at hstep
      split at hstep
      · cases hstep
      next hidle =>
      obtain rfl := Option.some.inj hstep
      have hidle := Option.not_isSome_iff_eq_none.mp hidle
      have hanswer := hs.reader.start hidle all n
      exact ⟨done, rest, rfl, h.start hidle (hs.reader.idle hidle) rfl hanswer⟩
  | feed bytes =>
      rw [step] at hstep
      split at hstep
      · cases hstep
      obtain rfl := Option.some.inj hstep
      -- new input is input of the frames still to come
      refine ⟨done, rest, rfl, h.congr rfl rfl rfl rfl fun hat => ?_⟩
      cases hat with
      | between hidle hat =>
          refine .between hidle ?_
          show s.fed ++ bytes = _ ++ (s.input ++ bytes)
          rw [hat, List.append_assoc]
      | inside ha hrest hof hat =>
          refine .inside ha hrest hof ?_
          show s.fed ++ bytes = _ ++ (_ ++ (s.input ++ bytes))
          rw [hat]
          simp
  | readDone =>
      rw [step] at hstep
      split at hstep
      · cases hstep
      next a ha =>
      split at hstep
      · cases hstep
      next hinput =>
      obtain rfl := Option.some.inj hstep
      rw [not_or, Nat.not_lt] at hinput
      -- the one step on which a frame may end
      exact h.readDone hs.reader (Bool.eq_false_iff.mpr hinput.1) ha
        (fun f hf => hacceptable f (List.mem_append_right _ hf)) hfed hinput.2
  | readFail =>
      rw [step] at hstep
      split at hstep
      · next ha =>
          obtain rfl := Option.some.inj hstep
          rw [hs.reader.asking] at ha
          obtain ⟨op, hop⟩ := Option.isSome_iff_exists.mp ha
          exact ⟨done, rest, rfl, h.readFail hs.reader hop⟩
      · cases hstep

theorem follows_of_reach {isClient : Bool} (h : Reach step anyStep (init isClient) s)
    (hacceptable : ∀ f ∈ fs, f.Acceptable) (hfed : s.fed <+: wire fs) :
    ∃ done rest, fs = done ++ rest ∧ Follows s done rest := by
  induction h with
  | init => exact ⟨[], fs, rfl, follows_init isClient fs⟩
  | tail hr _ hstep ih =>
      have hsound := sound_of_reach hr
      have hbefore := (arrived_step hsound hstep).2.1.trans hfed
      obtain ⟨done, rest, rfl, hfollows⟩ := ih hbefore
      obtain ⟨done', rest', heq, hfollows'⟩ :=
        step_follows hfollows hsound hacceptable hbefore hstep
      exact ⟨done', rest', heq.symm, hfollows'⟩

theorem isClient_of_reach {isClient : Bool} (h : Reach step anyStep (init isClient) s) :
    s.isClient = isClient := by
  induction h with
  | init => rfl
  | tail hr _ hstep ih => exact (arrived_step (sound_of_reach hr) hstep).1.trans ih

/-! ## The reader gets to the end -/

/-- A read that cannot complete, though every frame has come, is past the last one. -/
theorem Follows.finished (h : Follows s done rest) (hs : ReaderInv s)
    (hfed : s.fed = wire (done ++ rest)) (hop : s.readOp ≠ none) (hup : s.down = false)
    (hstuck : step s .readDone = none) : rest = [] := by
  have hasking := hs.asking
  rw [Option.isSome_iff_ne_none.mpr hop] at hasking
  obtain ⟨a, ha⟩ := Option.isSome_iff_exists.mp hasking
  have hshort : s.input.length < a.size := by
    rw [step, ha] at hstuck
    by_contra hlong
    rw [hup] at hstuck
    simp [hlong] at hstuck
  cases rest with
  | nil => rfl
  | cons f rest' =>
      obtain ⟨hof, hat⟩ := h.inside hup ha
      obtain ⟨l, hbytes⟩ := Awaiting.front_now f a
      rw [hat, wire_append, List.append_cancel_left_eq, wire_cons, hbytes, List.append_assoc,
        List.append_cancel_left_eq] at hfed
      rw [hfed, List.length_append, List.length_append, Awaiting.size_of hof] at hshort
      omega

/-- What there is to read, with the frame whose payload is expected. -/
def work (s : Stream) : Nat :=
  2 * s.input.length + match s.awaiting with
    | some (.payload _ _ _) => 1
    | _ => 0

theorem work_of_payload {opcode : Byte} {masked : Bool} {len : Nat}
    (ha : s.awaiting = some (.payload opcode masked len)) : s.work = 2 * s.input.length + 1 := by
  rw [work, ha]

theorem work_of_header (ha : s.awaiting = none ∨ s.awaiting = some .header) :
    s.work = 2 * s.input.length := by
  rcases ha with ha | ha
  · rw [work, ha]
    rfl
  · rw [work, ha]
    rfl

theorem work_le (s : Stream) : 2 * s.input.length ≤ s.work ∧ s.work ≤ 2 * s.input.length + 1 := by
  unfold work
  split
  · omega
  · omega

/-- After the payload the reader is between two frames. -/
theorem Running.between (h : Running s op) (opcode : Byte) {masked : Bool} {len : Nat}
    {data : List Byte} (hdata : data.length = len + if masked then 4 else 0) :
    (s.onRead data (.payload opcode masked len)).awaiting = none ∨
      (s.onRead data (.payload opcode masked len)).awaiting = some .header := by
  by_cases hopcode : opcode ≠ 0x08 ∧ opcode ≠ 0x09 ∧ opcode ≠ 0x0A
  · rw [onRead_data hdata hopcode]
    exact (h.onFrame _ _).awaiting
  · unfold Stream.onRead
    simp only
    split
    · refine .inl ?_
      rw [Stream.fail, show s.close.readOp = some op from h.readOp]
      exact h.ready.awaiting
    next h8 =>
    split
    · exact (h.post _).nextFrame.awaiting
    next h9 =>
    split
    · exact h.nextFrame.awaiting
    next h10 => exact absurd ⟨h8, h9, h10⟩ hopcode

/-- The transport's reads use up the input. -/
theorem work_readDone (h : ReaderInv s) (hs : step s .readDone = some s') : s'.work < s.work := by
  rw [step] at hs
  split at hs
  · cases hs
  next a ha =>
  split at hs
  · cases hs
  next hinput =>
  obtain rfl := Option.some.inj hs
  rw [not_or, Nat.not_lt] at hinput
  obtain ⟨op, -, hr⟩ := h.running ha (s.input.drop a.size)
  have hlen : (s.input.drop a.size).length + a.size = s.input.length := by
    rw [List.length_drop]
    omega
  -- what is left of the input is all the work that is left
  have hleft : ({ s with input := s.input.drop a.size, awaiting := none }.onRead
      (s.input.take a.size) a).input = s.input.drop a.size :=
    congrArg Arrived.input (arrived_onRead _ _ _)
  have hle := work_le s
  have hle' := work_le ({ s with input := s.input.drop a.size, awaiting := none }.onRead
    (s.input.take a.size) a)
  rw [hleft] at hle'
  cases a with
  | header =>
      have hsize : (Awaiting.header).size = 2 := rfl
      omega
  | ext16 opcode masked =>
      have hsize : (Awaiting.ext16 opcode masked).size = 2 := rfl
      omega
  | ext64 opcode masked =>
      have hsize : (Awaiting.ext64 opcode masked).size = 8 := rfl
      omega
  | payload opcode masked len =>
      have hdata : (s.input.take (Awaiting.payload opcode masked len).size).length =
          len + if masked then 4 else 0 := List.length_take_of_le hinput.2
      rw [work_of_header (hr.between opcode hdata), work_of_payload ha, hleft]
      omega

/-! ## Transparency -/

/-- The queue stays attended, as long as the strand does not rely on a handler that has already
found it empty. -/
theorem attended_of_reach {isClient : Bool}
    (h : Reach step (fun s e => s.noticed e = true) (init isClient) s) : Attended s := by
  refine (h.invariant (P := fun s => Sound s ∧ Attended s)
    ⟨sound_init isClient, fun _ _ => rfl⟩ fun s e s' hs hok hstep => ?_).2
  refine ⟨step_sound hs.1 hstep, ?_⟩
  cases he : e.writing with
  | true => exact (hs.1.writes.step he hstep).2 hs.2 hok
  | false => exact hs.2.congr ((arrived_step hs.1 hstep).2.2 he)

/-- One whole frame for each job, in the order of the jobs. -/
theorem handed_of_reach {isClient : Bool} (h : Reach step anyStep (init isClient) s) :
    ∃ sent : Ran, s.handed = wire (frames isClient sent) ∧ sent.map Prod.fst <+: s.accepted ∧
      (s.posted = [] → s.idle → s.writeQueue = [] → sent.map Prod.fst = s.accepted) ∧
      ((∀ buffers, .write buffers ∈ s.accepted → buffers.flatten.length ≤ maxMessageSize) →
        ∀ f ∈ frames isClient sent, f.Acceptable) := by
  have hsound := sound_of_reach h
  have hclient := isClient_of_reach h
  obtain ⟨sent, waiting, n, hw⟩ := hsound.writes.queue
  have haccepted : s.accepted = sent.map Prod.fst ++ (waiting.map Prod.fst ++ s.posted) := by
    rw [hw.queued.accepted, List.map_append, List.append_assoc]
  refine ⟨sent, hclient ▸ hw.queued.handed, ⟨_, haccepted.symm⟩, fun hposted hidle hempty => ?_,
    fun hsize f hf => ?_⟩
  · have hturn := hw.turn
    rw [hidle.1] at hturn
    have hqueue := hw.queued.queue
    rw [if_pos hturn.of_free.2, hempty] at hqueue
    have hnone : waiting = [] := List.map_eq_nil_iff.mp hqueue.symm
    rw [haccepted, hposted, hnone]
    simp
  · obtain ⟨⟨j, mask⟩, hj, rfl⟩ := List.mem_map.mp hf
    have hmem : j ∈ s.accepted := by
      rw [haccepted]
      exact List.mem_append_left _ (List.mem_map_of_mem hj)
    refine Job.acceptable_frame isClient mask ?_
    cases j with
    | write buffers => exact hsize buffers hmem
    | pong payload => exact hsound.writes.pongs payload hmem

/-- **End to end.** What one stream's user gets is what the other's has written, as far as
it has come. -/
theorem end_to_end {isClient isClient' : Bool} {s t : Stream}
    (hs : Reach step anyStep (init isClient) s) (ht : Reach step anyStep (init isClient') t)
    (hsize : ∀ buffers, .write buffers ∈ s.accepted → buffers.flatten.length ≤ maxMessageSize)
    (hfed : t.fed <+: s.handed) : t.delivered <+: writtenBy s.accepted := by
  obtain ⟨sent, hhanded, ⟨jobs, hjobs⟩, -, hacceptable⟩ := handed_of_reach hs
  rw [hhanded] at hfed
  obtain ⟨done, rest, hsplit, hfollows⟩ := follows_of_reach ht (hacceptable hsize) hfed
  have hdone : payloads done <+: writtenBy (sent.map Prod.fst) := by
    rw [← payloads_frames isClient, hsplit, payloads_append]
    exact List.prefix_append _ _
  have hall : writtenBy (sent.map Prod.fst) <+: writtenBy s.accepted := by
    rw [← hjobs, writtenBy, writtenBy, List.flatMap_append]
    exact List.prefix_append _ _
  rw [← hfollows.taken] at hdone
  exact ((List.prefix_append _ _).trans hdone).trans hall

/-- **WebSocket transparency.** A stream hands whole frames to its transport, one for each
job in the order of the jobs, and a peer accepts them. Once nothing is left to do, all jobs
but those left in the queue have been handed over, and nothing is left there unless the
strand relied on a handler that was about to end the writing. And whatever acceptable frames
come, in whatever pieces and whatever the user reads: the reader has taken the payloads of
the data frames it is done with, posted the pongs for the pings among them, and fails with
the transport only. Its reads come to an end, and with all frames there it stops at the
last. -/
theorem transparent {isClient : Bool} (h : Reach step anyStep (init isClient) s) :
    (∃ sent : Ran, s.handed = wire (frames isClient sent) ∧ sent.map Prod.fst <+: s.accepted ∧
      (s.posted = [] → s.idle → s.writeQueue = [] → sent.map Prod.fst = s.accepted) ∧
      (Reach step (fun s e => s.noticed e = true) (init isClient) s →
        s.posted = [] → s.idle → sent.map Prod.fst = s.accepted) ∧
      ((∀ buffers, .write buffers ∈ s.accepted → buffers.flatten.length ≤ maxMessageSize) →
        ∀ f ∈ frames isClient sent, f.Acceptable)) ∧
    (∀ fs, (∀ f ∈ fs, f.Acceptable) → s.fed <+: wire fs →
      ∃ done rest, fs = done ++ rest ∧
        s.delivered ++ (s.underway ++ s.leftover) = payloads done ∧
        pongsBy s.accepted = pings done ∧
        (∀ r ∈ s.reads, r.Proper ∧ (r.ec = .success ∨ r.ec = .transport)) ∧
        (s.fed = wire fs → s.readOp ≠ none → s.down = false → step s .readDone = none →
          rest = [])) ∧
    ∀ s', step s .readDone = some s' → s'.work < s.work := by
  have hreader := (sound_of_reach h).reader
  obtain ⟨sent, hhanded, hprefix, hall, hsize⟩ := handed_of_reach h
  refine ⟨⟨sent, hhanded, hprefix, hall, fun hnoticed hposted hidle => ?_, hsize⟩,
    fun fs hacceptable hfed => ?_, fun s' hs => work_readDone hreader hs⟩
  · exact hall hposted hidle (attended_of_reach hnoticed hidle.2.2 (Or.inr hidle.1))
  obtain ⟨done, rest, rfl, hfollows⟩ := follows_of_reach h hacceptable hfed
  exact ⟨done, rest, rfl, hfollows.taken, hfollows.pongs,
    fun r hr => ⟨hreader.reads r hr, hfollows.ecs r hr⟩,
    fun hall hop hup hstuck => hfollows.finished hreader hall hop hup hstuck⟩

/-- A fragment whose length is longer than it need be, a ping, and the last fragment. -/
def mixedFrames : List Frame :=
  [⟨0x01, .ext16, some ⟨1, 2, 3, 4⟩, [65]⟩, ⟨0x89, .short, some ⟨5, 6, 7, 8⟩, [1, 2]⟩,
    ⟨0x80, .short, some ⟨9, 10, 11, 12⟩, [66, 67]⟩]

theorem acceptable_mixedFrames : ∀ f ∈ mixedFrames, f.Acceptable := by
  intro f hf
  simp only [mixedFrames, List.mem_cons, List.not_mem_nil, or_false] at hf
  rcases hf with rfl | rfl | rfl
  · exact ⟨show 1 ≤ 65535 by decide, show 1 ≤ 1048576 by decide, by decide⟩
  · exact ⟨show 2 ≤ 125 by decide, show 2 ≤ 1048576 by decide, by decide⟩
  · exact ⟨show 2 ≤ 125 by decide, show 2 ≤ 1048576 by decide, by decide⟩

/-- The frames come while a server's user reads three bytes; then the pong is sent. -/
theorem transparent_mixed : ∃ s, Reach step anyStep (init false) s ∧
    s.delivered = [65, 66, 67] ∧ s.handed = [0x8A, 2, 1, 2] ∧
    (∃ sent : Ran, s.handed = wire (frames false sent) ∧ sent.map Prod.fst = s.accepted) ∧
    ∃ done rest, mixedFrames = done ++ rest ∧
      s.delivered ++ (s.underway ++ s.leftover) = payloads done ∧
      pongsBy s.accepted = pings done := by
  obtain ⟨s, hs, hobs⟩ := exists_of_runGuarded step noticed
    [.read true 3, .feed (wire mixedFrames), .readDone, .readDone, .readDone, .readDone,
      .readDone, .readDone, .readDone, .run ⟨0, 0, 0, 0⟩, .look, .written true, .proceed, .reset]
    (fun s => (s.delivered, s.handed, s.fed, decide (s.posted = [] ∧ s.isWriting = false ∧
      s.completing = .idle ∧ s.looking = false))) (s := init false)
    (a := ([65, 66, 67], [0x8A, 2, 1, 2], wire mixedFrames, true)) (by decide +kernel)
  simp only [Prod.mk.injEq, decide_eq_true_eq] at hobs
  obtain ⟨hdelivered, hsent, hfed, hposted, hidle⟩ := hobs
  obtain ⟨⟨sent, hhanded, -, -, hall, -⟩, hreads, -⟩ := transparent hs.any
  obtain ⟨done, rest, hsplit, htaken, hpongs, -, -⟩ :=
    hreads mixedFrames acceptable_mixedFrames ⟨[], by rw [List.append_nil, hfed]⟩
  exact ⟨s, hs.any, hdelivered, hsent, ⟨sent, hhanded, hall hs hposted hidle⟩, done, rest, hsplit,
    htaken, hpongs⟩

/-- A server has written a frame, and its handler has found the queue empty. A ping comes, and
its pong is queued before the handler sets `is_writing_`. Nobody writes it. -/
theorem pong_not_handed : ¬∀ (isClient : Bool) (s : Stream),
    Reach step anyStep (init isClient) s → s.posted = [] → s.idle →
    ∃ sent : Ran, s.handed = wire (frames isClient sent) ∧ sent.map Prod.fst = s.accepted := by
  intro hall
  obtain ⟨s, hs, hobs⟩ := exists_of_runAll step
    [.write [[65]], .run ⟨0, 0, 0, 0⟩, .look, .read true 1, .feed [0x89, 0x80, 1, 2, 3, 4],
      .written true, .proceed, .readDone, .readDone, .run ⟨0, 0, 0, 0⟩, .look, .reset]
    (fun s => (s.handed, s.accepted, decide (s.posted = [] ∧ s.isWriting = false ∧
      s.completing = .idle ∧ s.looking = false))) (s := init false)
    (a := ([0x82, 1, 65], [.write [[65]], .pong []], true)) (by decide +kernel)
  simp only [Prod.mk.injEq, decide_eq_true_eq] at hobs
  obtain ⟨hhanded, haccepted, hposted, hidle⟩ := hobs
  obtain ⟨sent, hwire, hsent⟩ := hall false s hs hposted hidle
  have hframes : frames false sent =
      (sent.map Prod.fst).map fun j => j.frame false ⟨0, 0, 0, 0⟩ := by
    rw [List.map_map]
    rfl
  rw [hframes, hsent, haccepted, hhanded] at hwire
  cases congrArg List.length hwire

end Stream

end Cfrp.Websocket

import Cfrp.Lib.Table
import Cfrp.Lib.Transition
import Mathlib.Algebra.GroupWithZero.Nat
import Mathlib.Data.List.Induction
import Mathlib.Data.List.Perm.Basic
import Mathlib.Data.List.Sort

/-!
# BufferPool when an allocation fails

A bucket counts in `allocated_count` the buffers that belong to it, those that wait in it and
those that are out. `Get` allocates in up to two places, the buffer and the control block of
the `shared_ptr`, and either can throw. When the control block cannot be allocated the
deleter runs, and it is the deleter that gives the buffer back to the bucket; the handler in
`Get` then takes the buffer off the counter all the same.

A buffer is the address it was allocated at and its capacity. Addresses are numbered in the
order of the allocations.
-/

namespace Cfrp.Memory

open Lib

structure Buffer where
  address : Nat
  capacity : Nat
  deriving DecidableEq, Repr

structure PoolConfig where
  bufferSize : Nat
  initialCount : Nat
  maxCount : Nat
  deriving DecidableEq, Repr

/-- `underflowed` is history: whether `allocated_count` was decremented at 0. -/
structure Bucket where
  config : PoolConfig
  /-- The back last. -/
  buffers : List Buffer := []
  allocatedCount : Nat := 0
  underflowed : Bool := false
  deriving DecidableEq, Repr

namespace Bucket

/-- `allocated_count--` on a `size_t`. -/
def decrement (b : Bucket) : Bucket :=
  { b with
    allocatedCount := if b.allocatedCount = 0 then 18446744073709551615 else b.allocatedCount - 1
    underflowed := b.underflowed || b.allocatedCount == 0 }

/-- `Return`, with the bucket found. -/
def put (b : Bucket) (buf : Buffer) : Bucket :=
  if b.buffers.length < b.config.maxCount then { b with buffers := b.buffers ++ [buf] }
  else b.decrement

end Bucket

structure BufferPool where
  buckets : Table Nat Bucket := ∅
  bucketSizes : List Nat := []
  next : Nat := 0
  deriving DecidableEq

/-- A `shared_ptr` that `Get` has returned: the size asked for, the buffer, and the bucket
that its deleter returns the buffer to. -/
structure Lease where
  size : Nat
  buffer : Buffer
  home : Option Nat
  deriving DecidableEq, Repr

/-- What throws in a call of `Get`. -/
inductive Fault where
  | none
  /-- `new uint8_t[]`. -/
  | buffer
  /-- The control block of the `shared_ptr`, which makes it call the deleter. -/
  | control
  /-- The control block, and then `push_back` in the deleter. -/
  | deleter
  deriving DecidableEq, Repr

/-- `std::unique`. -/
def unique : List Nat → List Nat
  | [] => []
  | [a] => [a]
  | a :: b :: l => if a = b then unique (b :: l) else a :: unique (b :: l)

namespace BufferPool

def setBucket (p : BufferPool) (size : Nat) (b : Bucket) : BufferPool :=
  { p with buckets := p.buckets.insert size b }

/-- `count` new buffers. -/
def allocate (next count capacity : Nat) : List Buffer :=
  (List.range' next count).map fun address => ⟨address, capacity⟩

/-- The body of the loop of the constructor. -/
def addConfig (p : BufferPool) (config : PoolConfig) : BufferPool :=
  let b := (p.buckets.lookup config.bufferSize).getD { config }
  { buckets := p.buckets.insert config.bufferSize { b with
      config
      buffers := b.buffers ++ allocate p.next config.initialCount config.bufferSize
      allocatedCount := b.allocatedCount + config.initialCount }
    bucketSizes := p.bucketSizes ++ [config.bufferSize]
    next := p.next + config.initialCount }

/-- The constructor. -/
def create (configs : List PoolConfig) : BufferPool :=
  let p := configs.foldl addConfig {}
  { p with bucketSizes := unique (p.bucketSizes.insertionSort (· ≤ ·)) }

/-- A buffer that is not pooled. -/
def direct (p : BufferPool) (size capacity : Nat) : Fault → Option (BufferPool × Option Lease)
  | .none => some ({ p with next := p.next + 1 }, some ⟨size, ⟨p.next, capacity⟩, none⟩)
  | .buffer => some (p, none)
  | .control => some ({ p with next := p.next + 1 }, none)
  | .deleter => none

/-- `std::lower_bound` in the sorted `bucket_sizes_`. -/
def lowerBound (p : BufferPool) (size : Nat) : Option Nat := p.bucketSizes.find? (size ≤ ·)

/-- The bucket has no buffer left. -/
def grow (p : BufferPool) (size bucketSize : Nat) (b : Bucket) (fault : Fault) :
    Option (BufferPool × Option Lease) :=
  let buf : Buffer := ⟨p.next, bucketSize⟩
  let grown := { b with allocatedCount := b.allocatedCount + 1 }
  let after := { p with next := p.next + 1 }
  match fault with
  | .none => some (after.setBucket bucketSize grown, some ⟨size, buf, some bucketSize⟩)
  | .buffer => some (p.setBucket bucketSize grown.decrement, none)
  -- the deleter returns the buffer, and the handler counts it off
  | .control => some (after.setBucket bucketSize (grown.put buf).decrement, none)
  | .deleter => some (after.setBucket bucketSize grown.decrement, none)

/-- The bucket's last buffer is taken. After `pop_back` there is room for it to come back. -/
def reuse (p : BufferPool) (size bucketSize : Nat) (b : Bucket) (buf : Buffer) (fault : Fault) :
    Option (BufferPool × Option Lease) :=
  let taken := { b with buffers := b.buffers.dropLast }
  match fault with
  | .none => some (p.setBucket bucketSize taken, some ⟨size, buf, some bucketSize⟩)
  | .control => some (p.setBucket bucketSize (taken.put buf), none)
  | .buffer => none
  | .deleter => none

/-- `Get`: what it leaves, and what it returns unless it throws. It has no answer to a fault
in an allocation that it does not make. -/
def get (p : BufferPool) (size : Nat) (fault : Fault) : Option (BufferPool × Option Lease) :=
  match p.lowerBound size with
  | none => p.direct size size fault
  | some bucketSize =>
      match p.buckets.lookup bucketSize with
      | none => none
      | some b =>
          match b.buffers.getLast? with
          | some buf => p.reuse size bucketSize b buf fault
          | none =>
              if b.allocatedCount < b.config.maxCount then p.grow size bucketSize b fault
              else p.direct size bucketSize fault

/-- The deleter of a `shared_ptr`. -/
def release (p : BufferPool) (l : Lease) : BufferPool :=
  match l.home with
  | none => p
  | some bucketSize =>
      match p.buckets.lookup bucketSize with
      | none => p
      | some b => p.setBucket bucketSize (b.put l.buffer)

/-- `Get` would grow the bucket. -/
def grows (p : BufferPool) (size : Nat) : Bool :=
  (p.lowerBound size).any fun bucketSize => (p.buckets.lookup bucketSize).any fun b =>
    b.buffers.isEmpty && decide (b.allocatedCount < b.config.maxCount)

/-- The addresses that wait in the buckets. -/
def idle (p : BufferPool) : List Nat :=
  p.buckets.entries.flatMap fun e => e.2.buffers.map Buffer.address

end BufferPool

/-- A pool and the `shared_ptr`s that are out. -/
structure PoolRun where
  pool : BufferPool
  leases : List Lease := []
  deriving DecidableEq

inductive PoolEvent where
  | get (size : Nat) (fault : Fault)
  /-- The last reference to a buffer goes. -/
  | release (i : Nat)
  deriving DecidableEq, Repr

namespace PoolRun

def start (configs : List PoolConfig) : PoolRun := { pool := .create configs }

def step (h : PoolRun) : PoolEvent → Option PoolRun
  | .get size fault => (h.pool.get size fault).map fun r => ⟨r.1, h.leases ++ r.2.toList⟩
  | .release i => (h.leases[i]?).map fun l => ⟨h.pool.release l, h.leases.eraseIdx i⟩

/-- The addresses that are out. -/
def outstanding (h : PoolRun) : List Nat := h.leases.map fun l => l.buffer.address

/-- How many buffers of a bucket are out. -/
def rented (h : PoolRun) (bucketSize : Nat) : Nat :=
  h.leases.countP fun l => l.home = some bucketSize

/-- Every counter is right. -/
def Accounted (h : PoolRun) : Prop :=
  ∀ bucketSize b, h.pool.buckets.lookup bucketSize = some b →
    b.allocatedCount = b.buffers.length + h.rented bucketSize ∧ b.underflowed = false

/-- The buffers that the constructor puts into a bucket. -/
def initialCount (configs : List PoolConfig) (bucketSize : Nat) : Nat :=
  ((configs.filter fun c => c.bufferSize = bucketSize).map PoolConfig.initialCount).sum

/-- A bucket that starts within its limit stays within it. -/
def Bounded (configs : List PoolConfig) (h : PoolRun) : Prop :=
  ∀ bucketSize b, h.pool.buckets.lookup bucketSize = some b →
    initialCount configs bucketSize ≤ b.config.maxCount → b.allocatedCount ≤ b.config.maxCount

/-- No buffer is in two places. -/
def Distinct (h : PoolRun) : Prop := (h.pool.idle ++ h.outstanding).Nodup

/-- What is out is as large as it was asked for. -/
def LargeEnough (h : PoolRun) : Prop := ∀ l ∈ h.leases, l.size ≤ l.buffer.capacity

/-- No control block fails to be allocated for a buffer that was just added to a bucket. -/
def clean (h : PoolRun) : PoolEvent → Bool
  | .get size .control => !h.pool.grows size
  | _ => true

end PoolRun

/-! ## What Get can do -/

namespace Bucket

variable {b : Bucket}

/-- The places of an address in a bucket. -/
def held (b : Bucket) (a : Nat) : Nat := (b.buffers.map Buffer.address).count a

theorem decrement_of_pos (h : 0 < b.allocatedCount) :
    b.decrement = { b with allocatedCount := b.allocatedCount - 1 } := by
  have hne : ¬b.allocatedCount = 0 := Nat.ne_of_gt h
  have hbeq : (b.allocatedCount == 0) = false := beq_false_of_ne hne
  rw [decrement, if_neg hne, hbeq, Bool.or_false]

/-- A buffer that is counted off again. -/
theorem decrement_grown (b : Bucket) :
    ({ b with allocatedCount := b.allocatedCount + 1 } : Bucket).decrement = b :=
  decrement_of_pos (Nat.succ_pos _)

@[simp] theorem config_decrement (b : Bucket) : b.decrement.config = b.config := rfl

@[simp] theorem config_put (b : Bucket) (buf : Buffer) : (b.put buf).config = b.config := by
  rw [put]
  split <;> rfl

theorem held_put (b : Bucket) (buf : Buffer) (a : Nat) :
    (b.put buf).held a ≤ b.held a + [buf.address].count a := by
  rw [put]
  split
  · rw [held, List.map_append, List.count_append]
    exact Nat.le_refl _
  · exact Nat.le_add_right _ _

theorem mem_put {buf x : Buffer} (h : x ∈ (b.put buf).buffers) : x ∈ b.buffers ∨ x = buf := by
  rw [put] at h
  split at h
  · exact (List.mem_append.mp h).imp_right List.mem_singleton.mp
  · exact .inl h

end Bucket

namespace BufferPool

/-- What a call of `Get` leaves and returns. Whether a control block fails for a buffer that
was just added to a bucket is told apart. -/
inductive Got (p : BufferPool) (size : Nat) : Bool → BufferPool → Option Lease → Prop where
  /-- A buffer that is not pooled, or none. -/
  | apart {next : Nat} : p.next ≤ next → Got p size false { p with next } none
  | unpooled {capacity : Nat} : size ≤ capacity →
      Got p size false { p with next := p.next + 1 } (some ⟨size, ⟨p.next, capacity⟩, none⟩)
  | reused {bs : Nat} {b : Bucket} {init : List Buffer} {buf : Buffer} : size ≤ bs →
      p.buckets.lookup bs = some b → b.buffers = init ++ [buf] →
      Got p size false (p.setBucket bs { b with buffers := init }) (some ⟨size, buf, some bs⟩)
  | returned {bs : Nat} {b : Bucket} {init : List Buffer} {buf : Buffer} :
      p.buckets.lookup bs = some b → b.buffers = init ++ [buf] →
      Got p size false (p.setBucket bs (({ b with buffers := init } : Bucket).put buf)) none
  | grown {bs : Nat} {b : Bucket} : size ≤ bs → p.buckets.lookup bs = some b →
      b.allocatedCount < b.config.maxCount →
      Got p size false
        (setBucket { p with next := p.next + 1 } bs
          { b with allocatedCount := b.allocatedCount + 1 })
        (some ⟨size, ⟨p.next, bs⟩, some bs⟩)
  | cancelled {bs next : Nat} {b : Bucket} : p.buckets.lookup bs = some b → p.next ≤ next →
      Got p size false (setBucket { p with next } bs b) none
  /-- The buffer waits in the bucket and is not counted. -/
  | doubled {bs : Nat} {b : Bucket} : p.buckets.lookup bs = some b → b.buffers = [] →
      Got p size true
        (setBucket { p with next := p.next + 1 } bs { b with buffers := [⟨p.next, bs⟩] }) none

variable {p p' : BufferPool} {size : Nat} {fault : Fault} {lease : Option Lease}

theorem got_direct {capacity : Nat} (hsize : size ≤ capacity)
    (h : p.direct size capacity fault = some (p', lease)) : Got p size false p' lease := by
  cases fault with
  | none =>
      cases h
      exact .unpooled hsize
  | buffer =>
      cases h
      exact .apart (Nat.le_refl _)
  | control =>
      cases h
      exact .apart (Nat.le_succ _)
  | deleter => cases h

/-- **A call of `Get`.** -/
theorem got_get (h : p.get size fault = some (p', lease)) :
    Got p size (decide (fault = .control) && p.grows size) p' lease := by
  rw [get] at h
  rw [grows]
  split at h
  · rename_i hnone
    rw [hnone, Option.any_none, Bool.and_false]
    exact got_direct (Nat.le_refl _) h
  · rename_i bs hbs
    have hsize : size ≤ bs := by simpa using List.find?_some hbs
    rw [hbs, Option.any_some]
    split at h
    · cases h
    · rename_i b hb
      rw [hb, Option.any_some]
      split at h
      · -- the bucket has a buffer
        rename_i buf hlast
        obtain ⟨init, hinit⟩ := List.getLast?_eq_some_iff.mp hlast
        have hdrop : b.buffers.dropLast = init := by rw [hinit, List.dropLast_concat]
        have hfull : b.buffers.isEmpty = false := by
          rw [hinit]
          cases init <;> rfl
        rw [hfull, Bool.false_and, Bool.and_false]
        unfold reuse at h
        simp only [hdrop] at h
        cases fault with
        | none =>
            cases h
            exact .reused hsize hb hinit
        | control =>
            cases h
            exact .returned hb hinit
        | buffer => cases h
        | deleter => cases h
      · rename_i hlast
        have hnil : b.buffers = [] := List.getLast?_eq_none_iff.mp hlast
        rw [hnil, List.isEmpty_nil, Bool.true_and]
        split at h
        · rename_i hroom
          rw [decide_eq_true hroom, Bool.and_true]
          unfold grow at h
          simp only [Bucket.decrement_grown] at h
          cases fault with
          | none =>
              cases h
              exact .grown hsize hb hroom
          | buffer =>
              cases h
              exact .cancelled hb (Nat.le_refl _)
          | control =>
              -- an empty bucket that may grow takes the buffer back
              have hput :
                  ({ b with allocatedCount := b.allocatedCount + 1 } : Bucket).put ⟨p.next, bs⟩ =
                  { b with allocatedCount := b.allocatedCount + 1, buffers := [⟨p.next, bs⟩] } := by
                rw [Bucket.put]
                simp only [hnil]
                exact if_pos (Nat.lt_of_le_of_lt (Nat.zero_le _) hroom)
              simp only [hput] at h
              rw [Bucket.decrement_of_pos (Nat.succ_pos _)] at h
              cases h
              exact .doubled hb hnil
          | deleter =>
              cases h
              exact .cancelled hb (Nat.le_succ _)
        · rename_i hroom
          rw [decide_eq_false hroom, Bool.and_false]
          exact got_direct hsize h

/-! ## Where the buffers are -/

theorem lookup_setBucket (p : BufferPool) (bs : Nat) (b : Bucket) (k : Nat) :
    (p.setBucket bs b).buckets.lookup k = if k = bs then some b else p.buckets.lookup k :=
  Table.lookup_insert_if _ _ _ _

/-- One bucket changes. -/
theorem count_setBucket {bs : Nat} {b : Bucket} (h : p.buckets.lookup bs = some b) (b' : Bucket)
    (a : Nat) : (p.setBucket bs b').idle.count a + b.held a = p.idle.count a + b'.held a := by
  have hperm := (Table.perm_of_lookup h).flatMap_right fun e => e.2.buffers.map Buffer.address
  have hold : p.idle.count a =
      b.held a + ((p.buckets.erase bs).entries.flatMap fun e => e.2.buffers.map
        Buffer.address).count a := by
    rw [idle, hperm.count_eq, List.flatMap_cons, List.count_append]
    rfl
  have hnew : (p.setBucket bs b').idle.count a =
      b'.held a + ((p.buckets.erase bs).entries.flatMap fun e => e.2.buffers.map
        Buffer.address).count a := by
    rw [idle, setBucket, Table.entries_insert_erase, List.flatMap_cons, List.count_append]
    rfl
  omega

end BufferPool

namespace PoolRun

open BufferPool

variable {h h' : PoolRun}

/-- In how many places an address is. -/
def places (p : BufferPool) (leases : List Lease) (a : Nat) : Nat :=
  p.idle.count a + (leases.map fun l => l.buffer.address).count a

/-- Every buffer is in one place and has the capacity of its bucket. -/
structure Sound (h : PoolRun) : Prop where
  once : ∀ a, places h.pool h.leases a ≤ if a < h.pool.next then 1 else 0
  idle : ∀ bs b, h.pool.buckets.lookup bs = some b → ∀ buf ∈ b.buffers, buf.capacity = bs
  home : ∀ l ∈ h.leases, ∀ bs, l.home = some bs → l.buffer.capacity = bs
  large : h.LargeEnough

theorem Sound.distinct (hs : Sound h) : h.Distinct := by
  rw [Distinct, List.nodup_iff_count_le_one]
  intro a
  have honce := hs.once a
  rw [List.count_append, outstanding]
  rw [places] at honce
  split at honce <;> omega

theorem places_lease (p : BufferPool) (leases : List Lease) (l : Lease) (a : Nat) :
    places p (leases ++ [l]) a = places p leases a + [l.buffer.address].count a := by
  rw [places, places, List.map_append, List.count_append]
  exact (Nat.add_assoc _ _ _).symm

/-- The place of a buffer that is out. -/
theorem places_eraseIdx {leases : List Lease} {i : Nat} {l : Lease} (hl : leases[i]? = some l)
    (p : BufferPool) (a : Nat) :
    places p (leases.eraseIdx i) a + [l.buffer.address].count a = places p leases a := by
  obtain ⟨hlt, rfl⟩ := List.getElem?_eq_some_iff.mp hl
  have hperm := (List.getElem_cons_eraseIdx_perm hlt).map fun l => l.buffer.address
  have hcount : [leases[i].buffer.address].count a +
      ((leases.eraseIdx i).map fun l => l.buffer.address).count a =
        (leases.map fun l => l.buffer.address).count a := by
    rw [← hperm.count_eq a, List.map_cons, ← List.count_append]
    rfl
  rw [places, places]
  omega

/-- What the replacement of a bucket does to the places. -/
theorem places_setBucket {p : BufferPool} {bs : Nat} {b : Bucket}
    (hb : p.buckets.lookup bs = some b) (leases : List Lease) (b' : Bucket) (a : Nat) :
    places (p.setBucket bs b') leases a + b.held a = places p leases a + b'.held a := by
  have hcount : (p.setBucket bs b').idle.count a + b.held a = p.idle.count a + b'.held a :=
    count_setBucket hb b' a
  rw [places, places]
  omega

/-- The addresses below the next one are allocated, and new buffers take those that follow. -/
theorem once_range {f : Nat → Nat} {next : Nat} (hold : ∀ a, f a ≤ if a < next then 1 else 0)
    (n a : Nat) : f a + (List.range' next n).count a ≤ if a < next + n then 1 else 0 := by
  have ha := hold a
  by_cases hmem : a ∈ List.range' next n
  · have hcount : (List.range' next n).count a ≤ 1 :=
      List.nodup_iff_count_le_one.mp List.nodup_range' a
    obtain ⟨hle, hlt⟩ := List.mem_range'_1.mp hmem
    rw [if_neg (Nat.not_lt.mpr hle)] at ha
    rw [if_pos hlt]
    omega
  · rw [List.count_eq_zero.mpr hmem]
    split at ha
    · rw [if_pos (by omega)]
      exact ha
    · exact ha.trans (Nat.zero_le _)

theorem once_new {f : Nat → Nat} {next : Nat}
    (hold : ∀ a, f a ≤ if a < next then 1 else 0) (a : Nat) :
    f a + [next].count a ≤ if a < next + 1 then 1 else 0 := once_range hold 1 a

theorem once_mono {f g : Nat → Nat} {next next' : Nat} (hold : ∀ a, f a ≤ if a < next then 1 else 0)
    (hle : ∀ a, g a ≤ f a) (hnext : next ≤ next') (a : Nat) : g a ≤ if a < next' then 1 else 0 := by
  have ha := hold a
  have hg := hle a
  split at ha
  · rw [if_pos (by omega)]
    omega
  · omega

/-- The leases after a call of `Get`. -/
theorem forall_leases {leases : List Lease} {l : Lease} {P : Lease → Prop}
    (hold : ∀ l ∈ leases, P l) (hnew : P l) : ∀ l' ∈ leases ++ [l], P l' := by
  intro l' hl'
  rcases List.mem_append.mp hl' with hmem | hmem
  · exact hold l' hmem
  · exact List.mem_singleton.mp hmem ▸ hnew

/-- The bucket that a step replaces. -/
theorem sound_idle (hs : Sound h) {p : BufferPool} {bs : Nat} {b' : Bucket}
    (hp : p.buckets = h.pool.buckets) (hb' : ∀ buf ∈ b'.buffers, buf.capacity = bs) :
    ∀ k b, (p.setBucket bs b').buckets.lookup k = some b → ∀ buf ∈ b.buffers, buf.capacity = k := by
  intro k b hk buf hbuf
  rw [lookup_setBucket, hp] at hk
  split at hk
  · rename_i heq
    cases hk
    rw [heq]
    exact hb' buf hbuf
  · exact hs.idle k b hk buf hbuf

theorem held_append (b : Bucket) (init : List Buffer) (buf : Buffer)
    (hb : b.buffers = init ++ [buf])
    (a : Nat) : b.held a = ({ b with buffers := init } : Bucket).held a +
    [buf.address].count a := by
  rw [Bucket.held, hb, List.map_append, List.count_append]
  rfl

/-- **A call of `Get` leaves every buffer in one place.** -/
theorem sound_get (hs : Sound h) {size : Nat} {c : Bool} {p' : BufferPool} {lease : Option Lease}
    (hgot : Got h.pool size c p' lease) : Sound ⟨p', h.leases ++ lease.toList⟩ := by
  have hmem : ∀ {b : Bucket} {init : List Buffer} {last : Buffer}, b.buffers = init ++ [last] →
      (∀ buf ∈ init, buf ∈ b.buffers) ∧ last ∈ b.buffers := by
    intro b init last hb
    rw [hb]
    exact ⟨fun _ => List.mem_append_left _, List.mem_append_right _ List.mem_cons_self⟩
  cases hgot with
  | apart hnext =>
      rw [Option.toList_none, List.append_nil]
      exact ⟨once_mono hs.once (fun a => Nat.le_refl _) hnext, hs.idle, hs.home, hs.large⟩
  | unpooled hsize =>
      -- a buffer of no bucket: its name is new
      refine ⟨fun a => ?_, hs.idle, forall_leases hs.home (by simp), forall_leases hs.large hsize⟩
      rw [Option.toList_some, places_lease]
      exact once_new hs.once a
  | reused hsize hb hinit =>
      rename_i bs b init buf
      have hcap := hs.idle bs b hb
      have hbuf : buf.capacity = bs := hcap buf (hmem hinit).2
      refine ⟨once_mono hs.once (fun a => ?_) (Nat.le_refl _), sound_idle hs rfl fun x hx => ?_,
        forall_leases hs.home ?_, forall_leases hs.large ?_⟩
      · have hplaces := places_setBucket hb h.leases { b with buffers := init } a
        -- the buffer leaves the bucket for the lease
        rw [held_append b init buf hinit a] at hplaces
        rw [Option.toList_some, places_lease]
        dsimp only
        omega
      · exact hcap x ((hmem hinit).1 x hx)
      · rintro k ⟨⟩
        exact hbuf
      · exact hsize.trans_eq hbuf.symm
  | returned hb hinit =>
      rename_i bs b init buf
      have hcap := hs.idle bs b hb
      rw [Option.toList_none, List.append_nil]
      refine ⟨once_mono hs.once (fun a => ?_) (Nat.le_refl _), sound_idle hs rfl fun x hx => ?_,
        hs.home, hs.large⟩
      · have hplaces := places_setBucket hb h.leases
          (({ b with buffers := init } : Bucket).put buf) a
        -- it is put back where it was taken from
        have hheld := Bucket.held_put { b with buffers := init } buf a
        rw [held_append b init buf hinit a] at hplaces
        dsimp only
        omega
      · rcases Bucket.mem_put hx with hx | rfl
        · exact hcap x ((hmem hinit).1 x hx)
        · exact hcap x (hmem hinit).2
  | grown hsize hb hroom =>
      rename_i bs b
      refine ⟨fun a => ?_, sound_idle hs rfl (hs.idle bs b hb), forall_leases hs.home ?_,
        forall_leases hs.large hsize⟩
      · have hplaces := places_setBucket (p := { h.pool with next := h.pool.next + 1 }) hb h.leases
          { b with allocatedCount := b.allocatedCount + 1 } a
        -- the bucket counts a buffer more, and holds the same ones
        rw [Option.toList_some, places_lease, Nat.add_right_cancel hplaces]
        exact once_new hs.once a
      · rintro k ⟨⟩
        rfl
  | cancelled hb hnext =>
      rename_i bs next b
      rw [Option.toList_none, List.append_nil]
      refine ⟨once_mono hs.once (fun a => ?_) hnext, sound_idle hs rfl (hs.idle bs b hb), hs.home,
        hs.large⟩
      have hplaces := places_setBucket (p := { h.pool with next }) hb h.leases b a
      exact Nat.le_of_eq (Nat.add_right_cancel hplaces)
  | doubled hb hnil =>
      rename_i bs b
      rw [Option.toList_none, List.append_nil]
      refine ⟨fun a => ?_, sound_idle hs rfl fun x hx => ?_, hs.home, hs.large⟩
      · have hplaces := places_setBucket (p := { h.pool with next := h.pool.next + 1 }) hb h.leases
          { b with buffers := [⟨h.pool.next, bs⟩] } a
        -- the list was empty, so nothing it held is lost
        have hempty : b.held a = 0 := by
          rw [Bucket.held, hnil]
          rfl
        rw [hempty, Nat.add_zero] at hplaces
        rw [hplaces]
        exact once_new hs.once a
      · rw [List.mem_singleton.mp hx]

/-- A buffer comes back. -/
theorem sound_release (hs : Sound h) {i : Nat} {l : Lease} (hl : h.leases[i]? = some l) :
    Sound ⟨h.pool.release l, h.leases.eraseIdx i⟩ := by
  have hmem : l ∈ h.leases := List.mem_of_getElem? hl
  have hhome : ∀ x ∈ h.leases.eraseIdx i, x ∈ h.leases := fun _ => List.mem_of_mem_eraseIdx
  have hdropped : Sound ⟨h.pool, h.leases.eraseIdx i⟩ :=
    ⟨once_mono hs.once (fun a => Nat.le.intro (places_eraseIdx hl h.pool a)) (Nat.le_refl _),
      hs.idle, fun x hx => hs.home x (hhome x hx), fun x hx => hs.large x (hhome x hx)⟩
  rw [release]
  split
  · exact hdropped
  · rename_i bs hbs
    split
    · exact hdropped
    · rename_i b hb
      refine ⟨once_mono hs.once (fun a => ?_) (Nat.le_refl _), sound_idle hs rfl fun x hx => ?_,
        hdropped.home, hdropped.large⟩
      · have hplaces := places_setBucket hb (h.leases.eraseIdx i) (b.put l.buffer) a
        have hout := places_eraseIdx hl h.pool a
        have hheld := b.held_put l.buffer a
        dsimp only
        omega
      · rcases Bucket.mem_put hx with hx | rfl
        · exact hs.idle bs b hb x hx
        · exact hs.home l hmem bs hbs

theorem sound_step (hs : Sound h) {e : PoolEvent} (he : h.step e = some h') : Sound h' := by
  cases e with
  | get size fault =>
      obtain ⟨⟨p', lease⟩, hget, rfl⟩ := Option.map_eq_some_iff.mp he
      exact sound_get hs (got_get hget)
  | release i =>
      obtain ⟨l, hl, rfl⟩ := Option.map_eq_some_iff.mp he
      exact sound_release hs hl

end PoolRun

/-! ## The counters -/

/-- A bucket some of whose buffers are out. -/
structure Bucket.Right (b : Bucket) (initial rented : Nat) : Prop where
  count : b.allocatedCount = b.buffers.length + rented
  sound : b.underflowed = false
  limit : initial ≤ b.config.maxCount → b.allocatedCount ≤ b.config.maxCount

namespace Bucket.Right

variable {b : Bucket} {initial rented : Nat}

/-- A buffer that is counted comes back: into the bucket, or off its counter. -/
theorem put (h : b.Right initial (rented + 1)) (buf : Buffer) :
    (b.put buf).Right initial rented := by
  have hcount := h.count
  rw [Bucket.put]
  split
  · refine ⟨?_, h.sound, h.limit⟩
    simp only [List.length_append, List.length_singleton]
    omega
  · rw [decrement_of_pos (by omega)]
    refine ⟨?_, h.sound, fun hinit => (Nat.sub_le _ _).trans (h.limit hinit)⟩
    dsimp only
    omega

theorem take (h : b.Right initial rented) {init : List Buffer} {buf : Buffer}
    (hb : b.buffers = init ++ [buf]) :
    ({ b with buffers := init } : Bucket).Right initial (rented + 1) := by
  refine ⟨?_, h.sound, h.limit⟩
  have hcount := h.count
  rw [hb, List.length_append, List.length_singleton] at hcount
  dsimp only
  omega

theorem grow (h : b.Right initial rented) (hroom : b.allocatedCount < b.config.maxCount) :
    ({ b with allocatedCount := b.allocatedCount + 1 } : Bucket).Right initial (rented + 1) :=
  ⟨congrArg (· + 1) h.count, h.sound, fun _ => hroom⟩

end Bucket.Right

namespace PoolRun

open BufferPool

variable {h h' : PoolRun} {configs : List PoolConfig}

/-- Every counter is right and within its limit. -/
def Counted (configs : List PoolConfig) (h : PoolRun) : Prop :=
  ∀ bs b, h.pool.buckets.lookup bs = some b → b.Right (initialCount configs bs) (h.rented bs)

theorem Counted.accounted (hc : Counted configs h) : h.Accounted :=
  fun bs b hb => ⟨(hc bs b hb).count, (hc bs b hb).sound⟩

theorem Counted.bounded (hc : Counted configs h) : h.Bounded configs :=
  fun bs b hb => (hc bs b hb).limit

theorem rented_lease (p p' : BufferPool) (leases : List Lease) (l : Lease) (bs : Nat) :
    (PoolRun.mk p' (leases ++ [l])).rented bs =
      (PoolRun.mk p leases).rented bs + if l.home = some bs then 1 else 0 := by
  rw [rented, rented, List.countP_append, List.countP_singleton]
  by_cases hbs : l.home = some bs <;> simp [hbs]

theorem rented_eraseIdx {leases : List Lease} {i : Nat} {l : Lease} (hl : leases[i]? = some l)
    (p p' : BufferPool) (bs : Nat) :
    (PoolRun.mk p leases).rented bs =
      (PoolRun.mk p' (leases.eraseIdx i)).rented bs + if l.home = some bs then 1 else 0 := by
  obtain ⟨hlt, rfl⟩ := List.getElem?_eq_some_iff.mp hl
  have hperm := List.getElem_cons_eraseIdx_perm hlt
  rw [rented, rented, ← hperm.countP_eq, List.countP_cons]
  simp

/-- One bucket is replaced by one that is right, and the others keep what is out. -/
theorem Counted.setBucket (hc : Counted configs h) {p : BufferPool} {leases : List Lease} {bs : Nat}
    {b' : Bucket} (hp : p.buckets = h.pool.buckets)
    (hb' : b'.Right (initialCount configs bs) ((PoolRun.mk (p.setBucket bs b') leases).rented bs))
    (hother : ∀ k, k ≠ bs → (PoolRun.mk (p.setBucket bs b') leases).rented k = h.rented k) :
    Counted configs ⟨p.setBucket bs b', leases⟩ := by
  intro k b hk
  rw [lookup_setBucket, hp] at hk
  split at hk
  · rename_i heq
    cases hk
    rw [heq]
    exact hb'
  · rename_i hne
    rw [hother k hne]
    exact hc k b hk

/-- **A call of `Get` in which no control block fails for a new pooled buffer.** -/
theorem counted_get (hc : Counted configs h) {size : Nat} {p' : BufferPool} {lease : Option Lease}
    (hgot : Got h.pool size false p' lease) : Counted configs ⟨p', h.leases ++ lease.toList⟩ := by
  have hrented : ∀ (p : BufferPool) (bs : Nat) (l : Lease), l.home = some bs → ∀ k,
      (PoolRun.mk p (h.leases ++ [l])).rented k = h.rented k + if k = bs then 1 else 0 := by
    intro p bs l hl k
    rw [rented_lease h.pool, hl]
    by_cases hk : k = bs
    · rw [if_pos hk, if_pos (congrArg some hk.symm)]
    · rw [if_neg hk, if_neg fun h => hk (Option.some.inj h).symm]
  cases hgot with
  | apart =>
      rw [Option.toList_none, List.append_nil]
      exact hc
  | unpooled =>
      intro k b hk
      rw [Option.toList_some, rented_lease h.pool]
      exact hc k b hk
  | reused _ hb hinit =>
      refine hc.setBucket rfl ?_ fun k hk => ?_
      · rw [Option.toList_some, hrented _ _ _ rfl, if_pos rfl]
        exact (hc _ _ hb).take hinit
      · rw [Option.toList_some, hrented _ _ _ rfl, if_neg hk]
        rfl
  | returned hb hinit =>
      rw [Option.toList_none, List.append_nil]
      exact hc.setBucket rfl (((hc _ _ hb).take hinit).put _) fun _ _ => rfl
  | grown _ hb hroom =>
      refine hc.setBucket rfl ?_ fun k hk => ?_
      · rw [Option.toList_some, hrented _ _ _ rfl, if_pos rfl]
        exact (hc _ _ hb).grow hroom
      · rw [Option.toList_some, hrented _ _ _ rfl, if_neg hk]
        rfl
  | cancelled hb =>
      rw [Option.toList_none, List.append_nil]
      exact hc.setBucket rfl (hc _ _ hb) fun _ _ => rfl

theorem counted_release (hc : Counted configs h) {i : Nat} {l : Lease}
    (hl : h.leases[i]? = some l) :
    Counted configs ⟨h.pool.release l, h.leases.eraseIdx i⟩ := by
  have hrented : ∀ (p : BufferPool) (bs : Nat), h.rented bs =
      (PoolRun.mk p (h.leases.eraseIdx i)).rented bs + if l.home = some bs then 1 else 0 :=
    rented_eraseIdx hl h.pool
  rw [release]
  split
  · rename_i hhome
    intro k b hk
    have hk' := hc k b hk
    rw [hrented h.pool, hhome] at hk'
    exact hk'
  · rename_i bs hhome
    have hother : ∀ p k, k ≠ bs → (PoolRun.mk p (h.leases.eraseIdx i)).rented k = h.rented k := by
      intro p k hk
      rw [hrented p k, hhome, if_neg fun h => hk (Option.some.inj h).symm, Nat.add_zero]
    split
    · rename_i hnone
      intro k b hk
      have hne : k ≠ bs := by
        rintro rfl
        exact Option.some_ne_none b (hk.symm.trans hnone)
      rw [hother _ k hne]
      exact hc k b hk
    · rename_i b hb
      refine hc.setBucket rfl ?_ (hother _)
      have hright := hc bs b hb
      rw [hrented (h.pool.setBucket bs (b.put l.buffer)) bs, hhome, if_pos rfl] at hright
      exact hright.put l.buffer

theorem counted_step (hc : Counted configs h) {e : PoolEvent} (hclean : h.clean e = true)
    (he : h.step e = some h') : Counted configs h' := by
  cases e with
  | get size fault =>
      obtain ⟨⟨p', lease⟩, hget, rfl⟩ := Option.map_eq_some_iff.mp he
      have hgot := got_get hget
      have hgrows : (decide (fault = .control) && h.pool.grows size) = false := by
        cases fault with
        | control => simpa [clean] using hclean
        | _ => rfl
      rw [hgrows] at hgot
      exact counted_get hc hgot
  | release i =>
      obtain ⟨l, hl, rfl⟩ := Option.map_eq_some_iff.mp he
      exact counted_release hc hl

/-- The buffer that the deleter gave back is not counted. -/
theorem not_accounted_of_unclean (ha : h.Accounted) {e : PoolEvent} (hclean : h.clean e = false)
    (he : h.step e = some h') : ¬h'.Accounted := by
  cases e with
  | release i => cases hclean
  | get size fault =>
      cases fault with
      | control =>
          obtain ⟨⟨p', lease⟩, hget, rfl⟩ := Option.map_eq_some_iff.mp he
          have hgot := got_get hget
          have hgrows : h.pool.grows size = true := by simpa [clean] using hclean
          rw [decide_eq_true rfl, Bool.true_and, hgrows] at hgot
          cases hgot with
          | doubled hb hnil =>
              rename_i bs b
              intro hdoubled
              have hbefore := (ha bs b hb).1
              have hafter := (hdoubled bs _ ((lookup_setBucket _ _ _ _).trans (if_pos rfl))).1
              rw [hnil] at hbefore
              simp only [List.length_singleton, Option.toList_none, List.append_nil] at hafter
              have hrented : (PoolRun.mk
                (BufferPool.setBucket { h.pool with next := h.pool.next + 1 } bs
                  { b with buffers := [⟨h.pool.next, bs⟩] }) h.leases).rented bs =
                    h.rented bs := rfl
              rw [hrented] at hafter
              simp only [List.length_nil] at hbefore
              omega
      | _ => cases hclean

/-! ## The constructor -/

/-- The bucket that a configuration adds to, empty if it is new. -/
theorem places_addConfig (p : BufferPool) (config : PoolConfig) (a : Nat) :
    places (p.addConfig config) [] a =
      places p [] a + (List.range' p.next config.initialCount).count a := by
  have hallocated : ((allocate p.next config.initialCount config.bufferSize).map Buffer.address) =
      List.range' p.next config.initialCount := by
    rw [allocate, List.map_map]
    exact List.map_id _
  let b := (p.buckets.lookup config.bufferSize).getD { config }
  let b' : Bucket := { b with
    config
    buffers := b.buffers ++ allocate p.next config.initialCount config.bufferSize
    allocatedCount := b.allocatedCount + config.initialCount }
  have hheld : b'.held a = b.held a + (List.range' p.next config.initialCount).count a := by
    rw [Bucket.held, List.map_append, hallocated, List.count_append]
    rfl
  have hidle : (p.setBucket config.bufferSize b').idle.count a + b.held a =
      p.idle.count a + b'.held a := by
    cases hb : p.buckets.lookup config.bufferSize with
    | none =>
        have hempty : b = { config } := by
          show (p.buckets.lookup config.bufferSize).getD _ = _
          rw [hb, Option.getD_none]
        have hentries := AList.entries_insert_of_notMem (b := b') (AList.lookup_eq_none.mp hb)
        rw [BufferPool.idle, setBucket, hentries, List.flatMap_cons, List.count_append, hempty]
        exact Nat.add_comm (b'.held a) (p.idle.count a)
    | some b₀ =>
        have hsame : b = b₀ := by
          show (p.buckets.lookup config.bufferSize).getD _ = _
          rw [hb, Option.getD_some]
        rw [hsame]
        exact count_setBucket hb b' a
  show (p.setBucket config.bufferSize b').idle.count a + 0 = p.idle.count a + 0 + _
  omega

theorem sound_addConfig {p : BufferPool} (hs : Sound ⟨p, []⟩) (config : PoolConfig) :
    Sound ⟨p.addConfig config, []⟩ := by
  refine ⟨fun a => ?_, sound_idle hs rfl fun x hx => ?_, hs.home, hs.large⟩
  · dsimp only
    rw [places_addConfig]
    exact once_range hs.once _ a
  · rcases List.mem_append.mp hx with hx | hx
    · cases hb : p.buckets.lookup config.bufferSize with
      | none =>
          rw [hb] at hx
          cases hx
      | some b =>
          rw [hb] at hx
          exact hs.idle _ b hb x hx
    · obtain ⟨_, _, rfl⟩ := List.mem_map.mp hx
      rfl

/-- The buckets that the constructor has made from its first configurations. -/
structure Built (configs : List PoolConfig) (p : BufferPool) : Prop where
  sound : Sound ⟨p, []⟩
  full : ∀ bs b, p.buckets.lookup bs = some b → b.allocatedCount = b.buffers.length ∧
    b.underflowed = false ∧ b.allocatedCount = initialCount configs bs
  absent : ∀ bs, p.buckets.lookup bs = none → initialCount configs bs = 0

theorem initialCount_append (configs : List PoolConfig) (config : PoolConfig) (bs : Nat) :
    initialCount (configs ++ [config]) bs =
      initialCount configs bs + if bs = config.bufferSize then config.initialCount else 0 := by
  rw [initialCount, initialCount, List.filter_append, List.map_append, List.sum_append]
  by_cases hbs : config.bufferSize = bs
  · simp [hbs]
  · simp [hbs, Ne.symm hbs]

theorem built_addConfig {p : BufferPool} (hp : Built configs p) (config : PoolConfig) :
    Built (configs ++ [config]) (p.addConfig config) := by
  have hlookup : ∀ k, (p.addConfig config).buckets.lookup k =
      if k = config.bufferSize then some _ else p.buckets.lookup k :=
    lookup_setBucket p config.bufferSize _
  refine ⟨sound_addConfig hp.sound config, fun k b hk => ?_, fun k hk => ?_⟩
  · rw [initialCount_append]
    rw [hlookup] at hk
    split at hk
    · rename_i heq
      cases hk
      subst heq
      simp only [allocate, List.length_append, List.length_map, List.length_range', if_pos]
      cases hb : p.buckets.lookup config.bufferSize with
      | none =>
          rw [hp.absent _ hb]
          exact ⟨rfl, rfl, rfl⟩
      | some b =>
          obtain ⟨hcount, hsound, hinit⟩ := hp.full _ b hb
          exact ⟨congrArg (· + _) hcount, hsound, congrArg (· + _) hinit⟩
    · rename_i hne
      rw [if_neg hne]
      exact hp.full k b hk
  · rw [hlookup] at hk
    split at hk
    · cases hk
    · rename_i hne
      rw [initialCount_append, if_neg hne, hp.absent k hk]

theorem built_foldl (configs : List PoolConfig) : Built configs (configs.foldl addConfig {}) := by
  induction configs using List.reverseRecOn with
  | nil =>
      have hnone : ∀ (bs : Nat) (b : Bucket), (∅ : Table Nat Bucket).lookup bs ≠ some b :=
        fun _ _ => Option.some_ne_none _ ∘ Eq.symm
      exact ⟨⟨fun a => Nat.zero_le _, fun bs b hb => absurd hb (hnone bs b),
          List.forall_mem_nil _, List.forall_mem_nil _⟩,
        fun bs b hb => absurd hb (hnone bs b), fun _ _ => rfl⟩
  | append_singleton configs config ih =>
      rw [List.foldl_append]
      exact built_addConfig ih config

theorem sound_start (configs : List PoolConfig) : Sound (start configs) :=
  have hs := (built_foldl configs).sound
  ⟨hs.once, hs.idle, hs.home, hs.large⟩

theorem counted_start (configs : List PoolConfig) : Counted configs (start configs) := by
  intro bs b hb
  obtain ⟨hcount, hsound, hinit⟩ := (built_foldl configs).full bs b hb
  exact ⟨hcount, hsound, hinit.trans_le⟩

/-- **Buffers are never shared, and the counters are right as long as no control block fails to
be allocated for a buffer that was just added to a bucket.** Such a failure makes a counter
wrong. -/
theorem accounted_of_reach {configs : List PoolConfig} {h : PoolRun}
    (hr : Reach step anyStep (start configs) h) :
    h.Distinct ∧ h.LargeEnough ∧
      (Reach step (fun h e => h.clean e = true) (start configs) h →
        h.Accounted ∧ h.Bounded configs ∧
          ∀ e h', h.step e = some h' → (h'.Accounted ↔ h.clean e = true)) := by
  have hs : Sound h := hr.invariant (sound_start configs) fun h e h' hs _ he => sound_step hs he
  refine ⟨hs.distinct, hs.large, fun hclean => ?_⟩
  have hc : Counted configs h := hclean.invariant (counted_start configs)
    fun h e h' hc hok he => counted_step hc hok he
  refine ⟨hc.accounted, hc.bounded, fun e h' he => ⟨fun ha => ?_, fun hok => ?_⟩⟩
  · by_contra hne
    exact not_accounted_of_unclean hc.accounted (Bool.eq_false_of_not_eq_true hne) he ha
  · exact (counted_step hc hok he).accounted

/-- Two buckets for one size, the first limit overwritten by a smaller one. -/
theorem accounted_small :
    ∃ h : PoolRun, (h.Distinct ∧ h.LargeEnough ∧ h.Accounted ∧
        h.Bounded [⟨512, 1, 4⟩, ⟨512, 2, 2⟩] ∧
        ∀ e h', h.step e = some h' → (h'.Accounted ↔ h.clean e = true)) ∧
      h.pool.idle = [0, 1] ∧ h.outstanding = [] := by
  obtain ⟨h, hr, hidle⟩ := exists_of_runGuarded step clean
    [.get 100 .none, .get 512 .control, .release 0, .get 600 .none, .get 512 .none,
      .release 0, .release 0]
    (fun h => (h.pool.idle, h.outstanding)) (s := start [⟨512, 1, 4⟩, ⟨512, 2, 2⟩])
    (show _ = some ([0, 1], []) by decide)
  obtain ⟨hdistinct, hlarge, hclean⟩ := accounted_of_reach hr.any
  exact ⟨h, ⟨hdistinct, hlarge, hclean hr⟩, congrArg Prod.fst hidle, congrArg Prod.snd hidle⟩

/-- The buffer waits in the bucket, and the bucket counts none. -/
theorem control_miscounts :
    ¬∀ (configs : List PoolConfig) (h : PoolRun), Reach step anyStep (start configs) h →
      h.Accounted := by
  intro hall
  obtain ⟨h, hr, hbucket⟩ := exists_of_runAll step [.get 100 .control]
    (fun h => h.pool.buckets.lookup 512)
    (s := start [⟨512, 0, 2⟩])
    (show _ =
      some (some { config := ⟨512, 0, 2⟩, buffers := [⟨0, 512⟩], allocatedCount := 0 }) by decide)
  have hcount := (hall _ h hr 512 _ hbucket).1
  simp only [List.length_singleton] at hcount
  omega

end PoolRun

end Cfrp.Memory

import Mathlib.Data.List.Nodup
import Mathlib.Data.List.Perm.Basic

/-!
# The buffer pool

`BufferPool` keeps a stack of free buffers for each size. A buffer goes back on its stack
when the last `shared_ptr` to it is dropped, and the next `Get` of that size takes the
same buffer. Buffers are numbers here, in the order in which they were allocated. All
that is proved is that a buffer is in one place at a time: `PoolInv` says that the free
buffers and those in use are pairwise different.
-/

namespace Cfrp.Quic

/-- A buffer that was allocated. -/
abbrev BufId := Nat

structure Bucket where
  bufferSize : Nat
  maxCount : Nat
  /-- `buffers`, the back first. -/
  buffers : List BufId := []
  allocatedCount : Nat := 0

structure BufferPool where
  /-- The buckets, in the order of `bucket_sizes_`. -/
  buckets : List Bucket
  next : BufId

/-- A `shared_ptr` that `Get` returned: its buffer, and the bucket its deleter returns it to. -/
structure Handle where
  buf : BufId
  home : Option Nat
  deriving DecidableEq

/-- `BufferPool::PoolConfig`. -/
structure PoolConfig where
  bufferSize : Nat
  initialCount : Nat
  maxCount : Nat

namespace BufferPool

/-- The buckets that the constructor fills. -/
def fill : BufId → List PoolConfig → List Bucket × BufId
  | next, [] => ([], next)
  | next, c :: configs =>
      let (buckets, after) := fill (next + c.initialCount) configs
      ({ bufferSize := c.bufferSize, maxCount := c.maxCount
         buffers := (List.range' next c.initialCount).reverse
         allocatedCount := c.initialCount } :: buckets, after)

/-- The constructor, its configurations in the order of their sizes as `CreateByProfile`
gives them. -/
def create (configs : List PoolConfig) : BufferPool :=
  ⟨(fill 0 configs).1, (fill 0 configs).2⟩

/-- The body of `Get`: the first bucket that is large enough. -/
def getFrom (next : BufId) (size : Nat) : List Bucket → List Bucket × Handle × BufId
  | [] => ([], ⟨next, none⟩, next + 1)
  | b :: rest =>
      if b.bufferSize ≥ size then
        match b.buffers with
        | buf :: buffers => ({ b with buffers := buffers } :: rest, ⟨buf, some b.bufferSize⟩, next)
        | [] =>
            if b.allocatedCount < b.maxCount then
              ({ b with allocatedCount := b.allocatedCount + 1 } :: rest,
                ⟨next, some b.bufferSize⟩, next + 1)
            else (b :: rest, ⟨next, none⟩, next + 1)
      else
        let (rest, h, next) := getFrom next size rest
        (b :: rest, h, next)

/-- `Get`. -/
def get (pool : BufferPool) (size : Nat) : BufferPool × Handle :=
  let (buckets, h, next) := getFrom pool.next size pool.buckets
  (⟨buckets, next⟩, h)

/-- `Return`, to the bucket of that size. -/
def returnTo (bucketSize : Nat) (buf : BufId) : List Bucket → List Bucket
  | [] => []
  | b :: rest =>
      if b.bufferSize = bucketSize then
        if b.buffers.length < b.maxCount then { b with buffers := buf :: b.buffers } :: rest
        else { b with allocatedCount := b.allocatedCount - 1 } :: rest
      else b :: returnTo bucketSize buf rest

/-- The last reference to a buffer is dropped. -/
def drop (pool : BufferPool) (h : Handle) : BufferPool :=
  match h.home with
  | some bucketSize => { pool with buckets := returnTo bucketSize h.buf pool.buckets }
  | none => pool

/-- The buffers that wait in the pool. -/
def free (pool : BufferPool) : List BufId := pool.buckets.flatMap Bucket.buffers

/-- Every buffer is free or in use by one owner, and was allocated. -/
structure PoolInv (pool : BufferPool) (used : List BufId) : Prop where
  disjoint : (pool.free ++ used).Nodup
  allocated : ∀ buf ∈ pool.free ++ used, buf < pool.next

theorem fill_spec (configs : List PoolConfig) (next : BufId) :
    ∃ count, (fill next configs).2 = next + count ∧
      ((fill next configs).1.flatMap Bucket.buffers).Perm (List.range' next count) := by
  induction configs generalizing next with
  | nil => exact ⟨0, rfl, List.Perm.refl _⟩
  | cons c configs ih =>
      obtain ⟨count, hafter, hperm⟩ := ih (next + c.initialCount)
      refine ⟨c.initialCount + count, ?_, ?_⟩
      · show (fill (next + c.initialCount) configs).2 = _
        rw [hafter, Nat.add_assoc]
      · show ((List.range' next c.initialCount).reverse ++
          (fill (next + c.initialCount) configs).1.flatMap Bucket.buffers).Perm _
        rw [← List.range'_append_1]
        exact (List.reverse_perm _).append hperm

theorem poolInv_create (configs : List PoolConfig) : PoolInv (create configs) [] := by
  obtain ⟨count, hafter, hperm⟩ := fill_spec configs 0
  have hfree : ((create configs).free ++ []).Perm (List.range' 0 count) := by
    rw [List.append_nil]
    exact hperm
  refine ⟨hfree.nodup_iff.mpr List.nodup_range', fun buf hbuf => ?_⟩
  have hlt := List.mem_range'_1.mp (hfree.subset hbuf)
  show buf < (fill 0 configs).2
  rw [hafter]
  exact hlt.2

/-- Where `Get` takes the buffer from. -/
theorem getFrom_spec (next : BufId) (size : Nat) (buckets : List Bucket) :
    let r := getFrom next size buckets
    ((r.2.1.buf :: r.1.flatMap Bucket.buffers).Perm (buckets.flatMap Bucket.buffers) ∧
        r.2.2 = next) ∨
      (r.1.flatMap Bucket.buffers = buckets.flatMap Bucket.buffers ∧ r.2.1.buf = next ∧
        r.2.2 = next + 1) := by
  induction buckets with
  | nil => exact Or.inr ⟨rfl, rfl, rfl⟩
  | cons b rest ih =>
      rw [getFrom]
      by_cases hsize : b.bufferSize ≥ size
      · rw [if_pos hsize]
        cases hb : b.buffers with
        | cons buf buffers =>
            refine Or.inl ⟨?_, rfl⟩
            rw [List.flatMap_cons, List.flatMap_cons, hb]
            exact List.Perm.refl _
        | nil =>
            by_cases hroom : b.allocatedCount < b.maxCount
            · rw [if_pos hroom]
              refine Or.inr ⟨?_, rfl, rfl⟩
              rw [List.flatMap_cons, List.flatMap_cons, hb]
            · rw [if_neg hroom]
              exact Or.inr ⟨rfl, rfl, rfl⟩
      · rw [if_neg hsize]
        rcases ih with ⟨hperm, hnext⟩ | ⟨hsame, hbuf, hnext⟩
        · refine Or.inl ⟨?_, hnext⟩
          rw [List.flatMap_cons, List.flatMap_cons]
          exact (List.perm_middle.symm).trans (hperm.append_left _)
        · refine Or.inr ⟨?_, hbuf, hnext⟩
          rw [List.flatMap_cons, List.flatMap_cons, hsame]

/-- **`Get`** hands out a buffer that nobody uses. -/
theorem PoolInv.get {pool : BufferPool} {used : List BufId} (h : PoolInv pool used) (size : Nat) :
    PoolInv (pool.get size).1 ((pool.get size).2.buf :: used) := by
  have hspec := getFrom_spec pool.next size pool.buckets
  rw [BufferPool.get]
  generalize getFrom pool.next size pool.buckets = r at hspec
  obtain ⟨buckets, handle, next⟩ := r
  rcases hspec with ⟨hperm, hnext⟩ | ⟨hsame, hbuf, hnext⟩
  · have hall : (buckets.flatMap Bucket.buffers ++ handle.buf :: used).Perm (pool.free ++ used) :=
      List.perm_middle.trans (hperm.append_right used)
    refine ⟨hall.nodup_iff.mpr h.disjoint, fun buf hmem => ?_⟩
    show buf < next
    rw [show next = pool.next from hnext]
    exact h.allocated buf (hall.subset hmem)
  · have hfree : (⟨buckets, next⟩ : BufferPool).free = pool.free := hsame
    have hbuf : handle.buf = pool.next := hbuf
    have hnext : next = pool.next + 1 := hnext
    show PoolInv ⟨buckets, next⟩ (handle.buf :: used)
    have hnew : handle.buf ∉ pool.free ++ used := fun hmem => by
      have hlt := h.allocated _ hmem
      rw [hbuf] at hlt
      exact Nat.lt_irrefl _ hlt
    refine ⟨?_, fun buf hmem => ?_⟩
    · rw [hfree]
      exact List.perm_middle.nodup_iff.mpr (List.nodup_cons.mpr ⟨hnew, h.disjoint⟩)
    · rw [hfree] at hmem
      show buf < next
      rw [hnext]
      rcases List.mem_cons.mp (List.perm_middle.subset hmem) with rfl | hmem
      · rw [hbuf]
        exact Nat.lt_succ_self _
      · exact Nat.lt_succ_of_lt (h.allocated buf hmem)

/-- `Return` puts at most this buffer on a stack. -/
theorem returnTo_sublist (bucketSize : Nat) (buf : BufId) (buckets : List Bucket) :
    ∃ l, (buf :: buckets.flatMap Bucket.buffers).Perm l ∧
      ((returnTo bucketSize buf buckets).flatMap Bucket.buffers).Sublist l := by
  induction buckets with
  | nil => exact ⟨[buf], List.Perm.refl _, List.nil_sublist _⟩
  | cons b rest ih =>
      rw [returnTo]
      by_cases hsize : b.bufferSize = bucketSize
      · rw [if_pos hsize]
        refine ⟨_, List.Perm.refl _, ?_⟩
        by_cases hroom : b.buffers.length < b.maxCount
        · rw [if_pos hroom, List.flatMap_cons, List.flatMap_cons]
          exact List.Sublist.refl _
        · rw [if_neg hroom, List.flatMap_cons, List.flatMap_cons]
          exact List.sublist_cons_self _ _
      · rw [if_neg hsize, List.flatMap_cons, List.flatMap_cons]
        obtain ⟨l, hperm, hsub⟩ := ih
        exact ⟨b.buffers ++ l, List.perm_middle.symm.trans (hperm.append_left _),
          hsub.append_left _⟩

/-- **Dropping** the last reference to a buffer takes it from its owner. -/
theorem PoolInv.drop {pool : BufferPool} {used rest : List BufId} (h : PoolInv pool used)
    {handle : Handle} (hused : used.Perm (handle.buf :: rest)) :
    PoolInv (pool.drop handle) rest := by
  have hall : (handle.buf :: (pool.free ++ rest)).Perm (pool.free ++ used) :=
    List.perm_middle.symm.trans (hused.symm.append_left _)
  have hnodup := hall.nodup_iff.mpr h.disjoint
  have hbelow : ∀ buf ∈ handle.buf :: (pool.free ++ rest), buf < pool.next :=
    fun buf hmem => h.allocated buf (hall.subset hmem)
  rw [BufferPool.drop]
  cases handle.home with
  | none =>
      exact ⟨(List.nodup_cons.mp hnodup).2,
        fun buf hmem => hbelow buf (List.mem_cons_of_mem _ hmem)⟩
  | some bucketSize =>
      obtain ⟨l, hperm, hsub⟩ := returnTo_sublist bucketSize handle.buf pool.buckets
      have hinto : ((returnTo bucketSize handle.buf pool.buckets).flatMap Bucket.buffers ++
          rest).Sublist (l ++ rest) := hsub.append_right _
      have hl : (l ++ rest).Perm (handle.buf :: (pool.free ++ rest)) := hperm.symm.append_right _
      exact ⟨(hl.nodup_iff.mpr hnodup).sublist hinto,
        fun buf hmem => hbelow buf (hl.subset (hinto.subset hmem))⟩

end BufferPool

end Cfrp.Quic

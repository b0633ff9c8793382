import Mathlib.Logic.Function.Basic
import PagedMemory.Memory.Pool

/-!
The pool as a function from frames to counts, and what allocating, freeing and sharing do to it.
-/

namespace PagedMemory

namespace Layout

variable {layout : Layout} {frame : Frame}

/-- Frames with a count. -/
def IsPooled (layout : Layout) (frame : Frame) : Prop :=
  layout.firstPoolFrame ≤ frame.number ∧ frame.number < layout.totalFrames

/-- Frames of the buffer cache. -/
def IsCached (layout : Layout) (frame : Frame) : Prop :=
  layout.firstPoolFrame ≤ frame.number ∧ frame.number < layout.bufferEnd / pageSize

/-- Frames that tasks use: those from the end of the buffer cache on. -/
def IsTaskFrame (layout : Layout) (frame : Frame) : Prop :=
  layout.bufferEnd / pageSize ≤ frame.number ∧ frame.number < layout.totalFrames

instance : Decidable (layout.IsTaskFrame frame) := inferInstanceAs (Decidable (_ ∧ _))

instance : Decidable (layout.IsCached frame) := inferInstanceAs (Decidable (_ ∧ _))

theorem firstPoolFrame_le_bufferEnd (layout : Layout) :
    layout.firstPoolFrame ≤ layout.bufferEnd / pageSize :=
  Nat.div_le_div_right layout.lowMem_le_bufferEnd

theorem firstPoolFrame_add_bufferFrames (layout : Layout) :
    layout.firstPoolFrame + layout.bufferFrames = layout.bufferEnd / pageSize := by
  have low := layout.lowMem_aligned
  have buffer := layout.bufferEnd_aligned
  have ordered := layout.lowMem_le_bufferEnd
  simp only [firstPoolFrame, bufferFrames, pageSize] at *
  omega

theorem totalFrames_pos (layout : Layout) : 0 < layout.totalFrames := by
  have reserved := layout.kernelTables_lt_firstPoolFrame
  have total := layout.firstPoolFrame_add_poolFrames
  omega

theorem totalFrames_lt (layout : Layout) : layout.totalFrames < 1048576 := by
  have fits := layout.memoryEnd_fits
  simp only [totalFrames, pageSize, blockSize, addressSpace] at *
  omega

theorem firstPoolFrame_pos (layout : Layout) : 0 < layout.firstPoolFrame :=
  Nat.zero_lt_of_lt layout.kernelTables_lt_firstPoolFrame

theorem bootstrapEntries_le_firstPoolFrame (layout : Layout) :
    bootstrapEntries ≤ layout.firstPoolFrame := by
  have room := layout.reservedBytes_le_lowMem
  have aligned := layout.lowMem_aligned
  simp only [reservedBytes, firstPoolFrame, pageSize, bootstrapEntries] at *
  omega

theorem kernelTables_pos (layout : Layout) : 0 < layout.kernelTables := by
  have room := layout.reservedBytes_le_lowMem
  have low := layout.lowMem_le_bufferEnd
  have buffer := layout.bufferEnd_le_memoryEnd
  simp only [kernelTables, blocksSpanned_eq, reservedBytes, bootstrapEntries, pageSize] at *
  omega

theorem IsTaskFrame.pooled (task : layout.IsTaskFrame frame) : layout.IsPooled frame :=
  ⟨Nat.le_trans layout.firstPoolFrame_le_bufferEnd task.1, task.2⟩

theorem IsTaskFrame.not_cached (task : layout.IsTaskFrame frame) : ¬ layout.IsCached frame := by
  intro cached
  exact absurd (Nat.lt_of_lt_of_le cached.2 task.1) (Nat.lt_irrefl _)

theorem IsTaskFrame.kernelTables_lt (task : layout.IsTaskFrame frame) :
    layout.kernelTables < frame.number :=
  Nat.lt_of_lt_of_le layout.kernelTables_lt_firstPoolFrame task.pooled.1

theorem IsTaskFrame.not_reserved (task : layout.IsTaskFrame frame) :
    layout.isReserved frame = false := by
  rw [isReserved, decide_eq_false_iff_not]
  exact Nat.not_lt.mpr task.pooled.1

theorem IsCached.pooled (cached : layout.IsCached frame) : layout.IsPooled frame := by
  refine ⟨cached.1, Nat.lt_of_lt_of_le cached.2 ?_⟩
  exact Nat.div_le_div_right layout.bufferEnd_le_memoryEnd

theorem IsPooled.cached_or_task (pooled : layout.IsPooled frame) :
    layout.IsCached frame ∨ layout.IsTaskFrame frame := by
  by_cases below : frame.number < layout.bufferEnd / pageSize
  · exact Or.inl ⟨pooled.1, below⟩
  · exact Or.inr ⟨Nat.le_of_not_lt below, pooled.2⟩

end Layout

namespace FramePool

variable {layout : Layout} {pool : FramePool layout} {frame : Frame}

def count (pool : FramePool layout) (frame : Frame) : Nat := (pool.count? frame).getD 0

theorem exists_place (pooled : layout.IsPooled frame) :
    ∃ i : Fin layout.poolFrames, frameAt i = frame := by
  have total := layout.firstPoolFrame_add_poolFrames
  obtain ⟨low, high⟩ := pooled
  have inside : frame.number - layout.firstPoolFrame < layout.poolFrames := by omega
  refine ⟨⟨frame.number - layout.firstPoolFrame, inside⟩, ?_⟩
  cases frame
  simp only [frameAt, Frame.mk.injEq] at *
  omega

theorem frameAt_inj {i j : Fin layout.poolFrames} (same : frameAt i = frameAt j) : i = j := by
  simp only [frameAt, Frame.mk.injEq] at same
  exact Fin.ext (by omega)

theorem pooled_frameAt (i : Fin layout.poolFrames) : layout.IsPooled (frameAt i) :=
  ⟨Nat.le_add_right _ _, frameAt_lt i⟩

theorem count?_frameAt (pool : FramePool layout) (i : Fin layout.poolFrames) :
    pool.count? (frameAt i) = some (pool.counts.get i) := by
  simp only [count?, place_frameAt]

theorem count_frameAt (pool : FramePool layout) (i : Fin layout.poolFrames) :
    pool.count (frameAt i) = pool.counts.get i := by
  rw [count, count?_frameAt, Option.getD_some]

theorem count?_eq (pool : FramePool layout) (pooled : layout.IsPooled frame) :
    pool.count? frame = some (pool.count frame) := by
  obtain ⟨i, rfl⟩ := exists_place pooled
  rw [count_frameAt, count?_frameAt]

theorem place_outside (outside : ¬ layout.IsPooled frame) :
    (layout.isReserved frame = true ∧ place layout frame = .ok none) ∨
      layout.isReserved frame = false ∧
        place layout frame = .error (.nonexistentPage frame) := by
  by_cases below : frame.number < layout.firstPoolFrame
  · exact Or.inl ⟨decide_eq_true below, if_pos below⟩
  · have total := layout.firstPoolFrame_add_poolFrames
    have past : ¬ frame.number - layout.firstPoolFrame < layout.poolFrames :=
      fun inside => outside ⟨Nat.le_of_not_lt below, by omega⟩
    refine Or.inr ⟨decide_eq_false below, ?_⟩
    rw [place, if_neg below, dif_neg past]

theorem count?_of_not_pooled (pool : FramePool layout) (outside : ¬ layout.IsPooled frame) :
    pool.count? frame = none := by
  rw [count?]
  rcases place_outside outside with ⟨-, none⟩ | ⟨-, refused⟩
  · rw [none]
  · rw [refused]

theorem count_of_not_pooled (pool : FramePool layout) (outside : ¬ layout.IsPooled frame) :
    pool.count frame = 0 := by
  rw [count, count?_of_not_pooled pool outside, Option.getD_none]

theorem count_of_set {changed : FramePool layout} {i : Fin layout.poolFrames} {value : Nat}
    (set : changed.counts = pool.counts.set i value i.isLt) :
    changed.count = Function.update pool.count (frameAt i) value := by
  funext frame
  by_cases pooled : layout.IsPooled frame
  · obtain ⟨j, rfl⟩ := exists_place pooled
    rw [count_frameAt, set]
    by_cases same : i = j
    · subst same
      rw [Function.update_self]
      exact Vector.getElem_set_self i.isLt
    · rw [Function.update_of_ne (fun equal => same (frameAt_inj equal).symm), count_frameAt]
      exact Vector.getElem_set_ne _ _ (fun equal => same (Fin.ext equal))
  · rw [count_of_not_pooled _ pooled, Function.update_of_ne, count_of_not_pooled _ pooled]
    rintro rfl
    exact pooled (pooled_frameAt i)

theorem counts_eq_of_count {other : FramePool layout} (same : other.count = pool.count) :
    other.counts = pool.counts := by
  apply Vector.ext
  intro i inside
  have here := congrFun same (frameAt ⟨i, inside⟩)
  rw [count_frameAt, count_frameAt] at here
  exact here

theorem count_of_highestFree_eq_some {i : Fin layout.poolFrames}
    (found : pool.highestFree = some i) : pool.count (frameAt i) = 0 := by
  rw [count_frameAt]
  exact (lastFree_eq_some found).1

theorem highestFree_eq_some_iff {i : Fin layout.poolFrames} : pool.highestFree = some i ↔
    pool.counts.get i = 0 ∧ ∀ j : Fin layout.poolFrames, i < j → pool.counts.get j ≠ 0 := by
  constructor
  · intro found
    obtain ⟨free, -, above⟩ := lastFree_eq_some found
    exact ⟨free, fun j higher => above j higher j.isLt⟩
  · rintro ⟨free, above⟩
    cases found : pool.highestFree with
    | none =>
        have taken := (lastFree_eq_none_iff (Nat.le_refl _)).mp found i i.isLt
        exact absurd free taken
    | some j =>
        obtain ⟨free', -, above'⟩ := lastFree_eq_some found
        rcases Nat.lt_trichotomy i.val j.val with lower | same | higher
        · exact absurd free' (above j lower)
        · exact congrArg some (Fin.ext same.symm)
        · exact absurd free (above' i higher i.isLt)

theorem highestFree_congr {other : FramePool layout}
    (same : ∀ frame, other.count frame = 0 ↔ pool.count frame = 0) :
    other.highestFree = pool.highestFree := by
  have free (i : Fin layout.poolFrames) : other.counts.get i = 0 ↔ pool.counts.get i = 0 := by
    rw [← count_frameAt, ← count_frameAt]
    exact same (frameAt i)
  apply Option.ext
  intro i
  rw [highestFree_eq_some_iff, highestFree_eq_some_iff, free]
  exact and_congr_right fun _ => forall₂_congr fun j _ => not_congr (free j)

theorem exists_free (pool : FramePool layout) (pooled : layout.IsPooled frame)
    (counted : pool.count frame ≠ 0) :
    ∃ left, free frame pool = .ok () left ∧
      left.count = Function.update pool.count frame (pool.count frame - 1) := by
  obtain ⟨i, rfl⟩ := exists_place pooled
  rw [count_frameAt] at counted ⊢
  simp only [free, place_frameAt]
  split
  · rename_i zero
    exact absurd zero counted
  · rename_i one
    exact ⟨_, rfl, by rw [one]; exact count_of_set rfl⟩
  · rename_i more
    exact ⟨_, rfl, by rw [more]; exact count_of_set rfl⟩

theorem allocations_of_free {left : FramePool layout} (run : free frame pool = .ok () left) :
    left.allocations = pool.allocations := by
  simp only [free] at run
  split at run
  · cases run
  · cases run
    rfl
  · split at run
    · cases run
    · cases run
      rfl
    · cases run
      rfl

theorem free_of_unused (pooled : layout.IsPooled frame) (unused : pool.count frame = 0) :
    free frame pool = .error (.doubleFree frame) pool := by
  obtain ⟨i, rfl⟩ := exists_place pooled
  rw [count_frameAt] at unused
  simp only [free, place_frameAt, unused]

theorem exists_share (pool : FramePool layout) (pooled : layout.IsPooled frame)
    (room : pool.count frame < maxCount) :
    ∃ left, share frame pool = .ok () left ∧
      left.count = Function.update pool.count frame (pool.count frame + 1) := by
  obtain ⟨i, rfl⟩ := exists_place pooled
  rw [count_frameAt] at room ⊢
  simp only [share, place_frameAt, if_pos room]
  exact ⟨_, rfl, count_of_set rfl⟩

theorem freeCount_pos (pooled : layout.IsPooled frame) (free : pool.count frame = 0) :
    0 < pool.freeCount := by
  obtain ⟨i, rfl⟩ := exists_place pooled
  rw [count_frameAt] at free
  exact Vector.countP_pos_iff.mpr ⟨_, Vector.getElem_mem i.isLt, beq_iff_eq.mpr free⟩

theorem exists_of_freeCount_pos (some : 0 < pool.freeCount) :
    ∃ frame, layout.IsPooled frame ∧ pool.count frame = 0 := by
  obtain ⟨count, member, zero⟩ := Vector.countP_pos_iff.mp some
  obtain ⟨i, below, rfl⟩ := Vector.getElem_of_mem member
  refine ⟨frameAt ⟨i, below⟩, pooled_frameAt _, ?_⟩
  rw [count_frameAt]
  exact beq_iff_eq.mp zero

theorem freeCount_set {left : FramePool layout} {i : Fin layout.poolFrames} {value : Nat}
    (set : left.counts = pool.counts.set i value i.isLt) :
    left.freeCount + (if pool.counts.get i = 0 then 1 else 0) =
      pool.freeCount + if value = 0 then 1 else 0 := by
  have changed : left.freeCount = pool.freeCount - (if pool.counts.get i = 0 then 1 else 0) +
      if value = 0 then 1 else 0 := by
    rw [freeCount, freeCount, set, Vector.countP_set]
    simp only [beq_iff_eq]
    rfl
  by_cases free : pool.counts.get i = 0
  · have some := freeCount_pos (pooled_frameAt i) (pool.count_frameAt i ▸ free)
    rw [if_pos free] at changed ⊢
    omega
  · rw [if_neg free] at changed ⊢
    omega

theorem freeCount_update {left : FramePool layout} (pooled : layout.IsPooled frame) {value : Nat}
    (count : left.count = Function.update pool.count frame value) :
    left.freeCount + (if pool.count frame = 0 then 1 else 0) =
      pool.freeCount + if value = 0 then 1 else 0 := by
  obtain ⟨i, rfl⟩ := exists_place pooled
  let changed : FramePool layout := { pool with counts := pool.counts.set i value i.isLt }
  have set : left.counts = changed.counts :=
    counts_eq_of_count (count.trans (count_of_set rfl).symm)
  rw [count_frameAt]
  exact freeCount_set set

theorem freeCount_of_taken {left : FramePool layout} (pooled : layout.IsPooled frame)
    (unused : pool.count frame = 0) (taken : left.count = Function.update pool.count frame 1) :
    left.freeCount + 1 = pool.freeCount := by
  have step := freeCount_update pooled taken
  rw [if_pos unused, if_neg Nat.one_ne_zero] at step
  exact step

theorem exists_count_update (pool : FramePool layout) (pooled : layout.IsPooled frame)
    (value : Nat) : ∃ left : FramePool layout,
      left.count = Function.update pool.count frame value := by
  obtain ⟨i, rfl⟩ := exists_place pooled
  exact ⟨{ pool with counts := pool.counts.set i value i.isLt }, count_of_set rfl⟩

theorem freeCount_congr {other : FramePool layout} (same : other.count = pool.count) :
    other.freeCount = pool.freeCount := by
  rw [freeCount, freeCount, counts_eq_of_count same]

theorem freeCount_congr_free {other : FramePool layout}
    (same : ∀ frame, other.count frame = 0 ↔ pool.count frame = 0) :
    other.freeCount = pool.freeCount := by
  have free : other.counts.map (· == 0) = pool.counts.map (· == 0) := by
    apply Vector.ext
    intro i inside
    have here := same (frameAt ⟨i, inside⟩)
    rw [count_frameAt, count_frameAt] at here
    rw [Vector.getElem_map, Vector.getElem_map, Bool.eq_iff_iff, beq_iff_eq, beq_iff_eq]
    exact here
  have counted (pool : FramePool layout) :
      (pool.counts.map (· == 0)).countP id = pool.freeCount := by
    rw [Vector.countP_map]
    rfl
  rw [← counted, ← counted, free]

theorem freeCount_succ_of_free {left : FramePool layout} (pooled : layout.IsPooled frame)
    (unused : pool.count frame = 0)
    (same : ∀ other, left.count other = 0 ↔ pool.count other = 0 ∧ other ≠ frame) :
    left.freeCount + 1 = pool.freeCount := by
  obtain ⟨taken, count⟩ := pool.exists_count_update pooled 1
  rw [← freeCount_of_taken pooled unused count]
  congr 1
  apply freeCount_congr_free
  intro other
  rw [same, count]
  by_cases here : other = frame
  · rw [here, Function.update_self]
    simp only [ne_eq, not_true_eq_false, and_false, Nat.one_ne_zero]
  · rw [Function.update_of_ne here]
    exact and_iff_left here

theorem highestFree_eq_none_iff : pool.highestFree = none ↔ pool.freeCount = 0 := by
  rw [highestFree, lastFree_eq_none_iff, freeCount, Vector.countP_eq_zero]
  constructor
  · intro taken count member
    obtain ⟨i, below, rfl⟩ := Vector.getElem_of_mem member
    exact fun free => taken ⟨i, below⟩ below (beq_iff_eq.mp free)
  · intro taken i _ free
    exact taken _ (Vector.getElem_mem i.isLt) (beq_iff_eq.mpr free)

theorem highestFree_eq_none_iff_count? :
    pool.highestFree = none ↔ ∀ frame, pool.count? frame ≠ some 0 := by
  rw [highestFree, lastFree_eq_none_iff]
  constructor
  · intro taken frame free
    by_cases pooled : layout.IsPooled frame
    · obtain ⟨i, rfl⟩ := exists_place pooled
      rw [count?_frameAt] at free
      exact taken i i.isLt (Option.some.inj free)
    · rw [count?_of_not_pooled pool pooled] at free
      cases free
  · intro taken i _ free
    exact taken (frameAt i) (by rw [count?_frameAt]; exact congrArg some free)

theorem allocate_cases (pool : FramePool layout) :
    (allocate pool : EStateM.Result FatalError _ _) = .ok none pool ∨
    ∃ (i : Fin layout.poolFrames) (left : FramePool layout),
      (allocate pool : EStateM.Result FatalError _ _) = .ok (some (frameAt i)) left ∧
      pool.count (frameAt i) = 0 ∧ left.count = Function.update pool.count (frameAt i) 1 := by
  rw [allocate]
  cases found : pool.highestFree with
  | none => exact Or.inl rfl
  | some i =>
      exact Or.inr ⟨i, _, rfl, count_of_highestFree_eq_some found, count_of_set rfl⟩

theorem free_cases (frame : Frame) (pool : FramePool layout) :
    (∃ error, free frame pool = .error error pool) ∨
    (¬ layout.IsPooled frame ∧ free frame pool = .ok () pool) ∨
    ∃ left, free frame pool = .ok () left ∧ pool.count frame ≠ 0 ∧
      left.count = Function.update pool.count frame (pool.count frame - 1) := by
  by_cases pooled : layout.IsPooled frame
  · by_cases counted : pool.count frame = 0
    · exact Or.inl ⟨_, free_of_unused pooled counted⟩
    · obtain ⟨left, run, count⟩ := pool.exists_free pooled counted
      exact Or.inr (Or.inr ⟨left, run, counted, count⟩)
  · rw [free]
    rcases place_outside pooled with ⟨-, none⟩ | ⟨-, refused⟩
    · rw [none]
      exact Or.inr (Or.inl ⟨pooled, rfl⟩)
    · rw [refused]
      exact Or.inl ⟨_, rfl⟩

theorem share_cases (frame : Frame) (pool : FramePool layout) :
    (∃ error, share frame pool = .error error pool) ∨
    (¬ layout.IsPooled frame ∧ share frame pool = .ok () pool) ∨
    ∃ left, share frame pool = .ok () left ∧
      left.count = Function.update pool.count frame (pool.count frame + 1) := by
  by_cases pooled : layout.IsPooled frame
  · by_cases room : pool.count frame < maxCount
    · obtain ⟨left, run, count⟩ := pool.exists_share pooled room
      exact Or.inr (Or.inr ⟨left, run, count⟩)
    · obtain ⟨i, rfl⟩ := exists_place pooled
      rw [count_frameAt] at room
      refine Or.inl ⟨.countOverflow (frameAt i), ?_⟩
      simp only [share, place_frameAt, if_neg room]
  · rw [share]
    rcases place_outside pooled with ⟨-, none⟩ | ⟨-, refused⟩
    · rw [none]
      exact Or.inr (Or.inl ⟨pooled, rfl⟩)
    · rw [refused]
      exact Or.inl ⟨_, rfl⟩

theorem le_count_of_share {left : FramePool layout} (run : share frame pool = .ok () left)
    (other : Frame) : pool.count other ≤ left.count other := by
  rcases share_cases frame pool with ⟨error, refused⟩ | ⟨-, ignored⟩ | ⟨left', run', count⟩
  · cases refused.symm.trans run
  · cases ignored.symm.trans run
    exact Nat.le_refl _
  · cases run'.symm.trans run
    rw [count]
    by_cases same : other = frame
    · rw [same, Function.update_self]
      exact Nat.le_succ _
    · exact Nat.le_of_eq (Function.update_of_ne same _ _).symm

/-- No count has risen, and every frame whose last reference was dropped on the way is free. -/
structure GivenBack (pool left : FramePool layout) : Prop where
  falls : ∀ frame, left.count frame ≤ pool.count frame
  free : left.freeCount + pool.frees = pool.freeCount + left.frees

theorem givenBack_self (pool : FramePool layout) : GivenBack pool pool :=
  ⟨fun _ => Nat.le_refl _, rfl⟩

theorem GivenBack.trans {left last : FramePool layout} (first : GivenBack pool left)
    (second : GivenBack left last) : GivenBack pool last := by
  have free := first.free
  have free' := second.free
  exact ⟨fun frame => Nat.le_trans (second.falls frame) (first.falls frame), by omega⟩

theorem givenBack_set {left : FramePool layout} {i : Fin layout.poolFrames} {value : Nat}
    (counted : pool.counts.get i = value + 1) (set : left.counts = pool.counts.set i value)
    (frees : left.frees = pool.frees + if value = 0 then 1 else 0) : GivenBack pool left := by
  constructor
  · intro frame
    rw [count_of_set set]
    by_cases same : frame = frameAt i
    · rw [same, Function.update_self, count_frameAt, counted]
      exact Nat.le_succ value
    · exact Nat.le_of_eq (Function.update_of_ne same _ _)
  · have more := freeCount_set set
    rw [counted, if_neg (Nat.succ_ne_zero value)] at more
    omega

theorem givenBack_of_free {left : FramePool layout} (run : free frame pool = .ok () left) :
    GivenBack pool left := by
  by_cases pooled : layout.IsPooled frame
  · obtain ⟨i, rfl⟩ := exists_place pooled
    simp only [free, place_frameAt] at run
    split at run
    · cases run
    · rename_i one
      cases run
      exact givenBack_set one rfl rfl
    · rename_i value more
      cases run
      exact givenBack_set more rfl rfl
  · rcases free_cases frame pool with ⟨error, refused⟩ | ⟨-, ignored⟩ | ⟨_, _, counted, -⟩
    · cases refused.symm.trans run
    · cases ignored.symm.trans run
      exact givenBack_self pool
    · exact absurd (count_of_not_pooled pool pooled) counted

theorem count_initial_of_cached (cached : layout.IsCached frame) :
    (initial layout).count frame = bufferCount := by
  have cache := layout.firstPoolFrame_add_bufferFrames
  obtain ⟨i, rfl⟩ := exists_place cached.pooled
  have below : i.val < layout.bufferFrames := by
    have high : layout.firstPoolFrame + i.val < layout.bufferEnd / pageSize := cached.2
    omega
  rw [count_frameAt]
  exact (Vector.getElem_ofFn i.isLt).trans (if_pos below)

theorem count_initial_of_task (task : layout.IsTaskFrame frame) :
    (initial layout).count frame = 0 := by
  have cache := layout.firstPoolFrame_add_bufferFrames
  obtain ⟨i, rfl⟩ := exists_place task.pooled
  have above : ¬ i.val < layout.bufferFrames := by
    have low : layout.bufferEnd / pageSize ≤ layout.firstPoolFrame + i.val := task.1
    omega
  rw [count_frameAt]
  exact (Vector.getElem_ofFn i.isLt).trans (if_neg above)

theorem count_initial (pooled : layout.IsPooled frame) :
    (initial layout).count frame = if layout.IsCached frame then bufferCount else 0 := by
  rcases pooled.cached_or_task with cached | task
  · rw [if_pos cached, count_initial_of_cached cached]
  · rw [if_neg task.not_cached, count_initial_of_task task]

end FramePool

end PagedMemory

import PagedMemory.Proofs.ForkFailure

/-!
Duplication and release as a round trip. Each block that a duplication fills had no table before,
also where the ranges overlap and a block that has just been filled is the source of a later one.
The release of the target empties those blocks again, so all that is left of the trip are the
writable bits that the source has lost.
-/

namespace PagedMemory

namespace Manager

variable {layout : Layout} {m m' : Manager layout} {held : Finset Frame}
  {source target blocks : Nat}

open Operation

/-- The first `blocks` blocks from `target` on were vacant. Outside them nothing has changed, but
leaves of the first blocks from `source` on have become read-only. -/
structure Copied (m m' : Manager layout) (source target blocks : Nat) : Prop where
  vacant : ∀ block < blocks, (m.memory.link (target + block)).isPresent = false
  link : ∀ block, ¬ (target ≤ block ∧ block < target + blocks) →
    m'.memory.link block = m.memory.link block
  leaf : ∀ place : Nat × Nat, ¬ (target ≤ place.1 ∧ place.1 < target + blocks) →
    m'.memory.leaf place =
      if source ≤ place.1 ∧ place.1 < source + blocks then (m.memory.leaf place).writeProtected
      else m.memory.leaf place
  seen : ∀ place ∈ layout.taskPlaces, ¬ (target ≤ place.1 ∧ place.1 < target + blocks) →
    m'.memory.seen place = m.memory.seen place

theorem copied_zero (m : Manager layout) (source target : Nat) : m.Copied m source target 0 := by
  refine ⟨fun _ none => absurd none (Nat.not_lt_zero _), fun _ _ => rfl, ?_, fun _ _ _ => rfl⟩
  intro place _
  rw [if_neg (by omega)]

namespace Copied

theorem succ {m'' : Manager layout} (copied : m.Copied m' source target blocks)
    (absent : (m'.memory.link (target + blocks)).isPresent = false)
    (shared : BlockShared m' m'' held (source + blocks) (target + blocks)) :
    m.Copied m'' source target (blocks + 1) := by
  refine ⟨?_, ?_, ?_, ?_⟩
  · intro block below
    rcases Nat.lt_succ_iff_lt_or_eq.mp below with before | rfl
    · exact copied.vacant block before
    · -- the rounds so far have not reached this block
      rw [← copied.link _ (by omega)]
      exact absent
  · intro block outside
    rw [shared.link block (by omega), copied.link block (by omega)]
  · intro place outside
    rw [shared.leaf, if_neg (by omega), copied.leaf place (by omega)]
    by_cases parent : place.1 = source + blocks
    · rw [if_pos parent, if_neg (by omega), if_pos (by omega)]
    · have covered : source ≤ place.1 ∧ place.1 < source + blocks ↔
          source ≤ place.1 ∧ place.1 < source + (blocks + 1) := by omega
      rw [if_neg parent]
      exact if_congr covered rfl rfl
  · intro place inside outside
    rw [shared.seen place inside, if_neg (by omega), copied.seen place inside (by omega)]

variable (copied : m.Copied m' source target blocks)

include copied

theorem begun : m.Begun m' source target blocks := by
  refine ⟨copied.link, ?_, copied.seen⟩
  intro place outside
  rw [copied.leaf place outside]
  by_cases covered : source ≤ place.1 ∧ place.1 < source + blocks
  · rw [if_pos covered]
    exact Or.inr ⟨covered, rfl⟩
  · rw [if_neg covered]
    exact Or.inl rfl

theorem leaf_released {m'' : Manager layout} (released : m'.Released m'' target blocks)
    (place : Nat × Nat) : m''.memory.leaf place =
      if source ≤ place.1 ∧ place.1 < source + blocks then (m.memory.leaf place).writeProtected
      else m.memory.leaf place := by
  rw [released.leaf]
  by_cases covered : target ≤ place.1 ∧ place.1 < target + blocks
  · have offset : target + (place.1 - target) = place.1 := by omega
    have absent := copied.vacant (place.1 - target) (by omega)
    rw [offset] at absent
    rw [if_pos covered, PhysicalMemory.leaf_of_absent place absent, Entry.writeProtected_empty,
      ite_self]
  · rw [if_neg covered, copied.leaf place covered]

end Copied

section Duplicate

variable {source target : LinearAddr} {size : Nat}

theorem Sound.copied_of_duplicate (sound : m.Sound held)
    (task : layout.kernelTables ≤ source.dirIndex) (task' : layout.kernelTables ≤ target.dirIndex)
    (done : duplicate source target size m = .ok () m') :
    layout.InTaskSpace target size ∧ target.isBlockAligned = true ∧ m'.Sound held ∧
      m.Copied m' source.dirIndex target.dirIndex (blocksSpanned size) := by
  obtain ⟨⟨aligned, aligned'⟩, fits, fits'⟩ := checkDuplicate_of_duplicate done
  have within := Layout.inTaskSpace_of_blocks task aligned fits
  have within' := Layout.inTaskSpace_of_blocks task' aligned' fits'
  obtain ⟨m₁, -, run, rfl⟩ := exists_shareBlocks_of_duplicate done
  have rounds := forM_invariant
    (fun n m' => m'.Sound held ∧ m.Copied m' source.dirIndex target.dirIndex n) (by
      rintro n inside m₂ m₃ ⟨sound₂, copied⟩ round
      rw [List.length_range] at inside
      rw [List.getElem_range, within.sharedEntries_eq] at round
      rcases sound₂.duplicateBlock_cases (within.mem_taskBlocks aligned inside)
          (within'.mem_taskBlocks aligned' inside) with
        ⟨-, stop⟩ | ⟨-, -, stop⟩ | ⟨absent, m₄, step, shared⟩
      · cases stop.symm.trans round
      · cases stop.symm.trans round
      · cases step.symm.trans round
        exact ⟨shared.sound, copied.succ absent shared⟩)
    ⟨sound, copied_zero m _ _⟩ run
  rw [List.length_range] at rounds
  obtain ⟨sound₁, copied⟩ := rounds
  exact ⟨within', aligned', sound₁, copied.vacant, copied.link, copied.leaf, copied.seen⟩

end Duplicate

end Manager

open Manager

variable {layout : Layout} {m m' : Manager layout} {held : Finset Frame}

/-- What a duplication has filled its release empties again: links, counts and bytes are those of
before, and the leaves of the source are read-only. The ranges may overlap. -/
theorem Reachable.duplicate_release (reachable : Reachable layout m held)
    {source target : LinearAddr} {size : Nat} (task : layout.kernelTables ≤ source.dirIndex)
    (task' : layout.kernelTables ≤ target.dirIndex)
    (done : duplicate source target size m = .ok () m') :
    ∃ m'', release target size m' = .ok () m'' ∧
      m''.memory.link = m.memory.link ∧
      (∀ frame, m''.refCount? frame = m.refCount? frame) ∧
      m''.pool.freeCount = m.pool.freeCount ∧
      (∀ place : Nat × Nat, m''.memory.leaf place =
        if source.dirIndex ≤ place.1 ∧ place.1 < source.dirIndex + blocksSpanned size then
          (m.memory.leaf place).writeProtected
        else m.memory.leaf place) ∧
      ∀ addr, layout.kernelTables ≤ addr.dirIndex → m''.byteAt addr = m.byteAt addr := by
  have sound := reachable.sound
  obtain ⟨within, aligned, sound₁, copied⟩ := sound.copied_of_duplicate task task' done
  obtain ⟨m'', undo, sound₂, released⟩ := sound₁.exists_release within aligned
  have undone := copied.begun.undone sound (fun _ => within.mem_taskBlocks aligned) copied.vacant
    released
  have counts := undone.count_eq sound sound₂
  refine ⟨m'', undo, undone.link, ?_, ?_, copied.leaf_released released, ?_⟩
  · exact fun frame => refCount?_congr (congrFun counts frame)
  · rw [FramePool.freeCount, FramePool.freeCount, FramePool.counts_eq_of_count counts]
  · intro addr task
    rw [sound₂.byteAt_eq task, sound.byteAt_eq task]
    exact congrArg Except.ok (SameContents.of_seen undone.seen addr task)

def spareBlock : LinearAddr := LinearAddr.ofNat 8388608

theorem Reachable.of_duplicate (reachable : Reachable layout m held) {source target : LinearAddr}
    {size : Nat} (permitted : (Call.duplicate source target size).Permitted layout held)
    (done : duplicate source target size m = .ok () m') : Reachable layout m' held := by
  have ends : (Call.duplicate source target size).perform m = (.done, m') :=
    congrArg (report _ _) done
  have step := reachable.step (.duplicate source target size) permitted
  rw [ends] at step
  exact step rfl

theorem duplicate_permitted :
    (Call.duplicate firstPage spareBlock blockSize).Permitted .tiny ∅ :=
  ⟨⟨by decide, by decide⟩, by decide, by decide⟩

theorem exists_duplicate_filled :
    ∃ m', duplicate firstPage spareBlock blockSize filled = .ok () m' ∧
      BlockShared filled m' ∅ firstPage.dirIndex spareBlock.dirIndex ∧
      m'.pool.freeCount = 1 := by
  obtain ⟨within, within'⟩ := duplicate_permitted
  have room : filled.pool.freeCount = 2 := by decide +kernel
  obtain ⟨m', done, shared, taken⟩ := reachable_filled.sound.exists_duplicate_block within within'
    (by decide) (by decide) (by decide) (by decide +kernel) (by decide +kernel) (by omega)
  exact ⟨m', done, shared, by omega⟩

/-- A run of the tiny machine shares a frame between two pages and has a frame left. -/
theorem exists_reachable_shared : ∃ m, Reachable .tiny m ∅ ∧
    leavesTo .tiny m.memory.leaf ⟨163⟩ = {firstPage.place, spareBlock.place} ∧
    0 < m.pool.freeCount := by
  obtain ⟨within, within'⟩ := duplicate_permitted
  have one : 0 < blocksSpanned blockSize := by decide
  have alone : leavesTo .tiny filled.memory.leaf ⟨163⟩ = {firstPage.place} :=
    reachable_filled.sound.leavesTo_of_once within.1 (by decide +kernel) (by decide +kernel)
  obtain ⟨m, done, shared, room⟩ := exists_duplicate_filled
  exact ⟨m, reachable_filled.of_duplicate duplicate_permitted done,
    shared.leavesTo_eq (within.mem_taskBlocks (by decide) one)
      (within'.mem_taskBlocks (by decide) one) (by decide) alone, by omega⟩

/-- The first page has its frame to itself again, and cannot be written any more. -/
theorem duplicate_release_filled :
    ∃ m' m'', duplicate firstPage spareBlock blockSize filled = .ok () m' ∧
      release spareBlock blockSize m' = .ok () m'' ∧
      m''.memory.link = filled.memory.link ∧ m''.refCount? ⟨163⟩ = some 1 ∧
      (filled.memory.leaf firstPage.place).isWritable = true ∧
      (m''.memory.leaf firstPage.place).isWritable = false := by
  obtain ⟨within, within'⟩ := duplicate_permitted
  obtain ⟨m', done, -, -⟩ := exists_duplicate_filled
  obtain ⟨m'', undo, link, count, -, leaf, -⟩ :=
    Reachable.duplicate_release reachable_filled within.1 within'.1 done
  have once : filled.refCount? ⟨163⟩ = some 1 := by decide +kernel
  refine ⟨m', m'', done, undo, link, (count ⟨163⟩).trans once, by decide +kernel, ?_⟩
  have covered : firstPage.dirIndex ≤ firstPage.place.1 ∧
      firstPage.place.1 < firstPage.dirIndex + blocksSpanned blockSize := by decide
  rw [leaf, if_pos covered]
  exact Entry.isWritable_writeProtected _

end PagedMemory

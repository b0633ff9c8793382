import PagedMemory.Proofs.Guarantees

/-!
Teardown. A release takes out of every count just what the range held, and leaves nothing of the
range behind. Counts are the references of tables and the caller, so once every range of every task
has been released, in whatever order, the pool is that of a machine that has just started.
-/

namespace PagedMemory

theorem card_filter_outside {α : Type} [DecidableEq α] {places part : Finset α} (old new : α → Prop)
    [DecidablePred old] [DecidablePred new] (within : part ⊆ places)
    (same : ∀ place ∈ places, new place ↔ old place ∧ place ∉ part) :
    {place ∈ places | old place}.card =
      {place ∈ places | new place}.card + {place ∈ part | old place}.card := by
  have inner : {place ∈ {place ∈ places | old place} | place ∈ part} =
      {place ∈ part | old place} := by
    ext place
    simp only [Finset.mem_filter]
    exact ⟨fun all => ⟨all.2, all.1.2⟩, fun both => ⟨⟨within both.1, both.2⟩, both.1⟩⟩
  have outer : {place ∈ {place ∈ places | old place} | place ∉ part} =
      {place ∈ places | new place} := by
    rw [Finset.filter_filter]
    exact Finset.filter_congr fun place member => (same place member).symm
  have split := Finset.card_filter_add_card_filter_not (s := {place ∈ places | old place})
    fun place => place ∈ part
  rw [inner, outer] at split
  omega

structure Layout.IsTaskRange (layout : Layout) (start : LinearAddr) (size : Nat) : Prop where
  aligned : start.isBlockAligned = true
  task : layout.kernelTables ≤ start.dirIndex
  inside : start.dirIndex + blocksSpanned size ≤ entriesPerDirectory

theorem Layout.IsTaskRange.within {layout : Layout} {start : LinearAddr} {size : Nat}
    (range : layout.IsTaskRange start size) : layout.InTaskSpace start size :=
  inTaskSpace_of_blocks range.task range.aligned range.inside

namespace Manager

variable {layout : Layout} {m m' : Manager layout} {held : Finset Frame} {first blocks : Nat}

open Operation

def tablesWithin (m : Manager layout) (first blocks : Nat) (frame : Frame) : Finset Nat :=
  {block ∈ Finset.Ico first (first + blocks) | (m.memory.link block).PointsAt frame}

def leavesWithin (m : Manager layout) (first blocks : Nat) (frame : Frame) : Finset (Nat × Nat) :=
  {place ∈ Finset.Ico first (first + blocks) ×ˢ Finset.range entriesPerTable |
    (m.memory.leaf place).PointsAt frame}

theorem mem_leavesWithin {frame : Frame} {place : Nat × Nat} :
    place ∈ m.leavesWithin first blocks frame ↔
      (first ≤ place.1 ∧ place.1 < first + blocks) ∧ place.2 < entriesPerTable ∧
        (m.memory.leaf place).PointsAt frame := by
  rw [leavesWithin, Finset.mem_filter, Finset.mem_product, Finset.mem_Ico, Finset.mem_range,
    and_assoc]

/-- The blocks from `first` on are gone, with just the references that they held. -/
structure TornDown (m m' : Manager layout) (first blocks : Nat) : Prop where
  count : ∀ frame, layout.IsPooled frame → ∃ left, m'.refCount? frame = some left ∧
    m.refCount? frame = some (left + (m.tablesWithin first blocks frame).card +
      (m.leavesWithin first blocks frame).card)
  link : ∀ block, m'.memory.link block =
    if first ≤ block ∧ block < first + blocks then .empty else m.memory.link block
  leaf : ∀ place, m'.memory.leaf place =
    if first ≤ place.1 ∧ place.1 < first + blocks then .empty else m.memory.leaf place
  bytes : ∀ addr, layout.kernelTables ≤ addr.dirIndex →
    ¬ (first ≤ addr.dirIndex ∧ addr.dirIndex < first + blocks) → m'.byteAt addr = m.byteAt addr

section Released

variable (released : m.Released m' first blocks) (task : layout.kernelTables ≤ first)
  (inside : first + blocks ≤ entriesPerDirectory)

include released task inside

theorem Released.card_linksTo (frame : Frame) :
    (linksTo layout m.memory.link frame).card =
      (linksTo layout m'.memory.link frame).card + (m.tablesWithin first blocks frame).card := by
  apply card_filter_outside (fun block => (m.memory.link block).PointsAt frame)
    fun block => (m'.memory.link block).PointsAt frame
  · exact Finset.Ico_subset_Ico task inside
  · intro block _
    rw [released.link, Finset.mem_Ico]
    by_cases covered : first ≤ block ∧ block < first + blocks
    · rw [if_pos covered]
      exact ⟨fun points => (nomatch points.1), fun both => absurd covered both.2⟩
    · rw [if_neg covered]
      exact (and_iff_left covered).symm

theorem Released.card_leavesTo (frame : Frame) :
    (leavesTo layout m.memory.leaf frame).card =
      (leavesTo layout m'.memory.leaf frame).card + (m.leavesWithin first blocks frame).card := by
  apply card_filter_outside (fun place => (m.memory.leaf place).PointsAt frame)
    fun place => (m'.memory.leaf place).PointsAt frame
  · exact Finset.product_subset_product_left (Finset.Ico_subset_Ico task inside)
  · intro place member
    have bound := (Layout.mem_taskPlaces.mp member).2
    rw [released.leaf, Finset.mem_product, Finset.mem_Ico, Finset.mem_range]
    by_cases covered : first ≤ place.1 ∧ place.1 < first + blocks
    · rw [if_pos covered]
      exact ⟨fun points => (nomatch points.1), fun both => absurd ⟨covered, bound⟩ both.2⟩
    · rw [if_neg covered]
      exact (and_iff_left fun both => covered both.1).symm

theorem Released.tornDown (sound : m.Sound held) (sound' : m'.Sound held) :
    m.TornDown m' first blocks := by
  refine ⟨?_, released.link, released.leaf, ?_⟩
  · intro frame pooled
    refine ⟨m'.pool.count frame, refCount?_eq pooled, ?_⟩
    have links := released.card_linksTo task inside frame
    have leaves := released.card_leavesTo task inside frame
    rw [refCount?_eq pooled]
    congr 1
    rcases pooled.cached_or_task with cached | owned
    · -- no frame of the buffer cache is a table of a task or mapped by one
      have unlinked : linksTo layout m.memory.link frame = ∅ := by
        apply Finset.filter_eq_empty_iff.mpr
        intro block member points
        have table := (sound.balanced.linked block member points.1).1
        rw [points.2] at table
        exact table.not_cached cached
      have unmapped : leavesTo layout m.memory.leaf frame = ∅ := by
        apply Finset.filter_eq_empty_iff.mpr
        intro place member points
        have page := sound.balanced.mapped place member points.1
        rw [points.2] at page
        exact page.not_cached cached
      rw [unlinked, Finset.card_empty] at links
      rw [unmapped, Finset.card_empty] at leaves
      rw [sound.balanced.cached frame cached, sound'.balanced.cached frame cached]
      omega
    · rw [sound.balanced.counted frame owned, sound'.balanced.counted frame owned]
      omega
  · intro addr owned outside
    have seen := released.seen addr.place (Layout.place_mem_taskPlaces owned)
    have same : m'.memory.seen addr.place = m.memory.seen addr.place := seen.trans (if_neg outside)
    rw [sound'.byteAt_eq owned, sound.byteAt_eq owned, contents, contents, same]

end Released

theorem release_of_vacant {start : LinearAddr} {size : Nat}
    (checked : checkRelease start size = .ok ())
    (vacant : ∀ block < blocksSpanned size,
      (m.memory.link (start.dirIndex + block)).isPresent = false) :
    release start size m = .ok () m.flushed := by
  obtain ⟨m', loop, rfl⟩ := forM_ok releaseBlock (fun _ m' => m' = m)
    (List.range' start.dirIndex (blocksSpanned size)) (by
      rintro n inside m' rfl
      rw [List.length_range'] at inside
      rw [List.getElem_range', Nat.one_mul]
      exact ⟨m', releaseBlock_of_absent (vacant n inside), rfl⟩) m rfl
  have begun : (ask (fun _ => checkRelease start size) : Operation layout FatalError Unit) m' =
      .ok () m' := ask_ok checked
  rw [release, bind_ok begun]
  exact thenFlush_ok loop

section Range

variable {start : LinearAddr} {size : Nat}

theorem Sound.exists_tornDown (sound : m.Sound held) (range : layout.IsTaskRange start size) :
    ∃ m', release start size m = .ok () m' ∧
      m.TornDown m' start.dirIndex (blocksSpanned size) ∧
      release start size m' = .ok () m'.flushed := by
  obtain ⟨m', run, sound', released⟩ := sound.exists_release range.within range.aligned
  refine ⟨m', run, released.tornDown range.task range.inside sound sound', ?_⟩
  apply release_of_vacant (checkRelease_eq range.within range.aligned)
  intro block below
  rw [released.link, if_pos (by omega)]
  exact Entry.isPresent_empty

end Range

def releaseAll (ranges : List (LinearAddr × Nat)) : Operation layout FatalError Unit :=
  ranges.forM fun range => release range.1 range.2

theorem Sound.exists_releaseAll (sound : m.Sound held) (ranges : List (LinearAddr × Nat))
    (tasks : ∀ range ∈ ranges, layout.IsTaskRange range.1 range.2) :
    ∃ m', releaseAll ranges m = .ok () m' ∧ m'.Sound held ∧
      ∀ block, (m'.memory.link block).isPresent = true →
        (m.memory.link block).isPresent = true ∧ ∀ range ∈ ranges,
          ¬ (range.1.dirIndex ≤ block ∧ block < range.1.dirIndex + blocksSpanned range.2) := by
  induction ranges generalizing m with
  | nil => exact ⟨m, rfl, sound, fun _ present => ⟨present, nofun⟩⟩
  | cons range ranges ih =>
      have task := tasks range List.mem_cons_self
      obtain ⟨m₁, run, sound₁, released⟩ := sound.exists_release task.within task.aligned
      -- a block that is linked at the end was linked all along, so no range covers it
      obtain ⟨m₂, rest, sound₂, left⟩ :=
        ih sound₁ fun other member => tasks other (List.mem_cons_of_mem _ member)
      refine ⟨m₂, (bind_ok run).trans rest, sound₂, ?_⟩
      intro block present
      obtain ⟨present₁, outside⟩ := left block present
      rw [released.link] at present₁
      by_cases covered : range.1.dirIndex ≤ block ∧
          block < range.1.dirIndex + blocksSpanned range.2
      · rw [if_pos covered] at present₁
        cases present₁
      · rw [if_neg covered] at present₁
        refine ⟨present₁, ?_⟩
        intro other member
        rcases List.mem_cons.mp member with rfl | later
        · exact covered
        · exact outside other later

/-- Without a table of a task and without a frame of the caller the pool is as it was built. -/
theorem Sound.count_eq_initial (sound : m.Sound ∅)
    (unlinked : ∀ block ∈ layout.taskBlocks, (m.memory.link block).isPresent = false) :
    m.pool.count = (FramePool.initial layout).count := by
  have tables (frame : Frame) : linksTo layout m.memory.link frame = ∅ := by
    apply Finset.filter_eq_empty_iff.mpr
    intro block member
    exact Entry.not_pointsAt_of_absent (unlinked block member) frame
  have pages (frame : Frame) : leavesTo layout m.memory.leaf frame = ∅ := by
    apply Finset.filter_eq_empty_iff.mpr
    intro place member
    have absent := unlinked place.1 (Layout.mem_taskPlaces.mp member).1
    rw [PhysicalMemory.leaf_of_absent place absent]
    exact Entry.not_pointsAt_of_absent Entry.isPresent_empty frame
  funext frame
  by_cases pooled : layout.IsPooled frame
  · rcases pooled.cached_or_task with cached | task
    · rw [sound.balanced.cached frame cached, FramePool.count_initial_of_cached cached]
    · rw [sound.balanced.counted frame task, FramePool.count_initial_of_task task, tables, pages,
        if_neg (Finset.notMem_empty frame), Finset.card_empty, Finset.card_empty]
  · rw [FramePool.count_of_not_pooled _ pooled, FramePool.count_of_not_pooled _ pooled]

structure AsBooted (m : Manager layout) : Prop where
  counts : ∀ console frame, m.refCount? frame = (boot layout console).refCount? frame
  free : ∀ console, m.pool.freeCount = (boot layout console).pool.freeCount
  task : ∀ frame, layout.IsTaskFrame frame → m.refCount? frame = some 0
  cached : ∀ frame, layout.IsCached frame → m.refCount? frame = some bufferCount

theorem asBooted_of_count (same : m.pool.count = (FramePool.initial layout).count) :
    m.AsBooted := by
  have booted (console : Console) : m.pool.count = (boot layout console).pool.count := by
    rw [pool_boot]
    exact same
  refine ⟨?_, ?_, ?_, ?_⟩
  · exact fun console frame => refCount?_congr (congrFun (booted console) frame)
  · intro console
    rw [FramePool.freeCount, FramePool.freeCount, FramePool.counts_eq_of_count (booted console)]
  · intro frame task
    rw [refCount?_eq task.pooled, same, FramePool.count_initial_of_task task]
  · intro frame cached
    rw [refCount?_eq cached.pooled, same, FramePool.count_initial_of_cached cached]

end Manager

open Manager

variable {layout : Layout} {m : Manager layout} {held : Finset Frame}

/-- A task's range is released with just the references that it held, and a second release finds
nothing. When the caller holds no frame, the release of ranges that hold all tables of tasks, in
whatever order, leaves every count as it was at the start. -/
theorem Reachable.teardown (reachable : Reachable layout m held) :
    (∀ start size, layout.IsTaskRange start size →
      ∃ m', release start size m = .ok () m' ∧
        m.TornDown m' start.dirIndex (blocksSpanned size) ∧
        release start size m' = .ok () m'.flushed) ∧
    (held = ∅ → ∀ ranges : List (LinearAddr × Nat),
      (∀ range ∈ ranges, layout.IsTaskRange range.1 range.2) →
      (∀ block ∈ layout.taskBlocks, (m.memory.link block).isPresent = true →
        ∃ range ∈ ranges, range.1.dirIndex ≤ block ∧
          block < range.1.dirIndex + blocksSpanned range.2) →
      ∃ m', releaseAll ranges m = .ok () m' ∧ m'.AsBooted) := by
  have sound := reachable.sound
  refine ⟨fun _ _ range => sound.exists_tornDown range, ?_⟩
  rintro rfl ranges tasks covers
  obtain ⟨m', run, sound', left⟩ := sound.exists_releaseAll ranges tasks
  refine ⟨m', run, asBooted_of_count (sound'.count_eq_initial ?_)⟩
  intro block member
  by_contra present
  rw [Bool.not_eq_false] at present
  obtain ⟨before, outside⟩ := left block present
  obtain ⟨range, listed, covered⟩ := covers block member before
  exact outside range listed covered

/-- The blocks above the first page's are released first, and then the block that holds it. -/
theorem teardown_filled :
    (∃ m', release firstPage blockSize filled = .ok () m' ∧ filled.TornDown m' 1 1) ∧
      ∃ m', releaseAll [(LinearAddr.ofNat 8388608, 1022 * blockSize), (firstPage, blockSize)]
        filled = .ok () m' ∧ m'.AsBooted := by
  obtain ⟨one, all⟩ := Reachable.teardown reachable_filled
  have first : Layout.tiny.IsTaskRange firstPage blockSize := ⟨by decide, by decide, by decide⟩
  have above : Layout.tiny.IsTaskRange (LinearAddr.ofNat 8388608) (1022 * blockSize) :=
    ⟨by decide, by decide, by decide⟩
  obtain ⟨m', run, down, -⟩ := one firstPage blockSize first
  refine ⟨⟨m', run, down⟩, all rfl _ ?_ ?_⟩
  · intro range member
    rcases List.mem_pair.mp member with rfl | rfl
    · exact above
    · exact first
  · intro block member _
    obtain ⟨low, high⟩ := Layout.mem_taskBlocks.mp member
    have kernel : Layout.tiny.kernelTables = 1 := by decide
    have start : firstPage.dirIndex = 1 ∧ blocksSpanned blockSize = 1 := by decide
    have start' : (LinearAddr.ofNat 8388608).dirIndex = 2 ∧
        blocksSpanned (1022 * blockSize) = 1022 := by decide
    simp only [entriesPerDirectory] at high
    by_cases here : block = 1
    · refine ⟨(firstPage, blockSize), by simp, ?_⟩
      simp only [start]
      omega
    · refine ⟨(LinearAddr.ofNat 8388608, 1022 * blockSize), by simp, ?_⟩
      simp only [start']
      omega

end PagedMemory

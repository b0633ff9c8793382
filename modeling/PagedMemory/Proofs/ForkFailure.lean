import PagedMemory.Proofs.Guarantees

/-!
Forks that run out of frames. By then some blocks of the child may have tables, and their leaves
count as sharers of the parent's frames. The release of the child's range takes back just that:
links, counts and bytes are those of before the fork, and a leaf of the parent may have lost its
writable bit, which its next fault restores.
-/

namespace PagedMemory

namespace Manager

variable {layout : Layout} {m m' : Manager layout} {held : Finset Frame}
  {source target blocks : Nat}

open Operation

/-- Outside the blocks from `target` on nothing has changed, but leaves of the blocks from `source`
on may have become read-only. -/
structure Begun (m m' : Manager layout) (source target blocks : Nat) : Prop where
  link : ∀ block, ¬ (target ≤ block ∧ block < target + blocks) →
    m'.memory.link block = m.memory.link block
  leaf : ∀ place : Nat × Nat, ¬ (target ≤ place.1 ∧ place.1 < target + blocks) →
    m'.memory.leaf place = m.memory.leaf place ∨
      (source ≤ place.1 ∧ place.1 < source + blocks) ∧
        m'.memory.leaf place = (m.memory.leaf place).writeProtected
  seen : ∀ place ∈ layout.taskPlaces, ¬ (target ≤ place.1 ∧ place.1 < target + blocks) →
    m'.memory.seen place = m.memory.seen place

theorem begun_self (m : Manager layout) (source target blocks : Nat) :
    m.Begun m source target blocks :=
  ⟨fun _ _ => rfl, fun _ _ => Or.inl rfl, fun _ _ _ => rfl⟩

theorem Begun.share {m'' : Manager layout} (begun : m.Begun m' source target blocks) {block : Nat}
    (shared : BlockShared m' m'' held (source + block) (target + block)) (below : block < blocks) :
    m.Begun m'' source target blocks := by
  refine ⟨?_, ?_, ?_⟩
  · intro other outside
    rw [shared.link other (by omega), begun.link other outside]
  · intro place outside
    rw [shared.leaf, if_neg (by omega)]
    by_cases parent : place.1 = source + block
    · have covered : source ≤ place.1 ∧ place.1 < source + blocks := by omega
      rw [if_pos parent]
      rcases begun.leaf place outside with same | ⟨-, protect⟩
      · exact Or.inr ⟨covered, congrArg Entry.writeProtected same⟩
      · rw [protect, Entry.writeProtected_writeProtected]
        exact Or.inr ⟨covered, rfl⟩
    · rw [if_neg parent]
      exact begun.leaf place outside
  · intro place inside outside
    rw [shared.seen place inside, if_neg (by omega), begun.seen place inside outside]

theorem keeps_duplicateBlock {block : Nat} (below : block < blocks)
    (member : source + block ∈ layout.taskBlocks) (member' : target + block ∈ layout.taskBlocks) :
    Keeps (fun m' => m'.Sound held ∧ m.Begun m' source target blocks)
      (duplicateBlock entriesPerTable (source + block) (target + block)) := by
  rintro m₁ ⟨sound, begun⟩
  rcases sound.duplicateBlock_cases member member' with
    ⟨-, run⟩ | ⟨-, -, run⟩ | ⟨-, m₂, run, shared⟩
  · rw [after_of_error run]
    exact ⟨sound, begun⟩
  · rw [after_of_error run]
    exact ⟨sound, begun⟩
  · rw [after_of_ok run]
    exact ⟨shared.sound, begun.share shared below⟩

/-- Nothing is left of a child that has been released, and its parent has its frames to itself
again. -/
structure Undone (m m' : Manager layout) (source blocks : Nat) : Prop where
  link : m'.memory.link = m.memory.link
  leaf : ∀ place ∈ layout.taskPlaces, m'.memory.leaf place = m.memory.leaf place ∨
    (source ≤ place.1 ∧ place.1 < source + blocks) ∧
      m'.memory.leaf place = (m.memory.leaf place).writeProtected
  seen : ∀ place ∈ layout.taskPlaces, m'.memory.seen place = m.memory.seen place

theorem Begun.undone {m'' : Manager layout} (begun : m.Begun m' source target blocks)
    (sound : m.Sound held) (members : ∀ block < blocks, target + block ∈ layout.taskBlocks)
    (vacant : ∀ block < blocks, (m.memory.link (target + block)).isPresent = false)
    (released : m'.Released m'' target blocks) : Undone m m'' source blocks := by
  have absent {block : Nat} (covered : target ≤ block ∧ block < target + blocks) :
      (m.memory.link block).isPresent = false ∧ block ∈ layout.taskBlocks := by
    have offset : target + (block - target) = block := by omega
    have below : block - target < blocks := by omega
    exact ⟨offset ▸ vacant _ below, offset ▸ members _ below⟩
  refine ⟨?_, ?_, ?_⟩
  · funext block
    rw [released.link]
    by_cases covered : target ≤ block ∧ block < target + blocks
    · obtain ⟨none, member⟩ := absent covered
      rw [if_pos covered, sound.balanced.linkEmpty block member none]
    · rw [if_neg covered, begun.link block covered]
  · intro place _
    rw [released.leaf]
    by_cases covered : target ≤ place.1 ∧ place.1 < target + blocks
    · rw [if_pos covered, PhysicalMemory.leaf_of_absent place (absent covered).1]
      exact Or.inl rfl
    · rw [if_neg covered]
      exact begun.leaf place covered
  · intro place inside
    rw [released.seen place inside]
    by_cases covered : target ≤ place.1 ∧ place.1 < target + blocks
    · rw [if_pos covered, PhysicalMemory.seen_of_unlinked place (absent covered).1]
    · rw [if_neg covered, begun.seen place inside covered]

namespace Undone

variable (undone : Undone m m' source blocks)

include undone

theorem pointsAt_iff {place : Nat × Nat} (inside : place ∈ layout.taskPlaces) (frame : Frame) :
    (m'.memory.leaf place).PointsAt frame ↔ (m.memory.leaf place).PointsAt frame := by
  rcases undone.leaf place inside with same | ⟨-, protect⟩
  · rw [same]
  · rw [protect]
    exact Entry.pointsAt_writeProtected

theorem count_eq (sound : m.Sound held) (sound' : m'.Sound held) :
    m'.pool.count = m.pool.count := by
  funext frame
  by_cases pooled : layout.IsPooled frame
  · have books := sound'.balanced
    rw [undone.link] at books
    exact sound.balanced.count_eq books (fun _ inside => undone.pointsAt_iff inside) pooled
  · rw [FramePool.count_of_not_pooled _ pooled, FramePool.count_of_not_pooled _ pooled]

end Undone

theorem Sound.undone_of_fork (sound : m.Sound held) {parent child : LinearAddr} {limit : Nat}
    (task : layout.kernelTables ≤ parent.dirIndex) (task' : layout.kernelTables ≤ child.dirIndex)
    (vacant : ∀ block < blocksSpanned limit,
      (m.memory.link (child.dirIndex + block)).isPresent = false)
    (failed : fork parent child limit m = .error .outOfMemory m') :
    m'.Sound held ∧ Undone m m' parent.dirIndex (blocksSpanned limit) := by
  obtain ⟨m₁, run, undo⟩ := exists_of_fork_outOfMemory failed
  rcases duplicate_checked_or_refused m with ⟨checked, shares⟩ | ⟨error, refused⟩
  · obtain ⟨⟨aligned, aligned'⟩, fits, fits'⟩ := checkDuplicate_eq_ok_iff.mp checked
    have within := Layout.inTaskSpace_of_blocks task aligned fits
    have within' := Layout.inTaskSpace_of_blocks task' aligned' fits'
    have rounds : Keeps
        (fun m' => m'.Sound held ∧ m.Begun m' parent.dirIndex child.dirIndex (blocksSpanned limit))
        (shareBlocks parent child (blocksSpanned limit)) := by
      apply Keeps.forM
      intro block member
      rw [within.sharedEntries_eq]
      have below := List.mem_range.mp member
      exact keeps_duplicateBlock below (within.mem_taskBlocks aligned below)
        (within'.mem_taskBlocks aligned' below)
    obtain ⟨sound₁, begun⟩ := rounds m ⟨sound, begun_self m _ _ _⟩
    have flushed : m₁ = ((shareBlocks parent child (blocksSpanned limit)).after m).flushed := by
      rw [← after_thenFlush, after_of_error (shares.symm.trans run)]
    have sound₂ : m₁.Sound held := flushed ▸ sound₁
    have begun₂ : m.Begun m₁ parent.dirIndex child.dirIndex (blocksSpanned limit) :=
      flushed ▸ ⟨begun.link, begun.leaf, begun.seen⟩
    obtain ⟨m₂, undo', sound', released⟩ := sound₂.exists_release within' aligned'
    obtain rfl : m₂ = m' := by
      have ends := undo'.symm.trans undo
      cases ends
      rfl
    exact ⟨sound', begun₂.undone sound (fun _ => within'.mem_taskBlocks aligned') vacant released⟩
  · cases refused.symm.trans run

theorem Sound.resolveWriteProtect_of_once (sound : m.Sound held) {addr : LinearAddr}
    (task : layout.kernelTables ≤ addr.dirIndex)
    (mapped : (m.memory.leaf addr.place).isPresent = true)
    (once : m.pool.count (m.memory.leaf addr.place).frame = 1) :
    ∃ m', resolveWriteProtect addr m = .ok .restored m' ∧ m'.pool = m.pool := by
  have sound' : m.startedWriteProtect.Sound held := sound
  obtain ⟨m', run, restored⟩ :=
    sound'.exists_restore (Layout.place_mem_taskPlaces task) mapped once
  exact ⟨m', (sound.resolveWriteProtect_of_present mapped).trans run, restored.pool⟩

end Manager

open Manager

variable {layout : Layout} {m m' : Manager layout} {held : Finset Frame}

/-- A fork that runs out of frames leaves links, counts and bytes as they were. Leaves of the
parent may have become read-only, but a page that the parent had to itself is opened again by its
next fault, and no frame is taken for that. -/
theorem Reachable.fork_outOfMemory (reachable : Reachable layout m held)
    {parent child : LinearAddr} {limit : Nat} (task : layout.kernelTables ≤ parent.dirIndex)
    (task' : layout.kernelTables ≤ child.dirIndex)
    (vacant : ∀ block < blocksSpanned limit,
      (m.memory.link (child.dirIndex + block)).isPresent = false)
    (failed : fork parent child limit m = .error .outOfMemory m') :
    m'.memory.link = m.memory.link ∧
    (∀ frame, m'.refCount? frame = m.refCount? frame) ∧
    m'.pool.freeCount = m.pool.freeCount ∧
    (∀ place ∈ layout.taskPlaces, m'.memory.leaf place = m.memory.leaf place ∨
      (parent.dirIndex ≤ place.1 ∧ place.1 < parent.dirIndex + blocksSpanned limit) ∧
        m'.memory.leaf place = (m.memory.leaf place).writeProtected) ∧
    (∀ addr, layout.kernelTables ≤ addr.dirIndex → m'.byteAt addr = m.byteAt addr) ∧
    ∀ addr entry, layout.kernelTables ≤ addr.dirIndex → m.walk addr = .ok (some entry) →
      m.refCount? entry.frame = some 1 →
      ∃ m'', resolveWriteProtect addr m' = .ok .restored m'' ∧ m''.pool = m'.pool := by
  have sound := reachable.sound
  obtain ⟨sound', undone⟩ := sound.undone_of_fork task task' vacant failed
  have counts := undone.count_eq sound sound'
  refine ⟨undone.link, ?_, ?_, undone.leaf, ?_, ?_⟩
  · exact fun frame => refCount?_congr (congrFun counts frame)
  · rw [FramePool.freeCount, FramePool.freeCount, FramePool.counts_eq_of_count counts]
  · intro addr task
    rw [sound'.byteAt_eq task, sound.byteAt_eq task]
    exact congrArg Except.ok (SameContents.of_seen undone.seen addr task)
  · intro addr entry task found once
    have inside := Layout.place_mem_taskPlaces task
    rw [sound.walk_eq] at found
    by_cases mapped : (m.memory.leaf addr.place).isPresent = true
    · rw [if_pos mapped] at found
      cases found
      have owner := sound.balanced.mapped _ inside mapped
      rw [refCount?_eq owner.pooled, ← counts] at once
      obtain ⟨mapped', frame⟩ := (undone.pointsAt_iff inside _).mpr ⟨mapped, rfl⟩
      rw [← frame] at once
      exact sound'.resolveWriteProtect_of_once task mapped' (Option.some.inj once)
    · rw [if_neg mapped] at found
      cases found

/-- The tiny machine once its first page has been filled in and the caller has taken the other two
frames. -/
def exhausted : Manager .tiny := (Call.allocate.perform (Call.allocate.perform filled).2).2

theorem reachable_exhausted : Reachable .tiny exhausted {⟨160⟩, ⟨161⟩} :=
  (reachable_filled.allocate (by decide +kernel)).allocate (by decide +kernel)

theorem exists_of_report_outOfMemory {result : EStateM.Result MemoryError (Manager layout) Unit}
    (ends : (report .ofMemoryError (fun _ => .done) result).1 = .outOfMemory) :
    ∃ m', result = .error .outOfMemory m' := by
  match result with
  | .ok _ m' => cases ends
  | .error .outOfMemory m' => exact ⟨m', rfl⟩
  | .error (.fatal error) m' => cases ends

/-- The tiny machine with one frame more. -/
def Layout.small : Layout :=
  { Layout.tiny with
    memoryEnd := 675840
    memoryEnd_aligned := by decide
    bufferEnd_le_memoryEnd := by decide
    memoryEnd_fits := by decide
    reservedBytes_le_lowMem := by decide }

/-- One page in each of two blocks, and one frame left. -/
def twoBlocks : Manager .small :=
  ((Call.noPage (LinearAddr.ofNat 8388608)).perform
    ((Call.noPage firstPage).perform (boot .small .empty)).2).2

theorem reachable_twoBlocks : Reachable .small twoBlocks ∅ := by
  have first : Reachable .small ((Call.noPage firstPage).perform (boot .small .empty)).2 ∅ :=
    Reachable.step (.noPage firstPage) (Reachable.boot .empty)
      (show Layout.small.kernelTables ≤ firstPage.dirIndex by decide) (by decide +kernel)
  exact first.step (.noPage (LinearAddr.ofNat 8388608))
    (show Layout.small.kernelTables ≤ (LinearAddr.ofNat 8388608).dirIndex by decide)
    (by decide +kernel)

def childBlock : LinearAddr := LinearAddr.ofNat 16777216

theorem exists_twoBlocks_round :
    ∃ m₁, shareBlocks firstPage childBlock 1 twoBlocks = .ok () m₁ ∧
      BlockShared twoBlocks m₁ ∅ firstPage.dirIndex childBlock.dirIndex ∧
      (m₁.memory.link childBlock.dirIndex).isPresent = true ∧
      shareBlocks firstPage childBlock 2 twoBlocks = .error .outOfMemory m₁ := by
  have sound := reachable_twoBlocks.sound
  have within : Layout.small.InTaskSpace firstPage (2 * blockSize) := ⟨by decide, by decide⟩
  have member {block : Nat} (low : 1 ≤ block) (high : block < 1024) :
      block ∈ Layout.small.taskBlocks := Layout.mem_taskBlocks.mpr ⟨low, high⟩
  have room : twoBlocks.pool.freeCount = 1 := by decide +kernel
  have linked : (twoBlocks.memory.link 1).isPresent = true ∧
      (twoBlocks.memory.link 2).isPresent = true := by decide +kernel
  have absent : (twoBlocks.memory.link 4).isPresent = false ∧
      (twoBlocks.memory.link 5).isPresent = false := by decide +kernel
  obtain ⟨m₁, first, round⟩ := (sound.duplicateBlock_round (member (by decide) (by decide))
    (member (by decide) (by decide))).exists_ok absent.1 linked.1 (by omega)
  have shared := round.blockShared sound
  have taken := round.freeCount sound (member (by decide) (by decide))
    (member (by decide) (by decide))
  rw [if_pos linked.1] at taken
  -- the second block has a page to share as well, but no frame is left for its table
  have second := (shared.sound.duplicateBlock_round (member (by decide) (by decide))
    (member (by decide) (by decide))).eq_outOfMemory
    ((congrArg Entry.isPresent (shared.link 5 (by decide))).trans absent.2)
    ((congrArg Entry.isPresent (shared.link 2 (by decide))).trans linked.2) (by omega)
  obtain ⟨table, task, -, link⟩ := round.exists_table linked.1
  have one : shareBlocks firstPage childBlock 1 twoBlocks = .ok () m₁ := by
    rw [shareBlocks_one, within.sharedEntries_eq]
    exact first
  refine ⟨m₁, one, shared, ?_, ?_⟩
  · rw [show childBlock.dirIndex = 4 by decide, link]
    exact Entry.isPresent_new _ _
  · rw [shareBlocks_succ, Operation.bind_ok one, within.sharedEntries_eq]
    exact second

/-- A fork of both blocks fails when the child has its first block, with a sharer for the page in
it. Afterwards the page has one owner as before, and can be written again without a frame. -/
theorem fork_outOfMemory_twoBlocks :
    ∃ m₁ m', shareBlocks firstPage childBlock 1 twoBlocks = .ok () m₁ ∧
      (m₁.memory.link childBlock.dirIndex).isPresent = true ∧ m₁.refCount? ⟨164⟩ = some 2 ∧
      fork firstPage childBlock (2 * blockSize) twoBlocks = .error .outOfMemory m' ∧
      m'.memory.link = twoBlocks.memory.link ∧ m'.refCount? ⟨164⟩ = some 1 ∧
      ∃ m'', resolveWriteProtect firstPage m' = .ok .restored m'' ∧ m''.pool = m'.pool := by
  have task : Layout.small.kernelTables ≤ firstPage.dirIndex := by decide
  have task' : Layout.small.kernelTables ≤ childBlock.dirIndex := by decide
  have within : Layout.small.InTaskSpace firstPage (2 * blockSize) := ⟨task, by decide⟩
  have within' : Layout.small.InTaskSpace childBlock (2 * blockSize) := ⟨task', by decide⟩
  obtain ⟨m₁, one, shared, linked, two⟩ := exists_twoBlocks_round
  have once : twoBlocks.refCount? ⟨164⟩ = some 1 := by decide +kernel
  have maps : (twoBlocks.memory.leaf firstPage.place).PointsAt ⟨164⟩ := by decide +kernel
  have twice : m₁.refCount? ⟨164⟩ = some 2 := by
    have alone := reachable_twoBlocks.sound.leavesTo_of_once task maps (by decide +kernel)
    have both := shared.leavesTo_eq (Layout.mem_taskBlocks.mpr ⟨by decide, by decide⟩)
      (Layout.mem_taskBlocks.mpr ⟨by decide, by decide⟩) (by decide) alone
    exact (shared.sound.shared_of_pair both (by decide)).2.2
  have shares := duplicate_eq within within' (by decide) (by decide) twoBlocks
  have failed := shares.trans (Operation.thenFlush_error two)
  have flushed : m₁.flushed.Sound ∅ := shared.sound
  obtain ⟨m', failed', -⟩ := flushed.exists_fork_of_duplicate within' (by decide) failed
  obtain ⟨link, count, -, -, -, restored⟩ :=
    Reachable.fork_outOfMemory reachable_twoBlocks task task' (by decide +kernel) failed'
  refine ⟨m₁, m', one, linked, twice, failed', link, (count ⟨164⟩).trans once, ?_⟩
  exact restored firstPage (Entry.new ⟨164⟩ .userWritable) task (by decide +kernel)
    (by decide +kernel)

end PagedMemory

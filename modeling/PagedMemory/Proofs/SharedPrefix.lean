import Mathlib.Order.Interval.Finset.Nat
import Mathlib.Data.Nat.Count
import PagedMemory.Proofs.IdentityMap
import PagedMemory.Proofs.OccupiedBlocks
import PagedMemory.Proofs.RoundTrip
import PagedMemory.Proofs.Teardown

/-!
How far a duplication gets. It stops at the first block whose target has a table already, or for
whose table there is no frame. Which block that is can be told beforehand, since a round takes one
frame for a table and the others are only shared. Up to there all is shared, and from there on
nothing has happened.
-/

namespace PagedMemory

namespace Manager

variable {layout : Layout} {m m' m'' : Manager layout} {held : Finset Frame}

open Operation

def tablesFrom (m : Manager layout) (source blocks : Nat) : Nat :=
  Nat.count (fun block => (m.memory.link (source + block)).isPresent = true) blocks

/-- Why a duplication cannot go on at a block, told from the state before all of it: the block of
the target has a table; or that of the source has one, and the frames for tables are used up by the
blocks before. -/
def stopsAt (m : Manager layout) (source target block : Nat) : Option MemoryError :=
  if (m.memory.link (target + block)).isPresent then some (.fatal (.alreadyExists (target + block)))
  else if (m.memory.link (source + block)).isPresent ∧
    m.pool.freeCount ≤ m.tablesFrom source block then some .outOfMemory
  else none

variable {source target blocks : Nat}

/-- The first `blocks` blocks are shared, each with a table through one in a frame that was free. -/
structure PrefixShared (m m' : Manager layout) (held : Finset Frame)
    (source target blocks : Nat) : Prop where
  sound : m'.Sound held
  passes : ∀ block < blocks, m.stopsAt source target block = none
  copied : m.Copied m' source target blocks
  child : ∀ block < blocks, ∀ index, m'.memory.leaf (target + block, index) =
    (m.memory.leaf (source + block, index)).writeProtected
  skipped : ∀ block < blocks, (m.memory.link (source + block)).isPresent = false →
    m'.memory.link (target + block) = m.memory.link (target + block)
  table : ∀ block < blocks, (m.memory.link (source + block)).isPresent = true →
    ∃ table, layout.IsTaskFrame table ∧ m.pool.count table = 0 ∧
      m'.memory.link (target + block) = Entry.new table .userWritable
  used : ∀ frame, layout.IsTaskFrame frame → m'.pool.count frame = 0 → m.pool.count frame = 0
  free : m'.pool.freeCount + m.tablesFrom source blocks = m.pool.freeCount

theorem Sound.prefixShared_zero (sound : m.Sound held) (source target : Nat) :
    PrefixShared m m held source target 0 := by
  refine ⟨sound, ?_, copied_zero m _ _, ?_, ?_, ?_, fun _ _ => id, rfl⟩
  · exact fun _ none => absurd none (Nat.not_lt_zero _)
  · exact fun _ none => absurd none (Nat.not_lt_zero _)
  · exact fun _ none => absurd none (Nat.not_lt_zero _)
  · exact fun _ none => absurd none (Nat.not_lt_zero _)

namespace PrefixShared

variable (shared : PrefixShared m m' held source target blocks)

include shared

theorem link_target : m'.memory.link (target + blocks) = m.memory.link (target + blocks) :=
  shared.copied.link _ (by omega)

section Apart

variable (apart : source + (blocks + 1) ≤ target ∨ target + (blocks + 1) ≤ source)

include apart

theorem link_source : m'.memory.link (source + blocks) = m.memory.link (source + blocks) :=
  shared.copied.link _ (by omega)

theorem leaf_source (index : Nat) :
    m'.memory.leaf (source + blocks, index) = m.memory.leaf (source + blocks, index) := by
  rw [shared.copied.leaf (source + blocks, index) (by omega), if_neg (by omega)]

theorem stopsAt_of_error {error : MemoryError}
    (round : Round m' held (source + blocks) (target + blocks) (.error error m'')) :
    m.stopsAt source target blocks = some error ∧ m'' = m' := by
  have free := shared.free
  cases round with
  | occupied present =>
      rw [shared.link_target] at present
      exact ⟨if_pos present, rfl⟩
  | full absent linked full =>
      rw [shared.link_target] at absent
      rw [shared.link_source apart] at linked
      have none := FramePool.highestFree_eq_none_iff.mp full
      refine ⟨?_, rfl⟩
      rw [stopsAt, if_neg (ne_true_of_eq_false absent), if_pos ⟨linked, by omega⟩]

theorem stopsAt_of_ok (round : Round m' held (source + blocks) (target + blocks) (.ok () m'')) :
    m.stopsAt source target blocks = none := by
  have free := shared.free
  have absent := round.absent
  rw [shared.link_target] at absent
  rw [stopsAt, if_neg (ne_true_of_eq_false absent), if_neg]
  rintro ⟨linked, short⟩
  rw [← shared.link_source apart] at linked
  cases round with
  | skipped _ none =>
      rw [linked] at none
      cases none
  | shared _ _ task unused _ _ =>
      have some := FramePool.freeCount_pos task.pooled unused
      omega

theorem succ (member : source + blocks ∈ layout.taskBlocks)
    (member' : target + blocks ∈ layout.taskBlocks)
    (round : Round m' held (source + blocks) (target + blocks) (.ok () m'')) :
    PrefixShared m m'' held source target (blocks + 1) := by
  have next := round.blockShared shared.sound
  have parent := shared.link_source apart
  have kept {block : Nat} (below : block < blocks) :
      m''.memory.link (target + block) = m'.memory.link (target + block) :=
    next.link _ (by omega)
  refine ⟨next.sound, ?_, shared.copied.succ round.absent next, ?_, ?_, ?_, ?_, ?_⟩
  · exact Nat.forall_lt_succ_right.mpr ⟨shared.passes, shared.stopsAt_of_ok apart round⟩
  · refine Nat.forall_lt_succ_right.mpr ⟨?_, ?_⟩
    · intro block below index
      rw [next.leaf, if_neg (by omega), if_neg (by omega)]
      exact shared.child block below index
    · intro index
      rw [next.leaf, if_pos rfl, shared.leaf_source apart]
  · refine Nat.forall_lt_succ_right.mpr ⟨?_, ?_⟩
    · intro block below none
      rw [kept below]
      exact shared.skipped block below none
    · intro none
      rw [← parent] at none
      exact (round.link_of_absent none).trans shared.link_target
  · refine Nat.forall_lt_succ_right.mpr ⟨?_, ?_⟩
    · intro block below linked
      rw [kept below]
      exact shared.table block below linked
    · intro linked
      rw [← parent] at linked
      obtain ⟨table, task, free, link⟩ := round.exists_table linked
      exact ⟨table, task, shared.used table task free, link⟩
  · intro frame task free
    exact shared.used frame task (next.free_of_free shared.sound round.absent task free)
  · have free := shared.free
    have taken := round.freeCount shared.sound member member'
    rw [parent] at taken
    rw [tablesFrom, Nat.count_succ, ← tablesFrom]
    omega

end Apart

theorem card_leavesWithin (frame : Frame) : (m'.leavesWithin target blocks frame).card =
    (m.leavesWithin source blocks frame).card := by
  have copy (offset index : Nat) : (target + offset, index) ∈ m'.leavesWithin target blocks frame ↔
      (source + offset, index) ∈ m.leavesWithin source blocks frame := by
    rw [mem_leavesWithin, mem_leavesWithin]
    by_cases below : offset < blocks
    · rw [shared.child offset below, Entry.pointsAt_writeProtected]
      simp only [Nat.le_add_right, Nat.add_lt_add_iff_left]
    · exact iff_of_false (fun all => below (Nat.add_lt_add_iff_left.mp all.1.2))
        fun all => below (Nat.add_lt_add_iff_left.mp all.1.2)
  refine Finset.card_nbij' (fun place => (source + (place.1 - target), place.2))
    (fun place => (target + (place.1 - source), place.2)) ?_ ?_ ?_ ?_
  · rintro ⟨block, index⟩ member
    obtain ⟨offset, rfl⟩ := Nat.exists_eq_add_of_le (mem_leavesWithin.mp member).1.1
    simp only [Nat.add_sub_cancel_left]
    exact (copy offset index).mp member
  · rintro ⟨block, index⟩ member
    obtain ⟨offset, rfl⟩ := Nat.exists_eq_add_of_le (mem_leavesWithin.mp member).1.1
    simp only [Nat.add_sub_cancel_left]
    exact (copy offset index).mpr member
  · rintro ⟨block, index⟩ member
    obtain ⟨offset, rfl⟩ := Nat.exists_eq_add_of_le (mem_leavesWithin.mp member).1.1
    simp only [Nat.add_sub_cancel_left]
  · rintro ⟨block, index⟩ member
    obtain ⟨offset, rfl⟩ := Nat.exists_eq_add_of_le (mem_leavesWithin.mp member).1.1
    simp only [Nat.add_sub_cancel_left]

section Task

variable (task : layout.kernelTables ≤ target) (inside : target + blocks ≤ entriesPerDirectory)

include task inside

theorem card_leavesTo (frame : Frame) :
    (leavesTo layout m'.memory.leaf frame).card =
      (leavesTo layout m.memory.leaf frame).card + (m.leavesWithin source blocks frame).card := by
  rw [← shared.card_leavesWithin frame]
  apply card_filter_outside (fun place => (m'.memory.leaf place).PointsAt frame)
    fun place => (m.memory.leaf place).PointsAt frame
  · exact Finset.product_subset_product_left (Finset.Ico_subset_Ico task inside)
  · intro place member
    have bound := (Layout.mem_taskPlaces.mp member).2
    rw [Finset.mem_product, Finset.mem_Ico, Finset.mem_range]
    by_cases covered : target ≤ place.1 ∧ place.1 < target + blocks
    · -- the block was vacant
      have absent := shared.copied.vacant (place.1 - target) (by omega)
      rw [Nat.add_sub_cancel' covered.1] at absent
      rw [PhysicalMemory.leaf_of_absent place absent]
      exact iff_of_false (fun points => nomatch points.1) fun both => both.2 ⟨covered, bound⟩
    · rw [and_iff_left fun both => covered both.1, shared.copied.leaf place covered]
      split
      · rw [Entry.pointsAt_writeProtected]
      · exact Iff.rfl

theorem count_eq (before : m.Sound held) {frame : Frame} (owned : layout.IsTaskFrame frame)
    (other : ∀ block < blocks, ¬ (m'.memory.link (target + block)).PointsAt frame) :
    m'.pool.count frame = m.pool.count frame + (m.leavesWithin source blocks frame).card := by
  have links : linksTo layout m'.memory.link frame = linksTo layout m.memory.link frame := by
    apply Finset.filter_congr
    intro block _
    by_cases covered : target ≤ block ∧ block < target + blocks
    · have below : block - target < blocks := by omega
      have absent := shared.copied.vacant _ below
      have apart := other _ below
      rw [Nat.add_sub_cancel' covered.1] at absent apart
      exact iff_of_false apart (Entry.not_pointsAt_of_absent absent frame)
    · rw [shared.copied.link block covered]
  rw [shared.sound.balanced.counted frame owned, before.balanced.counted frame owned, links,
    shared.card_leavesTo task inside frame]
  omega

end Task

end PrefixShared

theorem Sound.shareBlocks_prefix (sound : m.Sound held) {source target : LinearAddr}
    {blocks : Nat} (members : ∀ block < blocks, source.dirIndex + block ∈ layout.taskBlocks)
    (members' : ∀ block < blocks, target.dirIndex + block ∈ layout.taskBlocks)
    (whole : sharedEntries source = entriesPerTable)
    (apart : source.dirIndex + blocks ≤ target.dirIndex ∨
      target.dirIndex + blocks ≤ source.dirIndex) :
    (∃ m', shareBlocks source target blocks m = .ok () m' ∧
      PrefixShared m m' held source.dirIndex target.dirIndex blocks) ∨
    ∃ shared error m', shared < blocks ∧ shareBlocks source target blocks m = .error error m' ∧
      m.stopsAt source.dirIndex target.dirIndex shared = some error ∧
      PrefixShared m m' held source.dirIndex target.dirIndex shared := by
  have rounds := forM_cases (fun block => duplicateBlock (sharedEntries source)
      (source.dirIndex + block) (target.dirIndex + block))
    (fun n m' => PrefixShared m m' held source.dirIndex target.dirIndex n)
    (fun n error m' => m.stopsAt source.dirIndex target.dirIndex n = some error ∧
      PrefixShared m m' held source.dirIndex target.dirIndex n) (List.range blocks) (by
      intro n inside m₁ shared
      rw [List.length_range] at inside
      rw [List.getElem_range, whole]
      have round := shared.sound.duplicateBlock_round (members n inside) (members' n inside)
      generalize duplicateBlock entriesPerTable (source.dirIndex + n) (target.dirIndex + n) m₁ =
        result at round ⊢
      cases result with
      | ok _ m₂ =>
          exact Or.inl ⟨m₂, rfl, shared.succ (by omega) (members n inside) (members' n inside)
            round⟩
      | error error m₂ =>
          obtain ⟨stops, rfl⟩ := shared.stopsAt_of_error (by omega) round
          exact Or.inr ⟨error, m₂, rfl, stops, shared⟩)
    m (sound.prefixShared_zero _ _)
  rw [List.length_range] at rounds
  rcases rounds with ⟨m', run, shared⟩ | ⟨n, error, m', inside, run, stops, shared⟩
  · exact Or.inl ⟨m', run, shared⟩
  · exact Or.inr ⟨n, error, m', inside, run, stops, shared⟩

/-- The first `blocks` blocks are shared and nothing else has happened: each that has a table gets
one in a frame that was free, both sides map the same frames read-only, and a frame gains one
reference for each leaf that maps it there. -/
structure SharesPrefix (m m' : Manager layout) (source target blocks : Nat) : Prop where
  table : ∀ block < blocks, (m.memory.link (source + block)).isPresent = true →
    ∃ table, m.refCount? table = some 0 ∧ m'.refCount? table = some 1 ∧
      m'.memory.link (target + block) = Entry.new table .userWritable ∧
      (m'.memory.link (target + block)).frame = table
  skipped : ∀ block < blocks, (m.memory.link (source + block)).isPresent = false →
    (m'.memory.link (target + block)).isPresent = false ∧
      m'.memory.link (target + block) = m.memory.link (target + block)
  child : ∀ block < blocks, ∀ index, m'.memory.leaf (target + block, index) =
    if (m.memory.leaf (source + block, index)).isPresent then
      (m.memory.leaf (source + block, index)).writeProtected
    else .empty
  parent : ∀ block < blocks, ∀ index, m'.memory.leaf (source + block, index) =
    if (m.memory.leaf (source + block, index)).isPresent then
      (m.memory.leaf (source + block, index)).writeProtected
    else m.memory.leaf (source + block, index)
  link : ∀ block, ¬ (target ≤ block ∧ block < target + blocks) →
    m'.memory.link block = m.memory.link block
  leaf : ∀ place : Nat × Nat, ¬ (source ≤ place.1 ∧ place.1 < source + blocks) →
    ¬ (target ≤ place.1 ∧ place.1 < target + blocks) → m'.memory.leaf place = m.memory.leaf place
  counts : ∀ frame, (∀ block < blocks, ¬ (m'.memory.link (target + block)).PointsAt frame) →
    m'.refCount? frame =
      (m.refCount? frame).map (· + (m.leavesWithin source blocks frame).card)
  free : m'.pool.freeCount + m.tablesFrom source blocks = m.pool.freeCount
  bytes : ∀ addr : LinearAddr, layout.kernelTables ≤ addr.dirIndex →
    ¬ (target ≤ addr.dirIndex ∧ addr.dirIndex < target + blocks) → m'.byteAt addr = m.byteAt addr

theorem Sound.leavesWithin_of_cached (sound : m.Sound held) {first blocks : Nat} {frame : Frame}
    (cached : layout.IsCached frame) (task : layout.kernelTables ≤ first)
    (inside : first + blocks ≤ entriesPerDirectory) : m.leavesWithin first blocks frame = ∅ := by
  apply Finset.eq_empty_of_forall_notMem
  intro place member
  obtain ⟨⟨above, below⟩, bound, points⟩ := mem_leavesWithin.mp member
  have block := Layout.mem_taskBlocks.mpr ⟨Nat.le_trans task above, Nat.lt_of_lt_of_le below inside⟩
  have page := sound.balanced.mapped place (Layout.mem_taskPlaces.mpr ⟨block, bound⟩) points.1
  rw [points.2] at page
  exact page.not_cached cached

theorem PrefixShared.sharesPrefix (shared : PrefixShared m m' held source target blocks)
    (before : m.Sound held) (apart : source + blocks ≤ target ∨ target + blocks ≤ source)
    (task : layout.kernelTables ≤ source) (inside : source + blocks ≤ entriesPerDirectory)
    (task' : layout.kernelTables ≤ target) (inside' : target + blocks ≤ entriesPerDirectory) :
    SharesPrefix m m' source target blocks := by
  have empty {place : Nat × Nat} (absent : ¬ (m.memory.leaf place).isPresent = true) :
      m.memory.leaf place = .empty := before.leaf_eq_empty (Bool.not_eq_true _ ▸ absent)
  refine ⟨?_, ?_, ?_, ?_, shared.copied.link, ?_, ?_, shared.free, ?_⟩
  · intro block below linked
    obtain ⟨table, owned, free, link⟩ := shared.table block below linked
    have leads : (m'.memory.link (target + block)).PointsAt table := by
      rw [link]
      exact Entry.pointsAt_new owned.2 rfl
    have member : target + block ∈ layout.taskBlocks :=
      Layout.mem_taskBlocks.mpr ⟨by omega, by omega⟩
    have once := shared.sound.balanced.count_of_link member leads
    refine ⟨table, ?_, ?_, link, leads.2⟩
    · rw [refCount?_eq owned.pooled, free]
    · rw [refCount?_eq owned.pooled, once]
  · intro block below none
    have same := shared.skipped block below none
    refine ⟨?_, same⟩
    rw [same]
    exact shared.copied.vacant block below
  · intro block below index
    rw [shared.child block below index]
    split
    · rfl
    · rename_i absent
      rw [empty absent]
      exact Entry.writeProtected_empty
  · intro block below index
    rw [shared.copied.leaf (source + block, index) (by omega), if_pos (by omega)]
    split
    · rfl
    · rename_i absent
      rw [empty absent]
      exact Entry.writeProtected_empty
  · intro place outside outside'
    rw [shared.copied.leaf place outside', if_neg outside]
  · intro frame other
    by_cases pooled : layout.IsPooled frame
    · rw [refCount?_eq pooled, refCount?_eq pooled, Option.map_some]
      congr 1
      -- no leaf of a task leads to a cached frame, so nothing is gained there
      rcases pooled.cached_or_task with cached | owned
      · rw [before.balanced.cached frame cached, shared.sound.balanced.cached frame cached,
          before.leavesWithin_of_cached cached task inside, Finset.card_empty, Nat.add_zero]
      · exact shared.count_eq task' inside' before owned other
    · have none (m : Manager layout) : m.refCount? frame = none :=
        FramePool.count?_of_not_pooled _ pooled
      rw [none, none, Option.map_none]
  · intro addr owned outside
    rw [shared.sound.byteAt_eq owned, before.byteAt_eq owned, contents, contents,
      shared.copied.seen _ (Layout.place_mem_taskPlaces owned) outside]

end Manager

open Manager

variable {layout : Layout} {m : Manager layout} {held : Finset Frame}

theorem Layout.IsTaskRange.blocks_apart {source target : LinearAddr} {size : Nat}
    (range : layout.IsTaskRange source size) (range' : layout.IsTaskRange target size)
    (disjoint : source.toNat + size ≤ target.toNat ∨ target.toNat + size ≤ source.toNat) :
    source.dirIndex + blocksSpanned size ≤ target.dirIndex ∨
      target.dirIndex + blocksSpanned size ≤ source.dirIndex := by
  have whole : source.toNat % blockSize = 0 := beq_iff_eq.mp range.aligned
  have whole' : target.toNat % blockSize = 0 := beq_iff_eq.mp range'.aligned
  simp only [LinearAddr.dirIndex, blocksSpanned_eq, blockSize] at *
  omega

/-- A duplication, in full. It shares block after block up to the first one that stops it, and
succeeds exactly when there is none. All blocks before are shared, that one and those after it are
as they were. -/
theorem Reachable.duplicate_prefix (reachable : Reachable layout m held)
    {source target : LinearAddr} {size : Nat} (range : layout.IsTaskRange source size)
    (range' : layout.IsTaskRange target size)
    (disjoint : source.toNat + size ≤ target.toNat ∨ target.toNat + size ≤ source.toNat) :
    ∃ shared m', shared ≤ blocksSpanned size ∧
      (∀ block < shared, m.stopsAt source.dirIndex target.dirIndex block = none) ∧
      (shared = blocksSpanned size ∧ duplicate source target size m = .ok () m' ∨
        shared < blocksSpanned size ∧ ∃ error,
          m.stopsAt source.dirIndex target.dirIndex shared = some error ∧
          duplicate source target size m = .error error m') ∧
      SharesPrefix m m' source.dirIndex target.dirIndex shared := by
  have sound := reachable.sound
  have within := range.within
  have within' := range'.within
  have apart := range.blocks_apart range' disjoint
  have inside := range.inside
  have inside' := range'.inside
  rw [duplicate_eq within within' range.aligned range'.aligned]
  rcases sound.shareBlocks_prefix (fun _ => within.mem_taskBlocks range.aligned)
      (fun _ => within'.mem_taskBlocks range'.aligned) within.sharedEntries_eq apart with
    ⟨m', run, shared⟩ | ⟨block, error, m', below, run, stops, shared⟩
  · have shares := shared.sharesPrefix sound apart range.task inside range'.task inside'
    exact ⟨_, m'.flushed, Nat.le_refl _, shared.passes,
      Or.inl ⟨rfl, Operation.thenFlush_ok run⟩, { shares with }⟩
  · have shares := shared.sharesPrefix sound (by omega) range.task (by omega) range'.task (by omega)
    exact ⟨block, m'.flushed, Nat.le_of_lt below, shared.passes,
      Or.inr ⟨below, error, stops, Operation.thenFlush_error run⟩, { shares with }⟩

def vacantParent : LinearAddr := LinearAddr.ofNat 20971520

/-- The one block of the first page is shared. Where no frame is left, the vacant first block of
a range costs nothing, and the table that stands in the second block ends the duplication. -/
theorem duplicate_prefix_filled :
    (∃ m' table, duplicate firstPage spareBlock blockSize filled = .ok () m' ∧
      filled.refCount? table = some 0 ∧ m'.refCount? table = some 1 ∧
      m'.memory.link spareBlock.dirIndex = Entry.new table .userWritable ∧
      m'.memory.leaf spareBlock.place = (filled.memory.leaf firstPage.place).writeProtected) ∧
    ∃ m', duplicate vacantParent occupiedChild (2 * blockSize) doublyFilled =
        .error (.fatal (.alreadyExists 4)) m' ∧
      m'.memory.link 4 = doublyFilled.memory.link 4 := by
  constructor
  · have one : blocksSpanned blockSize = 1 := by decide
    have parent : Layout.tiny.IsTaskRange firstPage blockSize :=
      ⟨by decide, by decide, by decide⟩
    have child : Layout.tiny.IsTaskRange spareBlock blockSize := ⟨by decide, by decide, by decide⟩
    have passes : filled.stopsAt firstPage.dirIndex spareBlock.dirIndex 0 = none := by
      decide +kernel
    have linked : (filled.memory.link (firstPage.dirIndex + 0)).isPresent = true := by
      decide +kernel
    have mapped : (filled.memory.leaf (firstPage.dirIndex + 0, 0)).isPresent = true := by
      decide +kernel
    obtain ⟨_, m', -, -, ends, shares⟩ :=
      Reachable.duplicate_prefix reachable_filled parent child (by decide +kernel)
    rw [one] at ends
    rcases ends with ⟨rfl, run⟩ | ⟨below, _, stops, -⟩
    · obtain ⟨table, free, once, link, -⟩ := shares.table 0 Nat.one_pos linked
      have leaf := shares.child 0 Nat.one_pos 0
      rw [if_pos mapped] at leaf
      exact ⟨m', table, run, free, once, link, leaf⟩
    · obtain rfl := Nat.lt_one_iff.mp below
      rw [passes] at stops
      cases stops
  · have two : blocksSpanned (2 * blockSize) = 2 := by decide
    have parent : Layout.tiny.IsTaskRange vacantParent (2 * blockSize) :=
      ⟨by decide, by decide, by decide⟩
    have child : Layout.tiny.IsTaskRange occupiedChild (2 * blockSize) :=
      ⟨by decide, by decide, by decide⟩
    have passes : doublyFilled.stopsAt vacantParent.dirIndex occupiedChild.dirIndex 0 = none := by
      decide +kernel
    have stops' : doublyFilled.stopsAt vacantParent.dirIndex occupiedChild.dirIndex 1 =
        some (.fatal (.alreadyExists 4)) := by
      decide +kernel
    obtain ⟨_, m', -, before, ends, shares⟩ :=
      Reachable.duplicate_prefix reachable_doublyFilled parent child (by decide +kernel)
    rw [two] at ends
    rcases ends with ⟨rfl, -⟩ | ⟨below, _, stops, run⟩
    · rw [before 1 Nat.one_lt_two] at stops'
      cases stops'
    · rcases Nat.le_one_iff_eq_zero_or_eq_one.mp (Nat.le_of_lt_succ below) with rfl | rfl
      · rw [passes] at stops
        cases stops
      · rw [stops'] at stops
        cases stops
        exact ⟨m', run, shares.link 4 (by decide)⟩

end PagedMemory

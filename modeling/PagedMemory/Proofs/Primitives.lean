import PagedMemory.Proofs.LinearSpace
import PagedMemory.Proofs.Soundness

/-!
What the basic operations do to a manager whose books are balanced: what they read, what the
tables show afterwards, and who holds which frame.
-/

namespace PagedMemory

namespace Manager

variable {layout : Layout} {ε : Type} {m m' : Manager layout} {held : Finset Frame}

open Operation

/-- What the tables say and what tasks find behind them. -/
structure Shows (m : Manager layout) (link : Nat → Entry) (leaf : Nat × Nat → Entry)
    (seen : Nat × Nat → Page) : Prop where
  link : m.memory.link = link
  leaf : m.memory.leaf = leaf
  seen : ∀ place ∈ layout.taskPlaces, m.memory.seen place = seen place

def SameSpace (m m' : Manager layout) : Prop :=
  m'.Shows m.memory.link m.memory.leaf m.memory.seen

theorem SameSpace.of_memory (same : m'.memory = m.memory) : m.SameSpace m' := by
  refine ⟨?_, ?_, ?_⟩
  · rw [same]
  · rw [same]
  · intro place _
    rw [same]

theorem SameSpace.trans {m'' : Manager layout} (first : m.SameSpace m')
    (second : m'.SameSpace m'') : m.SameSpace m'' := by
  refine ⟨second.link.trans first.link, second.leaf.trans first.leaf, ?_⟩
  intro place inside
  rw [second.seen place inside, first.seen place inside]

/-- Links are as they were, save for tables that lie in frames which were free, and no frame is free
that was not. -/
structure Grown (m m' : Manager layout) : Prop where
  link : ∀ block, m'.memory.link block = m.memory.link block ∨
    (m.memory.link block).isPresent = false ∧ ∃ table, layout.IsPooled table ∧
      m.pool.count table = 0 ∧ m'.memory.link block = Entry.new table .userWritable
  free : ∀ frame, m'.pool.count frame = 0 → m.pool.count frame = 0

theorem Grown.of_same (memory : m'.memory = m.memory) (pool : m'.pool = m.pool) : m.Grown m' := by
  refine ⟨fun block => Or.inl ?_, fun frame free => ?_⟩
  · rw [memory]
  · rw [← pool]
    exact free

theorem Grown.of_update {block : Nat}
    (link : m'.memory.link = m.memory.link ∨ (m.memory.link block).isPresent = false ∧
      ∃ table, layout.IsPooled table ∧ m.pool.count table = 0 ∧
        m'.memory.link = Function.update m.memory.link block (Entry.new table .userWritable))
    (free : ∀ frame, m'.pool.count frame = 0 → m.pool.count frame = 0) : m.Grown m' := by
  refine ⟨fun other => ?_, free⟩
  rcases link with same | ⟨absent, table, pooled, unused, link⟩
  · exact Or.inl (congrFun same other)
  · by_cases here : other = block
    · subst here
      refine Or.inr ⟨absent, table, pooled, unused, ?_⟩
      rw [link, Function.update_self]
    · refine Or.inl ?_
      rw [link, Function.update_of_ne here]

theorem Grown.trans {m'' : Manager layout} (first : m.Grown m') (second : m'.Grown m'') :
    m.Grown m'' := by
  refine ⟨?_, fun frame free => first.free frame (second.free frame free)⟩
  intro block
  rcases second.link block with same | ⟨absent, table, pooled, unused, link⟩
  · rw [same]
    exact first.link block
  · rcases first.link block with same | ⟨-, table', -, -, link'⟩
    · rw [same] at absent
      exact Or.inr ⟨absent, table, pooled, first.free table unused, link⟩
    · rw [link', Entry.isPresent_new] at absent
      cases absent

theorem dirEntry_eq (m : Manager layout) (block : Nat) :
    m.dirEntry block = .ok (m.memory.link block) := by
  have inside : (dirSlot block).frame.number < layout.totalFrames := layout.totalFrames_pos
  rw [dirEntry, entryAt_eq, if_pos inside]
  rfl

theorem leafSlot_eq (m : Manager layout) (addr : LinearAddr) :
    m.leafSlot addr = .ok (if (m.memory.link addr.dirIndex).isPresent then
      some ⟨(m.memory.link addr.dirIndex).frame, addr.tableIndex⟩ else none) := by
  rw [leafSlot, dirEntry_eq]
  rfl

theorem entryAt_of_inside (place : Nat × Nat)
    (present : (m.memory.link place.1).isPresent = true)
    (inside : (m.memory.link place.1).frame.number < layout.totalFrames) :
    m.entryAt ⟨(m.memory.link place.1).frame, place.2⟩ = .ok (m.memory.leaf place) := by
  rw [Manager.entryAt_eq, if_pos inside, PhysicalMemory.leaf_of_present place present]

theorem walk_of_inside {addr : LinearAddr}
    (inside : (m.memory.link addr.dirIndex).isPresent = true →
      (m.memory.link addr.dirIndex).frame.number < layout.totalFrames) :
    m.walk addr = .ok (if (m.memory.leaf addr.place).isPresent then
      some (m.memory.leaf addr.place) else none) := by
  rw [walk, leafSlot_eq]
  by_cases linked : (m.memory.link addr.dirIndex).isPresent = true
  · have entry := entryAt_of_inside addr.place linked (inside linked)
    rw [if_pos linked]
    change (do
      let entry ← m.entryAt ⟨(m.memory.link addr.dirIndex).frame, addr.tableIndex⟩
      pure (if entry.isPresent then some entry else none)) = _
    rw [show m.entryAt ⟨(m.memory.link addr.dirIndex).frame, addr.tableIndex⟩ = _ from entry]
    rfl
  · rw [if_neg linked, PhysicalMemory.leaf_of_absent addr.place (Bool.not_eq_true _ ▸ linked)]
    rfl

theorem Sound.entryAt_eq (sound : m.Sound held) (place : Nat × Nat)
    (present : (m.memory.link place.1).isPresent = true) :
    m.entryAt ⟨(m.memory.link place.1).frame, place.2⟩ = .ok (m.memory.leaf place) :=
  entryAt_of_inside place present (sound.link_inside present)

theorem Sound.walk_eq (sound : m.Sound held) (addr : LinearAddr) :
    m.walk addr = .ok (if (m.memory.leaf addr.place).isPresent then
      some (m.memory.leaf addr.place) else none) :=
  walk_of_inside sound.link_inside

theorem Sound.leafEntry_run (sound : m.Sound held) {addr : LinearAddr}
    (linked : (m.memory.link addr.dirIndex).isPresent = true) :
    (ask (·.entryAt ⟨(m.memory.link addr.dirIndex).frame, addr.tableIndex⟩) :
      Operation layout FatalError Entry) m = .ok (m.memory.leaf addr.place) m :=
  ask_ok (sound.entryAt_eq addr.place linked)

theorem Sound.leavesTo_of_once (sound : m.Sound held) {addr : LinearAddr}
    (task : layout.kernelTables ≤ addr.dirIndex) {frame : Frame}
    (points : (m.memory.leaf addr.place).PointsAt frame) (once : m.pool.count frame = 1) :
    leavesTo layout m.memory.leaf frame = {addr.place} := by
  have inside := Layout.place_mem_taskPlaces task
  obtain ⟨mapped, rfl⟩ := points
  rw [Finset.eq_singleton_iff_unique_mem]
  refine ⟨mem_leavesTo.mpr ⟨inside, mapped, rfl⟩, ?_⟩
  intro place member
  obtain ⟨inside', mapped', same⟩ := mem_leavesTo.mp member
  by_contra apart
  have twice := sound.balanced.two_le_count inside mapped inside' mapped' same apart
  omega

theorem setEntry_leaf (m : Manager layout) (place : Nat × Nat) (entry : Entry)
    (inside : (m.memory.link place.1).frame.number < layout.totalFrames) :
    setEntry ⟨(m.memory.link place.1).frame, place.2⟩ entry m =
      .ok () { m with memory := m.memory.setLeaf place entry, tlbStale := true } := by
  rw [setEntry_eq]
  exact if_pos inside

theorem setEntry_link (m : Manager layout) (block : Nat) (entry : Entry) :
    setEntry (dirSlot block) entry m =
      .ok () { m with memory := m.memory.setLink block entry, tlbStale := true } := by
  rw [setEntry_eq]
  exact if_pos layout.totalFrames_pos

structure Allocated (m m' : Manager layout) (held : Finset Frame) (frame : Frame) : Prop where
  sound : m'.Sound (insert frame held)
  shows : m.SameSpace m'
  free : m.pool.count frame = 0
  count : m'.pool.count = Function.update m.pool.count frame 1
  fresh : frame ∉ held
  blank : m'.memory.page frame = Page.zero
  pages : ∀ other, other ≠ frame → m'.memory.page other = m.memory.page other

theorem Allocated.of_same {m'' : Manager layout} {frame : Frame}
    (allocated : Allocated m m' held frame) (memory : m''.memory = m'.memory)
    (pool : m''.pool = m'.pool) : Allocated m m'' held frame := by
  refine ⟨allocated.sound.of_same memory pool, allocated.shows.trans (SameSpace.of_memory memory),
    allocated.free, ?_, allocated.fresh, ?_, ?_⟩
  · rw [pool]
    exact allocated.count
  · rw [memory]
    exact allocated.blank
  · rw [memory]
    exact allocated.pages

theorem Sound.allocateFrame_cases (sound : m.Sound held) (ε : Type) :
    (m.pool.highestFree = none ∧
      (allocateFrame : Operation layout ε (Option Frame)) m = .ok none m) ∨
    ∃ frame m', (allocateFrame : Operation layout ε (Option Frame)) m = .ok (some frame) m' ∧
      Allocated m m' held frame := by
  have outcome := @allocateFrame_eq layout ε m
  cases found : m.pool.highestFree with
  | none =>
      rw [found] at outcome
      exact Or.inl ⟨rfl, outcome⟩
  | some i =>
      rw [found] at outcome
      refine Or.inr ⟨FramePool.frameAt i, _, outcome, ?_⟩
      have free := FramePool.count_of_highestFree_eq_some found
      have task : layout.IsTaskFrame (FramePool.frameAt i) := by
        rcases (FramePool.pooled_frameAt i).cached_or_task with cached | task
        · have buffer := sound.balanced.cached _ cached
          rw [free] at buffer
          exact absurd buffer (by decide)
        · exact task
      have unused := sound.balanced.unused_of_count_eq_zero task free
      have unlinked : ∀ block ∈ layout.taskBlocks, (m.memory.link block).isPresent = true →
          (m.memory.link block).frame ≠ FramePool.frameAt i :=
        fun block member present same => unused.1 block member ⟨present, same⟩
      have count : ({ m.pool with
          counts := m.pool.counts.set i 1 i.isLt
          allocations := m.pool.allocations + 1 } : FramePool layout).count =
            Function.update m.pool.count (FramePool.frameAt i) 1 := FramePool.count_of_set rfl
      have only := m.memory.onlyPage_putPage (FramePool.frameAt i) none
      refine ⟨?_, ⟨?_, ?_, ?_⟩, free, count, unused.2.2, ?_, only⟩
      · have books := sound.balanced.allocate task free
        rw [← count] at books
        exact sound.onlyPage only task unlinked books
      · exact only.link task.ne_directory
      · exact sound.leaf_onlyPage only task unlinked
      · intro place inside
        exact (sound.seen_onlyPage only task unlinked place).trans
          (if_neg (unused.2.1 place inside))
      · exact PhysicalMemory.page_putPage_self task.2 none

theorem next_of_allocateFrame {frame : Frame}
    (run : (allocateFrame : Operation layout ε (Option Frame)) m = .ok (some frame) m') :
    m.pool.highestFree.map FramePool.frameAt = some frame ∧
      m'.pool.allocations = m.pool.allocations + 1 := by
  rw [allocateFrame_eq] at run
  split at run
  · cases run
  · rename_i found
    cases run
    exact ⟨by rw [found]; rfl, rfl⟩

theorem Allocated.free_of_free {frame other : Frame} (allocated : Allocated m m' held frame)
    (free : m'.pool.count other = 0) : m.pool.count other = 0 := by
  by_cases same : other = frame
  · rw [same]
    exact allocated.free
  · rw [allocated.count, Function.update_of_ne same] at free
    exact free

theorem Allocated.grown {frame : Frame} (allocated : Allocated m m' held frame) : m.Grown m' :=
  ⟨fun block => Or.inl (congrFun allocated.shows.link block), fun _ => allocated.free_of_free⟩

theorem Sound.exists_freeFrame (sound : m.Sound held) {frame : Frame} (holds : frame ∈ held) :
    ∃ m', freeFrame frame m = .ok () m' ∧ m'.memory = m.memory ∧ m'.Sound (held.erase frame) ∧
      m'.pool.count = Function.update m.pool.count frame 0 := by
  obtain ⟨task, once⟩ := sound.balanced.owned frame holds
  obtain ⟨pool, run, count⟩ := m.pool.exists_free task.pooled (by omega)
  rw [once] at count
  refine ⟨{ m with pool := pool }, onPool_ok run, rfl, ⟨?_, sound.kernel⟩, count⟩
  have books := sound.balanced.free holds
  rw [← count] at books
  exact books

structure Linked (m m' : Manager layout) (held : Finset Frame) (block : Nat) : Prop where
  sound : m'.Sound held
  present : (m'.memory.link block).isPresent = true
  link : m'.memory.link = m.memory.link ∨ (m.memory.link block).isPresent = false ∧
    ∃ table, layout.IsPooled table ∧ m.pool.count table = 0 ∧
      m'.memory.link = Function.update m.memory.link block (Entry.new table .userWritable)
  free : ∀ frame, m'.pool.count frame = 0 → m.pool.count frame = 0
  leaf : m'.memory.leaf = m.memory.leaf
  seen : ∀ place ∈ layout.taskPlaces, m'.memory.seen place = m.memory.seen place
  pages : ∀ frame ∈ held, m'.memory.page frame = m.memory.page frame

/-- The block had a table, or has been given one in a frame that was free. -/
inductive TableGiven (layout : Layout) (link link' : Nat → Entry) (count count' : Frame → Nat)
    (block : Nat) : Prop
  | kept (present : (link block).isPresent = true) (links : link' = link)
      (counts : count' = count) : TableGiven layout link link' count count' block
  | made {table : Frame} (absent : (link block).isPresent = false)
      (task : layout.IsTaskFrame table) (free : count table = 0)
      (links : link' = Function.update link block (Entry.new table .userWritable))
      (counts : count' = Function.update count table 1) :
      TableGiven layout link link' count count' block

theorem Allocated.exists_link {m₁ : Manager layout} {table : Frame}
    (allocated : Allocated m m₁ held table) {block : Nat} (member : block ∈ layout.taskBlocks)
    (absent : (m.memory.link block).isPresent = false) :
    ∃ m', setEntry (dirSlot block) (Entry.new table .userWritable) m₁ = .ok () m' ∧
      m'.Sound held ∧ m'.Shows
        (Function.update m.memory.link block (Entry.new table .userWritable)) m.memory.leaf
        m.memory.seen ∧ m'.pool = m₁.pool ∧
      ∀ frame ∈ held, m'.memory.page frame = m.memory.page frame := by
  have sound := allocated.sound
  have task := (sound.balanced.owned table (Finset.mem_insert_self _ _)).1
  have leads : (Entry.new table .userWritable).frame = table :=
    Entry.frame_new_of_lt task.2 _
  have absent' : (m₁.memory.link block).isPresent = false := by
    rw [allocated.shows.link]
    exact absent
  have leaves := sound.leaf_setLink_of_blank member (Entry.new table .userWritable) absent'
    (leads.symm ▸ allocated.blank) (leads.symm ▸ task)
  have books := sound.balanced.setLink member absent'
    (Entry.isPresent_new table .userWritable) (leads.symm ▸ Finset.mem_insert_self _ _)
  rw [leads, Finset.erase_insert allocated.fresh] at books
  refine ⟨_, setEntry_link m₁ block _, sound.setLink member _ leaves books, ⟨?_, ?_, ?_⟩, rfl, ?_⟩
  · rw [← allocated.shows.link]
    exact m₁.memory.link_setLink_of_task member _
  · rw [← allocated.shows.leaf]
    exact leaves
  · intro place inside
    rw [← allocated.shows.seen place inside]
    exact sound.seen_setLink leaves inside
  · intro frame holds
    have apart : frame ≠ table := by
      rintro rfl
      exact allocated.fresh holds
    have outside := (sound.balanced.owned frame (Finset.mem_insert_of_mem holds)).1.ne_directory
    rw [← allocated.pages frame apart]
    exact PhysicalMemory.page_modifyPage_of_ne outside.symm _

theorem dirEntry_run (block : Nat) (m : Manager layout) :
    (orFatal (ask (·.dirEntry block)) : Operation layout MemoryError Entry) m =
      .ok (m.memory.link block) m := orFatal_ok (ask_ok (dirEntry_eq m block))

theorem tableFor_of_present {block : Nat} (present : (m.memory.link block).isPresent = true) :
    tableFor block m = .ok (m.memory.link block).frame m := by
  rw [tableFor, bind_ok (dirEntry_run block m), if_pos present]
  rfl

theorem Sound.tableFor_cases (sound : m.Sound held) {block : Nat}
    (member : block ∈ layout.taskBlocks) :
    ((m.memory.link block).isPresent = false ∧ m.pool.highestFree = none ∧
      tableFor block m = .error .outOfMemory m) ∨
    ∃ m', tableFor block m = .ok (m'.memory.link block).frame m' ∧ Linked m m' held block ∧
      TableGiven layout m.memory.link m'.memory.link m.pool.count m'.pool.count block := by
  by_cases present : (m.memory.link block).isPresent = true
  · exact Or.inr ⟨m, tableFor_of_present present, ⟨sound, present, Or.inl rfl, fun _ => id, rfl,
      fun _ _ => rfl, fun _ _ => rfl⟩, .kept present rfl rfl⟩
  · have absent : (m.memory.link block).isPresent = false := Bool.not_eq_true _ ▸ present
    rcases sound.allocateFrame_cases MemoryError with ⟨full, run⟩ | ⟨table, m₁, run, allocated⟩
    · refine Or.inl ⟨absent, full, ?_⟩
      rw [tableFor, bind_ok (dirEntry_run block m), if_neg present, bind_ok run]
      rfl
    · obtain ⟨m₂, write, sound₂, shows, pool, pages⟩ := allocated.exists_link member absent
      have task := (allocated.sound.balanced.owned table (Finset.mem_insert_self _ _)).1
      have linked : m₂.memory.link block = Entry.new table .userWritable := by
        rw [shows.link, Function.update_self]
      refine Or.inr ⟨m₂, ?_, ⟨sound₂, ?_,
        Or.inr ⟨absent, table, task.pooled, allocated.free, shows.link⟩, ?_, shows.leaf, shows.seen,
        pages⟩, .made absent task allocated.free shows.link ?_⟩
      · have write' : (orFatal (setEntry (dirSlot block) (Entry.new table .userWritable)) :
            Operation layout MemoryError Unit) m₁ = .ok () m₂ := orFatal_ok write
        rw [tableFor, bind_ok (dirEntry_run block m), if_neg present, bind_ok run]
        change (orFatal (setEntry (dirSlot block) (Entry.new table .userWritable)) >>=
          fun _ => pure table) m₁ = _
        rw [bind_ok write', linked,
          Entry.frame_new_of_lt task.2 _]
        rfl
      · rw [linked]
        exact Entry.isPresent_new _ _
      · rw [pool]
        exact fun _ => allocated.free_of_free
      · rw [pool]
        exact allocated.count

end Manager

end PagedMemory

import PagedMemory.Fault.Handling
import PagedMemory.Proofs.Mapping
import PagedMemory.Proofs.Release

/-!
Resolving faults. Whatever a fault does, tasks find the same bytes afterwards; unless it kills the
task, the page that it was taken on can be written, and no other leaf has changed.
-/

namespace PagedMemory

theorem lt_coverCount {size i : Nat} : i < coverCount size pageSize ↔ pageSize * i < size := by
  rw [coverCount]
  by_cases whole : size % pageSize = 0
  · rw [if_pos whole]
    simp only [pageSize] at *
    omega
  · rw [if_neg whole]
    simp only [pageSize] at *
    omega

namespace Manager

variable {layout : Layout} {m m' : Manager layout} {held : Finset Frame}

open Operation

/-- The page at `place` can be written, and tasks find what they found before. -/
structure Opened (m m' : Manager layout) (held : Finset Frame) (place : Nat × Nat) : Prop where
  sound : m'.Sound held
  present : (m'.memory.leaf place).isPresent = true
  writable : (m'.memory.leaf place).isWritable = true
  leaf : ∀ other, other ≠ place → m'.memory.leaf other = m.memory.leaf other
  seen : ∀ other ∈ layout.taskPlaces, m'.memory.seen other = m.memory.seen other
  grown : m.Grown m'

theorem giveUp_run {ε : Type} (addr : LinearAddr) (m : Manager layout) :
    ∃ m', (giveUp addr : Operation layout ε Resolution) m = .ok .killed m' ∧
      m'.memory = m.memory ∧ m'.pool = m.pool :=
  ⟨_, rfl, rfl, rfl⟩

structure Restored (m m' : Manager layout) (held : Finset Frame) (place : Nat × Nat) : Prop where
  opened : Opened m m' held place
  once : m.pool.count (m.memory.leaf place).frame = 1
  pool : m'.pool = m.pool
  link : m'.memory.link = m.memory.link
  leaf : m'.memory.leaf =
    Function.update m.memory.leaf place (m.memory.leaf place).madeWritable

/-- The leaf no longer shares its frame: it leads to `copy`, the next frame that was free. -/
structure Separated (m m' : Manager layout) (held : Finset Frame) (place : Nat × Nat)
    (copy : Frame) : Prop where
  opened : Opened m m' held place
  shared : m.pool.count (m.memory.leaf place).frame ≠ 1
  next : m.pool.highestFree.map FramePool.frameAt = some copy
  task : layout.IsTaskFrame copy
  free : m.pool.count copy = 0
  link : m'.memory.link = m.memory.link
  leaf : m'.memory.leaf = Function.update m.memory.leaf place (Entry.new copy .userWritable)
  count : m'.pool.count = Function.update (Function.update m.pool.count copy 1)
    (m.memory.leaf place).frame (m.pool.count (m.memory.leaf place).frame - 1)
  allocations : m'.pool.allocations = m.pool.allocations + 1

/-- What it takes to write to a page, and what has changed when it can be written. -/
inductive Exclusive (m m' : Manager layout) (held : Finset Frame) (place : Nat × Nat) :
    Resolution → Prop
  | restored (ends : Restored m m' held place) : Exclusive m m' held place .restored
  | copied {copy : Frame} (ends : Separated m m' held place copy) :
      Exclusive m m' held place (.copied copy)
  | killed (shared : m.pool.count (m.memory.leaf place).frame ≠ 1)
      (full : m.pool.highestFree = none) (memory : m'.memory = m.memory)
      (pool : m'.pool = m.pool) : Exclusive m m' held place .killed

theorem TablesSound.replaceLeaf {memory : PhysicalMemory layout.totalFrames}
    {count : Frame → Nat} (sound : TablesSound memory count held) {place : Nat × Nat}
    (inside : place ∈ layout.taskPlaces) (linked : (memory.link place.1).isPresent = true)
    (mapped : (memory.leaf place).isPresent = true) {copy : Frame} (holds : copy ∈ held)
    (same : memory.page copy = memory.page (memory.leaf place).frame) :
    TablesSound (memory.setLeaf place (Entry.new copy .userWritable))
        (Function.update count (memory.leaf place).frame
          (count (memory.leaf place).frame - 1)) (held.erase copy) ∧
      ∀ other ∈ layout.taskPlaces,
        (memory.setLeaf place (Entry.new copy .userWritable)).seen other = memory.seen other := by
  have task := (sound.balanced.owned copy holds).1
  have leads : (Entry.new copy .userWritable).frame = copy :=
    Entry.frame_new_of_lt task.2 _
  have present : (Entry.new copy .userWritable).isPresent = true := Entry.isPresent_new _ _
  have apart : (Entry.new copy .userWritable).frame ≠ (memory.link place.1).frame := by
    rw [leads]
    exact sound.balanced.held_ne_link (Layout.mem_taskPlaces.mp inside).1 linked holds
  have dropped := sound.balanced.dropLeaf inside mapped
  have vacant : (Function.update memory.leaf place .empty place).isPresent = false := by
    rw [Function.update_self]
    exact Entry.isPresent_empty
  have books := dropped.setLeaf inside vacant present (leads.symm ▸ holds)
  rw [Function.update_idem, leads] at books
  refine ⟨sound.setLeaf inside linked _ books, ?_⟩
  intro other member
  rw [sound.seen_setLeaf inside linked _ (fun _ => apart) member, if_pos present, leads, same,
    ← PhysicalMemory.seen_of_present place mapped, Function.update_eq_self]

section Exclusive

variable {addr : LinearAddr}

theorem TablesSound.writeHeld {memory memory' : PhysicalMemory layout.totalFrames}
    {count : Frame → Nat} (sound : TablesSound memory count held) {copy : Frame}
    (holds : copy ∈ held) (only : memory.OnlyPage memory' copy) :
    TablesSound memory' count held ∧ memory'.link = memory.link ∧ memory'.leaf = memory.leaf ∧
      ∀ other ∈ layout.taskPlaces, memory'.seen other = memory.seen other := by
  have task := (sound.balanced.owned copy holds).1
  have unlinked : ∀ block ∈ layout.taskBlocks, (memory.link block).isPresent = true →
      (memory.link block).frame ≠ copy :=
    fun block member present => (sound.balanced.held_ne_link member present holds).symm
  refine ⟨sound.onlyPage only task unlinked sound.balanced, only.link task.ne_directory,
    sound.leaf_onlyPage only task unlinked, ?_⟩
  intro other member
  rw [sound.seen_onlyPage only task unlinked other, if_neg]
  exact fun points => sound.balanced.held_ne_leaf member points.1 holds points.2.symm

section Replace

variable {m₁ : Manager layout} {copy : Frame} (allocated : Allocated m m₁ held copy)
  {place : Nat × Nat}

include allocated

theorem Allocated.exists_copyFrame (sound : m.Sound held) (inside : place ∈ layout.taskPlaces)
    (mapped : (m.memory.leaf place).isPresent = true) :
    ∃ memory : PhysicalMemory layout.totalFrames,
      (onMemory (PhysicalMemory.copyFrame (m.memory.leaf place).frame copy) :
        Operation layout FatalError Unit) m₁ = .ok () { m₁ with memory := memory } ∧
      TablesSound memory m₁.pool.count (insert copy held) ∧ memory.link = m.memory.link ∧
      memory.leaf = m.memory.leaf ∧
      (∀ other ∈ layout.taskPlaces, memory.seen other = m.memory.seen other) ∧
      memory.page copy = memory.page (m.memory.leaf place).frame := by
  have holds := Finset.mem_insert_self copy held
  have task := sound.balanced.mapped place inside mapped
  have task' := (allocated.sound.balanced.owned copy holds).1
  have apart : (m.memory.leaf place).frame ≠ copy := by
    rw [← allocated.shows.leaf] at mapped ⊢
    exact (allocated.sound.balanced.held_ne_leaf inside mapped holds).symm
  have only := m₁.memory.onlyPage_putPage copy (m₁.memory.page? (m.memory.leaf place).frame)
  obtain ⟨sound₂, link₂, leaf₂, seen₂⟩ := TablesSound.writeHeld allocated.sound holds only
  refine ⟨m₁.memory.putPage copy (m₁.memory.page? (m.memory.leaf place).frame), ?_, sound₂,
    link₂.trans allocated.shows.link, leaf₂.trans allocated.shows.leaf, ?_, ?_⟩
  · exact onMemory_ok (m₁.memory.copyFrame_eq task.2 task'.2)
  · intro other member
    rw [seen₂ other member, allocated.shows.seen other member]
  · rw [PhysicalMemory.page_putPage_self task'.2, only _ apart]
    rfl

theorem Allocated.free_of_dropped {pool : FramePool layout} {frame other : Frame}
    (apart : frame ≠ copy) (shared : m.pool.count frame ≠ 1) (counted : 1 ≤ m₁.pool.count frame)
    (count : pool.count = Function.update m₁.pool.count frame (m₁.pool.count frame - 1))
    (free : pool.count other = 0) : m.pool.count other = 0 := by
  apply allocated.free_of_free
  by_cases same : other = frame
  · rw [allocated.count, Function.update_of_ne apart] at counted
    rw [count, same, Function.update_self, allocated.count, Function.update_of_ne apart] at free
    omega
  · rw [count, Function.update_of_ne same] at free
    exact free

theorem Allocated.exists_replace (sound : m.Sound held) (inside : place ∈ layout.taskPlaces)
    (mapped : (m.memory.leaf place).isPresent = true)
    (shared : m.pool.count (m.memory.leaf place).frame ≠ 1)
    (taken : (allocateFrame : Operation layout FatalError (Option Frame)) m = .ok (some copy) m₁) :
    ∃ m', Separated m m' held place copy ∧
      ∀ next : Unit → Operation layout FatalError Resolution, (do
        onMemory (PhysicalMemory.copyFrame (m.memory.leaf place).frame copy)
        freeFrame (m.memory.leaf place).frame
        setEntry ⟨(m.memory.link place.1).frame, place.2⟩ (Entry.new copy .userWritable) >>=
          next) m₁ = next () m' := by
  have holds := Finset.mem_insert_self copy held
  have task := sound.balanced.mapped place inside mapped
  obtain ⟨memory, copied, sound₂, link₂, leaf₂, seen₂, same⟩ :=
    allocated.exists_copyFrame sound inside mapped
  have apart : (m.memory.leaf place).frame ≠ copy := by
    rw [← leaf₂] at mapped ⊢
    exact (sound₂.balanced.held_ne_leaf inside mapped holds).symm
  have counted : 1 ≤ m₁.pool.count (m.memory.leaf place).frame := by
    rw [← leaf₂] at mapped ⊢
    exact sound₂.balanced.count_pos_of_leaf inside mapped
  obtain ⟨pool, run, count⟩ := m₁.pool.exists_free task.pooled (by omega)
  have drop : freeFrame (m.memory.leaf place).frame { m₁ with memory := memory } =
      .ok () { m₁ with pool := pool, memory := memory } := onPool_ok run
  have linked₂ : (memory.link place.1).isPresent = true := by
    rw [link₂]
    exact PhysicalMemory.link_present_of_leaf mapped
  have write := setEntry_leaf { m₁ with pool := pool, memory := memory } place
    (Entry.new copy .userWritable) (sound₂.link_inside linked₂)
  rw [link₂] at write
  rw [← leaf₂] at mapped same
  obtain ⟨sound₃, seen₃⟩ := TablesSound.replaceLeaf sound₂ inside linked₂ mapped holds same
  rw [leaf₂, ← count, Finset.erase_insert allocated.fresh] at sound₃
  have leaf₃ := sound₂.leaf_setLeaf inside linked₂ (Entry.new copy .userWritable)
  rw [leaf₂] at leaf₃
  have link₃ := (sound₂.link_setLeaf place linked₂ (Entry.new copy .userWritable)).trans link₂
  obtain ⟨next, allocations⟩ := next_of_allocateFrame taken
  refine ⟨{ m₁ with
    pool := pool
    memory := memory.setLeaf place (Entry.new copy .userWritable)
    tlbStale := true }, ⟨⟨sound₃, ?_, ?_, ?_, ?_, ?_, ?_⟩, shared, next, ?_, allocated.free, link₃,
      leaf₃, ?_, ?_⟩, ?_⟩
  · rw [leaf₃, Function.update_self]
    exact Entry.isPresent_new _ _
  · rw [leaf₃, Function.update_self]
    exact Entry.isWritable_new _ _
  · intro other differ
    rw [leaf₃, Function.update_of_ne differ]
  · intro other member
    rw [seen₃ other member, seen₂ other member]
  · exact fun block => Or.inl (congrFun link₃ block)
  · exact fun other => allocated.free_of_dropped apart shared counted count
  · exact (allocated.sound.balanced.owned copy holds).1
  · rw [count, allocated.count, Function.update_of_ne apart]
  · exact (FramePool.allocations_of_free run).trans allocations
  · intro next
    rw [bind_ok copied, bind_ok drop, bind_ok write]

end Replace

theorem Sound.exists_restore (sound : m.Sound held) (inside : addr.place ∈ layout.taskPlaces)
    (mapped : (m.memory.leaf addr.place).isPresent = true)
    (once : m.pool.count (m.memory.leaf addr.place).frame = 1) :
    ∃ m', makeExclusive ⟨(m.memory.link addr.dirIndex).frame, addr.tableIndex⟩ addr m =
        .ok .restored m' ∧ Restored m m' held addr.place := by
  have linked := PhysicalMemory.link_present_of_leaf mapped
  have task := sound.balanced.mapped addr.place inside mapped
  have read := sound.leafEntry_run linked
  have counted : m.pool.count? (m.memory.leaf addr.place).frame = some 1 := by
    rw [m.pool.count?_eq task.pooled, once]
  obtain ⟨sound', seen⟩ := TablesSound.setFlags sound inside linked
    (m.memory.leaf addr.place).madeWritable mapped
    ((Entry.isPresent_madeWritable _).trans mapped) (Entry.frame_madeWritable _)
    (fun _ => (congrArg m.pool.count (Entry.frame_madeWritable _)).trans once)
  have leaves := TablesSound.leaf_setLeaf sound inside linked
    (m.memory.leaf addr.place).madeWritable
  have links := TablesSound.link_setLeaf sound addr.place linked
    (m.memory.leaf addr.place).madeWritable
  have write : setEntry ⟨(m.memory.link addr.dirIndex).frame, addr.tableIndex⟩
      (m.memory.leaf addr.place).madeWritable m = .ok () { m with
        memory := m.memory.setLeaf addr.place (m.memory.leaf addr.place).madeWritable
        tlbStale := true } :=
    setEntry_leaf m addr.place _ (sound.link_inside linked)
  have alone : (!layout.isReserved (m.memory.leaf addr.place).frame &&
      m.pool.count? (m.memory.leaf addr.place).frame == some 1) = true := by
    rw [task.not_reserved, counted]
    rfl
  refine ⟨{ m with
    memory := m.memory.setLeaf addr.place (m.memory.leaf addr.place).madeWritable
    tlbFlushes := m.tlbFlushes + 1
    tlbStale := false
    faults := { m.faults with restored := m.faults.restored + 1 } }, ?_,
    ⟨sound', ?_, ?_, ?_, seen, fun block => Or.inl (congrFun links block), fun _ => id⟩, once, rfl,
    links, leaves⟩
  · rw [makeExclusive, bind_ok read, bind_ok (get_run m), if_pos alone, bind_ok write]
    rfl
  · rw [leaves, Function.update_self]
    exact (Entry.isPresent_madeWritable _).trans mapped
  · rw [leaves, Function.update_self]
    exact Entry.isWritable_madeWritable _
  · intro other differ
    rw [leaves, Function.update_of_ne differ]

theorem Sound.exists_makeExclusive (sound : m.Sound held)
    (inside : addr.place ∈ layout.taskPlaces)
    (mapped : (m.memory.leaf addr.place).isPresent = true) :
    ∃ resolution m', makeExclusive ⟨(m.memory.link addr.dirIndex).frame, addr.tableIndex⟩ addr m =
      .ok resolution m' ∧ Exclusive m m' held addr.place resolution := by
  by_cases once : m.pool.count (m.memory.leaf addr.place).frame = 1
  · obtain ⟨m', run, restored⟩ := sound.exists_restore inside mapped once
    exact ⟨.restored, m', run, .restored restored⟩
  · have task := sound.balanced.mapped addr.place inside mapped
    have read : (ask (·.entryAt ⟨(m.memory.link addr.dirIndex).frame, addr.tableIndex⟩) :
        Operation layout FatalError Entry) m = .ok (m.memory.leaf addr.place) m :=
      ask_ok (sound.entryAt_eq addr.place (PhysicalMemory.link_present_of_leaf mapped))
    have shared : ¬ (!layout.isReserved (m.memory.leaf addr.place).frame &&
        m.pool.count? (m.memory.leaf addr.place).frame == some 1) = true := by
      rw [task.not_reserved, m.pool.count?_eq task.pooled]
      simpa using once
    rcases sound.allocateFrame_cases FatalError with ⟨full, run⟩ | ⟨copy, m₁, run, allocated⟩
    · obtain ⟨m₂, killed, memory, pool⟩ := giveUp_run (ε := FatalError) addr m
      refine ⟨.killed, m₂, ?_, .killed once full memory pool⟩
      rw [makeExclusive, bind_ok read, bind_ok (get_run m), if_neg shared, bind_ok run]
      exact killed
    · obtain ⟨m₂, separated, replace⟩ := allocated.exists_replace sound inside mapped once run
      refine ⟨.copied copy, { m₂.flushed with
        faults := { m₂.faults with copied := m₂.faults.copied + 1 } }, ?_,
        .copied { separated with opened := { separated.opened with
          grown := { separated.opened.grown with } } }⟩
      rw [makeExclusive, bind_ok read, bind_ok (get_run m), if_neg shared, bind_ok run]
      simp only [task.not_reserved, Bool.not_false, if_true]
      exact replace _

theorem Exclusive.opened {place : Nat × Nat} {resolution : Resolution}
    (ends : Exclusive m m' held place resolution) (alive : resolution ≠ .killed) :
    Opened m m' held place := by
  cases ends with
  | restored ends => exact ends.opened
  | copied ends => exact ends.opened
  | killed => exact absurd rfl alive

end Exclusive

section Fault

variable {addr : LinearAddr}

theorem leafSlot_of_linked (linked : (m.memory.link addr.dirIndex).isPresent = true) :
    (ask (·.leafSlot addr) : Operation layout FatalError (Option Slot)) m =
      .ok (some ⟨(m.memory.link addr.dirIndex).frame, addr.tableIndex⟩) m := by
  rw [ask_ok (leafSlot_eq m addr), if_pos linked]

theorem leafSlot_of_unlinked (absent : ¬ (m.memory.link addr.dirIndex).isPresent = true) :
    (ask (·.leafSlot addr) : Operation layout FatalError (Option Slot)) m = .ok none m := by
  rw [ask_ok (leafSlot_eq m addr), if_neg absent]

def startedWriteProtect (m : Manager layout) : Manager layout :=
  { m with
    faults := { m.faults with
      total := m.faults.total + 1, writeProtect := m.faults.writeProtect + 1 } }

theorem Sound.resolveWriteProtect_of_present (sound : m.Sound held)
    (mapped : (m.memory.leaf addr.place).isPresent = true) :
    resolveWriteProtect addr m =
      makeExclusive ⟨(m.memory.link addr.dirIndex).frame, addr.tableIndex⟩ addr
        m.startedWriteProtect := by
  have sound' : m.startedWriteProtect.Sound held := sound
  have begun : (Operation.count fun faults =>
      { faults with total := faults.total + 1, writeProtect := faults.writeProtect + 1 } :
      Operation layout FatalError Unit) m = .ok () m.startedWriteProtect := rfl
  have linked : (m.startedWriteProtect.memory.link addr.dirIndex).isPresent = true :=
    PhysicalMemory.link_present_of_leaf mapped
  have mapped' : (m.startedWriteProtect.memory.leaf addr.place).isPresent = true := mapped
  rw [resolveWriteProtect, bind_ok begun, bind_ok (leafSlot_of_linked linked)]
  simp only []
  rw [bind_ok (sound'.leafEntry_run linked), if_pos mapped']
  rfl

theorem Exclusive.of_started {place : Nat × Nat} {resolution : Resolution}
    (ends : Exclusive m.startedWriteProtect m' held place resolution) :
    Exclusive m m' held place resolution := by
  cases ends with
  | restored ends =>
      exact .restored { ends with opened := { ends.opened with
        grown := { ends.opened.grown with } } }
  | copied ends =>
      exact .copied { ends with opened := { ends.opened with
        grown := { ends.opened.grown with } } }
  | killed shared full memory pool => exact .killed shared full memory pool

theorem Sound.exists_resolveWriteProtect (sound : m.Sound held)
    (task : layout.kernelTables ≤ addr.dirIndex)
    (mapped : (m.memory.leaf addr.place).isPresent = true) :
    ∃ resolution m', resolveWriteProtect addr m = .ok resolution m' ∧
      Exclusive m m' held addr.place resolution := by
  have sound' : m.startedWriteProtect.Sound held := sound
  obtain ⟨resolution, m', run, ends⟩ :=
    sound'.exists_makeExclusive (Layout.place_mem_taskPlaces task) mapped
  exact ⟨resolution, m', (sound.resolveWriteProtect_of_present mapped).trans run, ends.of_started⟩

theorem Sound.resolveWriteProtect_cases (sound : m.Sound held)
    (task : layout.kernelTables ≤ addr.dirIndex) :
    ((m.memory.leaf addr.place).isPresent = false ∧
      ∃ m', resolveWriteProtect addr m = .error (.notMapped addr) m' ∧
        m'.memory = m.memory ∧ m'.pool = m.pool) ∨
    (m.memory.leaf addr.place).isPresent = true ∧
      ((∃ m', resolveWriteProtect addr m = .ok .killed m' ∧
        m'.memory = m.memory ∧ m'.pool = m.pool) ∨
      ∃ resolution m', resolution ≠ .killed ∧ resolveWriteProtect addr m = .ok resolution m' ∧
        Opened m m' held addr.place) := by
  have sound' : m.startedWriteProtect.Sound held := sound
  by_cases mapped : (m.memory.leaf addr.place).isPresent = true
  · obtain ⟨resolution, m', run, ends⟩ := sound.exists_resolveWriteProtect task mapped
    refine Or.inr ⟨mapped, ?_⟩
    cases ends with
    | restored ends => exact Or.inr ⟨.restored, m', nofun, run, ends.opened⟩
    | copied ends => exact Or.inr ⟨.copied _, m', nofun, run, ends.opened⟩
    | killed _ _ memory pool => exact Or.inl ⟨m', run, memory, pool⟩
  · have absent : (m.memory.leaf addr.place).isPresent = false := Bool.not_eq_true _ ▸ mapped
    have begun : (Operation.count fun faults =>
        { faults with total := faults.total + 1, writeProtect := faults.writeProtect + 1 } :
        Operation layout FatalError Unit) m = .ok () m.startedWriteProtect := rfl
    refine Or.inl ⟨absent, m.startedWriteProtect, ?_, rfl, rfl⟩
    rw [resolveWriteProtect, bind_ok begun]
    by_cases linked : (m.startedWriteProtect.memory.link addr.dirIndex).isPresent = true
    · have mapped' : ¬ (m.startedWriteProtect.memory.leaf addr.place).isPresent = true := mapped
      rw [bind_ok (leafSlot_of_linked linked)]
      simp only []
      rw [bind_ok (sound'.leafEntry_run linked), if_neg mapped']
      rfl
    · rw [bind_ok (leafSlot_of_unlinked linked)]
      rfl

theorem Allocated.opened {m₁ m₂ : Manager layout} {frame : Frame} {place : Nat × Nat}
    (allocated : Allocated m m₁ held frame)
    (mapped : Mapped m₁ m₂ (insert frame held) place frame true) : Opened m m₂ held place := by
  have leaf : m₂.memory.leaf place = Entry.new frame ⟨true, true, true⟩ := by
    rw [mapped.leaf, Function.update_self]
  have absent := mapped.absent
  rw [allocated.shows.leaf] at absent
  refine ⟨?_, ?_, ?_, ?_, ?_, allocated.grown.trans mapped.grown⟩
  · rw [← Finset.erase_insert allocated.fresh]
    exact mapped.sound
  · rw [leaf]
    exact Entry.isPresent_new _ _
  · rw [leaf]
    exact Entry.isWritable_new _ _
  · intro other differ
    rw [mapped.leaf, Function.update_of_ne differ, allocated.shows.leaf]
  · intro other member
    rw [mapped.seen other member, allocated.blank]
    by_cases same : other = place
    · rw [same, Function.update_self, PhysicalMemory.seen_of_absent place absent]
    · rw [Function.update_of_ne same, allocated.shows.seen other member]

def startedNoPage (m : Manager layout) : Manager layout :=
  { m with
    faults := { m.faults with total := m.faults.total + 1, noPage := m.faults.noPage + 1 } }

/-- How many frames a page of the block takes that is filled in. -/
def framesNeeded (m : Manager layout) (block : Nat) : Nat :=
  if (m.memory.link block).isPresent then 1 else 2

theorem framesNeeded_pos (m : Manager layout) (block : Nat) : 0 < m.framesNeeded block := by
  rw [framesNeeded]
  split <;> decide

/-- The page was absent and maps a frame that was free. -/
structure ZeroFilled (m m' : Manager layout) (held : Finset Frame) (place : Nat × Nat)
    (frame : Frame) : Prop where
  opened : Opened m m' held place
  absent : (m.memory.leaf place).isPresent = false
  task : layout.IsTaskFrame frame
  free : m.pool.count frame = 0
  leaf : m'.memory.leaf = Function.update m.memory.leaf place (Entry.new frame .userWritable)
  table : TableGiven layout m.memory.link m'.memory.link
    (Function.update m.pool.count frame 1) m'.pool.count place.1

/-- There were too few frames for the page, and those that there were are free again. -/
structure Unfilled (m m' : Manager layout) (held : Finset Frame) (place : Nat × Nat) : Prop where
  sound : m'.Sound held
  same : m.SameSpace m'
  count : m'.pool.count = m.pool.count
  short : m.pool.freeCount < m.framesNeeded place.1

theorem Unfilled.grown {place : Nat × Nat} (unfilled : Unfilled m m' held place) :
    m.Grown m' := by
  refine ⟨fun block => Or.inl (congrFun unfilled.same.link block), ?_⟩
  intro frame free
  rw [← unfilled.count]
  exact free

theorem Allocated.exists_unfilled {m₁ m₂ : Manager layout} {frame : Frame}
    (allocated : Allocated m m₁ held frame)
    (absent : (m₁.memory.link addr.dirIndex).isPresent = false)
    (full : m₁.pool.highestFree = none) (memory : m₂.memory = m₁.memory)
    (pool : m₂.pool = m₁.pool) :
    ∃ m', (do freeFrame frame; giveUp addr : Operation layout FatalError Resolution) m₂ =
      .ok .killed m' ∧ Unfilled m m' held addr.place := by
  have holds := Finset.mem_insert_self frame held
  have sound₂ : m₂.Sound (insert frame held) := allocated.sound.of_same memory pool
  obtain ⟨m₃, drop, memory', sound₃, count⟩ := sound₂.exists_freeFrame holds
  rw [Finset.erase_insert allocated.fresh] at sound₃
  obtain ⟨m₄, killed, memory'', pool'⟩ := giveUp_run (ε := FatalError) addr m₃
  have same : m₄.memory = m₁.memory := memory''.trans (memory'.trans memory)
  refine ⟨m₄, (bind_ok drop).trans killed, sound₃.of_same memory'' pool',
    allocated.shows.trans (SameSpace.of_memory same), ?_, ?_⟩
  · rw [pool', count, pool, allocated.count, Function.update_idem, ← allocated.free,
      Function.update_eq_self]
  · have pooled := (allocated.sound.balanced.owned frame holds).1.pooled
    have taken := FramePool.freeCount_of_taken pooled allocated.free allocated.count
    have none := FramePool.highestFree_eq_none_iff.mp full
    rw [allocated.shows.link] at absent
    have two : m.framesNeeded addr.dirIndex = 2 := if_neg (by rw [absent]; decide)
    have short : m.pool.freeCount < m.framesNeeded addr.dirIndex := by omega
    exact short

/-- A no-page fault fills the page with zeros if there are frames for that and the page is
absent. On a present page it fails with the frame that it has taken for it. -/
theorem Sound.resolveNoPage_ends (sound : m.Sound held)
    (task : layout.kernelTables ≤ addr.dirIndex) :
    (∃ m', resolveNoPage addr m = .ok .killed m' ∧ Unfilled m m' held addr.place) ∨
    ((m.memory.leaf addr.place).isPresent = true ∧
      ∃ frame m', resolveNoPage addr m = .error (.alreadyMapped addr.truncPage) m' ∧
        Allocated m m' held frame) ∨
    ∃ frame m', resolveNoPage addr m = .ok (.zeroFilled frame) m' ∧
      ZeroFilled m m' held addr.place frame := by
  have sound' : m.startedNoPage.Sound held := sound
  have begun : (Operation.count fun faults =>
      { faults with total := faults.total + 1, noPage := faults.noPage + 1 } :
      Operation layout FatalError Unit) m = .ok () m.startedNoPage := rfl
  rcases sound'.allocateFrame_cases FatalError with ⟨full, run⟩ | ⟨frame, m₁, run, allocated⟩
  · obtain ⟨m', killed, memory, pool⟩ := giveUp_run (ε := FatalError) addr m.startedNoPage
    refine Or.inl ⟨m', ?_, sound.of_same memory pool, SameSpace.of_memory memory, ?_, ?_⟩
    · rw [resolveNoPage, bind_ok begun, bind_ok run]
      exact killed
    · exact congrArg FramePool.count pool
    · have none : m.pool.freeCount = 0 := FramePool.highestFree_eq_none_iff.mp full
      rw [none]
      exact m.framesNeeded_pos _
  · have same : addr.truncPage.dirIndex = addr.dirIndex := congrArg Prod.fst addr.place_truncPage
    have task' : layout.kernelTables ≤ addr.truncPage.dirIndex := by
      rw [same]
      exact task
    have shown := congrFun allocated.shows.leaf addr.place
    rcases allocated.sound.mapFrame_cases (Finset.mem_insert_self frame held) task' true with
      ⟨mapped, m₂, stop, memory, pool⟩ | ⟨absent, full, m₂, stop, memory, pool⟩ |
        ⟨m₂, done, mapped, table⟩
    · rw [addr.place_truncPage, shown] at mapped
      refine Or.inr (Or.inl ⟨mapped, frame, m₂, ?_, ?_⟩)
      · rw [resolveNoPage, bind_ok begun, bind_ok run]
        exact bind_ok (attempt_error stop)
      · exact { allocated.of_same memory pool with }
    · rw [same] at absent
      obtain ⟨m₃, killed, unfilled⟩ := allocated.exists_unfilled absent full memory pool
      refine Or.inl ⟨m₃, ?_, { unfilled with }⟩
      rw [resolveNoPage, bind_ok begun, bind_ok run]
      exact (bind_ok (attempt_error stop)).trans killed
    · rw [addr.place_truncPage] at mapped
      rw [same, allocated.shows.link, allocated.count] at table
      have opened := allocated.opened mapped
      have absent := mapped.absent
      have leaf := mapped.leaf
      rw [shown] at absent
      rw [allocated.shows.leaf] at leaf
      refine Or.inr (Or.inr ⟨frame, { m₂.flushed with
        faults := { m₂.faults with zeroFilled := m₂.faults.zeroFilled + 1 } }, ?_,
        { opened with grown := { opened.grown with } }, absent, ?_, allocated.free, leaf, table⟩)
      · rw [resolveNoPage, bind_ok begun, bind_ok run]
        exact bind_ok (attempt_ok done)
      · exact (allocated.sound.balanced.owned frame (Finset.mem_insert_self _ _)).1

theorem Sound.resolveNoPage_cases (sound : m.Sound held)
    (task : layout.kernelTables ≤ addr.dirIndex) :
    (∃ m', resolveNoPage addr m = .ok .killed m' ∧ m'.Sound held ∧ m.SameSpace m' ∧ m.Grown m') ∨
    ((m.memory.leaf addr.place).isPresent = true ∧
      ∃ frame m', resolveNoPage addr m = .error (.alreadyMapped addr.truncPage) m' ∧
        m'.Sound (insert frame held)) ∨
    (m.memory.leaf addr.place).isPresent = false ∧
      ∃ frame m', resolveNoPage addr m = .ok (.zeroFilled frame) m' ∧
        Opened m m' held addr.place := by
  rcases sound.resolveNoPage_ends task with
    ⟨m', run, unfilled⟩ | ⟨present, frame, m', run, taken⟩ | ⟨frame, m', run, filled⟩
  · exact Or.inl ⟨m', run, unfilled.sound, unfilled.same, unfilled.grown⟩
  · exact Or.inr (Or.inl ⟨present, frame, m', run, taken.sound⟩)
  · exact Or.inr (Or.inr ⟨filled.absent, frame, m', run, filled.opened⟩)

end Fault

/-- The page is absent or can be written. -/
def Guarded (m : Manager layout) (place : Nat × Nat) : Prop :=
  (m.memory.leaf place).isPresent = true → (m.memory.leaf place).isWritable = true

def Writable (m : Manager layout) (place : Nat × Nat) : Prop :=
  (m.memory.leaf place).isPresent = true ∧ (m.memory.leaf place).isWritable = true

structure Verified (m m' : Manager layout) (held : Finset Frame) (place : Nat × Nat) : Prop where
  sound : m'.Sound held
  guarded : m'.Guarded place
  others : ∀ other, m.Guarded other → m'.Guarded other
  seen : ∀ other ∈ layout.taskPlaces, m'.memory.seen other = m.memory.seen other
  grown : m.Grown m'

theorem Opened.verified {place : Nat × Nat} (opened : Opened m m' held place) :
    Verified m m' held place := by
  refine ⟨opened.sound, fun _ => opened.writable, ?_, opened.seen, opened.grown⟩
  intro other guarded
  by_cases same : other = place
  · rw [same]
    exact fun _ => opened.writable
  · rw [Guarded, opened.leaf other same]
    exact guarded

theorem Sound.verifyWrite_of_guarded (sound : m.Sound held) {addr : LinearAddr}
    (guarded : m.Guarded addr.place) : verifyWrite addr m = .ok none m := by
  by_cases linked : (m.memory.link addr.dirIndex).isPresent = true
  · have pass : ¬ ((m.memory.leaf addr.place).isPresent &&
        !(m.memory.leaf addr.place).isWritable) = true := by
      rw [Bool.and_eq_true, Bool.not_eq_true']
      intro both
      exact Bool.false_ne_true (both.2.symm.trans (guarded both.1))
    rw [verifyWrite, bind_ok (leafSlot_of_linked linked)]
    simp only []
    rw [bind_ok (sound.leafEntry_run linked), if_neg pass]
    rfl
  · rw [verifyWrite, bind_ok (leafSlot_of_unlinked linked)]
    rfl

/-- Only a page that is mapped and cannot be written is made exclusive. -/
theorem Sound.verifyWrite_ends (sound : m.Sound held) {addr : LinearAddr}
    (task : layout.kernelTables ≤ addr.dirIndex) :
    (m.Guarded addr.place ∧ verifyWrite addr m = .ok none m) ∨
    (m.memory.leaf addr.place).isPresent = true ∧
      ∃ resolution m', verifyWrite addr m = .ok (some resolution) m' ∧
        Exclusive m m' held addr.place resolution := by
  by_cases guarded : m.Guarded addr.place
  · exact Or.inl ⟨guarded, sound.verifyWrite_of_guarded guarded⟩
  · have mapped : (m.memory.leaf addr.place).isPresent = true ∧
        ¬ (m.memory.leaf addr.place).isWritable = true := Classical.not_imp.mp guarded
    have linked : (m.memory.link addr.dirIndex).isPresent = true :=
      PhysicalMemory.link_present_of_leaf mapped.1
    have stop : ((m.memory.leaf addr.place).isPresent &&
        !(m.memory.leaf addr.place).isWritable) = true := by
      rw [Bool.and_eq_true, Bool.not_eq_true']
      exact ⟨mapped.1, Bool.not_eq_true _ ▸ mapped.2⟩
    have begun : verifyWrite addr m = (do
        let resolution ←
          makeExclusive ⟨(m.memory.link addr.dirIndex).frame, addr.tableIndex⟩ addr
        return some resolution) m := by
      rw [verifyWrite, bind_ok (leafSlot_of_linked linked)]
      simp only []
      rw [bind_ok (sound.leafEntry_run linked), if_pos stop]
    obtain ⟨resolution, m', run, ends⟩ :=
      sound.exists_makeExclusive (Layout.place_mem_taskPlaces task) mapped.1
    exact Or.inr ⟨mapped.1, resolution, m', begun.trans (bind_ok run), ends⟩

theorem Sound.verifyWrite_cases (sound : m.Sound held) {addr : LinearAddr}
    (task : layout.kernelTables ≤ addr.dirIndex) :
    (∃ m', verifyWrite addr m = .ok (some .killed) m' ∧
      m'.memory = m.memory ∧ m'.pool = m.pool) ∨
    ∃ result m', result ≠ some .killed ∧ verifyWrite addr m = .ok result m' ∧
      Verified m m' held addr.place := by
  rcases sound.verifyWrite_ends task with ⟨guarded, run⟩ | ⟨-, resolution, m', run, ends⟩
  · exact Or.inr ⟨none, m, nofun, run, sound, guarded, fun _ same => same, fun _ _ => rfl,
      Grown.of_same rfl rfl⟩
  · cases ends with
    | restored ends => exact Or.inr ⟨some .restored, m', nofun, run, ends.opened.verified⟩
    | copied ends => exact Or.inr ⟨some (.copied _), m', nofun, run, ends.opened.verified⟩
    | killed _ _ memory pool => exact Or.inl ⟨m', run, memory, pool⟩

theorem Sound.verifyPage_cases (sound : m.Sound held) {page : LinearAddr}
    (task : layout.kernelTables ≤ page.dirIndex) :
    (∃ m', verifyPage page m = .error .killed m' ∧
      m'.memory = m.memory ∧ m'.pool = m.pool) ∨
    ∃ m', verifyPage page m = .ok () m' ∧ Verified m m' held page.place := by
  rcases sound.verifyWrite_cases task with ⟨m', run, same⟩ | ⟨result, m', alive, run, verified⟩
  · exact Or.inl ⟨m', bind_ok (orFatal_ok run), same⟩
  · refine Or.inr ⟨m', (bind_ok (orFatal_ok run)).trans ?_, verified⟩
    match result, alive with
    | none, _ => rfl
    | some .restored, _ => rfl
    | some (.copied _), _ => rfl
    | some (.zeroFilled _), _ => rfl
    | some .killed, alive => exact absurd rfl alive

structure AreaVerified (m m' : Manager layout) (held : Finset Frame) (pages : List LinearAddr) :
    Prop where
  sound : m'.Sound held
  guarded : ∀ page ∈ pages, m'.Guarded page.place
  others : ∀ other, m.Guarded other → m'.Guarded other
  seen : ∀ other ∈ layout.taskPlaces, m'.memory.seen other = m.memory.seen other
  grown : m.Grown m'

theorem Sound.verifyPages_cases (sound : m.Sound held) {pages : List LinearAddr}
    (task : ∀ page ∈ pages, layout.kernelTables ≤ page.dirIndex) :
    (∃ m', pages.forM verifyPage m = .error .killed m' ∧ m'.Sound held ∧ m.Grown m' ∧
      ∀ other ∈ layout.taskPlaces, m'.memory.seen other = m.memory.seen other) ∨
    ∃ m', pages.forM verifyPage m = .ok () m' ∧ AreaVerified m m' held pages := by
  induction pages generalizing m with
  | nil =>
      exact Or.inr ⟨m, rfl, sound, nofun, fun _ same => same, fun _ _ => rfl,
        Grown.of_same rfl rfl⟩
  | cons page pages ih =>
      rcases sound.verifyPage_cases (task page List.mem_cons_self) with
        ⟨m₁, run, memory, pool⟩ | ⟨m₁, run, first⟩
      · refine Or.inl ⟨m₁, bind_error run, ?_, Grown.of_same memory pool, ?_⟩
        · exact sound.of_same memory pool
        · intro other _
          rw [memory]
      · have task' : ∀ page ∈ pages, layout.kernelTables ≤ page.dirIndex :=
          fun page member => task page (List.mem_cons_of_mem _ member)
        rcases ih first.sound task' with ⟨m₂, rest, sound₂, grown, seen⟩ | ⟨m₂, rest, area⟩
        · refine Or.inl ⟨m₂, (bind_ok run).trans rest, sound₂, first.grown.trans grown, ?_⟩
          intro other member
          rw [seen other member, first.seen other member]
        · refine Or.inr ⟨m₂, (bind_ok run).trans rest, area.sound, ?_, ?_, ?_,
            first.grown.trans area.grown⟩
          · intro page' member
            rcases List.mem_cons.mp member with rfl | later
            · exact area.others _ first.guarded
            · exact area.guarded page' later
          · exact fun other guarded => area.others other (first.others other guarded)
          · intro other member
            rw [area.seen other member, first.seen other member]

section Area

variable {addr : LinearAddr} {size : Nat}

def InArea (addr : LinearAddr) (size : Nat) (page : LinearAddr) : Prop :=
  page.pageOffset = 0 ∧ truncPage addr.toNat ≤ page.toNat ∧ page.toNat < addr.toNat + size

theorem toNat_ofNat_of_mem_range' {start : Nat}
    (inside : start ∈ List.range' (truncPage addr.toNat) (coverCount
      (min (addr.toNat + size) addressSpace - truncPage addr.toNat) pageSize) pageSize) :
    (LinearAddr.ofNat start).toNat = start ∧ InArea addr size (LinearAddr.ofNat start) := by
  obtain ⟨i, below, rfl⟩ := List.mem_range'.mp inside
  have covered := lt_coverCount.mp below
  have number : (LinearAddr.ofNat (truncPage addr.toNat + pageSize * i)).toNat =
      truncPage addr.toNat + pageSize * i := by
    rw [LinearAddr.toNat_ofNat, Nat.mod_eq_of_lt (by omega)]
  refine ⟨number, ?_, ?_, ?_⟩
  · rw [LinearAddr.pageOffset, number]
    simp only [truncPage, pageSize]
    omega
  · rw [number]
    omega
  · rw [number]
    omega

theorem mem_areaPages {page : LinearAddr} :
    page ∈ areaPages addr size ↔ InArea addr size page := by
  constructor
  · intro member
    obtain ⟨start, inside, rfl⟩ := List.mem_map.mp member
    exact (toNat_ofNat_of_mem_range' inside).2
  · rintro ⟨start, above, below⟩
    have top := page.toNat_lt
    refine List.mem_map.mpr ⟨page.toNat, List.mem_range'.mpr
      ⟨(page.toNat - truncPage addr.toNat) / pageSize, lt_coverCount.mpr ?_, ?_⟩, ?_⟩
    · simp only [pageSize] at *
      omega
    · simp only [LinearAddr.pageOffset, truncPage, pageSize] at *
      omega
    · apply LinearAddr.ext_toNat
      rw [LinearAddr.toNat_ofNat, Nat.mod_eq_of_lt top]

theorem task_of_mem_areaPages (task : layout.kernelTables ≤ addr.dirIndex) {page : LinearAddr}
    (member : page ∈ areaPages addr size) : layout.kernelTables ≤ page.dirIndex := by
  obtain ⟨-, above, -⟩ := mem_areaPages.mp member
  simp only [LinearAddr.dirIndex, truncPage, pageSize, blockSize] at *
  omega

theorem exists_areaPage {other : LinearAddr} (above : addr.toNat ≤ other.toNat)
    (below : other.toNat < addr.toNat + size) :
    ∃ page ∈ areaPages addr size, page.place = other.place := by
  refine ⟨other.truncPage, mem_areaPages.mpr ⟨?_, ?_, ?_⟩, other.place_truncPage⟩
  · rw [LinearAddr.pageOffset, LinearAddr.toNat_truncPage]
    exact truncPage_mod _
  · rw [LinearAddr.toNat_truncPage]
    simp only [truncPage, pageSize]
    omega
  · rw [LinearAddr.toNat_truncPage]
    exact Nat.lt_of_le_of_lt (truncPage_le _) below

theorem Sound.verifyArea_cases (sound : m.Sound held)
    (task : layout.kernelTables ≤ addr.dirIndex) (size : Nat) :
    (∃ m', verifyArea addr size m = .error .killed m' ∧ m'.Sound held ∧ m.Grown m' ∧
      ∀ other ∈ layout.taskPlaces, m'.memory.seen other = m.memory.seen other) ∨
    ∃ m', verifyArea addr size m = .ok () m' ∧ AreaVerified m m' held (areaPages addr size) :=
  sound.verifyPages_cases fun _ => task_of_mem_areaPages task

end Area

end Manager

end PagedMemory

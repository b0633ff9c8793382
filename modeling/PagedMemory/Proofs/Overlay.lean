import PagedMemory.Proofs.Audit
import PagedMemory.Proofs.Faults

/-!
Task space does not depend on what the kernel's tables map, nor on how high the counts of the buffer
cache are. `Overlaid` relates a manager to one that has other tables and other counts there, and
faults of tasks run alike in both (`Overlaid.resolveNoPage`, `Overlaid.resolveWriteProtect`).
-/

namespace PagedMemory

namespace Layout

variable {layout : Layout} {frame : Frame}

def IsKernelTable (layout : Layout) (frame : Frame) : Prop :=
  0 < frame.number ∧ frame.number ≤ layout.kernelTables

instance : Decidable (layout.IsKernelTable frame) := inferInstanceAs (Decidable (_ ∧ _))

theorem IsPooled.not_kernelTable (pooled : layout.IsPooled frame) :
    ¬ layout.IsKernelTable frame := by
  intro table
  have below := Nat.lt_of_le_of_lt table.2 layout.kernelTables_lt_firstPoolFrame
  exact absurd pooled.1 (Nat.not_le.mpr below)

theorem isKernelTable_kernelTable {block : Nat} (kernel : block < layout.kernelTables) :
    layout.IsKernelTable (Manager.kernelTable block) :=
  ⟨Nat.succ_pos block, kernel⟩

theorem not_isKernelTable_pageDirectory (layout : Layout) :
    ¬ layout.IsKernelTable Manager.pageDirectory :=
  fun table => Nat.lt_irrefl 0 table.1

end Layout

namespace Manager

variable {layout : Layout} {ε : Type} {m m' g g' : Manager layout} {held : Finset Frame}
  {tables : Frame → Page} {cache : Frame → Nat}

open Operation

/-- `m` is `g` with `tables` for the kernel's tables and `cache` for the counts of the buffer cache,
none of whose frames is free in either. -/
structure Overlaid (tables : Frame → Page) (cache : Frame → Nat) (m g : Manager layout) :
    Prop where
  page : ∀ frame, m.memory.page frame =
    if layout.IsKernelTable frame then tables frame else g.memory.page frame
  count : ∀ frame, m.pool.count frame =
    if layout.IsCached frame then cache frame else g.pool.count frame
  busy : ∀ frame, layout.IsCached frame → cache frame ≠ 0 ∧ g.pool.count frame ≠ 0

theorem Overlaid.of_same (overlaid : Overlaid tables cache m g) (memory : m'.memory = m.memory)
    (pool : m'.pool = m.pool) (memory' : g'.memory = g.memory) (pool' : g'.pool = g.pool) :
    Overlaid tables cache m' g' := by
  refine ⟨?_, ?_, ?_⟩
  · rw [memory, memory']
    exact overlaid.page
  · rw [pool, pool']
    exact overlaid.count
  · rw [pool']
    exact overlaid.busy

theorem pooled_of_allocateFrame {frame : Frame}
    (run : (Manager.allocateFrame : Operation layout ε (Option Frame)) m = .ok (some frame) m') :
    layout.IsPooled frame := by
  rw [allocateFrame_eq] at run
  cases found : m.pool.highestFree with
  | none =>
      rw [found] at run
      cases run
  | some i =>
      rw [found] at run
      cases run
      exact FramePool.pooled_frameAt i

section Overlaid

variable (overlaid : Overlaid tables cache m g)

include overlaid

theorem Overlaid.page_eq {frame : Frame} (outside : ¬ layout.IsKernelTable frame) :
    m.memory.page frame = g.memory.page frame := by
  rw [overlaid.page, if_neg outside]

theorem Overlaid.count_eq {frame : Frame} (outside : ¬ layout.IsCached frame) :
    m.pool.count frame = g.pool.count frame := by
  rw [overlaid.count, if_neg outside]

theorem Overlaid.link : m.memory.link = g.memory.link := by
  funext block
  rw [PhysicalMemory.link, PhysicalMemory.link,
    overlaid.page_eq layout.not_isKernelTable_pageDirectory]

theorem Overlaid.leaf_eq {place : Nat × Nat}
    (outside : ¬ layout.IsKernelTable (g.memory.link place.1).frame) :
    m.memory.leaf place = g.memory.leaf place := by
  rw [PhysicalMemory.leaf, PhysicalMemory.leaf, overlaid.link, overlaid.page_eq outside]

theorem Overlaid.entryAt_eq {slot : Slot} (outside : ¬ layout.IsKernelTable slot.frame) :
    m.entryAt slot = g.entryAt slot := by
  rw [Manager.entryAt_eq, Manager.entryAt_eq, overlaid.page_eq outside]

theorem Overlaid.highestFree : m.pool.highestFree = g.pool.highestFree := by
  apply FramePool.highestFree_congr
  intro frame
  by_cases cached : layout.IsCached frame
  · obtain ⟨busy, busy'⟩ := overlaid.busy frame cached
    rw [overlaid.count, if_pos cached]
    exact iff_of_false busy busy'
  · rw [overlaid.count_eq cached]

theorem Overlaid.onlyPage {frame : Frame} (outside : ¬ layout.IsKernelTable frame)
    {memory memory' : PhysicalMemory layout.totalFrames} (only : m.memory.OnlyPage memory frame)
    (only' : g.memory.OnlyPage memory' frame) (same : memory.page frame = memory'.page frame) :
    Overlaid tables cache { m with memory := memory } { g with memory := memory' } := by
  refine ⟨?_, overlaid.count, overlaid.busy⟩
  intro other
  by_cases here : other = frame
  · subst here
    rw [if_neg outside]
    exact same
  · change memory.page other = if layout.IsKernelTable other then _ else memory'.page other
    rw [only other here, only' other here, overlaid.page other]

theorem Overlaid.modifyPage {frame : Frame} (outside : ¬ layout.IsKernelTable frame)
    (change : Page → Page) :
    Overlaid tables cache { m with memory := m.memory.modifyPage frame change }
      { g with memory := g.memory.modifyPage frame change } := by
  apply overlaid.onlyPage outside (m.memory.onlyPage_modifyPage frame change)
    (g.memory.onlyPage_modifyPage frame change)
  rw [PhysicalMemory.page_modifyPage, PhysicalMemory.page_modifyPage, overlaid.page_eq outside]

theorem Overlaid.putPage {frame : Frame} (outside : ¬ layout.IsKernelTable frame)
    {page? page?' : Option Page} (same : page?.getD Page.zero = page?'.getD Page.zero) :
    Overlaid tables cache { m with memory := m.memory.putPage frame page? }
      { g with memory := g.memory.putPage frame page?' } := by
  apply overlaid.onlyPage outside (m.memory.onlyPage_putPage frame page?)
    (g.memory.onlyPage_putPage frame page?')
  rw [PhysicalMemory.page_putPage, PhysicalMemory.page_putPage, same, overlaid.page_eq outside]

theorem Overlaid.setCount {pool pool' : FramePool layout} {frame : Frame} {value : Nat}
    (outside : ¬ layout.IsCached frame)
    (set : pool.count = Function.update m.pool.count frame value)
    (set' : pool'.count = Function.update g.pool.count frame value) :
    Overlaid tables cache { m with pool := pool } { g with pool := pool' } := by
  refine ⟨overlaid.page, ?_, ?_⟩
  · intro other
    rw [set, set']
    by_cases same : other = frame
    · rw [same, Function.update_self, Function.update_self, if_neg outside]
    · rw [Function.update_of_ne same, Function.update_of_ne same, overlaid.count other]
  · intro other cached
    have apart : other ≠ frame := by
      rintro rfl
      exact outside cached
    rw [set', Function.update_of_ne apart]
    exact overlaid.busy other cached

theorem Overlaid.setEntry {slot : Slot} (outside : ¬ layout.IsKernelTable slot.frame)
    (entry : Entry) :
    Alike (Overlaid tables cache) (Manager.setEntry slot entry m)
      (Manager.setEntry slot entry g) := by
  rw [setEntry_eq, setEntry_eq]
  by_cases inside : slot.frame.number < layout.totalFrames
  · rw [if_pos inside, if_pos inside]
    exact ⟨rfl, (overlaid.modifyPage outside _).of_same rfl rfl rfl rfl⟩
  · rw [if_neg inside, if_neg inside]
    exact ⟨rfl, overlaid⟩

theorem Overlaid.allocateFrame (ε : Type) :
    Alike (Overlaid tables cache) ((allocateFrame : Operation layout ε (Option Frame)) m)
      ((Manager.allocateFrame : Operation layout ε (Option Frame)) g) := by
  rw [allocateFrame_eq, allocateFrame_eq, overlaid.highestFree]
  cases found : g.pool.highestFree with
  | none => exact ⟨rfl, overlaid⟩
  | some i =>
      have free := FramePool.count_of_highestFree_eq_some found
      have outside : ¬ layout.IsCached (FramePool.frameAt i) :=
        fun cached => (overlaid.busy _ cached).2 free
      have blank := overlaid.putPage (FramePool.pooled_frameAt i).not_kernelTable
        (Eq.refl ((none : Option Page).getD Page.zero))
      exact ⟨rfl, blank.setCount outside (FramePool.count_of_set rfl) (FramePool.count_of_set rfl)⟩

theorem Overlaid.copyFrame {source target : Frame} (outside : ¬ layout.IsKernelTable source)
    (outside' : ¬ layout.IsKernelTable target) :
    Alike (Overlaid tables cache)
      ((onMemory (PhysicalMemory.copyFrame source target) : Operation layout FatalError Unit) m)
      (onMemory (PhysicalMemory.copyFrame source target) g) := by
  rcases PhysicalMemory.copyFrame_cases source target with copied | ⟨error, refused⟩
  · rw [onMemory_ok (copied _), onMemory_ok (copied _)]
    exact ⟨rfl, overlaid.putPage outside' (overlaid.page_eq outside)⟩
  · simp only [onMemory, refused]
    exact ⟨rfl, overlaid⟩

theorem Overlaid.freeFrame {frame : Frame} (task : layout.IsTaskFrame frame) :
    Alike (Overlaid tables cache) (Manager.freeFrame frame m) (Manager.freeFrame frame g) := by
  have same := overlaid.count_eq task.not_cached
  rw [Manager.freeFrame]
  by_cases unused : g.pool.count frame = 0
  · rw [onPool_error (FramePool.free_of_unused task.pooled unused),
      onPool_error (FramePool.free_of_unused task.pooled (same.trans unused))]
    exact ⟨rfl, overlaid⟩
  · obtain ⟨pool, run, count⟩ := m.pool.exists_free task.pooled (same.symm ▸ unused)
    obtain ⟨pool', run', count'⟩ := g.pool.exists_free task.pooled unused
    rw [onPool_ok run, onPool_ok run']
    exact ⟨rfl, overlaid.setCount task.not_cached (same ▸ count) count'⟩

theorem Overlaid.counted (change : FaultStats → FaultStats) :
    Alike (Overlaid tables cache) ((Operation.count change : Operation layout ε Unit) m)
      (Operation.count change g) :=
  ⟨rfl, overlaid.of_same rfl rfl rfl rfl⟩

theorem Overlaid.giveUp (addr : LinearAddr) :
    Alike (Overlaid tables cache) ((giveUp addr : Operation layout ε Resolution) m)
      (Manager.giveUp addr g) :=
  ⟨rfl, overlaid.of_same rfl rfl rfl rfl⟩

theorem Overlaid.tableFor (block : Nat) :
    Alike (Overlaid tables cache) (Manager.tableFor block m) (Manager.tableFor block g) := by
  have link := dirEntry_run block m
  rw [overlaid.link] at link
  rw [Manager.tableFor, bind_ok link, bind_ok (dirEntry_run block g)]
  split
  · exact ⟨rfl, overlaid⟩
  · apply (overlaid.allocateFrame MemoryError).bind
    intro taken m₁ g₁ _ _ overlaid₁
    cases taken with
    | none => exact ⟨rfl, overlaid₁⟩
    | some table =>
        have apart : ¬ layout.IsKernelTable (dirSlot block).frame :=
          layout.not_isKernelTable_pageDirectory
        have write := overlaid₁.setEntry apart (Entry.new table .userWritable)
        apply write.orFatal.bind
        intro _ m₂ g₂ _ _ overlaid₂
        exact ⟨rfl, overlaid₂⟩

theorem Overlaid.makeExclusive {slot : Slot} {entry : Entry} (addr : LinearAddr)
    (outside : ¬ layout.IsKernelTable slot.frame) (read : g.entryAt slot = .ok entry)
    (owner : layout.IsTaskFrame entry.frame) :
    Alike (Overlaid tables cache) (Manager.makeExclusive slot addr m)
      (Manager.makeExclusive slot addr g) := by
  have read' := (overlaid.entryAt_eq outside).trans read
  have count : m.pool.count? entry.frame = g.pool.count? entry.frame := by
    rw [m.pool.count?_eq owner.pooled, g.pool.count?_eq owner.pooled,
      overlaid.count_eq owner.not_cached]
  rw [Manager.makeExclusive, bind_ok (ask_ok read'), bind_ok (ask_ok read), bind_ok (get_run m),
    bind_ok (get_run g), count]
  split
  · apply (overlaid.setEntry outside _).bind
    intro _ m₁ g₁ _ _ overlaid₁
    exact ⟨rfl, overlaid₁.of_same rfl rfl rfl rfl⟩
  · apply (overlaid.allocateFrame FatalError).bind
    intro taken m₁ g₁ _ run overlaid₁
    cases taken with
    | none => exact overlaid₁.giveUp addr
    | some copy =>
        have pooled := pooled_of_allocateFrame run
        apply (overlaid₁.copyFrame owner.pooled.not_kernelTable pooled.not_kernelTable).bind
        intro _ m₂ g₂ _ _ overlaid₂
        simp only [owner.not_reserved, Bool.not_false, if_true]
        apply (overlaid₂.freeFrame owner).bind
        intro _ m₃ g₃ _ _ overlaid₃
        apply (overlaid₃.setEntry outside _).bind
        intro _ m₄ g₄ _ _ overlaid₄
        exact ⟨rfl, overlaid₄.of_same rfl rfl rfl rfl⟩

theorem Overlaid.leaf_of_task (sound : g.Sound held) {place : Nat × Nat}
    (task : layout.kernelTables ≤ place.1) : m.memory.leaf place = g.memory.leaf place := by
  by_cases present : (g.memory.link place.1).isPresent = true
  · apply overlaid.leaf_eq
    rcases PhysicalMemory.kernel_or_task present with kernel | member
    · exact absurd kernel (Nat.not_lt.mpr task)
    · exact (sound.balanced.linked _ member present).1.pooled.not_kernelTable
  · have absent : (g.memory.link place.1).isPresent = false := Bool.not_eq_true _ ▸ present
    rw [PhysicalMemory.leaf_of_absent place absent, PhysicalMemory.leaf_of_absent place]
    rw [overlaid.link]
    exact absent

theorem Overlaid.audit_eq (sound : g.Sound held) : m.audit = g.audit := by
  apply audit_congr
  · have inside : ∀ block ∈ layout.taskBlocks, (m.memory.link block).isPresent = true →
        (m.memory.link block).frame.number < layout.totalFrames := by
      rw [overlaid.link]
      exact fun _ _ => sound.link_inside
    rw [references_of_inside inside, sound.references_eq]
    congr 1
    apply List.flatMap_congr
    intro block member
    have task : layout.kernelTables ≤ block := (List.mem_range'_1.mp member).1
    have leaves (index : Nat) : m.memory.leaf (block, index) = g.memory.leaf (block, index) :=
      overlaid.leaf_of_task sound task
    simp only [PhysicalMemory.referencesIn, PhysicalMemory.leavesIn, overlaid.link, leaves]
  · intro i above
    have cache := layout.firstPoolFrame_add_bufferFrames
    rw [← FramePool.count_frameAt, ← FramePool.count_frameAt]
    apply overlaid.count_eq
    intro cached
    have below : layout.firstPoolFrame + i.val < layout.bufferEnd / pageSize := cached.2
    omega

variable (sound : g.Sound held) {addr : LinearAddr}
  (task : layout.kernelTables ≤ addr.dirIndex)

include sound task

theorem Overlaid.mapFrame {frame : Frame} (inside : frame.number < layout.totalFrames)
    (writable : Bool) :
    Alike (Overlaid tables cache) (Manager.mapFrame frame addr writable m)
      (Manager.mapFrame frame addr writable g) := by
  have member := (Layout.mem_taskPlaces.mp (Layout.place_mem_taskPlaces task)).1
  obtain ⟨console, begun⟩ := exists_mapFrame_eq inside addr writable m
  obtain ⟨console', begun'⟩ := exists_mapFrame_eq inside addr writable g
  have overlaid' : Overlaid tables cache { m with console := console }
      { g with console := console' } := overlaid.of_same rfl rfl rfl rfl
  have sound' : ({ g with console := console' } : Manager layout).Sound held := sound
  rw [begun, begun']
  apply (overlaid'.tableFor addr.dirIndex).bind
  intro table m₁ g₁ _ run overlaid₁
  have outside : ¬ layout.IsKernelTable table := by
    rcases sound'.tableFor_cases member with ⟨-, -, full⟩ | ⟨g₂, run', linked, -⟩
    · cases full.symm.trans run
    · cases run'.symm.trans run
      exact (linked.sound.balanced.linked _ member linked.present).1.pooled.not_kernelTable
  have read : Alike (Overlaid tables cache)
      ((ask (·.entryAt ⟨table, addr.tableIndex⟩) : Operation layout FatalError Entry) m₁)
      ((ask (·.entryAt ⟨table, addr.tableIndex⟩) : Operation layout FatalError Entry) g₁) :=
    Alike.ask overlaid₁ (overlaid₁.entryAt_eq outside)
  apply read.orFatal.bind
  intro entry m₂ g₂ _ _ overlaid₂
  split
  · exact ⟨rfl, overlaid₂⟩
  · exact (overlaid₂.setEntry outside _).orFatal

theorem Overlaid.resolveNoPage :
    Alike (Overlaid tables cache) (Manager.resolveNoPage addr m)
      (Manager.resolveNoPage addr g) := by
  rw [Manager.resolveNoPage]
  apply (overlaid.counted _).bind
  intro _ m₁ g₁ _ run overlaid₁
  have sound₁ : g₁.Sound held := by
    cases run
    exact sound
  apply (overlaid₁.allocateFrame FatalError).bind
  intro taken m₂ g₂ _ run overlaid₂
  cases taken with
  | none => exact overlaid₂.giveUp addr
  | some frame =>
      obtain ⟨sound₂, owner⟩ : g₂.Sound (insert frame held) ∧ layout.IsTaskFrame frame := by
        rcases sound₁.allocateFrame_cases FatalError with ⟨-, full⟩ | ⟨frame', g', run', allocated⟩
        · cases full.symm.trans run
        · cases run'.symm.trans run
          have holds := Finset.mem_insert_self frame held
          exact ⟨allocated.sound, (allocated.sound.balanced.owned frame holds).1⟩
      have task' : layout.kernelTables ≤ addr.truncPage.dirIndex := by
        have same : addr.truncPage.dirIndex = addr.dirIndex :=
          congrArg Prod.fst addr.place_truncPage
        rw [same]
        exact task
      apply (overlaid₂.mapFrame sound₂ task' owner.2 true).attempt.bind
      intro result m₃ g₃ _ run overlaid₃
      cases result with
      | ok _ => exact ⟨rfl, overlaid₃.of_same rfl rfl rfl rfl⟩
      | error error =>
          cases error with
          | fatal error => exact ⟨rfl, overlaid₃⟩
          | outOfMemory =>
              apply (overlaid₃.freeFrame owner).bind
              intro _ m₄ g₄ _ _ overlaid₄
              exact overlaid₄.giveUp addr

theorem Overlaid.resolveWriteProtect :
    Alike (Overlaid tables cache) (Manager.resolveWriteProtect addr m)
      (Manager.resolveWriteProtect addr g) := by
  have inside := Layout.place_mem_taskPlaces task
  rw [Manager.resolveWriteProtect]
  apply (overlaid.counted _).bind
  intro _ m₁ g₁ _ run overlaid₁
  have sound₁ : g₁.Sound held := by
    cases run
    exact sound
  by_cases linked : (g₁.memory.link addr.dirIndex).isPresent = true
  · have slot := leafSlot_of_linked (m := m₁) (overlaid₁.link.symm ▸ linked)
    have outside := (sound₁.balanced.linked _ (Layout.mem_taskPlaces.mp inside).1
      linked).1.pooled.not_kernelTable
    have read := sound₁.entryAt_eq addr.place linked
    rw [overlaid₁.link] at slot
    rw [bind_ok slot, bind_ok (leafSlot_of_linked linked)]
    simp only []
    rw [bind_ok (ask_ok ((overlaid₁.entryAt_eq outside).trans read)), bind_ok (ask_ok read)]
    split
    · rename_i mapped
      exact overlaid₁.makeExclusive addr outside read (sound₁.balanced.mapped _ inside mapped)
    · exact ⟨rfl, overlaid₁⟩
  · have slot := leafSlot_of_unlinked (m := m₁) (overlaid₁.link.symm ▸ linked)
    rw [bind_ok slot, bind_ok (leafSlot_of_unlinked linked)]
    exact ⟨rfl, overlaid₁⟩

theorem Overlaid.resolveFault (code : FaultCode) :
    Alike (Overlaid tables cache) (Manager.resolveFault code addr m)
      (Manager.resolveFault code addr g) := by
  rw [Manager.resolveFault]
  split
  · exact overlaid.resolveWriteProtect sound task
  · exact overlaid.resolveNoPage sound task

end Overlaid

end Manager

end PagedMemory

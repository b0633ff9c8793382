import PagedMemory.Proofs.IdentityMap
import PagedMemory.Proofs.Overlay

/-!
Faults on the pages of the kernel's own mapping, which the handlers serve like all others. A write
fault makes the entry writable or leads it to a copy of the page; a missing page, which there can
only be past the end of memory, is given a zeroed frame. `Shadowed` follows a manager in which that
has happened beside one whose books are balanced: the frames that lead nowhere else are the ones
that a caller would hold there.
-/

namespace PagedMemory

def Resolution.frame? : Resolution → Option Frame
  | copied frame | zeroFilled frame => some frame
  | restored | killed => none

namespace Manager

variable {layout : Layout} {m m' g : Manager layout} {held : Finset Frame} {addr : LinearAddr}
  {resolution : Resolution}

open Operation

theorem of_setEntry_ok {slot : Slot} {entry : Entry} (run : setEntry slot entry m = .ok () m') :
    m'.memory = m.memory.modifyPage slot.frame (·.setWord slot.index entry.raw) ∧
      m'.pool = m.pool := by
  rw [setEntry_eq] at run
  split at run
  · cases run
    exact ⟨rfl, rfl⟩
  · cases run

theorem of_copyFrame_ok {source target : Frame}
    (run : (onMemory (PhysicalMemory.copyFrame source target) :
      Operation layout FatalError Unit) m = .ok () m') :
    m'.memory = m.memory.putPage target (m.memory.page? source) ∧ m'.pool = m.pool := by
  rcases PhysicalMemory.copyFrame_cases source target with copied | ⟨error, refused⟩
  · cases (onMemory_ok (copied m.memory)).symm.trans run
    exact ⟨rfl, rfl⟩
  · simp only [onMemory, refused] at run
    cases run

theorem of_freeFrame_ok {frame : Frame} (run : freeFrame frame m = .ok () m') :
    m'.memory = m.memory ∧ FramePool.free frame m.pool = .ok () m'.pool := by
  rw [freeFrame] at run
  cases change : FramePool.free frame m.pool with
  | ok _ pool =>
      rw [onPool_ok change] at run
      cases run
      exact ⟨rfl, rfl⟩
  | error error pool =>
      rw [onPool_error change] at run
      cases run

theorem eq_of_allocateFrame_none {ε : Type}
    (run : (allocateFrame : Operation layout ε (Option Frame)) m = .ok none m') : m' = m := by
  rw [allocateFrame_eq] at run
  split at run
  · cases run
    rfl
  · cases run

theorem link_of_allocateFrame {ε : Type} {taken : Option Frame}
    (run : (allocateFrame : Operation layout ε (Option Frame)) m = .ok taken m') :
    m'.memory.link = m.memory.link := by
  rw [allocateFrame_eq] at run
  split at run
  · cases run
    rfl
  · cases run
    exact (m.memory.onlyPage_putPage _ none).link (FramePool.pooled_frameAt _).ne_directory

theorem makeExclusive_ok_cases {slot : Slot} {entry : Entry} (read : m.entryAt slot = .ok entry)
    (run : makeExclusive slot addr m = .ok resolution m') :
    (resolution = .killed ∧ m'.memory = m.memory ∧ m'.pool = m.pool) ∨
    (resolution = .restored ∧ m'.memory =
        m.memory.modifyPage slot.frame (·.setWord slot.index entry.madeWritable.raw) ∧
      m'.pool = m.pool) ∨
    ∃ copy m₁, ¬ (layout.isReserved entry.frame = false ∧ m.pool.count? entry.frame = some 1) ∧
      (allocateFrame : Operation layout FatalError (Option Frame)) m = .ok (some copy) m₁ ∧
      resolution = .copied copy ∧
      m'.memory = (m₁.memory.putPage copy (m₁.memory.page? entry.frame)).modifyPage
        slot.frame (·.setWord slot.index (Entry.new copy .userWritable).raw) ∧
      (layout.isReserved entry.frame = true ∧ m'.pool = m₁.pool ∨
        layout.isReserved entry.frame = false ∧
          FramePool.free entry.frame m₁.pool = .ok () m'.pool) := by
  rw [makeExclusive, bind_ok (ask_ok read), bind_ok (get_run m)] at run
  split at run
  · obtain ⟨_, m₁, write, run⟩ := exists_of_bind_ok run
    cases run
    obtain ⟨memory, pool⟩ := of_setEntry_ok write
    exact Or.inr (Or.inl ⟨rfl, memory, pool⟩)
  · rename_i shared
    have shared' : ¬ (layout.isReserved entry.frame = false ∧
        m.pool.count? entry.frame = some 1) := by
      simpa using shared
    obtain ⟨taken, m₁, allocate, rest⟩ := exists_of_bind_ok run
    cases taken with
    | none =>
        obtain rfl := eq_of_allocateFrame_none allocate
        cases rest
        exact Or.inl ⟨rfl, rfl, rfl⟩
    | some copy =>
        obtain ⟨_, m₂, copied, rest⟩ := exists_of_bind_ok rest
        obtain ⟨memory₂, pool₂⟩ := of_copyFrame_ok copied
        refine Or.inr (Or.inr ⟨copy, m₁, shared', allocate, ?_⟩)
        by_cases reserved : layout.isReserved entry.frame = true
        · simp only [reserved, Bool.not_true, Bool.false_eq_true, if_false] at rest
          obtain ⟨_, m₃, write, rest⟩ := exists_of_bind_ok rest
          obtain ⟨memory₃, pool₃⟩ := of_setEntry_ok write
          cases rest
          rw [memory₂] at memory₃
          exact ⟨rfl, memory₃, Or.inl ⟨reserved, pool₃.trans pool₂⟩⟩
        · have counted : layout.isReserved entry.frame = false := Bool.not_eq_true _ ▸ reserved
          simp only [counted, Bool.not_false, if_true] at rest
          obtain ⟨_, m₃, drop, rest⟩ := exists_of_bind_ok rest
          obtain ⟨memory₃, free⟩ := of_freeFrame_ok drop
          obtain ⟨_, m₄, write, rest⟩ := exists_of_bind_ok rest
          obtain ⟨memory₄, pool₄⟩ := of_setEntry_ok write
          cases rest
          rw [memory₃, memory₂] at memory₄
          rw [pool₂, ← pool₄] at free
          exact ⟨rfl, memory₄, Or.inr ⟨counted, free⟩⟩

theorem exists_of_resolveWriteProtect_ok
    (run : resolveWriteProtect addr m = .ok resolution m') :
    (m.memory.link addr.dirIndex).isPresent = true ∧ ∃ entry,
      m.entryAt ⟨(m.memory.link addr.dirIndex).frame, addr.tableIndex⟩ = .ok entry ∧
      entry.isPresent = true ∧
      makeExclusive ⟨(m.memory.link addr.dirIndex).frame, addr.tableIndex⟩ addr
        m.startedWriteProtect = .ok resolution m' := by
  have begun : (Operation.count fun faults =>
      { faults with total := faults.total + 1, writeProtect := faults.writeProtect + 1 } :
      Operation layout FatalError Unit) m = .ok () m.startedWriteProtect := rfl
  rw [resolveWriteProtect, bind_ok begun] at run
  by_cases linked : (m.memory.link addr.dirIndex).isPresent = true
  · refine ⟨linked, ?_⟩
    rw [bind_ok (leafSlot_of_linked (m := m.startedWriteProtect) linked)] at run
    obtain ⟨entry, m₁, read, rest⟩ := exists_of_bind_ok run
    cases answer : m.startedWriteProtect.entryAt
        ⟨(m.memory.link addr.dirIndex).frame, addr.tableIndex⟩ with
    | error error => cases (ask_error answer).symm.trans read
    | ok entry' =>
        cases (ask_ok answer).symm.trans read
        split at rest
        · rename_i present
          exact ⟨entry, answer, present, rest⟩
        · cases rest
  · rw [bind_ok (leafSlot_of_unlinked (m := m.startedWriteProtect) linked)] at run
    cases run

theorem mapFrame_of_linked {frame : Frame} (inside : frame.number < layout.totalFrames)
    (linked : (m.memory.link addr.dirIndex).isPresent = true) (writable : Bool) :
    (∃ error m', mapFrame frame addr writable m = .error (.fatal error) m') ∨
    ∃ entry m', mapFrame frame addr writable m = .ok () m' ∧
      m.entryAt ⟨(m.memory.link addr.dirIndex).frame, addr.tableIndex⟩ = .ok entry ∧
      entry.isPresent = false ∧
      m'.memory = m.memory.modifyPage (m.memory.link addr.dirIndex).frame
        (·.setWord addr.tableIndex (Entry.new frame ⟨true, writable, true⟩).raw) ∧
      m'.pool = m.pool := by
  obtain ⟨console, begun⟩ := exists_mapFrame_eq inside addr writable m
  have table := tableFor_of_present (m := { m with console := console }) linked
  rw [begun, bind_ok table]
  cases read : m.entryAt ⟨(m.memory.link addr.dirIndex).frame, addr.tableIndex⟩ with
  | error error =>
      have stops : (ask (·.entryAt ⟨(m.memory.link addr.dirIndex).frame, addr.tableIndex⟩) :
          Operation layout FatalError Entry) { m with console := console } = .error error _ :=
        ask_error read
      exact Or.inl ⟨error, _, bind_error (orFatal_error stops)⟩
  | ok entry =>
      have reads : (ask (·.entryAt ⟨(m.memory.link addr.dirIndex).frame, addr.tableIndex⟩) :
          Operation layout FatalError Entry) { m with console := console } = .ok entry _ :=
        ask_ok read
      rw [bind_ok (orFatal_ok reads)]
      by_cases present : entry.isPresent = true
      · rw [if_pos present]
        exact Or.inl ⟨.alreadyMapped addr, _, rfl⟩
      · rw [if_neg present]
        cases write : setEntry ⟨(m.memory.link addr.dirIndex).frame, addr.tableIndex⟩
            (Entry.new frame ⟨true, writable, true⟩) { m with console := console } with
        | error error m₁ => exact Or.inl ⟨error, m₁, orFatal_error write⟩
        | ok _ m₁ =>
            obtain ⟨memory, pool⟩ := of_setEntry_ok write
            exact Or.inr ⟨entry, m₁, orFatal_ok write, rfl, Bool.not_eq_true _ ▸ present, memory,
              pool⟩

theorem resolveNoPage_ok_cases (linked : (m.memory.link addr.dirIndex).isPresent = true)
    (run : resolveNoPage addr m = .ok resolution m') :
    (resolution = .killed ∧ m'.memory = m.memory ∧ m'.pool = m.pool) ∨
    ∃ frame m₁ entry,
      (allocateFrame : Operation layout FatalError (Option Frame)) m.startedNoPage =
        .ok (some frame) m₁ ∧
      resolution = .zeroFilled frame ∧
      m₁.entryAt ⟨(m.memory.link addr.dirIndex).frame, addr.tableIndex⟩ = .ok entry ∧
      entry.isPresent = false ∧
      m'.memory = m₁.memory.modifyPage (m.memory.link addr.dirIndex).frame
        (·.setWord addr.tableIndex (Entry.new frame .userWritable).raw) ∧
      m'.pool = m₁.pool := by
  have begun : (Operation.count fun faults =>
      { faults with total := faults.total + 1, noPage := faults.noPage + 1 } :
      Operation layout FatalError Unit) m = .ok () m.startedNoPage := rfl
  rw [resolveNoPage, bind_ok begun] at run
  obtain ⟨taken, m₁, allocate, rest⟩ := exists_of_bind_ok run
  cases taken with
  | none =>
      obtain rfl := eq_of_allocateFrame_none allocate
      cases rest
      exact Or.inl ⟨rfl, rfl, rfl⟩
  | some frame =>
      have pooled := pooled_of_allocateFrame allocate
      have block : addr.truncPage.dirIndex = addr.dirIndex := congrArg Prod.fst addr.place_truncPage
      have index : addr.truncPage.tableIndex = addr.tableIndex :=
        congrArg Prod.snd addr.place_truncPage
      have link : m₁.memory.link = m.memory.link := by
        have same := link_of_allocateFrame allocate
        exact same
      have linked₁ : (m₁.memory.link addr.truncPage.dirIndex).isPresent = true := by
        rw [block, link]
        exact linked
      obtain ⟨result, m₂, attempted, rest⟩ := exists_of_bind_ok rest
      rcases mapFrame_of_linked pooled.2 linked₁ true with
        ⟨error, m₃, stop⟩ | ⟨entry, m₃, done, read, absent, memory, pool⟩
      · cases (attempt_error stop).symm.trans attempted
        cases rest
      · cases (attempt_ok done).symm.trans attempted
        cases rest
        rw [block, index, link] at read memory
        exact Or.inr ⟨frame, m₁, entry, allocate, rfl, read, absent, memory, pool⟩

def identityFrame (place : Nat × Nat) : Frame := ⟨place.1 * entriesPerTable + place.2⟩

theorem identityFrame_place (addr : LinearAddr) :
    identityFrame addr.place = ⟨addr.toNat / pageSize⟩ := by
  simp only [identityFrame, LinearAddr.place, LinearAddr.dirIndex, LinearAddr.tableIndex, blockSize,
    pageSize, entriesPerTable, Frame.mk.injEq]
  omega

theorem eq_of_identityFrame_eq {place other : Nat × Nat} (bound : place.2 < entriesPerTable)
    (bound' : other.2 < entriesPerTable) (same : identityFrame place = identityFrame other) :
    place = other := by
  have number : place.1 * entriesPerTable + place.2 = other.1 * entriesPerTable + other.2 :=
    congrArg Frame.number same
  simp only [entriesPerTable] at *
  exact Prod.ext (by omega) (by omega)

def kernelEntry (tables : Frame → Page) (place : Nat × Nat) : Entry :=
  ⟨(tables (kernelTable place.1)).word place.2⟩

def setKernelEntry (tables : Frame → Page) (place : Nat × Nat) (entry : Entry) : Frame → Page :=
  Function.update tables (kernelTable place.1)
    ((tables (kernelTable place.1)).setWord place.2 entry.raw)

theorem kernelEntry_setKernelEntry (tables : Frame → Page) {place : Nat × Nat}
    (bound : place.2 < entriesPerTable) (entry : Entry) :
    kernelEntry (setKernelEntry tables place entry) =
      Function.update (kernelEntry tables) place entry := by
  funext other
  rw [kernelEntry, setKernelEntry]
  by_cases table : kernelTable other.1 = kernelTable place.1
  · have block : other.1 = place.1 := Nat.succ.inj (congrArg Frame.number table)
    rw [table, Function.update_self, Page.word_setWord]
    by_cases index : place.2 = other.2
    · have same : other = place := Prod.ext block index.symm
      rw [if_pos ⟨index, index ▸ bound⟩, same, Function.update_self]
    · have differ : other ≠ place := fun same => index (congrArg Prod.snd same).symm
      rw [if_neg (fun both => index both.1), Function.update_of_ne differ, kernelEntry, table]
  · have differ : other ≠ place := fun same => table (congrArg (fun p => kernelTable p.1) same)
    rw [Function.update_of_ne table, Function.update_of_ne differ, kernelEntry]

/-- What faults leave of the kernel's mapping: every frame that exists is still mapped at its page,
by itself or by a frame of `held`. A frame of the buffer cache that has not been replaced has its
full count. -/
structure KernelPages (layout : Layout) (tables : Frame → Page) (cache : Frame → Nat)
    (held : Finset Frame) : Prop where
  mapped : ∀ place : Nat × Nat, place.1 < layout.kernelTables → place.2 < entriesPerTable →
    (identityFrame place).number < layout.totalFrames →
    (kernelEntry tables place).isPresent = true
  leads : ∀ place : Nat × Nat, place.1 < layout.kernelTables → place.2 < entriesPerTable →
    (kernelEntry tables place).isPresent = true → (kernelEntry tables place).frame ∈ held ∨
      (kernelEntry tables place).frame = identityFrame place ∧
        (identityFrame place).number < layout.totalFrames
  whole : ∀ place : Nat × Nat, place.1 < layout.kernelTables → place.2 < entriesPerTable →
    layout.IsCached (identityFrame place) →
    (kernelEntry tables place).frame = identityFrame place →
    cache (identityFrame place) = bufferCount

variable {tables : Frame → Page} {cache cache' : Frame → Nat} {held' : Finset Frame}
  {place : Nat × Nat} {entry : Entry}

theorem KernelPages.set (pages : KernelPages layout tables cache held)
    (bound : place.2 < entriesPerTable) (present : entry.isPresent = true)
    (grows : held ⊆ held')
    (leads : entry.frame ∈ held' ∨
      entry.frame = identityFrame place ∧ (identityFrame place).number < layout.totalFrames)
    (whole : layout.IsCached (identityFrame place) → entry.frame = identityFrame place →
      cache' (identityFrame place) = bufferCount)
    (others : ∀ frame, frame ≠ identityFrame place → cache' frame = cache frame) :
    KernelPages layout (setKernelEntry tables place entry) cache' held' := by
  have entries := kernelEntry_setKernelEntry tables bound entry
  refine ⟨?_, ?_, ?_⟩
  · intro other kernel bound' inside
    rw [entries]
    by_cases same : other = place
    · rw [same, Function.update_self]
      exact present
    · rw [Function.update_of_ne same]
      exact pages.mapped other kernel bound' inside
  · intro other kernel bound' mapped
    rw [entries] at mapped ⊢
    by_cases same : other = place
    · rw [same, Function.update_self]
      exact leads
    · rw [Function.update_of_ne same] at mapped ⊢
      exact (pages.leads other kernel bound' mapped).imp_left fun holds => grows holds
  · intro other kernel bound' cached own
    rw [entries] at own
    by_cases same : other = place
    · rw [same, Function.update_self] at own
      rw [same] at cached ⊢
      exact whole cached own
    · rw [Function.update_of_ne same] at own
      rw [others _ fun equal => same (eq_of_identityFrame_eq bound' bound equal)]
      exact pages.whole other kernel bound' cached own

theorem KernelPages.mono (pages : KernelPages layout tables cache held) (grows : held ⊆ held') :
    KernelPages layout tables cache held' :=
  ⟨pages.mapped, fun place kernel bound mapped =>
    (pages.leads place kernel bound mapped).imp_left fun holds => grows holds, pages.whole⟩

section Overlaid

variable (overlaid : Overlaid tables cache m g)

include overlaid

theorem Overlaid.entryAt_kernel (kernel : place.1 < layout.kernelTables) :
    m.entryAt ⟨kernelTable place.1, place.2⟩ = .ok (kernelEntry tables place) := by
  rw [Manager.entryAt_eq, if_pos (kernelTable_inside kernel), overlaid.page,
    if_pos (Layout.isKernelTable_kernelTable kernel)]
  rfl

theorem Overlaid.setKernelEntry (kernel : place.1 < layout.kernelTables) (entry : Entry) :
    Overlaid (Manager.setKernelEntry tables place entry) cache
      { m with memory := m.memory.modifyPage (kernelTable place.1) (·.setWord place.2 entry.raw) }
      g := by
  have table := Layout.isKernelTable_kernelTable kernel
  refine ⟨?_, overlaid.count, overlaid.busy⟩
  intro frame
  by_cases same : kernelTable place.1 = frame
  · subst same
    rw [PhysicalMemory.page_modifyPage_self (kernelTable_inside kernel), overlaid.page,
      if_pos table, if_pos table, Manager.setKernelEntry, Function.update_self]
  · rw [PhysicalMemory.page_modifyPage_of_ne same, overlaid.page, Manager.setKernelEntry,
      Function.update_of_ne (Ne.symm same)]

theorem Overlaid.setCache {pool : FramePool layout} {frame : Frame} {value : Nat}
    (cached : layout.IsCached frame) (busy : value ≠ 0)
    (set : pool.count = Function.update m.pool.count frame value) :
    Overlaid tables (Function.update cache frame value) { m with pool := pool } g := by
  refine ⟨overlaid.page, ?_, ?_⟩
  · intro other
    rw [set]
    by_cases same : other = frame
    · rw [same, Function.update_self, Function.update_self, if_pos cached]
    · rw [Function.update_of_ne same, Function.update_of_ne same, overlaid.count]
  · intro other cached'
    refine ⟨?_, (overlaid.busy other cached').2⟩
    by_cases same : other = frame
    · rw [same, Function.update_self]
      exact busy
    · rw [Function.update_of_ne same]
      exact (overlaid.busy other cached').1

theorem Overlaid.exists_allocated (sound : g.Sound held) {frame : Frame}
    (run : (Manager.allocateFrame : Operation layout FatalError (Option Frame)) m =
      .ok (some frame) m') :
    ∃ g', Overlaid tables cache m' g' ∧ Allocated g g' held frame := by
  obtain ⟨g', run', overlaid'⟩ := (overlaid.allocateFrame FatalError).exists_ok run
  rcases sound.allocateFrame_cases FatalError with ⟨-, full⟩ | ⟨frame', g₁, taken, allocated⟩
  · cases full.symm.trans run'
  · cases taken.symm.trans run'
    exact ⟨g', overlaid', allocated⟩

end Overlaid

/-- The books of `g` are balanced, every page of a task can be written, and `m` differs from it only
in what faults leave of the kernel's mapping. -/
structure Shadowed (m g : Manager layout) (tables : Frame → Page) (cache : Frame → Nat)
    (held : Finset Frame) : Prop where
  overlaid : Overlaid tables cache m g
  sound : g.Sound held
  guarded : ∀ place ∈ layout.taskPlaces, g.Guarded place
  pages : KernelPages layout tables cache held

/-- How a fault on a page of the kernel can end: the page leads to its own frame or where it led
before, or another frame has been taken for it. -/
def Shadowed.Resolved (m' : Manager layout) (held : Finset Frame) (addr : LinearAddr)
    (resolution : Resolution) : Prop :=
  (∃ g' tables' cache',
    (resolution.frame? = none ∨ resolution.frame? = some (identityFrame addr.place)) ∧
      Shadowed m' g' tables' cache' held) ∨
  ∃ frame g' tables' cache', resolution.frame? = some frame ∧ frame ≠ identityFrame addr.place ∧
    Shadowed m' g' tables' cache' (insert frame held)

theorem count_le_one (sound : g.Sound held)
    (guarded : ∀ place ∈ layout.taskPlaces, g.Guarded place) {frame : Frame}
    (task : layout.IsTaskFrame frame) : g.pool.count frame ≤ 1 := by
  have books := sound.balanced
  have sum := books.counted frame task
  by_contra more
  by_cases holds : frame ∈ held
  · have once := (books.owned frame holds).2
    omega
  · rw [if_neg holds, Nat.add_zero] at sum
    rcases Nat.eq_zero_or_pos (linksTo layout g.memory.link frame).card with none | some
    · have some : 0 < (leavesTo layout g.memory.leaf frame).card := by omega
      obtain ⟨place, member⟩ := Finset.card_pos.mp some
      obtain ⟨inside, mapped, leads⟩ := Finset.mem_filter.mp member
      have once := books.exclusive place inside mapped (guarded place inside mapped)
      rw [leads] at once
      omega
    · obtain ⟨block, member⟩ := Finset.card_pos.mp some
      obtain ⟨inside, present, leads⟩ := Finset.mem_filter.mp member
      have once := (books.linked block inside present).2
      rw [leads] at once
      omega

section Shadowed

variable (shadowed : Shadowed m g tables cache held)

include shadowed

theorem Shadowed.of_same (memory : m'.memory = m.memory) (pool : m'.pool = m.pool) :
    Shadowed m' g tables cache held :=
  ⟨shadowed.overlaid.of_same memory pool rfl rfl, shadowed.sound, shadowed.guarded, shadowed.pages⟩

theorem Shadowed.exists_task (task : layout.kernelTables ≤ addr.dirIndex) {code : FaultCode}
    (run : resolveFault code addr m = .ok resolution m') :
    ∃ g', Shadowed m' g' tables cache held := by
  have sound := shadowed.sound
  have alike := shadowed.overlaid.resolveFault sound task code
  obtain ⟨g', run', overlaid'⟩ := alike.exists_ok run
  have guarded_of_leaf (leaf : g'.memory.leaf = g.memory.leaf) :
      ∀ place ∈ layout.taskPlaces, g'.Guarded place := by
    intro place inside
    rw [Guarded, leaf]
    exact shadowed.guarded place inside
  have guarded_of_opened (opened : Opened g g' held addr.place) :
      ∀ place ∈ layout.taskPlaces, g'.Guarded place := by
    intro place inside
    by_cases same : place = addr.place
    · rw [same]
      exact fun _ => opened.writable
    · rw [Guarded, opened.leaf place same]
      exact shadowed.guarded place inside
  suffices g'.Sound held ∧ ∀ place ∈ layout.taskPlaces, g'.Guarded place from
    ⟨g', overlaid', this.1, this.2, shadowed.pages⟩
  rw [resolveFault] at run'
  split at run'
  · rcases sound.resolveWriteProtect_cases task with
      ⟨-, _, stop, -⟩ | ⟨-, ⟨g₁, killed, memory, pool⟩ | ⟨_, g₁, -, done, opened⟩⟩
    · cases stop.symm.trans run'
    · cases killed.symm.trans run'
      exact ⟨sound.of_same memory pool, guarded_of_leaf (congrArg PhysicalMemory.leaf memory)⟩
    · cases done.symm.trans run'
      exact ⟨opened.sound, guarded_of_opened opened⟩
  · rcases sound.resolveNoPage_cases task with
      ⟨g₁, killed, sound₁, same, -⟩ | ⟨-, _, _, stop, -⟩ | ⟨-, _, g₁, done, opened⟩
    · cases killed.symm.trans run'
      exact ⟨sound₁, guarded_of_leaf same.leaf⟩
    · cases stop.symm.trans run'
    · cases done.symm.trans run'
      exact ⟨opened.sound, guarded_of_opened opened⟩

theorem Shadowed.exists_allocated {frame : Frame}
    (run : (allocateFrame : Operation layout FatalError (Option Frame)) m = .ok (some frame) m') :
    ∃ g', Allocated g g' held frame ∧ Shadowed m' g' tables cache (insert frame held) := by
  obtain ⟨g', overlaid, allocated⟩ := shadowed.overlaid.exists_allocated shadowed.sound run
  refine ⟨g', allocated, overlaid, allocated.sound, ?_,
    shadowed.pages.mono (Finset.subset_insert _ _)⟩
  intro place inside
  rw [Guarded, allocated.shows.leaf]
  exact shadowed.guarded place inside

theorem Shadowed.fill {frame : Frame} (holds : frame ∈ held) (page? : Option Page) :
    Shadowed { m with memory := m.memory.putPage frame page? }
      { g with memory := g.memory.putPage frame page? } tables cache held := by
  have task := (shadowed.sound.balanced.owned frame holds).1
  obtain ⟨sound, -, leaf, -⟩ := TablesSound.writeHeld shadowed.sound holds
    (g.memory.onlyPage_putPage frame page?)
  refine ⟨shadowed.overlaid.putPage task.pooled.not_kernelTable rfl, sound, ?_, shadowed.pages⟩
  intro place inside
  rw [Guarded, leaf]
  exact shadowed.guarded place inside

theorem Shadowed.setEntry (kernel : place.1 < layout.kernelTables)
    (bound : place.2 < entriesPerTable) (present : entry.isPresent = true)
    (leads : entry.frame ∈ held ∨
      entry.frame = identityFrame place ∧ (identityFrame place).number < layout.totalFrames)
    (whole : layout.IsCached (identityFrame place) → entry.frame = identityFrame place →
      cache (identityFrame place) = bufferCount) :
    Shadowed
      { m with memory := m.memory.modifyPage (kernelTable place.1) (·.setWord place.2 entry.raw) }
      g (setKernelEntry tables place entry) cache held :=
  ⟨shadowed.overlaid.setKernelEntry kernel entry, shadowed.sound, shadowed.guarded,
    shadowed.pages.set bound present (Finset.Subset.refl _) leads whole fun _ _ => rfl⟩

theorem Shadowed.setCache {pool : FramePool layout} {value : Nat}
    (cached : layout.IsCached (identityFrame place)) (bound : place.2 < entriesPerTable)
    (replaced : (kernelEntry tables place).frame ≠ identityFrame place) (busy : value ≠ 0)
    (set : pool.count = Function.update m.pool.count (identityFrame place) value) :
    Shadowed { m with pool := pool } g tables
      (Function.update cache (identityFrame place) value) held := by
  refine ⟨shadowed.overlaid.setCache cached busy set, shadowed.sound, shadowed.guarded,
    shadowed.pages.mapped, shadowed.pages.leads, ?_⟩
  intro other kernel bound' cached' own
  have apart : identityFrame other ≠ identityFrame place := by
    intro same
    rw [eq_of_identityFrame_eq bound' bound same] at own
    exact replaced own
  rw [Function.update_of_ne apart]
  exact shadowed.pages.whole other kernel bound' cached' own

theorem Shadowed.exists_selfCopy (kernel : place.1 < layout.kernelTables)
    (bound : place.2 < entriesPerTable) (task : layout.IsTaskFrame (identityFrame place))
    {m₁ : Manager layout} (allocate : (allocateFrame : Operation layout FatalError (Option Frame))
      m = .ok (some (identityFrame place)) m₁) (page? : Option Page)
    (memory : m'.memory = (m₁.memory.putPage (identityFrame place) page?).modifyPage
      (kernelTable place.1)
        (·.setWord place.2 (Entry.new (identityFrame place) .userWritable).raw))
    (free : FramePool.free (identityFrame place) m₁.pool = .ok () m'.pool) :
    ∃ g' tables', Shadowed m' g' tables' cache held := by
  obtain ⟨g₁, allocated, shadowed₁⟩ := shadowed.exists_allocated allocate
  have holds := Finset.mem_insert_self (identityFrame place) held
  have filled := shadowed₁.fill holds page?
  obtain ⟨g₂, -, memory₂, sound₂, count₂⟩ := filled.sound.exists_freeFrame holds
  rw [Finset.erase_insert allocated.fresh] at sound₂
  have leads : (Entry.new (identityFrame place) .userWritable).frame = identityFrame place :=
    Entry.frame_new_of_lt task.2 _
  have once : m₁.pool.count (identityFrame place) = 1 := by
    rw [shadowed₁.overlaid.count_eq task.not_cached]
    exact (shadowed₁.sound.balanced.owned _ holds).2
  obtain ⟨pool, run, count⟩ := m₁.pool.exists_free task.pooled (by omega)
  cases run.symm.trans free
  rw [once] at count
  have overlaid := (filled.overlaid.setCount task.not_cached count count₂).setKernelEntry kernel
    (Entry.new (identityFrame place) .userWritable)
  refine ⟨g₂, _, overlaid.of_same memory rfl memory₂ rfl, sound₂, ?_, ?_⟩
  · intro other inside
    rw [Guarded, memory₂]
    exact filled.guarded other inside
  · exact shadowed.pages.set bound (Entry.isPresent_new _ _) (Finset.Subset.refl _)
      (Or.inr ⟨leads, task.2⟩) (fun cached => absurd cached task.not_cached) (fun _ _ => rfl)

theorem Shadowed.exists_noPage (kernel : addr.dirIndex < layout.kernelTables)
    (run : resolveNoPage addr m = .ok resolution m') :
    Shadowed.Resolved m' held addr resolution := by
  have there : addr.place.1 < layout.kernelTables := kernel
  have table : (m.memory.link addr.dirIndex).frame = kernelTable addr.dirIndex := by
    rw [shadowed.overlaid.link]
    exact shadowed.sound.frame_link_of_kernel kernel
  have linked : (m.memory.link addr.dirIndex).isPresent = true := by
    rw [shadowed.overlaid.link]
    exact shadowed.sound.present_of_kernel kernel
  rcases resolveNoPage_ok_cases linked run with
    ⟨rfl, memory, pool⟩ | ⟨frame, m₁, entry, allocate, rfl, read, absent, memory, pool⟩
  · exact Or.inl ⟨g, tables, cache, Or.inl rfl, shadowed.of_same memory pool⟩
  · have started : Shadowed m.startedNoPage g tables cache held := shadowed.of_same rfl rfl
    obtain ⟨g', -, shadowed'⟩ := started.exists_allocated allocate
    have holds := Finset.mem_insert_self frame held
    have task := (shadowed'.sound.balanced.owned frame holds).1
    rw [table] at read memory
    cases (shadowed'.overlaid.entryAt_kernel there).symm.trans read
    have beyond : ¬ (identityFrame addr.place).number < layout.totalFrames := by
      intro inside
      rw [shadowed.pages.mapped addr.place kernel addr.tableIndex_lt inside] at absent
      cases absent
    have leads : (Entry.new frame .userWritable).frame = frame := Entry.frame_new_of_lt task.2 _
    have apart : frame ≠ identityFrame addr.place := by
      rintro rfl
      exact beyond task.2
    have set := shadowed'.setEntry there addr.tableIndex_lt
      (Entry.isPresent_new frame .userWritable) (Or.inl (leads.symm ▸ holds))
      (fun cached => absurd cached.pooled.2 beyond)
    exact Or.inr ⟨frame, g', _, cache, rfl, apart, set.of_same memory pool⟩

theorem Shadowed.exists_writeProtect (kernel : addr.dirIndex < layout.kernelTables)
    (run : resolveWriteProtect addr m = .ok resolution m') :
    Shadowed.Resolved m' held addr resolution := by
  have there : addr.place.1 < layout.kernelTables := kernel
  have bound := addr.tableIndex_lt
  have table : (m.memory.link addr.dirIndex).frame = kernelTable addr.dirIndex := by
    rw [shadowed.overlaid.link]
    exact shadowed.sound.frame_link_of_kernel kernel
  obtain ⟨-, entry, read, present, run⟩ := exists_of_resolveWriteProtect_ok run
  rw [table] at read run
  cases (shadowed.overlaid.entryAt_kernel there).symm.trans read
  have leads := shadowed.pages.leads addr.place kernel bound present
  have started : Shadowed m.startedWriteProtect g tables cache held := shadowed.of_same rfl rfl
  have read' := started.overlaid.entryAt_kernel there
  rcases makeExclusive_ok_cases read' run with
    ⟨rfl, memory, pool⟩ | ⟨rfl, memory, pool⟩ |
    ⟨copy, m₁, shared, allocate, rfl, memory, pool⟩
  · exact Or.inl ⟨g, tables, cache, Or.inl rfl, started.of_same memory pool⟩
  · have same := Entry.frame_madeWritable (kernelEntry tables addr.place)
    have set := started.setEntry there bound
      ((Entry.isPresent_madeWritable _).trans present) (same.symm ▸ leads)
      (fun cached own => shadowed.pages.whole _ kernel bound cached (same.symm.trans own))
    exact Or.inl ⟨g, _, cache, Or.inl rfl, set.of_same memory pool⟩
  · obtain ⟨own, inside⟩ : (kernelEntry tables addr.place).frame = identityFrame addr.place ∧
        (identityFrame addr.place).number < layout.totalFrames := by
      rcases leads with holds | own
      · -- a stray is counted once, and would have been made writable in place
        obtain ⟨task, once⟩ := started.sound.balanced.owned _ holds
        refine absurd ⟨task.not_reserved, ?_⟩ shared
        rw [FramePool.count?_eq _ task.pooled, started.overlaid.count_eq task.not_cached, once]
      · exact own
    rw [own] at shared memory pool
    obtain ⟨g₁, allocated, shadowed₁⟩ := started.exists_allocated allocate
    have holds := Finset.mem_insert_self copy held
    have task := (shadowed₁.sound.balanced.owned copy holds).1
    have leads' : (Entry.new copy .userWritable).frame = copy := Entry.frame_new_of_lt task.2 _
    have replaced (apart : copy ≠ identityFrame addr.place) :=
      (shadowed₁.fill holds (m₁.memory.page? (identityFrame addr.place))).setEntry
        there bound (Entry.isPresent_new copy .userWritable)
        (Or.inl (leads'.symm ▸ holds)) (fun _ same => absurd (leads'.symm.trans same) apart)
    -- the page's own frame is reserved, in the cache or one that tasks use
    rcases pool with ⟨reserved, pool⟩ | ⟨counted, free⟩
    · have apart : copy ≠ identityFrame addr.place := by
        rintro rfl
        rw [task.not_reserved] at reserved
        cases reserved
      exact Or.inr ⟨copy, _, _, cache, rfl, apart, (replaced apart).of_same memory pool⟩
    · have pooled : layout.IsPooled (identityFrame addr.place) :=
        ⟨Nat.le_of_not_lt (of_decide_eq_false counted), inside⟩
      rcases pooled.cached_or_task with cached | task'
      · have apart : copy ≠ identityFrame addr.place := by
          rintro rfl
          exact task.not_cached cached
        have full : m₁.pool.count (identityFrame addr.place) = bufferCount := by
          rw [shadowed₁.overlaid.count, if_pos cached]
          exact shadowed.pages.whole _ kernel bound cached own
        obtain ⟨pool, run', count⟩ := m₁.pool.exists_free pooled (by rw [full]; decide)
        cases run'.symm.trans free
        rw [full] at count
        have leads'' : (kernelEntry (setKernelEntry tables addr.place
            (Entry.new copy .userWritable)) addr.place).frame ≠ identityFrame addr.place := by
          rw [kernelEntry_setKernelEntry tables bound, Function.update_self, leads']
          exact apart
        have dropped := (replaced apart).setCache cached bound leads'' (by decide) count
        exact Or.inr ⟨copy, _, _, _, rfl, apart, dropped.of_same memory rfl⟩
      · by_cases same : copy = identityFrame addr.place
        · subst same
          obtain ⟨g', tables', copied⟩ := started.exists_selfCopy there bound
            task' allocate _ memory free
          exact Or.inl ⟨g', tables', cache, Or.inr rfl, copied⟩
        · -- the page's own frame is free, and cannot be dropped
          have low := count_le_one shadowed.sound shadowed.guarded task'
          have unused : g.pool.count (identityFrame addr.place) = 0 := by
            by_contra used
            refine shared ⟨counted, ?_⟩
            rw [FramePool.count?_eq _ pooled, started.overlaid.count_eq task'.not_cached]
            exact congrArg some (by omega)
          have unused₁ : m₁.pool.count (identityFrame addr.place) = 0 := by
            rw [shadowed₁.overlaid.count_eq task'.not_cached, allocated.count,
              Function.update_of_ne (Ne.symm same), unused]
          cases (FramePool.free_of_unused pooled unused₁).symm.trans free

end Shadowed

end Manager

end PagedMemory

import PagedMemory.Manager

/-!
The manager of a machine that has just started. Every existing frame is mapped to itself through
tables in the frames that follow the directory. Building them cannot fail (`mapKernel_blank`),
because a layout keeps those frames below `lowMem`.
-/

namespace PagedMemory.Manager

variable {layout : Layout}

open Operation

def blank (layout : Layout) (console : Console) : Manager layout where
  memory := PhysicalMemory.blank layout.totalFrames
  pool := FramePool.initial layout
  faults := FaultStats.zero
  tlbFlushes := 0
  tlbStale := false
  console := console

def kernelTable (dirIndex : Nat) : Frame := ⟨dirIndex + 1⟩

def mapKernelBlock (dirIndex : Nat) : Operation layout FatalError Unit := do
  let table := kernelTable dirIndex
  let first := dirIndex * entriesPerTable
  setEntry (dirSlot dirIndex) (Entry.new table .userWritable)
  (List.range (min entriesPerTable (layout.totalFrames - first))).forM fun index =>
    setEntry ⟨table, index⟩ (Entry.new ⟨first + index⟩ .userWritable)

def mapKernel : Operation layout FatalError Unit := do
  (List.range layout.kernelTables).forM mapKernelBlock
  flush

/-- The manager of a machine that has just started. -/
def boot (layout : Layout) (console : Console) : Manager layout :=
  mapKernel.after (blank layout console)

theorem exists_setEntry_eq_ok {slot : Slot} (h : slot.frame.number < layout.totalFrames)
    (entry : Entry) (m : Manager layout) : ∃ m', setEntry slot entry m = .ok () m' :=
  ⟨_, by rw [setEntry_eq, if_pos h]⟩

theorem exists_forM_eq_ok {ε α : Type} {act : α → Operation layout ε Unit} (xs : List α)
    (each : ∀ x ∈ xs, ∀ m, ∃ m', act x m = .ok () m') (m : Manager layout) :
    ∃ m', xs.forM act m = .ok () m' := by
  induction xs generalizing m with
  | nil => exact ⟨m, rfl⟩
  | cons x xs ih =>
      obtain ⟨middle, first⟩ := each x List.mem_cons_self m
      obtain ⟨last, rest⟩ := ih (fun y member => each y (List.mem_cons_of_mem x member)) middle
      refine ⟨last, ?_⟩
      change EStateM.bind (act x) (fun _ => xs.forM act) m = _
      simp only [EStateM.bind, first, rest]

theorem exists_mapKernelBlock_eq_ok {dirIndex : Nat} (h : dirIndex < layout.kernelTables)
    (m : Manager layout) : ∃ m', mapKernelBlock dirIndex m = .ok () m' := by
  have reserved := layout.kernelTables_lt_firstPoolFrame
  have total := layout.firstPoolFrame_add_poolFrames
  have link : (dirSlot dirIndex).frame.number < layout.totalFrames := by
    simp only [dirSlot, pageDirectory]
    omega
  have leaf (index : Nat) (m : Manager layout) : ∃ m', setEntry ⟨kernelTable dirIndex, index⟩
      (Entry.new ⟨dirIndex * entriesPerTable + index⟩ .userWritable) m = .ok () m' :=
    exists_setEntry_eq_ok (by simp only [kernelTable]; omega) _ m
  obtain ⟨linked, first⟩ :=
    exists_setEntry_eq_ok link (Entry.new (kernelTable dirIndex) .userWritable) m
  obtain ⟨mapped, rest⟩ := exists_forM_eq_ok
    (List.range (min entriesPerTable (layout.totalFrames - dirIndex * entriesPerTable)))
    (fun index _ => leaf index) linked
  exact ⟨mapped, by simp only [mapKernelBlock, bind, EStateM.bind, first, rest]⟩

theorem mapKernel_blank (layout : Layout) (console : Console) :
    mapKernel (blank layout console) = .ok () (boot layout console) := by
  obtain ⟨mapped, done⟩ := exists_forM_eq_ok (List.range layout.kernelTables)
    (fun _ member => exists_mapKernelBlock_eq_ok (List.mem_range.mp member)) (blank layout console)
  have ok : mapKernel (blank layout console) = .ok () mapped.flushed := by
    simp only [mapKernel, bind, EStateM.bind, done, flush_eq]
  rw [boot, after_of_ok ok]
  exact ok

end PagedMemory.Manager

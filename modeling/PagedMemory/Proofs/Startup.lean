import PagedMemory.Proofs.IdentityMap
import PagedMemory.Proofs.Lookup

/-!
The machine as it starts. Whatever layout a machine has been given, its directory, the kernel's
tables and the window that is copied from linear address 0 lie in reserved frames, so that the
identity map can be built without writing over itself. What it maps is exactly the memory that
exists (`Started`).
-/

namespace PagedMemory

namespace Layout

theorem ofBounds_self (layout : Layout) :
    ofBounds layout.lowMem layout.bufferEnd layout.memoryEnd = .ok layout := by
  rw [ofBounds, dif_pos layout.lowMem_aligned, dif_pos layout.bufferEnd_aligned,
    dif_pos layout.memoryEnd_aligned,
    dif_pos ⟨layout.lowMem_le_bufferEnd, layout.bufferEnd_le_memoryEnd⟩,
    dif_pos layout.memoryEnd_fits, dif_pos layout.reservedBytes_le_lowMem]

theorem eq_of_ofBounds {lowMem bufferEnd memoryEnd : Nat} {layout : Layout}
    (accepted : ofBounds lowMem bufferEnd memoryEnd = .ok layout) :
    layout.lowMem = lowMem ∧ layout.bufferEnd = bufferEnd ∧ layout.memoryEnd = memoryEnd := by
  simp only [ofBounds] at accepted
  split_ifs at accepted
  cases accepted
  exact ⟨rfl, rfl, rfl⟩

theorem min_truncPage_saturate (kilobytes : Nat) :
    min (truncPage (saturate (1048576 + saturate (kilobytes * 1024)))) maxMemory =
      min maxMemory (truncPage (1048576 + 1024 * kilobytes)) := by
  simp only [truncPage, saturate, maxMemory, addressSpace, pageSize]
  omega

theorem exists_ofExtendedMemory (kilobytes : Nat) :
    ∃ layout, ofExtendedMemory kilobytes = .ok layout ∧
      layout.memoryEnd = min maxMemory (truncPage (1048576 + 1024 * kilobytes)) := by
  rw [ofExtendedMemory, min_truncPage_saturate]
  generalize sized : min maxMemory (truncPage (1048576 + 1024 * kilobytes)) = memoryEnd
  have aligned : memoryEnd % pageSize = 0 := by
    simp only [truncPage, maxMemory, pageSize] at *
    omega
  have least : 1048576 ≤ memoryEnd := by
    simp only [truncPage, maxMemory, pageSize] at *
    omega
  have most : memoryEnd ≤ maxMemory := sized ▸ Nat.min_le_left _ _
  have room : reservedBytes memoryEnd ≤ defaultLowMem := by
    simp only [reservedBytes, blocksSpanned_eq, defaultLowMem, maxMemory, pageSize,
      bootstrapEntries] at *
    omega
  have fits : memoryEnd + blockSize ≤ addressSpace := by
    simp only [maxMemory, blockSize, addressSpace] at *
    omega
  by_cases large : memoryEnd > 6291456
  · let layout : Layout := ⟨defaultLowMem, 2097152, memoryEnd, by decide, by decide, aligned,
      by decide, by omega, fits, room⟩
    exact ⟨layout, by simpa only [if_pos large] using layout.ofBounds_self, rfl⟩
  · let layout : Layout := ⟨defaultLowMem, 1048576, memoryEnd, by decide, by decide, aligned,
      by decide, least, fits, room⟩
    exact ⟨layout, by simpa only [if_neg large] using layout.ofBounds_self, rfl⟩

def HasReserved (layout : Layout) (frame : Frame) : Prop :=
  layout.isReserved frame = true ∧ (frame.number + 1) * pageSize ≤ layout.memoryEnd

theorem hasReserved_of_lt {layout : Layout} {frame : Frame}
    (below : frame.number < layout.firstPoolFrame) : layout.HasReserved frame := by
  have low := layout.lowMem_le_bufferEnd
  have buffer := layout.bufferEnd_le_memoryEnd
  refine ⟨isReserved_of_lt below, ?_⟩
  simp only [firstPoolFrame, pageSize] at *
  omega

end Layout

namespace Manager

variable {layout : Layout}

theorem leaf_boot_of_le (console : Console) {addr : LinearAddr}
    (above : layout.memoryEnd ≤ addr.toNat) :
    ((boot layout console).memory.leaf addr.place).isPresent = false := by
  have sound := sound_boot layout console
  -- the last table of the kernel may be filled in part only
  by_cases kernel : addr.dirIndex < layout.kernelTables
  · have beyond : ¬ (addr.tableIndex < entriesPerTable ∧
        addr.dirIndex * entriesPerTable + addr.tableIndex < layout.totalFrames) := by
      rintro ⟨-, inside⟩
      simp only [LinearAddr.dirIndex, LinearAddr.tableIndex, Layout.totalFrames, blockSize,
        pageSize, entriesPerTable] at *
      omega
    rw [LinearAddr.place, sound.leaf_of_kernel kernel, if_neg beyond]
    exact Entry.isPresent_empty
  · have member : addr.dirIndex ∈ layout.taskBlocks :=
      Layout.mem_taskBlocks.mpr ⟨Nat.le_of_not_lt kernel, addr.dirIndex_lt⟩
    rw [PhysicalMemory.leaf_of_absent]
    · exact Entry.isPresent_empty
    · rw [LinearAddr.place, link_boot_of_task member]
      exact Entry.isPresent_empty

/-- What a machine of this layout has when it has started. -/
structure Started (layout : Layout) (console : Console) : Prop where
  directory : layout.HasReserved pageDirectory
  tables : ∀ block < layout.kernelTables, layout.HasReserved (kernelTable block)
  window : ∀ frame : Frame, frame.number < bootstrapEntries → layout.HasReserved frame
  built : mapKernel (blank layout console) = .ok () (boot layout console)
  mapped : ∀ addr : LinearAddr, addr.toNat < layout.memoryEnd → ∃ entry,
    lookup addr (boot layout console) = .ok (some entry) (boot layout console) ∧
      entry.isPresent = true ∧ entry.isWritable = true ∧ entry.isUser = true ∧
      entry.frame = ⟨addr.toNat / pageSize⟩
  unmapped : ∀ addr : LinearAddr, layout.memoryEnd ≤ addr.toNat →
    lookup addr (boot layout console) = .ok none (boot layout console)
  unlinked : ∀ index, layout.kernelTables ≤ index →
    ((boot layout console).memory.page pageDirectory).word index = 0
  counts : ∀ frame, layout.IsPooled frame → (boot layout console).refCount? frame =
    some (if frame.number * pageSize < layout.bufferEnd then bufferCount else 0)
  audited : (boot layout console).audit = .ok ()

theorem started_of_layout (layout : Layout) (console : Console) : Started layout console where
  directory := Layout.hasReserved_of_lt layout.firstPoolFrame_pos
  tables block kernel := Layout.hasReserved_of_lt
    (Nat.lt_of_le_of_lt kernel layout.kernelTables_lt_firstPoolFrame)
  window frame bound := Layout.hasReserved_of_lt
    (Nat.lt_of_lt_of_le bound layout.bootstrapEntries_le_firstPoolFrame)
  built := mapKernel_blank layout console
  mapped addr below := by
    have sound := sound_boot layout console
    obtain ⟨leaf, points, -⟩ := sound.leaf_place_identity below
    refine ⟨(boot layout console).memory.leaf addr.place, ?_, points.1, ?_, ?_, points.2⟩
    · rw [sound.lookup_eq, if_pos points.1]
    · rw [leaf]
      exact Entry.isWritable_new _ _
    · rw [leaf]
      exact Entry.isUser_new _ _
  unmapped addr above := by
    have absent := leaf_boot_of_le console above
    rw [(sound_boot layout console).lookup_eq, if_neg (Bool.eq_false_iff.mp absent)]
  unlinked index above := by
    rw [word_boot, bootWord, identityWord, if_pos rfl, if_neg (Nat.not_lt.mpr above)]
  counts frame pooled := by
    have aligned := layout.bufferEnd_aligned
    have cached : layout.IsCached frame ↔ frame.number * pageSize < layout.bufferEnd := by
      rw [Layout.IsCached, and_iff_right pooled.1]
      simp only [pageSize] at *
      omega
    rw [refCount?_eq pooled, pool_boot, FramePool.count_initial pooled, if_congr cached rfl rfl]
  audited := (sound_boot layout console).audit_eq

/-- Every machine starts, whether its layout comes from bounds that were accepted or from any count
of kilobytes, and so does the standard one. -/
theorem starts_from_every_layout (console : Console) :
    (∀ lowMem bufferEnd memoryEnd layout,
      Layout.ofBounds lowMem bufferEnd memoryEnd = .ok layout →
        (layout.lowMem = lowMem ∧ layout.bufferEnd = bufferEnd ∧ layout.memoryEnd = memoryEnd) ∧
          Started layout console) ∧
    (∀ kilobytes, ∃ layout, Layout.ofExtendedMemory kilobytes = .ok layout ∧
      layout.memoryEnd = min Layout.maxMemory (truncPage (1048576 + 1024 * kilobytes)) ∧
      Started layout console) ∧
    Started .standard console := by
  refine ⟨?_, ?_, started_of_layout .standard console⟩
  · intro lowMem bufferEnd memoryEnd layout accepted
    exact ⟨Layout.eq_of_ofBounds accepted, started_of_layout layout console⟩
  · intro kilobytes
    obtain ⟨layout, accepted, size⟩ := Layout.exists_ofExtendedMemory kilobytes
    exact ⟨layout, accepted, size, started_of_layout layout console⟩

/-- The second table of this machine maps one page. -/
theorem starts_from_every_layout_cacheOnly :
    Layout.ofBounds 655360 4198400 4198400 = .ok .cacheOnly ∧ Started .cacheOnly .empty := by
  have accepted : Layout.ofBounds 655360 4198400 4198400 = .ok .cacheOnly :=
    Layout.ofBounds_self .cacheOnly
  exact ⟨accepted, ((starts_from_every_layout .empty).1 _ _ _ _ accepted).2⟩

end Manager

end PagedMemory

import PagedMemory.Error

/-!
The bounds of physical memory. Below `lowMem` lie the directory and the kernel's tables, which are
never pooled; up to `bufferEnd` the buffer cache, taken for good; up to `memoryEnd` the frames that
tasks use. A layout holds the proof that its bounds are in order.
-/

namespace PagedMemory

/-- Bytes below `lowMem` that a machine of `memoryEnd` bytes needs: the directory and the kernel's
tables, and in any case the window that is copied from linear address 0. -/
def reservedBytes (memoryEnd : Nat) : Nat :=
  max ((1 + blocksSpanned memoryEnd) * pageSize) (bootstrapEntries * pageSize)

structure Layout where
  lowMem : Nat
  bufferEnd : Nat
  memoryEnd : Nat
  lowMem_aligned : lowMem % pageSize = 0
  bufferEnd_aligned : bufferEnd % pageSize = 0
  memoryEnd_aligned : memoryEnd % pageSize = 0
  lowMem_le_bufferEnd : lowMem ≤ bufferEnd
  bufferEnd_le_memoryEnd : bufferEnd ≤ memoryEnd
  memoryEnd_fits : memoryEnd + blockSize ≤ addressSpace
  reservedBytes_le_lowMem : reservedBytes memoryEnd ≤ lowMem
  deriving DecidableEq

namespace Layout

def defaultLowMem : Nat := 1048576

def maxMemory : Nat := 16777216

def ofBounds (lowMem bufferEnd memoryEnd : Nat) : Except LayoutError Layout :=
  if lowAligned : lowMem % pageSize = 0 then
    if bufferAligned : bufferEnd % pageSize = 0 then
      if endAligned : memoryEnd % pageSize = 0 then
        if ordered : lowMem ≤ bufferEnd ∧ bufferEnd ≤ memoryEnd then
          if fits : memoryEnd + blockSize ≤ addressSpace then
            if room : reservedBytes memoryEnd ≤ lowMem then
              .ok ⟨lowMem, bufferEnd, memoryEnd, lowAligned, bufferAligned, endAligned,
                ordered.1, ordered.2, fits, room⟩
            else .error (.lowMemTooSmall lowMem (reservedBytes memoryEnd))
          else .error (.tooLarge memoryEnd)
        else .error (.unordered lowMem bufferEnd memoryEnd)
      else .error (.unaligned memoryEnd)
    else .error (.unaligned bufferEnd)
  else .error (.unaligned lowMem)

def saturate (n : Nat) : Nat := min n (addressSpace - 1)

/-- Sizes memory from the kilobytes found above the first megabyte. The buffer cache ends at 2 MiB
on a machine of more than 6 MiB, and is empty on a smaller one. -/
def ofExtendedMemory (kilobytes : Nat) : Except LayoutError Layout :=
  let size := truncPage (saturate (1048576 + saturate (kilobytes * 1024)))
  let memoryEnd := min size maxMemory
  let bufferEnd := if memoryEnd > 6291456 then 2097152 else 1048576
  ofBounds defaultLowMem bufferEnd memoryEnd

def standard : Layout :=
  ⟨defaultLowMem, 2097152, maxMemory, by decide, by decide, by decide, by decide, by decide,
    by decide, by decide⟩

instance : Inhabited Layout := ⟨standard⟩

def totalFrames (layout : Layout) : Nat := layout.memoryEnd / pageSize

def poolFrames (layout : Layout) : Nat := (layout.memoryEnd - layout.lowMem) / pageSize

def firstPoolFrame (layout : Layout) : Nat := layout.lowMem / pageSize

def bufferFrames (layout : Layout) : Nat := (layout.bufferEnd - layout.lowMem) / pageSize

def kernelTables (layout : Layout) : Nat := blocksSpanned layout.memoryEnd

def isReserved (layout : Layout) (frame : Frame) : Bool := frame.number < layout.firstPoolFrame

theorem firstPoolFrame_add_poolFrames (layout : Layout) :
    layout.firstPoolFrame + layout.poolFrames = layout.totalFrames := by
  have := layout.lowMem_aligned
  have := layout.memoryEnd_aligned
  have := layout.lowMem_le_bufferEnd
  have := layout.bufferEnd_le_memoryEnd
  simp only [firstPoolFrame, poolFrames, totalFrames, pageSize] at *
  omega

theorem bufferFrames_le_poolFrames (layout : Layout) : layout.bufferFrames ≤ layout.poolFrames :=
  Nat.div_le_div_right (Nat.sub_le_sub_right layout.bufferEnd_le_memoryEnd _)

theorem kernelTables_lt_firstPoolFrame (layout : Layout) :
    layout.kernelTables < layout.firstPoolFrame := by
  have room := layout.reservedBytes_le_lowMem
  have aligned := layout.lowMem_aligned
  simp only [reservedBytes, kernelTables, firstPoolFrame, pageSize, bootstrapEntries] at *
  omega

theorem kernelTables_lt_entriesPerDirectory (layout : Layout) :
    layout.kernelTables < entriesPerDirectory := by
  have fits := layout.memoryEnd_fits
  simp only [kernelTables, blocksSpanned_eq, blockSize, addressSpace, entriesPerDirectory] at *
  omega

end Layout

end PagedMemory

import PagedMemory.Entry
import PagedMemory.Fault.Basic
import PagedMemory.Halt
import PagedMemory.Memory.Physical
import PagedMemory.Memory.Pool

/-!
The memory manager: physical memory, the counts of its frames, and the tables that lie in it. What
an operation on it did before it failed stays. The directory is frame 0. `entryAt_eq`,
`setEntry_eq` and `allocateFrame_eq` say in full what the basic operations do.
-/

namespace PagedMemory

/-- Memory, counts and books of a machine with this layout. -/
structure Manager (layout : Layout) where
  memory : PhysicalMemory layout.totalFrames
  pool : FramePool layout
  faults : FaultStats
  /-- How often the processor's cache of entries was flushed. -/
  tlbFlushes : Nat
  /-- Whether an entry was written since the last flush. -/
  tlbStale : Bool
  console : Console
  deriving DecidableEq

abbrev Operation (layout : Layout) (ε : Type) := EStateM ε (Manager layout)

namespace Operation

variable {layout : Layout} {ε α : Type}

def attempt {δ : Type} (operation : Operation layout ε α) : Operation layout δ (Except ε α) :=
  fun m => match operation m with
  | .ok value m => .ok (.ok value) m
  | .error error m => .ok (.error error) m

def after (operation : Operation layout ε α) (m : Manager layout) : Manager layout :=
  match operation m with
  | .ok _ m => m
  | .error _ m => m

theorem after_of_ok {operation : Operation layout ε α} {m m' : Manager layout} {value : α}
    (h : operation m = .ok value m') : operation.after m = m' := by
  simp only [after, h]

def orFatal [OfFatal ε] (operation : Operation layout FatalError α) : Operation layout ε α :=
  operation.adaptExcept OfFatal.ofFatal

def ask (question : Manager layout → Except ε α) : Operation layout ε α := fun m =>
  match question m with
  | .ok value => .ok value m
  | .error error => .error error m

def onMemory (access : PhysicalMemory.Access layout.totalFrames α) :
    Operation layout FatalError α :=
  fun ⟨memory, pool, faults, flushes, stale, console⟩ =>
    match access memory with
    | .ok value memory => .ok value ⟨memory, pool, faults, flushes, stale, console⟩
    | .error error memory => .error error ⟨memory, pool, faults, flushes, stale, console⟩

def onPool (change : FramePool.Change layout ε α) : Operation layout ε α :=
  fun ⟨memory, pool, faults, flushes, stale, console⟩ =>
    match change pool with
    | .ok value pool => .ok value ⟨memory, pool, faults, flushes, stale, console⟩
    | .error error pool => .error error ⟨memory, pool, faults, flushes, stale, console⟩

def onConsole (output : EStateM ε Console α) : Operation layout ε α :=
  fun ⟨memory, pool, faults, flushes, stale, console⟩ =>
    match output console with
    | .ok value console => .ok value ⟨memory, pool, faults, flushes, stale, console⟩
    | .error error console => .error error ⟨memory, pool, faults, flushes, stale, console⟩

def say (text : String) : Operation layout ε Unit :=
  modify fun m => { m with console := m.console.writeLine text }

def count (change : FaultStats → FaultStats) : Operation layout ε Unit :=
  modify fun m => { m with faults := change m.faults }

def orHalt (operation : Operation layout FatalError α) : Operation layout Panic α := do
  match ← attempt operation with
  | .ok value => return value
  | .error error => onConsole error.halt

end Operation

namespace Manager

variable {layout : Layout} {ε α : Type}

open Operation

def pageDirectory : Frame := ⟨0⟩

def dirSlot (dirIndex : Nat) : Slot := ⟨pageDirectory, dirIndex⟩

def entryAt (m : Manager layout) (slot : Slot) : Except FatalError Entry := do
  return ⟨← m.memory.readWord slot⟩

def dirEntry (m : Manager layout) (dirIndex : Nat) : Except FatalError Entry :=
  m.entryAt (dirSlot dirIndex)

def setEntry (slot : Slot) (entry : Entry) : Operation layout FatalError Unit := do
  onMemory (PhysicalMemory.writeWord slot entry.raw)
  modify fun m => { m with tlbStale := true }

def flushed (m : Manager layout) : Manager layout :=
  { m with tlbFlushes := m.tlbFlushes + 1, tlbStale := false }

def flush : Operation layout ε Unit := modify flushed

def thenFlush (operation : Operation layout ε α) : Operation layout ε α := fun m =>
  match operation m with
  | .ok value m => .ok value m.flushed
  | .error error m => .error error m.flushed

/-- Takes a free frame and fills it with zeros; `none` when all are in use. A frame of the pool can
always be zeroed: `allocateOrHalt_eq`. -/
def allocateFrame : Operation layout ε (Option Frame) := do
  match ← onPool FramePool.allocate with
  | none => return none
  | some frame =>
      modify fun m => { m with memory := m.memory.putPage frame none }
      return some frame

def freeFrame (frame : Frame) : Operation layout FatalError Unit := onPool (FramePool.free frame)

def refCount? (m : Manager layout) (frame : Frame) : Option Nat := m.pool.count? frame

theorem entryAt_eq (m : Manager layout) (slot : Slot) :
    m.entryAt slot =
      if slot.frame.number < layout.totalFrames then
        .ok ⟨(m.memory.page slot.frame).word slot.index⟩
      else .error (.nonexistentPage slot.frame) := by
  simp only [entryAt, PhysicalMemory.readWord, PhysicalMemory.require]
  split <;> rfl

theorem setEntry_eq (slot : Slot) (entry : Entry) (m : Manager layout) :
    setEntry slot entry m =
      if slot.frame.number < layout.totalFrames then
        .ok () { m with
          memory := m.memory.modifyPage slot.frame (·.setWord slot.index entry.raw)
          tlbStale := true }
      else .error (.nonexistentPage slot.frame) m := by
  simp only [setEntry, bind, EStateM.bind, onMemory, PhysicalMemory.writeWord,
    PhysicalMemory.change, PhysicalMemory.require]
  by_cases h : slot.frame.number < layout.totalFrames
  · simp only [if_pos h]
    rfl
  · simp only [if_neg h]

theorem flush_eq (m : Manager layout) : (flush : Operation layout ε Unit) m = .ok () m.flushed :=
  rfl

theorem allocateFrame_eq (m : Manager layout) :
    (allocateFrame : Operation layout ε (Option Frame)) m =
      match m.pool.highestFree with
      | none => .ok none m
      | some i =>
          .ok (some (FramePool.frameAt i))
            { m with
              memory := m.memory.putPage (FramePool.frameAt i) none
              pool :=
                { m.pool with
                  counts := m.pool.counts.set i 1 i.isLt
                  allocations := m.pool.allocations + 1 } } := by
  simp only [allocateFrame, bind, EStateM.bind, onPool, FramePool.allocate]
  cases m.pool.highestFree <;> rfl

/-- The same with the access to memory that could fail, and the stop of the machine if it did. -/
def allocateOrHalt : Operation layout Panic (Option Frame) := do
  match ← onPool FramePool.allocate with
  | none => return none
  | some frame =>
      orHalt (onMemory (PhysicalMemory.zeroFrame frame))
      return some frame

theorem orHalt_zeroFrame_eq (i : Fin layout.poolFrames) (m : Manager layout) :
    orHalt (onMemory (PhysicalMemory.zeroFrame (FramePool.frameAt i))) m =
      .ok () { m with memory := m.memory.putPage (FramePool.frameAt i) none } := by
  have zeroed := m.memory.zeroFrame_eq (FramePool.frameAt_lt i)
  simp only [orHalt, attempt, onMemory, bind, EStateM.bind, zeroed]
  rfl

theorem allocateOrHalt_eq (m : Manager layout) : allocateOrHalt m = allocateFrame m := by
  rw [allocateFrame_eq]
  simp only [allocateOrHalt, bind, EStateM.bind, onPool, FramePool.allocate]
  cases m.pool.highestFree with
  | none => rfl
  | some i =>
      simp only [EStateM.bind, orHalt_zeroFrame_eq]
      rfl

end Manager

end PagedMemory

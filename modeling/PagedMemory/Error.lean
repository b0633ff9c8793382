import PagedMemory.Address

/-!
What can go wrong, by who has to deal with it. Running out of frames is for the caller; a killed
task is for the scheduler; a fatal error means that the bookkeeping contradicts itself, and stops
the machine.
-/

namespace PagedMemory

structure OutOfMemory where
  deriving DecidableEq, Repr

def OutOfMemory.message (_ : OutOfMemory) : String := "out of memory: no free page frame"

/-- A contradiction in the bookkeeping, or a request that no correct caller makes. -/
inductive FatalError where
  /-- The range given to `operation` does not start at a block boundary. -/
  | misaligned (operation : String) (addr : LinearAddr)
  /-- The range given to `operation` leaves the directory. -/
  | outOfRange (operation : String) (addr : LinearAddr)
  /-- The destination of a duplication has a table already. -/
  | alreadyExists (dirIndex : Nat)
  | doubleFree (frame : Frame)
  | nonexistentPage (frame : Frame)
  /-- The range at linear address 0 belongs to the kernel. -/
  | releaseNullRange
  | alreadyMapped (addr : LinearAddr)
  | notMapped (addr : LinearAddr)
  | countOverflow (frame : Frame)
  /-- The tables hold `expected` references to `frame`, the pool recorded `recorded`. -/
  | countMismatch (frame : Frame) (expected recorded : Nat)
  deriving DecidableEq, Repr

def FatalError.message : FatalError → String
  | misaligned operation addr => s!"{operation} called with wrong alignment ({addr.text})"
  | outOfRange operation addr =>
      s!"{operation} runs past the end of the page directory ({addr.text})"
  | alreadyExists dirIndex => s!"copy_page_tables: already exist (directory entry {dirIndex})"
  | doubleFree frame => s!"trying to free free page ({frame.text})"
  | nonexistentPage frame => s!"trying to access nonexistent page ({frame.text})"
  | releaseNullRange => "trying to free up swapper memory space"
  | alreadyMapped addr => s!"page already mapped at {addr.text}"
  | notMapped addr => s!"write-protect fault on unmapped address {addr.text}"
  | countOverflow frame => s!"reference count overflow on {frame.text}"
  | countMismatch frame expected recorded =>
      s!"mem_map disagrees with {frame.text}: counted {expected} mappings, recorded {recorded}"

class OfFatal (ε : Type) where
  ofFatal : FatalError → ε

inductive MemoryError where
  | outOfMemory
  | fatal (error : FatalError)
  deriving DecidableEq, Repr

namespace MemoryError

instance : OfFatal MemoryError := ⟨fatal⟩

def isFatal : MemoryError → Bool
  | outOfMemory => false
  | fatal _ => true

def message : MemoryError → String
  | outOfMemory => OutOfMemory.message {}
  | fatal error => error.message

end MemoryError

inductive AccessError where
  /-- A fault found no frame; the task has to go. -/
  | killed
  | fatal (error : FatalError)
  deriving DecidableEq, Repr

namespace AccessError

instance : OfFatal AccessError := ⟨fatal⟩

def message : AccessError → String
  | killed => "task killed while resolving a fault"
  | fatal error => error.message

end AccessError

inductive LayoutError where
  | unaligned (addr : Nat)
  | unordered (lowMem bufferEnd memoryEnd : Nat)
  | lowMemTooSmall (lowMem needed : Nat)
  | tooLarge (memoryEnd : Nat)
  deriving DecidableEq, Repr

def LayoutError.message : LayoutError → String
  | unaligned addr => s!"address {Text.hex addr} is not page aligned"
  | unordered lowMem bufferEnd memoryEnd =>
      s!"bounds out of order: low_mem {Text.hex lowMem}, buffer_end {Text.hex bufferEnd}, " ++
        s!"memory_end {Text.hex memoryEnd}"
  | lowMemTooSmall lowMem needed =>
      s!"low_mem {Text.hex lowMem} cannot hold kernel tables (needs {Text.hex needed})"
  | tooLarge memoryEnd =>
      s!"memory_end {Text.hex memoryEnd} leaves no room in the linear address space"

end PagedMemory

import PagedMemory.Address

/-!
Page faults: the code that the processor pushes, the ways a fault can end, and the counters kept
of them.
-/

namespace PagedMemory

structure FaultCode where
  /-- The page is there and forbids the access; otherwise the page is absent. -/
  present : Bool
  /-- The access was a write. -/
  write : Bool
  /-- The access came from user mode. -/
  user : Bool
  deriving DecidableEq, Repr

namespace FaultCode

def ofNat (n : Nat) : FaultCode := ⟨n % 2 == 1, n / 2 % 2 == 1, n / 4 % 2 == 1⟩

def ofNat? (n : Nat) : Option FaultCode := if n < 8 then some (ofNat n) else none

def toNat (code : FaultCode) : Nat :=
  code.present.toNat + 2 * code.write.toNat + 4 * code.user.toNat

theorem ofNat_toNat (code : FaultCode) : ofNat code.toNat = code := by
  rcases code with ⟨_ | _, _ | _, _ | _⟩ <;> decide

end FaultCode

inductive Resolution where
  /-- The frame had one owner: the mapping was made writable in place. -/
  | restored
  /-- The frame was shared: the mapping now points at this copy. -/
  | copied (frame : Frame)
  /-- The page was absent: the mapping now points at this zeroed frame. -/
  | zeroFilled (frame : Frame)
  /-- No frame was left: the task has to be sent `Signal.segmentationViolation`. -/
  | killed
  deriving DecidableEq, Repr

structure FaultStats where
  total : Nat
  writeProtect : Nat
  noPage : Nat
  restored : Nat
  copied : Nat
  zeroFilled : Nat
  killed : Nat
  deriving DecidableEq, Repr

def FaultStats.zero : FaultStats := ⟨0, 0, 0, 0, 0, 0, 0⟩

end PagedMemory

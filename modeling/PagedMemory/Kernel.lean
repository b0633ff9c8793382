import PagedMemory.Access
import PagedMemory.Audit
import PagedMemory.Boot
import PagedMemory.Space.Duplication

/-!
The kernel's entry points. They need a running manager, stop the machine on a fatal error, and send
a task that a fault could not serve its signal once the manager has finished, so that the task's
exit may release the task's own memory.
-/

namespace PagedMemory

def programName : String := "vmcore"

def programVersion : String := "0.1.0"

inductive Signal where
  | segmentationViolation
  deriving DecidableEq, Repr

def Signal.number : Signal → Nat
  | segmentationViolation => 11

/-- What a task does when it is told to exit: it releases a range of address space, or nothing. -/
structure Task where
  exitRange : Option (LinearAddr × Nat)
  deriving DecidableEq, Repr

inductive Machine where
  | off (console : Console)
  | running {layout : Layout} (manager : Manager layout)

structure Kernel where
  machine : Machine
  /-- Every signal sent so far, the latest first. -/
  signals : List Signal

namespace Kernel

variable {α : Type}

abbrev Entrypoint := EStateM Panic Kernel

def off : Kernel := ⟨.off .empty, []⟩

def console (kernel : Kernel) : Console :=
  match kernel.machine with
  | .off console => console
  | .running manager => manager.console

def mapConsole (kernel : Kernel) (change : Console → Console) : Kernel :=
  match kernel with
  | ⟨.off console, signals⟩ => ⟨.off (change console), signals⟩
  | ⟨.running manager, signals⟩ =>
      ⟨.running { manager with console := change manager.console }, signals⟩

def print (text : String) : Entrypoint Unit := modify (·.mapConsole (·.write text))

def printLine (text : String) : Entrypoint Unit := modify (·.mapConsole (·.writeLine text))

def init (layout : Layout) : Entrypoint Layout := fun kernel =>
  match kernel with
  | ⟨@Machine.running current manager, signals⟩ => .ok current ⟨.running manager, signals⟩
  | ⟨.off console, signals⟩ =>
      let announcement := s!"mem: {layout.memoryEnd / 1024}KB physical, " ++
        s!"buffer cache to {Text.hex layout.bufferEnd}, {layout.poolFrames} pages in pool"
      .ok layout ⟨.running (Manager.boot layout (console.writeLine announcement)), signals⟩

def withManager (operation : {layout : Layout} → Operation layout Panic α) : Entrypoint α :=
  fun kernel => match kernel with
  | ⟨.off console, signals⟩ => .error .notInitialized ⟨.off console, signals⟩
  | ⟨.running manager, signals⟩ =>
      match operation manager with
      | .ok value manager => .ok value ⟨.running manager, signals⟩
      | .error panic manager => .error panic ⟨.running manager, signals⟩

open Operation

def orOutOfMemory {layout : Layout} (operation : Operation layout MemoryError α) :
    Operation layout Panic (Except OutOfMemory α) := do
  match ← attempt operation with
  | .ok value => return .ok value
  | .error error => return .error (← onConsole error.orHalt)

def orKilled {layout : Layout} (operation : Operation layout AccessError Unit) :
    Operation layout Panic Bool := do
  match ← attempt operation with
  | .ok _ => return true
  | .error .killed => return false
  | .error (.fatal error) => onConsole error.halt

def allocatePage : Entrypoint (Option PhysicalAddr) := do
  return (← withManager Manager.allocateFrame).map Frame.addr

def freePage (addr : PhysicalAddr) : Entrypoint Unit :=
  withManager (orHalt (Manager.freeFrame addr.frame))

def mapPage (page : PhysicalAddr) (addr : LinearAddr) : Entrypoint (Except OutOfMemory Unit) :=
  withManager (orOutOfMemory (Manager.thenFlush (Manager.mapFrame page.frame addr true)))

def duplicate (source target : LinearAddr) (size : Nat) :
    Entrypoint (Except OutOfMemory Unit) :=
  withManager (orOutOfMemory (Manager.duplicate source target size))

def release (start : LinearAddr) (size : Nat) : Entrypoint Unit :=
  withManager (orHalt (Manager.release start size))

def fork (parent child : LinearAddr) (limit : Nat) : Entrypoint (Except OutOfMemory Unit) :=
  withManager (orOutOfMemory (Manager.fork parent child limit))

def installArguments (pages : Vector (Option Frame) Manager.argumentPages) (top : LinearAddr) :
    Entrypoint (Except OutOfMemory Unit) :=
  withManager (orOutOfMemory (Manager.installArguments pages top))

/-- Sends the task a signal: it is on record before the task's exit runs. -/
def exitTask (task : Task) (signal : Signal) : Entrypoint Unit := do
  modify fun kernel => { kernel with signals := signal :: kernel.signals }
  match task.exitRange with
  | some (start, size) => release start size
  | none => pure ()

def deliver (task : Task) (resolution : Resolution) : Entrypoint Resolution := do
  if resolution = .killed then
    exitTask task .segmentationViolation
  return resolution

def pageFault (code : Nat) (addr : LinearAddr) (task : Task) : Entrypoint Resolution := do
  deliver task (← withManager (orHalt (Manager.resolveFault (FaultCode.ofNat code) addr)))

def writeProtectFault (addr : LinearAddr) (task : Task) : Entrypoint Resolution := do
  deliver task (← withManager (orHalt (Manager.resolveWriteProtect addr)))

def noPageFault (addr : LinearAddr) (task : Task) : Entrypoint Resolution := do
  deliver task (← withManager (orHalt (Manager.resolveNoPage addr)))

def verifyWrite (addr : LinearAddr) (task : Task) : Entrypoint (Option Resolution) := do
  match ← withManager (orHalt (Manager.verifyWrite addr)) with
  | some resolution => return some (← deliver task resolution)
  | none => return none

def deliverUnless (task : Task) (survived : Bool) : Entrypoint Bool := do
  if !survived then
    exitTask task .segmentationViolation
  return survived

def verifyArea (addr : LinearAddr) (size : Nat) (task : Task) : Entrypoint Bool := do
  deliverUnless task (← withManager (orKilled (Manager.verifyArea addr size)))

def copyToUser (addr : LinearAddr) (data : List UInt8) (task : Task) : Entrypoint Bool := do
  deliverUnless task (← withManager (orKilled (Manager.copyToUser addr data)))

def memoryUsage : Entrypoint Manager.Usage := withManager (orHalt Manager.usage)

def poolStats : Entrypoint PoolStats := withManager do return (← get).pool.stats

def faultStats : Entrypoint FaultStats := withManager do return (← get).faults

end Kernel

end PagedMemory

import PagedMemory.Console
import PagedMemory.Error

/-!
Stopping the machine. A fatal error is written to the console before anything else happens; what
the machine did up to then stays.
-/

namespace PagedMemory

inductive Panic where
  | fatal (error : FatalError)
  /-- An entry point was called before the memory manager was set up. -/
  | notInitialized
  deriving DecidableEq, Repr

def Panic.message : Panic → String
  | fatal error => error.message
  | notInitialized => "Memory manager not initialized"

def FatalError.halt {α : Type} (error : FatalError) : EStateM Panic Console α := fun console =>
  .error (.fatal error) (console.writeLine ("Kernel panic: " ++ error.message))

def MemoryError.orHalt : MemoryError → EStateM Panic Console OutOfMemory
  | outOfMemory => pure {}
  | fatal error => error.halt

end PagedMemory

/-!
The kernel's console: a log of bounded size, and a sink that receives every text in full. A
character that does not fit empties the log first, so the log is always the end of what was
written.
-/

namespace PagedMemory

def logCapacity : Nat := 4096

structure Console where
  log : String
  /-- What the sink has received since it was installed, if there is one. -/
  sink : Option (Array String)
  deriving DecidableEq, Repr

namespace Console

def empty : Console := ⟨"", none⟩

/-- Appends a character to a log, or starts over with it when the log is full. -/
def pushChar (log : String) (c : Char) : String :=
  if log.utf8ByteSize + c.utf8Size ≤ logCapacity then log.push c else String.singleton c

def write (console : Console) (text : String) : Console where
  log := text.toList.foldl pushChar console.log
  sink := console.sink.map (·.push text)

def writeLine (console : Console) (text : String) : Console := console.write (text ++ "\n")

def clear (console : Console) : Console := { console with log := "" }

def installSink (console : Console) : Console := { console with sink := some #[] }

def removeSink (console : Console) : Console := { console with sink := none }

def received (console : Console) : String :=
  match console.sink with
  | some texts => texts.foldl (· ++ ·) ""
  | none => ""

theorem write_append (console : Console) (first second : String) :
    (console.write (first ++ second)).log = ((console.write first).write second).log := by
  simp [write, String.toList_append]

end Console

end PagedMemory

import PagedMemory.Manager

/-!
Single mappings: the walk from a linear address to its entry, and the mapping of one frame at one
page. A table made for a mapping that then fails stays linked; releasing the block gives it back.
-/

namespace PagedMemory.Manager

variable {layout : Layout} {ε : Type}

open Operation

def argumentPages : Nat := 32

def leafSlot (m : Manager layout) (addr : LinearAddr) : Except FatalError (Option Slot) := do
  let link ← m.dirEntry addr.dirIndex
  return if link.isPresent then some ⟨link.frame, addr.tableIndex⟩ else none

def walk (m : Manager layout) (addr : LinearAddr) : Except FatalError (Option Entry) := do
  match ← m.leafSlot addr with
  | none => return none
  | some slot =>
      let entry ← m.entryAt slot
      return if entry.isPresent then some entry else none

def lookup (addr : LinearAddr) : Operation layout Panic (Option Entry) :=
  orHalt (ask (·.walk addr))

def tableFor (dirIndex : Nat) : Operation layout MemoryError Frame := do
  let link ← orFatal (ask (·.dirEntry dirIndex))
  if link.isPresent then
    return link.frame
  else
    match ← allocateFrame with
    | none => throw .outOfMemory
    | some table =>
        orFatal (setEntry (dirSlot dirIndex) (Entry.new table .userWritable))
        return table

def remarkOnCount (frame : Frame) (addr : LinearAddr) : Operation layout ε Unit := do
  match (← get).pool.count? frame with
  | none => say s!"Trying to put page {frame.addr.text} at {addr.text}"
  | some 1 => pure ()
  | some _ => say s!"mem_map disagrees with {frame.addr.text} at {addr.text}"

def mapFrame (frame : Frame) (addr : LinearAddr) (writable : Bool) :
    Operation layout MemoryError Unit := do
  orFatal (ask fun _ => PhysicalMemory.require layout.totalFrames frame)
  remarkOnCount frame addr
  let slot : Slot := ⟨← tableFor addr.dirIndex, addr.tableIndex⟩
  let entry ← orFatal (ask (·.entryAt slot))
  if entry.isPresent then
    throw (.fatal (.alreadyMapped addr))
  else
    orFatal (setEntry slot (Entry.new frame ⟨true, writable, true⟩))

/-- Maps the pages one below the other, the first just below `above`. An empty slot keeps its page
free. -/
def mapDownward : List (Option Frame) → LinearAddr → Operation layout MemoryError Unit
  | [], _ => pure ()
  | none :: rest, above => mapDownward rest above.pageBelow
  | some frame :: rest, above => do
      mapFrame frame above.pageBelow true
      mapDownward rest above.pageBelow

def installArguments (pages : Vector (Option Frame) argumentPages) (top : LinearAddr) :
    Operation layout MemoryError Unit :=
  thenFlush (mapDownward pages.toList.reverse top)

end PagedMemory.Manager

import PagedMemory.Space.Release

/-!
Duplicating address space by sharing it. Tables are copied and pages are not: each leaf loses its
writable bit on both sides and its frame gains one reference, so that the first write on either
side takes a private copy. Reserved frames are mapped on both sides as they are.
-/

namespace PagedMemory.Manager

variable {layout : Layout}

open Operation

def checkDuplicate (source target : LinearAddr) (size : Nat) : Except FatalError Unit := do
  requireAligned "copy_page_tables" source
  requireAligned "copy_page_tables" target
  requireInDirectory "copy_page_tables" source (blocksSpanned size)
  requireInDirectory "copy_page_tables" target (blocksSpanned size)

def shareLeaf (source target : Frame) (index : Nat) : Operation layout FatalError Unit := do
  let entry ← ask (·.entryAt ⟨source, index⟩)
  if entry.isPresent then
    if layout.isReserved entry.frame then
      setEntry ⟨target, index⟩ entry
    else
      onPool (FramePool.share entry.frame)
      setEntry ⟨source, index⟩ entry.writeProtected
      setEntry ⟨target, index⟩ entry.writeProtected

def duplicateBlock (entries source target : Nat) : Operation layout MemoryError Unit := do
  let occupied ← orFatal (ask (·.dirEntry target))
  if occupied.isPresent then
    throw (.fatal (.alreadyExists target))
  else
    let link ← orFatal (ask (·.dirEntry source))
    if link.isPresent then
      match ← allocateFrame with
      | none => throw .outOfMemory
      | some table =>
          orFatal do
            setEntry (dirSlot target) (Entry.new table .userWritable)
            (List.range entries).forM (shareLeaf link.frame table)

/-- Leaves that are shared per block: at linear address 0 only the window of the boot path. -/
def sharedEntries (source : LinearAddr) : Nat :=
  if source.toNat = 0 then bootstrapEntries else entriesPerTable

/-- Shares `size` bytes of `source` with the empty range at `target`. When it fails, the blocks
already shared stay shared. -/
def duplicate (source target : LinearAddr) (size : Nat) : Operation layout MemoryError Unit := do
  orFatal (ask fun _ => checkDuplicate source target size)
  thenFlush ((List.range (blocksSpanned size)).forM fun block =>
    duplicateBlock (sharedEntries source) (source.dirIndex + block) (target.dirIndex + block))

/-- Shares a parent's memory with a new child. Without enough frames the child's range is released
again. -/
def fork (parent child : LinearAddr) (limit : Nat) : Operation layout MemoryError Unit := do
  match ← attempt (duplicate parent child limit) with
  | .ok _ => pure ()
  | .error .outOfMemory =>
      orFatal (release child limit)
      throw .outOfMemory
  | .error (.fatal error) => throw (.fatal error)

end PagedMemory.Manager

import PagedMemory.Manager

/-!
Giving back address space in whole blocks. Each present leaf drops one reference, then the table is
freed and unlinked. A range is checked before anything is touched.
-/

namespace PagedMemory.Manager

variable {layout : Layout}

open Operation

def requireAligned (operation : String) (addr : LinearAddr) : Except FatalError Unit :=
  if addr.isBlockAligned then .ok () else .error (.misaligned operation addr)

def requireInDirectory (operation : String) (addr : LinearAddr) (blocks : Nat) :
    Except FatalError Unit :=
  if addr.dirIndex + blocks ≤ entriesPerDirectory then .ok ()
  else .error (.outOfRange operation addr)

def checkRelease (start : LinearAddr) (size : Nat) : Except FatalError Unit := do
  requireAligned "free_page_tables" start
  if start.toNat = 0 then .error .releaseNullRange else .ok ()
  requireInDirectory "free_page_tables" start (blocksSpanned size)

def releaseLeaf (table : Frame) (index : Nat) : Operation layout FatalError Unit := do
  let entry ← ask (·.entryAt ⟨table, index⟩)
  if entry.isPresent then
    freeFrame entry.frame
  setEntry ⟨table, index⟩ .empty

def releaseBlock (dirIndex : Nat) : Operation layout FatalError Unit := do
  let link ← ask (·.dirEntry dirIndex)
  if link.isPresent then
    (List.range entriesPerTable).forM (releaseLeaf link.frame)
    freeFrame link.frame
    setEntry (dirSlot dirIndex) .empty

def release (start : LinearAddr) (size : Nat) : Operation layout FatalError Unit := do
  ask fun _ => checkRelease start size
  thenFlush ((List.range' start.dirIndex (blocksSpanned size)).forM releaseBlock)

end PagedMemory.Manager

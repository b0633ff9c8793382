import PagedMemory.Manager

/-!
Looking at all task tables at once: how many pages each maps, and whether the counts of the pool
agree with the references that the tables hold. The kernel's tables and the buffer cache are left
out of both.
-/

namespace PagedMemory.Manager

variable {layout : Layout}

open Operation

structure TaskTable where
  dirIndex : Nat
  table : Frame
  leaves : List Entry

def leavesOf (m : Manager layout) (table : Frame) : Except FatalError (List Entry) := do
  let entries ← (List.range entriesPerTable).mapM fun index => m.entryAt ⟨table, index⟩
  return entries.filter Entry.isPresent

def taskTable? (m : Manager layout) (dirIndex : Nat) : Except FatalError (Option TaskTable) := do
  let link ← m.dirEntry dirIndex
  if link.isPresent then
    return some ⟨dirIndex, link.frame, ← m.leavesOf link.frame⟩
  else
    return none

def taskTables (m : Manager layout) : Except FatalError (List TaskTable) := do
  let tables ← (List.range' layout.kernelTables (entriesPerDirectory - layout.kernelTables)).mapM
    m.taskTable?
  return tables.filterMap id

structure Usage where
  free : Nat
  total : Nat
  /-- Directory index and present leaves. -/
  tables : List (Nat × Nat)
  deriving DecidableEq, Repr

def Usage.text (usage : Usage) : String :=
  s!"{usage.free} pages free (of {usage.total})\n" ++
    String.join (usage.tables.map fun (dirIndex, present) =>
      s!"Pg-dir[{dirIndex}] uses {present} pages\n")

def usage : Operation layout FatalError Usage := do
  let tables ← ask taskTables
  let stats := (← get).pool.stats
  let usage : Usage :=
    ⟨stats.free, stats.total, tables.map fun table => (table.dirIndex, table.leaves.length)⟩
  modify fun m => { m with console := m.console.write usage.text }
  return usage

def references (m : Manager layout) : Except FatalError (List Frame) := do
  return (← m.taskTables).flatMap fun table => table.table :: table.leaves.map Entry.frame

def tallyOne (counts : Vector Nat layout.poolFrames) (frame : Frame) :
    Vector Nat layout.poolFrames :=
  match FramePool.place layout frame with
  | .ok (some i) => counts.setIfInBounds i (counts.get i + 1)
  | _ => counts

def tally (layout : Layout) (frames : List Frame) : Vector Nat layout.poolFrames :=
  frames.foldl tallyOne (Vector.replicate layout.poolFrames 0)

/-- The first frame above the buffer cache whose count differs from its references. -/
def firstMismatch (m : Manager layout) (expected : Vector Nat layout.poolFrames) :
    Option (Fin layout.poolFrames) :=
  (List.finRange layout.poolFrames).find? fun i =>
    layout.bufferFrames ≤ i.val && min (expected.get i) maxCount != m.pool.counts.get i

/-- Checks the counts of the pool against the references that the tables hold. It can only succeed
while every allocated frame is mapped. -/
def audit (m : Manager layout) : Except FatalError Unit := do
  let expected := tally layout (← m.references)
  match m.firstMismatch expected with
  | none => return
  | some i =>
      throw (.countMismatch (FramePool.frameAt i) (min (expected.get i) maxCount)
        (m.pool.counts.get i))

end PagedMemory.Manager

import PagedMemory.Fault.Handling

/-!
Reading and writing a task's memory, page by page: an absent page takes a no-page fault, a write in
user mode to a read-only page a write-protect fault, and only then do the bytes move. Ranges go on
from address 0 past the top of the linear space. The kernel's own writes ignore the writable bit,
so `copyToUser` verifies the whole area before it stores anything.
-/

namespace PagedMemory.Manager

variable {layout : Layout}

open Operation

inductive AccessMode where
  | read
  | userWrite
  | kernelWrite
  deriving DecidableEq, Repr

def survive (resolution : Resolution) : Operation layout AccessError Unit :=
  if resolution = .killed then throw .killed else pure ()

def mappedEntry (addr : LinearAddr) : Operation layout FatalError Entry := do
  match ← ask (·.walk addr) with
  | some entry => return entry
  | none => throw (.notMapped addr)

def presentEntry (addr : LinearAddr) : Operation layout AccessError Entry := do
  match ← orFatal (ask (·.walk addr)) with
  | some entry => return entry
  | none =>
      survive (← orFatal (resolveNoPage addr))
      orFatal (mappedEntry addr)

/-- The frame behind `addr`, once the access may go on. -/
def backingFrame (addr : LinearAddr) (mode : AccessMode) : Operation layout AccessError Frame := do
  let entry ← presentEntry addr
  if mode = .userWrite && !entry.isWritable then
    survive (← orFatal (resolveWriteProtect addr))
    return (← orFatal (mappedEntry addr)).frame
  else
    return entry.frame

def firstChunk (addr : LinearAddr) (length : Nat) : Nat := min (pageSize - addr.pageOffset) length

theorem firstChunk_pos (addr : LinearAddr) {length : Nat} (h : length ≠ 0) :
    0 < firstChunk addr length := by
  have := addr.pageOffset_lt
  simp only [firstChunk]
  omega

def readUser (addr : LinearAddr) (length : Nat) : Operation layout AccessError (List UInt8) :=
  if h : length = 0 then
    return []
  else do
    let chunk := firstChunk addr length
    let frame ← backingFrame addr .read
    let bytes ← orFatal (ask (·.memory.readBytes frame addr.pageOffset chunk))
    have := firstChunk_pos addr h
    return bytes ++ (← readUser (addr.advance chunk) (length - chunk))
  termination_by length
  decreasing_by omega

def storeUser (mode : AccessMode) (addr : LinearAddr) (data : List UInt8) :
    Operation layout AccessError Unit :=
  if h : data.length = 0 then
    return
  else do
    let chunk := firstChunk addr data.length
    let frame ← backingFrame addr mode
    orFatal (onMemory (PhysicalMemory.writeBytes frame addr.pageOffset (data.take chunk)))
    have := firstChunk_pos addr h
    storeUser mode (addr.advance chunk) (data.drop chunk)
  termination_by data.length
  decreasing_by
    simp only [List.length_drop]
    omega

def writeUser (addr : LinearAddr) (data : List UInt8) : Operation layout AccessError Unit :=
  storeUser .userWrite addr data

/-- Writes `data` into a task's memory on the kernel's authority. Verification takes its length as a
32-bit number. -/
def copyToUser (addr : LinearAddr) (data : List UInt8) : Operation layout AccessError Unit :=
  if data.isEmpty then
    return
  else do
    verifyArea addr (data.length % addressSpace)
    storeUser .kernelWrite addr data

end PagedMemory.Manager

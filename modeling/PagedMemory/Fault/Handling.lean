import PagedMemory.Space.Mapping

/-!
Resolving faults. A write to a read-only page makes its frame exclusive: in place if the mapping is
the only owner, by a copy otherwise. An access to an absent page maps a zeroed frame. Without a
frame the fault ends in `Resolution.killed`, and the manager goes on. Nobody else's mapping is made
writable when a sharer leaves; that waits for its own fault.
-/

namespace PagedMemory.Manager

variable {layout : Layout} {ε : Type}

open Operation

def giveUp (addr : LinearAddr) : Operation layout ε Resolution := do
  say s!"out of memory at {addr.text}: task gets SIGSEGV"
  count fun faults => { faults with killed := faults.killed + 1 }
  return .killed

/-- Gives the mapping at `slot` a writable frame of its own. -/
def makeExclusive (slot : Slot) (addr : LinearAddr) : Operation layout FatalError Resolution := do
  let entry ← ask (·.entryAt slot)
  let reserved := layout.isReserved entry.frame
  if !reserved && (← get).pool.count? entry.frame == some 1 then
    setEntry slot entry.madeWritable
    flush
    count fun faults => { faults with restored := faults.restored + 1 }
    return .restored
  else
    match ← allocateFrame with
    | none => giveUp addr
    | some copy =>
        onMemory (PhysicalMemory.copyFrame entry.frame copy)
        if !reserved then
          freeFrame entry.frame
        setEntry slot (Entry.new copy .userWritable)
        flush
        count fun faults => { faults with copied := faults.copied + 1 }
        return .copied copy

def resolveWriteProtect (addr : LinearAddr) : Operation layout FatalError Resolution := do
  count fun faults =>
    { faults with total := faults.total + 1, writeProtect := faults.writeProtect + 1 }
  match ← ask (·.leafSlot addr) with
  | none => throw (.notMapped addr)
  | some slot =>
      let entry ← ask (·.entryAt slot)
      if entry.isPresent then
        makeExclusive slot addr
      else
        throw (.notMapped addr)

def resolveNoPage (addr : LinearAddr) : Operation layout FatalError Resolution := do
  count fun faults => { faults with total := faults.total + 1, noPage := faults.noPage + 1 }
  match ← allocateFrame with
  | none => giveUp addr
  | some frame =>
      match ← attempt (mapFrame frame addr.truncPage true) with
      | .ok _ =>
          flush
          count fun faults => { faults with zeroFilled := faults.zeroFilled + 1 }
          return .zeroFilled frame
      | .error .outOfMemory =>
          freeFrame frame
          giveUp addr
      | .error (.fatal error) => throw error

def resolveFault (code : FaultCode) (addr : LinearAddr) : Operation layout FatalError Resolution :=
  if code.present then resolveWriteProtect addr else resolveNoPage addr

/-- Makes the page of `addr` exclusive before the kernel writes to it. Only a present, read-only
page needs it. -/
def verifyWrite (addr : LinearAddr) : Operation layout FatalError (Option Resolution) := do
  match ← ask (·.leafSlot addr) with
  | none => return none
  | some slot =>
      let entry ← ask (·.entryAt slot)
      if entry.isPresent && !entry.isWritable then
        return some (← makeExclusive slot addr)
      else
        return none

/-- The pages that `size` bytes from `addr` on touch, up to the top of the linear space. -/
def areaPages (addr : LinearAddr) (size : Nat) : List LinearAddr :=
  let start := truncPage addr.toNat
  let stop := min (addr.toNat + size) addressSpace
  (List.range' start (coverCount (stop - start) pageSize) pageSize).map LinearAddr.ofNat

def verifyPage (page : LinearAddr) : Operation layout AccessError Unit := do
  match ← orFatal (verifyWrite page) with
  | some .killed => throw .killed
  | _ => pure ()

def verifyArea (addr : LinearAddr) (size : Nat) : Operation layout AccessError Unit :=
  (areaPages addr size).forM verifyPage

end PagedMemory.Manager

import PagedMemory.Text.Hex

/-!
The geometry of two-level paging, and the addresses it divides. A linear address names a directory
entry (4 MiB each), an entry of that block's table (one page each) and a byte of the page.
-/

namespace PagedMemory

def pageSize : Nat := 4096

def pageShift : Nat := 12

def entriesPerTable : Nat := 1024

def entriesPerDirectory : Nat := 1024

def blockSize : Nat := 4194304

def blockShift : Nat := 22

def addressSpace : Nat := 4294967296

def taskSize : Nat := 67108864

def taskSlots : Nat := 64

/-- Entries copied per table when the range at linear address 0 is duplicated. -/
def bootstrapEntries : Nat := 160

def truncPage (n : Nat) : Nat := n - n % pageSize

def roundPage (n : Nat) : Nat := truncPage (n + pageSize - 1)

def coverCount (size unit : Nat) : Nat := size / unit + if size % unit = 0 then 0 else 1

def blocksSpanned (size : Nat) : Nat := coverCount size blockSize

theorem truncPage_le (n : Nat) : truncPage n ≤ n := Nat.sub_le _ _

theorem truncPage_mod (n : Nat) : truncPage n % pageSize = 0 := by
  simp only [truncPage, pageSize]; omega

theorem blocksSpanned_eq (size : Nat) : blocksSpanned size = (size + 4194303) / 4194304 := by
  rw [blocksSpanned, coverCount]
  by_cases whole : size % blockSize = 0
  · rw [if_pos whole]
    simp only [blockSize] at *
    omega
  · rw [if_neg whole]
    simp only [blockSize] at *
    omega

theorem le_blocksSpanned_mul (size : Nat) : size ≤ blocksSpanned size * blockSize := by
  simp only [blocksSpanned_eq, blockSize]; omega

/-- A physical frame by number. Numbers from 2^20 on name no frame of a 32-bit machine. -/
structure Frame where
  number : Nat
  deriving DecidableEq, Repr

structure PhysicalAddr where
  word : UInt32
  deriving DecidableEq, Repr

structure LinearAddr where
  word : UInt32
  deriving DecidableEq, Repr

namespace PhysicalAddr

def ofNat (n : Nat) : PhysicalAddr := ⟨UInt32.ofNat n⟩

def toNat (addr : PhysicalAddr) : Nat := addr.word.toNat

def frame (addr : PhysicalAddr) : Frame := ⟨addr.toNat / pageSize⟩

def pageOffset (addr : PhysicalAddr) : Nat := addr.toNat % pageSize

def text (addr : PhysicalAddr) : String := Text.hexWord addr.toNat

end PhysicalAddr

namespace Frame

def addr (frame : Frame) : PhysicalAddr := PhysicalAddr.ofNat (frame.number * pageSize)

def text (frame : Frame) : String := s!"frame {frame.number} ({frame.addr.text})"

end Frame

namespace LinearAddr

def ofNat (n : Nat) : LinearAddr := ⟨UInt32.ofNat n⟩

def toNat (addr : LinearAddr) : Nat := addr.word.toNat

def dirIndex (addr : LinearAddr) : Nat := addr.toNat / blockSize

def tableIndex (addr : LinearAddr) : Nat := addr.toNat / pageSize % entriesPerTable

def pageOffset (addr : LinearAddr) : Nat := addr.toNat % pageSize

def isBlockAligned (addr : LinearAddr) : Bool := addr.toNat % blockSize == 0

def truncPage (addr : LinearAddr) : LinearAddr := ofNat (PagedMemory.truncPage addr.toNat)

/-- The address `n` bytes further on; past the top of the space it goes on from 0. -/
def advance (addr : LinearAddr) (n : Nat) : LinearAddr := ⟨addr.word + UInt32.ofNat n⟩

def pageBelow (addr : LinearAddr) : LinearAddr := ⟨addr.word - UInt32.ofNat pageSize⟩

def text (addr : LinearAddr) : String := Text.hexWord addr.toNat

theorem toNat_lt (addr : LinearAddr) : addr.toNat < addressSpace := addr.word.toNat_lt

theorem toNat_ofNat (n : Nat) : (ofNat n).toNat = n % addressSpace := UInt32.toNat_ofNat'

theorem toNat_advance (addr : LinearAddr) (n : Nat) :
    (addr.advance n).toNat = (addr.toNat + n) % addressSpace := by
  simp [advance, toNat, addressSpace]

theorem toNat_truncPage (addr : LinearAddr) :
    addr.truncPage.toNat = PagedMemory.truncPage addr.toNat := by
  rw [truncPage, toNat_ofNat]
  exact Nat.mod_eq_of_lt (Nat.lt_of_le_of_lt (truncPage_le _) addr.toNat_lt)

theorem dirIndex_lt (addr : LinearAddr) : addr.dirIndex < entriesPerDirectory := by
  have h := addr.toNat_lt
  simp only [dirIndex, blockSize, entriesPerDirectory, addressSpace] at *
  omega

theorem tableIndex_lt (addr : LinearAddr) : addr.tableIndex < entriesPerTable :=
  Nat.mod_lt _ (by decide)

theorem pageOffset_lt (addr : LinearAddr) : addr.pageOffset < pageSize := Nat.mod_lt _ (by decide)

end LinearAddr

def taskBase (slot : Nat) : LinearAddr := LinearAddr.ofNat (slot * taskSize)

end PagedMemory

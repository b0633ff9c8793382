import PagedMemory.Proofs.Ownership

/-!
The linear space of tasks: which page holds an address, which ranges belong to tasks, and memory
as a plain function from addresses to bytes, which is what a task believes to have.
-/

namespace PagedMemory

namespace LinearAddr

def place (addr : LinearAddr) : Nat × Nat := (addr.dirIndex, addr.tableIndex)

theorem ext_toNat {addr other : LinearAddr} (same : addr.toNat = other.toNat) : addr = other := by
  rcases addr with ⟨word⟩
  rcases other with ⟨word'⟩
  exact congrArg LinearAddr.mk (UInt32.toNat_inj.mp same)

theorem place_eq_iff {addr other : LinearAddr} :
    addr.place = other.place ↔ addr.toNat / pageSize = other.toNat / pageSize := by
  simp only [place, dirIndex, tableIndex, blockSize, pageSize, entriesPerTable, Prod.mk.injEq]
  omega

theorem place_truncPage (addr : LinearAddr) : addr.truncPage.place = addr.place := by
  rw [place_eq_iff, toNat_truncPage]
  simp only [PagedMemory.truncPage, pageSize]
  omega

theorem toNat_advance_of_lt {addr : LinearAddr} {n : Nat} (fits : addr.toNat + n < addressSpace) :
    (addr.advance n).toNat = addr.toNat + n := by
  rw [toNat_advance, Nat.mod_eq_of_lt fits]

theorem advance_advance (addr : LinearAddr) (n k : Nat) :
    (addr.advance n).advance k = addr.advance (n + k) := by
  apply ext_toNat
  simp only [toNat_advance, addressSpace]
  omega

theorem toNat_advance_of_page {addr : LinearAddr} {n : Nat}
    (page : addr.pageOffset + n < pageSize) : (addr.advance n).toNat = addr.toNat + n := by
  apply toNat_advance_of_lt
  have below := addr.toNat_lt
  simp only [pageOffset, pageSize, addressSpace] at *
  omega

theorem place_advance {addr : LinearAddr} {n : Nat} (page : addr.pageOffset + n < pageSize) :
    (addr.advance n).place = addr.place := by
  rw [place_eq_iff, toNat_advance_of_page page]
  simp only [pageOffset, pageSize] at *
  omega

theorem pageOffset_advance {addr : LinearAddr} {n : Nat} (page : addr.pageOffset + n < pageSize) :
    (addr.advance n).pageOffset = addr.pageOffset + n := by
  rw [pageOffset, toNat_advance_of_page page]
  simp only [pageOffset, pageSize] at *
  omega

end LinearAddr

namespace Layout

variable {layout : Layout} {addr : LinearAddr} {size : Nat}

/-- `size` bytes from `addr` on lie in task space. -/
def InTaskSpace (layout : Layout) (addr : LinearAddr) (size : Nat) : Prop :=
  layout.kernelTables ≤ addr.dirIndex ∧ addr.toNat + size ≤ addressSpace

theorem place_mem_taskPlaces (task : layout.kernelTables ≤ addr.dirIndex) :
    addr.place ∈ layout.taskPlaces :=
  mem_taskPlaces.mpr ⟨mem_taskBlocks.mpr ⟨task, addr.dirIndex_lt⟩, addr.tableIndex_lt⟩

theorem inTaskSpace_of_blocks (task : layout.kernelTables ≤ addr.dirIndex)
    (aligned : addr.isBlockAligned = true)
    (inside : addr.dirIndex + blocksSpanned size ≤ entriesPerDirectory) :
    layout.InTaskSpace addr size := by
  have whole : addr.toNat % blockSize = 0 := beq_iff_eq.mp aligned
  have covered := le_blocksSpanned_mul size
  refine ⟨task, ?_⟩
  simp only [LinearAddr.dirIndex, blockSize, entriesPerDirectory, addressSpace] at *
  omega

namespace InTaskSpace

variable (within : layout.InTaskSpace addr size)

include within

theorem toNat_ne_zero : addr.toNat ≠ 0 := by
  intro zero
  have kernel := layout.kernelTables_pos
  have above := within.1
  rw [LinearAddr.dirIndex, zero] at above
  simp only [blockSize] at above
  omega

theorem blocks_le (aligned : addr.isBlockAligned = true) :
    addr.dirIndex + blocksSpanned size ≤ entriesPerDirectory := by
  have below := within.2
  have whole : addr.toNat % blockSize = 0 := beq_iff_eq.mp aligned
  simp only [LinearAddr.dirIndex, blocksSpanned_eq, blockSize, entriesPerDirectory,
    addressSpace] at *
  omega

theorem mem_taskBlocks (aligned : addr.isBlockAligned = true) {block : Nat}
    (covered : block < blocksSpanned size) : addr.dirIndex + block ∈ layout.taskBlocks := by
  have above := within.1
  have below := within.blocks_le aligned
  exact Layout.mem_taskBlocks.mpr ⟨by omega, by omega⟩

theorem advance {n : Nat} (rest : n < size) : layout.InTaskSpace (addr.advance n) (size - n) := by
  obtain ⟨above, below⟩ := within
  have number : (addr.advance n).toNat = addr.toNat + n :=
    LinearAddr.toNat_advance_of_lt (by omega)
  refine ⟨Nat.le_trans above (Nat.div_le_div_right ?_), ?_⟩
  · omega
  · omega

end InTaskSpace

end Layout

/-- A byte for every linear address. -/
abbrev Contents := LinearAddr → UInt8

namespace Contents

def fetch (contents : Contents) (addr : LinearAddr) (length : Nat) : List UInt8 :=
  (List.range length).map fun i => contents (addr.advance i)

def store (contents : Contents) (addr : LinearAddr) (data : List UInt8) : Contents := fun other =>
  if inside : addr.toNat ≤ other.toNat ∧ other.toNat - addr.toNat < data.length then
    data[other.toNat - addr.toNat]
  else contents other

variable (contents : Contents) (addr : LinearAddr)

theorem fetch_add (length more : Nat) : contents.fetch addr (length + more) =
    contents.fetch addr length ++ contents.fetch (addr.advance length) more := by
  simp only [fetch, List.range_add, List.map_append, List.map_map, LinearAddr.advance_advance]
  rfl

theorem store_nil : contents.store addr [] = contents := by
  funext other
  rw [store, dif_neg]
  exact fun inside => Nat.not_lt_zero _ inside.2

theorem store_append {data rest : List UInt8}
    (fits : rest ≠ [] → addr.toNat + data.length < addressSpace) :
    (contents.store addr data).store (addr.advance data.length) rest =
      contents.store addr (data ++ rest) := by
  by_cases empty : rest = []
  · rw [empty, store_nil, List.append_nil]
  · have number := LinearAddr.toNat_advance_of_lt (fits empty)
    funext other
    simp only [store, number, List.length_append, List.getElem_append]
    by_cases first : addr.toNat ≤ other.toNat ∧ other.toNat - addr.toNat < data.length
    · rw [dif_neg (by omega), dif_pos first, dif_pos (by omega), dif_pos first.2]
    · by_cases second : addr.toNat + data.length ≤ other.toNat ∧
          other.toNat - (addr.toNat + data.length) < rest.length
      · rw [dif_pos second, dif_pos (by omega), dif_neg (by omega)]
        congr 1
        omega
      · rw [dif_neg second, dif_neg first, dif_neg (by omega)]

theorem fetch_store {data : List UInt8} (fits : addr.toNat + data.length ≤ addressSpace) :
    (contents.store addr data).fetch addr data.length = data := by
  apply List.ext_getElem
  · rw [fetch, List.length_map, List.length_range]
  · intro i _ below
    have number : (addr.advance i).toNat = addr.toNat + i :=
      LinearAddr.toNat_advance_of_lt (by omega)
    simp only [fetch, List.getElem_map, List.getElem_range, store, number]
    rw [dif_pos (by omega)]
    congr 1
    omega

theorem store_congr {contents' : Contents} {data : List UInt8} {other : LinearAddr}
    (same : contents' other = contents other) :
    contents'.store addr data other = contents.store addr data other := by
  rw [store, store, same]

end Contents

end PagedMemory

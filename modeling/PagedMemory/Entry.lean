import PagedMemory.Address

/-!
Directory and table entries. The low three bits of the word are the protection flags, the high
twenty the frame; the bits between are kept as they are and mean nothing here.
-/

namespace PagedMemory

structure Flags where
  present : Bool
  writable : Bool
  user : Bool
  deriving DecidableEq, Repr

namespace Flags

def userWritable : Flags := ⟨true, true, true⟩

def ofNat (n : Nat) : Flags := ⟨n % 2 == 1, n / 2 % 2 == 1, n / 4 % 2 == 1⟩

def toNat (flags : Flags) : Nat :=
  flags.present.toNat + 2 * flags.writable.toNat + 4 * flags.user.toNat

def text (flags : Flags) : String :=
  let names := (if flags.present then ["PRESENT"] else []) ++
    (if flags.writable then ["WRITABLE"] else []) ++ (if flags.user then ["USER"] else [])
  if names.isEmpty then "0x0" else " | ".intercalate names

theorem toNat_ofNat (n : Nat) : (ofNat n).toNat = n % 8 := by
  have bit (k : Nat) : (k % 2 == 1).toNat = k % 2 := by
    rcases Nat.mod_two_eq_zero_or_one k with even | odd
    · rw [even]
      rfl
    · rw [odd]
      rfl
  simp only [ofNat, toNat, bit]
  omega

theorem ofNat_toNat (flags : Flags) : ofNat flags.toNat = flags := by
  rcases flags with ⟨_ | _, _ | _, _ | _⟩ <;> decide

theorem toNat_lt (flags : Flags) : flags.toNat < 8 := by
  rcases flags with ⟨_ | _, _ | _, _ | _⟩ <;> decide

end Flags

structure Entry where
  raw : UInt32
  deriving DecidableEq, Repr

namespace Entry

def empty : Entry := ⟨0⟩

/-- Points at `frame`; of a number that names no frame only the low twenty bits count. -/
def new (frame : Frame) (flags : Flags) : Entry :=
  ⟨UInt32.ofNat (frame.number * pageSize + flags.toNat)⟩

def frame (entry : Entry) : Frame := ⟨entry.raw.toNat / pageSize⟩

def flags (entry : Entry) : Flags := Flags.ofNat entry.raw.toNat

def isPresent (entry : Entry) : Bool := entry.flags.present

def isWritable (entry : Entry) : Bool := entry.flags.writable

def isUser (entry : Entry) : Bool := entry.flags.user

def writeProtected (entry : Entry) : Entry :=
  if entry.isWritable then ⟨entry.raw - 2⟩ else entry

def madeWritable (entry : Entry) : Entry :=
  if entry.isWritable then entry else ⟨entry.raw + 2⟩

def text (entry : Entry) : String :=
  s!"PageTableEntry \x7b frame: {entry.frame.number}, flags: PteFlags({entry.flags.text}) \x7d"

theorem frame_new (frame : Frame) (flags : Flags) (h : frame.number < 1048576) :
    (new frame flags).frame = frame := by
  have := flags.toNat_lt
  have : frame.number * 4096 + flags.toNat < 2 ^ 32 := by omega
  rcases frame with ⟨number⟩
  simp only [new, Entry.frame, pageSize, UInt32.toNat_ofNat', Nat.mod_eq_of_lt this, Frame.mk.injEq]
  omega

theorem flags_new (frame : Frame) (flags : Flags) : (new frame flags).flags = flags := by
  have h := flags.toNat_lt
  rw [← Flags.ofNat_toNat flags]
  simp only [Flags.ofNat_toNat]
  have small : (frame.number * 4096 + flags.toNat) % 4294967296 % 8 = flags.toNat := by omega
  simp only [Entry.flags, new, pageSize, UInt32.toNat_ofNat']
  rw [← Flags.ofNat_toNat (Flags.ofNat _), Flags.toNat_ofNat, small, Flags.ofNat_toNat]

private theorem raw_writeProtected (entry : Entry) :
    entry.writeProtected.raw.toNat = entry.raw.toNat - entry.raw.toNat / 2 % 2 * 2 := by
  have h := entry.raw.toNat_lt
  simp only [writeProtected, isWritable, flags, Flags.ofNat, beq_iff_eq]
  split
  · rename_i bit
    have le : (2 : UInt32) ≤ entry.raw := by
      rw [UInt32.le_iff_toNat_le]
      have : (2 : UInt32).toNat = 2 := rfl
      omega
    rw [UInt32.toNat_sub_of_le _ _ le, bit]
    rfl
  · have : entry.raw.toNat / 2 % 2 = 0 := by omega
    omega

private theorem raw_madeWritable (entry : Entry) :
    entry.madeWritable.raw.toNat = entry.raw.toNat + (1 - entry.raw.toNat / 2 % 2) * 2 := by
  have h := entry.raw.toNat_lt
  simp only [madeWritable, isWritable, flags, Flags.ofNat, beq_iff_eq]
  split
  · omega
  · have two : (2 : UInt32).toNat = 2 := rfl
    rw [UInt32.toNat_add, two]
    omega

theorem frame_writeProtected (entry : Entry) : entry.writeProtected.frame = entry.frame := by
  simp only [frame, raw_writeProtected, pageSize, Frame.mk.injEq]
  omega

theorem flags_writeProtected (entry : Entry) :
    entry.writeProtected.flags = { entry.flags with writable := false } := by
  simp only [flags, raw_writeProtected, Flags.ofNat, Flags.mk.injEq, beq_eq_false_iff_ne]
  exact ⟨congrArg (· == 1) (by omega), by omega, congrArg (· == 1) (by omega)⟩

theorem frame_madeWritable (entry : Entry) : entry.madeWritable.frame = entry.frame := by
  simp only [frame, raw_madeWritable, pageSize, Frame.mk.injEq]
  omega

theorem flags_madeWritable (entry : Entry) :
    entry.madeWritable.flags = { entry.flags with writable := true } := by
  simp only [flags, raw_madeWritable, Flags.ofNat, Flags.mk.injEq, beq_iff_eq]
  exact ⟨congrArg (· == 1) (by omega), by omega, congrArg (· == 1) (by omega)⟩

end Entry

end PagedMemory

import PagedMemory.Error
import PagedMemory.Memory.Page

/-!
Physical memory: a page for each frame that has been written to. A frame without one reads as zeros,
and zeroing a frame takes its page away, so that a large memory costs what has been written to it.
Reads and writes fail exactly when they name a frame past the end, and then change nothing. The
total functions under them (`page`, `modifyPage`, `putPage`) read zero and write nowhere past the
end.
-/

namespace PagedMemory

structure Slot where
  frame : Frame
  index : Nat
  deriving DecidableEq, Repr

def PhysicalAddr.slot (addr : PhysicalAddr) : Slot := ⟨addr.frame, addr.pageOffset / 4⟩

structure PhysicalMemory (frames : Nat) where
  /-- Nothing for a frame that holds zeros because nothing was written to it since. -/
  pages : Vector (Option Page) frames
  deriving DecidableEq

namespace PhysicalMemory

variable {frames : Nat}

def blank (frames : Nat) : PhysicalMemory frames := ⟨Vector.replicate frames none⟩

def page? (memory : PhysicalMemory frames) (frame : Frame) : Option Page :=
  if h : frame.number < frames then memory.pages[frame.number] else none

def page (memory : PhysicalMemory frames) (frame : Frame) : Page :=
  (memory.page? frame).getD Page.zero

def modifyPage (memory : PhysicalMemory frames) (frame : Frame) (change : Page → Page) :
    PhysicalMemory frames :=
  ⟨⟨memory.pages.toArray.modify frame.number fun held => some (change (held.getD Page.zero)),
    by simp⟩⟩

/-- Gives a frame a page, or takes the one that it has. -/
def putPage (memory : PhysicalMemory frames) (frame : Frame) (given : Option Page) :
    PhysicalMemory frames :=
  ⟨memory.pages.setIfInBounds frame.number given⟩

/-- No page has changed but perhaps that of `frame`. -/
def OnlyPage (memory memory' : PhysicalMemory frames) (frame : Frame) : Prop :=
  ∀ other, other ≠ frame → memory'.page other = memory.page other

theorem page_of_le (memory : PhysicalMemory frames) {frame : Frame}
    (outside : frames ≤ frame.number) : memory.page frame = Page.zero := by
  rw [page, page?, dif_neg (Nat.not_lt.mpr outside)]
  rfl

theorem page_blank (frame : Frame) : (blank frames).page frame = Page.zero := by
  simp [page, page?, blank]

theorem page_modifyPage (memory : PhysicalMemory frames) (frame other : Frame)
    (change : Page → Page) :
    (memory.modifyPage frame change).page other =
      if frame = other ∧ other.number < frames then change (memory.page other)
      else memory.page other := by
  rcases frame with ⟨number⟩
  rcases other with ⟨number'⟩
  by_cases h : number' < frames
  · by_cases same : number = number'
    · simp [page, page?, modifyPage, h, Array.getElem_modify, same]
    · simp [page, page?, modifyPage, h, Array.getElem_modify, same]
  · simp [page, page?, h]

theorem page_putPage (memory : PhysicalMemory frames) (frame other : Frame)
    (given : Option Page) :
    (memory.putPage frame given).page other =
      if frame = other ∧ other.number < frames then given.getD Page.zero
      else memory.page other := by
  rcases frame with ⟨number⟩
  rcases other with ⟨number'⟩
  by_cases h : number' < frames
  · by_cases same : number = number'
    · simp [page, page?, putPage, h, same]
    · simp [page, page?, putPage, h, same]
  · simp [page, page?, h]

section OnePage

variable {memory : PhysicalMemory frames} {frame other : Frame}

theorem page_modifyPage_of_ne (apart : frame ≠ other) (change : Page → Page) :
    (memory.modifyPage frame change).page other = memory.page other := by
  rw [page_modifyPage, if_neg]
  exact fun same => apart same.1

theorem page_modifyPage_self (inside : frame.number < frames) (change : Page → Page) :
    (memory.modifyPage frame change).page frame = change (memory.page frame) := by
  rw [page_modifyPage, if_pos ⟨rfl, inside⟩]

theorem page_putPage_self (inside : frame.number < frames) (given : Option Page) :
    (memory.putPage frame given).page frame = given.getD Page.zero := by
  rw [page_putPage, if_pos ⟨rfl, inside⟩]

theorem onlyPage_modifyPage (memory : PhysicalMemory frames) (frame : Frame)
    (change : Page → Page) : memory.OnlyPage (memory.modifyPage frame change) frame :=
  fun _ apart => page_modifyPage_of_ne apart.symm change

theorem onlyPage_putPage (memory : PhysicalMemory frames) (frame : Frame)
    (given : Option Page) : memory.OnlyPage (memory.putPage frame given) frame := by
  intro other apart
  rw [page_putPage, if_neg]
  exact fun same => apart same.1.symm

end OnePage

def require (frames : Nat) (frame : Frame) : Except FatalError Unit :=
  if frame.number < frames then .ok () else .error (.nonexistentPage frame)

theorem require_of_lt {frame : Frame} (inside : frame.number < frames) :
    require frames frame = .ok () := if_pos inside

theorem require_of_le {frame : Frame} (outside : frames ≤ frame.number) :
    require frames frame = .error (.nonexistentPage frame) := if_neg (Nat.not_lt.mpr outside)

def readByte (memory : PhysicalMemory frames) (frame : Frame) (offset : Nat) :
    Except FatalError UInt8 := do
  require frames frame
  return (memory.page frame).byte offset

def readWord (memory : PhysicalMemory frames) (slot : Slot) : Except FatalError UInt32 := do
  require frames slot.frame
  return (memory.page slot.frame).word slot.index

def readBytes (memory : PhysicalMemory frames) (frame : Frame) (offset length : Nat) :
    Except FatalError (List UInt8) := do
  require frames frame
  return (memory.page frame).slice offset length

def frameBytes (memory : PhysicalMemory frames) (frame : Frame) : Except FatalError (List UInt8) :=
  memory.readBytes frame 0 pageSize

def isZeroed (memory : PhysicalMemory frames) (frame : Frame) : Except FatalError Bool := do
  require frames frame
  match memory.page? frame with
  | none => return true
  | some page => return page.isZero

abbrev Access (frames : Nat) := EStateM FatalError (PhysicalMemory frames)

def change (frame : Frame) (f : Page → Page) : Access frames Unit := fun memory =>
  match require frames frame with
  | .ok _ => .ok () (memory.modifyPage frame f)
  | .error error => .error error memory

def writeByte (frame : Frame) (offset : Nat) (value : UInt8) : Access frames Unit :=
  change frame (·.setByte offset value)

def writeWord (slot : Slot) (value : UInt32) : Access frames Unit :=
  change slot.frame (·.setWord slot.index value)

def writeBytes (frame : Frame) (offset : Nat) (data : List UInt8) : Access frames Unit :=
  change frame (·.store offset data)

def zeroFrame (frame : Frame) : Access frames Unit := fun memory =>
  match require frames frame with
  | .ok _ => .ok () (memory.putPage frame none)
  | .error error => .error error memory

/-- Copies all of `source` into `target`, which has a page afterwards just if `source` has one;
`source` is looked at first. -/
def copyFrame (source target : Frame) : Access frames Unit := fun memory =>
  match require frames source with
  | .ok _ =>
      match require frames target with
      | .ok _ => .ok () (memory.putPage target (memory.page? source))
      | .error error => .error error memory
  | .error error => .error error memory

section Inside

variable (memory : PhysicalMemory frames) {frame : Frame} (inside : frame.number < frames)

include inside

theorem readByte_eq (offset : Nat) :
    memory.readByte frame offset = .ok ((memory.page frame).byte offset) := by
  rw [readByte, require_of_lt inside]
  rfl

theorem readWord_eq (index : Nat) :
    memory.readWord ⟨frame, index⟩ = .ok ((memory.page frame).word index) := by
  rw [readWord, require_of_lt inside]
  rfl

theorem readBytes_eq (offset length : Nat) :
    memory.readBytes frame offset length = .ok ((memory.page frame).slice offset length) := by
  rw [readBytes, require_of_lt inside]
  rfl

theorem isZeroed_eq : memory.isZeroed frame = .ok (memory.page frame).isZero := by
  have zero : Page.zero.isZero = true :=
    Page.zero.isZero_iff.mpr fun offset _ => Page.byte_zero offset
  simp only [isZeroed, require_of_lt inside, page]
  cases memory.page? frame with
  | none => exact congrArg Except.ok zero.symm
  | some page => rfl

theorem change_eq (f : Page → Page) :
    change frame f memory = .ok () (memory.modifyPage frame f) := by
  rw [change, require_of_lt inside]

theorem zeroFrame_eq : zeroFrame frame memory = .ok () (memory.putPage frame none) := by
  rw [zeroFrame, require_of_lt inside]

theorem copyFrame_eq {target : Frame} (inside' : target.number < frames) :
    copyFrame frame target memory = .ok () (memory.putPage target (memory.page? frame)) := by
  rw [copyFrame, require_of_lt inside, require_of_lt inside']

end Inside

theorem copyFrame_cases (source target : Frame) :
    (∀ memory : PhysicalMemory frames,
      copyFrame source target memory = .ok () (memory.putPage target (memory.page? source))) ∨
    ∃ error, ∀ memory : PhysicalMemory frames,
      copyFrame source target memory = .error error memory := by
  by_cases inside : source.number < frames
  · by_cases inside' : target.number < frames
    · exact Or.inl fun memory => memory.copyFrame_eq inside inside'
    · refine Or.inr ⟨.nonexistentPage target, fun memory => ?_⟩
      rw [copyFrame, require_of_lt inside, require_of_le (Nat.le_of_not_lt inside')]
  · refine Or.inr ⟨.nonexistentPage source, fun memory => ?_⟩
    rw [copyFrame, require_of_le (Nat.le_of_not_lt inside)]

end PhysicalMemory

end PagedMemory

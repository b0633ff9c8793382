import PagedMemory.Proofs.IdentityMap

/-!
Stores that run past the top of the linear space. Verification of an area stops at the top. The
store does not: it goes on at linear address 0, where the kernel maps its page directory writable,
and the first bytes that are left go there.
-/

namespace PagedMemory

def LinearAddr.room (addr : LinearAddr) : Nat := addressSpace - addr.toNat

theorem LinearAddr.toNat_add_room (addr : LinearAddr) : addr.toNat + addr.room = addressSpace := by
  have below := addr.toNat_lt
  simp only [room]
  omega

theorem LinearAddr.advance_room (addr : LinearAddr) :
    addr.advance addr.room = LinearAddr.ofNat 0 := by
  apply ext_toNat
  rw [toNat_advance, toNat_add_room, Nat.mod_self]
  decide

namespace Manager

variable {layout : Layout} {m m' : Manager layout} {held : Finset Frame}

open Operation

theorem storeUser_split (mode : AccessMode) {addr : LinearAddr} {data : List UInt8} {part : Nat}
    (some : part ≠ 0) (le : part ≤ data.length) (boundary : (addr.toNat + part) % pageSize = 0) :
    (storeUser mode addr data : Operation layout AccessError Unit) = (do
      storeUser mode addr (data.take part)
      storeUser mode (addr.advance part) (data.drop part)) := by
  induction part using Nat.strongRecOn generalizing addr data with
  | ind part ih =>
    have length : (data.take part).length = part := List.length_take_of_le le
    -- a part that ends at a page boundary has the same first chunk as all of the data
    have same : firstChunk addr (data.take part).length = firstChunk addr data.length := by
      rw [length]
      simp only [firstChunk, LinearAddr.pageOffset, pageSize] at *
      omega
    have within : firstChunk addr data.length ≤ part := by
      rw [← same, length]
      exact firstChunk_le addr part
    have positive : 0 < firstChunk addr data.length := firstChunk_pos addr (by omega)
    rw [storeUser_of_ne_zero mode addr (show data.length ≠ 0 by omega),
      storeUser_of_ne_zero mode addr (show (data.take part).length ≠ 0 by omega), same]
    generalize firstChunk addr data.length = chunk at *
    have first : (data.take part).take chunk = data.take chunk := by
      rw [List.take_take, Nat.min_eq_left within]
    rw [first, List.drop_take]
    simp only [bind_assoc]
    congr 1
    funext frame
    congr 1
    funext _
    by_cases last : chunk = part
    · rw [last, Nat.sub_self, List.take_zero, storeUser_nil, pure_bind]
    · have boundary' : ((addr.advance chunk).toNat + (part - chunk)) % pageSize = 0 := by
        rw [LinearAddr.toNat_advance]
        simp only [addressSpace, pageSize] at *
        omega
      have left : part - chunk ≤ (data.drop chunk).length := by
        rw [List.length_drop]
        omega
      have rest := ih (part - chunk) (by omega) (by omega) left boundary'
      rw [LinearAddr.advance_advance, List.drop_drop] at rest
      rw [show part = chunk + (part - chunk) by omega, Nat.add_sub_cancel_left]
      exact rest

section Split

variable {addr : LinearAddr} {data : List UInt8} (past : addr.room < data.length)

include past

theorem writeUser_past_top :
    (writeUser addr data : Operation layout AccessError Unit) = (do
      writeUser addr (data.take addr.room)
      storeUser .userWrite (addr.advance addr.room) (data.drop addr.room)) := by
  have below := addr.toNat_lt
  have top := addr.toNat_add_room
  apply storeUser_split .userWrite (by omega) (Nat.le_of_lt past)
  rw [top]
  decide

theorem copyToUser_past_top :
    (copyToUser addr data : Operation layout AccessError Unit) = (do
      (do
        verifyArea addr (data.length % addressSpace)
        storeUser .kernelWrite addr (data.take addr.room))
      storeUser .kernelWrite (addr.advance addr.room) (data.drop addr.room)) := by
  have below := addr.toNat_lt
  have top := addr.toNat_add_room
  have nonempty : ¬ data.isEmpty = true := by
    rw [List.isEmpty_iff_length_eq_zero]
    omega
  have split : (storeUser .kernelWrite addr data : Operation layout AccessError Unit) = _ :=
    storeUser_split .kernelWrite (by omega) (Nat.le_of_lt past) (by rw [top]; decide)
  rw [copyToUser, if_neg nonempty, split, bind_assoc]

end Split

def Spared {α : Type} (m : Manager layout) (held : Finset Frame) :
    EStateM.Result AccessError (Manager layout) α → Prop
  | .ok _ m' | .error .killed m' => m'.Sound held ∧ m.Grown m'
  | .error (.fatal _) _ => False

theorem Spared.of_grown {α : Type} {result : EStateM.Result AccessError (Manager layout) α}
    (grown : m.Grown m') (rest : Spared m' held result) : Spared m held result := by
  match result, rest with
  | .ok _ _, ⟨sound, grown'⟩ => exact ⟨sound, grown.trans grown'⟩
  | .error .killed _, ⟨sound, grown'⟩ => exact ⟨sound, grown.trans grown'⟩

theorem Spared.bind {α β : Type} {operation : Operation layout AccessError α}
    {next : α → Operation layout AccessError β} (first : Spared m held (operation m))
    (rest : ∀ value m', m'.Sound held → Spared m' held (next value m')) :
    Spared m held ((operation >>= next) m) := by
  cases run : operation m with
  | ok value m' =>
      rw [run] at first
      rw [bind_ok run]
      exact (rest value m' first.1).of_grown first.2
  | error error m' =>
      rw [run] at first
      rw [bind_error run]
      cases error with
      | killed => exact first
      | fatal error => exact first.elim

section Below

variable {addr : LinearAddr}

theorem Sound.verifyArea_spared (sound : m.Sound held) (task : layout.kernelTables ≤ addr.dirIndex)
    (size : Nat) : Spared m held (verifyArea addr size m) := by
  rcases sound.verifyArea_cases task size with ⟨m', run, sound', grown, -⟩ | ⟨m', run, area⟩
  · rw [run]
    exact ⟨sound', grown⟩
  · rw [run]
    exact ⟨area.sound, area.grown⟩

theorem Sound.storeUser_spared (sound : m.Sound held) {mode : AccessMode} {data : List UInt8}
    (within : data.length ≠ 0 → layout.InTaskSpace addr data.length) :
    Spared m held (storeUser mode addr data m) := by
  induction length : data.length using Nat.strongRecOn generalizing addr data m with
  | ind length' ih =>
    by_cases empty : data.length = 0
    · obtain rfl := List.length_eq_zero_iff.mp empty
      rw [storeUser_nil]
      exact ⟨sound, Grown.of_same rfl rfl⟩
    · have inside := within empty
      have positive := firstChunk_pos addr empty
      have part := firstChunk_le addr data.length
      have page := pageOffset_add_firstChunk_le addr data.length
      rw [storeUser_of_ne_zero mode addr empty]
      generalize firstChunk addr data.length = chunk at *
      rcases sound.backingFrame_cases inside.1 mode with
        ⟨m₁, run, sound₁, grown, -⟩ | ⟨frame, m₁, run, backed⟩
      · rw [bind_error run]
        exact ⟨sound₁, grown⟩
      · have page' : addr.pageOffset + (data.take chunk).length ≤ pageSize := by
          rw [List.length_take_of_le part]
          exact page
        obtain ⟨m₂, write, sound₂, -, link, pool, -⟩ :=
          backed.sound.exists_writeBytes inside.1 backed.points page'
        have grown : m₁.Grown m₂ := by
          refine ⟨fun block => Or.inl (congrFun link block), ?_⟩
          rw [pool]
          exact fun _ => id
        have left : (data.drop chunk).length = data.length - chunk := List.length_drop
        rw [bind_ok run, bind_ok write]
        apply Spared.of_grown (backed.grown.trans grown)
        apply ih (data.drop chunk).length (by omega) sound₂ _ rfl
        intro some
        rw [left]
        exact inside.advance (by omega)

end Below

/-- The kernel's frames are as they were. Of the directory only the words of tasks have changed,
where tables were added in frames that were free. -/
structure KernelKept (m m' : Manager layout) : Prop where
  frames : ∀ frame, layout.isReserved frame = true → frame ≠ pageDirectory →
    m'.memory.page frame = m.memory.page frame
  kernel : ∀ block < layout.kernelTables, m'.memory.link block = m.memory.link block
  grown : m.Grown m'

theorem Sound.kernelKept {held' : Finset Frame} (sound : m.Sound held) (sound' : m'.Sound held')
    (grown : m.Grown m') : m.KernelKept m' := by
  refine ⟨?_, ?_, grown⟩
  · intro frame reserved apart
    apply Page.ext_word
    intro index _
    rw [sound'.kernel frame index reserved (fun same => absurd same apart),
      sound.kernel frame index reserved (fun same => absurd same apart)]
  · intro block kernel
    rw [sound'.link_of_kernel kernel, sound.link_of_kernel kernel]

theorem Sound.storeUser_zero (sound : m.Sound held) (mode : AccessMode) {data : List UInt8}
    (some : data.length ≠ 0) :
    storeUser mode (LinearAddr.ofNat 0) data m =
      storeUser mode (LinearAddr.ofNat pageSize) (data.drop pageSize) { m with
        memory := m.memory.modifyPage pageDirectory (·.store 0 (data.take pageSize)) } := by
  have number : (LinearAddr.ofNat 0).toNat = 0 := by decide
  have offset : (LinearAddr.ofNat 0).pageOffset = 0 := by decide
  have positive : (LinearAddr.ofNat 0).toNat < layout.memoryEnd := by
    have := layout.kernelTables_pos
    rw [number]
    simp only [Layout.kernelTables, blocksSpanned_eq] at this
    omega
  have backed := sound.backingFrame_identity positive mode
  have directory : (⟨(LinearAddr.ofNat 0).toNat / pageSize⟩ : Frame) = pageDirectory := by decide
  have inside : pageDirectory.number < layout.totalFrames := layout.totalFrames_pos
  rw [directory] at backed
  rw [storeUser_firstPage backed inside some, offset]
  rfl

/-- How `write` ends whose data runs past the top: the task is killed by what is done `below` it, or
what is left goes to the directory and on from there. -/
def Overruns (m : Manager layout) (held : Finset Frame) (mode : AccessMode)
    (write below : Operation layout AccessError Unit) (left : List UInt8) : Prop :=
  (∃ m', below m = .error .killed m' ∧ m'.Sound held ∧ m.KernelKept m' ∧
    write m = .error .killed m') ∨
  ∃ m', below m = .ok () m' ∧ m'.Sound held ∧ m.KernelKept m' ∧
    write m = storeUser mode (LinearAddr.ofNat pageSize) (left.drop pageSize) { m' with
      memory := m'.memory.modifyPage pageDirectory (·.store 0 (left.take pageSize)) }

theorem Sound.overruns (sound : m.Sound held) {mode : AccessMode} {addr : LinearAddr}
    {left : List UInt8} {write below : Operation layout AccessError Unit}
    (some : left.length ≠ 0)
    (split : write = (do
      below
      storeUser mode (addr.advance addr.room) left))
    (spared : Spared m held (below m)) : m.Overruns held mode write below left := by
  have begun := congrFun split m
  cases run : below m with
  | ok _ m' =>
      rw [run] at spared
      refine Or.inr ⟨m', run, spared.1, sound.kernelKept spared.1 spared.2, ?_⟩
      calc
        write m = storeUser mode (addr.advance addr.room) left m' := begun.trans (bind_ok run)
        _ = storeUser mode (LinearAddr.ofNat 0) left m' := by rw [addr.advance_room]
        _ = _ := spared.1.storeUser_zero mode some
  | error error m' =>
      rw [run] at spared
      cases error with
      | killed =>
          exact Or.inl ⟨m', run, spared.1, sound.kernelKept spared.1 spared.2,
            begun.trans (bind_error run)⟩
      | fatal error => exact spared.elim

end Manager

open Manager

variable {layout : Layout} {m : Manager layout} {held : Finset Frame}

/-- A store past the top leaves the kernel alone as long as it stays below the top, and then puts
the bytes that are left into the directory. -/
theorem Reachable.store_past_top (reachable : Reachable layout m held) {addr : LinearAddr}
    {data : List UInt8} (task : layout.kernelTables ≤ addr.dirIndex)
    (past : addressSpace < addr.toNat + data.length) :
    m.Overruns held .userWrite (writeUser addr data) (writeUser addr (data.take addr.room))
        (data.drop addr.room) ∧
      m.Overruns held .kernelWrite (copyToUser addr data)
        (do
          verifyArea addr (data.length % addressSpace)
          storeUser .kernelWrite addr (data.take addr.room))
        (data.drop addr.room) := by
  have sound := reachable.sound
  have top := addr.toNat_add_room
  have past' : addr.room < data.length := by omega
  have left : (data.drop addr.room).length ≠ 0 := by
    rw [List.length_drop]
    omega
  have within : layout.InTaskSpace addr (data.take addr.room).length := by
    rw [List.length_take_of_le (Nat.le_of_lt past')]
    exact ⟨task, Nat.le_of_eq top⟩
  constructor
  · exact sound.overruns left (writeUser_past_top past')
      (sound.storeUser_spared fun _ => within)
  · refine sound.overruns left (copyToUser_past_top past') ?_
    exact Spared.bind (sound.verifyArea_spared task _)
      fun _ m' sound' => sound'.storeUser_spared fun _ => within

def lastByte : LinearAddr := LinearAddr.ofNat 4294967295

/-- Two bytes from the last address on. -/
theorem store_past_top_lastByte :
    Layout.tiny.kernelTables ≤ lastByte.dirIndex ∧
      (boot .tiny .empty).Overruns ∅ .userWrite (writeUser lastByte [1, 2])
        (writeUser lastByte [1]) [2] ∧
      (boot .tiny .empty).Overruns ∅ .kernelWrite (copyToUser lastByte [1, 2])
        (do
          verifyArea lastByte 2
          storeUser .kernelWrite lastByte [1]) [2] :=
  ⟨by decide, Reachable.store_past_top (Reachable.boot .empty) (by decide) (by decide)⟩

/-- The second of them goes to the first word of the directory: the kernel's first table is not
linked any more. -/
theorem store_past_top_overwrites_directory :
    addressSpace < lastByte.toNat + 2 ∧
      ¬ (boot .tiny .empty).KernelKept ((writeUser lastByte [1, 2]).after (boot .tiny .empty)) ∧
      ¬ (boot .tiny .empty).KernelKept
        ((copyToUser lastByte [1, 2]).after (boot .tiny .empty)) := by
  have before : (boot .tiny .empty).memory.link 0 = ⟨4103⟩ := by decide +kernel
  have broken {m : Manager .tiny} (link : m.memory.link 0 = ⟨4098⟩) :
      ¬ (boot .tiny .empty).KernelKept m := by
    intro kept
    have same := kept.kernel 0 Layout.tiny.kernelTables_pos
    rw [link, before] at same
    exact absurd same (by decide)
  exact ⟨by decide, broken (by decide +kernel), broken (by decide +kernel)⟩

end PagedMemory

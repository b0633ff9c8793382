import PagedMemory.Proofs.Guarantees

/-!
The kernel's own mapping of physical memory, and the releases that it outlives. The check of a
range refuses linear address 0 only. A range that starts at a later table of the kernel is let
through, and its pages are unmapped one after the other, unless the very first of them leads to a
frame that is free.
-/

namespace PagedMemory

namespace Manager

variable {layout : Layout} {m m' : Manager layout} {held : Finset Frame}

open Operation

/-- Every address of physical memory leads to itself. -/
def IdentityMapped (m : Manager layout) : Prop :=
  ∀ addr : LinearAddr, addr.toNat < layout.memoryEnd →
    ∃ entry, m.walk addr = .ok (some entry) ∧ entry.frame = ⟨addr.toNat / pageSize⟩

theorem Sound.leaf_of_kernel (sound : m.Sound held) {block : Nat}
    (kernel : block < layout.kernelTables) (index : Nat) :
    m.memory.leaf (block, index) =
      if index < entriesPerTable ∧ block * entriesPerTable + index < layout.totalFrames then
        Entry.new ⟨block * entriesPerTable + index⟩ .userWritable
      else .empty := by
  have reserved : layout.isReserved (kernelTable block) = true :=
    isReserved_of_lt (Nat.lt_of_le_of_lt kernel layout.kernelTables_lt_firstPoolFrame)
  have number : (kernelTable block).number - 1 = block := rfl
  have upTo : (kernelTable block).number ≤ layout.kernelTables := kernel
  have present := sound.present_of_kernel kernel
  have word := sound.kernel (kernelTable block) index reserved
    (fun same => absurd same (kernelTable_ne_pageDirectory block))
  rw [bootWord, identityWord, if_neg (kernelTable_ne_pageDirectory block), number] at word
  rw [PhysicalMemory.leaf_of_present (block, index) present, sound.frame_link_of_kernel kernel,
    word]
  by_cases mapped : index < entriesPerTable ∧
      block * entriesPerTable + index < layout.totalFrames
  · rw [if_pos ⟨upTo, mapped⟩, if_pos mapped]
  · rw [if_neg (fun all => mapped all.2), if_neg mapped]
    rfl

theorem Sound.leaf_eq_empty (sound : m.Sound held) {place : Nat × Nat}
    (absent : (m.memory.leaf place).isPresent = false) : m.memory.leaf place = .empty := by
  by_cases linked : (m.memory.link place.1).isPresent = true
  · rcases PhysicalMemory.kernel_or_task linked with kernel | member
    · have leaf := sound.leaf_of_kernel kernel place.2
      by_cases mapped : place.2 < entriesPerTable ∧
          place.1 * entriesPerTable + place.2 < layout.totalFrames
      · rw [leaf, if_pos mapped, Entry.isPresent_new] at absent
        cases absent
      · rw [leaf, if_neg mapped]
    · by_cases bound : place.2 < entriesPerTable
      · exact sound.balanced.leafEmpty place (Layout.mem_taskPlaces.mpr ⟨member, bound⟩) absent
      · exact PhysicalMemory.leaf_of_le (Nat.le_of_not_lt bound)
  · exact PhysicalMemory.leaf_of_absent place (Bool.not_eq_true _ ▸ linked)

theorem Sound.leaf_identity (sound : m.Sound held) {block index : Nat}
    (bound : index < entriesPerTable)
    (inside : block * entriesPerTable + index < layout.totalFrames) :
    m.memory.leaf (block, index) = Entry.new ⟨block * entriesPerTable + index⟩ .userWritable := by
  have kernel : block < layout.kernelTables := by
    have below : block * entriesPerTable + 1 ≤ layout.memoryEnd / pageSize :=
      Nat.lt_of_le_of_lt (Nat.le_add_right _ index) inside
    have before := calc
      block * blockSize < (block * entriesPerTable + 1) * pageSize := by
        simp only [blockSize, entriesPerTable, pageSize]
        omega
      _ ≤ layout.memoryEnd := (Nat.le_div_iff_mul_le (by decide)).mp below
    simp only [Layout.kernelTables, blocksSpanned_eq, blockSize] at before ⊢
    omega
  rw [sound.leaf_of_kernel kernel, if_pos ⟨bound, inside⟩]

section Identity

variable (sound : m.Sound held) {addr : LinearAddr} (below : addr.toNat < layout.memoryEnd)

include sound below

theorem Sound.leaf_place_identity :
    m.memory.leaf addr.place = Entry.new ⟨addr.toNat / pageSize⟩ .userWritable ∧
      (m.memory.leaf addr.place).PointsAt ⟨addr.toNat / pageSize⟩ ∧
      addr.toNat / pageSize < layout.totalFrames := by
  have aligned := layout.memoryEnd_aligned
  have place : addr.dirIndex * entriesPerTable + addr.tableIndex = addr.toNat / pageSize := by
    simp only [LinearAddr.dirIndex, LinearAddr.tableIndex, blockSize, pageSize, entriesPerTable]
    omega
  have inside : addr.toNat / pageSize < layout.totalFrames := by
    simp only [Layout.totalFrames, pageSize] at *
    omega
  have leaf := sound.leaf_identity addr.tableIndex_lt (place.symm ▸ inside)
  rw [place] at leaf
  rw [LinearAddr.place, leaf]
  exact ⟨rfl, Entry.pointsAt_new inside rfl, inside⟩

theorem Sound.backingFrame_identity (mode : AccessMode) :
    backingFrame addr mode m = .ok ⟨addr.toNat / pageSize⟩ m := by
  obtain ⟨leaf, points, -⟩ := sound.leaf_place_identity below
  have walk := sound.walk_eq addr
  have writable : (m.memory.leaf addr.place).isWritable = true := by
    rw [leaf]
    exact Entry.isWritable_new _ _
  rw [if_pos points.1] at walk
  rw [backingFrame_of_writable walk writable mode, points.2]

end Identity

theorem Sound.identityMapped (sound : m.Sound held) : m.IdentityMapped := by
  intro addr below
  obtain ⟨-, points, -⟩ := sound.leaf_place_identity below
  refine ⟨m.memory.leaf addr.place, ?_, points.2⟩
  rw [sound.walk_eq, if_pos points.1]

def KeptOrEmptied (frame : Frame) (index : Nat) (word : UInt32) (m : Manager layout) : Prop :=
  (m.memory.page frame).word index = word ∨ (m.memory.page frame).word index = 0

section Words

variable (frame : Frame) (index : Nat) (word : UInt32)

theorem keeps_freeFrame (freed : Frame) :
    Keeps (@KeptOrEmptied layout frame index word) (freeFrame freed) :=
  keeps_onPool _ _ fun _ _ before => before

theorem keeps_setEntry_empty (slot : Slot) :
    Keeps (@KeptOrEmptied layout frame index word) (setEntry slot .empty) := by
  intro m before
  by_cases inside : slot.frame.number < layout.totalFrames
  · rw [after_of_ok ((setEntry_eq slot .empty m).trans (if_pos inside)), KeptOrEmptied]
    rw [PhysicalMemory.page_modifyPage]
    by_cases here : slot.frame = frame ∧ frame.number < layout.totalFrames
    · rw [if_pos here, Page.word_setWord]
      by_cases same : slot.index = index ∧ index < wordsPerPage
      · rw [if_pos same]
        exact Or.inr rfl
      · rw [if_neg same]
        exact before
    · rw [if_neg here]
      exact before
  · rw [after_of_error ((setEntry_eq slot .empty m).trans (if_neg inside))]
    exact before

end Words

theorem forM_releaseLeaf (table : Frame) :
    ((List.range entriesPerTable).forM (releaseLeaf table) : Operation layout FatalError Unit) =
      releaseLeaf table 0 >>= fun _ => (List.range' 1 1023).forM (releaseLeaf table) := by
  have split : List.range entriesPerTable = 0 :: List.range' 1 1023 :=
    List.range_eq_range'.trans List.range'_succ
  rw [split]
  rfl

theorem exists_freeFrame_of_ne_zero {frame : Frame} (inside : frame.number < layout.totalFrames)
    (counted : m.refCount? frame ≠ some 0) :
    ∃ pool, freeFrame frame m = .ok () { m with pool := pool } := by
  by_cases pooled : layout.IsPooled frame
  · have some : m.pool.count frame ≠ 0 := by
      intro zero
      rw [refCount?_eq pooled, zero] at counted
      exact counted rfl
    obtain ⟨pool, run, -⟩ := m.pool.exists_free pooled some
    exact ⟨pool, onPool_ok run⟩
  · have reserved : frame.number < layout.firstPoolFrame :=
      Nat.lt_of_not_le fun above => pooled ⟨above, inside⟩
    have run : FramePool.free frame m.pool = .ok () m.pool := by
      rw [FramePool.free, FramePool.place, if_pos reserved]
    exact ⟨m.pool, onPool_ok run⟩

theorem freeFrame_of_free {frame : Frame} (free : m.refCount? frame = some 0) :
    freeFrame frame m = .error (.doubleFree frame) m := by
  obtain ⟨i, rfl⟩ := FramePool.exists_place (FramePool.pooled_of_count? free)
  have zero : m.pool.counts.get i = 0 :=
    Option.some.inj ((m.pool.count?_frameAt i).symm.trans free)
  have run : FramePool.free (FramePool.frameAt i) m.pool =
      .error (.doubleFree (FramePool.frameAt i)) m.pool := by
    simp only [FramePool.free, FramePool.place_frameAt, zero]
  simp only [freeFrame, onPool, run]

section Block

variable {block : Nat} (sound : m.Sound held) (kernel : block < layout.kernelTables)

include sound kernel

theorem Sound.firstLeaf_of_kernel :
    m.memory.leaf (block, 0) = Entry.new ⟨block * entriesPerTable⟩ .userWritable ∧
      block * entriesPerTable < layout.totalFrames := by
  have aligned := layout.memoryEnd_aligned
  have inside : block * entriesPerTable < layout.totalFrames := by
    simp only [Layout.kernelTables, blocksSpanned_eq, Layout.totalFrames, pageSize,
      entriesPerTable] at *
    omega
  have first : block * entriesPerTable + 0 < layout.totalFrames := by
    rw [Nat.add_zero]
    exact inside
  have leaf := sound.leaf_identity (by decide) first
  rw [Nat.add_zero] at leaf
  exact ⟨leaf, inside⟩

theorem Sound.releaseLeaf_of_kernel :
    releaseLeaf (kernelTable block) 0 m =
      (freeFrame ⟨block * entriesPerTable⟩ >>= fun _ =>
        setEntry ⟨kernelTable block, 0⟩ .empty) m := by
  obtain ⟨leaf, inside⟩ := sound.firstLeaf_of_kernel kernel
  have present := sound.present_of_kernel kernel
  have entry := sound.entryAt_eq (block, 0) present
  rw [sound.frame_link_of_kernel kernel, leaf] at entry
  have mapped : (Entry.new ⟨block * entriesPerTable⟩ .userWritable).isPresent = true :=
    Entry.isPresent_new _ _
  have leads : (Entry.new ⟨block * entriesPerTable⟩ .userWritable).frame =
      ⟨block * entriesPerTable⟩ :=
    Entry.frame_new_of_lt inside _
  rw [releaseLeaf, bind_ok (ask_ok entry)]
  simp only [mapped, if_true, leads]

theorem Sound.exists_stripLeaf (counted : m.refCount? ⟨block * entriesPerTable⟩ ≠ some 0) :
    ∃ m', releaseLeaf (kernelTable block) 0 m = .ok () m' ∧
      (m'.memory.page (kernelTable block)).word 0 = 0 ∧ m'.memory.link = m.memory.link := by
  obtain ⟨leaf, inside⟩ := sound.firstLeaf_of_kernel kernel
  obtain ⟨pool, drop⟩ := exists_freeFrame_of_ne_zero inside counted
  have table := kernelTable_inside kernel
  have write := (setEntry_eq ⟨kernelTable block, 0⟩ .empty { m with pool := pool }).trans
    (if_pos table)
  refine ⟨_, (sound.releaseLeaf_of_kernel kernel).trans ((bind_ok drop).trans write), ?_, ?_⟩
  · rw [PhysicalMemory.page_modifyPage_self table, Page.word_setWord]
    exact if_pos ⟨rfl, by decide⟩
  · exact PhysicalMemory.link_modifyPage (kernelTable_ne_pageDirectory block) _

theorem Sound.releaseBlock_of_free (free : m.refCount? ⟨block * entriesPerTable⟩ = some 0) :
    releaseBlock block m = .error (.doubleFree ⟨block * entriesPerTable⟩) m := by
  have linked := sound.present_of_kernel kernel
  have first := (sound.releaseLeaf_of_kernel kernel).trans (bind_error (freeFrame_of_free free))
  rw [releaseBlock, bind_ok (ask_ok (dirEntry_eq m block))]
  simp only [linked, if_true]
  rw [sound.frame_link_of_kernel kernel, forM_releaseLeaf]
  exact bind_error (bind_error first)

end Block

/-- The range passes the check and starts at a table of the kernel, whose first page leads to a
frame that can be dropped. -/
structure Strips (m : Manager layout) (start : LinearAddr) (size : Nat) : Prop where
  aligned : start.isBlockAligned = true
  positive : 0 < start.dirIndex
  kernel : start.dirIndex < layout.kernelTables
  nonempty : 0 < size
  inside : start.dirIndex + blocksSpanned size ≤ entriesPerDirectory
  counted : m.refCount? ⟨start.dirIndex * entriesPerTable⟩ ≠ some 0

section Release

variable {start : LinearAddr} {size : Nat}

theorem keptOrEmptied_after_release {frame : Frame} {index : Nat} {word : UInt32}
    {m₁ : Manager layout}
    (checked : checkRelease start size = .ok ()) (nonempty : 0 < size)
    (linked : (m.memory.link start.dirIndex).isPresent = true)
    (first : releaseLeaf (m.memory.link start.dirIndex).frame 0 m = .ok () m₁)
    (kept : KeptOrEmptied frame index word m₁) :
    KeptOrEmptied frame index word ((release start size).after m) := by
  have read : (ask (·.dirEntry start.dirIndex) : Operation layout FatalError Entry) m =
      .ok (m.memory.link start.dirIndex) m := ask_ok (dirEntry_eq m start.dirIndex)
  obtain ⟨blocks, count⟩ : ∃ blocks, blocksSpanned size = blocks + 1 := by
    refine ⟨blocksSpanned size - 1, ?_⟩
    have covered := le_blocksSpanned_mul size
    simp only [blockSize] at covered
    omega
  have empties := @keeps_setEntry_empty layout frame index word
  have drops := @keeps_freeFrame layout frame index word
  have rest : Keeps (@KeptOrEmptied layout frame index word)
      ((List.range' (start.dirIndex + 1) blocks).forM releaseBlock) :=
    Keeps.forM fun block _ => Keeps.releaseBlock empties drops block
  have leaves : Keeps (@KeptOrEmptied layout frame index word)
      ((List.range' 1 1023).forM (releaseLeaf (m.memory.link start.dirIndex).frame)) :=
    Keeps.forM fun leaf _ => Keeps.releaseLeaf empties drops _ leaf
  have begun : KeptOrEmptied frame index word ((releaseBlock start.dirIndex).after m) := by
    rw [releaseBlock, after_bind read]
    simp only [linked, if_true]
    rw [forM_releaseLeaf]
    refine Keeps.after_bind (fun _ => Keeps.unlink empties drops _ _) ?_
    refine Keeps.after_bind (fun _ => leaves) ?_
    rw [after_of_ok first]
    exact kept
  rw [release, after_bind (ask_ok checked), after_thenFlush, count, List.range'_succ]
  exact Keeps.after_bind (fun _ => rest) begun

theorem Sound.walk_after_release (sound : m.Sound held) (strips : m.Strips start size) :
    ((release start size).after m).walk start = .ok none := by
  obtain ⟨aligned, positive, kernel, nonempty, inside, counted⟩ := strips
  have whole : start.toNat % blockSize = 0 := beq_iff_eq.mp aligned
  have above : start.toNat ≠ 0 := by
    intro zero
    rw [LinearAddr.dirIndex, zero] at positive
    exact absurd positive (by decide)
  have first : start.tableIndex = 0 := by
    simp only [LinearAddr.tableIndex, blockSize, pageSize, entriesPerTable] at *
    omega
  obtain ⟨m₁, run, blank, links⟩ := sound.exists_stripLeaf kernel counted
  have linked := sound.present_of_kernel kernel
  rw [← sound.frame_link_of_kernel kernel] at run
  have checked := checkRelease_eq_ok_iff.mpr ⟨aligned, above, inside⟩
  -- both words are either kept or emptied by all that the release does afterwards
  have leaf := keptOrEmptied_after_release checked nonempty linked run
    (show KeptOrEmptied (kernelTable start.dirIndex) 0 0 m₁ from Or.inl blank)
  have link := keptOrEmptied_after_release checked nonempty linked run
    (show KeptOrEmptied pageDirectory start.dirIndex (m.memory.link start.dirIndex).raw m₁ from
      Or.inl (congrArg Entry.raw (congrFun links start.dirIndex)))
  generalize (release start size).after m = m' at *
  have empty : (m'.memory.page (kernelTable start.dirIndex)).word 0 = 0 := or_self_iff.mp leaf
  rw [walk, leafSlot_eq, first]
  rcases link with same | gone
  · have same' : m'.memory.link start.dirIndex = m.memory.link start.dirIndex :=
      congrArg Entry.mk same
    rw [same', if_pos linked, sound.frame_link_of_kernel kernel]
    have entry := (Manager.entryAt_eq m' ⟨kernelTable start.dirIndex, 0⟩).trans
      (if_pos (kernelTable_inside kernel))
    rw [empty] at entry
    simp only [bind, Except.bind, pure, Except.pure, entry]
    rfl
  · have absent : (m'.memory.link start.dirIndex).isPresent = false := by
      rw [PhysicalMemory.link, gone]
      rfl
    rw [absent]
    rfl

theorem Sound.after_release (sound : m.Sound held) (harmless : ¬ m.Strips start size) :
    ((release start size).after m).Sound held := by
  cases check : checkRelease start size with
  | error error =>
      have refused : release start size m = .error error m := bind_error (ask_error check)
      rw [after_of_error refused]
      exact sound
  | ok _ =>
      obtain ⟨aligned, above, inside⟩ := checkRelease_eq_ok_iff.mp check
      by_cases task : layout.kernelTables ≤ start.dirIndex
      · obtain ⟨m', run, sound', -⟩ :=
          sound.exists_release (Layout.inTaskSpace_of_blocks task aligned inside) aligned
        rw [after_of_ok run]
        exact sound'
      · have kernel : start.dirIndex < layout.kernelTables := Nat.lt_of_not_le task
        have whole : start.toNat % blockSize = 0 := beq_iff_eq.mp aligned
        have positive : 0 < start.dirIndex := by
          simp only [LinearAddr.dirIndex, blockSize] at *
          omega
        rw [release, after_bind (ask_ok check), after_thenFlush]
        cases blocks : blocksSpanned size with
        | zero => exact sound
        | succ n =>
            have nonempty : 0 < size := by
              apply Nat.pos_of_ne_zero
              rintro rfl
              cases blocks
            have free : m.refCount? ⟨start.dirIndex * entriesPerTable⟩ = some 0 := by
              by_contra counted
              exact harmless ⟨aligned, positive, kernel, nonempty, inside, counted⟩
            -- the very first page of the range stops the release
            have stop := sound.releaseBlock_of_free kernel free
            have ends : (List.range' start.dirIndex (n + 1)).forM releaseBlock m =
                .error (.doubleFree ⟨start.dirIndex * entriesPerTable⟩) m := by
              rw [List.range'_succ]
              exact bind_error stop
            rw [after_of_error ends]
            exact sound

end Release

end Manager

open Manager

variable {layout : Layout} {m : Manager layout} {held : Finset Frame}

/-- A release leaves the kernel's mapping and the counts alone unless it starts at a later table of
the kernel; then it unmaps the page that it starts at. -/
theorem Reachable.release_keeps_identity_iff (reachable : Reachable layout m held)
    (start : LinearAddr) (size : Nat) :
    ((release start size).after m).IdentityMapped ∧
        ((release start size).after m).CountsExact held ↔ ¬ m.Strips start size := by
  have sound := reachable.sound
  constructor
  · rintro ⟨mapped, -⟩ strips
    have inside : start.toNat < layout.memoryEnd := by
      have kernel := strips.kernel
      have whole : start.toNat % blockSize = 0 := beq_iff_eq.mp strips.aligned
      simp only [LinearAddr.dirIndex, Layout.kernelTables, blocksSpanned_eq, blockSize] at *
      omega
    obtain ⟨entry, found, -⟩ := mapped start inside
    rw [sound.walk_after_release strips] at found
    cases found
  · intro harmless
    have sound' := sound.after_release harmless
    exact ⟨sound'.identityMapped, sound'.countsExact⟩

theorem release_keeps_identity_firstPage :
    ((release firstPage 1).after filled).IdentityMapped ∧
      ((release firstPage 1).after filled).CountsExact ∅ := by
  apply (Reachable.release_keeps_identity_iff reachable_filled firstPage 1).mpr
  intro strips
  exact absurd strips.kernel (by decide)

def Layout.cacheOnly : Layout :=
  { Layout.tiny with
    bufferEnd := 4198400
    memoryEnd := 4198400
    bufferEnd_aligned := by decide
    memoryEnd_aligned := by decide
    lowMem_le_bufferEnd := by decide
    bufferEnd_le_memoryEnd := by decide
    memoryEnd_fits := by decide
    reservedBytes_le_lowMem := by decide }

/-- The second block of the kernel is released like one of a task. -/
theorem release_unmaps_kernel :
    ¬ ((release (LinearAddr.ofNat 4194304) blockSize).after
      (boot .cacheOnly .empty)).IdentityMapped := by
  have cached : Layout.cacheOnly.IsCached ⟨1024⟩ := ⟨by decide, by decide⟩
  have counted : (boot .cacheOnly .empty).refCount? ⟨1024⟩ = some bufferCount := by
    rw [refCount?_eq cached.pooled, pool_boot, FramePool.count_initial_of_cached cached]
  have strips : (boot .cacheOnly .empty).Strips (LinearAddr.ofNat 4194304) blockSize := by
    refine ⟨by decide, by decide, by decide, by decide, by decide, ?_⟩
    exact fun free => absurd (counted.symm.trans free) (by decide)
  intro mapped
  obtain ⟨entry, found, -⟩ := mapped (LinearAddr.ofNat 4194304) (by decide)
  rw [(sound_boot _ _).walk_after_release strips] at found
  cases found

end PagedMemory

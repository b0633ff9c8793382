import PagedMemory.Boot
import PagedMemory.Proofs.Counts
import PagedMemory.Proofs.Entries
import PagedMemory.Proofs.Sequencing

/-!
Memory as it stands once the kernel has mapped itself. `word_boot` gives every word: links in the
directory, identity entries in the tables behind it, and zeros everywhere else.
-/

namespace PagedMemory

def identityWord (total links tables : Nat) (frame : Frame) (index : Nat) : UInt32 :=
  if frame = Manager.pageDirectory then
    if index < links then (Entry.new (Manager.kernelTable index) .userWritable).raw else 0
  else if frame.number ≤ tables ∧ index < entriesPerTable ∧
      (frame.number - 1) * entriesPerTable + index < total then
    (Entry.new ⟨(frame.number - 1) * entriesPerTable + index⟩ .userWritable).raw
  else 0

def bootWord (layout : Layout) (frame : Frame) (index : Nat) : UInt32 :=
  identityWord layout.totalFrames layout.kernelTables layout.kernelTables frame index

namespace Manager

variable {layout : Layout}

open Operation

theorem kernelTable_ne_pageDirectory (block : Nat) : kernelTable block ≠ pageDirectory := by
  intro same
  have number : block + 1 = 0 := congrArg Frame.number same
  omega

theorem kernelTable_inside {block : Nat} (kernel : block < layout.kernelTables) :
    (kernelTable block).number < layout.totalFrames := by
  have reserved := layout.kernelTables_lt_firstPoolFrame
  have total := layout.firstPoolFrame_add_poolFrames
  simp only [kernelTable]
  omega

/-- What the loops of the boot path keep: every word, and the counts. -/
structure Building (layout : Layout) (word : Frame → Nat → UInt32) (m : Manager layout) : Prop where
  words : ∀ frame index, (m.memory.page frame).word index = word frame index
  pool : m.pool = FramePool.initial layout

theorem Building.exists_setEntry {word : Frame → Nat → UInt32} {m : Manager layout}
    (built : Building layout word m) (changed : Frame → Nat → UInt32) (slot : Slot)
    (entry : Entry) (inside : slot.frame.number < layout.totalFrames)
    (bound : slot.index < entriesPerTable)
    (here : changed slot.frame slot.index = entry.raw)
    (elsewhere : ∀ frame index, (frame = slot.frame → index ≠ slot.index) →
      changed frame index = word frame index) :
    ∃ m', setEntry slot entry m = .ok () m' ∧ Building layout changed m' := by
  refine ⟨_, (setEntry_eq slot entry m).trans (if_pos inside), ⟨?_, built.pool⟩⟩
  intro frame index
  simp only [PhysicalMemory.page_modifyPage]
  by_cases same : slot.frame = frame
  · subst same
    rw [if_pos ⟨rfl, inside⟩, Page.word_setWord]
    by_cases place : slot.index = index
    · subst place
      rw [if_pos ⟨rfl, bound⟩, here]
    · have kept : ¬ (slot.index = index ∧ index < wordsPerPage) := fun both => place both.1
      rw [if_neg kept, built.words]
      exact (elsewhere _ _ fun _ => Ne.symm place).symm
  · rw [if_neg (fun both => same both.1), built.words]
    exact (elsewhere _ _ fun equal => absurd equal.symm same).symm

def partialWord (total block entries : Nat) (frame : Frame) (index : Nat) : UInt32 :=
  if frame = kernelTable block ∧ index < entries then
    (Entry.new ⟨block * entriesPerTable + index⟩ .userWritable).raw
  else identityWord total (block + 1) block frame index

theorem partialWord_zero (total block : Nat) (frame : Frame) (index : Nat) :
    partialWord total block 0 frame index = identityWord total (block + 1) block frame index := by
  rw [partialWord, if_neg]
  intro both
  exact absurd both.2 (Nat.not_lt_zero _)

theorem partialWord_full (total block : Nat) (frame : Frame) (index : Nat) :
    partialWord total block (min entriesPerTable (total - block * entriesPerTable)) frame index =
      identityWord total (block + 1) (block + 1) frame index := by
  by_cases table : frame = kernelTable block
  · subst table
    have number : (kernelTable block).number = block + 1 := rfl
    have beyond : ¬ ((kernelTable block).number ≤ block ∧ index < entriesPerTable ∧
        ((kernelTable block).number - 1) * entriesPerTable + index < total) := by omega
    rw [partialWord, identityWord, identityWord, if_neg (kernelTable_ne_pageDirectory block),
      if_neg (kernelTable_ne_pageDirectory block), if_neg beyond, number, Nat.add_sub_cancel]
    have same : kernelTable block = kernelTable block ∧
          index < min entriesPerTable (total - block * entriesPerTable) ↔
        block + 1 ≤ block + 1 ∧ index < entriesPerTable ∧
          block * entriesPerTable + index < total := by
      simp only [true_and, Nat.le_refl, Nat.lt_min]
      omega
    exact if_congr same rfl rfl
  · rw [partialWord, if_neg (fun both => table both.1), identityWord, identityWord]
    have same : frame.number ≤ block ↔ frame.number ≤ block + 1 := by
      constructor
      · exact fun below => Nat.le_succ_of_le below
      · intro upTo
        by_contra above
        exact table (Frame.ext_number (show frame.number = block + 1 by omega))
    exact if_congr Iff.rfl rfl (if_congr (and_congr same Iff.rfl) rfl rfl)

theorem exists_mapKernelBlock {block : Nat} (kernel : block < layout.kernelTables)
    {m : Manager layout}
    (built : Building layout (identityWord layout.totalFrames block block) m) :
    ∃ m', mapKernelBlock block m = .ok () m' ∧
      Building layout (identityWord layout.totalFrames (block + 1) (block + 1)) m' := by
  have room := layout.kernelTables_lt_entriesPerDirectory
  have linkHere : identityWord layout.totalFrames (block + 1) block pageDirectory block =
      (Entry.new (kernelTable block) .userWritable).raw := by
    rw [identityWord, if_pos rfl, if_pos (Nat.lt_succ_self block)]
  obtain ⟨linked, run, kept⟩ := built.exists_setEntry
    (identityWord layout.totalFrames (block + 1) block) (dirSlot block)
    (Entry.new (kernelTable block) .userWritable) layout.totalFrames_pos
    (Nat.lt_trans kernel room) linkHere (by
      intro frame index apart
      by_cases directory : frame = pageDirectory
      · have differ : index ≠ block := apart directory
        have same : index < block + 1 ↔ index < block := by omega
        simp only [identityWord, if_pos directory, same]
      · simp only [identityWord, if_neg directory])
  let entries := min entriesPerTable (layout.totalFrames - block * entriesPerTable)
  obtain ⟨filled, loop, done⟩ := forM_ok
    (fun index => setEntry ⟨kernelTable block, index⟩
      (Entry.new ⟨block * entriesPerTable + index⟩ .userWritable))
    (fun n => Building layout (partialWord layout.totalFrames block n)) (List.range entries) (by
      intro n inside m built
      rw [List.getElem_range]
      have bound : n < entriesPerTable := by
        rw [List.length_range] at inside
        omega
      apply built.exists_setEntry _ _ _ (kernelTable_inside kernel) bound
      · rw [partialWord, if_pos ⟨rfl, Nat.lt_succ_self n⟩]
      · intro frame index apart
        have same : frame = kernelTable block ∧ index < n + 1 ↔
            frame = kernelTable block ∧ index < n := by
          constructor
          · intro both
            have differ : index ≠ n := apart both.1
            exact ⟨both.1, by omega⟩
          · exact fun both => ⟨both.1, Nat.lt_succ_of_lt both.2⟩
        simp only [partialWord, same]) linked
    ⟨fun frame index => by rw [kept.words, partialWord_zero], kept.pool⟩
  refine ⟨filled, ?_, ⟨?_, done.pool⟩⟩
  · exact (bind_ok run).trans loop
  · intro frame index
    rw [done.words, List.length_range]
    exact partialWord_full _ _ _ _

theorem building_boot (layout : Layout) (console : Console) :
    Building layout (bootWord layout) (boot layout console) := by
  obtain ⟨mapped, loop, done⟩ := forM_ok mapKernelBlock
    (fun n => Building layout (identityWord layout.totalFrames n n))
    (List.range layout.kernelTables) (by
      intro n inside m built
      rw [List.length_range] at inside
      rw [List.getElem_range]
      exact exists_mapKernelBlock inside built) (blank layout console) (by
      refine ⟨?_, rfl⟩
      intro frame index
      have empty : (blank layout console).memory.page frame = Page.zero :=
        PhysicalMemory.page_blank frame
      rw [empty, Page.word_zero, identityWord]
      by_cases directory : frame = pageDirectory
      · rw [if_pos directory, if_neg (Nat.not_lt_zero _)]
      · rw [if_neg directory, if_neg]
        intro all
        exact directory (Frame.ext_number (Nat.le_zero.mp all.1)))
  have run : mapKernel (blank layout console) = .ok () mapped.flushed :=
    (bind_ok loop).trans (flush_eq mapped)
  rw [boot, after_of_ok run]
  rw [List.length_range] at done
  exact ⟨done.words, done.pool⟩

theorem word_boot (layout : Layout) (console : Console) (frame : Frame) (index : Nat) :
    ((boot layout console).memory.page frame).word index = bootWord layout frame index :=
  (building_boot layout console).words frame index

theorem pool_boot (layout : Layout) (console : Console) :
    (boot layout console).pool = FramePool.initial layout :=
  (building_boot layout console).pool

end Manager

end PagedMemory

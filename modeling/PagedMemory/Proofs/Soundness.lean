import PagedMemory.Proofs.KernelMap
import PagedMemory.Proofs.Ownership
import PagedMemory.Proofs.Tables

/-!
The invariant of the manager. `Sound` says that the books are balanced and that the kernel's own
words are those of the boot path; `sound_boot` says that it holds at the start. The lemmas on
`TablesSound` carry it over the writes that operations make, given that the books stay balanced.
-/

namespace PagedMemory

open Manager (pageDirectory kernelTable)

variable {layout : Layout}

theorem isReserved_of_lt {frame : Frame} (below : frame.number < layout.firstPoolFrame) :
    layout.isReserved frame = true :=
  decide_eq_true below

theorem Entry.frame_new_of_lt {frame : Frame} (inside : frame.number < layout.totalFrames)
    (flags : Flags) : (Entry.new frame flags).frame = frame :=
  Entry.frame_new _ _ (Nat.lt_trans inside layout.totalFrames_lt)

theorem Entry.pointsAt_new {frame : Frame} (inside : frame.number < layout.totalFrames)
    {flags : Flags} (present : flags.present = true) : (Entry.new frame flags).PointsAt frame :=
  ⟨(Entry.isPresent_new frame flags).trans present, Entry.frame_new_of_lt inside flags⟩

theorem Entry.pointsAt_of_update {link link' : Nat → Entry} {block : Nat} {table : Frame}
    (inside : table.number < layout.totalFrames)
    (links : link' = Function.update link block (Entry.new table .userWritable)) :
    (link' block).PointsAt table := by
  rw [links, Function.update_self]
  exact Entry.pointsAt_new inside rfl

theorem Layout.IsPooled.ne_directory {frame : Frame} (pooled : layout.IsPooled frame) :
    frame ≠ pageDirectory := by
  rintro rfl
  exact absurd pooled.1 (Nat.not_le.mpr layout.firstPoolFrame_pos)

theorem Layout.IsTaskFrame.ne_directory {frame : Frame} (task : layout.IsTaskFrame frame) :
    frame ≠ pageDirectory :=
  task.pooled.ne_directory

theorem PhysicalMemory.kernel_or_task {memory : PhysicalMemory layout.totalFrames} {block : Nat}
    (present : (memory.link block).isPresent = true) :
    block < layout.kernelTables ∨ block ∈ layout.taskBlocks := by
  by_cases kernel : block < layout.kernelTables
  · exact Or.inl kernel
  · exact Or.inr (Layout.mem_taskBlocks.mpr ⟨Nat.le_of_not_lt kernel, block_lt_of_link present⟩)

theorem PhysicalMemory.link_setLink_of_task (memory : PhysicalMemory layout.totalFrames)
    {block : Nat} (member : block ∈ layout.taskBlocks) (entry : Entry) :
    (memory.setLink block entry).link = Function.update memory.link block entry :=
  link_setLink entry (Layout.mem_taskBlocks.mp member).2 layout.totalFrames_pos

/-- Tables that agree with the counts, in memory that still maps the kernel. -/
structure TablesSound (memory : PhysicalMemory layout.totalFrames) (count : Frame → Nat)
    (held : Finset Frame) : Prop where
  balanced : Balanced layout memory.link memory.leaf count held
  kernel : ∀ frame index, layout.isReserved frame = true →
    (frame = pageDirectory → index < layout.kernelTables) →
    (memory.page frame).word index = bootWord layout frame index

namespace TablesSound

variable {memory : PhysicalMemory layout.totalFrames} {count count' : Frame → Nat}
  {held held' : Finset Frame} (sound : TablesSound memory count held)

include sound

theorem link_of_kernel {block : Nat} (kernel : block < layout.kernelTables) :
    memory.link block = Entry.new (kernelTable block) .userWritable := by
  have reserved : layout.isReserved pageDirectory = true :=
    isReserved_of_lt layout.firstPoolFrame_pos
  rw [PhysicalMemory.link, sound.kernel _ _ reserved (fun _ => kernel), bootWord, identityWord,
    if_pos rfl, if_pos kernel]

theorem present_of_kernel {block : Nat} (kernel : block < layout.kernelTables) :
    (memory.link block).isPresent = true := by
  rw [sound.link_of_kernel kernel]
  exact Entry.isPresent_new _ _

theorem frame_link_of_kernel {block : Nat} (kernel : block < layout.kernelTables) :
    (memory.link block).frame = kernelTable block := by
  rw [sound.link_of_kernel kernel]
  exact Entry.frame_new_of_lt (Manager.kernelTable_inside kernel) _

theorem link_inside {block : Nat} (present : (memory.link block).isPresent = true) :
    (memory.link block).frame.number < layout.totalFrames := by
  rcases PhysicalMemory.kernel_or_task present with kernel | task
  · rw [sound.frame_link_of_kernel kernel]
    exact Manager.kernelTable_inside kernel
  · exact (sound.balanced.linked block task present).1.2

theorem link_ne_directory {block : Nat} (present : (memory.link block).isPresent = true) :
    (memory.link block).frame ≠ pageDirectory := by
  rcases PhysicalMemory.kernel_or_task present with kernel | task
  · rw [sound.frame_link_of_kernel kernel]
    exact Manager.kernelTable_ne_pageDirectory block
  · intro same
    have above := (sound.balanced.linked block task present).1.kernelTables_lt
    rw [same] at above
    exact absurd above (Nat.not_lt_zero _)

theorem link_ne_task {block : Nat} {frame : Frame} (task : layout.IsTaskFrame frame)
    (unlinked : ∀ block ∈ layout.taskBlocks, (memory.link block).isPresent = true →
      (memory.link block).frame ≠ frame)
    (present : (memory.link block).isPresent = true) : (memory.link block).frame ≠ frame := by
  rcases PhysicalMemory.kernel_or_task present with kernel | member
  · rw [sound.frame_link_of_kernel kernel]
    rintro rfl
    have above : layout.kernelTables < block + 1 := task.kernelTables_lt
    omega
  · exact unlinked block member present

theorem link_alone {block other : Nat} (member : block ∈ layout.taskBlocks)
    (present : (memory.link block).isPresent = true)
    (present' : (memory.link other).isPresent = true)
    (same : (memory.link other).frame = (memory.link block).frame) : other = block := by
  rcases PhysicalMemory.kernel_or_task present' with kernel | second
  · have above := (sound.balanced.linked block member present).1.kernelTables_lt
    rw [← same, sound.frame_link_of_kernel kernel] at above
    have number : (kernelTable other).number = other + 1 := rfl
    omega
  · exact sound.balanced.link_injective member second present present' same

section OnlyPage

variable {memory' : PhysicalMemory layout.totalFrames} {frame : Frame}
  (only : memory.OnlyPage memory' frame) (task : layout.IsTaskFrame frame)

include only task

theorem kernel_onlyPage : ∀ other index, layout.isReserved other = true →
    (other = pageDirectory → index < layout.kernelTables) →
    (memory'.page other).word index = bootWord layout other index := by
  intro other index reserved bound
  have apart : other ≠ frame := by
    rintro rfl
    rw [task.not_reserved] at reserved
    cases reserved
  rw [only other apart]
  exact sound.kernel other index reserved bound

variable (unlinked : ∀ block ∈ layout.taskBlocks, (memory.link block).isPresent = true →
  (memory.link block).frame ≠ frame)

include unlinked

theorem leaf_onlyPage : memory'.leaf = memory.leaf :=
  only.leaf task.ne_directory fun _ => sound.link_ne_task task unlinked

theorem onlyPage (books : Balanced layout memory.link memory.leaf count' held') :
    TablesSound memory' count' held' := by
  refine ⟨?_, sound.kernel_onlyPage only task⟩
  rw [only.link task.ne_directory, sound.leaf_onlyPage only task unlinked]
  exact books

theorem seen_onlyPage (place : Nat × Nat) :
    memory'.seen place =
      if (memory.leaf place).PointsAt frame then memory'.page frame else memory.seen place := by
  have same := congrFun (sound.leaf_onlyPage only task unlinked) place
  by_cases points : (memory.leaf place).PointsAt frame
  · rw [if_pos points, PhysicalMemory.seen_of_present place (same ▸ points.1), same, points.2]
  · rw [if_neg points]
    apply PhysicalMemory.seen_congr same
    intro present
    exact only _ fun equal => points ⟨present, equal⟩

end OnlyPage

theorem link_setLeaf (place : Nat × Nat) (present : (memory.link place.1).isPresent = true)
    (entry : Entry) : (memory.setLeaf place entry).link = memory.link :=
  PhysicalMemory.link_setLeaf (sound.link_ne_directory present) entry

section Leaf

variable {place : Nat × Nat} (inside : place ∈ layout.taskPlaces)
  (present : (memory.link place.1).isPresent = true) (entry : Entry)

include inside present

theorem leaf_setLeaf :
    (memory.setLeaf place entry).leaf = Function.update memory.leaf place entry := by
  obtain ⟨member, bound⟩ := Layout.mem_taskPlaces.mp inside
  exact PhysicalMemory.leaf_setLeaf entry present bound (sound.link_inside present)
    (sound.link_ne_directory present) (fun _ => sound.link_alone member present)

theorem setLeaf (books : Balanced layout memory.link (Function.update memory.leaf place entry)
    count' held') : TablesSound (memory.setLeaf place entry) count' held' := by
  obtain ⟨member, -⟩ := Layout.mem_taskPlaces.mp inside
  refine ⟨?_, sound.kernel_onlyPage (memory.onlyPage_modifyPage _ _)
    (sound.balanced.linked _ member present).1⟩
  rw [sound.link_setLeaf place present, sound.leaf_setLeaf inside present]
  exact books

theorem seen_setLeaf (apart : entry.isPresent = true → entry.frame ≠ (memory.link place.1).frame)
    {other : Nat × Nat} (member : other ∈ layout.taskPlaces) :
    (memory.setLeaf place entry).seen other =
      Function.update memory.seen place
        (if entry.isPresent then memory.page entry.frame else Page.zero) other := by
  have leaves := congrFun (sound.leaf_setLeaf inside present entry) other
  by_cases same : other = place
  · subst same
    rw [Function.update_self] at leaves ⊢
    rw [PhysicalMemory.seen, leaves]
    by_cases mapped : entry.isPresent = true
    · rw [if_pos mapped, if_pos mapped, PhysicalMemory.setLeaf,
        PhysicalMemory.page_modifyPage_of_ne (apart mapped).symm]
    · rw [if_neg mapped, if_neg mapped]
  · rw [Function.update_of_ne same] at leaves ⊢
    apply PhysicalMemory.seen_congr leaves
    intro mapped
    have table := (Layout.mem_taskPlaces.mp inside).1
    exact PhysicalMemory.page_modifyPage_of_ne
      (sound.balanced.leaf_ne_link table present member mapped).symm _

theorem setFlags (mapped : (memory.leaf place).isPresent = true) (mapped' : entry.isPresent = true)
    (frame : entry.frame = (memory.leaf place).frame)
    (once : entry.isWritable = true → count entry.frame = 1) :
    TablesSound (memory.setLeaf place entry) count held ∧
      ∀ other ∈ layout.taskPlaces, (memory.setLeaf place entry).seen other = memory.seen other := by
  have table := (Layout.mem_taskPlaces.mp inside).1
  have apart : entry.frame ≠ (memory.link place.1).frame := by
    rw [frame]
    exact sound.balanced.leaf_ne_link table present inside mapped
  refine ⟨sound.setLeaf inside present entry
    (sound.balanced.setFlags inside mapped mapped' frame once), ?_⟩
  intro other member
  rw [sound.seen_setLeaf inside present entry (fun _ => apart) member, if_pos mapped', frame,
    ← PhysicalMemory.seen_of_present place mapped, Function.update_eq_self]

theorem addSharer {source : Nat × Nat} (inside' : source ∈ layout.taskPlaces)
    (mapped : (memory.leaf source).isPresent = true)
    (readOnly : (memory.leaf source).isWritable = false)
    (vacant : (memory.leaf place).isPresent = false) (index : place.2 = source.2)
    (mapped' : entry.isPresent = true) (readOnly' : entry.isWritable = false)
    (frame : entry.frame = (memory.leaf source).frame) :
    TablesSound (memory.setLeaf place entry)
        (Function.update count (memory.leaf source).frame (count (memory.leaf source).frame + 1))
        held ∧
      ∀ other ∈ layout.taskPlaces, (memory.setLeaf place entry).seen other =
        Function.update memory.seen place (memory.seen source) other := by
  have table := (Layout.mem_taskPlaces.mp inside).1
  have apart : entry.frame ≠ (memory.link place.1).frame := by
    rw [frame]
    exact sound.balanced.leaf_ne_link table present inside' mapped
  refine ⟨sound.setLeaf inside present entry (sound.balanced.addSharer inside' mapped readOnly
    inside vacant index mapped' readOnly' frame), ?_⟩
  intro other member
  rw [sound.seen_setLeaf inside present entry (fun _ => apart) member, if_pos mapped', frame,
    ← PhysicalMemory.seen_of_present source mapped]

end Leaf

theorem seen_setLink {block : Nat} {entry : Entry}
    (leaves : (memory.setLink block entry).leaf = memory.leaf) {place : Nat × Nat}
    (inside : place ∈ layout.taskPlaces) :
    (memory.setLink block entry).seen place = memory.seen place := by
  apply PhysicalMemory.seen_congr (congrFun leaves place)
  intro mapped
  exact PhysicalMemory.page_modifyPage_of_ne
    (sound.balanced.mapped place inside mapped).ne_directory.symm _

section Link

variable {block : Nat} (member : block ∈ layout.taskBlocks) (entry : Entry)

include member

theorem leaf_setLink_of_blank (absent : (memory.link block).isPresent = false)
    (blank : memory.page entry.frame = Page.zero) (task : layout.IsTaskFrame entry.frame) :
    (memory.setLink block entry).leaf = memory.leaf :=
  PhysicalMemory.leaf_setLink_of_blank (Layout.mem_taskBlocks.mp member).2 layout.totalFrames_pos
    (fun _ => sound.link_ne_directory) absent blank task.ne_directory

theorem leaf_setLink_empty (vacant : ∀ index, memory.leaf (block, index) = .empty) :
    (memory.setLink block .empty).leaf = memory.leaf :=
  PhysicalMemory.leaf_setLink_empty (Layout.mem_taskBlocks.mp member).2 layout.totalFrames_pos
    (fun _ => sound.link_ne_directory) vacant

theorem setLink (leaves : (memory.setLink block entry).leaf = memory.leaf)
    (books : Balanced layout (Function.update memory.link block entry) memory.leaf count' held') :
    TablesSound (memory.setLink block entry) count' held' := by
  constructor
  · rw [memory.link_setLink_of_task member, leaves]
    exact books
  · intro frame index reserved bound
    rw [← sound.kernel frame index reserved bound]
    by_cases directory : pageDirectory = frame
    · subst directory
      have kernel := bound rfl
      have above := (Layout.mem_taskBlocks.mp member).1
      have kept : ¬ (block = index ∧ index < wordsPerPage) := by omega
      have directory : pageDirectory.number < layout.totalFrames := layout.totalFrames_pos
      rw [PhysicalMemory.setLink, PhysicalMemory.page_modifyPage_self directory,
        Page.word_setWord, if_neg kept]
    · rw [PhysicalMemory.setLink, PhysicalMemory.page_modifyPage_of_ne directory]

end Link

end TablesSound

namespace Manager

/-- The books of this manager are balanced, the caller holding the frames `held`. -/
def Sound (m : Manager layout) (held : Finset Frame) : Prop :=
  TablesSound m.memory m.pool.count held

theorem Sound.of_same {m m' : Manager layout} {held : Finset Frame} (sound : m.Sound held)
    (memory : m'.memory = m.memory) (pool : m'.pool = m.pool) : m'.Sound held := by
  rw [Sound, memory, pool]
  exact sound

theorem link_boot_of_task {block : Nat} (member : block ∈ layout.taskBlocks) (console : Console) :
    (boot layout console).memory.link block = .empty := by
  have above := (Layout.mem_taskBlocks.mp member).1
  rw [PhysicalMemory.link, word_boot, bootWord, identityWord, if_pos rfl,
    if_neg (Nat.not_lt.mpr above)]
  rfl

theorem sound_boot (layout : Layout) (console : Console) : (boot layout console).Sound ∅ := by
  have links : ∀ block ∈ layout.taskBlocks, (boot layout console).memory.link block = .empty :=
    fun _ member => link_boot_of_task member console
  have leaves : ∀ place ∈ layout.taskPlaces,
      (boot layout console).memory.leaf place = .empty := by
    intro place inside
    apply PhysicalMemory.leaf_of_absent
    rw [links _ (Layout.mem_taskPlaces.mp inside).1]
    exact Entry.isPresent_empty
  refine ⟨⟨?_, ?_, ?_, ?_, fun block member _ => links block member,
    fun place inside _ => leaves place inside, ?_, ?_, ?_⟩, ?_⟩
  · intro block member present
    rw [links block member] at present
    cases present
  · intro place inside present
    rw [leaves place inside] at present
    cases present
  · intro place inside present
    rw [leaves place inside] at present
    cases present
  · intro place inside _ _ present
    rw [leaves place inside] at present
    cases present
  · intro frame holds
    exact absurd holds (Finset.notMem_empty frame)
  · intro frame cached
    rw [pool_boot]
    exact FramePool.count_initial_of_cached cached
  · intro frame task
    have unlinked : linksTo layout (boot layout console).memory.link frame = ∅ := by
      apply Finset.filter_eq_empty_iff.mpr
      intro block member points
      rw [links block member] at points
      cases points.1
    have unmapped : leavesTo layout (boot layout console).memory.leaf frame = ∅ := by
      apply Finset.filter_eq_empty_iff.mpr
      intro place inside points
      rw [leaves place inside] at points
      cases points.1
    rw [pool_boot, FramePool.count_initial_of_task task, unlinked, unmapped,
      if_neg (Finset.notMem_empty frame), Finset.card_empty, Finset.card_empty]
  · intro frame index _ _
    exact word_boot layout console frame index

end Manager

end PagedMemory

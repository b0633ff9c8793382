import PagedMemory.Proofs.RoundTrip

/-!
How faults end. The count of the frame behind a page and the number of free frames settle the
outcome of a fault. What has changed is told in full: one leaf, perhaps one link, and the counts of
the frames that these lead to.
-/

namespace PagedMemory

namespace Manager

variable {layout : Layout} {m m' : Manager layout} {held : Finset Frame}

open Operation

/-- A write within the page at `place` goes through at once: no fault, no count and no table
changes, and the bytes are there. -/
def WritesThrough (m : Manager layout) (place : Nat × Nat) : Prop :=
  ∀ (addr : LinearAddr) (data : List UInt8), addr.place = place →
    addr.pageOffset + data.length ≤ pageSize →
    ∃ memory, writeUser addr data m = .ok () { m with memory := memory } ∧
      memory.link = m.memory.link ∧ memory.leaf = m.memory.leaf ∧
      ∀ other : LinearAddr, layout.kernelTables ≤ other.dirIndex →
        ({ m with memory := memory } : Manager layout).byteAt other =
          .ok (m.contents.store addr data other)

theorem Sound.writeUser_of_backed (sound : m'.Sound held) {addr : LinearAddr}
    (task : layout.kernelTables ≤ addr.dirIndex) {frame : Frame}
    (backed : backingFrame addr .userWrite m = .ok frame m')
    (points : (m'.memory.leaf addr.place).PointsAt frame)
    (writable : (m'.memory.leaf addr.place).isWritable = true) {data : List UInt8}
    (some : data.length ≠ 0) (fits : addr.pageOffset + data.length ≤ pageSize) :
    ∃ memory, writeUser addr data m = .ok () { m' with memory := memory } ∧
      memory.link = m'.memory.link ∧ memory.leaf = m'.memory.leaf ∧
      ∀ other : LinearAddr, layout.kernelTables ≤ other.dirIndex →
        ({ m' with memory := memory } : Manager layout).byteAt other =
          .ok (m'.contents.store addr data other) := by
  have owned := (sound.balanced.mapped _ (Layout.place_mem_taskPlaces task) points.1).2
  rw [points.2] at owned
  have whole : data.length ≤ pageSize - addr.pageOffset := by omega
  obtain ⟨m₁, run, sound₁, leaf, link, -, stored⟩ := sound.exists_writeBytes task points fits
  cases (orFatal_ok (writeBytes_of_inside owned addr.pageOffset data m')).symm.trans run
  refine ⟨_, ?_, link, leaf, ?_⟩
  · rw [writeUser, storeUser_firstPage backed owned some, List.take_of_length_le whole,
      List.drop_of_length_le whole, storeUser_nil]
    rfl
  · intro other task'
    rw [sound₁.byteAt_eq task', stored writable other task']

theorem Sound.writesThrough (sound : m.Sound held) {place : Nat × Nat}
    (inside : place ∈ layout.taskPlaces) (present : (m.memory.leaf place).isPresent = true)
    (writable : (m.memory.leaf place).isWritable = true) : m.WritesThrough place := by
  rintro addr data rfl fits
  have task := Layout.kernelTables_le_of_mem inside
  by_cases empty : data.length = 0
  · obtain rfl := List.length_eq_zero_iff.mp empty
    refine ⟨m.memory, ?_, rfl, rfl, ?_⟩
    · rw [writeUser, storeUser_nil]
      rfl
    · intro other task'
      rw [Contents.store_nil]
      exact sound.byteAt_eq task'
  · have found := sound.walk_eq addr
    rw [if_pos present] at found
    have backed := backingFrame_of_writable found writable .userWrite
    exact sound.writeUser_of_backed task backed ⟨present, rfl⟩ writable empty fits

section Table

variable {link link' : Nat → Entry} {block : Nat}

theorem TableGiven.count_eq {count count' : Frame → Nat}
    (given : TableGiven layout link link' count count' block) {frame : Frame}
    (used : count frame ≠ 0) : count' frame = count frame := by
  cases given with
  | kept _ _ counts => rw [counts]
  | made _ _ free _ counts =>
      rw [counts]
      apply Function.update_of_ne
      rintro rfl
      exact used free

theorem TableGiven.count_le {count count' : Frame → Nat}
    (given : TableGiven layout link link' count count' block) {frame : Frame}
    (few : count frame ≤ 1) : count' frame ≤ 1 := by
  cases given with
  | kept _ _ counts =>
      rw [counts]
      exact few
  | made _ _ _ _ counts =>
      rw [counts, Function.update_apply]
      split
      · exact Nat.le_refl 1
      · exact few

theorem TableGiven.freeCount_add {pool pool' : FramePool layout}
    (given : TableGiven layout link link' pool.count pool'.count block) :
    pool'.freeCount + (if (link block).isPresent then 0 else 1) = pool.freeCount := by
  cases given with
  | kept present _ counts => rw [if_pos present, FramePool.freeCount_congr counts, Nat.add_zero]
  | made absent task free _ counts =>
      rw [if_neg (ne_true_of_eq_false absent)]
      exact FramePool.freeCount_of_taken task.pooled free counts

end Table

section Separated

variable {place : Nat × Nat} {copy : Frame} (sound : m.Sound held)
  (inside : place ∈ layout.taskPlaces) (mapped : (m.memory.leaf place).isPresent = true)
  (separated : Separated m m' held place copy)

include sound inside mapped separated

theorem Separated.two_le : 2 ≤ m.pool.count (m.memory.leaf place).frame := by
  have counted := sound.balanced.count_pos_of_leaf inside mapped
  have shared := separated.shared
  omega

theorem Separated.frame_ne : (m.memory.leaf place).frame ≠ copy := by
  intro same
  have shared := separated.two_le sound inside mapped
  rw [same, separated.free] at shared
  omega

theorem Separated.count_copy : m'.pool.count copy = 1 := by
  rw [separated.count, Function.update_of_ne (separated.frame_ne sound inside mapped).symm,
    Function.update_self]

theorem Separated.count_frame : m'.pool.count (m.memory.leaf place).frame + 1 =
    m.pool.count (m.memory.leaf place).frame := by
  have shared := separated.two_le sound inside mapped
  rw [separated.count, Function.update_self]
  omega

theorem Separated.free_iff (other : Frame) :
    m'.pool.count other = 0 ↔ m.pool.count other = 0 ∧ other ≠ copy := by
  have shared := separated.two_le sound inside mapped
  rw [separated.count]
  by_cases same : other = (m.memory.leaf place).frame
  · rw [same, Function.update_self]
    omega
  · rw [Function.update_of_ne same]
    by_cases taken : other = copy
    · rw [taken, Function.update_self]
      simp only [Nat.one_ne_zero, ne_eq, not_true_eq_false, and_false]
    · rw [Function.update_of_ne taken]
      exact (and_iff_left taken).symm

theorem Separated.freeCount_succ : m'.pool.freeCount + 1 = m.pool.freeCount :=
  FramePool.freeCount_succ_of_free separated.task.pooled separated.free
    (separated.free_iff sound inside mapped)

end Separated

theorem Separated.count_of_ne {place : Nat × Nat} {copy other : Frame}
    (separated : Separated m m' held place copy) (apart : other ≠ copy)
    (apart' : other ≠ (m.memory.leaf place).frame) :
    m'.pool.count other = m.pool.count other := by
  rw [separated.count, Function.update_of_ne apart', Function.update_of_ne apart]

section Exclusive

variable {place : Nat × Nat} {resolution : Resolution}
  (ends : Exclusive m m' held place resolution)

include ends

theorem Exclusive.restored_iff :
    resolution = .restored ↔ m.pool.count (m.memory.leaf place).frame = 1 := by
  cases ends with
  | restored ends => exact ⟨fun _ => ends.once, fun _ => rfl⟩
  | copied ends => exact ⟨nofun, fun once => absurd once ends.shared⟩
  | killed shared => exact ⟨nofun, fun once => absurd once shared⟩

theorem Exclusive.copied_iff : (∃ copy, resolution = .copied copy) ↔
    m.pool.count (m.memory.leaf place).frame ≠ 1 ∧ 0 < m.pool.freeCount := by
  cases ends with
  | restored ends => exact ⟨nofun, fun copies => absurd ends.once copies.1⟩
  | copied ends =>
      refine ⟨fun _ => ⟨ends.shared, Nat.pos_of_ne_zero ?_⟩, fun _ => ⟨_, rfl⟩⟩
      intro none
      have next := ends.next
      rw [FramePool.highestFree_eq_none_iff.mpr none] at next
      cases next
  | killed _ full =>
      have none := FramePool.highestFree_eq_none_iff.mp full
      exact ⟨nofun, fun copies => absurd none (Nat.ne_of_gt copies.2)⟩

theorem Exclusive.killed_iff : resolution = .killed ↔
    m.pool.count (m.memory.leaf place).frame ≠ 1 ∧ m.pool.freeCount = 0 := by
  have restored := ends.restored_iff
  have copied := ends.copied_iff
  cases ends with
  | restored => exact ⟨nofun, fun killed => absurd (restored.mp rfl) killed.1⟩
  | copied =>
      have some := (copied.mp ⟨_, rfl⟩).2
      exact ⟨nofun, fun killed => absurd killed.2 (Nat.ne_of_gt some)⟩
  | killed shared full =>
      exact ⟨fun _ => ⟨shared, FramePool.highestFree_eq_none_iff.mp full⟩, fun _ => rfl⟩

theorem Exclusive.sound (before : m.Sound held) : m'.Sound held := by
  cases ends with
  | restored ends => exact ends.opened.sound
  | copied ends => exact ends.opened.sound
  | killed _ _ memory pool => exact before.of_same memory pool

theorem Exclusive.frame : m'.memory.link = m.memory.link ∧
    (∀ other, other ≠ place → m'.memory.leaf other = m.memory.leaf other) ∧
    ∀ other ∈ layout.taskPlaces, m'.memory.seen other = m.memory.seen other := by
  cases ends with
  | restored ends => exact ⟨ends.link, ends.opened.leaf, ends.opened.seen⟩
  | copied ends => exact ⟨ends.link, ends.opened.leaf, ends.opened.seen⟩
  | killed _ _ memory _ =>
      rw [memory]
      exact ⟨rfl, fun _ _ => rfl, fun _ _ => rfl⟩

theorem Exclusive.writesThrough (inside : place ∈ layout.taskPlaces)
    (alive : resolution ≠ .killed) : m'.WritesThrough place := by
  have opened := ends.opened alive
  exact opened.sound.writesThrough inside opened.present opened.writable

end Exclusive

theorem Sound.exists_writeUser_of_present (sound : m.Sound held) {addr : LinearAddr}
    (task : layout.kernelTables ≤ addr.dirIndex) {data : List UInt8} (some : data.length ≠ 0)
    (fits : addr.pageOffset + data.length ≤ pageSize)
    (present : (m.memory.leaf addr.place).isPresent = true) (room : 0 < m.pool.freeCount) :
    ∃ m', writeUser addr data m = .ok () m' ∧ (m'.memory.leaf addr.place).isPresent = true ∧
      ∀ place, place ≠ addr.place → m'.memory.leaf place = m.memory.leaf place := by
  have found := sound.backingFrame_of_present task present .userWrite
  generalize run : backingFrame addr .userWrite m = result at found
  cases found with
  | mapped _ pass =>
      obtain ⟨memory, wrote, -, leaf, -⟩ :=
        sound.writeUser_of_backed task run ⟨present, rfl⟩ (pass rfl) some fits
      refine ⟨_, wrote, ?_, fun place _ => congrFun leaf place⟩
      rw [leaf]
      exact present
  | filled ends => exact absurd present (ne_true_of_eq_false ends.absent)
  | unfilled absent => exact absurd present (ne_true_of_eq_false absent)
  | exclusive _ _ alive ends =>
      have opened := ends.opened alive
      obtain ⟨memory, wrote, -, leaf, -⟩ := opened.sound.writeUser_of_backed task run
        ⟨opened.present, rfl⟩ opened.writable some fits
      refine ⟨_, wrote, ?_,
        fun place apart => (congrFun leaf place).trans (opened.leaf place apart)⟩
      rw [leaf]
      exact opened.present
  | shared _ _ ends => exact absurd (ends.killed_iff.mp rfl).2 (Nat.ne_of_gt room)

/-- A read within a mapped page changes nothing at all. -/
theorem Sound.exists_readUser_of_present (sound : m.Sound held) {addr : LinearAddr}
    (task : layout.kernelTables ≤ addr.dirIndex) {length : Nat}
    (fits : addr.pageOffset + length ≤ pageSize)
    (present : (m.memory.leaf addr.place).isPresent = true) :
    ∃ bytes, readUser addr length m = .ok bytes m := by
  by_cases empty : length = 0
  · subst empty
    rw [readUser_zero]
    exact ⟨[], rfl⟩
  · have found := sound.backingFrame_of_present task present .read
    generalize run : backingFrame addr .read m = result at found
    cases found with
    | mapped =>
        have whole : firstChunk addr length = length := Nat.min_eq_right (by omega)
        have bytes := sound.readBytes_eq task ⟨present, rfl⟩ fits
        rw [readUser_of_ne_zero addr empty, bind_ok run, whole,
          bind_ok (orFatal_ok (ask_ok bytes)), Nat.sub_self, readUser_zero]
        exact ⟨_, rfl⟩
    | filled ends => exact absurd present (ne_true_of_eq_false ends.absent)
    | unfilled absent => exact absurd present (ne_true_of_eq_false absent)
    | exclusive user => cases user
    | shared user => cases user

section ZeroFilled

variable {place : Nat × Nat} {frame : Frame} (filled : ZeroFilled m m' held place frame)

include filled

theorem ZeroFilled.count_frame : m'.pool.count frame = 1 := by
  have used : Function.update m.pool.count frame 1 frame ≠ 0 := by
    rw [Function.update_self]
    exact Nat.one_ne_zero
  rw [filled.table.count_eq used, Function.update_self]

theorem ZeroFilled.count_eq {other : Frame} (used : m.pool.count other ≠ 0) :
    m'.pool.count other = m.pool.count other := by
  have apart : other ≠ frame := by
    rintro rfl
    exact used filled.free
  have used' : Function.update m.pool.count frame 1 other ≠ 0 := by
    rw [Function.update_of_ne apart]
    exact used
  rw [filled.table.count_eq used', Function.update_of_ne apart]

theorem ZeroFilled.count_le {other : Frame} (unused : m.pool.count other = 0) :
    m'.pool.count other ≤ 1 := by
  apply filled.table.count_le
  rw [Function.update_apply, unused]
  split
  · exact Nat.le_refl 1
  · exact Nat.zero_le 1

theorem ZeroFilled.tables :
    (m.memory.link place.1).isPresent = true ∧ m'.memory.link = m.memory.link ∧
        (∀ other, other ≠ frame → m'.refCount? other = m.refCount? other) ∨
      (m.memory.link place.1).isPresent = false ∧
        ∃ table, table ≠ frame ∧ m.refCount? table = some 0 ∧ m'.refCount? table = some 1 ∧
          m'.memory.link = Function.update m.memory.link place.1
            (Entry.new table .userWritable) ∧
          (∀ index, index ≠ place.2 → m'.memory.leaf (place.1, index) = .empty) ∧
          ∀ other, other ≠ frame → other ≠ table →
            m'.refCount? other = m.refCount? other := by
  cases filled.table with
  | kept present links counts =>
      refine Or.inl ⟨present, links, ?_⟩
      intro other apart
      apply refCount?_congr
      rw [counts, Function.update_of_ne apart]
  | @made table absent task free links counts =>
      have apart : table ≠ frame := by
        rintro rfl
        rw [Function.update_self] at free
        cases free
      rw [Function.update_of_ne apart] at free
      refine Or.inr ⟨absent, table, apart, ?_, ?_, links, ?_, ?_⟩
      · rw [refCount?_eq task.pooled, free]
      · rw [refCount?_eq task.pooled, counts, Function.update_self]
      · intro index other
        rw [filled.leaf, Function.update_of_ne (fun same => other (congrArg Prod.snd same)),
          PhysicalMemory.leaf_of_absent (place.1, index) absent]
      · intro other apart apart'
        apply refCount?_congr
        rw [counts, Function.update_of_ne apart', Function.update_of_ne apart]

theorem ZeroFilled.freeCount_add :
    m'.pool.freeCount + m.framesNeeded place.1 = m.pool.freeCount := by
  obtain ⟨pool, taken⟩ := m.pool.exists_count_update filled.task.pooled 1
  have first := FramePool.freeCount_of_taken filled.task.pooled filled.free taken
  have table := filled.table
  rw [← taken] at table
  have second := table.freeCount_add
  rw [framesNeeded]
  split at second
  · rename_i present
    rw [if_pos present]
    omega
  · rename_i absent
    rw [if_neg absent]
    omega

end ZeroFilled

end Manager

open Manager

variable {layout : Layout} {m : Manager layout} {held : Finset Frame}

/-- A write-protect fault on a mapped page, in full. The page is opened in place if its frame has
one owner; otherwise it gets a copy in a free frame, which nothing referred to; and without a free
frame nothing changes at all. No other leaf changes, tasks find the same bytes, and a page that has
been opened can be written without another fault. -/
theorem Reachable.writeProtect_outcome (reachable : Reachable layout m held) {addr : LinearAddr}
    (task : layout.kernelTables ≤ addr.dirIndex) {frame : Frame}
    (maps : (m.memory.leaf addr.place).PointsAt frame) :
    ∃ resolution m', resolveWriteProtect addr m = .ok resolution m' ∧
      (resolution = .restored ↔ m.refCount? frame = some 1) ∧
      ((∃ copy, resolution = .copied copy) ↔
        m.refCount? frame ≠ some 1 ∧ 0 < m.pool.freeCount) ∧
      (resolution = .killed ↔ m.refCount? frame ≠ some 1 ∧ m.pool.freeCount = 0) ∧
      (resolution = .restored → m'.pool = m.pool ∧
        m'.memory.leaf addr.place = (m.memory.leaf addr.place).madeWritable) ∧
      (∀ copy, resolution = .copied copy →
        (m.refCount? copy = some 0 ∧ Unreferenced m copy ∧ copy ∉ held) ∧
        (m'.refCount? copy = some 1 ∧ m'.memory.page copy = m.memory.page frame) ∧
        (∃ count, 1 ≤ count ∧ m.refCount? frame = some (count + 1) ∧
          m'.refCount? frame = some count) ∧
        (∀ other, other ≠ copy → other ≠ frame → m'.refCount? other = m.refCount? other) ∧
        m'.memory.leaf addr.place = Entry.new copy .userWritable ∧
        (m'.memory.leaf addr.place).frame = copy) ∧
      (resolution = .killed → m'.memory = m.memory ∧ m'.pool = m.pool) ∧
      m'.memory.link = m.memory.link ∧
      (∀ place, place ≠ addr.place → m'.memory.leaf place = m.memory.leaf place) ∧
      (∀ other, layout.kernelTables ≤ other.dirIndex → m'.byteAt other = m.byteAt other) ∧
      (resolution ≠ .killed → m'.WritesThrough addr.place) := by
  have sound := reachable.sound
  have inside := Layout.place_mem_taskPlaces task
  obtain ⟨mapped, rfl⟩ := maps
  have pooled := (sound.balanced.mapped _ inside mapped).pooled
  have counted (n : Nat) : m.refCount? (m.memory.leaf addr.place).frame = some n ↔
      m.pool.count (m.memory.leaf addr.place).frame = n := by
    rw [refCount?_eq pooled, Option.some.injEq]
  obtain ⟨resolution, m', run, ends⟩ := sound.exists_resolveWriteProtect task mapped
  obtain ⟨link, leaf, seen⟩ := ends.frame
  refine ⟨resolution, m', run, ?_, ?_, ?_, ?_, ?_, ?_, link, leaf, ?_,
    ends.writesThrough inside⟩
  · rw [counted]
    exact ends.restored_iff
  · rw [Ne, counted]
    exact ends.copied_iff
  · rw [Ne, counted]
    exact ends.killed_iff
  · rintro rfl
    obtain ⟨restored⟩ | _ | _ := ends
    refine ⟨restored.pool, ?_⟩
    rw [restored.leaf, Function.update_self]
  · rintro copy rfl
    obtain _ | ⟨separated⟩ | _ := ends
    have free : m.refCount? copy = some 0 := by
      rw [refCount?_eq separated.task.pooled, separated.free]
    have entry : m'.memory.leaf addr.place = Entry.new copy .userWritable := by
      rw [separated.leaf, Function.update_self]
    have leads : (m'.memory.leaf addr.place).frame = copy := by
      rw [entry]
      exact Entry.frame_new_of_lt separated.task.2 _
    refine ⟨⟨free, sound.unreferenced_of_free free, ?_⟩, ⟨?_, ?_⟩,
      ⟨m'.pool.count (m.memory.leaf addr.place).frame, ?_, ?_, refCount?_eq pooled⟩, ?_, entry,
      leads⟩
    · intro holds
      have once := (sound.balanced.owned copy holds).2
      rw [separated.free] at once
      cases once
    · rw [refCount?_eq separated.task.pooled, separated.count_copy sound inside mapped]
    · have shown := seen _ inside
      rw [PhysicalMemory.seen_of_present _ separated.opened.present, leads,
        PhysicalMemory.seen_of_present _ mapped] at shown
      exact shown
    · have shared := separated.two_le sound inside mapped
      have dropped := separated.count_frame sound inside mapped
      omega
    · rw [counted, separated.count_frame sound inside mapped]
    · intro other apart apart'
      exact refCount?_congr (separated.count_of_ne apart apart')
  · rintro rfl
    obtain _ | _ | ⟨_, _, memory, pool⟩ := ends
    exact ⟨memory, pool⟩
  · intro other task'
    rw [(ends.sound sound).byteAt_eq task', sound.byteAt_eq task']
    exact congrArg Except.ok (SameContents.of_seen seen other task')

/-- One of two sharers gets a copy, and the page of the other stays read-only. -/
theorem writeProtect_outcome_shared :
    ∃ m copy m', Reachable .tiny m ∅ ∧
      resolveWriteProtect firstPage m = .ok (.copied copy) m' ∧
      m.refCount? copy = some 0 ∧ m'.refCount? copy = some 1 ∧
      (m'.memory.leaf firstPage.place).frame = copy ∧
      m'.memory.leaf spareBlock.place = m.memory.leaf spareBlock.place := by
  obtain ⟨m, reachable, sharers, room⟩ := exists_reachable_shared
  have task : Layout.tiny.kernelTables ≤ firstPage.dirIndex := by decide
  obtain ⟨maps, -, twice⟩ := reachable.sound.shared_of_pair sharers (by decide)
  obtain ⟨resolution, m', run, -, copied, -, -, separated, -, -, leaf, -⟩ :=
    Reachable.writeProtect_outcome reachable task maps
  obtain ⟨copy, rfl⟩ := copied.mpr ⟨twice ▸ by decide, room⟩
  obtain ⟨⟨free, -⟩, ⟨once, -⟩, -, -, -, leads⟩ := separated copy rfl
  exact ⟨m, copy, m', reachable, run, free, once, leads, leaf _ (by decide)⟩

/-- A no-page fault on an absent page, in full. It takes a frame for the page, and one for a table
if the block has none. If there are as many frames, the page is mapped and full of zeros, and a new
table maps nothing else. Otherwise links, leaves, counts and bytes stay as they are. -/
theorem Reachable.noPage_outcome (reachable : Reachable layout m held) {addr : LinearAddr}
    (task : layout.kernelTables ≤ addr.dirIndex)
    (absent : (m.memory.leaf addr.place).isPresent = false) :
    ∃ resolution m', resolveNoPage addr m = .ok resolution m' ∧
      ((∃ frame, resolution = .zeroFilled frame) ↔
        m.framesNeeded addr.dirIndex ≤ m.pool.freeCount) ∧
      (resolution = .killed ↔ m.pool.freeCount < m.framesNeeded addr.dirIndex) ∧
      (∀ frame, resolution = .zeroFilled frame →
        m.refCount? frame = some 0 ∧ m'.refCount? frame = some 1 ∧
        m'.memory.leaf =
          Function.update m.memory.leaf addr.place (Entry.new frame .userWritable) ∧
        (m'.memory.leaf addr.place).frame = frame ∧
        (∀ other, other.place = addr.place → m'.byteAt other = .ok 0) ∧
        ((m.memory.link addr.dirIndex).isPresent = true ∧ m'.memory.link = m.memory.link ∧
            (∀ other, other ≠ frame → m'.refCount? other = m.refCount? other) ∨
          (m.memory.link addr.dirIndex).isPresent = false ∧
            ∃ table, table ≠ frame ∧ m.refCount? table = some 0 ∧
              m'.refCount? table = some 1 ∧
              m'.memory.link = Function.update m.memory.link addr.dirIndex
                (Entry.new table .userWritable) ∧
              (∀ index, index ≠ addr.tableIndex →
                m'.memory.leaf (addr.dirIndex, index) = .empty) ∧
              ∀ other, other ≠ frame → other ≠ table →
                m'.refCount? other = m.refCount? other)) ∧
      (resolution = .killed →
        m'.memory.link = m.memory.link ∧ m'.memory.leaf = m.memory.leaf ∧
          ∀ frame, m'.refCount? frame = m.refCount? frame) ∧
      ∀ other, layout.kernelTables ≤ other.dirIndex → m'.byteAt other = m.byteAt other := by
  have sound := reachable.sound
  rcases sound.resolveNoPage_ends task with
    ⟨m', run, unfilled⟩ | ⟨present, -⟩ | ⟨frame, m', run, filled⟩
  · have short : m.pool.freeCount < m.framesNeeded addr.dirIndex := unfilled.short
    refine ⟨.killed, m', run, ⟨nofun, fun enough => absurd short (Nat.not_lt.mpr enough)⟩,
      ⟨fun _ => short, fun _ => rfl⟩, nofun, fun _ => ⟨unfilled.same.link, unfilled.same.leaf, ?_⟩,
      ?_⟩
    · exact fun frame => refCount?_congr (congrFun unfilled.count frame)
    · intro other task'
      rw [unfilled.sound.byteAt_eq task', sound.byteAt_eq task']
      exact congrArg Except.ok (SameContents.of_seen unfilled.same.seen other task')
  · rw [absent] at present
    cases present
  · have enough : m.framesNeeded addr.dirIndex ≤ m.pool.freeCount :=
      Nat.le.intro ((Nat.add_comm _ _).trans filled.freeCount_add)
    refine ⟨.zeroFilled frame, m', run, ⟨fun _ => enough, fun _ => ⟨frame, rfl⟩⟩,
      ⟨nofun, fun short => absurd short (Nat.not_lt.mpr enough)⟩, ?_, nofun, ?_⟩
    · rintro _ ⟨⟩
      refine ⟨?_, ?_, filled.leaf, ?_, ?_, ?_⟩
      · rw [refCount?_eq filled.task.pooled, filled.free]
      · rw [refCount?_eq filled.task.pooled, filled.count_frame]
      · rw [filled.leaf, Function.update_self]
        exact Entry.frame_new_of_lt filled.task.2 _
      · intro other same
        have task' : layout.kernelTables ≤ other.dirIndex := by
          rw [show other.dirIndex = addr.dirIndex from congrArg Prod.fst same]
          exact task
        rw [filled.opened.sound.byteAt_eq task', contents, same,
          filled.opened.seen _ (Layout.place_mem_taskPlaces task),
          PhysicalMemory.seen_of_absent _ absent, Page.byte_zero]
      · exact filled.tables
    · intro other task'
      rw [filled.opened.sound.byteAt_eq task', sound.byteAt_eq task']
      exact congrArg Except.ok (SameContents.of_seen filled.opened.seen other task')

def scarce : Manager .tiny := (Call.allocate.perform filled).2

theorem reachable_scarce : Reachable .tiny scarce {⟨161⟩} :=
  reachable_filled.allocate (by decide +kernel)

/-- The first page of a fresh machine is filled in. With one frame left a page of another block is
not, and the frame is free as before. -/
theorem noPage_outcome_tiny :
    (∃ frame m', resolveNoPage firstPage (boot .tiny .empty) = .ok (.zeroFilled frame) m' ∧
      m'.refCount? frame = some 1 ∧ m'.byteAt firstPage = .ok 0) ∧
    ∃ m', resolveNoPage spareBlock scarce = .ok .killed m' ∧
      m'.memory.link = scarce.memory.link ∧ m'.refCount? ⟨160⟩ = some 0 := by
  have task : Layout.tiny.kernelTables ≤ firstPage.dirIndex := by decide
  have task' : Layout.tiny.kernelTables ≤ spareBlock.dirIndex := by decide
  obtain ⟨_, m', run, enough, -, filled, -⟩ :=
    Reachable.noPage_outcome (.boot .empty) task (by decide +kernel)
  obtain ⟨_, m₁, run₁, -, short, -, same, -⟩ :=
    Reachable.noPage_outcome reachable_scarce task' (by decide +kernel)
  obtain ⟨frame, rfl⟩ := enough.mpr (by decide +kernel)
  obtain rfl := short.mpr (by decide +kernel)
  obtain ⟨-, once, -, -, zero, -⟩ := filled frame rfl
  obtain ⟨link, -, counts⟩ := same rfl
  have free : scarce.refCount? ⟨160⟩ = some 0 := by decide +kernel
  exact ⟨⟨frame, m', run, once, zero firstPage rfl⟩, m₁, run₁, link, (counts _).trans free⟩

end PagedMemory

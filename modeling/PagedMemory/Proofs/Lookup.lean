import PagedMemory.Proofs.FaultOutcomes

/-!
Mapping a frame and looking addresses up. Whether a mapping succeeds can be told from one link, one
leaf and the number of free frames. Once it has succeeded, lookups within the page find the frame,
and lookups anywhere else answer what they answered before.
-/

namespace PagedMemory

namespace Manager

variable {layout : Layout} {m m' : Manager layout} {held : Finset Frame}

open Operation

theorem Sound.lookup_eq (sound : m.Sound held) (addr : LinearAddr) :
    lookup addr m = .ok (if (m.memory.leaf addr.place).isPresent then
      some (m.memory.leaf addr.place) else none) m :=
  bind_ok (attempt_ok (ask_ok (sound.walk_eq addr)))

section Mapped

variable {addr : LinearAddr} {frame : Frame} {writable : Bool}
  (mapped : Mapped m m' held addr.place frame writable)

include mapped

theorem Mapped.lookup_inside {other : LinearAddr} (inside : other.place = addr.place) :
    lookup other m' = .ok (some (Entry.new frame ⟨true, writable, true⟩)) m' := by
  have found : m'.memory.leaf other.place = Entry.new frame ⟨true, writable, true⟩ := by
    rw [mapped.leaf, inside, Function.update_self]
  have present : (Entry.new frame ⟨true, writable, true⟩).isPresent = true :=
    Entry.isPresent_new _ _
  rw [mapped.sound.lookup_eq, found, if_pos present]

theorem Mapped.lookup_outside (sound : m.Sound held) {other : LinearAddr}
    (outside : other.place ≠ addr.place) :
    ∃ answer, lookup other m = .ok answer m ∧ lookup other m' = .ok answer m' := by
  refine ⟨_, sound.lookup_eq other, ?_⟩
  rw [mapped.sound.lookup_eq, mapped.leaf, Function.update_of_ne outside]

theorem Mapped.byteAt_outside (sound : m.Sound held) {other : LinearAddr}
    (task : layout.kernelTables ≤ other.dirIndex) (outside : other.place ≠ addr.place) :
    m'.byteAt other = m.byteAt other := by
  rw [mapped.sound.byteAt_eq task, sound.byteAt_eq task, contents, contents,
    mapped.seen _ (Layout.place_mem_taskPlaces task), Function.update_of_ne outside]

end Mapped

theorem TableGiven.refCounts {link link' : Nat → Entry} {block : Nat}
    (given : TableGiven layout link link' m.pool.count m'.pool.count block) :
    (link block).isPresent = true ∧ link' = link ∧
        (∀ frame, m'.refCount? frame = m.refCount? frame) ∨
      (link block).isPresent = false ∧ ∃ table, m.refCount? table = some 0 ∧
        m'.refCount? table = some 1 ∧
        link' = Function.update link block (Entry.new table .userWritable) ∧
        ∀ frame, frame ≠ table → m'.refCount? frame = m.refCount? frame := by
  cases given with
  | kept present links counts =>
      exact Or.inl ⟨present, links, fun frame => refCount?_congr (congrFun counts frame)⟩
  | @made table absent task free links counts =>
      refine Or.inr ⟨absent, table, ?_, ?_, links, ?_⟩
      · rw [refCount?_eq task.pooled, free]
      · rw [refCount?_eq task.pooled, counts, Function.update_self]
      · intro frame apart
        apply refCount?_congr
        rw [counts, Function.update_of_ne apart]

theorem TableGiven.present_or_free {link link' : Nat → Entry} {block : Nat}
    (given : TableGiven layout link link' m.pool.count m'.pool.count block) :
    (link block).isPresent = true ∨ 0 < m.pool.freeCount := by
  cases given with
  | kept present _ _ => exact Or.inl present
  | made _ task free _ _ => exact Or.inr (FramePool.freeCount_pos task.pooled free)

end Manager

open Manager

variable {layout : Layout} {m : Manager layout} {held : Finset Frame}

/-- Mapping a frame that the caller holds, in full. It runs out of memory exactly when the block has
no table and no frame is free for one, is refused exactly when the page is mapped already, and
succeeds otherwise. A failure changes neither memory nor counts. After a success lookups within the
page find the frame with the flags asked for, all other lookups answer as before, tasks find the
bytes of all other pages, and no count has changed but that of a new table. -/
theorem Reachable.mapFrame_outcome (reachable : Reachable layout m held) {frame : Frame}
    (holds : frame ∈ held) {addr : LinearAddr} (task : layout.kernelTables ≤ addr.dirIndex)
    (writable : Bool) :
    ((∃ m', mapFrame frame addr writable m = .error .outOfMemory m') ↔
      (m.memory.link addr.dirIndex).isPresent = false ∧ m.pool.freeCount = 0) ∧
    ((∃ m', mapFrame frame addr writable m = .error (.fatal (.alreadyMapped addr)) m') ↔
      (m.memory.leaf addr.place).isPresent = true) ∧
    ((∃ m', mapFrame frame addr writable m = .ok () m') ↔
      ((m.memory.link addr.dirIndex).isPresent = true ∨ 0 < m.pool.freeCount) ∧
        (m.memory.leaf addr.place).isPresent = false) ∧
    (∀ error m', mapFrame frame addr writable m = .error error m' →
      m'.memory = m.memory ∧ m'.pool = m.pool) ∧
    ∀ m', mapFrame frame addr writable m = .ok () m' →
      (∀ other : LinearAddr, other.toNat / pageSize = addr.toNat / pageSize →
        ∃ entry, lookup other m' = .ok (some entry) m' ∧ entry.frame = frame ∧
          entry.isPresent = true ∧ entry.isUser = true ∧ entry.isWritable = writable) ∧
      (∀ other : LinearAddr, other.toNat / pageSize ≠ addr.toNat / pageSize →
        ∃ answer, lookup other m = .ok answer m ∧ lookup other m' = .ok answer m') ∧
      (∀ other : LinearAddr, other.toNat / pageSize ≠ addr.toNat / pageSize →
        layout.kernelTables ≤ other.dirIndex → m'.byteAt other = m.byteAt other) ∧
      ((m.memory.link addr.dirIndex).isPresent = true ∧ m'.memory.link = m.memory.link ∧
          (∀ other, m'.refCount? other = m.refCount? other) ∨
        (m.memory.link addr.dirIndex).isPresent = false ∧ ∃ table,
          m.refCount? table = some 0 ∧ m'.refCount? table = some 1 ∧
          m'.memory.link =
            Function.update m.memory.link addr.dirIndex (Entry.new table .userWritable) ∧
          ∀ other, other ≠ table → m'.refCount? other = m.refCount? other) := by
  have sound := reachable.sound
  rcases sound.mapFrame_cases holds task writable with
    ⟨present, m₁, run, memory, pool⟩ | ⟨unlinked, full, m₁, run, memory, pool⟩ |
      ⟨m₁, run, mapped, table⟩
  · have linked : (m.memory.link addr.dirIndex).isPresent = true :=
      PhysicalMemory.link_present_of_leaf present
    rw [run]
    refine ⟨⟨nofun, ?_⟩, ⟨fun _ => present, fun _ => ⟨m₁, rfl⟩⟩, ⟨nofun, ?_⟩, ?_, nofun⟩
    · rintro ⟨unlinked, -⟩
      rw [linked] at unlinked
      cases unlinked
    · rintro ⟨-, absent⟩
      rw [present] at absent
      cases absent
    · rintro _ _ ⟨⟩
      exact ⟨memory, pool⟩
  · have none := FramePool.highestFree_eq_none_iff.mp full
    have absent : (m.memory.leaf addr.place).isPresent = false := by
      rw [PhysicalMemory.leaf_of_absent addr.place unlinked]
      exact Entry.isPresent_empty
    rw [run]
    refine ⟨⟨fun _ => ⟨unlinked, none⟩, fun _ => ⟨m₁, rfl⟩⟩, ⟨nofun, ?_⟩, ⟨nofun, ?_⟩, ?_, nofun⟩
    · intro present
      rw [absent] at present
      cases present
    · rintro ⟨linked | some, -⟩
      · rw [unlinked] at linked
        cases linked
      · exact absurd none (Nat.ne_of_gt some)
    · rintro _ _ ⟨⟩
      exact ⟨memory, pool⟩
  · have room := table.present_or_free
    rw [run]
    refine ⟨⟨nofun, ?_⟩, ⟨nofun, ?_⟩, ⟨fun _ => ⟨room, mapped.absent⟩, fun _ => ⟨m₁, rfl⟩⟩, nofun,
      ?_⟩
    · rintro ⟨unlinked, none⟩
      rw [unlinked, none] at room
      rcases room with linked | some
      · cases linked
      · cases some
    · intro present
      rw [mapped.absent] at present
      cases present
    · rintro _ ⟨⟩
      have task' := (sound.balanced.owned frame holds).1
      refine ⟨?_, ?_, ?_, table.refCounts⟩
      · intro other inside
        exact ⟨_, mapped.lookup_inside (LinearAddr.place_eq_iff.mpr inside),
          Entry.frame_new_of_lt task'.2 _, Entry.isPresent_new _ _, Entry.isUser_new _ _,
          Entry.isWritable_new _ _⟩
      · intro other outside
        exact mapped.lookup_outside sound fun same => outside (LinearAddr.place_eq_iff.mp same)
      · intro other outside task'
        exact mapped.byteAt_outside sound task' fun same =>
          outside (LinearAddr.place_eq_iff.mp same)

/-- The frame of the caller is mapped read-only in another block, which takes the last free frame
for its table. The page that is mapped already refuses it. -/
theorem mapFrame_outcome_scarce :
    (∃ m entry, mapFrame ⟨161⟩ spareBlock false scarce = .ok () m ∧
      lookup spareBlock m = .ok (some entry) m ∧ entry.frame = ⟨161⟩ ∧ entry.isWritable = false ∧
      ∃ answer, lookup firstPage scarce = .ok answer scarce ∧ lookup firstPage m = .ok answer m) ∧
    ∃ m, mapFrame ⟨161⟩ firstPage true scarce = .error (.fatal (.alreadyMapped firstPage)) m ∧
      m.memory = scarce.memory := by
  have holds : (⟨161⟩ : Frame) ∈ ({⟨161⟩} : Finset Frame) := Finset.mem_singleton_self _
  obtain ⟨-, -, succeeds, -, after⟩ := Reachable.mapFrame_outcome reachable_scarce holds
    (show Layout.tiny.kernelTables ≤ spareBlock.dirIndex by decide) false
  obtain ⟨-, refused, -, unchanged, -⟩ := Reachable.mapFrame_outcome reachable_scarce holds
    (show Layout.tiny.kernelTables ≤ firstPage.dirIndex by decide) true
  obtain ⟨m, run⟩ := succeeds.mpr (by decide +kernel)
  obtain ⟨inside, outside, -⟩ := after m run
  obtain ⟨entry, found, leads, -, -, flag⟩ := inside spareBlock rfl
  obtain ⟨m', run'⟩ := refused.mpr (by decide +kernel)
  exact ⟨⟨m, entry, run, found, leads, flag, outside firstPage (by decide)⟩, m', run',
    (unchanged _ m' run').1⟩

end PagedMemory

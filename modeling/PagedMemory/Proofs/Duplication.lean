import PagedMemory.Proofs.Release
import PagedMemory.Space.Duplication

/-!
Sharing blocks of task space. A shared block has a table of its own whose leaves map the same
frames, read-only on both sides, so both sides find the same bytes. Without frames for the tables
of a child nothing of it is left.
-/

namespace PagedMemory

theorem Layout.InTaskSpace.sharedEntries_eq {layout : Layout} {addr : LinearAddr} {size : Nat}
    (within : layout.InTaskSpace addr size) : Manager.sharedEntries addr = entriesPerTable :=
  if_neg within.toNat_ne_zero

namespace Operation

variable {layout : Layout} {good : Manager layout → Prop}

open Manager

section Steps

variable (writes : ∀ slot entry, Keeps good (setEntry slot entry))
  (shares : ∀ frame, Keeps good (onPool (FramePool.share frame)))

include writes shares

theorem Keeps.shareLeaf (source target : Frame) (index : Nat) :
    Keeps good (shareLeaf source target index) := by
  rw [Manager.shareLeaf]
  refine (Keeps.ask _).bind fun entry => ?_
  cases entry.isPresent with
  | false => exact Keeps.pure _
  | true =>
      cases layout.isReserved entry.frame with
      | true => exact writes _ _
      | false => exact (shares _).bind fun _ => (writes _ _).bind fun _ => writes _ _

theorem Keeps.duplicateBlock
    (allocates : Keeps good (allocateFrame : Operation layout MemoryError (Option Frame)))
    (entries source target : Nat) : Keeps good (duplicateBlock entries source target) := by
  rw [Manager.duplicateBlock]
  refine (Keeps.ask _).orFatal.bind fun occupied => ?_
  cases occupied.isPresent with
  | true => exact Keeps.throw _
  | false =>
      refine (Keeps.ask _).orFatal.bind fun link => ?_
      cases link.isPresent with
      | false => exact Keeps.pure _
      | true =>
          refine allocates.bind fun taken => ?_
          cases taken with
          | none => exact Keeps.throw _
          | some table =>
              exact ((writes _ _).bind fun _ =>
                Keeps.forM fun index _ => Keeps.shareLeaf writes shares _ _ index).orFatal

end Steps

end Operation

namespace Manager

variable {layout : Layout} {m m' : Manager layout} {held : Finset Frame}

open Operation

theorem TablesSound.shareLeaf {memory : PhysicalMemory layout.totalFrames} {count : Frame → Nat}
    (sound : TablesSound memory count held) {source target index : Nat}
    (inside : (source, index) ∈ layout.taskPlaces) (inside' : (target, index) ∈ layout.taskPlaces)
    (linked : (memory.link source).isPresent = true)
    (linked' : (memory.link target).isPresent = true) (apart : source ≠ target)
    (present : (memory.leaf (source, index)).isPresent = true)
    (vacant : (memory.leaf (target, index)).isPresent = false) {entry : Entry}
    (protect : (memory.leaf (source, index)).writeProtected = entry) :
    TablesSound ((memory.setLeaf (source, index) entry).setLeaf (target, index) entry)
        (Function.update count (memory.leaf (source, index)).frame
          (count (memory.leaf (source, index)).frame + 1)) held ∧
      ((memory.setLeaf (source, index) entry).setLeaf (target, index) entry).link = memory.link ∧
      ((memory.setLeaf (source, index) entry).setLeaf (target, index) entry).leaf =
        Function.update (Function.update memory.leaf (source, index) entry) (target, index) entry ∧
      ∀ place ∈ layout.taskPlaces,
        ((memory.setLeaf (source, index) entry).setLeaf (target, index) entry).seen place =
          Function.update memory.seen (target, index) (memory.seen (source, index)) place := by
  have mapped : entry.isPresent = true := by
    rw [← protect, Entry.isPresent_writeProtected]
    exact present
  have readOnly : entry.isWritable = false := by
    rw [← protect, Entry.isWritable_writeProtected]
  have frame : entry.frame = (memory.leaf (source, index)).frame := by
    rw [← protect, Entry.frame_writeProtected]
  obtain ⟨sound₁, seen₁⟩ := sound.setFlags inside linked entry present mapped frame
    (fun writable => absurd (readOnly.symm.trans writable) Bool.false_ne_true)
  have links : (memory.setLeaf (source, index) entry).link = memory.link :=
    sound.link_setLeaf (source, index) linked entry
  have leaves := sound.leaf_setLeaf inside linked entry
  have here : (memory.setLeaf (source, index) entry).leaf (source, index) = entry := by
    rw [leaves, Function.update_self]
  have there : (memory.setLeaf (source, index) entry).leaf (target, index) =
      memory.leaf (target, index) := by
    rw [leaves, Function.update_of_ne]
    exact fun same => apart (congrArg Prod.fst same).symm
  have linked₁ : ((memory.setLeaf (source, index) entry).link (target, index).1).isPresent =
      true := by
    rw [links]
    exact linked'
  obtain ⟨sound₂, seen₂⟩ := sound₁.addSharer inside' linked₁ entry inside
    (here.symm ▸ mapped) (here.symm ▸ readOnly) (there.symm ▸ vacant) rfl mapped readOnly
    (congrArg Entry.frame here.symm)
  rw [here, frame] at sound₂
  refine ⟨sound₂, (sound₁.link_setLeaf (target, index) linked₁ entry).trans links, ?_, ?_⟩
  · rw [← leaves]
    exact sound₁.leaf_setLeaf inside' linked₁ entry
  · intro place member
    rw [seen₂ place member]
    by_cases same : place = (target, index)
    · rw [same, Function.update_self, Function.update_self, seen₁ _ inside]
    · rw [Function.update_of_ne same, Function.update_of_ne same, seen₁ place member]

theorem Sound.exists_shareLeaf (sound : m.Sound held) {source target index : Nat}
    (inside : (source, index) ∈ layout.taskPlaces) (inside' : (target, index) ∈ layout.taskPlaces)
    (linked : (m.memory.link source).isPresent = true)
    (linked' : (m.memory.link target).isPresent = true) (apart : source ≠ target)
    (vacant : (m.memory.leaf (target, index)).isPresent = false) :
    ∃ m', shareLeaf (m.memory.link source).frame (m.memory.link target).frame index m =
        .ok () m' ∧ m'.Sound held ∧
      m'.Shows m.memory.link
        (Function.update (Function.update m.memory.leaf (source, index)
          (m.memory.leaf (source, index)).writeProtected) (target, index)
            (m.memory.leaf (source, index)).writeProtected)
        (Function.update m.memory.seen (target, index) (m.memory.seen (source, index))) := by
  have read : (ask (·.entryAt ⟨(m.memory.link source).frame, index⟩) :
      Operation layout FatalError Entry) m = .ok (m.memory.leaf (source, index)) m :=
    ask_ok (sound.entryAt_eq (source, index) linked)
  by_cases present : (m.memory.leaf (source, index)).isPresent = true
  · have task := sound.balanced.mapped _ inside present
    have low := sound.balanced.count_le task
    have room : m.pool.count (m.memory.leaf (source, index)).frame < maxCount := by
      simp only [entriesPerDirectory, maxCount] at *
      omega
    obtain ⟨pool, run, count⟩ := m.pool.exists_share task.pooled room
    have share : (onPool (FramePool.share (m.memory.leaf (source, index)).frame) :
        Operation layout FatalError Unit) m = .ok () { m with pool := pool } := onPool_ok run
    generalize protect : (m.memory.leaf (source, index)).writeProtected = entry
    obtain ⟨sound', shows⟩ :=
      TablesSound.shareLeaf sound inside inside' linked linked' apart present vacant protect
    rw [← count] at sound'
    -- the second write goes through the same links as the first
    have links : (m.memory.setLeaf (source, index) entry).link = m.memory.link :=
      TablesSound.link_setLeaf sound (source, index) linked entry
    have write := setEntry_leaf { m with pool := pool } (source, index) entry
      (sound.link_inside linked)
    have write' := setEntry_leaf { m with
      pool := pool, memory := m.memory.setLeaf (source, index) entry, tlbStale := true }
      (target, index) entry (links.symm ▸ sound.link_inside linked')
    rw [links] at write'
    refine ⟨{ m with
      pool := pool
      memory := (m.memory.setLeaf (source, index) entry).setLeaf (target, index) entry
      tlbStale := true }, ?_, sound', shows.1, shows.2.1, shows.2.2⟩
    rw [shareLeaf, bind_ok read]
    simp only [present, if_true, task.not_reserved, Bool.false_eq_true, if_false]
    rw [protect, bind_ok share, bind_ok write]
    exact write'
  · have absent : (m.memory.leaf (source, index)).isPresent = false := Bool.not_eq_true _ ▸ present
    have empty := sound.balanced.leafEmpty _ inside absent
    have empty' := sound.balanced.leafEmpty _ inside' vacant
    refine ⟨m, ?_, sound, rfl, ?_, ?_⟩
    · rw [shareLeaf, bind_ok read]
      simp only [absent, Bool.false_eq_true, if_false]
      rfl
    · rw [empty, Entry.writeProtected_empty, ← empty, Function.update_eq_self, empty, ← empty',
        Function.update_eq_self]
    · intro place _
      rw [PhysicalMemory.seen_of_absent _ absent, ← PhysicalMemory.seen_of_absent _ vacant,
        Function.update_eq_self]

structure LeavesShared (m m' : Manager layout) (held : Finset Frame)
    (source target entries : Nat) : Prop where
  sound : m'.Sound held
  link : m'.memory.link = m.memory.link
  leaf : ∀ place, m'.memory.leaf place =
    if place.2 < entries then
      if place.1 = target then (m.memory.leaf (source, place.2)).writeProtected
      else if place.1 = source then (m.memory.leaf place).writeProtected
      else m.memory.leaf place
    else m.memory.leaf place
  seen : ∀ place ∈ layout.taskPlaces, m'.memory.seen place =
    if place.1 = target ∧ place.2 < entries then m.memory.seen (source, place.2)
    else m.memory.seen place

theorem LeavesShared.exists_shareLeaf {source target entries : Nat}
    (shared : LeavesShared m m' held source target entries)
    (member : source ∈ layout.taskBlocks) (member' : target ∈ layout.taskBlocks)
    (linked : (m.memory.link source).isPresent = true)
    (linked' : (m.memory.link target).isPresent = true) (apart : source ≠ target)
    (vacant : ∀ index, m.memory.leaf (target, index) = .empty) (bound : entries < entriesPerTable) :
    ∃ m'', shareLeaf (m.memory.link source).frame (m.memory.link target).frame entries m' =
        .ok () m'' ∧ LeavesShared m m'' held source target (entries + 1) := by
  have inside : (source, entries) ∈ layout.taskPlaces := Layout.mem_taskPlaces.mpr ⟨member, bound⟩
  have inside' : (target, entries) ∈ layout.taskPlaces :=
    Layout.mem_taskPlaces.mpr ⟨member', bound⟩
  have next (place : Nat × Nat) (later : ¬ place.2 < entries) :
      m'.memory.leaf place = m.memory.leaf place := by
    rw [shared.leaf, if_neg later]
  have here := next (source, entries) (Nat.lt_irrefl _)
  have there := next (target, entries) (Nat.lt_irrefl _)
  rw [vacant] at there
  rw [← shared.link] at linked linked'
  obtain ⟨m'', run, sound, shows⟩ := shared.sound.exists_shareLeaf inside inside' linked linked'
    apart (there ▸ Entry.isPresent_empty)
  refine ⟨m'', ?_, sound, shows.link.trans shared.link, ?_, ?_⟩
  · rw [← shared.link]
    exact run
  · intro place
    rw [shows.leaf, here]
    rcases place with ⟨block, index⟩
    rcases Nat.lt_trichotomy index entries with below | rfl | above
    · have differ (block' : Nat) : (block, index) ≠ (block', entries) :=
        fun same => Nat.ne_of_lt below (congrArg Prod.snd same)
      rw [Function.update_of_ne (differ target), Function.update_of_ne (differ source),
        shared.leaf, if_pos below, if_pos (Nat.lt_succ_of_lt below)]
    · rw [if_pos (Nat.lt_succ_self index)]
      by_cases child : block = target
      · rw [child, Function.update_self, if_pos rfl]
      · rw [Function.update_of_ne (fun same => child (congrArg Prod.fst same)), if_neg child]
        by_cases parent : block = source
        · rw [parent, Function.update_self, if_pos rfl]
        · rw [Function.update_of_ne (fun same => parent (congrArg Prod.fst same)), if_neg parent]
          exact next (block, index) (Nat.lt_irrefl _)
    · have differ (block' : Nat) : (block, index) ≠ (block', entries) :=
        fun same => Nat.ne_of_gt above (congrArg Prod.snd same)
      have later : ¬ index < entries + 1 := by omega
      rw [Function.update_of_ne (differ target), Function.update_of_ne (differ source),
        if_neg later]
      exact next (block, index) (Nat.lt_asymm above)
  · intro place member''
    have parent := shared.seen (source, entries) inside
    rw [if_neg (fun both => Nat.lt_irrefl _ both.2)] at parent
    rw [shows.seen place member'', parent]
    by_cases same : place = (target, entries)
    · rw [same, Function.update_self, if_pos ⟨rfl, Nat.lt_succ_self _⟩]
    · rw [Function.update_of_ne same, shared.seen place member'']
      have bounds : place.1 = target ∧ place.2 < entries ↔
          place.1 = target ∧ place.2 < entries + 1 := by
        have differ : place.1 = target → place.2 ≠ entries :=
          fun block index => same (Prod.ext block index)
        omega
      exact if_congr bounds rfl rfl

/-- `target` shows what `source` shows, and maps the same frames; nothing else has changed. -/
structure BlockShared (m m' : Manager layout) (held : Finset Frame) (source target : Nat) :
    Prop where
  sound : m'.Sound held
  link : ∀ block, block ≠ target → m'.memory.link block = m.memory.link block
  leaf : ∀ place, m'.memory.leaf place =
    if place.1 = target then (m.memory.leaf (source, place.2)).writeProtected
    else if place.1 = source then (m.memory.leaf place).writeProtected
    else m.memory.leaf place
  seen : ∀ place ∈ layout.taskPlaces, m'.memory.seen place =
    if place.1 = target then m.memory.seen (source, place.2) else m.memory.seen place

theorem Sound.exists_shareLeaves {m₁ : Manager layout} {source target : Nat} {table : Frame}
    (sound : m₁.Sound held) (member : source ∈ layout.taskBlocks)
    (member' : target ∈ layout.taskBlocks)
    (absent : (m.memory.link target).isPresent = false)
    (linked : (m.memory.link source).isPresent = true)
    (task : layout.IsTaskFrame table)
    (shows : m₁.Shows (Function.update m.memory.link target (Entry.new table .userWritable))
      m.memory.leaf m.memory.seen) :
    ∃ m', (List.range entriesPerTable).forM (shareLeaf (m.memory.link source).frame table) m₁ =
        .ok () m' ∧ BlockShared m m' held source target ∧
      m'.memory.link = Function.update m.memory.link target (Entry.new table .userWritable) := by
  have apart : source ≠ target := by
    rintro rfl
    rw [absent] at linked
    cases linked
  have parent : m₁.memory.link source = m.memory.link source := by
    rw [shows.link, Function.update_of_ne apart]
  obtain ⟨present, leads⟩ : (m₁.memory.link target).PointsAt table :=
    Entry.pointsAt_of_update task.2 shows.link
  have vacant (index : Nat) : m₁.memory.leaf (target, index) = .empty := by
    rw [shows.leaf]
    exact PhysicalMemory.leaf_of_absent (target, index) absent
  obtain ⟨m₂, loop, shared⟩ := forM_ok
    (shareLeaf (m₁.memory.link source).frame (m₁.memory.link target).frame)
    (fun n m' => LeavesShared m₁ m' held source target n) (List.range entriesPerTable) (by
      intro n inside m' shared
      rw [List.length_range] at inside
      rw [List.getElem_range]
      exact shared.exists_shareLeaf member member' (parent ▸ linked) present apart vacant inside)
    m₁ ⟨sound, rfl, fun place => (if_neg (Nat.not_lt_zero _)).symm,
      fun place _ => (if_neg fun both => Nat.not_lt_zero _ both.2).symm⟩
  rw [List.length_range] at shared
  rw [parent, leads] at loop
  refine ⟨m₂, loop, ⟨shared.sound, ?_, ?_, ?_⟩, shared.link.trans shows.link⟩
  · intro block differ
    rw [shared.link, shows.link, Function.update_of_ne differ]
  · intro place
    rw [shared.leaf, shows.leaf]
    by_cases bound : place.2 < entriesPerTable
    · rw [if_pos bound]
    · have outside (block : Nat) : m.memory.leaf (block, place.2) = .empty :=
        PhysicalMemory.leaf_of_le (Nat.le_of_not_lt bound)
      have here : m.memory.leaf place = .empty :=
        PhysicalMemory.leaf_of_le (Nat.le_of_not_lt bound)
      rw [if_neg bound, here, outside, Entry.writeProtected_empty, ite_self, ite_self]
  · intro place inside
    obtain ⟨-, bound⟩ := Layout.mem_taskPlaces.mp inside
    have inside' : (source, place.2) ∈ layout.taskPlaces :=
      Layout.mem_taskPlaces.mpr ⟨member, bound⟩
    rw [shared.seen place inside, shows.seen _ inside', shows.seen place inside]
    exact if_congr (and_iff_left bound) rfl rfl

theorem Sound.blockShared_of_absent (sound : m.Sound held) {source target : Nat}
    (absent : (m.memory.link target).isPresent = false)
    (none : (m.memory.link source).isPresent = false) : BlockShared m m held source target := by
  refine ⟨sound, fun _ _ => rfl, ?_, ?_⟩
  · intro place
    rcases place with ⟨block, index⟩
    have parent : m.memory.leaf (source, index) = .empty :=
      PhysicalMemory.leaf_of_absent (source, index) none
    by_cases child : block = target
    · rw [if_pos child, child, parent]
      exact PhysicalMemory.leaf_of_absent (target, index) absent
    · rw [if_neg child]
      by_cases same : block = source
      · rw [if_pos same, same, parent, Entry.writeProtected_empty]
      · rw [if_neg same]
  · intro place _
    rcases place with ⟨block, index⟩
    by_cases child : block = target
    · have parent : m.memory.seen (source, index) = Page.zero :=
        PhysicalMemory.seen_of_unlinked (source, index) none
      rw [if_pos child, child, parent]
      exact PhysicalMemory.seen_of_unlinked (target, index) absent
    · rw [if_neg child]

/-- How a round of a duplication ends: it stops at a table of the target, or without a frame for
one; it skips a block that has none; or it shares the block through a table in a frame that was
free. -/
inductive Round (m : Manager layout) (held : Finset Frame) (source target : Nat) :
    EStateM.Result MemoryError (Manager layout) Unit → Prop
  | occupied (present : (m.memory.link target).isPresent = true) :
      Round m held source target (.error (.fatal (.alreadyExists target)) m)
  | full (absent : (m.memory.link target).isPresent = false)
      (linked : (m.memory.link source).isPresent = true) (full : m.pool.highestFree = none) :
      Round m held source target (.error .outOfMemory m)
  | skipped (absent : (m.memory.link target).isPresent = false)
      (none : (m.memory.link source).isPresent = false) : Round m held source target (.ok () m)
  | shared {table : Frame} {m' : Manager layout}
      (absent : (m.memory.link target).isPresent = false)
      (linked : (m.memory.link source).isPresent = true) (task : layout.IsTaskFrame table)
      (free : m.pool.count table = 0) (shared : BlockShared m m' held source target)
      (links : m'.memory.link =
        Function.update m.memory.link target (Entry.new table .userWritable)) :
      Round m held source target (.ok () m')

theorem Sound.duplicateBlock_round (sound : m.Sound held) {source target : Nat}
    (member : source ∈ layout.taskBlocks) (member' : target ∈ layout.taskBlocks) :
    Round m held source target (duplicateBlock entriesPerTable source target m) := by
  by_cases occupied : (m.memory.link target).isPresent = true
  · rw [duplicateBlock, bind_ok (dirEntry_run target m), if_pos occupied]
    exact .occupied occupied
  · have absent : (m.memory.link target).isPresent = false := Bool.not_eq_true _ ▸ occupied
    rw [duplicateBlock, bind_ok (dirEntry_run target m), if_neg occupied,
      bind_ok (dirEntry_run source m)]
    by_cases linked : (m.memory.link source).isPresent = true
    · rw [if_pos linked]
      rcases sound.allocateFrame_cases MemoryError with
        ⟨full, run⟩ | ⟨table, m₁, run, allocated⟩
      · rw [bind_ok run]
        exact .full absent linked full
      · obtain ⟨m₂, write, sound₂, shows, -⟩ := allocated.exists_link member' absent
        have task := (allocated.sound.balanced.owned table (Finset.mem_insert_self _ _)).1
        obtain ⟨m₃, loop, shared, links⟩ := sound₂.exists_shareLeaves member member' absent linked
          task shows
        have fill : (orFatal (do
            setEntry (dirSlot target) (Entry.new table .userWritable)
            (List.range entriesPerTable).forM (shareLeaf (m.memory.link source).frame table)) :
            Operation layout MemoryError Unit) m₁ = .ok () m₃ :=
          orFatal_ok ((bind_ok write).trans loop)
        rw [bind_ok run]
        simp only []
        rw [fill]
        exact .shared absent linked task allocated.free shared links
    · rw [if_neg linked]
      exact .skipped absent (Bool.not_eq_true _ ▸ linked)

theorem Sound.duplicateBlock_cases (sound : m.Sound held) {source target : Nat}
    (member : source ∈ layout.taskBlocks) (member' : target ∈ layout.taskBlocks) :
    ((m.memory.link target).isPresent = true ∧
      duplicateBlock entriesPerTable source target m =
        .error (.fatal (.alreadyExists target)) m) ∨
    ((m.memory.link target).isPresent = false ∧ m.pool.highestFree = none ∧
      duplicateBlock entriesPerTable source target m = .error .outOfMemory m) ∨
    (m.memory.link target).isPresent = false ∧
      ∃ m', duplicateBlock entriesPerTable source target m = .ok () m' ∧
        BlockShared m m' held source target := by
  have round := sound.duplicateBlock_round member member'
  generalize duplicateBlock entriesPerTable source target m = result at round ⊢
  cases round with
  | occupied present => exact Or.inl ⟨present, rfl⟩
  | full absent _ full => exact Or.inr (Or.inl ⟨absent, full, rfl⟩)
  | skipped absent none =>
      exact Or.inr (Or.inr ⟨absent, m, rfl, sound.blockShared_of_absent absent none⟩)
  | shared absent _ _ _ shared _ => exact Or.inr (Or.inr ⟨absent, _, rfl, shared⟩)

theorem BlockShared.leavesTo_eq {source target index : Nat} {frame : Frame}
    (shared : BlockShared m m' held source target) (member : source ∈ layout.taskBlocks)
    (member' : target ∈ layout.taskBlocks) (apart : source ≠ target)
    (alone : leavesTo layout m.memory.leaf frame = {(source, index)}) :
    leavesTo layout m'.memory.leaf frame = {(source, index), (target, index)} := by
  have only {place : Nat × Nat} : place ∈ layout.taskPlaces ∧
      (m.memory.leaf place).PointsAt frame ↔ place = (source, index) := by
    rw [← Finset.mem_singleton, ← alone, mem_leavesTo]
  obtain ⟨inside, points⟩ := only.mpr rfl
  have bound := (Layout.mem_taskPlaces.mp inside).2
  ext ⟨block, other⟩
  rw [mem_leavesTo, shared.leaf, Finset.mem_insert, Finset.mem_singleton]
  by_cases child : block = target
  · subst child
    have parent : (block, other) ∈ layout.taskPlaces ↔ (source, other) ∈ layout.taskPlaces := by
      rw [Layout.mem_taskPlaces, Layout.mem_taskPlaces, and_iff_right member,
        and_iff_right member']
    rw [if_pos rfl, Entry.pointsAt_writeProtected, parent, only]
    simp only [Prod.mk.injEq, true_and, apart.symm, false_and, false_or]
  · rw [if_neg child]
    have same : (block, other) ∈ layout.taskPlaces ∧
        (if block = source then (m.memory.leaf (block, other)).writeProtected
          else m.memory.leaf (block, other)).PointsAt frame ↔ (block, other) = (source, index) := by
      rw [← only]
      split
      · rw [Entry.pointsAt_writeProtected]
      · exact Iff.rfl
    rw [same]
    simp only [Prod.mk.injEq, child, false_and, or_false]

theorem BlockShared.count_eq_zero {source target : Nat}
    (shared : BlockShared m m' held source target) (before : m.Sound held)
    (member : source ∈ layout.taskBlocks) {frame : Frame} (task : layout.IsTaskFrame frame)
    (free : m.pool.count frame = 0) (apart : ¬ (m'.memory.link target).PointsAt frame) :
    m'.pool.count frame = 0 := by
  obtain ⟨unlinked, unmapped, unheld⟩ := before.balanced.unused_of_count_eq_zero task free
  apply shared.sound.balanced.count_eq_zero task _ _ unheld
  · intro block second points
    by_cases same : block = target
    · exact apart (same ▸ points)
    · rw [shared.link block same] at points
      exact unlinked block second points
  · intro place inside points
    rw [shared.leaf] at points
    split at points
    · have parent : (source, place.2) ∈ layout.taskPlaces :=
        Layout.mem_taskPlaces.mpr ⟨member, (Layout.mem_taskPlaces.mp inside).2⟩
      exact unmapped _ parent (Entry.pointsAt_writeProtected.mp points)
    · split at points
      · exact unmapped place inside (Entry.pointsAt_writeProtected.mp points)
      · exact unmapped place inside points

theorem BlockShared.free_of_free {source target : Nat}
    (shared : BlockShared m m' held source target) (before : m.Sound held)
    (absent : (m.memory.link target).isPresent = false) {frame : Frame}
    (task : layout.IsTaskFrame frame) (free : m'.pool.count frame = 0) :
    m.pool.count frame = 0 := by
  obtain ⟨unlinked, unmapped, unheld⟩ := shared.sound.balanced.unused_of_count_eq_zero task free
  apply before.balanced.count_eq_zero task _ _ unheld
  · intro block second points
    by_cases same : block = target
    · rw [same] at points
      exact Entry.not_pointsAt_of_absent absent frame points
    · rw [← shared.link block same] at points
      exact unlinked block second points
  · intro place inside points
    apply unmapped place inside
    rw [shared.leaf]
    by_cases child : place.1 = target
    · rw [← child] at absent
      rw [PhysicalMemory.leaf_of_absent place absent] at points
      cases points.1
    · rw [if_neg child]
      by_cases parent : place.1 = source
      · rw [if_pos parent, Entry.pointsAt_writeProtected]
        exact points
      · rw [if_neg parent]
        exact points

section Round

variable {source target : Nat}

theorem Round.absent (round : Round m held source target (.ok () m')) :
    (m.memory.link target).isPresent = false := by
  cases round with
  | skipped absent _ => exact absent
  | shared absent _ _ _ _ _ => exact absent

theorem Round.blockShared (round : Round m held source target (.ok () m'))
    (sound : m.Sound held) : BlockShared m m' held source target := by
  cases round with
  | skipped absent none => exact sound.blockShared_of_absent absent none
  | shared _ _ _ _ shared _ => exact shared

theorem BlockShared.free_iff {table : Frame} (shared : BlockShared m m' held source target)
    (before : m.Sound held) (member : source ∈ layout.taskBlocks)
    (member' : target ∈ layout.taskBlocks) (absent : (m.memory.link target).isPresent = false)
    (task : layout.IsTaskFrame table)
    (links : m'.memory.link =
      Function.update m.memory.link target (Entry.new table .userWritable)) (other : Frame) :
    m'.pool.count other = 0 ↔ m.pool.count other = 0 ∧ other ≠ table := by
  have leads : (m'.memory.link target).PointsAt table := Entry.pointsAt_of_update task.2 links
  have once := shared.sound.balanced.count_of_link member' leads
  by_cases pooled : layout.IsPooled other
  · rcases pooled.cached_or_task with cached | owned
    · rw [before.balanced.cached other cached, shared.sound.balanced.cached other cached]
      exact iff_of_false (by decide) fun both => absurd both.1 (by decide)
    · constructor
      · intro free
        refine ⟨shared.free_of_free before absent owned free, ?_⟩
        rintro rfl
        rw [once] at free
        cases free
      · rintro ⟨free, apart⟩
        apply shared.count_eq_zero before member owned free
        exact fun points => apart (points.2.symm.trans leads.2)
  · rw [FramePool.count_of_not_pooled _ pooled, FramePool.count_of_not_pooled _ pooled]
    refine iff_of_true rfl ⟨rfl, ?_⟩
    rintro rfl
    exact pooled task.pooled

theorem Round.link_of_absent (round : Round m held source target (.ok () m'))
    (none : (m.memory.link source).isPresent = false) :
    m'.memory.link target = m.memory.link target := by
  cases round with
  | skipped => rfl
  | shared _ linked =>
      rw [none] at linked
      cases linked

theorem Round.exists_table (round : Round m held source target (.ok () m'))
    (linked : (m.memory.link source).isPresent = true) :
    ∃ table, layout.IsTaskFrame table ∧ m.pool.count table = 0 ∧
      m'.memory.link target = Entry.new table .userWritable := by
  cases round with
  | skipped _ none =>
      rw [linked] at none
      cases none
  | @shared table _ _ _ task free _ links =>
      refine ⟨table, task, free, ?_⟩
      rw [links, Function.update_self]

theorem Round.freeCount (round : Round m held source target (.ok () m')) (sound : m.Sound held)
    (member : source ∈ layout.taskBlocks) (member' : target ∈ layout.taskBlocks) :
    m'.pool.freeCount + (if (m.memory.link source).isPresent = true then 1 else 0) =
      m.pool.freeCount := by
  cases round with
  | skipped _ none =>
      rw [if_neg (ne_true_of_eq_false none)]
      rfl
  | shared absent linked task free shared links =>
      rw [if_pos linked]
      exact FramePool.freeCount_succ_of_free task.pooled free
        (shared.free_iff sound member member' absent task links)

section Result

variable {result : EStateM.Result MemoryError (Manager layout) Unit}
  (round : Round m held source target result)
  (absent : (m.memory.link target).isPresent = false)
  (linked : (m.memory.link source).isPresent = true)

include round absent linked

theorem Round.exists_ok (room : 0 < m.pool.freeCount) :
    ∃ m', result = .ok () m' ∧ Round m held source target (.ok () m') := by
  cases round with
  | occupied present => exact absurd present (ne_true_of_eq_false absent)
  | full _ _ full =>
      have none := FramePool.highestFree_eq_none_iff.mp full
      exact absurd none (Nat.ne_of_gt room)
  | skipped _ none => exact absurd linked (ne_true_of_eq_false none)
  | shared _ _ task free shared links =>
      exact ⟨_, rfl, .shared absent linked task free shared links⟩

theorem Round.eq_outOfMemory (none : m.pool.freeCount = 0) : result = .error .outOfMemory m := by
  cases round with
  | occupied present => exact absurd present (ne_true_of_eq_false absent)
  | full => rfl
  | skipped _ missing => exact absurd linked (ne_true_of_eq_false missing)
  | shared _ _ task free =>
      have some := FramePool.freeCount_pos task.pooled free
      exact absurd none (Nat.ne_of_gt some)

end Result

end Round

def shareBlocks (source target : LinearAddr) (blocks : Nat) : Operation layout MemoryError Unit :=
  (List.range blocks).forM fun block =>
    duplicateBlock (sharedEntries source) (source.dirIndex + block) (target.dirIndex + block)

theorem shareBlocks_succ (source target : LinearAddr) (blocks : Nat) :
    (shareBlocks source target (blocks + 1) : Operation layout MemoryError Unit) =
      shareBlocks source target blocks >>= fun _ => duplicateBlock (sharedEntries source)
        (source.dirIndex + blocks) (target.dirIndex + blocks) := by
  rw [shareBlocks, List.range_succ, List.forM_eq_forM, List.forM_append, List.forM_cons]
  simp only [List.forM_nil, bind_pure_unit]
  rfl

theorem shareBlocks_one (source target : LinearAddr) :
    (shareBlocks source target 1 : Operation layout MemoryError Unit) =
      duplicateBlock (sharedEntries source) source.dirIndex target.dirIndex := by
  rw [shareBlocks_succ]
  rfl

/-- None of the blocks from `target` on has a table, and none of them is one from `source` on. -/
structure Separate (m : Manager layout) (source target blocks : Nat) : Prop where
  absent : ∀ block < blocks, (m.memory.link (target + block)).isPresent = false
  apart : ∀ block < blocks, ∀ other < blocks, source + block ≠ target + other

theorem Separate.mono {source target blocks fewer : Nat}
    (separate : m.Separate source target blocks) (le : fewer ≤ blocks) :
    m.Separate source target fewer :=
  ⟨fun block below => separate.absent block (Nat.lt_of_lt_of_le below le),
    fun block below other below' => separate.apart block (Nat.lt_of_lt_of_le below le) other
      (Nat.lt_of_lt_of_le below' le)⟩

/-- The blocks from `target` on show what those from `source` on show; nothing else is seen to have
changed. -/
structure RangeShared (m m' : Manager layout) (source target blocks : Nat) : Prop where
  link : ∀ block, ¬ (target ≤ block ∧ block < target + blocks) →
    m'.memory.link block = m.memory.link block
  seen : ∀ place ∈ layout.taskPlaces, m'.memory.seen place =
    if target ≤ place.1 ∧ place.1 < target + blocks then
      m.memory.seen (source + (place.1 - target), place.2)
    else m.memory.seen place

theorem rangeShared_zero (m : Manager layout) (source target : Nat) :
    m.RangeShared m source target 0 := by
  refine ⟨fun _ _ => rfl, ?_⟩
  intro place _
  rw [if_neg (by omega)]

theorem RangeShared.succ {m'' : Manager layout} {source target blocks : Nat}
    (shared : m.RangeShared m' source target blocks)
    (next : BlockShared m' m'' held (source + blocks) (target + blocks))
    (separate : m.Separate source target (blocks + 1))
    (member : source + blocks ∈ layout.taskBlocks) :
    m.RangeShared m'' source target (blocks + 1) := by
  constructor
  · intro block outside
    rw [next.link block (by omega), shared.link block (by omega)]
  · intro place inside
    rw [next.seen place inside]
    by_cases here : place.1 = target + blocks
    · have inside' : (source + blocks, place.2) ∈ layout.taskPlaces :=
        Layout.mem_taskPlaces.mpr ⟨member, (Layout.mem_taskPlaces.mp inside).2⟩
      -- the parent's block is none of the child's, so it still shows what it did
      have parent : ¬ (target ≤ source + blocks ∧ source + blocks < target + blocks) := by
        intro both
        exact separate.apart blocks (Nat.lt_succ_self _) (source + blocks - target) (by omega)
          (by omega)
      have offset : place.1 - target = blocks := by omega
      have covered : target ≤ place.1 ∧ place.1 < target + (blocks + 1) := by omega
      rw [if_pos here, shared.seen _ inside', if_neg parent, if_pos covered, offset]
    · have bounds : target ≤ place.1 ∧ place.1 < target + blocks ↔
          target ≤ place.1 ∧ place.1 < target + (blocks + 1) := by omega
      rw [if_neg here, shared.seen place inside]
      exact if_congr bounds rfl rfl

section Range

variable {source target : LinearAddr} {blocks : Nat}

theorem Sound.shareBlocks_cases (sound : m.Sound held)
    (members : ∀ block < blocks, source.dirIndex + block ∈ layout.taskBlocks)
    (members' : ∀ block < blocks, target.dirIndex + block ∈ layout.taskBlocks)
    (whole : sharedEntries source = entriesPerTable) :
    (∃ m', shareBlocks source target blocks m = .ok () m' ∧ m'.Sound held ∧
      (m.Separate source.dirIndex target.dirIndex blocks →
        m.RangeShared m' source.dirIndex target.dirIndex blocks)) ∨
    (∃ m', shareBlocks source target blocks m = .error .outOfMemory m' ∧ m'.Sound held ∧
      (m.Separate source.dirIndex target.dirIndex blocks →
        ∃ shared < blocks, m.RangeShared m' source.dirIndex target.dirIndex shared)) ∨
    ∃ block m', block < blocks ∧
      shareBlocks source target blocks m =
        .error (.fatal (.alreadyExists (target.dirIndex + block))) m' ∧ m'.Sound held ∧
      shareBlocks source target block m = .ok () m' ∧
      (m'.memory.link (target.dirIndex + block)).isPresent = true ∧
      ¬ m.Separate source.dirIndex target.dirIndex blocks := by
  induction blocks with
  | zero => exact Or.inl ⟨m, rfl, sound, fun _ => rangeShared_zero m _ _⟩
  | succ n ih =>
      have before (block : Nat) (below : block < n) : block < n + 1 := Nat.lt_succ_of_lt below
      have fewer := Nat.le_succ n
      rw [shareBlocks_succ]
      rcases ih (fun block below => members block (before block below))
          (fun block below => members' block (before block below)) with
        ⟨m₁, run, sound₁, effect⟩ | ⟨m₁, run, sound₁, effect⟩ |
        ⟨block, m₁, below, run, sound₁, first, present, mixed⟩
      · have member := members n (Nat.lt_succ_self n)
        have member' := members' n (Nat.lt_succ_self n)
        rw [bind_ok run, whole]
        rcases sound₁.duplicateBlock_cases member member' with
          ⟨present, stop⟩ | ⟨-, -, stop⟩ | ⟨-, m₂, step, shared⟩
        · refine Or.inr (Or.inr ⟨n, m₁, Nat.lt_succ_self n, stop, sound₁, run, present, ?_⟩)
          intro separate
          have link := (effect (separate.mono fewer)).link (target.dirIndex + n) (by omega)
          rw [link, separate.absent n (Nat.lt_succ_self n)] at present
          cases present
        · exact Or.inr (Or.inl ⟨m₁, stop, sound₁,
            fun separate => ⟨n, Nat.lt_succ_self n, effect (separate.mono fewer)⟩⟩)
        · exact Or.inl ⟨m₂, step, shared.sound,
            fun separate => (effect (separate.mono fewer)).succ shared separate member⟩
      · refine Or.inr (Or.inl ⟨m₁, bind_error run, sound₁, ?_⟩)
        intro separate
        obtain ⟨shared, below, effect⟩ := effect (separate.mono fewer)
        exact ⟨shared, before shared below, effect⟩
      · exact Or.inr (Or.inr ⟨block, m₁, before block below, bind_error run, sound₁, first, present,
          fun separate => mixed (separate.mono fewer)⟩)

theorem checkDuplicate_eq_ok_iff {size : Nat} : checkDuplicate source target size = .ok () ↔
    (source.isBlockAligned = true ∧ target.isBlockAligned = true) ∧
      source.dirIndex + blocksSpanned size ≤ entriesPerDirectory ∧
      target.dirIndex + blocksSpanned size ≤ entriesPerDirectory := by
  simp only [checkDuplicate, requireAligned, requireInDirectory, bind, Except.bind]
  grind

theorem checkDuplicate_eq {size : Nat} (within : layout.InTaskSpace source size)
    (within' : layout.InTaskSpace target size) (aligned : source.isBlockAligned = true)
    (aligned' : target.isBlockAligned = true) : checkDuplicate source target size = .ok () :=
  checkDuplicate_eq_ok_iff.mpr
    ⟨⟨aligned, aligned'⟩, within.blocks_le aligned, within'.blocks_le aligned'⟩

theorem duplicate_congr {size size' : Nat} (same : blocksSpanned size = blocksSpanned size') :
    (duplicate source target size : Operation layout MemoryError Unit) =
      duplicate source target size' := by
  rw [duplicate, duplicate, checkDuplicate, checkDuplicate, same]

theorem duplicate_checked_or_refused {size : Nat} (m : Manager layout) :
    (checkDuplicate source target size = .ok () ∧ duplicate source target size m =
      thenFlush (shareBlocks source target (blocksSpanned size)) m) ∨
    ∃ error, duplicate source target size m = .error (.fatal error) m := by
  cases check : checkDuplicate source target size with
  | ok _ => exact Or.inl ⟨rfl, bind_ok (orFatal_ok (ask_ok check))⟩
  | error error => exact Or.inr ⟨error, bind_error (orFatal_error (ask_error check))⟩

theorem checkDuplicate_of_duplicate {size : Nat}
    (done : duplicate source target size m = .ok () m') :
    (source.isBlockAligned = true ∧ target.isBlockAligned = true) ∧
      source.dirIndex + blocksSpanned size ≤ entriesPerDirectory ∧
      target.dirIndex + blocksSpanned size ≤ entriesPerDirectory := by
  rcases @duplicate_checked_or_refused layout source target size m with
    ⟨checked, -⟩ | ⟨error, refused⟩
  · exact checkDuplicate_eq_ok_iff.mp checked
  · cases refused.symm.trans done

theorem exists_shareBlocks_of_duplicate {size : Nat}
    (done : duplicate source target size m = .ok () m') :
    ∃ m₁, target.dirIndex + blocksSpanned size ≤ entriesPerDirectory ∧
      shareBlocks source target (blocksSpanned size) m = .ok () m₁ ∧ m' = m₁.flushed := by
  have inside := (checkDuplicate_of_duplicate done).2.2
  have checked := checkDuplicate_eq_ok_iff.mpr (checkDuplicate_of_duplicate done)
  have shares : duplicate source target size m =
      thenFlush (shareBlocks source target (blocksSpanned size)) m :=
    bind_ok (orFatal_ok (ask_ok checked))
  rw [shares] at done
  cases run : shareBlocks source target (blocksSpanned size) m with
  | ok _ m₁ =>
      cases (thenFlush_ok run).symm.trans done
      exact ⟨m₁, inside, rfl, rfl⟩
  | error error m₁ => cases (thenFlush_error run).symm.trans done

theorem exists_duplicate_of_misaligned
    (misaligned : ¬ (source.isBlockAligned = true ∧ target.isBlockAligned = true)) (size : Nat)
    (m : Manager layout) : ∃ addr, (addr = source ∨ addr = target) ∧ addr.isBlockAligned = false ∧
      duplicate source target size m =
        .error (.fatal (.misaligned "copy_page_tables" addr)) m := by
  have refuse {addr : LinearAddr} (refused : checkDuplicate source target size =
      .error (.misaligned "copy_page_tables" addr)) : duplicate source target size m =
        .error (.fatal (.misaligned "copy_page_tables" addr)) m :=
    bind_error (orFatal_error (ask_error refused))
  by_cases aligned : source.isBlockAligned = true
  · have misaligned' : target.isBlockAligned = false :=
      Bool.not_eq_true _ ▸ fun aligned' => misaligned ⟨aligned, aligned'⟩
    refine ⟨target, Or.inr rfl, misaligned', refuse ?_⟩
    rw [checkDuplicate, requireAligned_eq aligned, requireAligned_of_misaligned misaligned']
    rfl
  · have misaligned' : source.isBlockAligned = false := Bool.not_eq_true _ ▸ aligned
    refine ⟨source, Or.inl rfl, misaligned', refuse ?_⟩
    rw [checkDuplicate, requireAligned_of_misaligned misaligned']
    rfl

theorem duplicate_eq {size : Nat} (within : layout.InTaskSpace source size)
    (within' : layout.InTaskSpace target size) (aligned : source.isBlockAligned = true)
    (aligned' : target.isBlockAligned = true) (m : Manager layout) :
    duplicate source target size m =
      thenFlush (shareBlocks source target (blocksSpanned size)) m := by
  have checked : (orFatal (ask fun _ => checkDuplicate source target size) :
      Operation layout MemoryError Unit) m = .ok () m :=
    orFatal_ok (ask_ok (checkDuplicate_eq within within' aligned aligned'))
  rw [duplicate, bind_ok checked]
  rfl

/-- One block is shared if it has a table, the other has none, and there is a free frame. -/
theorem Sound.exists_duplicate_block (sound : m.Sound held) {size : Nat}
    (within : layout.InTaskSpace source size) (within' : layout.InTaskSpace target size)
    (aligned : source.isBlockAligned = true) (aligned' : target.isBlockAligned = true)
    (single : blocksSpanned size = 1)
    (absent : (m.memory.link target.dirIndex).isPresent = false)
    (linked : (m.memory.link source.dirIndex).isPresent = true) (room : 0 < m.pool.freeCount) :
    ∃ m', duplicate source target size m = .ok () m' ∧
      BlockShared m m' held source.dirIndex target.dirIndex ∧
      m'.pool.freeCount + 1 = m.pool.freeCount := by
  have one : 0 < blocksSpanned size := single.symm ▸ Nat.one_pos
  have member := within.mem_taskBlocks aligned one
  have member' := within'.mem_taskBlocks aligned' one
  obtain ⟨m₁, step, round⟩ :=
    (sound.duplicateBlock_round member member').exists_ok absent linked room
  have shared := round.blockShared sound
  have taken := round.freeCount sound member member'
  have shares := duplicate_eq within within' aligned aligned' m
  rw [single, shareBlocks_one, within.sharedEntries_eq] at shares
  rw [Nat.add_zero] at member member'
  rw [Nat.add_zero, if_pos linked] at taken
  exact ⟨m₁.flushed, shares.trans (Operation.thenFlush_ok step), { shared with }, taken⟩

theorem Sound.duplicate_cases (sound : m.Sound held) {size : Nat}
    (within : layout.InTaskSpace source size) (within' : layout.InTaskSpace target size)
    (aligned : source.isBlockAligned = true) (aligned' : target.isBlockAligned = true) :
    (∃ m', duplicate source target size m = .ok () m' ∧ m'.Sound held ∧
      (m.Separate source.dirIndex target.dirIndex (blocksSpanned size) →
        m.RangeShared m' source.dirIndex target.dirIndex (blocksSpanned size))) ∨
    (∃ m', duplicate source target size m = .error .outOfMemory m' ∧ m'.Sound held ∧
      (m.Separate source.dirIndex target.dirIndex (blocksSpanned size) →
        ∃ shared < blocksSpanned size,
          m.RangeShared m' source.dirIndex target.dirIndex shared)) ∨
    ∃ block m', block < blocksSpanned size ∧
      duplicate source target size m =
        .error (.fatal (.alreadyExists (target.dirIndex + block))) m'.flushed ∧ m'.Sound held ∧
      shareBlocks source target block m = .ok () m' ∧
      (m'.memory.link (target.dirIndex + block)).isPresent = true ∧
      ¬ m.Separate source.dirIndex target.dirIndex (blocksSpanned size) := by
  rw [duplicate_eq within within' aligned aligned' m]
  rcases sound.shareBlocks_cases (fun _ => within.mem_taskBlocks aligned)
      (fun _ => within'.mem_taskBlocks aligned') within.sharedEntries_eq with
    ⟨m₁, run, sound₁, effect⟩ | ⟨m₁, run, sound₁, effect⟩ |
    ⟨block, m₁, below, run, sound₁, first, present, mixed⟩
  · refine Or.inl ⟨m₁.flushed, thenFlush_ok run, sound₁, ?_⟩
    exact fun separate => ⟨(effect separate).link, (effect separate).seen⟩
  · refine Or.inr (Or.inl ⟨m₁.flushed, thenFlush_error run, sound₁, ?_⟩)
    intro separate
    obtain ⟨shared, below, effect⟩ := effect separate
    exact ⟨shared, below, effect.link, effect.seen⟩
  · exact Or.inr (Or.inr ⟨block, m₁, below, thenFlush_error run, sound₁, first, present, mixed⟩)

theorem RangeShared.released {m'' : Manager layout} {first shared : Nat}
    (effect : m.RangeShared m' source.dirIndex first shared) (sound : m.Sound held)
    (members : ∀ block < blocks, first + block ∈ layout.taskBlocks) (below : shared < blocks)
    (separate : m.Separate source.dirIndex first blocks)
    (released : m'.Released m'' first blocks) :
    m''.memory.link = m.memory.link ∧
      ∀ place ∈ layout.taskPlaces, m''.memory.seen place = m.memory.seen place := by
  have absent (block : Nat) (covered : first ≤ block ∧ block < first + blocks) :
      (m.memory.link block).isPresent = false := by
    have offset : first + (block - first) = block := by omega
    rw [← offset]
    exact separate.absent (block - first) (by omega)
  constructor
  · funext block
    rw [released.link]
    by_cases covered : first ≤ block ∧ block < first + blocks
    · have offset : first + (block - first) = block := by omega
      have member : block ∈ layout.taskBlocks := offset ▸ members (block - first) (by omega)
      rw [if_pos covered, sound.balanced.linkEmpty block member (absent block covered)]
    · rw [if_neg covered, effect.link block (by omega)]
  · intro place inside
    rw [released.seen place inside]
    by_cases covered : first ≤ place.1 ∧ place.1 < first + blocks
    · rw [if_pos covered, PhysicalMemory.seen_of_unlinked place (absent _ covered)]
    · rw [if_neg covered, effect.seen place inside, if_neg (by omega)]

theorem Sound.exists_fork_of_duplicate {limit : Nat} (sound : m'.Sound held)
    (within' : layout.InTaskSpace target limit) (aligned' : target.isBlockAligned = true)
    (failed : duplicate source target limit m = .error .outOfMemory m') :
    ∃ m'', fork source target limit m = .error .outOfMemory m'' ∧ m''.Sound held ∧
      m'.Released m'' target.dirIndex (blocksSpanned limit) := by
  obtain ⟨m'', undo, sound'', released⟩ := sound.exists_release within' aligned'
  have undone : (orFatal (release target limit) : Operation layout MemoryError Unit) m' =
      .ok () m'' := orFatal_ok undo
  exact ⟨m'', (bind_ok (attempt_error failed)).trans (bind_ok undone), sound'', released⟩

theorem Sound.fork_cases (sound : m.Sound held) {limit : Nat}
    (within : layout.InTaskSpace source limit) (within' : layout.InTaskSpace target limit)
    (aligned : source.isBlockAligned = true) (aligned' : target.isBlockAligned = true) :
    (∃ m', fork source target limit m = .ok () m' ∧ m'.Sound held ∧
      (m.Separate source.dirIndex target.dirIndex (blocksSpanned limit) →
        m.RangeShared m' source.dirIndex target.dirIndex (blocksSpanned limit))) ∨
    (∃ m', fork source target limit m = .error .outOfMemory m' ∧ m'.Sound held ∧
      (m.Separate source.dirIndex target.dirIndex (blocksSpanned limit) →
        m'.memory.link = m.memory.link ∧
          ∀ place ∈ layout.taskPlaces, m'.memory.seen place = m.memory.seen place)) ∨
    ∃ block m', block < blocksSpanned limit ∧
      fork source target limit m =
        .error (.fatal (.alreadyExists (target.dirIndex + block))) m'.flushed ∧ m'.Sound held ∧
      shareBlocks source target block m = .ok () m' ∧
      (m'.memory.link (target.dirIndex + block)).isPresent = true ∧
      ¬ m.Separate source.dirIndex target.dirIndex (blocksSpanned limit) := by
  rcases sound.duplicate_cases within within' aligned aligned' with
    ⟨m₁, run, sound₁, effect⟩ | ⟨m₁, run, sound₁, effect⟩ |
    ⟨block, m₁, below, run, sound₁, first, present, mixed⟩
  · exact Or.inl ⟨m₁, bind_ok (attempt_ok run), sound₁, effect⟩
  · obtain ⟨m₂, failed, sound₂, released⟩ := sound₁.exists_fork_of_duplicate within' aligned' run
    refine Or.inr (Or.inl ⟨m₂, failed, sound₂, ?_⟩)
    intro separate
    obtain ⟨shared, below, effect⟩ := effect separate
    exact effect.released sound (fun _ => within'.mem_taskBlocks aligned') below separate released
  · exact Or.inr (Or.inr ⟨block, m₁, below, bind_ok (attempt_error run), sound₁, first, present,
      mixed⟩)

theorem exists_of_fork_outOfMemory {limit : Nat}
    (failed : fork source target limit m = .error .outOfMemory m') :
    ∃ m₁, duplicate source target limit m = .error .outOfMemory m₁ ∧
      release target limit m₁ = .ok () m' := by
  rw [fork] at failed
  cases run : duplicate source target limit m with
  | ok _ m₁ =>
      rw [bind_ok (attempt_ok run)] at failed
      cases failed
  | error error m₁ =>
      rw [bind_ok (attempt_error run)] at failed
      cases error with
      | fatal error => cases failed
      | outOfMemory =>
          refine ⟨m₁, rfl, ?_⟩
          cases undo : release target limit m₁ with
          | ok _ m₂ =>
              have undone : (orFatal (release target limit) :
                  Operation layout MemoryError Unit) m₁ = .ok () m₂ := orFatal_ok undo
              have ends := (bind_ok undone).symm.trans failed
              cases ends
              rfl
          | error error m₂ =>
              have stuck : (orFatal (release target limit) : Operation layout MemoryError Unit) m₁ =
                  .error (.fatal error) m₂ := orFatal_error undo
              have ends := (bind_error stuck).symm.trans failed
              cases ends

theorem exists_fork_of_misaligned
    (misaligned : ¬ (source.isBlockAligned = true ∧ target.isBlockAligned = true)) (limit : Nat)
    (m : Manager layout) : ∃ addr, (addr = source ∨ addr = target) ∧ addr.isBlockAligned = false ∧
      fork source target limit m =
        .error (.fatal (.misaligned "copy_page_tables" addr)) m := by
  obtain ⟨addr, given, crooked, run⟩ := exists_duplicate_of_misaligned misaligned limit m
  exact ⟨addr, given, crooked, bind_ok (attempt_error run)⟩

end Range

end Manager

end PagedMemory

import PagedMemory.Proofs.IdentityMap

/-!
Duplication from linear address 0. Of every block only the first 160 leaves are shared. Those of
the first block lead to reserved frames and are copied as they are; those of later blocks are shared
like any others. The tables of tasks may lead to reserved frames afterwards, so the books are not
balanced any more: `Tabled` is what is left of them, and enough to say which words each round
writes.
-/

namespace PagedMemory

def Entry.sharedIn (layout : Layout) (entry : Entry) : Entry :=
  if layout.isReserved entry.frame then entry else entry.writeProtected

theorem Entry.isPresent_sharedIn (layout : Layout) (entry : Entry) :
    (entry.sharedIn layout).isPresent = entry.isPresent := by
  rw [sharedIn]
  cases layout.isReserved entry.frame with
  | true => rfl
  | false => exact isPresent_writeProtected entry

theorem Entry.sharedIn_empty (layout : Layout) : empty.sharedIn layout = empty := by
  rw [sharedIn, writeProtected_empty, ite_self]

namespace Manager

variable {layout : Layout} {m m' : Manager layout} {held : Finset Frame}

open Operation

/-- Tables lie in frames of their own, which are not free, and absent entries are empty. -/
structure Tabled (memory : PhysicalMemory layout.totalFrames) (count : Frame → Nat) : Prop where
  inside : ∀ {block}, (memory.link block).isPresent = true →
    (memory.link block).frame.number < layout.totalFrames
  apart : ∀ {block}, (memory.link block).isPresent = true →
    (memory.link block).frame ≠ pageDirectory
  used : ∀ {block}, (memory.link block).isPresent = true →
    layout.isReserved (memory.link block).frame = true ∨ count (memory.link block).frame ≠ 0
  alone : ∀ {block other}, (memory.link block).isPresent = true →
    (memory.link other).isPresent = true →
    (memory.link other).frame = (memory.link block).frame → other = block
  empty : ∀ place, (memory.leaf place).isPresent = false → memory.leaf place = .empty

theorem Sound.tabled (sound : m.Sound held) : Tabled m.memory m.pool.count := by
  have low := layout.kernelTables_lt_firstPoolFrame
  refine ⟨sound.link_inside, sound.link_ne_directory, ?_, ?_, fun _ => sound.leaf_eq_empty⟩
  · intro block present
    rcases PhysicalMemory.kernel_or_task present with kernel | member
    · rw [sound.frame_link_of_kernel kernel]
      exact Or.inl (isReserved_of_lt (Nat.lt_of_le_of_lt kernel low))
    · exact Or.inr (by rw [(sound.balanced.linked block member present).2]; decide)
  · intro block other present present' same
    rcases PhysicalMemory.kernel_or_task present with kernel | member
    · rcases PhysicalMemory.kernel_or_task present' with kernel' | member'
      · rw [sound.frame_link_of_kernel kernel, sound.frame_link_of_kernel kernel'] at same
        exact Nat.succ.inj (congrArg Frame.number same)
      · exact (sound.link_alone member' present' present same.symm).symm
    · exact sound.link_alone member present present' same

namespace Tabled

variable {memory : PhysicalMemory layout.totalFrames} {count count' : Frame → Nat}
  (tabled : Tabled memory count)

include tabled

theorem setLeaf (place : Nat × Nat) (linked : (memory.link place.1).isPresent = true)
    (bound : place.2 < entriesPerTable) {entry : Entry} (present : entry.isPresent = true)
    (more : ∀ frame, count frame ≤ count' frame) :
    Tabled (memory.setLeaf place entry) count' ∧
      (memory.setLeaf place entry).link = memory.link ∧
      (memory.setLeaf place entry).leaf = Function.update memory.leaf place entry := by
  have link := PhysicalMemory.link_setLeaf (tabled.apart linked) entry
  have leaf := PhysicalMemory.leaf_setLeaf entry linked bound (tabled.inside linked)
    (tabled.apart linked) fun _ => tabled.alone linked
  refine ⟨⟨?_, ?_, ?_, ?_, ?_⟩, link, leaf⟩
  · rw [link]
    exact tabled.inside
  · rw [link]
    exact tabled.apart
  · rw [link]
    intro block linked'
    refine (tabled.used linked').imp_right ?_
    intro some
    have := more (memory.link block).frame
    omega
  · rw [link]
    exact tabled.alone
  · rw [leaf]
    intro other absent
    by_cases same : other = place
    · rw [same, Function.update_self, present] at absent
      cases absent
    · rw [Function.update_of_ne same] at absent ⊢
      exact tabled.empty other absent

theorem ne_of_free {table : Frame} (pooled : layout.IsPooled table) (free : count table = 0)
    {block : Nat} (present : (memory.link block).isPresent = true) :
    (memory.link block).frame ≠ table := by
  intro same
  rcases tabled.used present with reserved | some
  · rw [same, Layout.isReserved, decide_eq_true_eq] at reserved
    exact absurd pooled.1 (Nat.not_le.mpr reserved)
  · rw [same] at some
    exact some free

section AddTable

variable {block : Nat} {table : Frame} (bound : block < entriesPerDirectory)
  (absent : (memory.link block).isPresent = false) (pooled : layout.IsPooled table)
  (free : count table = 0)

include pooled free

theorem of_update {memory' : PhysicalMemory layout.totalFrames}
    (link : memory'.link = Function.update memory.link block (Entry.new table .userWritable))
    (leaf : memory'.leaf = memory.leaf) : Tabled memory' (Function.update count table 1) := by
  have leads : (Entry.new table .userWritable).frame = table := Entry.frame_new_of_lt pooled.2 _
  have new (good : Frame → Prop) (here : good table)
      (old : ∀ {other}, (memory.link other).isPresent = true → good (memory.link other).frame)
      {other : Nat} (present : (memory'.link other).isPresent = true) :
      good (memory'.link other).frame := by
    rw [link] at present ⊢
    by_cases same : other = block
    · rw [same, Function.update_self, leads]
      exact here
    · rw [Function.update_of_ne same] at present ⊢
      exact old present
  refine ⟨new (·.number < layout.totalFrames) pooled.2 tabled.inside,
    new (· ≠ pageDirectory) pooled.ne_directory tabled.apart, ?_, ?_, ?_⟩
  · apply new fun frame => layout.isReserved frame = true ∨ Function.update count table 1 frame ≠ 0
    · rw [Function.update_self]
      exact Or.inr Nat.one_ne_zero
    · intro other present
      rw [Function.update_of_ne (tabled.ne_of_free pooled free present)]
      exact tabled.used present
  · rw [link]
    intro first second present present' equal
    by_cases same : first = block
    · by_cases same' : second = block
      · rw [same, same']
      · rw [Function.update_of_ne same'] at present' equal
        rw [same, Function.update_self, leads] at equal
        exact absurd equal (tabled.ne_of_free pooled free present')
    · rw [Function.update_of_ne same] at present equal
      by_cases same' : second = block
      · rw [same', Function.update_self, leads] at equal
        exact absurd equal.symm (tabled.ne_of_free pooled free present)
      · rw [Function.update_of_ne same'] at present' equal
        exact tabled.alone present present' equal
  · rw [leaf]
    exact tabled.empty

include bound absent

theorem addTable :
    Tabled ((memory.putPage table none).setLink block (Entry.new table .userWritable))
        (Function.update count table 1) ∧
      ((memory.putPage table none).setLink block (Entry.new table .userWritable)).link =
        Function.update memory.link block (Entry.new table .userWritable) ∧
      ((memory.putPage table none).setLink block (Entry.new table .userWritable)).leaf =
        memory.leaf := by
  have outside := pooled.ne_directory
  have leads : (Entry.new table .userWritable).frame = table := Entry.frame_new_of_lt pooled.2 _
  have only := memory.onlyPage_putPage table none
  have link₁ : (memory.putPage table none).link = memory.link := only.link outside
  have leaf₁ : (memory.putPage table none).leaf = memory.leaf :=
    only.leaf outside fun _ => tabled.ne_of_free pooled free
  have blank : (memory.putPage table none).page (Entry.new table .userWritable).frame =
      Page.zero := by
    rw [leads]
    exact PhysicalMemory.page_putPage_self pooled.2 none
  generalize memory.putPage table none = memory₁ at *
  have link : (memory₁.setLink block (Entry.new table .userWritable)).link =
      Function.update memory.link block (Entry.new table .userWritable) := by
    rw [← link₁]
    exact PhysicalMemory.link_setLink _ bound layout.totalFrames_pos
  have leaf : (memory₁.setLink block (Entry.new table .userWritable)).leaf = memory.leaf := by
    rw [← leaf₁]
    apply PhysicalMemory.leaf_setLink_of_blank bound layout.totalFrames_pos _ _ blank
    · rw [leads]
      exact outside
    · rw [link₁]
      exact fun _ => tabled.apart
    · rw [link₁]
      exact absent
  exact ⟨tabled.of_update pooled free link leaf, link, leaf⟩

end AddTable

end Tabled

structure EntryShared (m m' : Manager layout) (source target index : Nat) : Prop where
  tabled : Tabled m'.memory m'.pool.count
  link : m'.memory.link = m.memory.link
  leaf : m'.memory.leaf = Function.update (Function.update m.memory.leaf (source, index)
    ((m.memory.leaf (source, index)).sharedIn layout)) (target, index)
      ((m.memory.leaf (source, index)).sharedIn layout)
  count : ∀ frame, m.pool.count frame ≤ m'.pool.count frame
  pool : layout.isReserved (m.memory.leaf (source, index)).frame = true → m'.pool = m.pool

theorem exists_of_share_ok {frame : Frame} {m₁ : Manager layout}
    (run : (onPool (FramePool.share frame) : Operation layout FatalError Unit) m = .ok () m₁) :
    ∃ pool : FramePool layout, (∀ other, m.pool.count other ≤ pool.count other) ∧
      m₁ = { m with pool := pool } := by
  rw [onPool] at run
  cases shares : FramePool.share frame m.pool with
  | ok _ pool =>
      rw [shares] at run
      cases run
      exact ⟨pool, FramePool.le_count_of_share shares, rfl⟩
  | error error pool =>
      rw [shares] at run
      cases run

section ShareLeaf

variable (tabled : Tabled m.memory m.pool.count) {source target index : Nat}
  (linked : (m.memory.link source).isPresent = true)
  (linked' : (m.memory.link target).isPresent = true) (bound : index < entriesPerTable)

include tabled linked linked' bound

omit linked in
theorem Tabled.copyLeaf_ok (present : (m.memory.leaf (source, index)).isPresent = true)
    (reserved : layout.isReserved (m.memory.leaf (source, index)).frame = true)
    (run : setEntry ⟨(m.memory.link target).frame, index⟩ (m.memory.leaf (source, index)) m =
      .ok () m') : EntryShared m m' source target index := by
  have shared : (m.memory.leaf (source, index)).sharedIn layout = m.memory.leaf (source, index) :=
    if_pos reserved
  have write := setEntry_leaf m (target, index) (m.memory.leaf (source, index))
    (tabled.inside linked')
  cases write.symm.trans run
  obtain ⟨tabled', link, leaf⟩ := tabled.setLeaf (target, index) linked' bound present
    fun _ => Nat.le_refl _
  refine ⟨tabled', link, ?_, fun _ => Nat.le_refl _, fun _ => rfl⟩
  rw [shared, Function.update_eq_self]
  exact leaf

theorem Tabled.protectLeaf_ok {entry : Entry} {pool : FramePool layout}
    (present : entry.isPresent = true)
    (shared : (m.memory.leaf (source, index)).sharedIn layout = entry)
    (unreserved : layout.isReserved (m.memory.leaf (source, index)).frame = false)
    (more : ∀ frame, m.pool.count frame ≤ pool.count frame)
    (run : (do
      setEntry ⟨(m.memory.link source).frame, index⟩ entry
      setEntry ⟨(m.memory.link target).frame, index⟩ entry : Operation layout FatalError Unit)
        { m with pool := pool } = .ok () m') : EntryShared m m' source target index := by
  obtain ⟨tabled₁, link₁, leaf₁⟩ := tabled.setLeaf (source, index) linked bound present more
  have write := setEntry_leaf { m with pool := pool } (source, index) entry (tabled.inside linked)
  have linked₁ : ((m.memory.setLeaf (source, index) entry).link target).isPresent = true := by
    rw [link₁]
    exact linked'
  have write' := setEntry_leaf { m with
    pool := pool, memory := m.memory.setLeaf (source, index) entry, tlbStale := true }
    (target, index) entry (tabled₁.inside linked₁)
  obtain ⟨tabled₂, link₂, leaf₂⟩ := tabled₁.setLeaf (target, index) linked₁ bound present
    fun _ => Nat.le_refl _
  rw [link₁] at write'
  cases ((bind_ok write).trans write').symm.trans run
  refine ⟨tabled₂, link₂.trans link₁, ?_, more, ?_⟩
  · rw [shared, ← leaf₁]
    exact leaf₂
  · intro reserved
    rw [unreserved] at reserved
    cases reserved

end ShareLeaf

theorem Tabled.shareLeaf_ok (tabled : Tabled m.memory m.pool.count) {source target index : Nat}
    (linked : (m.memory.link source).isPresent = true)
    (linked' : (m.memory.link target).isPresent = true) (bound : index < entriesPerTable)
    (vacant : m.memory.leaf (target, index) = .empty)
    (run : shareLeaf (m.memory.link source).frame (m.memory.link target).frame index m =
      .ok () m') : EntryShared m m' source target index := by
  have read : m.entryAt ⟨(m.memory.link source).frame, index⟩ =
      .ok (m.memory.leaf (source, index)) :=
    entryAt_of_inside (source, index) linked (tabled.inside linked)
  rw [shareLeaf, bind_ok (ask_ok read)] at run
  by_cases present : (m.memory.leaf (source, index)).isPresent = true
  · simp only [present, if_true] at run
    cases reserved : layout.isReserved (m.memory.leaf (source, index)).frame with
    | true =>
        simp only [reserved, if_true] at run
        exact tabled.copyLeaf_ok linked' bound present reserved run
    | false =>
        simp only [reserved, Bool.false_eq_true, if_false] at run
        obtain ⟨_, m₁, share, rest⟩ := exists_of_bind_ok run
        obtain ⟨pool, more, rfl⟩ := exists_of_share_ok share
        have shared : (m.memory.leaf (source, index)).sharedIn layout =
            (m.memory.leaf (source, index)).writeProtected := by
          rw [Entry.sharedIn, reserved]
          rfl
        exact tabled.protectLeaf_ok linked linked' bound
          ((Entry.isPresent_writeProtected _).trans present) shared reserved more rest
  · have empty := tabled.empty _ (Bool.not_eq_true _ ▸ present)
    simp only [present, Bool.false_eq_true, if_false] at run
    cases run
    refine ⟨tabled, rfl, ?_, fun _ => Nat.le_refl _, fun _ => rfl⟩
    rw [empty, Entry.sharedIn_empty, ← empty, Function.update_eq_self, empty, ← vacant,
      Function.update_eq_self]

structure EntriesShared (m m' : Manager layout) (source target entries : Nat) : Prop where
  tabled : Tabled m'.memory m'.pool.count
  link : m'.memory.link = m.memory.link
  leaf : ∀ place : Nat × Nat, m'.memory.leaf place =
    if place.1 = target ∧ place.2 < entries then (m.memory.leaf (source, place.2)).sharedIn layout
    else if place.1 = source ∧ place.2 < entries then (m.memory.leaf place).sharedIn layout
    else m.memory.leaf place
  count : ∀ frame, m.pool.count frame ≤ m'.pool.count frame
  pool : (∀ index < entries, layout.isReserved (m.memory.leaf (source, index)).frame = true) →
    m'.pool = m.pool

theorem EntriesShared.succ {m'' : Manager layout} {source target entries : Nat}
    (shared : m.EntriesShared m' source target entries)
    (next : m'.EntryShared m'' source target entries) (apart : source ≠ target) :
    m.EntriesShared m'' source target (entries + 1) := by
  have here : m'.memory.leaf (source, entries) = m.memory.leaf (source, entries) := by
    rw [shared.leaf, if_neg (fun both => Nat.lt_irrefl _ both.2),
      if_neg (fun both => Nat.lt_irrefl _ both.2)]
  refine ⟨next.tabled, next.link.trans shared.link, ?_,
    fun frame => Nat.le_trans (shared.count frame) (next.count frame), ?_⟩
  · rintro ⟨block, index⟩
    rw [next.leaf, here]
    simp only [Function.update_apply, Prod.mk.injEq, shared.leaf]
    grind
  · intro reserved
    have before := shared.pool fun index below => reserved index (Nat.lt_succ_of_lt below)
    have last := reserved entries (Nat.lt_succ_self _)
    rw [← here] at last
    exact (next.pool last).trans before

theorem Tabled.shareEntries_ok (tabled : Tabled m.memory m.pool.count)
    {source target entries : Nat} (linked : (m.memory.link source).isPresent = true)
    (linked' : (m.memory.link target).isPresent = true) (apart : source ≠ target)
    (vacant : ∀ index, m.memory.leaf (target, index) = .empty) (few : entries ≤ entriesPerTable)
    (run : (List.range entries).forM
      (shareLeaf (m.memory.link source).frame (m.memory.link target).frame) m = .ok () m') :
    m.EntriesShared m' source target entries := by
  have start : m.EntriesShared m source target 0 := by
    refine ⟨tabled, rfl, ?_, fun _ => Nat.le_refl _, fun _ => rfl⟩
    intro place
    rw [if_neg (fun both => Nat.not_lt_zero _ both.2),
      if_neg (fun both => Nat.not_lt_zero _ both.2)]
  have ends := forM_invariant (fun n m' => m.EntriesShared m' source target n) (by
    intro n inside m₁ m₂ shared round
    rw [List.length_range] at inside
    rw [List.getElem_range, ← shared.link] at round
    have vacant' : m₁.memory.leaf (target, n) = .empty := by
      rw [shared.leaf, if_neg (fun both => Nat.lt_irrefl _ both.2),
        if_neg (fun both => Nat.lt_irrefl _ both.2), vacant]
    rw [← shared.link] at linked linked'
    exact shared.succ (shared.tabled.shareLeaf_ok linked linked' (by omega) vacant' round) apart)
    start run
  rw [List.length_range] at ends
  exact ends

def withTable (m : Manager layout) (block : Nat) (table : Frame) (pool : FramePool layout) :
    Manager layout :=
  { m with
    memory := (m.memory.putPage table none).setLink block (Entry.new table .userWritable)
    pool := pool
    tlbStale := true }

theorem exists_of_duplicateBlock {entries source target : Nat}
    (run : duplicateBlock entries source target m = .ok () m') :
    (m.memory.link target).isPresent = false ∧
      ((m.memory.link source).isPresent = false ∧ m' = m ∨
        (m.memory.link source).isPresent = true ∧ ∃ table pool, layout.IsPooled table ∧
          m.pool.count table = 0 ∧ pool.count = Function.update m.pool.count table 1 ∧
          (List.range entries).forM (shareLeaf (m.memory.link source).frame table)
            (m.withTable target table pool) = .ok () m') := by
  rw [duplicateBlock, bind_ok (dirEntry_run target m)] at run
  by_cases occupied : (m.memory.link target).isPresent = true
  · rw [if_pos occupied] at run
    cases run
  · refine ⟨Bool.not_eq_true _ ▸ occupied, ?_⟩
    rw [if_neg occupied, bind_ok (dirEntry_run source m)] at run
    by_cases linked : (m.memory.link source).isPresent = true
    · refine Or.inr ⟨linked, ?_⟩
      have taken := @allocateFrame_eq layout MemoryError m
      simp only [linked, if_true] at run
      cases found : m.pool.highestFree with
      | none =>
          rw [found] at taken
          rw [bind_ok taken] at run
          cases run
      | some i =>
          rw [found] at taken
          rw [bind_ok taken] at run
          obtain ⟨_, m₁, write, loop⟩ := exists_of_bind_ok (of_orFatal_ok run)
          rw [setEntry_link] at write
          cases write
          exact ⟨FramePool.frameAt i, _, FramePool.pooled_frameAt i,
            FramePool.count_of_highestFree_eq_some found, FramePool.count_of_set rfl, loop⟩
    · simp only [linked, Bool.false_eq_true, if_false] at run
      cases run
      exact Or.inl ⟨Bool.not_eq_true _ ▸ linked, rfl⟩

theorem Tabled.shareEntries_of_added {m₁ : Manager layout} {source target entries : Nat}
    {table : Frame} (tabled : Tabled m₁.memory m₁.pool.count)
    (link : m₁.memory.link =
      Function.update m.memory.link target (Entry.new table .userWritable))
    (leaf : m₁.memory.leaf = m.memory.leaf) (linked : (m.memory.link source).isPresent = true)
    (absent : (m.memory.link target).isPresent = false) (apart : source ≠ target)
    (pooled : layout.IsPooled table) (few : entries ≤ entriesPerTable)
    (loop : (List.range entries).forM (shareLeaf (m.memory.link source).frame table) m₁ =
      .ok () m') : m₁.EntriesShared m' source target entries := by
  obtain ⟨present, leads⟩ : (m₁.memory.link target).PointsAt table :=
    Entry.pointsAt_of_update pooled.2 link
  have parent : m₁.memory.link source = m.memory.link source := by
    rw [link, Function.update_of_ne apart]
  have vacant (index : Nat) : m₁.memory.leaf (target, index) = .empty := by
    rw [leaf]
    exact PhysicalMemory.leaf_of_absent (target, index) absent
  rw [← leads, ← parent] at loop
  exact tabled.shareEntries_ok (parent ▸ linked) present apart vacant few loop

theorem Tabled.exists_table_of_duplicateBlock (tabled : Tabled m.memory m.pool.count)
    {entries source target : Nat} (bound : target < entriesPerDirectory)
    (few : entries ≤ entriesPerTable) (linked : (m.memory.link source).isPresent = true)
    (run : duplicateBlock entries source target m = .ok () m') :
    ∃ (table : Frame) (m₁ : Manager layout), layout.IsPooled table ∧ m.pool.count table = 0 ∧
      m₁.memory.link = Function.update m.memory.link target (Entry.new table .userWritable) ∧
      m₁.memory.leaf = m.memory.leaf ∧ m₁.pool.count = Function.update m.pool.count table 1 ∧
      m₁.EntriesShared m' source target entries := by
  obtain ⟨absent, ⟨none, -⟩ | ⟨-, table, pool, pooled, free, counts, loop⟩⟩ :=
    exists_of_duplicateBlock run
  · rw [linked] at none
    cases none
  · obtain ⟨tabled₁, link₁, leaf₁⟩ : Tabled (m.withTable target table pool).memory _ ∧
        (m.withTable target table pool).memory.link = _ ∧
        (m.withTable target table pool).memory.leaf = _ :=
      tabled.addTable bound absent pooled free
    have counts₁ : (m.withTable target table pool).pool.count = _ := counts
    rw [← counts₁] at tabled₁
    have apart : source ≠ target := by
      rintro rfl
      rw [absent] at linked
      cases linked
    exact ⟨table, m.withTable target table pool, pooled, free, link₁, leaf₁, counts₁,
      tabled₁.shareEntries_of_added link₁ leaf₁ linked absent apart pooled few loop⟩

/-- The first `entries` leaves of `source` are shared with `target`, which has a new table for that
if `source` has one. -/
structure RoundShared (m m' : Manager layout) (source target entries : Nat) : Prop where
  tabled : Tabled m'.memory m'.pool.count
  absent : (m.memory.link target).isPresent = false
  link : m'.memory.link = m.memory.link ∨ ∃ table, m.pool.count table = 0 ∧
    m'.memory.link = Function.update m.memory.link target (Entry.new table .userWritable)
  leaf : ∀ place : Nat × Nat, m'.memory.leaf place =
    if place.1 = target ∧ place.2 < entries then (m.memory.leaf (source, place.2)).sharedIn layout
    else if place.1 = source ∧ place.2 < entries then (m.memory.leaf place).sharedIn layout
    else m.memory.leaf place
  fresh : (∀ index < entries, layout.isReserved (m.memory.leaf (source, index)).frame = true) →
    ∀ frame, m'.refCount? frame = m.refCount? frame ∨ m.refCount? frame = some 0 ∧
      m'.refCount? frame = some 1 ∧ (m'.memory.link target).PointsAt frame

theorem Tabled.duplicateBlock_ok (tabled : Tabled m.memory m.pool.count)
    {entries source target : Nat} (bound : target < entriesPerDirectory)
    (few : entries ≤ entriesPerTable)
    (run : duplicateBlock entries source target m = .ok () m') :
    m.RoundShared m' source target entries := by
  obtain ⟨absent, ⟨none, rfl⟩ | ⟨linked, -⟩⟩ := exists_of_duplicateBlock run
  · refine ⟨tabled, absent, Or.inl rfl, ?_, fun _ _ => Or.inl rfl⟩
    rintro ⟨block, index⟩
    have parent := PhysicalMemory.leaf_of_absent (source, index) none
    have child := PhysicalMemory.leaf_of_absent (target, index) absent
    have unshared := Entry.sharedIn_empty layout
    grind
  · obtain ⟨table, m₁, pooled, free, link₁, leaf₁, counts₁, shared⟩ :=
      tabled.exists_table_of_duplicateBlock bound few linked run
    have child : m'.memory.link target = Entry.new table .userWritable := by
      rw [shared.link, link₁, Function.update_self]
    refine ⟨shared.tabled, absent, Or.inr ⟨table, free, shared.link.trans link₁⟩, ?_, ?_⟩
    · intro place
      rw [shared.leaf, leaf₁]
    · intro reserved frame
      rw [← leaf₁] at reserved
      have same : m'.pool.count = Function.update m.pool.count table 1 :=
        (congrArg FramePool.count (shared.pool reserved)).trans counts₁
      by_cases here : frame = table
      · subst here
        refine Or.inr ⟨?_, ?_, ?_⟩
        · rw [refCount?_eq pooled, free]
        · rw [refCount?_eq pooled, same, Function.update_self]
        · rw [child]
          exact Entry.pointsAt_new pooled.2 rfl
      · apply Or.inl (refCount?_congr _)
        rw [same, Function.update_of_ne here]

def origin : LinearAddr := LinearAddr.ofNat 0

theorem Tabled.shareBlocks_ok (tabled : Tabled m.memory m.pool.count) {target : LinearAddr}
    {blocks : Nat} (inside : target.dirIndex + blocks ≤ entriesPerDirectory)
    (after : Nat → Manager layout → Prop)
    (round : ∀ block < blocks, ∀ m₁ m₂, after block m₁ →
      m₁.RoundShared m₂ block (target.dirIndex + block) bootstrapEntries → after (block + 1) m₂)
    (start : after 0 m) (run : shareBlocks origin target blocks m = .ok () m') :
    after blocks m' := by
  have first : origin.dirIndex = 0 := by decide
  have entries : sharedEntries origin = bootstrapEntries := by decide
  have ends := forM_invariant (fun n m' => Tabled m'.memory m'.pool.count ∧ after n m') (by
    rintro n below m₁ m₂ ⟨tabled₁, before⟩ step
    rw [List.length_range] at below
    rw [List.getElem_range, first, entries, Nat.zero_add] at step
    have shared := tabled₁.duplicateBlock_ok (by omega) (by decide) step
    exact ⟨shared.tabled, round n below m₁ m₂ before shared⟩) ⟨tabled, start⟩ run
  rw [List.length_range] at ends
  exact ends.2

theorem RoundShared.kept {source target entries : Nat}
    (shared : m.RoundShared m' source target entries) {place : Nat × Nat}
    (present : (m.memory.leaf place).isPresent = true) :
    (m'.memory.leaf place).isPresent = true := by
  have elsewhere : place.1 ≠ target := by
    rintro same
    have linked := PhysicalMemory.link_present_of_leaf present
    rw [same, shared.absent] at linked
    cases linked
  rw [shared.leaf, if_neg (fun both => elsewhere both.1)]
  by_cases parent : place.1 = source ∧ place.2 < entries
  · rw [if_pos parent, Entry.isPresent_sharedIn]
    exact present
  · rw [if_neg parent]
    exact present

structure Spread (m m' : Manager layout) (target blocks : Nat) : Prop where
  kept : ∀ place, (m.memory.leaf place).isPresent = true → (m'.memory.leaf place).isPresent = true
  copied : ∀ block < blocks, ∀ index < bootstrapEntries,
    (m.memory.leaf (block, index)).isPresent = true →
      (m'.memory.leaf (target + block, index)).isPresent = true
  /-- A target that is reached as a source has a window to share by then. -/
  again : 0 < target → target < blocks → (m.memory.leaf (0, 0)).isPresent = true →
    (m'.memory.leaf (target + target, 0)).isPresent = true

theorem Spread.succ {m'' : Manager layout} {target blocks : Nat}
    (spread : m.Spread m' target blocks)
    (next : m'.RoundShared m'' blocks (target + blocks) bootstrapEntries) :
    m.Spread m'' target (blocks + 1) := by
  have copy {index : Nat} (bound : index < bootstrapEntries)
      (present : (m'.memory.leaf (blocks, index)).isPresent = true) :
      (m''.memory.leaf (target + blocks, index)).isPresent = true := by
    rw [next.leaf, if_pos ⟨rfl, bound⟩, Entry.isPresent_sharedIn]
    exact present
  refine ⟨fun place present => next.kept (spread.kept place present), ?_, ?_⟩
  · intro block below index bound present
    rcases Nat.lt_succ_iff_lt_or_eq.mp below with before | rfl
    · exact next.kept (spread.copied block before index bound present)
    · exact copy bound (spread.kept _ present)
  · intro positive below present
    rcases Nat.lt_succ_iff_lt_or_eq.mp below with before | rfl
    · exact next.kept (spread.again positive before present)
    · exact copy (by decide) (spread.copied 0 positive 0 (by decide) present)

/-- Only the window at address 0 has been copied, and only tables have been counted for it. -/
structure OnlyWindow (m m' : Manager layout) (target blocks : Nat) : Prop where
  link : ∀ block, ¬ (target ≤ block ∧ block < target + blocks) →
    m'.memory.link block = m.memory.link block
  leaf : ∀ place : Nat × Nat, m'.memory.leaf place =
    if target ≤ place.1 ∧ place.1 < target + blocks then
      if place.1 = target ∧ place.2 < bootstrapEntries then m.memory.leaf (0, place.2) else .empty
    else m.memory.leaf place
  counts : ∀ frame, m'.refCount? frame = m.refCount? frame ∨
    m.refCount? frame = some 0 ∧ m'.refCount? frame = some 1 ∧
      ∃ block, (target ≤ block ∧ block < target + blocks) ∧ (m'.memory.link block).PointsAt frame

section OnlyWindow

variable {m'' : Manager layout} {target blocks : Nat}

theorem RoundShared.link_of_ne {source entries block : Nat}
    (next : m'.RoundShared m'' source target entries) (apart : block ≠ target) :
    m''.memory.link block = m'.memory.link block := by
  rcases next.link with same | ⟨table, -, link⟩
  · rw [same]
  · rw [link, Function.update_of_ne apart]

variable (window : m.OnlyWindow m' target blocks)

include window

theorem OnlyWindow.leaf_source (below : blocks < target) (index : Nat) :
    m'.memory.leaf (blocks, index) = m.memory.leaf (blocks, index) := by
  rw [window.leaf, if_neg (by omega)]

variable (next : m'.RoundShared m'' blocks (target + blocks) bootstrapEntries)

include next

theorem OnlyWindow.leaf_succ (below : blocks < target)
    (reserved : ∀ index < bootstrapEntries,
      layout.isReserved (m.memory.leaf (blocks, index)).frame = true)
    (later : ∀ index < bootstrapEntries, blocks ≠ 0 → m.memory.leaf (blocks, index) = .empty)
    (place : Nat × Nat) : m''.memory.leaf place =
      if target ≤ place.1 ∧ place.1 < target + (blocks + 1) then
        if place.1 = target ∧ place.2 < bootstrapEntries then m.memory.leaf (0, place.2)
        else .empty
      else m.memory.leaf place := by
  obtain ⟨block, index⟩ := place
  have source := window.leaf_source below
  have unshared {index : Nat} (bound : index < bootstrapEntries) :
      (m.memory.leaf (blocks, index)).sharedIn layout = m.memory.leaf (blocks, index) :=
    if_pos (reserved index bound)
  rw [next.leaf]
  by_cases here : block = target + blocks
  · subst here
    rw [if_pos (show target ≤ target + blocks ∧ target + blocks < target + (blocks + 1) by omega)]
    by_cases bound : index < bootstrapEntries
    · rw [if_pos ⟨rfl, bound⟩, source, unshared bound]
      by_cases first : blocks = 0
      · rw [if_pos ⟨by omega, bound⟩, first]
      · rw [if_neg (by omega), later index bound first]
    · rw [if_neg (fun both => bound both.2), if_neg (fun both => bound both.2),
        if_neg (fun both => bound both.2)]
      exact PhysicalMemory.leaf_of_absent (target + blocks, index) next.absent
  · rw [if_neg (fun both => here both.1)]
    have covered : (target ≤ block ∧ block < target + (blocks + 1)) ↔
        (target ≤ block ∧ block < target + blocks) := by omega
    simp only [covered]
    by_cases parent : block = blocks ∧ index < bootstrapEntries
    · obtain ⟨rfl, bound⟩ := parent
      rw [if_pos ⟨rfl, bound⟩, source, unshared bound, if_neg (by omega)]
    · rw [if_neg parent]
      exact window.leaf (block, index)

theorem OnlyWindow.counts_succ (below : blocks < target)
    (reserved : ∀ index < bootstrapEntries,
      layout.isReserved (m.memory.leaf (blocks, index)).frame = true) (frame : Frame) :
    m''.refCount? frame = m.refCount? frame ∨
      m.refCount? frame = some 0 ∧ m''.refCount? frame = some 1 ∧
        ∃ block, (target ≤ block ∧ block < target + (blocks + 1)) ∧
          (m''.memory.link block).PointsAt frame := by
  have known : ∀ index < bootstrapEntries,
      layout.isReserved (m'.memory.leaf (blocks, index)).frame = true := by
    intro index bound
    rw [window.leaf_source below]
    exact reserved index bound
  rcases next.fresh known frame with same | ⟨free, once, points⟩
  · rcases window.counts frame with same' | ⟨free', once', block, covered, points⟩
    · exact Or.inl (same.trans same')
    · refine Or.inr ⟨free', same.trans once', block, by omega, ?_⟩
      rw [next.link_of_ne (by omega)]
      exact points
  · rcases window.counts frame with same' | ⟨-, once', -⟩
    · exact Or.inr ⟨same' ▸ free, once, target + blocks, by omega, points⟩
    · rw [once'] at free
      cases free

theorem OnlyWindow.succ (below : blocks < target)
    (reserved : ∀ index < bootstrapEntries,
      layout.isReserved (m.memory.leaf (blocks, index)).frame = true)
    (later : ∀ index < bootstrapEntries, blocks ≠ 0 → m.memory.leaf (blocks, index) = .empty) :
    m.OnlyWindow m'' target (blocks + 1) := by
  refine ⟨?_, window.leaf_succ next below reserved later, window.counts_succ next below reserved⟩
  intro block outside
  rw [next.link_of_ne (by omega), window.link block (by omega)]

end OnlyWindow

/-- The pool has only given tables for the target, the kernel's words are as they were, and the
target maps the frames of the window and nothing else. -/
structure WindowCopied (m m' : Manager layout) (target blocks : Nat) : Prop where
  counts : ∀ frame, m'.refCount? frame = m.refCount? frame ∨
    m.refCount? frame = some 0 ∧ m'.refCount? frame = some 1 ∧
      ∃ block, (target ≤ block ∧ block < target + blocks) ∧ (m'.memory.link block).PointsAt frame
  kernel : ∀ block < layout.kernelTables, m'.memory.link block = m.memory.link block ∧
    ∀ index, m'.memory.leaf (block, index) = m.memory.leaf (block, index)
  window : ∀ block < blocks, ∀ index frame,
    (m'.memory.leaf (target + block, index)).PointsAt frame ↔
      block = 0 ∧ index < bootstrapEntries ∧ frame = ⟨index⟩

theorem Sound.leaf_window (sound : m.Sound held) {index : Nat} (bound : index < bootstrapEntries) :
    m.memory.leaf (0, index) = Entry.new ⟨index⟩ .userWritable ∧
      (m.memory.leaf (0, index)).frame = ⟨index⟩ ∧ layout.isReserved ⟨index⟩ = true := by
  have low := layout.bootstrapEntries_le_firstPoolFrame
  have total := layout.firstPoolFrame_add_poolFrames
  have inside : 0 * entriesPerTable + index < layout.totalFrames := by omega
  have leaf := sound.leaf_identity (Nat.lt_trans bound (by decide)) inside
  rw [Nat.zero_mul, Nat.zero_add] at leaf
  refine ⟨leaf, ?_, isReserved_of_lt (Nat.lt_of_lt_of_le bound low)⟩
  rw [leaf]
  exact Entry.frame_new _ _ (Nat.lt_trans bound (by decide))

section Window

variable {target blocks : Nat}

theorem OnlyWindow.windowCopied (window : m.OnlyWindow m' target blocks) (sound : m.Sound held)
    (task : blocks ≠ 0 → layout.kernelTables ≤ target) : m.WindowCopied m' target blocks := by
  refine ⟨window.counts, ?_, ?_⟩
  · intro block kernel
    have outside : ¬ (target ≤ block ∧ block < target + blocks) := by
      rintro ⟨above, below⟩
      have := task (by omega)
      omega
    exact ⟨window.link block outside, fun index => (window.leaf _).trans (if_neg outside)⟩
  · intro block below index frame
    have covered : target ≤ target + block ∧ target + block < target + blocks := by omega
    rw [window.leaf, if_pos covered]
    by_cases first : block = 0 ∧ index < bootstrapEntries
    · obtain ⟨rfl, bound⟩ := first
      obtain ⟨leaf, leads, -⟩ := sound.leaf_window bound
      rw [if_pos ⟨rfl, bound⟩, Entry.PointsAt, leads, leaf, Entry.isPresent_new]
      simp [bound, Flags.userWritable, eq_comm]
    · rw [if_neg (by omega)]
      constructor
      · intro points
        cases points.1
      · exact fun all => absurd ⟨all.1, all.2.1⟩ first

theorem WindowCopied.only (copied : m.WindowCopied m' target blocks)
    (spread : m.Spread m' target blocks) (sound : m.Sound held)
    (task : blocks ≠ 0 → layout.kernelTables ≤ target) :
    blocks ≤ target ∧ ∀ block < blocks, block ≠ 0 → ∀ index < bootstrapEntries,
      (m.memory.leaf (block, index)).isPresent = false := by
  have outside {block index : Nat} (below : block < blocks)
      (present : (m'.memory.leaf (target + block, index)).isPresent = true) : block = 0 :=
    ((copied.window block below index _).mp ⟨present, rfl⟩).1
  constructor
  · by_contra reached
    have positive := layout.kernelTables_pos
    have above := task (by omega)
    obtain ⟨leaf, -, -⟩ := sound.leaf_window (show 0 < bootstrapEntries by decide)
    have again := spread.again (by omega) (by omega) (by rw [leaf]; exact Entry.isPresent_new _ _)
    have := outside (by omega) again
    omega
  · intro block below later index bound
    by_contra present
    rw [Bool.not_eq_false] at present
    exact later (outside below (spread.copied block below index bound present))

end Window

section Duplicate

variable {target : LinearAddr} {blocks : Nat} (sound : m.Sound held)
  (inside : target.dirIndex + blocks ≤ entriesPerDirectory)
  (run : shareBlocks origin target blocks m = .ok () m')

include sound inside run

theorem Sound.spread_of_shareBlocks : m.Spread m' target.dirIndex blocks := by
  apply sound.tabled.shareBlocks_ok inside (fun n m' => m.Spread m' target.dirIndex n) _ _ run
  · exact fun _ _ _ _ before shared => before.succ shared
  · refine ⟨fun _ => id, ?_, ?_⟩ <;> intros <;> omega

theorem Sound.onlyWindow_of_shareBlocks (before : blocks ≤ target.dirIndex)
    (later : ∀ block < blocks, block ≠ 0 → ∀ index < bootstrapEntries,
      (m.memory.leaf (block, index)).isPresent = false) :
    m.OnlyWindow m' target.dirIndex blocks := by
  apply sound.tabled.shareBlocks_ok inside (fun n m' => m.OnlyWindow m' target.dirIndex n) _ _ run
  · intro block below m₂ m₃ window shared
    have empty : ∀ index < bootstrapEntries, block ≠ 0 → m.memory.leaf (block, index) = .empty :=
      fun index bound first => sound.tabled.empty _ (later block below first index bound)
    refine window.succ shared (by omega) ?_ empty
    intro index bound
    by_cases first : block = 0
    · obtain ⟨-, leads, reserved⟩ := sound.leaf_window bound
      rw [first, leads]
      exact reserved
    · rw [empty index bound first]
      exact isReserved_of_lt layout.firstPoolFrame_pos
  · refine ⟨fun _ _ => rfl, ?_, fun _ => Or.inl rfl⟩
    intro place
    rw [if_neg (by omega)]

end Duplicate

theorem Sound.task_of_vacant (sound : m.Sound held) {target blocks : Nat}
    (vacant : ∀ block < blocks, (m.memory.link (target + block)).isPresent = false)
    (some : blocks ≠ 0) : layout.kernelTables ≤ target := by
  by_contra kernel
  have absent := vacant 0 (Nat.pos_of_ne_zero some)
  rw [Nat.add_zero, sound.present_of_kernel (Nat.lt_of_not_le kernel)] at absent
  cases absent

end Manager

open Manager

variable {layout : Layout} {m m' : Manager layout} {held : Finset Frame}

/-- A duplication from address 0 copies the window alone exactly when it stops before its own
target and the later blocks map nothing in their first 160 pages. -/
theorem Reachable.duplicate_origin_iff (reachable : Reachable layout m held)
    {target : LinearAddr} {size : Nat}
    (vacant : ∀ block < blocksSpanned size,
      (m.memory.link (target.dirIndex + block)).isPresent = false)
    (done : duplicate origin target size m = .ok () m') :
    m.WindowCopied m' target.dirIndex (blocksSpanned size) ↔
      blocksSpanned size ≤ target.dirIndex ∧
        ∀ block < blocksSpanned size, block ≠ 0 → ∀ index < bootstrapEntries,
          (m.memory.leaf (block, index)).isPresent = false := by
  have sound := reachable.sound
  have task := sound.task_of_vacant vacant
  obtain ⟨m₁, inside, run, rfl⟩ := exists_shareBlocks_of_duplicate done
  -- the flush at the end writes neither tables nor counts
  have flushed : m.WindowCopied m₁.flushed target.dirIndex (blocksSpanned size) ↔
      m.WindowCopied m₁ target.dirIndex (blocksSpanned size) :=
    ⟨fun copied => ⟨copied.counts, copied.kernel, copied.window⟩,
      fun copied => ⟨copied.counts, copied.kernel, copied.window⟩⟩
  rw [flushed]
  constructor
  · intro copied
    exact copied.only (sound.spread_of_shareBlocks inside run) sound task
  · rintro ⟨before, later⟩
    exact (sound.onlyWindow_of_shareBlocks inside run before later).windowCopied sound task

theorem exists_duplicate_origin :
    ∃ m', duplicate origin firstPage 1 (boot .tiny .empty) = .ok () m' ∧
      (m'.memory.page ⟨5⟩).slice 0 2 = [0, 0] ∧ (m'.memory.page pageDirectory).byte 20 = 0 := by
  obtain ⟨m', done, blank⟩ : ∃ m', duplicate origin firstPage 1 (boot .tiny .empty) = .ok () m' ∧
      ((m'.memory.page ⟨5⟩).slice 0 2, (m'.memory.page pageDirectory).byte 20) = ([0, 0], 0) :=
    Operation.exists_of_observed
      (fun m' => ((m'.memory.page ⟨5⟩).slice 0 2, (m'.memory.page pageDirectory).byte 20))
      (by decide +kernel)
  exact ⟨m', done, Prod.mk.inj blank⟩

/-- The kernel's first block is copied to the first of the tasks. -/
theorem duplicate_origin_firstPage :
    ∃ m', duplicate origin firstPage 1 (boot .tiny .empty) = .ok () m' ∧
      (boot .tiny .empty).WindowCopied m' 1 1 := by
  obtain ⟨m', done, -⟩ := exists_duplicate_origin
  have reachable := @Reachable.boot .tiny .empty
  refine ⟨m', done, (Reachable.duplicate_origin_iff reachable (by decide +kernel) done).mpr ?_⟩
  have only : blocksSpanned 1 = 1 := by decide
  exact ⟨by decide, fun block below later => absurd below (by omega)⟩

/-- Two blocks from address 0 reach the page of a task, which gets a second owner. -/
theorem duplicate_origin_shares_task_page :
    ∃ m', duplicate origin (LinearAddr.ofNat 8388608) 8388608 filled = .ok () m' ∧
      (∀ block < 2, (filled.memory.link (2 + block)).isPresent = false) ∧
      filled.refCount? ⟨163⟩ = some 1 ∧ m'.refCount? ⟨163⟩ = some 2 ∧
      ¬ filled.WindowCopied m' 2 2 := by
  obtain ⟨m', done, shared⟩ : ∃ m', duplicate origin (LinearAddr.ofNat 8388608) 8388608 filled =
      .ok () m' ∧ m'.refCount? ⟨163⟩ = some 2 :=
    Operation.exists_of_observed (·.refCount? ⟨163⟩) (by decide +kernel)
  have once : filled.refCount? ⟨163⟩ = some 1 := by decide +kernel
  refine ⟨m', done, by decide +kernel, once, shared, ?_⟩
  intro copied
  rcases copied.counts ⟨163⟩ with same | ⟨free, -⟩
  · rw [shared, once] at same
    cases same
  · rw [once] at free
    cases free

end PagedMemory

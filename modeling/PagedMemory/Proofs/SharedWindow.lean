import PagedMemory.Proofs.BootstrapWindow

/-!
What a parent at linear address 0 and the copy of its window have in common. Both map the reserved
frames of the window to themselves, writable, and so no fault stands between a store on one side and
the bytes that the other side reads. The words of the directory and of the kernel's tables are among
them: `core` is physical memory as the window shows it.
-/

namespace PagedMemory

def windowBytes : Nat := bootstrapEntries * pageSize

theorem windowBytes_eq : windowBytes = 655360 := rfl

section Window

variable {start : LinearAddr} (aligned : start.isBlockAligned = true) {i : Nat}
  (inside : i < windowBytes)

include aligned inside

theorem LinearAddr.toNat_window : (start.advance i).toNat = start.toNat + i := by
  have below := start.toNat_lt
  have whole : start.toNat % blockSize = 0 := beq_iff_eq.mp aligned
  apply toNat_advance_of_lt
  simp only [windowBytes_eq, blockSize, addressSpace] at *
  omega

theorem LinearAddr.place_window : (start.advance i).place = (start.dirIndex, i / pageSize) := by
  have whole : start.toNat % blockSize = 0 := beq_iff_eq.mp aligned
  simp only [place, dirIndex, tableIndex, toNat_window aligned inside, Prod.mk.injEq]
  simp only [windowBytes_eq, blockSize, pageSize, entriesPerTable] at *
  omega

theorem LinearAddr.pageOffset_window : (start.advance i).pageOffset = i % pageSize := by
  have whole : start.toNat % blockSize = 0 := beq_iff_eq.mp aligned
  simp only [pageOffset, toNat_window aligned inside]
  simp only [blockSize, pageSize] at *
  omega

end Window

namespace Manager

variable {layout : Layout} {m m' : Manager layout} {held : Finset Frame}

open Operation

theorem origin_aligned : origin.isBlockAligned = true := by decide

theorem toNat_origin_advance {i : Nat} (inside : i < windowBytes) :
    (origin.advance i).toNat = i := by
  rw [LinearAddr.toNat_window origin_aligned inside]
  exact Nat.zero_add i

def core (m : Manager layout) : Contents := fun addr =>
  (m.memory.page ⟨addr.toNat / pageSize⟩).byte addr.pageOffset

/-- `table` makes the window visible at `block`: its first leaves lead to the first frames, which
can be written through them. -/
structure WindowOpen (m : Manager layout) (block : Nat) (table : Frame) : Prop where
  link : (m.memory.link block).PointsAt table
  inside : table.number < layout.totalFrames
  leaf : ∀ index < bootstrapEntries,
    m.memory.leaf (block, index) = Entry.new ⟨index⟩ .userWritable

theorem frame_window_inside (layout : Layout) {i : Nat} (inside : i < windowBytes) :
    i / pageSize < bootstrapEntries ∧ i / pageSize < layout.totalFrames := by
  have low := layout.bootstrapEntries_le_firstPoolFrame
  have total := layout.firstPoolFrame_add_poolFrames
  simp only [windowBytes, pageSize] at *
  omega

theorem WindowOpen.backingFrame_eq {start : LinearAddr} {table : Frame}
    (opened : m.WindowOpen start.dirIndex table) (aligned : start.isBlockAligned = true) {i : Nat}
    (inside : i < windowBytes) (mode : AccessMode) :
    backingFrame (start.advance i) mode m = .ok ⟨i / pageSize⟩ m := by
  have place := LinearAddr.place_window aligned inside
  have block : (start.advance i).dirIndex = start.dirIndex := congrArg Prod.fst place
  have bound := (frame_window_inside layout inside).1
  have leaf := opened.leaf _ bound
  have present : (Entry.new ⟨i / pageSize⟩ .userWritable).isPresent = true :=
    Entry.isPresent_new _ _
  have found : m.walk (start.advance i) = .ok (some (Entry.new ⟨i / pageSize⟩ .userWritable)) := by
    rw [walk_of_inside, place, leaf, if_pos present]
    rw [block, opened.link.2]
    exact fun _ => opened.inside
  rw [backingFrame_of_writable found (Entry.isWritable_new _ _) mode,
    Entry.frame_new _ _ (Nat.lt_trans bound (by decide))]

theorem readBytes_core {i length : Nat} (inside : i < windowBytes)
    (page : i % pageSize + length ≤ pageSize) :
    m.memory.readBytes ⟨i / pageSize⟩ (i % pageSize) length =
      .ok (m.core.fetch (origin.advance i) length) := by
  have offset := LinearAddr.pageOffset_window origin_aligned inside
  rw [← offset] at page ⊢
  rw [PhysicalMemory.readBytes_eq _ (frame_window_inside layout inside).2, slice_eq_fetch page]
  intro other same
  rw [core, same, toNat_origin_advance inside]

theorem WindowOpen.readUser_eq {start : LinearAddr} {table : Frame}
    (opened : m.WindowOpen start.dirIndex table) (aligned : start.isBlockAligned = true)
    {i length : Nat} (inside : i + length ≤ windowBytes) :
    readUser (start.advance i) length m = .ok (m.core.fetch (origin.advance i) length) m := by
  induction length using Nat.strongRecOn generalizing i with
  | ind length ih =>
    by_cases empty : length = 0
    · subst empty
      rw [readUser_zero]
      rfl
    · have here : i < windowBytes := by omega
      have frame := opened.backingFrame_eq aligned here .read
      have positive := firstChunk_pos (start.advance i) empty
      have part := firstChunk_le (start.advance i) length
      have page := pageOffset_add_firstChunk_le (start.advance i) length
      rw [readUser_of_ne_zero _ empty]
      generalize firstChunk (start.advance i) length = chunk at *
      rw [LinearAddr.pageOffset_window aligned here] at page ⊢
      have bytes : m.memory.readBytes ⟨i / pageSize⟩ (i % pageSize) chunk = _ :=
        readBytes_core here page
      have rest := ih (length - chunk) (by omega) (i := i + chunk) (by omega)
      have whole : m.core.fetch (origin.advance i) length =
          m.core.fetch (origin.advance i) chunk ++
            m.core.fetch (origin.advance (i + chunk)) (length - chunk) := by
        rw [← LinearAddr.advance_advance, ← Contents.fetch_add]
        congr 1
        omega
      rw [← LinearAddr.advance_advance] at rest
      rw [bind_ok frame, bind_ok (orFatal_ok (ask_ok bytes)), bind_ok rest, whole]
      rfl

/-- `data` is in physical memory from byte `i` on, and nothing else has changed. -/
structure WrittenThrough (m m' : Manager layout) (i : Nat) (data : List UInt8) : Prop where
  rest : m' = { m with memory := m'.memory }
  core : m'.core = m.core.store (origin.advance i) data

theorem writtenThrough_nil (m : Manager layout) (i : Nat) : m.WrittenThrough m i [] :=
  ⟨rfl, (Contents.store_nil _ _).symm⟩

theorem WrittenThrough.append {m'' : Manager layout} {i : Nat} {data more : List UInt8}
    (first : m.WrittenThrough m' i data) (second : m'.WrittenThrough m'' (i + data.length) more)
    (inside : i + data.length + more.length ≤ windowBytes) :
    m.WrittenThrough m'' i (data ++ more) := by
  refine ⟨?_, ?_⟩
  · rw [second.rest, first.rest]
  · rw [second.core, first.core, ← LinearAddr.advance_advance]
    apply Contents.store_append
    intro some
    have positive := List.length_pos_iff.mpr some
    rw [toNat_origin_advance (show i < windowBytes by omega)]
    simp only [windowBytes_eq, addressSpace] at *
    omega

theorem WindowOpen.modifyPage {block : Nat} {table frame : Frame} {change : Page → Page}
    (opened : m.WindowOpen block table) (directory : frame ≠ pageDirectory)
    (apart : frame ≠ table) :
    WindowOpen { m with memory := m.memory.modifyPage frame change } block table := by
  have link : (m.memory.modifyPage frame change).link = m.memory.link :=
    PhysicalMemory.link_modifyPage directory change
  have word (index : Nat) : (m.memory.modifyPage frame change).leaf (block, index) =
      m.memory.leaf (block, index) := by
    rw [PhysicalMemory.leaf, PhysicalMemory.leaf, link, opened.link.2,
      PhysicalMemory.page_modifyPage_of_ne apart]
  refine ⟨?_, opened.inside, ?_⟩
  · rw [link]
    exact opened.link
  · intro index bound
    rw [word]
    exact opened.leaf index bound

theorem writtenThrough_modifyPage (m : Manager layout) {i : Nat} {data : List UInt8}
    (inside : i < windowBytes) (page : i % pageSize + data.length ≤ pageSize) :
    m.WrittenThrough { m with
      memory := m.memory.modifyPage ⟨i / pageSize⟩ (·.store (i % pageSize) data) } i data := by
  have bound := (frame_window_inside layout inside).2
  have offset := LinearAddr.pageOffset_window origin_aligned inside
  have number := toNat_origin_advance inside
  refine ⟨rfl, ?_⟩
  funext other
  rw [core, ← offset]
  by_cases same : other.toNat / pageSize = (origin.advance i).toNat / pageSize
  · have before : m.core other = (m.memory.page ⟨i / pageSize⟩).byte other.pageOffset := by
      rw [core, same, number]
    rw [same, number, PhysicalMemory.page_modifyPage_self bound]
    exact byte_store_eq same before
  · have apart : (⟨i / pageSize⟩ : Frame) ≠ ⟨other.toNat / pageSize⟩ := by
      intro equal
      rw [number] at same
      exact same (congrArg Frame.number equal).symm
    rw [PhysicalMemory.page_modifyPage_of_ne apart, store_elsewhere _ same (offset ▸ page)]
    rfl

section Store

variable {start : LinearAddr} {table : Frame} (aligned : start.isBlockAligned = true) {i : Nat}
  {data : List UInt8} (inside : i + data.length ≤ windowBytes)

include aligned inside

theorem WindowOpen.exists_firstPage (opened : m.WindowOpen start.dirIndex table)
    (some : data.length ≠ 0) :
    ∃ m', m.WrittenThrough m' i (data.take (pageSize - i % pageSize)) ∧
      writeUser (start.advance i) data m =
        writeUser (start.advance (i + (pageSize - i % pageSize)))
          (data.drop (pageSize - i % pageSize)) m' ∧
      ∀ {block table}, pageSize ≤ i → table.number ≠ i / pageSize → m.WindowOpen block table →
        m'.WindowOpen block table := by
  have here : i < windowBytes := by omega
  have below : i % pageSize < pageSize := Nat.mod_lt _ (by decide)
  have page : i % pageSize + (data.take (pageSize - i % pageSize)).length ≤ pageSize := by
    rw [List.length_take]
    omega
  have run := storeUser_firstPage (opened.backingFrame_eq aligned here .userWrite)
    (frame_window_inside layout here).2 some
  rw [LinearAddr.pageOffset_window aligned here, LinearAddr.advance_advance] at run
  refine ⟨_, m.writtenThrough_modifyPage here page, run, ?_⟩
  intro block table later apart shown
  apply shown.modifyPage
  · intro first
    have zero := congrArg Frame.number first
    simp only [pageDirectory, pageSize] at *
    omega
  · exact fun same => apart (congrArg Frame.number same).symm

theorem WindowOpen.exists_writeUser (opened : m.WindowOpen start.dirIndex table)
    (outside : bootstrapEntries ≤ table.number) (later : pageSize ≤ i) :
    ∃ m', writeUser (start.advance i) data m = .ok () m' ∧ m.WrittenThrough m' i data ∧
      ∀ {block table}, table.number < i / pageSize ∨ bootstrapEntries ≤ table.number →
        m.WindowOpen block table → m'.WindowOpen block table := by
  induction length : data.length using Nat.strongRecOn generalizing i data m with
  | ind length' ih =>
    by_cases empty : data.length = 0
    · obtain rfl := List.length_eq_zero_iff.mp empty
      refine ⟨m, ?_, writtenThrough_nil m i, fun _ => id⟩
      rw [writeUser, storeUser_nil]
      rfl
    · have below : i % pageSize < pageSize := Nat.mod_lt _ (by decide)
      have bound := (frame_window_inside layout (show i < windowBytes by omega)).1
      obtain ⟨m₁, first, run, kept⟩ := opened.exists_firstPage aligned inside empty
      have left : (data.drop (pageSize - i % pageSize)).length =
          data.length - (pageSize - i % pageSize) := List.length_drop
      -- a page that is not the directory leaves the window open, so the rest goes through it too
      by_cases more : pageSize - i % pageSize ≤ data.length
      · have opened₁ := kept later (by omega) opened
        have inside₁ : i + (pageSize - i % pageSize) +
            (data.drop (pageSize - i % pageSize)).length ≤ windowBytes := by omega
        obtain ⟨m₂, rest, second, kept'⟩ := ih _ (by omega) inside₁ opened₁ (by omega) rfl
        have taken : (data.take (pageSize - i % pageSize)).length = pageSize - i % pageSize :=
          List.length_take_of_le more
        refine ⟨m₂, run.trans rest, ?_, ?_⟩
        · rw [← List.take_append_drop (pageSize - i % pageSize) data]
          apply first.append
          · rw [taken]
            exact second
          · omega
        · intro block table apart shown
          have next : i / pageSize ≤ (i + (pageSize - i % pageSize)) / pageSize :=
            Nat.div_le_div_right (Nat.le_add_right _ _)
          exact kept' (apart.imp_left fun before => by omega) (kept later (by omega) shown)
      · rw [List.take_of_length_le (by omega)] at first
        rw [List.drop_of_length_le (by omega)] at run
        have done :
            writeUser (start.advance (i + (pageSize - i % pageSize))) [] m₁ = .ok () m₁ := by
          rw [writeUser, storeUser_nil]
          rfl
        exact ⟨m₁, run.trans done, first, fun apart => kept later (by omega)⟩

end Store

/-- The window is visible at address 0 and at `block`, through a table that lies outside it. -/
structure SharesWindow (m : Manager layout) (block : Nat) : Prop where
  parent : m.WindowOpen 0 (kernelTable 0)
  child : ∃ table, layout.IsPooled table ∧ m.WindowOpen block table

theorem Sound.sharesWindow_of_duplicate (sound : m.Sound held) {target : LinearAddr} {size : Nat}
    (nonempty : 0 < size) (small : size ≤ windowBytes)
    (done : duplicate origin target size m = .ok () m') :
    target.isBlockAligned = true ∧ m'.SharesWindow target.dirIndex := by
  have only : blocksSpanned size = 1 := by
    simp only [blocksSpanned_eq, windowBytes_eq] at *
    omega
  have first : origin.dirIndex = 0 := by decide
  have entries : sharedEntries origin = bootstrapEntries := by decide
  obtain ⟨m₂, inside, run, rfl⟩ := exists_shareBlocks_of_duplicate done
  rw [only, shareBlocks_one, entries, first] at run
  have kernel := layout.kernelTables_pos
  have linked := sound.present_of_kernel kernel
  have absent := (exists_of_duplicateBlock run).1
  obtain ⟨table, m₁, pooled, -, link₁, leaf₁, -, shared⟩ :=
    sound.tabled.exists_table_of_duplicateBlock target.dirIndex_lt (by decide) linked run
  have apart : 0 ≠ target.dirIndex := by
    intro same
    rw [← same, linked] at absent
    cases absent
  have window {index : Nat} (bound : index < bootstrapEntries) :
      (m₁.memory.leaf (0, index)).sharedIn layout = Entry.new ⟨index⟩ .userWritable := by
    obtain ⟨leaf, leads, reserved⟩ := sound.leaf_window bound
    rw [leaf₁, Entry.sharedIn, leads, if_pos reserved, leaf]
  refine ⟨(checkDuplicate_of_duplicate done).1.2, ⟨?_, kernelTable_inside kernel, ?_⟩, table,
    pooled, ⟨?_, pooled.2, ?_⟩⟩
  · change (m₂.memory.link 0).PointsAt _
    rw [shared.link, link₁, Function.update_of_ne apart]
    exact ⟨linked, sound.frame_link_of_kernel kernel⟩
  · intro index bound
    change m₂.memory.leaf (0, index) = _
    rw [shared.leaf, if_neg (fun both => apart both.1), if_pos ⟨rfl, bound⟩, window bound]
  · change (m₂.memory.link target.dirIndex).PointsAt _
    rw [shared.link, link₁, Function.update_self]
    exact ⟨Entry.isPresent_new _ _, Entry.frame_new_of_lt pooled.2 _⟩
  · intro index bound
    change m₂.memory.leaf (target.dirIndex, index) = _
    rw [shared.leaf, if_pos ⟨rfl, bound⟩, window bound]

namespace SharesWindow

variable {target : LinearAddr} (shared : m.SharesWindow target.dirIndex) {i : Nat}

include shared

theorem read_eq (aligned : target.isBlockAligned = true) {length : Nat}
    (inside : i + length ≤ windowBytes) :
    readUser (origin.advance i) length m = .ok (m.core.fetch (origin.advance i) length) m ∧
      readUser (target.advance i) length m = .ok (m.core.fetch (origin.advance i) length) m := by
  obtain ⟨table, -, child⟩ := shared.child
  have first : origin.dirIndex = 0 := by decide
  have parent := shared.parent
  rw [← first] at parent
  exact ⟨parent.readUser_eq origin_aligned inside, child.readUser_eq aligned inside⟩

variable (aligned : target.isBlockAligned = true) {data : List UInt8}
  (inside : i + data.length ≤ windowBytes)

include aligned inside

theorem exists_writeDirectory (directory : i < pageSize) :
    ∃ m', m.WrittenThrough m' i (data.take (pageSize - i)) ∧
      writeUser (target.advance i) data m =
        writeUser (target.advance pageSize) (data.drop (pageSize - i)) m' := by
  by_cases empty : data.length = 0
  · obtain rfl := List.length_eq_zero_iff.mp empty
    rw [List.take_nil, List.drop_nil, writeUser, writeUser, storeUser_nil, storeUser_nil]
    exact ⟨m, writtenThrough_nil m i, rfl⟩
  · obtain ⟨table, -, child⟩ := shared.child
    obtain ⟨m', written, run, -⟩ := child.exists_firstPage aligned inside empty
    rw [Nat.mod_eq_of_lt directory] at written run
    rw [Nat.add_sub_cancel' (Nat.le_of_lt directory)] at run
    exact ⟨m', written, run⟩

theorem exists_write (later : pageSize ≤ i) :
    ∃ m', writeUser (target.advance i) data m = .ok () m' ∧ m.WrittenThrough m' i data ∧
      (2 * pageSize ≤ i → m'.SharesWindow target.dirIndex ∧
        readUser (origin.advance i) data.length m' = .ok data m') := by
  obtain ⟨table, pooled, child⟩ := shared.child
  have outside : bootstrapEntries ≤ table.number :=
    Nat.le_trans layout.bootstrapEntries_le_firstPoolFrame pooled.1
  obtain ⟨m', run, written, kept⟩ := child.exists_writeUser aligned inside outside later
  refine ⟨m', run, written, ?_⟩
  intro further
  have above : (kernelTable 0).number < i / pageSize := by
    simp only [kernelTable, pageSize] at *
    omega
  have shared' : m'.SharesWindow target.dirIndex :=
    ⟨kept (Or.inl above) shared.parent, table, pooled, kept (Or.inr outside) child⟩
  refine ⟨shared', ?_⟩
  have zero : origin.toNat = 0 := by decide
  rw [(shared'.read_eq aligned inside).1, written.core, Contents.fetch_store]
  rw [LinearAddr.toNat_advance, zero]
  simp only [windowBytes_eq, addressSpace] at *
  omega

end SharesWindow

end Manager

open Manager

variable {layout : Layout} {m m' : Manager layout} {held : Finset Frame}

/-- The first copy of the window is not isolated. As long as the window is visible on both sides,
which it is when the duplication ends, both sides read the same bytes, and what the child stores is
there for the parent. That goes for the bytes of the directory too, after which the rest of the
store runs in the space that they describe; a store behind the kernel's first table leaves the
window visible. -/
theorem Reachable.duplicate_origin_shares (reachable : Reachable layout m held)
    {target : LinearAddr} {size : Nat} (nonempty : 0 < size) (small : size ≤ windowBytes)
    (done : duplicate origin target size m = .ok () m') :
    m'.SharesWindow target.dirIndex ∧
      ∀ m₁ : Manager layout, m₁.SharesWindow target.dirIndex →
        (∀ i length, i + length ≤ windowBytes →
          readUser (origin.advance i) length m₁ =
              .ok (m₁.core.fetch (origin.advance i) length) m₁ ∧
            readUser (target.advance i) length m₁ =
              .ok (m₁.core.fetch (origin.advance i) length) m₁) ∧
        ∀ i data, i + data.length ≤ windowBytes →
          (i < pageSize → ∃ m₂, m₁.WrittenThrough m₂ i (data.take (pageSize - i)) ∧
            writeUser (target.advance i) data m₁ =
              writeUser (target.advance pageSize) (data.drop (pageSize - i)) m₂) ∧
          (pageSize ≤ i → ∃ m₂, writeUser (target.advance i) data m₁ = .ok () m₂ ∧
            m₁.WrittenThrough m₂ i data ∧
            (2 * pageSize ≤ i → m₂.SharesWindow target.dirIndex ∧
              readUser (origin.advance i) data.length m₂ = .ok data m₂)) := by
  obtain ⟨aligned, shared⟩ := reachable.sound.sharesWindow_of_duplicate nonempty small done
  refine ⟨shared, ?_⟩
  intro m₁ shared₁
  refine ⟨fun i length inside => shared₁.read_eq aligned inside, ?_⟩
  intro i data inside
  exact ⟨shared₁.exists_writeDirectory aligned inside, shared₁.exists_write aligned inside⟩

theorem exists_duplicate_window :
    ∃ m', duplicate origin firstPage windowBytes (boot .tiny .empty) = .ok () m' ∧
      m'.core.fetch (origin.advance 20480) 2 = [0, 0] ∧
      (m'.memory.page pageDirectory).byte 20 = 0 := by
  obtain ⟨m', done, blank, word⟩ := exists_duplicate_origin
  have only : blocksSpanned windowBytes = blocksSpanned 1 := by decide
  have bytes := @readBytes_core .tiny m' 20480 2 (by decide) (by decide)
  rw [PhysicalMemory.readBytes_eq _ (by decide)] at bytes
  refine ⟨m', ?_, (Except.ok.inj bytes).symm.trans blank, word⟩
  rw [duplicate_congr only]
  exact done

theorem duplicate_origin_shares_firstPage :
    ∃ m' m₂, duplicate origin firstPage windowBytes (boot .tiny .empty) = .ok () m' ∧
      writeUser (firstPage.advance 20480) [1, 2] m' = .ok () m₂ ∧
      readUser (origin.advance 20480) 2 m₂ = .ok [1, 2] m₂ := by
  obtain ⟨m', done, -⟩ := exists_duplicate_window
  obtain ⟨shared, all⟩ :=
    (Reachable.boot .empty).duplicate_origin_shares (by decide) (Nat.le_refl _) done
  obtain ⟨m₂, run, -, same⟩ := ((all m' shared).2 20480 [1, 2] (by decide)).2 (by decide)
  exact ⟨m', m₂, done, run, (same (by decide)).2⟩

/-- A store of the child changes what the parent reads, and another one the parent's directory. -/
theorem duplicate_origin_not_isolated :
    Reachable .tiny (boot .tiny .empty) ∅ ∧ firstPage.isBlockAligned = true ∧
      ((boot .tiny .empty).memory.link firstPage.dirIndex).isPresent = false ∧
      ∃ m' m₂ m₃, duplicate origin firstPage windowBytes (boot .tiny .empty) = .ok () m' ∧
        readUser (origin.advance 20480) 2 m' = .ok [0, 0] m' ∧
        writeUser (firstPage.advance 20480) [1, 2] m' = .ok () m₂ ∧
        readUser (origin.advance 20480) 2 m₂ = .ok [1, 2] m₂ ∧
        writeUser (firstPage.advance 20) [1] m' = .ok () m₃ ∧
        m₃.memory.page pageDirectory ≠ m'.memory.page pageDirectory := by
  obtain ⟨m', done, blank, blank'⟩ := exists_duplicate_window
  have sound := sound_boot .tiny .empty
  obtain ⟨aligned, shared⟩ := sound.sharesWindow_of_duplicate (by decide) (Nat.le_refl _) done
  have fits : 20480 + ([1, 2] : List UInt8).length ≤ windowBytes := by decide
  have fits' : 20 + ([1] : List UInt8).length ≤ windowBytes := by decide
  obtain ⟨m₂, run, -, same⟩ := shared.exists_write aligned fits (by decide)
  obtain ⟨m₃, written, run'⟩ := shared.exists_writeDirectory aligned fits' (by decide)
  refine ⟨Reachable.boot .empty, aligned, by decide +kernel, m', m₂, m₃, done, ?_, run,
    (same (by decide)).2, ?_, ?_⟩
  · rw [(shared.read_eq aligned (by decide)).1, blank]
  · have rest : List.drop (pageSize - 20) ([1] : List UInt8) = [] := by decide
    rw [run', rest, writeUser, storeUser_nil]
    rfl
  · intro unchanged
    have frame : (⟨(origin.advance 20).toNat / pageSize⟩ : Frame) = pageDirectory := by decide
    have offset : (origin.advance 20).pageOffset = 20 := by decide
    have byte := congrFun written.core (origin.advance 20)
    rw [Contents.store, dif_pos ⟨Nat.le_refl _, by decide⟩, core, frame, offset, unchanged,
      blank'] at byte
    exact absurd byte (by decide)

end PagedMemory

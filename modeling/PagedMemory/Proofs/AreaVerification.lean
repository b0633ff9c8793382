import PagedMemory.Proofs.FaultOutcomes

/-!
Verifying an area. The walk goes up through the pages of the area and gives each page that is mapped
a frame of its own; pages that are absent stay so. Only an empty pool stops it, and what it has done
below the page where it stops is what it would have done for an area that ends there.
-/

namespace PagedMemory

namespace Manager

variable {layout : Layout} {m m' m₁ m₂ : Manager layout} {held : Finset Frame}

open Operation

theorem areaPages_increasing (addr : LinearAddr) (size : Nat) :
    (areaPages addr size).Pairwise fun page next => page.toNat < next.toNat := by
  rw [areaPages, List.pairwise_map]
  refine List.Pairwise.imp_of_mem ?_ (List.pairwise_lt_range' _ (by decide))
  intro start next member member' below
  rw [(toNat_ofNat_of_mem_range' member).1, (toNat_ofNat_of_mem_range' member').1]
  exact below

theorem mem_before_iff {addr : LinearAddr} {size : Nat} {before after : List LinearAddr}
    {stop : LinearAddr} (split : areaPages addr size = before ++ stop :: after)
    (page : LinearAddr) :
    page ∈ before ↔ InArea addr size page ∧ page.toNat < stop.toNat := by
  have increasing := areaPages_increasing addr size
  rw [split, List.pairwise_append, List.pairwise_cons] at increasing
  obtain ⟨-, ⟨above, -⟩, below⟩ := increasing
  rw [← mem_areaPages, split, List.mem_append, List.mem_cons]
  constructor
  · exact fun member => ⟨Or.inl member, below page member stop List.mem_cons_self⟩
  · rintro ⟨member | rfl | member, less⟩
    · exact member
    · exact absurd less (Nat.lt_irrefl _)
    · exact absurd less (Nat.lt_asymm (above page member))

/-- The pages of a list that are mapped can be written to now; nothing else has changed, and tasks
find the same bytes. -/
structure Secured (m m' : Manager layout) (held : Finset Frame) (pages : List LinearAddr) :
    Prop where
  sound : m'.Sound held
  writable : ∀ page ∈ pages, (m.memory.leaf page.place).isPresent = true → m'.Writable page.place
  absent : ∀ page ∈ pages, (m.memory.leaf page.place).isPresent = false →
    m'.memory.leaf page.place = m.memory.leaf page.place
  link : m'.memory.link = m.memory.link
  leaf : ∀ place, (∀ page ∈ pages, page.place ≠ place) →
    m'.memory.leaf place = m.memory.leaf place
  seen : ∀ place ∈ layout.taskPlaces, m'.memory.seen place = m.memory.seen place

namespace Secured

theorem nil (sound : m.Sound held) (memory : m'.memory = m.memory) (pool : m'.pool = m.pool) :
    Secured m m' held [] := by
  refine ⟨sound.of_same memory pool, nofun, nofun, ?_, ?_, ?_⟩
  · rw [memory]
  · intro place _
    rw [memory]
  · intro place _
    rw [memory]

theorem of_guarded (sound : m.Sound held) {page : LinearAddr} (guarded : m.Guarded page.place) :
    Secured m m held [page] := by
  refine ⟨sound, ?_, fun _ _ _ => rfl, rfl, fun _ _ => rfl, fun _ _ => rfl⟩
  intro other member present
  obtain rfl := List.mem_singleton.mp member
  exact ⟨present, guarded present⟩

theorem of_exclusive (sound : m.Sound held) {page : LinearAddr} {resolution : Resolution}
    (ends : Exclusive m m' held page.place resolution) (alive : resolution ≠ .killed)
    (mapped : (m.memory.leaf page.place).isPresent = true) : Secured m m' held [page] := by
  have opened := ends.opened alive
  obtain ⟨link, leaf, seen⟩ := ends.frame
  refine ⟨ends.sound sound, ?_, ?_, link, ?_, seen⟩
  · intro other member _
    obtain rfl := List.mem_singleton.mp member
    exact ⟨opened.present, opened.writable⟩
  · intro other member absent
    obtain rfl := List.mem_singleton.mp member
    rw [mapped] at absent
    cases absent
  · intro place outside
    exact leaf place (outside page (List.mem_singleton_self page)).symm

theorem present {pages : List LinearAddr} (secured : Secured m m' held pages)
    {place : Nat × Nat} (mapped : (m.memory.leaf place).isPresent = true) :
    (m'.memory.leaf place).isPresent = true := by
  by_cases listed : ∃ page ∈ pages, page.place = place
  · obtain ⟨page, member, rfl⟩ := listed
    exact (secured.writable page member mapped).1
  · rw [secured.leaf place fun page member same => listed ⟨page, member, same⟩]
    exact mapped

theorem keeps_writable {pages : List LinearAddr} (secured : Secured m m' held pages)
    {place : Nat × Nat} (writable : m.Writable place) : m'.Writable place := by
  by_cases listed : ∃ page ∈ pages, page.place = place
  · obtain ⟨page, member, rfl⟩ := listed
    exact secured.writable page member writable.1
  · rw [Writable, secured.leaf place fun page member same => listed ⟨page, member, same⟩]
    exact writable

theorem keeps_absent {pages : List LinearAddr} (secured : Secured m m' held pages)
    {place : Nat × Nat} (absent : (m.memory.leaf place).isPresent = false) :
    m'.memory.leaf place = m.memory.leaf place := by
  by_cases listed : ∃ page ∈ pages, page.place = place
  · obtain ⟨page, member, rfl⟩ := listed
    exact secured.absent page member absent
  · exact secured.leaf place fun page member same => listed ⟨page, member, same⟩

theorem cons {page : LinearAddr} {pages : List LinearAddr} (first : Secured m m₁ held [page])
    (rest : Secured m₁ m₂ held pages) : Secured m m₂ held (page :: pages) := by
  refine ⟨rest.sound, ?_, ?_, rest.link.trans first.link, ?_, ?_⟩
  · intro other member mapped
    rcases List.mem_cons.mp member with rfl | later
    · exact rest.keeps_writable (first.writable other (List.mem_singleton_self other) mapped)
    · exact rest.writable other later (first.present mapped)
  · intro other _ absent
    have kept := first.keeps_absent absent
    rw [← kept] at absent
    exact (rest.keeps_absent absent).trans kept
  · intro place outside
    have before := first.leaf place fun other member =>
      outside other (List.mem_cons.mpr (Or.inl (List.mem_singleton.mp member)))
    exact (rest.leaf place fun other member => outside other (List.mem_cons_of_mem _ member)).trans
      before
  · intro place inside
    rw [rest.seen place inside, first.seen place inside]

end Secured

structure Stuck (m : Manager layout) (place : Nat × Nat) : Prop where
  mapped : (m.memory.leaf place).isPresent = true
  shared : m.pool.count (m.memory.leaf place).frame ≠ 1
  full : m.pool.freeCount = 0

theorem Sound.verifyPage_ends (sound : m.Sound held) {page : LinearAddr}
    (task : layout.kernelTables ≤ page.dirIndex) :
    (∃ m', verifyPage page m = .ok () m' ∧ Secured m m' held [page]) ∨
    ∃ m', verifyPage page m = .error .killed m' ∧ Secured m m' held [] ∧ m'.Stuck page.place := by
  rcases sound.verifyWrite_ends task with ⟨guarded, run⟩ | ⟨mapped, resolution, m', run, ends⟩
  · exact Or.inl ⟨m, bind_ok (orFatal_ok run), .of_guarded sound guarded⟩
  · cases ends with
    | restored ends =>
        exact Or.inl ⟨m', bind_ok (orFatal_ok run),
          .of_exclusive sound (.restored ends) nofun mapped⟩
    | copied ends =>
        exact Or.inl ⟨m', bind_ok (orFatal_ok run),
          .of_exclusive sound (.copied ends) nofun mapped⟩
    | killed shared full memory pool =>
        refine Or.inr ⟨m', bind_ok (orFatal_ok run), .nil sound memory pool, ?_⟩
        rw [← memory] at mapped shared
        rw [← pool] at shared full
        exact ⟨mapped, shared, FramePool.highestFree_eq_none_iff.mp full⟩

theorem Sound.verifyPages_ends (sound : m.Sound held) {pages : List LinearAddr}
    (task : ∀ page ∈ pages, layout.kernelTables ≤ page.dirIndex) :
    (∃ m', pages.forM verifyPage m = .ok () m' ∧ Secured m m' held pages) ∨
    ∃ before stop after m', pages = before ++ stop :: after ∧
      pages.forM verifyPage m = .error .killed m' ∧ Secured m m' held before ∧
      m'.Stuck stop.place := by
  induction pages generalizing m with
  | nil => exact Or.inl ⟨m, rfl, .nil sound rfl rfl⟩
  | cons page pages ih =>
      rcases sound.verifyPage_ends (task page List.mem_cons_self) with
        ⟨m₁, run, first⟩ | ⟨m₁, run, none, stuck⟩
      · have task' : ∀ page ∈ pages, layout.kernelTables ≤ page.dirIndex :=
          fun page member => task page (List.mem_cons_of_mem _ member)
        rcases ih first.sound task' with
          ⟨m₂, walk, rest⟩ | ⟨before, stop, after, m₂, rfl, walk, rest, stuck⟩
        · exact Or.inl ⟨m₂, (bind_ok run).trans walk, first.cons rest⟩
        · exact Or.inr ⟨page :: before, stop, after, m₂, rfl, (bind_ok run).trans walk,
            first.cons rest, stuck⟩
      · exact Or.inr ⟨[], page, pages, m₁, rfl, bind_error run, none, stuck⟩

theorem Sound.verifyPages_of_guarded (sound : m.Sound held) {pages : List LinearAddr}
    (guarded : ∀ page ∈ pages, m.Guarded page.place) : pages.forM verifyPage m = .ok () m := by
  induction pages with
  | nil => rfl
  | cons page pages ih =>
      have first : verifyPage page m = .ok () m :=
        bind_ok (orFatal_ok (sound.verifyWrite_of_guarded (guarded page List.mem_cons_self)))
      exact (bind_ok first).trans
        (ih fun page member => guarded page (List.mem_cons_of_mem _ member))

/-- The pages of a set that are mapped can be written to, each in a frame of its own, and nothing
else has changed; no frame has been taken but for one of these pages. -/
structure MadeWritable (m m' : Manager layout) (pages : Set LinearAddr) : Prop where
  writable : ∀ page ∈ pages, (m.memory.leaf page.place).isPresent = true →
    (m'.memory.leaf page.place).isPresent = true ∧
      (m'.memory.leaf page.place).isWritable = true ∧
      m'.refCount? (m'.memory.leaf page.place).frame = some 1
  absent : ∀ page ∈ pages, (m.memory.leaf page.place).isPresent = false →
    m'.memory.leaf page.place = m.memory.leaf page.place
  outside : ∀ place, (∀ page ∈ pages, page.place ≠ place) →
    m'.memory.leaf place = m.memory.leaf place
  link : m'.memory.link = m.memory.link
  bytes : ∀ addr : LinearAddr, layout.kernelTables ≤ addr.dirIndex → m'.byteAt addr = m.byteAt addr
  taken : ∀ frame, m.refCount? frame = some 0 → m'.refCount? frame ≠ some 0 →
    ∃ page ∈ pages, (m.memory.leaf page.place).isPresent = true ∧
      (m'.memory.leaf page.place).PointsAt frame

section Secured

variable {pages : List LinearAddr} (secured : Secured m m' held pages) (sound : m.Sound held)

include secured sound

theorem Secured.exists_page {frame : Frame} (free : m.refCount? frame = some 0)
    (taken : m'.refCount? frame ≠ some 0) :
    ∃ page ∈ pages, (m.memory.leaf page.place).isPresent = true ∧
      (m'.memory.leaf page.place).PointsAt frame := by
  have pooled := FramePool.pooled_of_count? free
  have unused := sound.unreferenced_of_free free
  rw [refCount?_eq pooled, Option.some.injEq] at free
  rw [refCount?_eq pooled, Ne, Option.some.injEq] at taken
  rcases pooled.cached_or_task with cached | task
  · rw [sound.balanced.cached frame cached] at free
    cases free
  · have unlinked : ∀ block ∈ layout.taskBlocks, ¬ (m'.memory.link block).PointsAt frame := by
      rw [secured.link]
      exact unused.1
    have unheld := (sound.balanced.unused_of_count_eq_zero task free).2.2
    by_contra none
    refine taken (secured.sound.balanced.count_eq_zero task unlinked ?_ unheld)
    intro place inside points
    by_cases listed : ∃ page ∈ pages, page.place = place ∧
        (m.memory.leaf place).isPresent = true
    · obtain ⟨page, member, rfl, mapped⟩ := listed
      exact none ⟨page, member, mapped, points⟩
    · have kept : m'.memory.leaf place = m.memory.leaf place := by
        by_cases mapped : (m.memory.leaf place).isPresent = true
        · exact secured.leaf place fun page member same => listed ⟨page, member, same, mapped⟩
        · exact secured.keeps_absent (Bool.not_eq_true _ ▸ mapped)
      rw [kept] at points
      exact unused.2 place inside points

theorem Secured.madeWritable {set : Set LinearAddr} (same : ∀ page, page ∈ set ↔ page ∈ pages)
    (task : ∀ page ∈ pages, layout.kernelTables ≤ page.dirIndex) : MadeWritable m m' set := by
  refine ⟨?_, ?_, ?_, secured.link, ?_, ?_⟩
  · intro page member mapped
    have listed := (same page).mp member
    have inside := Layout.place_mem_taskPlaces (task page listed)
    obtain ⟨present, writable⟩ := secured.writable page listed mapped
    have frame := secured.sound.balanced.mapped _ inside present
    refine ⟨present, writable, ?_⟩
    rw [refCount?_eq frame.pooled, secured.sound.balanced.exclusive _ inside present writable]
  · exact fun page member absent => secured.absent page ((same page).mp member) absent
  · intro place outside
    exact secured.leaf place fun page member => outside page ((same page).mpr member)
  · intro addr task'
    rw [secured.sound.byteAt_eq task', sound.byteAt_eq task']
    exact congrArg Except.ok (SameContents.of_seen secured.seen addr task')
  · intro frame free taken
    obtain ⟨page, member, mapped, points⟩ := secured.exists_page sound free taken
    exact ⟨page, (same page).mpr member, mapped, points⟩

end Secured

end Manager

open Manager

variable {layout : Layout} {m : Manager layout} {held : Finset Frame}

theorem Manager.InArea.eq_of_place {addr page other : LinearAddr} {size : Nat}
    (start : InArea addr size page) (start' : InArea addr size other)
    (same : page.place = other.place) : page = other := by
  have quotient := LinearAddr.place_eq_iff.mp same
  have whole := start.1
  have whole' := start'.1
  apply LinearAddr.ext_toNat
  simp only [LinearAddr.pageOffset, pageSize] at *
  omega

/-- Verifying an area, in full. It makes the pages of the area writable that are mapped, and then
verifying the area again does nothing at all. Or it stops at a page that shares its frame when there
is none for a copy; then it has done so with the pages below, and with no others. -/
theorem Reachable.verifyArea_outcome (reachable : Reachable layout m held) {addr : LinearAddr}
    (task : layout.kernelTables ≤ addr.dirIndex) (size : Nat) :
    (∃ m', verifyArea addr size m = .ok () m' ∧
      MadeWritable m m' {page | InArea addr size page} ∧
      verifyArea addr size m' = .ok () m') ∨
    ∃ stop m', InArea addr size stop ∧ verifyArea addr size m = .error .killed m' ∧
      MadeWritable m m' {page | InArea addr size page ∧ page.toNat < stop.toNat} ∧
      (∀ page, InArea addr size page → stop.toNat ≤ page.toNat →
        m'.memory.leaf page.place = m.memory.leaf page.place) ∧
      (m'.memory.leaf stop.place).isPresent = true ∧
      m'.refCount? (m'.memory.leaf stop.place).frame ≠ some 1 ∧ m'.pool.freeCount = 0 := by
  have sound := reachable.sound
  have task' : ∀ page ∈ areaPages addr size, layout.kernelTables ≤ page.dirIndex :=
    fun _ => task_of_mem_areaPages task
  rcases sound.verifyPages_ends task' with
    ⟨m', run, secured⟩ | ⟨before, stop, after, m', split, run, secured, stuck⟩
  · refine Or.inl ⟨m', run, secured.madeWritable sound (fun _ => mem_areaPages.symm) task', ?_⟩
    apply secured.sound.verifyPages_of_guarded
    intro page member present
    by_cases mapped : (m.memory.leaf page.place).isPresent = true
    · exact (secured.writable page member mapped).2
    · rw [secured.absent page member (Bool.not_eq_true _ ▸ mapped)] at present
      exact absurd present mapped
  · have early (page : LinearAddr) (member : page ∈ before) : page ∈ areaPages addr size := by
      rw [split]
      exact List.mem_append_left _ member
    have last : stop ∈ areaPages addr size := by
      rw [split]
      exact List.mem_append_right _ List.mem_cons_self
    have inside := Layout.place_mem_taskPlaces (task' stop last)
    have frame := secured.sound.balanced.mapped _ inside stuck.mapped
    refine Or.inr ⟨stop, m', mem_areaPages.mp last, run, ?_, ?_, stuck.mapped, ?_, stuck.full⟩
    · exact secured.madeWritable sound (fun page => (mem_before_iff split page).symm)
        fun page member => task' page (early page member)
    · intro page start late
      apply secured.leaf
      intro other member same
      obtain ⟨start', below⟩ := (mem_before_iff split other).mp member
      obtain rfl := start'.eq_of_place start same
      exact Nat.not_le.mpr below late
    · rw [refCount?_eq frame.pooled, Ne, Option.some.injEq]
      exact stuck.shared

/-- One of two sharers is made writable, and the other stays as it is. -/
theorem verifyArea_outcome_shared :
    ∃ m m', Reachable .tiny m ∅ ∧ (m.memory.leaf firstPage.place).isWritable = false ∧
      verifyArea firstPage 1 m = .ok () m' ∧
      (m'.memory.leaf firstPage.place).isWritable = true ∧
      m'.memory.leaf spareBlock.place = m.memory.leaf spareBlock.place ∧
      verifyArea firstPage 1 m' = .ok () m' := by
  obtain ⟨m, reachable, sharers, room⟩ := exists_reachable_shared
  have task : Layout.tiny.kernelTables ≤ firstPage.dirIndex := by decide
  obtain ⟨⟨mapped, -⟩, readOnly, -⟩ := reachable.sound.shared_of_pair sharers (by decide)
  have start : InArea firstPage 1 firstPage := ⟨by decide +kernel, by decide +kernel,
    Nat.lt_succ_self _⟩
  have number : truncPage firstPage.toNat = firstPage.toNat := by decide +kernel
  have only {page : LinearAddr} (area : InArea firstPage 1 page) : page = firstPage := by
    apply LinearAddr.ext_toNat
    obtain ⟨-, above, below⟩ := area
    rw [number] at above
    omega
  rcases Reachable.verifyArea_outcome reachable task 1 with
    ⟨m', run, made, again⟩ | ⟨stop, m', area, run, made, -, -, -, full⟩
  · refine ⟨m, m', reachable, readOnly, run, (made.writable _ start mapped).2.1, ?_, again⟩
    apply made.outside
    intro page area
    rw [only area]
    decide
  · -- the walk would have taken the last frame for a page below the only one
    obtain ⟨frame, pooled, free⟩ := FramePool.exists_of_freeCount_pos room
    obtain ⟨page, ⟨area', below⟩, -⟩ := made.taken frame
      ((refCount?_eq pooled).trans (congrArg some free)) (by
        rw [refCount?_eq pooled, Ne, Option.some.injEq]
        exact fun free' => Nat.ne_of_gt (FramePool.freeCount_pos pooled free') full)
    rw [only area, only area'] at below
    exact absurd below (Nat.lt_irrefl _)

end PagedMemory

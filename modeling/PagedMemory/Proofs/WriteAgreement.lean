import PagedMemory.Proofs.FramesDue

/-!
Two ways to write. In user mode a store takes its faults page by page; the kernel first verifies the
whole area and then stores. The faults come in a different order, but what they take from the pool
was due from the start. So both writes run out of frames on the same inputs, and otherwise leave the
same bytes, pages and counts.
-/

namespace PagedMemory

namespace Manager

variable {layout : Layout} {m m' m'' : Manager layout} {held : Finset Frame}
  {area : Finset (Nat × Nat)}

open Operation

def areaPlaces (addr : LinearAddr) (size : Nat) : Finset (Nat × Nat) :=
  ((areaPages addr size).map LinearAddr.place).toFinset

theorem mem_areaPlaces {addr : LinearAddr} {size : Nat} {place : Nat × Nat} :
    place ∈ areaPlaces addr size ↔ ∃ page ∈ areaPages addr size, page.place = place := by
  rw [areaPlaces, List.mem_toFinset, List.mem_map]

theorem place_mem_areaPlaces {addr other : LinearAddr} {size : Nat}
    (above : addr.toNat ≤ other.toNat) (below : other.toNat < addr.toNat + size) :
    other.place ∈ areaPlaces addr size :=
  mem_areaPlaces.mpr (exists_areaPage above below)

theorem exists_touched {addr : LinearAddr} {size : Nat} (some : size ≠ 0) {place : Nat × Nat}
    (member : place ∈ areaPlaces addr size) :
    ∃ other : LinearAddr, addr.toNat ≤ other.toNat ∧ other.toNat < addr.toNat + size ∧
      other.place = place := by
  obtain ⟨page, listed, rfl⟩ := mem_areaPlaces.mp member
  obtain ⟨start, above, below⟩ := mem_areaPages.mp listed
  by_cases first : addr.toNat ≤ page.toNat
  · exact ⟨page, first, below, rfl⟩
  · refine ⟨addr, Nat.le_refl _, by omega, ?_⟩
    rw [LinearAddr.place_eq_iff]
    simp only [LinearAddr.pageOffset, truncPage, pageSize] at *
    omega

def WritableFrom (m : Manager layout) (addr : LinearAddr) (size : Nat) : Prop :=
  ∀ other : LinearAddr, addr.toNat ≤ other.toNat → other.toNat < addr.toNat + size →
    m.Writable other.place

theorem WritableFrom.areaPlaces {addr : LinearAddr} {size : Nat}
    (ready : m.WritableFrom addr size) (some : size ≠ 0) :
    ∀ place ∈ areaPlaces addr size, m.Writable place := by
  intro place member
  obtain ⟨other, above, below, rfl⟩ := exists_touched some member
  exact ready other above below

/-- A run takes what was due for pages of the area, and ends well; or there are too few frames for
the area and the task is killed. -/
inductive Pays (m : Manager layout) (held : Finset Frame) (area : Finset (Nat × Nat))
    (good : Manager layout → Prop) : EStateM.Result AccessError (Manager layout) Unit → Prop
  | ok {m' : Manager layout} (paid : Paid m m' held area) (well : good m') :
      Pays m held area good (.ok () m')
  | killed {m' : Manager layout} (few : m.pool.freeCount < m.framesDue area) :
      Pays m held area good (.error .killed m')

namespace Pays

variable {good good' : Manager layout → Prop}
  {result : EStateM.Result AccessError (Manager layout) Unit}

theorem imp (pays : Pays m held area good result)
    (well : ∀ m', Paid m m' held area → good m' → good' m') : Pays m held area good' result := by
  cases pays with
  | ok paid before => exact .ok paid (well _ paid before)
  | killed few => exact .killed few

theorem of_rest (paid : Paid m m' held area) (rest : Pays m' held area good result) :
    Pays m held area good result := by
  cases rest with
  | ok paid' well => exact .ok (paid.trans paid') well
  | killed few => exact .killed (paid.short few)

theorem bind {first next : Operation layout AccessError Unit}
    (head : Pays m held area good (first m))
    (tail : ∀ m', Paid m m' held area → good m' → Pays m' held area good' (next m')) :
    Pays m held area good' ((first >>= fun _ => next) m) := by
  generalize run : first m = result at head
  cases head with
  | ok paid well =>
      rw [bind_ok run]
      exact of_rest paid (tail _ paid well)
  | killed few =>
      rw [bind_error run]
      exact .killed few

end Pays

theorem Sound.verifyPage_pays (sound : m.Sound held) {page : LinearAddr}
    (task : layout.kernelTables ≤ page.dirIndex) (member : page.place ∈ area) :
    Pays m held area (·.Guarded page.place) (verifyPage page m) := by
  rcases sound.verifyWrite_ends task with ⟨guarded, run⟩ | ⟨mapped, resolution, m', run, ends⟩
  · rw [verifyPage, bind_ok (orFatal_ok run)]
    exact .ok (.refl sound area) guarded
  · have inside := Layout.place_mem_taskPlaces task
    rw [verifyPage, bind_ok (orFatal_ok run)]
    cases ends with
    | restored ends => exact .ok (ends.paid member mapped) fun _ => ends.opened.writable
    | copied ends =>
        exact .ok (ends.paid member sound inside mapped) fun _ => ends.opened.writable
    | killed shared full memory pool =>
        have ends : Exclusive m m' held page.place .killed := .killed shared full memory pool
        exact .killed (ends.short member sound inside mapped)

theorem Sound.verifyPages_pays (sound : m.Sound held) {pages : List LinearAddr}
    (task : ∀ page ∈ pages, layout.kernelTables ≤ page.dirIndex)
    (members : ∀ page ∈ pages, page.place ∈ area) :
    Pays m held area (fun m' => ∀ page ∈ pages, m'.Guarded page.place)
      (pages.forM verifyPage m) := by
  induction pages generalizing m with
  | nil => exact .ok (.refl sound area) nofun
  | cons page pages ih =>
      have first := sound.verifyPage_pays (task page List.mem_cons_self)
        (members page List.mem_cons_self)
      apply first.bind
      intro m₁ paid guarded
      have rest := ih paid.sound (fun page member => task page (List.mem_cons_of_mem _ member))
        (fun page member => members page (List.mem_cons_of_mem _ member))
      apply rest.imp
      intro m₂ paid' all other member
      rcases List.mem_cons.mp member with rfl | later
      · exact paid'.guarded _ guarded
      · exact all other later

theorem Sound.verifyArea_pays (sound : m.Sound held) {addr : LinearAddr} {size : Nat}
    (task : layout.kernelTables ≤ addr.dirIndex) :
    Pays m held (areaPlaces addr size) (fun m' => ∀ other : LinearAddr,
        addr.toNat ≤ other.toNat → other.toNat < addr.toNat + size → m'.Guarded other.place)
      (verifyArea addr size m) := by
  have members : ∀ page ∈ areaPages addr size, page.place ∈ areaPlaces addr size :=
    fun page member => mem_areaPlaces.mpr ⟨page, member, rfl⟩
  have walk := sound.verifyPages_pays (fun _ => task_of_mem_areaPages task) members
  apply walk.imp
  intro m' _ guarded other above below
  obtain ⟨page, member, place⟩ := exists_areaPage above below
  rw [← place]
  exact guarded page member

section Found

variable {place : Nat × Nat} {mode : AccessMode} (member : place ∈ area) (sound : m.Sound held)
  (inside : place ∈ layout.taskPlaces)

include member sound inside

theorem Found.paid {frame : Frame} (found : Found m held place mode (.ok frame m')) :
    Paid m m' held area := by
  cases found with
  | mapped => exact .refl sound area
  | filled ends => exact ends.paid member
  | exclusive _ present alive ends => exact ends.paid member sound inside present alive

theorem Found.short {error : AccessError} (found : Found m held place mode (.error error m')) :
    m.pool.freeCount < m.framesDue area := by
  cases found with
  | unfilled absent ends => exact ends.framesDue_gt member absent
  | shared _ present ends => exact ends.short member sound inside present

end Found

section Store

variable {mode : AccessMode} {addr : LinearAddr} {data : List UInt8}

theorem Sound.storePage_pays (sound : m.Sound held) (task : layout.kernelTables ≤ addr.dirIndex)
    (page : addr.pageOffset + data.length ≤ pageSize) (member : addr.place ∈ area)
    (guarded : mode = .userWrite ∨ m.Guarded addr.place) :
    Pays m held area (·.Writable addr.place) ((do
      let frame ← backingFrame addr mode
      orFatal (onMemory (PhysicalMemory.writeBytes frame addr.pageOffset data)) :
      Operation layout AccessError Unit) m) := by
  have inside := Layout.place_mem_taskPlaces task
  have found := sound.backingFrame_found task mode
  rcases sound.backingFrame_cases task mode with ⟨m₁, run, -⟩ | ⟨frame, m₁, run, backed⟩
  · rw [run] at found
    rw [bind_error run]
    exact .killed (found.short member sound inside)
  · rw [run] at found
    have writable : m₁.Writable addr.place := ⟨backed.points.1, backed.writable guarded⟩
    obtain ⟨m₂, write, sound₂, leaf, link, pool, -⟩ :=
      backed.sound.exists_writeBytes task backed.points page
    have written : Paid m₁ m₂ held area := .of_same sound₂ link leaf pool area
    rw [bind_ok run, write]
    exact .ok ((found.paid member sound inside).trans written) (written.writable writable)

theorem Sound.storeUser_pays (sound : m.Sound held) (mode : AccessMode)
    (within : data.length ≠ 0 → layout.InTaskSpace addr data.length)
    (members : ∀ other : LinearAddr, addr.toNat ≤ other.toNat →
      other.toNat < addr.toNat + data.length → other.place ∈ area)
    (guarded : mode = .userWrite ∨ ∀ other : LinearAddr, addr.toNat ≤ other.toNat →
      other.toNat < addr.toNat + data.length → m.Guarded other.place) :
    Pays m held area (·.WritableFrom addr data.length) (storeUser mode addr data m) := by
  induction length : data.length using Nat.strongRecOn generalizing addr data m with
  | ind length' ih =>
    subst length
    by_cases empty : data.length = 0
    · obtain rfl := List.length_eq_zero_iff.mp empty
      rw [storeUser_nil]
      refine .ok (.refl sound area) ?_
      intro other above below
      exact absurd below (Nat.not_lt.mpr above)
    · have inside := within empty
      have fits := inside.2
      have positive := firstChunk_pos addr empty
      have part := firstChunk_le addr data.length
      have page := pageOffset_add_firstChunk_le addr data.length
      rw [storeUser_of_ne_zero mode addr empty, ← bind_assoc]
      generalize firstChunk addr data.length = chunk at *
      have left : (data.drop chunk).length = data.length - chunk := List.length_drop
      have first := sound.storePage_pays inside.1
        (show addr.pageOffset + (data.take chunk).length ≤ pageSize by
          rw [List.length_take_of_le part]
          exact page)
        (members addr (Nat.le_refl _) (by omega))
        (guarded.imp_right fun all => all addr (Nat.le_refl _) (by omega))
      apply first.bind
      intro m₁ paid writable
      -- what lies in the rest of the area lies in the area
      have rest (other : LinearAddr) (above : (addr.advance chunk).toNat ≤ other.toNat)
          (below : other.toNat < (addr.advance chunk).toNat + (data.drop chunk).length) :
          addr.toNat ≤ other.toNat ∧ other.toNat < addr.toNat + data.length := by
        have number : (addr.advance chunk).toNat = addr.toNat + chunk :=
          LinearAddr.toNat_advance_of_lt (by omega)
        omega
      have within' : (data.drop chunk).length ≠ 0 →
          layout.InTaskSpace (addr.advance chunk) (data.drop chunk).length := by
        intro more
        rw [left]
        exact inside.advance (by omega)
      have last := ih (data.drop chunk).length (by omega) paid.sound within'
        (fun other above below => (rest other above below).elim (members other))
        (guarded.imp_right fun all other above below =>
          paid.guarded _ ((rest other above below).elim (all other))) rfl
      apply last.imp
      intro m₂ paid' ready other above below
      -- a page that has been made writable stays so while the rest is paid for
      by_cases here : other.toNat < addr.toNat + chunk
      · have same : other.place = addr.place := by
          rw [LinearAddr.place_eq_iff]
          simp only [LinearAddr.pageOffset, pageSize] at *
          omega
        rw [same]
        exact paid'.writable writable
      · have bound := other.toNat_lt
        have number : (addr.advance chunk).toNat = addr.toNat + chunk :=
          LinearAddr.toNat_advance_of_lt (by omega)
        exact ready other (by omega) (by omega)

variable (sound : m.Sound held) (within : layout.InTaskSpace addr data.length) (some : data ≠ [])

include sound within some

theorem Sound.writeUser_pays : Pays m held (areaPlaces addr data.length)
    (fun m' => ∀ place ∈ areaPlaces addr data.length, m'.Writable place)
    (writeUser addr data m) := by
  have length : data.length ≠ 0 := fun zero => some (List.length_eq_zero_iff.mp zero)
  have store := sound.storeUser_pays .userWrite (fun _ => within)
    (fun _ => place_mem_areaPlaces) (.inl rfl)
  exact store.imp fun _ _ ready => ready.areaPlaces length

theorem Sound.copyToUser_pays : Pays m held (areaPlaces addr data.length)
    (fun m' => ∀ place ∈ areaPlaces addr data.length, m'.Writable place)
    (copyToUser addr data m) := by
  have length : data.length ≠ 0 := fun zero => some (List.length_eq_zero_iff.mp zero)
  rw [copyToUser_of_ne_nil some within]
  apply (sound.verifyArea_pays within.1).bind
  intro m₁ paid guarded
  have store := paid.sound.storeUser_pays .kernelWrite (fun _ => within)
    (fun _ => place_mem_areaPlaces) (.inr guarded)
  exact store.imp fun _ _ ready => ready.areaPlaces length

end Store

/-- Two ways to pay for an area in full: pages and counts are the same, whichever free frames the
pages have got. -/
theorem Paid.agree {left right : Manager layout} (paid : Paid m left held area)
    (paid' : Paid m right held area) (ready : ∀ place ∈ area, left.Writable place)
    (ready' : ∀ place ∈ area, right.Writable place) :
    left.pool.freeCount = right.pool.freeCount ∧
      (∀ place, (left.memory.leaf place).isPresent = (right.memory.leaf place).isPresent ∧
        (left.memory.leaf place).isWritable = (right.memory.leaf place).isWritable) ∧
      ∀ frame, m.refCount? frame ≠ some 0 → left.refCount? frame = right.refCount? frame := by
  refine ⟨?_, ?_, ?_⟩
  · have free := paid.freeCount_add ready
    have free' := paid'.freeCount_add ready'
    omega
  · intro place
    by_cases member : place ∈ area
    · obtain ⟨present, writable⟩ := ready place member
      obtain ⟨present', writable'⟩ := ready' place member
      exact ⟨present.trans present'.symm, writable.trans writable'.symm⟩
    · rw [paid.elsewhere place member, paid'.elsewhere place member]
      exact ⟨rfl, rfl⟩
  · intro frame used
    apply refCount?_congr
    by_cases pooled : layout.IsPooled frame
    · rw [refCount?_eq pooled, Ne, Option.some.injEq] at used
      have count := paid.count_add ready used
      have count' := paid'.count_add ready' used
      omega
    · rw [FramePool.count_of_not_pooled _ pooled, FramePool.count_of_not_pooled _ pooled]

end Manager

open Manager

variable {layout : Layout} {m : Manager layout} {held : Finset Frame}

/-- A task's own write and the kernel's write on its behalf, both from the same state. Either there
are too few frames for both of them, or both go through. Then tasks find the same bytes, those of
before with the data stored, the same pages are present and writable, as many frames are free, and
frames that were in use have the same counts. -/
theorem Reachable.writes_agree (reachable : Reachable layout m held) {addr : LinearAddr}
    {data : List UInt8} (task : layout.kernelTables ≤ addr.dirIndex) (nonempty : data ≠ [])
    (fits : addr.toNat + data.length ≤ addressSpace) :
    (∃ m₁ m₂, writeUser addr data m = .error .killed m₁ ∧
      copyToUser addr data m = .error .killed m₂) ∨
    ∃ m₁ m₂, writeUser addr data m = .ok () m₁ ∧ copyToUser addr data m = .ok () m₂ ∧
      (∀ other, layout.kernelTables ≤ other.dirIndex →
        m₁.byteAt other = .ok (m.contents.store addr data other) ∧
          m₂.byteAt other = .ok (m.contents.store addr data other)) ∧
      m₁.pool.freeCount = m₂.pool.freeCount ∧
      (∀ place, (m₁.memory.leaf place).isPresent = (m₂.memory.leaf place).isPresent ∧
        (m₁.memory.leaf place).isWritable = (m₂.memory.leaf place).isWritable) ∧
      ∀ frame, m.refCount? frame ≠ some 0 → m₁.refCount? frame = m₂.refCount? frame := by
  have sound := reachable.sound
  have within : layout.InTaskSpace addr data.length := ⟨task, fits⟩
  have stored := sound.writeUser_stored fun _ => within
  have stored' := sound.copyToUser_stored fun _ => within
  have user := sound.writeUser_pays within nonempty
  have kernel := sound.copyToUser_pays within nonempty
  generalize writeUser addr data m = result at *
  generalize copyToUser addr data m = result' at *
  cases user with
  | ok paid ready =>
      have enough := paid.freeCount_add ready
      cases kernel with
      | ok paid' ready' =>
          refine Or.inr ⟨_, _, rfl, rfl, ?_, paid.agree paid' ready ready'⟩
          intro other task'
          constructor
          · rw [stored.1.byteAt_eq task', stored.2 other task']
          · rw [stored'.1.byteAt_eq task', stored'.2 other task']
      | killed few => omega
  | killed few =>
      cases kernel with
      | ok paid' ready' =>
          have enough := paid'.freeCount_add ready'
          omega
      | killed _ => exact Or.inl ⟨_, _, rfl, rfl⟩

/-- Two bytes across the end of the first page: both writes fill in the second page. For a page of
another block, with no frame left, both are refused. On a shared page both take a copy, and the
other sharer finds what it found before. -/
theorem writes_agree_filled :
    (∃ m₁ m₂, writeUser (firstPage.advance 4095) [1, 2] filled = .ok () m₁ ∧
      copyToUser (firstPage.advance 4095) [1, 2] filled = .ok () m₂ ∧
      m₁.pool.freeCount = 1 ∧ m₂.pool.freeCount = 1) ∧
    (∃ m₁ m₂, writeUser spareBlock [1] exhausted = .error .killed m₁ ∧
      copyToUser spareBlock [1] exhausted = .error .killed m₂) ∧
    ∃ m m₁ m₂, Reachable .tiny m ∅ ∧
      leavesTo .tiny m.memory.leaf ⟨163⟩ = {firstPage.place, spareBlock.place} ∧
      writeUser firstPage [7] m = .ok () m₁ ∧ copyToUser firstPage [7] m = .ok () m₂ ∧
      m₁.byteAt firstPage = .ok 7 ∧ m₂.byteAt firstPage = .ok 7 ∧
      m₁.byteAt spareBlock = m.byteAt spareBlock ∧ m₂.byteAt spareBlock = m.byteAt spareBlock ∧
      m₁.refCount? ⟨163⟩ = m₂.refCount? ⟨163⟩ := by
  obtain ⟨m₁, done, one⟩ : ∃ m₁, writeUser (firstPage.advance 4095) [1, 2] filled = .ok () m₁ ∧
      m₁.pool.freeCount = 1 :=
    Operation.exists_of_observed (·.pool.freeCount) (by decide +kernel)
  have refused : (writeUser spareBlock [1]).success? exhausted = none := by
    rw [← Option.isNone_iff_eq_none]
    decide +kernel
  refine ⟨?_, ?_, ?_⟩
  · rcases Reachable.writes_agree reachable_filled (show Layout.tiny.kernelTables ≤
        (firstPage.advance 4095).dirIndex by decide) (show [1, 2] ≠ [] by decide) (by decide) with
      ⟨_, _, run, -⟩ | ⟨m₁', m₂, run, run', -, free, -⟩
    · cases done.symm.trans run
    · cases done.symm.trans run
      exact ⟨m₁, m₂, run, run', one, free.symm.trans one⟩
  · rcases Reachable.writes_agree reachable_exhausted (show Layout.tiny.kernelTables ≤
        spareBlock.dirIndex by decide) (show [1] ≠ [] by decide) (by decide) with
      killed | ⟨_, _, run, -⟩
    · exact killed
    · rw [Operation.success?, run] at refused
      cases refused
  · obtain ⟨m, shared, sharers, room⟩ := exists_reachable_shared
    have task : Layout.tiny.kernelTables ≤ firstPage.dirIndex := by decide
    have task' : Layout.tiny.kernelTables ≤ spareBlock.dirIndex := by decide
    obtain ⟨maps, -, twice⟩ := shared.sound.shared_of_pair sharers (by decide)
    obtain ⟨m₀, wrote, -, -⟩ := shared.sound.exists_writeUser_of_present task
      (show [7].length ≠ 0 by decide) (by decide +kernel) maps.1 room
    rcases Reachable.writes_agree shared task (show [7] ≠ [] by decide) (by decide) with
      ⟨_, _, run, -⟩ | ⟨m₁, m₂, run, run', bytes, -, -, counts⟩
    · cases wrote.symm.trans run
    · have before := shared.sound.byteAt_eq task'
      have used : m.refCount? ⟨163⟩ ≠ some 0 := twice ▸ by decide
      exact ⟨m, m₁, m₂, shared, sharers, run, run', (bytes firstPage task).1,
        (bytes firstPage task).2, (bytes spareBlock task').1.trans before.symm,
        (bytes spareBlock task').2.trans before.symm, counts _ used⟩

end PagedMemory

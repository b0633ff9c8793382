import PagedMemory.Proofs.FaultOutcomes

/-!
What a read does to the tables. The only faults that it takes are for pages that are absent, and
each of them fills in one page with a frame of its own. Pages that are mapped keep their entries and
frames in use their counts, so nothing that is shared stops being shared.
-/

namespace PagedMemory

namespace LinearAddr

/-- The pages that hold some of the `length` bytes from `addr` on. -/
def touched (addr : LinearAddr) (length : Nat) : Set (Nat × Nat) :=
  {place | ∃ other : LinearAddr, addr.toNat ≤ other.toNat ∧
    other.toNat < addr.toNat + length ∧ other.place = place}

theorem touched_zero (addr : LinearAddr) : addr.touched 0 = ∅ := by
  apply Set.eq_empty_of_forall_notMem
  rintro place ⟨other, above, below, -⟩
  omega

theorem touched_page {addr : LinearAddr} {length : Nat} (some : 0 < length)
    (page : addr.pageOffset + length ≤ pageSize) : addr.touched length = {addr.place} := by
  ext place
  rw [Set.mem_singleton_iff]
  constructor
  · rintro ⟨other, above, below, rfl⟩
    rw [place_eq_iff]
    simp only [pageOffset, pageSize] at *
    omega
  · rintro rfl
    exact ⟨addr, Nat.le_refl _, by omega, rfl⟩

theorem touched_add {addr : LinearAddr} {length more : Nat}
    (fits : addr.toNat + (length + more) ≤ addressSpace) :
    addr.touched (length + more) =
      addr.touched length ∪ (addr.advance length).touched more := by
  by_cases none : more = 0
  · rw [none, touched_zero, Set.union_empty, Nat.add_zero]
  · have number : (addr.advance length).toNat = addr.toNat + length :=
      toNat_advance_of_lt (by omega)
    ext place
    constructor
    · rintro ⟨other, above, below, same⟩
      by_cases first : other.toNat < addr.toNat + length
      · exact Or.inl ⟨other, above, first, same⟩
      · exact Or.inr ⟨other, by omega, by omega, same⟩
    · rintro (⟨other, above, below, same⟩ | ⟨other, above, below, same⟩)
      · exact ⟨other, above, by omega, same⟩
      · exact ⟨other, by omega, by omega, same⟩

end LinearAddr

namespace Manager

variable {layout : Layout} {m m' m₁ m₂ : Manager layout} {held : Finset Frame}

open Operation

/-- The pages of a set that were absent are mapped now, each in a frame that was free. Other leaves,
the tables of other blocks, and the counts of frames in use are as they were. -/
structure FilledIn (m m' : Manager layout) (held : Finset Frame) (places : Set (Nat × Nat)) :
    Prop where
  sound : m'.Sound held
  kept : ∀ place, (m.memory.leaf place).isPresent = true ∨ place ∉ places →
    m'.memory.leaf place = m.memory.leaf place
  filled : ∀ place ∈ places, (m.memory.leaf place).isPresent = false →
    ∃ frame, layout.IsTaskFrame frame ∧ m.pool.count frame = 0 ∧ m'.pool.count frame = 1 ∧
      m'.memory.leaf place = Entry.new frame .userWritable
  link : ∀ block, (m.memory.link block).isPresent = true ∨
      (∀ place ∈ places, (m.memory.leaf place).isPresent = false → place.1 ≠ block) →
    m'.memory.link block = m.memory.link block
  count : ∀ frame, m.pool.count frame ≠ 0 → m'.pool.count frame = m.pool.count frame
  seen : ∀ place ∈ layout.taskPlaces, m'.memory.seen place = m.memory.seen place

theorem FilledIn.refl (sound : m.Sound held) {places : Set (Nat × Nat)}
    (mapped : ∀ place ∈ places, (m.memory.leaf place).isPresent = true) :
    FilledIn m m held places := by
  refine ⟨sound, fun _ _ => rfl, ?_, fun _ _ => rfl, fun _ _ => rfl, fun _ _ => rfl⟩
  intro place member absent
  rw [mapped place member] at absent
  cases absent

theorem ZeroFilled.filledIn {place : Nat × Nat} {frame : Frame}
    (filled : ZeroFilled m m' held place frame) : FilledIn m m' held {place} := by
  refine ⟨filled.opened.sound, ?_, ?_, ?_, fun _ => filled.count_eq, filled.opened.seen⟩
  · intro other same
    apply filled.opened.leaf
    rintro rfl
    rcases same with present | outside
    · rw [filled.absent] at present
      cases present
    · exact outside rfl
  · rintro _ rfl _
    refine ⟨frame, filled.task, filled.free, filled.count_frame, ?_⟩
    rw [filled.leaf, Function.update_self]
  · intro block same
    cases filled.table with
    | kept _ links _ => rw [links]
    | made absent _ _ links _ =>
        rw [links]
        apply Function.update_of_ne
        rintro rfl
        rcases same with present | elsewhere
        · rw [absent] at present
          cases present
        · exact elsewhere place rfl filled.absent rfl

theorem Unfilled.filledIn {place : Nat × Nat} (unfilled : Unfilled m m' held place) :
    FilledIn m m' held ∅ := by
  refine ⟨unfilled.sound, ?_, fun _ nowhere => nowhere.elim, ?_, ?_, unfilled.same.seen⟩
  · intro other _
    rw [unfilled.same.leaf]
  · intro block _
    rw [unfilled.same.link]
  · intro frame _
    rw [unfilled.count]

namespace FilledIn

variable {places places' : Set (Nat × Nat)}

theorem absent_of_absent (filled : FilledIn m m' held places) {place : Nat × Nat}
    (absent : (m'.memory.leaf place).isPresent = false) :
    (m.memory.leaf place).isPresent = false := by
  by_contra mapped
  have present : (m.memory.leaf place).isPresent = true := Bool.not_eq_false _ ▸ mapped
  rw [filled.kept place (Or.inl present), present] at absent
  cases absent

theorem present (filled : FilledIn m m' held places) {place : Nat × Nat} (member : place ∈ places) :
    (m'.memory.leaf place).isPresent = true := by
  by_cases mapped : (m.memory.leaf place).isPresent = true
  · rw [filled.kept place (Or.inl mapped)]
    exact mapped
  · obtain ⟨frame, -, -, -, leaf⟩ := filled.filled place member (Bool.not_eq_true _ ▸ mapped)
    rw [leaf]
    exact Entry.isPresent_new _ _

theorem free_of_free (filled : FilledIn m m' held places) {frame : Frame}
    (free : m'.pool.count frame = 0) : m.pool.count frame = 0 := by
  by_contra used
  rw [filled.count frame used] at free
  exact used free

theorem trans (first : FilledIn m m₁ held places) (second : FilledIn m₁ m₂ held places') :
    FilledIn m m₂ held (places ∪ places') := by
  refine ⟨second.sound, ?_, ?_, ?_, ?_, ?_⟩
  · intro place same
    have before : m₁.memory.leaf place = m.memory.leaf place :=
      first.kept place (same.imp_right fun outside member => outside (Or.inl member))
    rw [← before]
    apply second.kept
    rw [before]
    exact same.imp_right fun outside member => outside (Or.inr member)
  · intro place member absent
    by_cases early : place ∈ places
    · -- what the first run has mapped the second leaves alone
      obtain ⟨frame, task, free, once, leaf⟩ := first.filled place early absent
      refine ⟨frame, task, free, ?_, ?_⟩
      · rw [second.count frame (by omega), once]
      · rw [second.kept place (Or.inl (first.present early)), leaf]
    · have before := first.kept place (Or.inr early)
      rw [← before] at absent
      obtain ⟨frame, task, free, once, leaf⟩ :=
        second.filled place (member.resolve_left early) absent
      exact ⟨frame, task, first.free_of_free free, once, leaf⟩
  · intro block same
    have before : m₁.memory.link block = m.memory.link block :=
      first.link block
        (same.imp_right fun elsewhere place member => elsewhere place (Or.inl member))
    rw [← before]
    apply second.link
    rw [before]
    refine same.imp_right fun elsewhere place member absent => ?_
    exact elsewhere place (Or.inr member) (first.absent_of_absent absent)
  · intro frame used
    have before := first.count frame used
    rw [← before] at used ⊢
    exact second.count frame used
  · intro place inside
    rw [second.seen place inside, first.seen place inside]

end FilledIn

structure Starved (m : Manager layout) (place : Nat × Nat) : Prop where
  absent : (m.memory.leaf place).isPresent = false
  short : m.pool.freeCount < m.framesNeeded place.1

theorem Unfilled.starved {place : Nat × Nat} (unfilled : Unfilled m m' held place)
    (absent : (m.memory.leaf place).isPresent = false) : m'.Starved place := by
  have short := unfilled.short
  constructor
  · rw [unfilled.same.leaf]
    exact absent
  · rw [framesNeeded, unfilled.same.link, FramePool.freeCount_congr unfilled.count]
    exact short

section Read

variable {addr : LinearAddr}

theorem Sound.backingFrame_fills (sound : m.Sound held)
    (task : layout.kernelTables ≤ addr.dirIndex) :
    (∃ frame m', backingFrame addr .read m = .ok frame m' ∧ FilledIn m m' held {addr.place} ∧
      (m'.memory.leaf addr.place).PointsAt frame) ∨
    ∃ m', backingFrame addr .read m = .error .killed m' ∧ FilledIn m m' held ∅ ∧
      m'.Starved addr.place := by
  have found := sound.backingFrame_found task .read
  generalize backingFrame addr .read m = result at found ⊢
  cases found with
  | mapped present _ =>
      have here : ∀ place ∈ ({addr.place} : Set (Nat × Nat)),
          (m.memory.leaf place).isPresent = true := by
        rintro _ rfl
        exact present
      exact Or.inl ⟨_, m, rfl, .refl sound here, present, rfl⟩
  | filled ends => exact Or.inl ⟨_, _, rfl, ends.filledIn, ends.opened.present, rfl⟩
  | unfilled absent ends => exact Or.inr ⟨_, rfl, ends.filledIn, ends.starved absent⟩
  | exclusive user => cases user
  | shared user => cases user

theorem pageOffset_advance_firstChunk {length : Nat} (fits : addr.toNat + length ≤ addressSpace)
    (more : firstChunk addr length < length) :
    (addr.advance (firstChunk addr length)).pageOffset = 0 := by
  have number : (addr.advance (firstChunk addr length)).toNat =
      addr.toNat + firstChunk addr length := LinearAddr.toNat_advance_of_lt (by omega)
  rw [LinearAddr.pageOffset, number]
  simp only [firstChunk, LinearAddr.pageOffset, pageSize] at *
  omega

theorem Sound.readUser_fills (sound : m.Sound held) {length : Nat}
    (within : length ≠ 0 → layout.InTaskSpace addr length) :
    (∃ bytes m', readUser addr length m = .ok bytes m' ∧
      FilledIn m m' held (addr.touched length)) ∨
    ∃ done m', done < length ∧ (done = 0 ∨ (addr.advance done).pageOffset = 0) ∧
      readUser addr length m = .error .killed m' ∧ FilledIn m m' held (addr.touched done) ∧
      m'.Starved (addr.advance done).place := by
  induction length using Nat.strongRecOn generalizing addr m with
  | ind length ih =>
    by_cases empty : length = 0
    · subst empty
      refine Or.inl ⟨[], m, ?_, ?_⟩
      · rw [readUser_zero]
        rfl
      · rw [LinearAddr.touched_zero]
        exact .refl sound fun _ nowhere => nowhere.elim
    · have inside := within empty
      have fits := inside.2
      have positive := firstChunk_pos addr empty
      have part := firstChunk_le addr length
      have page := pageOffset_add_firstChunk_le addr length
      have boundary := pageOffset_advance_firstChunk fits
      have first := LinearAddr.touched_page positive page
      rw [readUser_of_ne_zero addr empty]
      generalize firstChunk addr length = chunk at *
      rcases sound.backingFrame_fills inside.1 with
        ⟨frame, m₁, run, filled, points⟩ | ⟨m₁, run, filled, starved⟩
      · have bytes := filled.sound.readBytes_eq inside.1 points page
        have within' : length - chunk ≠ 0 →
            layout.InTaskSpace (addr.advance chunk) (length - chunk) :=
          fun more => inside.advance (by omega)
        rw [← first] at filled
        rw [bind_ok run, bind_ok (orFatal_ok (ask_ok bytes))]
        rcases ih (length - chunk) (by omega) filled.sound within' with
          ⟨more, m₂, rest, filled'⟩ | ⟨done, m₂, few, start, rest, filled', starved⟩
        · have whole := filled.trans filled'
          rw [← LinearAddr.touched_add (by omega), Nat.add_sub_cancel' part] at whole
          exact Or.inl ⟨_, m₂, bind_ok rest, whole⟩
        -- the rest was killed: its count of bytes starts behind this chunk
        · have whole := filled.trans filled'
          rw [← LinearAddr.touched_add (by omega)] at whole
          rw [LinearAddr.advance_advance] at start starved
          refine Or.inr ⟨chunk + done, m₂, by omega, Or.inr ?_, bind_error rest, whole, starved⟩
          rcases start with rfl | start
          · exact boundary (by omega)
          · exact start
      · have here : (addr.advance 0).place = addr.place :=
          LinearAddr.place_advance addr.pageOffset_lt
        refine Or.inr ⟨0, m₁, Nat.pos_of_ne_zero empty, Or.inl rfl, bind_error run, ?_, ?_⟩
        · rw [LinearAddr.touched_zero]
          exact filled
        · rw [here]
          exact starved

end Read

/-- The pages of a set that were absent map frames that were free, each its own and full of zeros.
No other leaf has changed, a frame that was in use is counted as before, and no block without such a
page has been given a table. -/
structure OnlyFills (m m' : Manager layout) (places : Set (Nat × Nat)) : Prop where
  kept : ∀ place, (m.memory.leaf place).isPresent = true ∨ place ∉ places →
    m'.memory.leaf place = m.memory.leaf place
  filled : ∀ place ∈ places, (m.memory.leaf place).isPresent = false →
    ∃ frame, m.refCount? frame = some 0 ∧ m'.refCount? frame = some 1 ∧
      m'.memory.leaf place = Entry.new frame .userWritable ∧
      (m'.memory.leaf place).frame = frame ∧ m'.memory.page frame = Page.zero ∧
      ∀ other ∈ layout.taskPlaces, (m'.memory.leaf other).PointsAt frame → other = place
  counts : ∀ frame, m.refCount? frame ≠ some 0 → m'.refCount? frame = m.refCount? frame
  link : ∀ block, (m.memory.link block).isPresent = true ∨
      (∀ place ∈ places, (m.memory.leaf place).isPresent = false → place.1 ≠ block) →
    m'.memory.link block = m.memory.link block

theorem FilledIn.onlyFills {places : Set (Nat × Nat)} (filled : FilledIn m m' held places)
    (inside : ∀ place ∈ places, place ∈ layout.taskPlaces) : OnlyFills m m' places := by
  refine ⟨filled.kept, ?_, ?_, filled.link⟩
  · intro place member absent
    obtain ⟨frame, task, free, once, leaf⟩ := filled.filled place member absent
    have present := filled.present member
    have leads : (m'.memory.leaf place).frame = frame := by
      rw [leaf]
      exact Entry.frame_new_of_lt task.2 _
    refine ⟨frame, ?_, ?_, leaf, leads, ?_, ?_⟩
    · rw [refCount?_eq task.pooled, free]
    · rw [refCount?_eq task.pooled, once]
    · have seen := filled.seen place (inside place member)
      rw [PhysicalMemory.seen_of_present place present, leads,
        PhysicalMemory.seen_of_absent place absent] at seen
      exact seen
    · intro other inside' points
      by_contra apart
      have twice := filled.sound.balanced.two_le_count (inside place member) present inside'
        points.1 (points.2.trans leads.symm) apart
      rw [leads, once] at twice
      exact absurd twice (by decide)
  · intro frame used
    by_cases pooled : layout.IsPooled frame
    · rw [refCount?_eq pooled, Ne, Option.some.injEq] at used
      exact refCount?_congr (filled.count frame used)
    · exact (FramePool.count?_of_not_pooled _ pooled).trans
        (FramePool.count?_of_not_pooled _ pooled).symm

end Manager

open Manager

variable {layout : Layout} {m : Manager layout} {held : Finset Frame}

theorem LinearAddr.touched_task {addr : LinearAddr} (task : layout.kernelTables ≤ addr.dirIndex)
    (length : Nat) : ∀ place ∈ addr.touched length, place ∈ layout.taskPlaces := by
  rintro place ⟨other, above, -, rfl⟩
  apply Layout.place_mem_taskPlaces
  simp only [dirIndex, blockSize] at *
  omega

theorem LinearAddr.notMem_touched {addr other : LinearAddr} {length : Nat}
    (fits : addr.toNat + length < addressSpace)
    (whole : length = 0 ∨ (addr.advance length).pageOffset = 0)
    (above : addr.toNat + length ≤ other.toNat) : other.place ∉ addr.touched length := by
  rintro ⟨inner, first, last, same⟩
  have quotient := place_eq_iff.mp same
  have number := toNat_advance_of_lt fits
  simp only [pageOffset, pageSize] at *
  omega

/-- What a read does to the tables, in full. It fills in the absent pages of its range and touches
nothing else. Or it has done so with the pages before one that is absent and for which there are
too few frames, and that one and those after it are as they were. -/
theorem Reachable.readUser_outcome (reachable : Reachable layout m held) {addr : LinearAddr}
    (task : layout.kernelTables ≤ addr.dirIndex) {length : Nat}
    (fits : addr.toNat + length ≤ addressSpace) :
    (∃ bytes m', readUser addr length m = .ok bytes m' ∧
      OnlyFills m m' (addr.touched length) ∧
      ∀ place ∈ addr.touched length, (m'.memory.leaf place).isPresent = true) ∨
    ∃ done m', done < length ∧ readUser addr length m = .error .killed m' ∧
      OnlyFills m m' (addr.touched done) ∧
      (∀ other : LinearAddr, addr.toNat + done ≤ other.toNat →
        m'.memory.leaf other.place = m.memory.leaf other.place) ∧
      (m.memory.leaf (addr.advance done).place).isPresent = false ∧
      m'.pool.freeCount < m'.framesNeeded (addr.advance done).dirIndex := by
  have touched := LinearAddr.touched_task task
  rcases reachable.sound.readUser_fills fun _ => ⟨task, fits⟩ with
    ⟨bytes, m', run, filled⟩ | ⟨done, m', few, start, run, filled, starved⟩
  · exact Or.inl ⟨bytes, m', run, filled.onlyFills (touched length), fun _ => filled.present⟩
  · refine Or.inr ⟨done, m', few, run, filled.onlyFills (touched done), ?_,
      filled.absent_of_absent starved.absent, starved.short⟩
    intro other above
    apply filled.kept
    exact Or.inr (LinearAddr.notMem_touched (by omega) start above)

/-- With one frame left a read fills in the page after the first one. A read that goes on into
another block is killed there, with the last page of its own block filled in. A read of a shared
page leaves it shared and read-only. -/
theorem readUser_outcome_scarce :
    (∃ bytes m, readUser (firstPage.advance 4095) 2 scarce = .ok bytes m ∧
      m.memory.leaf firstPage.place = scarce.memory.leaf firstPage.place ∧
      (m.memory.leaf (firstPage.advance 4096).place).isPresent = true) ∧
    (∃ m, readUser (firstPage.advance 4194303) 2 scarce = .error .killed m ∧
      m.memory.leaf spareBlock.place = scarce.memory.leaf spareBlock.place) ∧
    ∃ m bytes m', Reachable .tiny m ∅ ∧ readUser firstPage 3 m = .ok bytes m' ∧
      (m'.memory.leaf firstPage.place).PointsAt ⟨163⟩ ∧
      (m'.memory.leaf spareBlock.place).PointsAt ⟨163⟩ ∧
      (m'.memory.leaf firstPage.place).isWritable = false ∧ m'.refCount? ⟨163⟩ = some 2 := by
  have goes : ((readUser (firstPage.advance 4095) 2).success? scarce).isSome = true := by
    decide +kernel
  have stops : ((readUser (firstPage.advance 4194303) 2).success? scarce).isSome = false := by
    decide +kernel
  refine ⟨?_, ?_, ?_⟩
  · rcases Reachable.readUser_outcome reachable_scarce (show Layout.tiny.kernelTables ≤
        (firstPage.advance 4095).dirIndex by decide)
        (show (firstPage.advance 4095).toNat + 2 ≤ addressSpace by decide +kernel) with
      ⟨bytes, m, run, fills, present⟩ | ⟨_, m, _, run, -⟩
    · refine ⟨bytes, m, run, fills.kept _ (Or.inl (by decide +kernel)), ?_⟩
      exact present _ ⟨firstPage.advance 4096, by decide +kernel, by decide +kernel, rfl⟩
    · rw [Operation.success?, run] at goes
      cases goes
  · rcases Reachable.readUser_outcome reachable_scarce (show Layout.tiny.kernelTables ≤
        (firstPage.advance 4194303).dirIndex by decide)
        (show (firstPage.advance 4194303).toNat + 2 ≤ addressSpace by decide +kernel) with
      ⟨_, m, run, -⟩ | ⟨done, m, few, run, -, later, -⟩
    · rw [Operation.success?, run] at stops
      cases stops
    · refine ⟨m, run, later spareBlock ?_⟩
      have last : (firstPage.advance 4194303).toNat + 1 = spareBlock.toNat := by decide +kernel
      omega
  · obtain ⟨m, reachable, sharers, -⟩ := exists_reachable_shared
    have task : Layout.tiny.kernelTables ≤ firstPage.dirIndex := by decide
    obtain ⟨maps, readOnly, twice⟩ := reachable.sound.shared_of_pair sharers (by decide)
    rw [Finset.pair_comm] at sharers
    obtain ⟨maps', -⟩ := reachable.sound.shared_of_pair sharers (by decide)
    obtain ⟨bytes, reads⟩ :=
      reachable.sound.exists_readUser_of_present task
        (show firstPage.pageOffset + 3 ≤ pageSize by decide +kernel) maps.1
    rcases Reachable.readUser_outcome reachable task (show firstPage.toNat + 3 ≤ addressSpace by
        decide +kernel) with ⟨_, m', run, fills, -⟩ | ⟨_, _, _, run, -⟩
    · have used : m.refCount? ⟨163⟩ ≠ some 0 := twice ▸ by decide
      have kept := fills.kept firstPage.place (Or.inl maps.1)
      have kept' := fills.kept spareBlock.place (Or.inl maps'.1)
      exact ⟨m, _, m', reachable, run, kept ▸ maps, kept' ▸ maps', kept ▸ readOnly,
        (fills.counts _ used).trans twice⟩
    · cases reads.symm.trans run

end PagedMemory

import PagedMemory.Proofs.Audit
import PagedMemory.Proofs.Session

/-!
What holds in every run up to its first fatal error: counts are exact, tables and writable pages
have one owner, and no step fails because the bookkeeping contradicts itself.
-/

namespace PagedMemory

open Manager

variable {layout : Layout} {m : Manager layout} {held : Finset Frame}

theorem FramePool.pooled_of_count? {pool : FramePool layout} {frame : Frame} {count : Nat}
    (counted : pool.count? frame = some count) : layout.IsPooled frame := by
  by_contra outside
  rw [FramePool.count?_of_not_pooled pool outside] at counted
  cases counted

theorem Manager.refCount?_eq {frame : Frame} (pooled : layout.IsPooled frame) :
    m.refCount? frame = some (m.pool.count frame) :=
  m.pool.count?_eq pooled

theorem Manager.refCount?_congr {m' : Manager layout} {frame : Frame}
    (same : m'.pool.count frame = m.pool.count frame) :
    m'.refCount? frame = m.refCount? frame := by
  by_cases pooled : layout.IsPooled frame
  · rw [refCount?_eq pooled, refCount?_eq pooled, same]
  · exact (FramePool.count?_of_not_pooled _ pooled).trans
      (FramePool.count?_of_not_pooled _ pooled).symm

/-- A frame with two pages is counted twice, and cannot be written through either. -/
theorem Manager.Sound.shared_of_pair (sound : m.Sound held) {frame : Frame}
    {place other : Nat × Nat} (pair : leavesTo layout m.memory.leaf frame = {place, other})
    (apart : place ≠ other) :
    (m.memory.leaf place).PointsAt frame ∧ (m.memory.leaf place).isWritable = false ∧
      m.refCount? frame = some 2 := by
  have first : place ∈ leavesTo layout m.memory.leaf frame := by
    rw [pair]
    exact Finset.mem_insert_self _ _
  obtain ⟨inside, mapped, rfl⟩ := mem_leavesTo.mp first
  have twice := sound.balanced.count_eq_card inside mapped
  rw [pair, Finset.card_pair apart] at twice
  refine ⟨⟨mapped, rfl⟩, Bool.eq_false_iff.mpr ?_, ?_⟩
  · intro writable
    have once := sound.balanced.exclusive _ inside mapped writable
    omega
  · rw [refCount?_eq (sound.balanced.mapped _ inside mapped).pooled, twice]

/-- Counts are the references that the tables of tasks and the caller hold. -/
def Manager.CountsExact (m : Manager layout) (held : Finset Frame) : Prop :=
  (∀ frame, layout.IsTaskFrame frame → m.refCount? frame =
    some ((linksTo layout m.memory.link frame).card + (leavesTo layout m.memory.leaf frame).card +
      if frame ∈ held then 1 else 0)) ∧
  ∀ frame, layout.IsCached frame → m.refCount? frame = some bufferCount

theorem Manager.Sound.countsExact (sound : m.Sound held) : m.CountsExact held := by
  constructor
  · intro frame task
    rw [refCount?_eq task.pooled, sound.balanced.counted frame task]
  · intro frame cached
    rw [refCount?_eq cached.pooled, sound.balanced.cached frame cached]

/-- Counts are the references that tables and the caller hold. -/
theorem Reachable.counts_exact (reachable : Reachable layout m held) :
    (∀ frame, layout.IsTaskFrame frame → m.refCount? frame =
      some ((linksTo layout m.memory.link frame).card +
        (leavesTo layout m.memory.leaf frame).card + if frame ∈ held then 1 else 0)) ∧
    (∀ frame, layout.IsCached frame → m.refCount? frame = some bufferCount) ∧
    (held = ∅ → m.audit = .ok ()) := by
  have books := reachable.sound.balanced
  refine ⟨?_, ?_, ?_⟩
  · intro frame task
    rw [refCount?_eq task.pooled, books.counted frame task]
  · intro frame cached
    rw [refCount?_eq cached.pooled, books.cached frame cached]
  · rintro rfl
    exact reachable.sound.audit_eq

def filled : Manager .tiny := ((Call.noPage firstPage).perform (boot .tiny .empty)).2

theorem firstPage_permitted : (Call.noPage firstPage).Permitted .tiny ∅ :=
  show Layout.tiny.kernelTables ≤ firstPage.dirIndex by decide

theorem reachable_filled : Reachable .tiny filled ∅ :=
  Reachable.step (.noPage firstPage) (Reachable.boot .empty) firstPage_permitted
    (by decide +kernel)

/-- The page and its table are counted once each. -/
theorem counts_exact_filled :
    (linksTo .tiny filled.memory.link ⟨162⟩).card + (leavesTo .tiny filled.memory.leaf ⟨162⟩).card =
        1 ∧
      (linksTo .tiny filled.memory.link ⟨163⟩).card +
        (leavesTo .tiny filled.memory.leaf ⟨163⟩).card = 1 ∧ filled.audit = .ok () := by
  obtain ⟨counts, -, audit⟩ := Reachable.counts_exact reachable_filled
  have table := counts ⟨162⟩ (by decide)
  have page := counts ⟨163⟩ (by decide)
  have count : filled.refCount? ⟨162⟩ = some 1 := by decide +kernel
  have count' : filled.refCount? ⟨163⟩ = some 1 := by decide +kernel
  rw [count, if_neg (Finset.notMem_empty _), Nat.add_zero] at table
  rw [count', if_neg (Finset.notMem_empty _), Nat.add_zero] at page
  exact ⟨(Option.some.inj table).symm, (Option.some.inj page).symm, audit rfl⟩

/-- No link and no leaf of a task leads to the frame. -/
def Unreferenced (m : Manager layout) (frame : Frame) : Prop :=
  (∀ block ∈ layout.taskBlocks, ¬ (m.memory.link block).PointsAt frame) ∧
    ∀ place ∈ layout.taskPlaces, ¬ (m.memory.leaf place).PointsAt frame

theorem Manager.Sound.unreferenced_of_free (sound : m.Sound held) {frame : Frame}
    (free : m.refCount? frame = some 0) : Unreferenced m frame := by
  have pooled := FramePool.pooled_of_count? free
  rw [refCount?_eq pooled] at free
  have zero := Option.some.inj free
  rcases pooled.cached_or_task with cached | task
  · rw [sound.balanced.cached frame cached] at zero
    cases zero
  · have unused := sound.balanced.unused_of_count_eq_zero task zero
    exact ⟨unused.1, unused.2.1⟩

theorem Manager.Sound.unreferenced_of_held (sound : m.Sound held) {frame : Frame}
    (holds : frame ∈ held) : Unreferenced m frame := by
  constructor
  · intro block member points
    exact sound.balanced.held_ne_link member points.1 holds points.2.symm
  · intro place inside points
    exact sound.balanced.held_ne_leaf inside points.1 holds points.2.symm

theorem Manager.Sound.unreferenced_of_allocated (sound : m.Sound held) {frame : Frame}
    {m' : Manager layout}
    (run : (allocateFrame : Operation layout FatalError (Option Frame)) m = .ok (some frame) m') :
    Unreferenced m frame := by
  rcases sound.allocateFrame_cases FatalError with ⟨-, full⟩ | ⟨frame', m₁, run', allocated⟩
  · rw [full] at run
    cases run
  · rw [run'] at run
    cases run
    have task := (allocated.sound.balanced.owned frame (Finset.mem_insert_self _ _)).1
    have unused := sound.balanced.unused_of_count_eq_zero task allocated.free
    exact ⟨unused.1, unused.2.1⟩

theorem Manager.Sound.kernel_eq_boot (sound : m.Sound held) {block : Nat}
    (kernel : block < layout.kernelTables) (console : Console) :
    m.memory.link block = (boot layout console).memory.link block ∧
      m.memory.page (kernelTable block) =
        (boot layout console).memory.page (kernelTable block) := by
  have low := layout.kernelTables_lt_firstPoolFrame
  refine ⟨?_, Page.ext_word ?_⟩
  · have reserved : layout.isReserved pageDirectory = true :=
      isReserved_of_lt (Nat.zero_lt_of_lt low)
    rw [PhysicalMemory.link, PhysicalMemory.link, sound.kernel _ _ reserved fun _ => kernel,
      word_boot]
  · intro index _
    have reserved : layout.isReserved (kernelTable block) = true :=
      isReserved_of_lt (Nat.lt_of_le_of_lt kernel low)
    rw [sound.kernel _ _ reserved fun same => absurd same (kernelTable_ne_pageDirectory block),
      word_boot]

/-- Who may lead to which frame. -/
theorem Reachable.ownership (reachable : Reachable layout m held) :
    (∀ block ∈ layout.taskBlocks, (m.memory.link block).isPresent = true →
      layout.IsTaskFrame (m.memory.link block).frame ∧
      m.refCount? (m.memory.link block).frame = some 1 ∧
      (∀ other, other ≠ block → ¬ (m.memory.link other).PointsAt (m.memory.link block).frame) ∧
      ∀ place ∈ layout.taskPlaces, ¬ (m.memory.leaf place).PointsAt (m.memory.link block).frame) ∧
    (∀ place ∈ layout.taskPlaces, (m.memory.leaf place).isPresent = true →
      layout.IsTaskFrame (m.memory.leaf place).frame ∧
      ∃ count, m.refCount? (m.memory.leaf place).frame = some count ∧ 1 ≤ count ∧
        ((m.memory.leaf place).isWritable = true → count = 1)) ∧
    (∀ frame, m.refCount? frame = some 0 ∨ frame ∈ held → Unreferenced m frame) ∧
    (∀ frame m', (allocateFrame : Operation layout FatalError (Option Frame)) m =
      .ok (some frame) m' → Unreferenced m frame) ∧
    ∀ block < layout.kernelTables, ∀ console,
      m.memory.link block = (Manager.boot layout console).memory.link block ∧
      m.memory.page (kernelTable block) =
        (Manager.boot layout console).memory.page (kernelTable block) := by
  have sound := reachable.sound
  have books := sound.balanced
  refine ⟨?_, ?_, ?_, fun _ _ run => sound.unreferenced_of_allocated run,
    fun _ kernel console => sound.kernel_eq_boot kernel console⟩
  · intro block member present
    obtain ⟨task, once⟩ := books.linked block member present
    refine ⟨task, ?_, ?_, ?_⟩
    · rw [refCount?_eq task.pooled, once]
    · intro other apart points
      exact apart (sound.link_alone member present points.1 points.2)
    · intro place inside points
      exact books.leaf_ne_link member present inside points.1 points.2
  · intro place inside present
    have task := books.mapped place inside present
    exact ⟨task, m.pool.count (m.memory.leaf place).frame, refCount?_eq task.pooled,
      books.count_pos_of_leaf inside present, books.exclusive place inside present⟩
  · rintro frame (free | holds)
    · exact sound.unreferenced_of_free free
    · exact sound.unreferenced_of_held holds

/-- The first task table of the tiny machine is frame 162, and nothing else leads there. -/
theorem ownership_filled :
    (filled.memory.link 1).frame = ⟨162⟩ ∧ filled.refCount? ⟨162⟩ = some 1 ∧
      ∀ place ∈ Layout.tiny.taskPlaces, ¬ (filled.memory.leaf place).PointsAt ⟨162⟩ := by
  obtain ⟨tables, -⟩ := Reachable.ownership reachable_filled
  have frame : (filled.memory.link 1).frame = ⟨162⟩ := by decide +kernel
  have member : 1 ∈ Layout.tiny.taskBlocks := Layout.mem_taskBlocks.mpr (by decide)
  obtain ⟨-, count, -, leaves⟩ := tables 1 member (by decide +kernel)
  rw [frame] at count leaves
  exact ⟨frame, count, leaves⟩

/-- Counts are small, and every address can be looked up. -/
def Steady (m : Manager layout) : Prop :=
  (∀ frame, layout.IsTaskFrame frame →
    ∃ count ≤ entriesPerDirectory - layout.kernelTables, m.refCount? frame = some count) ∧
  ∀ addr, ∃ entry, lookup addr m = .ok entry m

theorem Manager.Sound.steady (sound : m.Sound held) : Steady m := by
  constructor
  · intro frame task
    exact ⟨_, sound.balanced.count_le task, refCount?_eq task.pooled⟩
  · intro addr
    exact ⟨_, Operation.bind_ok (Operation.attempt_ok (Operation.ask_ok (sound.walk_eq addr)))⟩

def Call.IsAccess : Call → Prop
  | .read .. | .write .. | .copyToUser .. | .verifyWrite .. | .verifyArea .. => True
  | _ => False

theorem Call.IsAccess.not_refuses {call : Call} (access : call.IsAccess) (m : Manager layout)
    (error : FatalError) : ¬ call.Refuses m error := by
  cases call with
  | read => exact id
  | write => exact id
  | copyToUser => exact id
  | verifyWrite => exact id
  | verifyArea => exact id
  | _ => exact access.elim

/-- Every fatal error is one that the call asked for, and none is a contradiction in the
bookkeeping. -/
theorem Reachable.no_internal_error (reachable : Reachable layout m held) {call : Call}
    (permitted : call.Permitted layout held) :
    (∀ frame, (call.perform m).1 ≠ .fatal (.doubleFree frame) ∧
      (call.perform m).1 ≠ .fatal (.nonexistentPage frame) ∧
      (call.perform m).1 ≠ .fatal (.countOverflow frame)) ∧
    (Steady m ∧ Steady (call.perform m).2) ∧
    (call.IsAccess → (call.perform m).1.isFatal = false) ∧
    (∀ addr, (call.perform m).1 = .fatal (.alreadyMapped addr) →
      (∃ frame writable, call = .map frame addr writable ∧
        (m.memory.leaf addr.place).isPresent = true) ∨
      (∃ pages top, call = .installArguments pages top ∧
        StopsAt pages.toList.reverse top m addr) ∨
      ∃ addr', call = .noPage addr' ∧ addr = addr'.truncPage ∧
        (m.memory.leaf addr.place).isPresent = true) ∧
    (∀ addr, (call.perform m).1 = .fatal (.notMapped addr) →
      call = .writeProtect addr ∧ (m.memory.leaf addr.place).isPresent = false) ∧
    (∀ block, (call.perform m).1 = .fatal (.alreadyExists block) →
      ∃ source target size,
        (call = .duplicate source target size ∨ call = .fork source target size) ∧
        Call.Occupied m source target size block) ∧
    ∀ start size, call = .release start size → start.isBlockAligned = true →
      (call.perform m).1 = .done := by
  have answered := reachable.sound.answered permitted
  obtain ⟨held', after⟩ := answered.sound
  refine ⟨?_, ⟨reachable.sound.steady, after.steady⟩, ?_, ?_, ?_, ?_, ?_⟩
  · intro frame
    refine ⟨?_, ?_, ?_⟩
    · intro fatal
      have refuses := answered.refused _ fatal
      cases call <;> exact refuses
    · intro fatal
      have refuses := answered.refused _ fatal
      cases call <;> exact refuses
    · intro fatal
      have refuses := answered.refused _ fatal
      cases call <;> exact refuses
  · intro access
    cases ends : (call.perform m).1 with
    | fatal error => exact (access.not_refuses m error (answered.refused error ends)).elim
    | _ => rfl
  · intro addr fatal
    have refuses := answered.refused _ fatal
    cases call with
    | map frame addr' writable =>
        obtain ⟨rfl, present⟩ := refuses
        exact Or.inl ⟨frame, writable, rfl, present⟩
    | installArguments pages top => exact Or.inr (Or.inl ⟨pages, top, rfl, refuses⟩)
    | noPage addr' =>
        obtain ⟨rfl, present⟩ := refuses
        refine Or.inr (Or.inr ⟨addr', rfl, rfl, ?_⟩)
        rw [LinearAddr.place_truncPage]
        exact present
    | _ => exact refuses.elim
  · intro addr fatal
    have refuses := answered.refused _ fatal
    cases call with
    | writeProtect addr' =>
        obtain ⟨rfl, absent⟩ := refuses
        exact ⟨rfl, absent⟩
    | _ => exact refuses.elim
  · intro block fatal
    have refuses := answered.refused _ fatal
    cases call with
    | duplicate source target size => exact ⟨source, target, size, Or.inl rfl, refuses⟩
    | fork source target size => exact ⟨source, target, size, Or.inr rfl, refuses⟩
    | _ => exact refuses.elim
  · rintro start size rfl aligned
    obtain ⟨m', run, -⟩ := reachable.sound.exists_release permitted aligned
    exact congrArg (fun result => (report Outcome.fatal (fun _ => .done) result).1) run

/-- Filling in the same page twice is the caller's mistake. -/
theorem no_internal_error_filled :
    ((Call.noPage firstPage).perform filled).1 = .fatal (.alreadyMapped firstPage) ∧
      (filled.memory.leaf firstPage.place).isPresent = true := by
  obtain ⟨-, -, -, mapped, -⟩ := Reachable.no_internal_error reachable_filled firstPage_permitted
  have fatal : ((Call.noPage firstPage).perform filled).1 = .fatal (.alreadyMapped firstPage) := by
    decide +kernel
  rcases mapped firstPage fatal with ⟨_, _, other, -⟩ | ⟨_, _, other, -⟩ | ⟨addr, -, -, present⟩
  · cases other
  · cases other
  · exact ⟨fatal, present⟩

end PagedMemory

import PagedMemory.Proofs.Guarantees

/-!
What a fatal error leaves behind. Every call but one fails before it takes a frame, or gives back
what it has taken, so the counts are as exact after the error as before the call. The exception is a
no-page fault on a page that is present: the frame that it takes for the page stays allocated, and
neither a table nor the caller has it.
-/

namespace PagedMemory

open Manager

variable {layout : Layout} {m m' : Manager layout} {held : Finset Frame}

namespace Call

section Kept

variable (sound : m.Sound held)

include sound

theorem kept_map {frame : Frame} {addr : LinearAddr} {writable : Bool} {error : FatalError}
    (permitted : (map frame addr writable).Permitted layout held)
    (fatal : ((map frame addr writable).perform m).1 = .fatal error) :
    ((map frame addr writable).perform m).2.Sound held := by
  rcases sound.mapFrame_cases permitted.1 permitted.2 writable with
    ⟨-, m', run, memory, pool⟩ | ⟨-, -, m', run, -⟩ | ⟨m', run, -⟩
  · rw [perform, run]
    exact sound.of_same memory pool
  · rw [perform, run] at fatal
    cases fatal
  · rw [perform, run] at fatal
    cases fatal

theorem kept_installArguments {pages : Vector (Option Frame) argumentPages} {top : LinearAddr}
    (permitted : (installArguments pages top).Permitted layout held) :
    ((installArguments pages top).perform m).2.Sound
      (leftBy pages.toList.reverse top m held) := by
  rcases sound.mapDownward_cases permitted with
    (⟨m', run, sound'⟩ | ⟨m', run, sound'⟩) | ⟨addr, m', run, sound', -⟩
  · rw [perform, Manager.installArguments, Operation.thenFlush_ok run]
    exact sound'
  · rw [perform, Manager.installArguments, Operation.thenFlush_error run]
    exact sound'
  · rw [perform, Manager.installArguments, Operation.thenFlush_error run]
    exact sound'

section Range

variable {source target : LinearAddr} {size : Nat} (within : layout.InTaskSpace source size)

include within

theorem kept_duplicate (within' : layout.InTaskSpace target size) :
    ((duplicate source target size).perform m).2.Sound held := by
  by_cases aligned : source.isBlockAligned = true ∧ target.isBlockAligned = true
  · rcases sound.duplicate_cases within within' aligned.1 aligned.2 with
      ⟨m', run, sound', -⟩ | ⟨m', run, sound', -⟩ | ⟨block, m', -, run, sound', -⟩
    · rw [perform, run]
      exact sound'
    · rw [perform, run]
      exact sound'
    · rw [perform, run]
      exact sound'
  · obtain ⟨addr, -, -, run⟩ := exists_duplicate_of_misaligned aligned size m
    rw [perform, run]
    exact sound

theorem kept_fork (within' : layout.InTaskSpace target size) :
    ((fork source target size).perform m).2.Sound held := by
  by_cases aligned : source.isBlockAligned = true ∧ target.isBlockAligned = true
  · rcases sound.fork_cases within within' aligned.1 aligned.2 with
      ⟨m', run, sound', -⟩ | ⟨m', run, sound', -⟩ | ⟨block, m', -, run, sound', -⟩
    · rw [perform, run]
      exact sound'
    · rw [perform, run]
      exact sound'
    · rw [perform, run]
      exact sound'
  · obtain ⟨addr, -, -, run⟩ := exists_fork_of_misaligned aligned size m
    rw [perform, run]
    exact sound

theorem kept_release : ((release source size).perform m).2.Sound held := by
  by_cases aligned : source.isBlockAligned = true
  · obtain ⟨m', run, sound', -⟩ := sound.exists_release within aligned
    rw [perform, run]
    exact sound'
  · rw [perform, release_of_misaligned (Bool.not_eq_true _ ▸ aligned) size m]
    exact sound

end Range

theorem kept_writeProtect {addr : LinearAddr} (task : layout.kernelTables ≤ addr.dirIndex) :
    ((writeProtect addr).perform m).2.Sound held := by
  rcases sound.resolveWriteProtect_cases task with
    ⟨-, m', run, memory, pool⟩ | ⟨-, ⟨m', run, memory, pool⟩ | ⟨resolution, m', -, run, opened⟩⟩
  · rw [perform, run]
    exact sound.of_same memory pool
  · rw [perform, run]
    exact sound.of_same memory pool
  · rw [perform, run]
    exact opened.sound

/-- Only a no-page fault can fail with a frame in its hands. -/
theorem kept_of_fatal {call : Call} (permitted : call.Permitted layout held) {error : FatalError}
    (fatal : (call.perform m).1 = .fatal error) (other : ∀ addr, call ≠ .noPage addr) :
    (call.perform m).2.Sound (call.heldAfter m held (.fatal error)) := by
  have refused := (sound.answered permitted).refused error fatal
  cases call with
  | map => exact kept_map sound permitted fatal
  | installArguments => exact kept_installArguments sound permitted
  | duplicate => exact kept_duplicate sound permitted.1 permitted.2
  | fork => exact kept_fork sound permitted.1 permitted.2
  | release => exact kept_release sound permitted
  | writeProtect => exact kept_writeProtect sound permitted
  | noPage addr => exact absurd rfl (other addr)
  | _ => exact refused.elim

theorem exists_taken_of_fatal {addr : LinearAddr} (task : layout.kernelTables ≤ addr.dirIndex)
    {error : FatalError} (fatal : ((noPage addr).perform m).1 = .fatal error) :
    ∃ frame, Allocated m ((noPage addr).perform m).2 held frame := by
  rcases sound.resolveNoPage_ends task with
    ⟨m', run, -⟩ | ⟨-, frame, m', run, taken⟩ | ⟨frame, m', run, -⟩
  · rw [perform, run] at fatal
    cases fatal
  · refine ⟨frame, ?_⟩
    rw [perform, run]
    exact taken
  · rw [perform, run] at fatal
    cases fatal

end Kept

end Call

/-- After a fatal error the counts are exact, unless the call was a no-page fault. Then a frame that
was free is counted once although nothing refers to it, and it is not one that the caller holds. -/
theorem Reachable.counts_after_fatal (reachable : Reachable layout m held) {call : Call}
    (permitted : call.Permitted layout held) {error : FatalError}
    (fatal : (call.perform m).1 = .fatal error) :
    ((∀ addr, call ≠ .noPage addr) →
      (call.perform m).2.CountsExact (call.heldAfter m held (.fatal error))) ∧
    ∀ addr, call = .noPage addr → call.heldAfter m held (.fatal error) = held ∧
      ∃ frame, layout.IsTaskFrame frame ∧ frame ∉ held ∧ m.refCount? frame = some 0 ∧
        (call.perform m).2.refCount? frame = some 1 ∧
        (call.perform m).2.referenceCount frame = 0 ∧
        (call.perform m).2.CountsExact (insert frame held) := by
  have sound := reachable.sound
  constructor
  · intro other
    exact (Call.kept_of_fatal sound permitted fatal other).countsExact
  · rintro addr rfl
    obtain ⟨frame, taken⟩ := Call.exists_taken_of_fatal sound permitted fatal
    have holds := Finset.mem_insert_self frame held
    obtain ⟨task, once⟩ := taken.sound.balanced.owned frame holds
    refine ⟨rfl, frame, task, taken.fresh, ?_, ?_, taken.sound.referenceCount_of_held holds,
      taken.sound.countsExact⟩
    · rw [refCount?_eq task.pooled, taken.free]
    · rw [refCount?_eq task.pooled, once]

theorem fatal_filled :
    ((Call.noPage firstPage).perform filled).1 = .fatal (.alreadyMapped firstPage) := by
  decide +kernel

/-- A second no-page fault on the first page of the tiny machine takes frame 161 out of use. -/
theorem counts_after_fatal_filled :
    filled.refCount? ⟨161⟩ = some 0 ∧
      ((Call.noPage firstPage).perform filled).2.refCount? ⟨161⟩ = some 1 ∧
      ((Call.noPage firstPage).perform filled).2.referenceCount ⟨161⟩ = 0 := by
  obtain ⟨-, frame, ⟨low, high⟩, -, free, taken, unreferenced, -⟩ :=
    (Reachable.counts_after_fatal reachable_filled firstPage_permitted fatal_filled).2 firstPage rfl
  have other : ((Call.noPage firstPage).perform filled).2.refCount? ⟨160⟩ = some 0 := by
    decide +kernel
  have table : filled.refCount? ⟨162⟩ = some 1 := by decide +kernel
  have page : filled.refCount? ⟨163⟩ = some 1 := by decide +kernel
  obtain ⟨number⟩ := frame
  have cases : number = 160 ∨ number = 161 ∨ number = 162 ∨ number = 163 := by
    have first : Layout.tiny.bufferEnd / pageSize = 160 := by decide
    have total : Layout.tiny.totalFrames = 164 := by decide
    simp only [first, total] at low high
    omega
  rcases cases with rfl | rfl | rfl | rfl
  · cases other.symm.trans taken
  · exact ⟨free, taken, unreferenced⟩
  · cases table.symm.trans free
  · cases page.symm.trans free

theorem not_counts_exact_after_fatal : ¬ ∀ (layout : Layout) (m : Manager layout)
    (held : Finset Frame) (call : Call) (error : FatalError), Reachable layout m held →
      call.Permitted layout held → (call.perform m).1 = .fatal error →
      ∀ frame, layout.IsTaskFrame frame → (call.perform m).2.refCount? frame =
        some ((call.perform m).2.referenceCount frame +
          if frame ∈ call.heldAfter m held (.fatal error) then 1 else 0) := by
  intro exact
  obtain ⟨frame, taken⟩ := Call.exists_taken_of_fatal reachable_filled.sound firstPage_permitted
    fatal_filled
  have holds := Finset.mem_insert_self frame ∅
  obtain ⟨task, once⟩ := taken.sound.balanced.owned frame holds
  have claimed := exact .tiny filled ∅ (.noPage firstPage) _ reachable_filled firstPage_permitted
    fatal_filled frame task
  rw [refCount?_eq task.pooled, once, taken.sound.referenceCount_of_held holds] at claimed
  cases claimed

end PagedMemory

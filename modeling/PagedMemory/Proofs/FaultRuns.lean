import Mathlib.Data.Finset.Max
import PagedMemory.Proofs.KernelFaults

/-!
Runs of faults on any address. In task space they leave the books balanced. A frame that a fault
puts behind a page of the kernel, in the place of the page's own, is a stray: it is counted once and
no table of a task refers to it, so the audit, which leaves the kernel's tables out, stops there.
-/

namespace PagedMemory

open Manager

/-- Runs of faults from the start, none of which ends in a fatal error. The history says what each
resolved to, the last one first. -/
inductive FaultRun (layout : Layout) : Manager layout → List (LinearAddr × Resolution) → Prop
  | boot (console : Console) : FaultRun layout (boot layout console) []
  | step {m m' : Manager layout} {history : List (LinearAddr × Resolution)}
      {resolution : Resolution} (code : FaultCode) (addr : LinearAddr)
      (before : FaultRun layout m history) (run : resolveFault code addr m = .ok resolution m') :
      FaultRun layout m' ((addr, resolution) :: history)

/-- The frame that a fault has put behind a page of the kernel's tables, unless it is the one of the
page's own number. -/
def strayFrame (layout : Layout) (event : LinearAddr × Resolution) : Option Frame :=
  if event.1.dirIndex < layout.kernelTables then
    event.2.frame?.filter fun frame => frame ≠ ⟨event.1.toNat / pageSize⟩
  else none

def strays (layout : Layout) (history : List (LinearAddr × Resolution)) : Finset Frame :=
  (history.filterMap (strayFrame layout)).toFinset

variable {layout : Layout} {m m' : Manager layout} {held : Finset Frame} {addr : LinearAddr}
  {resolution : Resolution} {history : List (LinearAddr × Resolution)} {frame : Frame}

theorem strays_cons_of_none (none : strayFrame layout (addr, resolution) = .none) :
    strays layout ((addr, resolution) :: history) = strays layout history := by
  rw [strays, List.filterMap_cons_none none, strays]

theorem strays_cons_of_some (some : strayFrame layout (addr, resolution) = .some frame) :
    strays layout ((addr, resolution) :: history) = insert frame (strays layout history) := by
  rw [strays, List.filterMap_cons_some some, List.toFinset_cons, strays]

theorem strayFrame_eq_none
    (harmless : layout.kernelTables ≤ addr.dirIndex ∨ resolution.frame? = none ∨
      resolution.frame? = some (identityFrame addr.place)) :
    strayFrame layout (addr, resolution) = none := by
  rw [strayFrame]
  rcases harmless with task | unchanged | own
  · rw [if_neg (Nat.not_lt.mpr task)]
  · rw [unchanged, Option.filter_none, ite_self]
  · rw [own, identityFrame_place]
    simp

theorem strayFrame_eq_some (kernel : addr.dirIndex < layout.kernelTables)
    (given : resolution.frame? = some frame) (apart : frame ≠ identityFrame addr.place) :
    strayFrame layout (addr, resolution) = some frame := by
  rw [identityFrame_place] at apart
  rw [strayFrame, if_pos kernel, given]
  simp [apart]

theorem Manager.Shadowed.step {g : Manager layout} {tables : Frame → Page} {cache : Frame → Nat}
    (shadowed : Shadowed m g tables cache (strays layout history)) {code : FaultCode}
    (run : resolveFault code addr m = .ok resolution m') :
    ∃ g' tables' cache',
      Shadowed m' g' tables' cache' (strays layout ((addr, resolution) :: history)) := by
  by_cases kernel : addr.dirIndex < layout.kernelTables
  · have resolved : Shadowed.Resolved m' (strays layout history) addr resolution := by
      rw [resolveFault] at run
      split at run
      · exact shadowed.exists_writeProtect kernel run
      · exact shadowed.exists_noPage kernel run
    rcases resolved with ⟨g', tables', cache', harmless, shadowed'⟩ |
      ⟨frame, g', tables', cache', given, apart, shadowed'⟩
    · rw [strays_cons_of_none (strayFrame_eq_none (Or.inr harmless))]
      exact ⟨g', tables', cache', shadowed'⟩
    · rw [strays_cons_of_some (strayFrame_eq_some kernel given apart)]
      exact ⟨g', tables', cache', shadowed'⟩
  · have task := Nat.le_of_not_lt kernel
    obtain ⟨g', shadowed'⟩ := shadowed.exists_task task run
    rw [strays_cons_of_none (strayFrame_eq_none (Or.inl task))]
    exact ⟨g', tables, cache, shadowed'⟩

theorem shadowed_boot (layout : Layout) (console : Console) :
    Shadowed (boot layout console) (boot layout console) (boot layout console).memory.page
      (fun _ => bufferCount) ∅ := by
  have sound := sound_boot layout console
  have entries {place : Nat × Nat} (kernel : place.1 < layout.kernelTables) :
      kernelEntry (boot layout console).memory.page place =
        (boot layout console).memory.leaf place := by
    rw [PhysicalMemory.leaf_of_present place (sound.present_of_kernel kernel),
      sound.frame_link_of_kernel kernel]
    rfl
  refine ⟨⟨fun _ => (ite_self _).symm, ?_, ?_⟩, sound, ?_, ?_, ?_, fun _ _ _ _ _ => rfl⟩
  · intro frame
    by_cases cached : layout.IsCached frame
    · rw [if_pos cached, sound.balanced.cached frame cached]
    · rw [if_neg cached]
  · intro frame cached
    rw [sound.balanced.cached frame cached]
    exact ⟨by decide, by decide⟩
  · intro place inside mapped
    have linked := PhysicalMemory.link_present_of_leaf mapped
    rw [link_boot_of_task (Layout.mem_taskPlaces.mp inside).1] at linked
    cases linked
  · intro place kernel bound inside
    rw [entries kernel, sound.leaf_of_kernel kernel, if_pos ⟨bound, inside⟩]
    exact Entry.isPresent_new _ _
  · intro place kernel bound mapped
    rw [entries kernel, sound.leaf_of_kernel kernel] at mapped ⊢
    split at mapped
    · rename_i both
      rw [if_pos both]
      have own : (identityFrame place).number < layout.totalFrames := both.2
      exact Or.inr ⟨Entry.frame_new_of_lt own _, own⟩
    · cases mapped

theorem FaultRun.exists_shadowed (run : FaultRun layout m history) :
    ∃ g tables cache, Shadowed m g tables cache (strays layout history) := by
  induction run with
  | boot console => exact ⟨_, _, _, shadowed_boot layout console⟩
  | step _ _ _ run ih =>
      obtain ⟨g, tables, cache, shadowed⟩ := ih
      exact shadowed.step run

theorem FaultRun.audit_of_stray (run : FaultRun layout m history)
    (stray : frame ∈ strays layout history)
    (least : ∀ other ∈ strays layout history, frame.number ≤ other.number) :
    m.audit = .error (.countMismatch frame 0 1) := by
  obtain ⟨g, tables, cache, shadowed⟩ := run.exists_shadowed
  rw [shadowed.overlaid.audit_eq shadowed.sound]
  exact shadowed.sound.audit_of_held stray least

/-- The audit succeeds after a run of faults just when none of them has put another frame behind a
page of the kernel than the page's own. Otherwise it names the first such frame. The counts of task
frames are the references of tasks in any case, and one more for such a frame. -/
theorem FaultRun.audit_iff (run : FaultRun layout m history) :
    (m.audit = .ok () ↔ strays layout history = ∅) ∧
    (∀ frame ∈ strays layout history,
      (∀ other ∈ strays layout history, frame.number ≤ other.number) →
      m.audit = .error (.countMismatch frame 0 1)) ∧
    ∀ frame, layout.IsTaskFrame frame → m.refCount? frame =
      some ((linksTo layout m.memory.link frame).card +
        (leavesTo layout m.memory.leaf frame).card +
        if frame ∈ strays layout history then 1 else 0) := by
  obtain ⟨g, tables, cache, shadowed⟩ := run.exists_shadowed
  have sound := shadowed.sound
  refine ⟨?_, fun frame stray least => run.audit_of_stray stray least, ?_⟩
  · constructor
    · intro succeeds
      by_contra some
      obtain ⟨frame, stray, least⟩ := Finset.exists_min_image (strays layout history) Frame.number
        (Finset.nonempty_iff_ne_empty.mpr some)
      cases succeeds.symm.trans (run.audit_of_stray stray least)
    · intro none
      -- without strays nothing is held in the balanced books, so their audit succeeds
      rw [none] at sound
      rw [shadowed.overlaid.audit_eq sound]
      exact sound.audit_eq
  · intro frame task
    have leaves : leavesTo layout m.memory.leaf frame = leavesTo layout g.memory.leaf frame := by
      apply Finset.filter_congr
      intro place inside
      have above := (Layout.mem_taskBlocks.mp (Layout.mem_taskPlaces.mp inside).1).1
      rw [shadowed.overlaid.leaf_of_task sound above]
    rw [refCount?_eq task.pooled, shadowed.overlaid.count_eq task.not_cached,
      sound.balanced.counted frame task, leaves, shadowed.overlaid.link]

theorem FaultRun.step_writeProtect (before : FaultRun layout m history)
    (ends : ((Call.writeProtect addr).perform m).1 = .resolved resolution) :
    FaultRun layout ((Call.writeProtect addr).perform m).2 ((addr, resolution) :: history) :=
  before.step ⟨true, true, true⟩ addr (eq_of_report_resolved ends)

theorem FaultRun.step_noPage (before : FaultRun layout m history)
    (ends : ((Call.noPage addr).perform m).1 = .resolved resolution) :
    FaultRun layout ((Call.noPage addr).perform m).2 ((addr, resolution) :: history) :=
  before.step ⟨false, true, true⟩ addr (eq_of_report_resolved ends)

def trespassed : Manager .tiny := ((Call.writeProtect (LinearAddr.ofNat 0)).perform filled).2

theorem faultRun_trespassed : FaultRun .tiny trespassed
    [(LinearAddr.ofNat 0, .copied ⟨161⟩), (firstPage, .zeroFilled ⟨163⟩)] :=
  ((FaultRun.boot .empty).step_noPage (by decide +kernel)).step_writeProtect (by decide +kernel)

theorem strays_trespassed : strays .tiny
    [(LinearAddr.ofNat 0, .copied ⟨161⟩), (firstPage, .zeroFilled ⟨163⟩)] = {⟨161⟩} := by
  decide +kernel

/-- The copy of the page directory is counted once, and no table of a task refers to it. -/
theorem audit_iff_trespassed : trespassed.audit = .error (.countMismatch ⟨161⟩ 0 1) ∧
    trespassed.refCount? ⟨161⟩ = some 1 ∧
    (leavesTo .tiny trespassed.memory.leaf ⟨161⟩).card = 0 := by
  obtain ⟨-, fails, counts⟩ := FaultRun.audit_iff faultRun_trespassed
  rw [strays_trespassed] at fails counts
  have count := counts ⟨161⟩ (by decide)
  have once : trespassed.refCount? ⟨161⟩ = some 1 := by decide +kernel
  rw [once, if_pos (Finset.mem_singleton_self _)] at count
  have sum := Option.some.inj count
  exact ⟨fails _ (Finset.mem_singleton_self _) (by decide), once, by omega⟩

/-- A task that writes to a page of the kernel gets a copy, which the audit does not expect. -/
theorem audit_fails_trespassed :
    ¬ ∀ (layout : Layout) (m : Manager layout) (history : List (LinearAddr × Resolution)),
      FaultRun layout m history → m.audit = .ok () := by
  intro claim
  have stray : (⟨161⟩ : Frame) ∈ strays .tiny
      [(LinearAddr.ofNat 0, .copied ⟨161⟩), (firstPage, .zeroFilled ⟨163⟩)] := by
    rw [strays_trespassed]
    exact Finset.mem_singleton_self _
  have fails := faultRun_trespassed.audit_of_stray stray (by rw [strays_trespassed]; decide)
  cases (claim _ _ _ faultRun_trespassed).symm.trans fails

end PagedMemory

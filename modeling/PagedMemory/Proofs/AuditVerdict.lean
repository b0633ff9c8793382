import PagedMemory.Proofs.Guarantees

/-!
The audit on its own. It needs no sound manager: whatever words the tables hold and whatever the
counts are, it compares the two, as long as it can read the tables that are linked. A table may even
map itself, as that of `knotted` does.
-/

namespace PagedMemory

open Manager

variable {layout : Layout}

theorem Manager.miscounted_iff {m : Manager layout} {frame : Frame} :
    m.Miscounted frame ↔ layout.IsTaskFrame frame ∧
      m.refCount? frame ≠ some (m.referenceCount frame) ∧
      ∀ lower, layout.IsTaskFrame lower → lower.number < frame.number →
        m.refCount? lower = some (m.referenceCount lower) := by
  refine and_congr_right fun task => and_congr ?_ ?_
  · rw [refCount?_eq task.pooled, ne_eq, ne_eq, Option.some_inj]
  · refine forall_congr' fun lower => forall_congr' fun task' => imp_congr_right fun _ => ?_
    rw [refCount?_eq task'.pooled, Option.some_inj]

/-- The audit succeeds just when every task frame is counted as often as tables refer to it.
Otherwise it names the lowest frame that is not, with the number of references and the count. -/
theorem Manager.audit_verdict (m : Manager layout)
    (inside : ∀ block ∈ layout.taskBlocks, (m.memory.link block).isPresent = true →
      (m.memory.link block).frame.number < layout.totalFrames)
    (small : ∀ frame, layout.IsTaskFrame frame → m.referenceCount frame ≤ maxCount) :
    (m.audit = .ok () ↔ ∀ frame, layout.IsTaskFrame frame →
      m.refCount? frame = some (m.referenceCount frame)) ∧
    ∀ error, m.audit = .error error ↔ ∃ frame count, layout.IsTaskFrame frame ∧
      m.refCount? frame = some count ∧ count ≠ m.referenceCount frame ∧
      (∀ lower, layout.IsTaskFrame lower → lower.number < frame.number →
        m.refCount? lower = some (m.referenceCount lower)) ∧
      error = .countMismatch frame (m.referenceCount frame) count := by
  constructor
  · rw [audit_eq_ok_iff small inside]
    refine forall_congr' fun frame => forall_congr' fun task => ?_
    rw [refCount?_eq task.pooled, Option.some_inj]
  · intro error
    rw [audit_eq_error_iff small inside]
    constructor
    · rintro ⟨frame, wrong, rfl⟩
      obtain ⟨task, -, below⟩ := miscounted_iff.mp wrong
      exact ⟨frame, _, task, refCount?_eq task.pooled, wrong.2.1, below, rfl⟩
    · rintro ⟨frame, count, task, counted, differs, below, rfl⟩
      have recorded := Option.some.inj ((refCount?_eq task.pooled).symm.trans counted)
      refine ⟨frame, miscounted_iff.mpr ⟨task, ?_, below⟩, by rw [recorded]⟩
      rw [counted]
      exact fun same => differs (Option.some.inj same)

theorem PhysicalMemory.link_blank (frames : Nat) : (blank frames).link = fun _ => .empty := by
  funext block
  rw [link, page_blank, Page.word_zero]
  rfl

theorem PhysicalMemory.leaf_blank (frames : Nat) : (blank frames).leaf = fun _ => .empty := by
  funext place
  apply leaf_of_absent
  rw [link_blank]
  exact Entry.isPresent_empty

def knot : Entry := Entry.new ⟨160⟩ .userWritable

theorem knot_pointsAt_iff {frame : Frame} : knot.PointsAt frame ↔ frame = ⟨160⟩ := by
  have present : knot.isPresent = true := by decide
  have target : knot.frame = ⟨160⟩ := by decide
  rw [Entry.PointsAt, target, and_iff_right present]
  exact eq_comm

/-- Frame 160 is linked as a table, and maps itself. -/
def knottedMemory : PhysicalMemory Layout.tiny.totalFrames :=
  ((PhysicalMemory.blank _).setLink 1 knot).setLeaf (1, 0) knot

def knotted : Manager .tiny := { boot .tiny .empty with memory := knottedMemory }

theorem tables_knottedMemory :
    knottedMemory.link = Function.update (fun _ => .empty) 1 knot ∧
      knottedMemory.leaf = Function.update (fun _ => .empty) (1, 0) knot := by
  let linked : PhysicalMemory Layout.tiny.totalFrames := (PhysicalMemory.blank _).setLink 1 knot
  have links : linked.link = Function.update (fun _ => .empty) 1 knot := by
    rw [← PhysicalMemory.link_blank Layout.tiny.totalFrames]
    exact PhysicalMemory.link_setLink knot (by decide) (by decide)
  have leaves : linked.leaf = fun _ => .empty := by
    rw [← PhysicalMemory.leaf_blank Layout.tiny.totalFrames]
    apply PhysicalMemory.leaf_setLink_of_blank (by decide) (by decide)
    · intro other present
      rw [PhysicalMemory.link_blank] at present
      cases present
    · rw [PhysicalMemory.link_blank]
      exact Entry.isPresent_empty
    · exact PhysicalMemory.page_blank _
    · decide
  have table : linked.link 1 = knot := by
    rw [links, Function.update_self]
  have outside : (linked.link 1).frame ≠ pageDirectory := by
    rw [table]
    decide
  constructor
  · rw [← links]
    apply PhysicalMemory.link_setLeaf
    exact outside
  · rw [← leaves]
    apply PhysicalMemory.leaf_setLeaf knot
    · rw [table]
      decide
    · decide
    · rw [table]
      decide
    · exact outside
    · intro other present _
      by_contra apart
      rw [links, Function.update_of_ne apart] at present
      cases present

theorem card_references_knot (member : 1 ∈ layout.taskBlocks) (frame : Frame) :
    (linksTo layout (Function.update (fun _ => .empty) 1 knot) frame).card +
        (leavesTo layout (Function.update (fun _ => .empty) (1, 0) knot) frame).card =
      if frame = ⟨160⟩ then 2 else 0 := by
  have inside : (1, 0) ∈ layout.taskPlaces := Layout.mem_taskPlaces.mpr ⟨member, by decide⟩
  have unlinked : linksTo layout (fun _ => .empty) frame = ∅ :=
    Finset.filter_false_of_mem fun _ _ => Entry.not_pointsAt_of_absent rfl frame
  have unmapped : leavesTo layout (fun _ => .empty) frame = ∅ :=
    Finset.filter_false_of_mem fun _ _ => Entry.not_pointsAt_of_absent rfl frame
  have links := card_linksTo_update (fun _ => .empty) frame member knot
  have leaves := card_leavesTo_update (fun _ => .empty) frame inside knot
  have absent := Entry.not_pointsAt_of_absent Entry.isPresent_empty frame
  rw [if_neg absent, unlinked, Finset.card_empty, if_congr knot_pointsAt_iff rfl rfl] at links
  rw [if_neg absent, unmapped, Finset.card_empty, if_congr knot_pointsAt_iff rfl rfl] at leaves
  by_cases here : frame = ⟨160⟩
  · rw [if_pos here] at links leaves ⊢
    omega
  · rw [if_neg here] at links leaves ⊢
    omega

theorem referenceCount_knotted (frame : Frame) :
    knotted.referenceCount frame = if frame = ⟨160⟩ then 2 else 0 := by
  have tables : knotted.memory = knottedMemory := rfl
  rw [referenceCount, tables, tables_knottedMemory.1, tables_knottedMemory.2]
  exact card_references_knot (Layout.mem_taskBlocks.mpr (by decide)) frame

/-- The audit finds two references to a frame that is free: the link, and the table itself. -/
theorem audit_verdict_knotted :
    (∀ block ∈ Layout.tiny.taskBlocks, (knotted.memory.link block).isPresent = true →
      (knotted.memory.link block).frame.number < Layout.tiny.totalFrames) ∧
    (∀ frame, Layout.tiny.IsTaskFrame frame → knotted.referenceCount frame ≤ maxCount) ∧
    knotted.audit = .error (.countMismatch ⟨160⟩ 2 0) := by
  have inside : ∀ block ∈ Layout.tiny.taskBlocks, (knotted.memory.link block).isPresent = true →
      (knotted.memory.link block).frame.number < Layout.tiny.totalFrames := by
    intro block _ present
    have tables : knotted.memory = knottedMemory := rfl
    rw [tables, tables_knottedMemory.1] at present ⊢
    by_cases first : block = 1
    · rw [first, Function.update_self]
      decide
    · rw [Function.update_of_ne first] at present
      cases present
  have small (frame : Frame) (_ : Layout.tiny.IsTaskFrame frame) :
      knotted.referenceCount frame ≤ maxCount := by
    rw [referenceCount_knotted, maxCount]
    split <;> omega
  refine ⟨inside, small, ?_⟩
  rw [(Manager.audit_verdict knotted inside small).2]
  refine ⟨⟨160⟩, 0, by decide, by decide +kernel, ?_, ?_, ?_⟩
  · rw [referenceCount_knotted]
    decide
  · intro lower task below
    have lowest : 160 ≤ lower.number := task.1
    exact absurd below (Nat.not_lt.mpr lowest)
  · rw [referenceCount_knotted]
    rfl

end PagedMemory

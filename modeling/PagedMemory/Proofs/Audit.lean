import Mathlib.Algebra.BigOperators.Group.Finset.Sigma
import PagedMemory.Audit
import PagedMemory.Proofs.Primitives

/-!
The audit against the books. It counts every frame as often as links and leaves point at it
(`count_references`), so it names the lowest frame whose count is another number, whatever the
tables and counts are. It finds nothing wrong as long as the books are balanced and the caller
holds no frame.
-/

namespace PagedMemory

namespace PhysicalMemory

variable {frames : Nat} (memory : PhysicalMemory frames)

def leavesIn (block : Nat) : List Entry :=
  ((List.range entriesPerTable).map fun index => memory.leaf (block, index)).filter Entry.isPresent

def referencesIn (block : Nat) : List Frame :=
  if (memory.link block).isPresent then
    (memory.link block).frame :: (memory.leavesIn block).map Entry.frame
  else []

theorem countP_eq_sum (entries : Nat → Entry) (bound : Nat) (frame : Frame) :
    (((List.range bound).map entries).filter Entry.isPresent |>.map Entry.frame).count frame =
      ∑ index ∈ Finset.range bound, if (entries index).PointsAt frame then 1 else 0 := by
  induction bound with
  | zero => rfl
  | succ bound ih =>
      rw [List.range_succ, List.map_append, List.filter_append, List.map_append, List.count_append,
        ih, Finset.sum_range_succ]
      congr 1
      simp only [List.map_cons, List.map_nil, List.filter_cons, List.filter_nil, Entry.PointsAt]
      by_cases present : (entries bound).isPresent = true
      · simp only [present, if_true, true_and, List.map_cons, List.map_nil, List.count_singleton,
          beq_iff_eq]
      · simp only [present, false_and, if_false, Bool.false_eq_true, List.map_nil, List.count_nil]

theorem count_referencesIn (block : Nat) (frame : Frame) :
    (memory.referencesIn block).count frame =
      (if (memory.link block).PointsAt frame then 1 else 0) +
        ∑ index ∈ Finset.range entriesPerTable,
          if (memory.leaf (block, index)).PointsAt frame then 1 else 0 := by
  rw [referencesIn]
  by_cases present : (memory.link block).isPresent = true
  · have leaves := countP_eq_sum (fun index => memory.leaf (block, index)) entriesPerTable frame
    have table : (memory.link block).PointsAt frame ↔
        ((memory.link block).frame == frame) = true := by
      rw [Entry.PointsAt, beq_iff_eq]
      exact and_iff_right present
    rw [if_pos present, List.count_cons, leavesIn, leaves, Nat.add_comm, if_congr table rfl rfl]
  · have none : ∀ index, ¬ (memory.leaf (block, index)).PointsAt frame :=
      fun index points => present (link_present_of_leaf points.1)
    rw [if_neg present, if_neg (fun points => present points.1), List.count_nil,
      Finset.sum_eq_zero fun index _ => if_neg (none index), Nat.add_zero]

end PhysicalMemory

namespace Manager

variable {layout : Layout} {m : Manager layout} {held : Finset Frame}

def taskRange (layout : Layout) : List Nat :=
  List.range' layout.kernelTables (entriesPerDirectory - layout.kernelTables)

theorem mem_taskRange {block : Nat} : block ∈ taskRange layout ↔ block ∈ layout.taskBlocks := by
  have kernel := layout.kernelTables_lt_entriesPerDirectory
  rw [taskRange, List.mem_range'_1, Layout.mem_taskBlocks, Nat.add_sub_of_le (Nat.le_of_lt kernel)]

theorem mapM_eq_ok {ε α β : Type} {question : α → Except ε β} {answer : α → β} {items : List α}
    (each : ∀ item ∈ items, question item = .ok (answer item)) :
    items.mapM question = .ok (items.map answer) := by
  induction items with
  | nil => rfl
  | cons item items ih =>
      have rest := ih fun other member => each other (List.mem_cons_of_mem item member)
      rw [List.mapM_cons, each item List.mem_cons_self, rest]
      rfl

section Inside

variable (inside : ∀ block ∈ layout.taskBlocks, (m.memory.link block).isPresent = true →
  (m.memory.link block).frame.number < layout.totalFrames)

include inside

theorem taskTable?_of_inside {block : Nat} (member : block ∈ layout.taskBlocks) :
    m.taskTable? block = .ok (if (m.memory.link block).isPresent then
      some ⟨block, (m.memory.link block).frame, m.memory.leavesIn block⟩ else none) := by
  rw [taskTable?, dirEntry_eq]
  by_cases present : (m.memory.link block).isPresent = true
  · have entries : (fun index => m.entryAt ⟨(m.memory.link block).frame, index⟩) =
        fun index => pure (m.memory.leaf (block, index)) := by
      funext index
      exact entryAt_of_inside (block, index) present (inside block member present)
    have leaves : m.leavesOf (m.memory.link block).frame = .ok (m.memory.leavesIn block) := by
      rw [leavesOf, entries, List.mapM_pure]
      rfl
    rw [if_pos present]
    change (if (m.memory.link block).isPresent then _ else _) = _
    rw [if_pos present, leaves]
    rfl
  · rw [if_neg present]
    change (if (m.memory.link block).isPresent then _ else _) = _
    rw [if_neg present]
    rfl

theorem references_of_inside :
    m.references = .ok ((taskRange layout).flatMap m.memory.referencesIn) := by
  have tables : m.taskTables = .ok (((taskRange layout).map fun block =>
      if (m.memory.link block).isPresent then
        some (⟨block, (m.memory.link block).frame, m.memory.leavesIn block⟩ : TaskTable)
      else none).filterMap id) := by
    have each := mapM_eq_ok fun block (member : block ∈ taskRange layout) =>
      taskTable?_of_inside inside (mem_taskRange.mp member)
    rw [taskTables, ← taskRange, each]
    rfl
  rw [references, tables]
  change Except.ok _ = _
  congr 1
  generalize taskRange layout = blocks
  induction blocks with
  | nil => rfl
  | cons block blocks ih =>
      rw [List.map_cons, List.flatMap_cons, ← ih, PhysicalMemory.referencesIn]
      by_cases present : (m.memory.link block).isPresent = true
      · rw [if_pos present, if_pos present]
        simp only [List.filterMap_cons, id, List.flatMap_cons]
      · rw [if_neg present, if_neg present]
        simp only [List.filterMap_cons, id, List.nil_append]

end Inside

theorem Sound.references_eq (sound : m.Sound held) :
    m.references = .ok ((taskRange layout).flatMap m.memory.referencesIn) :=
  references_of_inside fun _ _ => sound.link_inside

theorem audit_congr {other : Manager layout} (references : m.references = other.references)
    (counts : ∀ i : Fin layout.poolFrames, layout.bufferFrames ≤ i.val →
      m.pool.counts.get i = other.pool.counts.get i) : m.audit = other.audit := by
  have mismatch (expected : Vector Nat layout.poolFrames) :
      m.firstMismatch expected = other.firstMismatch expected := by
    rw [firstMismatch, firstMismatch]
    congr 1
    funext i
    by_cases above : layout.bufferFrames ≤ i.val
    · rw [counts i above]
    · simp only [above, decide_false, Bool.false_and]
  simp only [audit, references]
  cases other.references with
  | error error => rfl
  | ok frames =>
      simp only [bind, Except.bind, mismatch]
      cases found : other.firstMismatch (tally layout frames) with
      | none => rfl
      | some i =>
          have differs := List.find?_some found
          have above : layout.bufferFrames ≤ i.val :=
            of_decide_eq_true (Bool.and_eq_true_iff.mp differs).1
          simp only [counts i above]

theorem count_references (m : Manager layout) (frame : Frame) :
    ((taskRange layout).flatMap m.memory.referencesIn).count frame =
      (linksTo layout m.memory.link frame).card +
        (leavesTo layout m.memory.leaf frame).card := by
  have blocks : ((taskRange layout).map
      (List.count frame ∘ m.memory.referencesIn)).sum =
        ∑ block ∈ layout.taskBlocks, (m.memory.referencesIn block).count frame := by
    rw [Layout.taskBlocks, Nat.Ico_eq_range']
    rfl
  rw [List.count_flatMap, blocks, linksTo, leavesTo, Layout.taskPlaces, Finset.card_filter,
    Finset.card_filter, Finset.sum_product, ← Finset.sum_add_distrib]
  apply Finset.sum_congr rfl
  intro block _
  exact m.memory.count_referencesIn block frame

theorem get_tallyOne (counts : Vector Nat layout.poolFrames) (frame : Frame)
    (i : Fin layout.poolFrames) : (tallyOne counts frame).get i =
      counts.get i + if frame == FramePool.frameAt i then 1 else 0 := by
  by_cases pooled : layout.IsPooled frame
  · obtain ⟨j, rfl⟩ := FramePool.exists_place pooled
    rw [tallyOne, FramePool.place_frameAt]
    by_cases same : j = i
    · subst same
      rw [if_pos (beq_self_eq_true _)]
      exact Vector.getElem_setIfInBounds_self j.isLt
    · have apart : ¬ (FramePool.frameAt j == FramePool.frameAt i) = true := by
        rw [beq_iff_eq]
        exact fun equal => same (FramePool.frameAt_inj equal)
      rw [if_neg apart]
      exact Vector.getElem_setIfInBounds_ne i.isLt fun equal => same (Fin.ext equal)
  · have apart : ¬ (frame == FramePool.frameAt i) = true := by
      rw [beq_iff_eq]
      rintro rfl
      exact pooled (FramePool.pooled_frameAt i)
    have skip : tallyOne counts frame = counts := by
      rw [tallyOne]
      rcases FramePool.place_outside pooled with ⟨-, none⟩ | ⟨-, refused⟩
      · rw [none]
      · rw [refused]
    rw [skip, if_neg apart, Nat.add_zero]

theorem get_foldl_tallyOne (frames : List Frame) (counts : Vector Nat layout.poolFrames)
    (i : Fin layout.poolFrames) : (frames.foldl tallyOne counts).get i =
      counts.get i + frames.count (FramePool.frameAt i) := by
  induction frames generalizing counts with
  | nil => rfl
  | cons frame frames ih =>
      rw [List.foldl_cons, ih, get_tallyOne, List.count_cons, Nat.add_assoc]
      congr 1
      exact Nat.add_comm _ _

theorem get_tally (frames : List Frame) (i : Fin layout.poolFrames) :
    (tally layout frames).get i = frames.count (FramePool.frameAt i) := by
  refine (get_foldl_tallyOne frames (Vector.replicate layout.poolFrames 0) i).trans ?_
  rw [Nat.add_eq_right]
  exact Vector.getElem_replicate i.isLt

def referenceCount (m : Manager layout) (frame : Frame) : Nat :=
  (linksTo layout m.memory.link frame).card + (leavesTo layout m.memory.leaf frame).card

/-- Whether `frame` is the lowest task frame whose count is not the number of its references. -/
def Miscounted (m : Manager layout) (frame : Frame) : Prop :=
  layout.IsTaskFrame frame ∧ m.pool.count frame ≠ m.referenceCount frame ∧
    ∀ lower, layout.IsTaskFrame lower → lower.number < frame.number →
      m.pool.count lower = m.referenceCount lower

section Verdict

variable (small : ∀ frame, layout.IsTaskFrame frame → m.referenceCount frame ≤ maxCount)

include small

theorem audit_differs_iff (i : Fin layout.poolFrames) :
    (layout.bufferFrames ≤ i.val && min ((tally layout ((taskRange layout).flatMap
      m.memory.referencesIn)).get i) maxCount != m.pool.counts.get i) = true ↔
    layout.IsTaskFrame (FramePool.frameAt i) ∧
      m.pool.count (FramePool.frameAt i) ≠ m.referenceCount (FramePool.frameAt i) := by
  have cache := layout.firstPoolFrame_add_bufferFrames
  have above : layout.bufferFrames ≤ i.val ↔ layout.IsTaskFrame (FramePool.frameAt i) := by
    rw [Layout.IsTaskFrame, and_iff_left (FramePool.frameAt_lt i), ← cache]
    exact Nat.add_le_add_iff_left.symm
  rw [Bool.and_eq_true, decide_eq_true_iff, above, bne_iff_ne, get_tally, count_references]
  refine and_congr_right fun task => ?_
  rw [FramePool.count_frameAt, ← referenceCount, Nat.min_eq_left (small _ task)]
  exact ne_comm

theorem firstMismatch_eq_none_iff :
    m.firstMismatch (tally layout ((taskRange layout).flatMap m.memory.referencesIn)) = none ↔
      ∀ frame, layout.IsTaskFrame frame → m.pool.count frame = m.referenceCount frame := by
  rw [firstMismatch, ← Fin.find?_eq_find?_finRange, Fin.find?_eq_none_iff]
  constructor
  · intro agree frame task
    obtain ⟨i, rfl⟩ := FramePool.exists_place task.pooled
    by_contra differs
    have found := (audit_differs_iff small i).mpr ⟨task, differs⟩
    exact Bool.false_ne_true ((agree i).symm.trans found)
  · intro agree i
    rw [← Bool.not_eq_true, audit_differs_iff small i]
    rintro ⟨task, differs⟩
    exact differs (agree _ task)

theorem firstMismatch_eq_some_iff (i : Fin layout.poolFrames) :
    m.firstMismatch (tally layout ((taskRange layout).flatMap m.memory.referencesIn)) = some i ↔
      m.Miscounted (FramePool.frameAt i) := by
  rw [firstMismatch, ← Fin.find?_eq_find?_finRange, Fin.find?_eq_some_iff,
    audit_differs_iff small, Miscounted, and_assoc]
  refine and_congr_right fun _ => and_congr_right fun _ => ?_
  constructor
  · intro agree lower task below
    obtain ⟨j, rfl⟩ := FramePool.exists_place task.pooled
    by_contra differs
    have found := (audit_differs_iff small j).mpr ⟨task, differs⟩
    exact Bool.false_ne_true ((agree j (Nat.lt_of_add_lt_add_left below)).symm.trans found)
  · intro agree j below
    rw [← Bool.not_eq_true, audit_differs_iff small j]
    rintro ⟨task, differs⟩
    exact differs (agree _ task (Nat.add_lt_add_left below _))

variable (inside : ∀ block ∈ layout.taskBlocks, (m.memory.link block).isPresent = true →
  (m.memory.link block).frame.number < layout.totalFrames)

include inside

theorem audit_of_agreed
    (agreed : ∀ frame, layout.IsTaskFrame frame → m.pool.count frame = m.referenceCount frame) :
    m.audit = .ok () := by
  have none := (firstMismatch_eq_none_iff small).mpr agreed
  simp only [audit, references_of_inside inside, bind, Except.bind, none]
  rfl

theorem audit_of_miscounted {frame : Frame} (wrong : m.Miscounted frame) :
    m.audit = .error (.countMismatch frame (m.referenceCount frame) (m.pool.count frame)) := by
  obtain ⟨i, rfl⟩ := FramePool.exists_place wrong.1.pooled
  have found := (firstMismatch_eq_some_iff small i).mpr wrong
  have expected : min ((tally layout ((taskRange layout).flatMap
      m.memory.referencesIn)).get i) maxCount = m.referenceCount (FramePool.frameAt i) := by
    rw [get_tally, count_references]
    exact Nat.min_eq_left (small _ wrong.1)
  simp only [audit, references_of_inside inside, bind, Except.bind, found, expected,
    FramePool.count_frameAt]
  rfl

omit inside in
theorem agreed_or_miscounted :
    (∀ frame, layout.IsTaskFrame frame → m.pool.count frame = m.referenceCount frame) ∨
      ∃ frame, m.Miscounted frame := by
  cases found : m.firstMismatch (tally layout ((taskRange layout).flatMap
      m.memory.referencesIn)) with
  | none => exact Or.inl ((firstMismatch_eq_none_iff small).mp found)
  | some i => exact Or.inr ⟨_, (firstMismatch_eq_some_iff small i).mp found⟩

/-- The audit succeeds just when every count is the number of references. -/
theorem audit_eq_ok_iff : m.audit = .ok () ↔
    ∀ frame, layout.IsTaskFrame frame → m.pool.count frame = m.referenceCount frame := by
  refine ⟨fun succeeds => ?_, audit_of_agreed small inside⟩
  rcases agreed_or_miscounted small with agreed | ⟨frame, wrong⟩
  · exact agreed
  · cases succeeds.symm.trans (audit_of_miscounted small inside wrong)

/-- Otherwise it names the lowest frame that is miscounted, with both numbers. -/
theorem audit_eq_error_iff (error : FatalError) : m.audit = .error error ↔ ∃ frame,
    m.Miscounted frame ∧
      error = .countMismatch frame (m.referenceCount frame) (m.pool.count frame) := by
  constructor
  · intro fails
    rcases agreed_or_miscounted small with agreed | ⟨frame, wrong⟩
    · cases fails.symm.trans (audit_of_agreed small inside agreed)
    · exact ⟨frame, wrong,
        Except.error.inj (fails.symm.trans (audit_of_miscounted small inside wrong))⟩
  · rintro ⟨frame, wrong, rfl⟩
    exact audit_of_miscounted small inside wrong

end Verdict

theorem Sound.count_eq (sound : m.Sound held) {frame : Frame} (task : layout.IsTaskFrame frame) :
    m.pool.count frame = m.referenceCount frame + if frame ∈ held then 1 else 0 :=
  sound.balanced.counted frame task

theorem Sound.referenceCount_le (sound : m.Sound held) (frame : Frame)
    (task : layout.IsTaskFrame frame) : m.referenceCount frame ≤ maxCount := by
  have few : entriesPerDirectory - layout.kernelTables ≤ maxCount :=
    Nat.le_trans (Nat.sub_le _ _) (by decide)
  calc m.referenceCount frame
      ≤ m.pool.count frame := by
        rw [sound.count_eq task]
        exact Nat.le_add_right _ _
    _ ≤ maxCount := Nat.le_trans (sound.balanced.count_le task) few

theorem Sound.referenceCount_of_held (sound : m.Sound held) {frame : Frame}
    (holds : frame ∈ held) : m.referenceCount frame = 0 := by
  obtain ⟨task, once⟩ := sound.balanced.owned frame holds
  have sum := sound.count_eq task
  rw [if_pos holds, once] at sum
  omega

theorem Sound.audit_eq (sound : m.Sound ∅) : m.audit = .ok () := by
  apply audit_of_agreed sound.referenceCount_le fun _ _ => sound.link_inside
  intro frame task
  rw [sound.count_eq task, if_neg (Finset.notMem_empty frame), Nat.add_zero]

theorem Sound.audit_of_held (sound : m.Sound held) {frame : Frame} (holds : frame ∈ held)
    (least : ∀ other ∈ held, frame.number ≤ other.number) :
    m.audit = .error (.countMismatch frame 0 1) := by
  obtain ⟨task, once⟩ := sound.balanced.owned frame holds
  have unreferenced := sound.referenceCount_of_held holds
  have wrong : m.Miscounted frame := by
    refine ⟨task, by rw [once, unreferenced]; exact Nat.one_ne_zero, fun lower task' below => ?_⟩
    have free : lower ∉ held := fun holds' => Nat.not_lt.mpr (least lower holds') below
    rw [sound.count_eq task', if_neg free, Nat.add_zero]
  rw [audit_of_miscounted sound.referenceCount_le (fun _ _ => sound.link_inside) wrong,
    unreferenced, once]

end Manager

end PagedMemory

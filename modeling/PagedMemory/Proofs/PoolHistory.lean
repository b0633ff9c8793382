import PagedMemory.Proofs.Counts

/-!
Histories of the pool. Whatever is asked of a pool, in whatever order, the count of a frame is what
it was at the start, with one more for every time that the frame has been handed out or shared and
one less for every time that it has been given up. The buffer cache has no other protection than its
high counts at the start: `allocates_cached_iff` says when it is handed out.
-/

namespace PagedMemory

inductive PoolCall where
  | allocate
  | free (frame : Frame)
  | share (frame : Frame)
  deriving DecidableEq

inductive PoolAnswer where
  | allocated (frame : Option Frame)
  | done
  | refused (error : FatalError)
  deriving DecidableEq

namespace PoolCall

variable {layout : Layout} {α : Type}

def answer (success : α → PoolAnswer) :
    EStateM.Result FatalError (FramePool layout) α → PoolAnswer × FramePool layout
  | .ok value pool => (success value, pool)
  | .error error pool => (.refused error, pool)

def perform (call : PoolCall) (pool : FramePool layout) : PoolAnswer × FramePool layout :=
  match call with
  | allocate => answer .allocated (FramePool.allocate pool)
  | free frame => answer (fun _ => .done) (FramePool.free frame pool)
  | share frame => answer (fun _ => .done) (FramePool.share frame pool)

def run : List PoolCall → FramePool layout → List (PoolCall × PoolAnswer) × FramePool layout
  | [], pool => ([], pool)
  | call :: calls, pool =>
      let (reply, next) := call.perform pool
      let (events, last) := run calls next
      ((call, reply) :: events, last)

end PoolCall

namespace FramePool

variable {layout : Layout} {pool : FramePool layout} {frame : Frame}

theorem count_perform (call : PoolCall) (pool : FramePool layout) (pooled : layout.IsPooled frame) :
    (call.perform pool).2.count frame +
        (if (call, (call.perform pool).1) = (.free frame, .done) then 1 else 0) =
      pool.count frame +
        (if (call, (call.perform pool).1) = (.share frame, .done) then 1 else 0) +
          if (call, (call.perform pool).1) = (.allocate, .allocated (some frame)) then 1
            else 0 := by
  cases call with
  | allocate =>
      rcases pool.allocate_cases with run | ⟨i, left, run, free, count⟩
      · simp [PoolCall.perform, run, PoolCall.answer]
      · simp only [PoolCall.perform, run, PoolCall.answer, count]
        by_cases same : frame = frameAt i
        · subst same
          simp [free]
        · simp [Function.update_of_ne same, Ne.symm same]
  | free other =>
      rcases free_cases other pool with ⟨error, run⟩ | ⟨outside, run⟩ | ⟨left, run, counted, count⟩
      · simp [PoolCall.perform, run, PoolCall.answer]
      · have apart : other ≠ frame := by
          rintro rfl
          exact outside pooled
        simp [PoolCall.perform, run, PoolCall.answer, apart]
      · simp only [PoolCall.perform, run, PoolCall.answer, count]
        by_cases same : frame = other
        · subst same
          simp
          omega
        · simp [Function.update_of_ne same, Ne.symm same]
  | share other =>
      rcases share_cases other pool with ⟨error, run⟩ | ⟨outside, run⟩ | ⟨left, run, count⟩
      · simp [PoolCall.perform, run, PoolCall.answer]
      · have apart : other ≠ frame := by
          rintro rfl
          exact outside pooled
        simp [PoolCall.perform, run, PoolCall.answer, apart]
      · simp only [PoolCall.perform, run, PoolCall.answer, count]
        by_cases same : frame = other
        · subst same
          simp
        · simp [Function.update_of_ne same, Ne.symm same]

/-- The books of a whole history: what a frame's count has gained is what it has lost and what is
left of it. -/
theorem count_run (calls : List PoolCall) (pool : FramePool layout)
    (pooled : layout.IsPooled frame) :
    (PoolCall.run calls pool).2.count frame +
        (PoolCall.run calls pool).1.count (.free frame, .done) =
      pool.count frame + (PoolCall.run calls pool).1.count (.share frame, .done) +
        (PoolCall.run calls pool).1.count (.allocate, .allocated (some frame)) := by
  induction calls generalizing pool with
  | nil => rfl
  | cons call calls ih =>
      have step := count_perform call pool pooled
      have rest := ih (call.perform pool).2
      simp only [PoolCall.run, List.count_cons, beq_iff_eq]
      omega

theorem allocated_iff (pool : FramePool layout) (pooled : layout.IsPooled frame) :
    (PoolCall.allocate.perform pool).1 = .allocated (some frame) ↔ pool.count frame = 0 ∧
      ∀ higher, layout.IsPooled higher → frame.number < higher.number →
        pool.count? higher ≠ some 0 := by
  obtain ⟨i, rfl⟩ := exists_place pooled
  have outcome : (PoolCall.allocate.perform pool).1 = .allocated (some (frameAt i)) ↔
      pool.highestFree = some i := by
    simp only [PoolCall.perform, allocate]
    cases found : pool.highestFree with
    | none => simp [PoolCall.answer]
    | some j =>
        simp only [PoolCall.answer, PoolAnswer.allocated.injEq, Option.some.injEq]
        exact ⟨frameAt_inj, congrArg frameAt⟩
  rw [outcome, highestFree_eq_some_iff, count_frameAt]
  refine and_congr_right fun _ => ?_
  constructor
  · intro above higher inside farther
    obtain ⟨j, rfl⟩ := exists_place inside
    have beyond : i < j := by
      simp only [frameAt] at farther
      exact Fin.lt_def.mpr (by omega)
    rw [count?_frameAt]
    exact fun free => above j beyond (Option.some.inj free)
  · intro above j beyond free
    have farther : (frameAt i).number < (frameAt j).number := Nat.add_lt_add_left beyond _
    exact above (frameAt j) (pooled_frameAt j) farther (by rw [count?_frameAt, free])

/-- A frame of the buffer cache is handed out once it has been given up as often as it was counted
at the start, shared and handed out before, and no higher frame is free. -/
theorem allocates_cached_iff (layout : Layout) (calls : List PoolCall) {frame : Frame}
    (cached : layout.IsCached frame) :
    (PoolCall.allocate.perform (PoolCall.run calls (initial layout)).2).1 =
        .allocated (some frame) ↔
      (PoolCall.run calls (initial layout)).1.count (.free frame, .done) = bufferCount +
        (PoolCall.run calls (initial layout)).1.count (.share frame, .done) +
        (PoolCall.run calls (initial layout)).1.count (.allocate, .allocated (some frame)) ∧
      ∀ higher, layout.IsPooled higher → frame.number < higher.number →
        (PoolCall.run calls (initial layout)).2.count? higher ≠ some 0 := by
  have books := count_run calls (initial layout) cached.pooled
  rw [count_initial_of_cached cached] at books
  rw [allocated_iff _ cached.pooled]
  exact and_congr_left fun _ => by omega

end FramePool

/-- Frame 256 is the whole buffer cache of this machine, and frame 257 is left to tasks. -/
def Layout.buffered : Layout :=
  ⟨1048576, 1052672, 1056768, by decide, by decide, by decide, by decide, by decide, by decide,
    by decide⟩

namespace FramePool

/-- Once the other frame is taken, a hundred drops make the cached frame the next one. -/
theorem allocates_cached_after_drops :
    Layout.buffered.IsCached ⟨256⟩ ∧
      (PoolCall.allocate.perform (PoolCall.run (.allocate :: List.replicate 100 (.free ⟨256⟩))
        (initial .buffered)).2).1 = .allocated (some ⟨256⟩) := by
  have cached : Layout.buffered.IsCached ⟨256⟩ := ⟨by decide, by decide⟩
  refine ⟨cached, (allocates_cached_iff .buffered
    (.allocate :: List.replicate 100 (.free ⟨256⟩)) cached).mpr ⟨by decide +kernel, ?_⟩⟩
  rintro ⟨number⟩ ⟨-, below⟩ above
  have total : Layout.buffered.totalFrames = 258 := by decide
  have last : number = 257 := by
    simp only [total] at below above
    omega
  rw [last]
  decide +kernel

/-- Giving up its frames is all that it takes to have the buffer cache handed out. -/
theorem cached_not_permanent : ¬ ∀ (layout : Layout) (calls : List PoolCall) (frame : Frame),
    (PoolCall.allocate.perform (PoolCall.run calls (initial layout)).2).1 =
      .allocated (some frame) → layout.bufferEnd / pageSize ≤ frame.number := by
  intro permanent
  have taken := permanent .buffered (.allocate :: List.replicate 100 (.free ⟨256⟩)) ⟨256⟩
    (by decide +kernel)
  exact absurd taken (by decide)

end FramePool

end PagedMemory

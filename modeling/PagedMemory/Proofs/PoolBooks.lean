import Mathlib.Data.Fintype.Card
import PagedMemory.Proofs.PoolHistory

/-!
The books of the pool. Beside the counts it keeps two counters, and a call changes at most one
count and the counter that belongs to it (`Step`). As long as frames are shared only while they are
in use, both counters therefore account for the frames that are free, after any history.
-/

namespace PagedMemory

namespace FramePool

variable {layout : Layout} {pool left : FramePool layout} {call : PoolCall} {reply : PoolAnswer}

/-- What a call can do to a pool: nothing, or one new count with the counter that goes with it. -/
inductive Step (pool : FramePool layout) : PoolCall → PoolAnswer → FramePool layout → Prop where
  | unchanged {call : PoolCall} {reply : PoolAnswer}
      (nothing : ∀ frame, reply ≠ .allocated (some frame)) : Step pool call reply pool
  | taken {left : FramePool layout} (i : Fin layout.poolFrames) (free : pool.counts.get i = 0)
      (counts : left.counts = pool.counts.set i 1 i.isLt)
      (allocations : left.allocations = pool.allocations + 1) (frees : left.frees = pool.frees) :
      Step pool .allocate (.allocated (some (frameAt i))) left
  | lowered {left : FramePool layout} (i : Fin layout.poolFrames) {value : Nat}
      (counted : pool.counts.get i = value + 1)
      (counts : left.counts = pool.counts.set i value i.isLt)
      (allocations : left.allocations = pool.allocations)
      (frees : left.frees = pool.frees + if value = 0 then 1 else 0) :
      Step pool (.free (frameAt i)) .done left
  | raised {left : FramePool layout} (i : Fin layout.poolFrames)
      (room : pool.counts.get i < maxCount)
      (counts : left.counts = pool.counts.set i (pool.counts.get i + 1) i.isLt)
      (allocations : left.allocations = pool.allocations) (frees : left.frees = pool.frees) :
      Step pool (.share (frameAt i)) .done left

theorem isReserved_frameAt (i : Fin layout.poolFrames) :
    layout.isReserved (frameAt i) = false :=
  decide_eq_false (Nat.not_lt.mpr (pooled_frameAt i).1)

theorem perform_of_not_pooled {frame : Frame} (outside : ¬ layout.IsPooled frame)
    (named : call = .free frame ∨ call = .share frame) (pool : FramePool layout) :
    call.perform pool = (if layout.isReserved frame then .done
      else .refused (.nonexistentPage frame), pool) := by
  rcases place_outside outside with ⟨reserved, found⟩ | ⟨unreserved, found⟩
  · rcases named with rfl | rfl <;>
      simp only [PoolCall.perform, free, share, found, PoolCall.answer, reserved, if_true]
  · rcases named with rfl | rfl <;>
      simp only [PoolCall.perform, free, share, found, PoolCall.answer, unreserved,
        Bool.false_eq_true, if_false]

theorem Step.of_not_pooled {frame : Frame} (outside : ¬ layout.IsPooled frame)
    (named : call = .free frame ∨ call = .share frame) (pool : FramePool layout) :
    Step pool call (call.perform pool).1 (call.perform pool).2 := by
  rw [perform_of_not_pooled outside named]
  refine .unchanged fun other => ?_
  cases layout.isReserved frame <;> exact PoolAnswer.noConfusion

theorem step_allocate (pool : FramePool layout) :
    Step pool .allocate (PoolCall.allocate.perform pool).1 (PoolCall.allocate.perform pool).2 := by
  cases found : pool.highestFree with
  | none =>
      simp only [PoolCall.perform, allocate, found, PoolCall.answer]
      refine .unchanged fun frame equal => ?_
      cases PoolAnswer.allocated.inj equal
  | some i =>
      simp only [PoolCall.perform, allocate, found, PoolCall.answer]
      exact .taken i (highestFree_eq_some_iff.mp found).1 rfl rfl rfl

theorem step_free (pool : FramePool layout) (frame : Frame) :
    Step pool (.free frame) ((PoolCall.free frame).perform pool).1
      ((PoolCall.free frame).perform pool).2 := by
  by_cases pooled : layout.IsPooled frame
  · obtain ⟨i, rfl⟩ := exists_place pooled
    simp only [PoolCall.perform, free, place_frameAt]
    cases counted : pool.counts.get i with
    | zero => exact .unchanged fun _ => PoolAnswer.noConfusion
    | succ value =>
        cases value with
        | zero => exact .lowered i counted rfl rfl rfl
        | succ value => exact .lowered i counted rfl rfl rfl
  · exact Step.of_not_pooled pooled (.inl rfl) pool

theorem step_share (pool : FramePool layout) (frame : Frame) :
    Step pool (.share frame) ((PoolCall.share frame).perform pool).1
      ((PoolCall.share frame).perform pool).2 := by
  by_cases pooled : layout.IsPooled frame
  · obtain ⟨i, rfl⟩ := exists_place pooled
    by_cases room : pool.counts.get i < maxCount
    · simp only [PoolCall.perform, share, place_frameAt, if_pos room]
      exact .raised i room rfl rfl rfl
    · simp only [PoolCall.perform, share, place_frameAt, if_neg room]
      exact .unchanged fun _ => PoolAnswer.noConfusion
  · exact Step.of_not_pooled pooled (.inr rfl) pool

theorem step_perform (call : PoolCall) (pool : FramePool layout) :
    Step pool call (call.perform pool).1 (call.perform pool).2 := by
  cases call with
  | allocate => exact step_allocate pool
  | free frame => exact step_free pool frame
  | share frame => exact step_share pool frame

theorem perform_of_refused {error : FatalError}
    (refused : (call.perform pool).1 = .refused error) : (call.perform pool).2 = pool := by
  have step := step_perform call pool
  rw [refused] at step
  generalize (call.perform pool).2 = left at step ⊢
  cases step with
  | unchanged => rfl

theorem free_answer (pool : FramePool layout) (frame : Frame) :
    ((PoolCall.free frame).perform pool).1 =
      if layout.isReserved frame then .done
      else match pool.count? frame with
        | none => .refused (.nonexistentPage frame)
        | some 0 => .refused (.doubleFree frame)
        | some (_ + 1) => .done := by
  by_cases pooled : layout.IsPooled frame
  · obtain ⟨i, rfl⟩ := exists_place pooled
    simp only [PoolCall.perform, free, place_frameAt, isReserved_frameAt, count?_frameAt,
      Bool.false_eq_true, if_false]
    cases pool.counts.get i with
    | zero => rfl
    | succ count => cases count <;> rfl
  · rw [perform_of_not_pooled pooled (.inl rfl), count?_of_not_pooled pool pooled]

theorem share_answer (pool : FramePool layout) (frame : Frame) :
    ((PoolCall.share frame).perform pool).1 =
      if layout.isReserved frame then .done
      else match pool.count? frame with
        | none => .refused (.nonexistentPage frame)
        | some count => if count < maxCount then .done else .refused (.countOverflow frame) := by
  by_cases pooled : layout.IsPooled frame
  · obtain ⟨i, rfl⟩ := exists_place pooled
    simp only [PoolCall.perform, share, place_frameAt, isReserved_frameAt, count?_frameAt,
      Bool.false_eq_true, if_false]
    by_cases room : pool.counts.get i < maxCount
    · rw [if_pos room, if_pos room]
      rfl
    · rw [if_neg room, if_neg room]
      rfl
  · rw [perform_of_not_pooled pooled (.inr rfl), count?_of_not_pooled pool pooled]

theorem Step.count_le (step : Step pool call reply left)
    (bounded : ∀ frame, pool.count frame ≤ maxCount) (frame : Frame) :
    left.count frame ≤ maxCount := by
  have set {i : Fin layout.poolFrames} {value : Nat}
      (counts : left.counts = pool.counts.set i value i.isLt) (small : value ≤ maxCount) :
      left.count frame ≤ maxCount := by
    rw [count_of_set counts]
    by_cases same : frame = frameAt i
    · rw [same, Function.update_self]
      exact small
    · rw [Function.update_of_ne same]
      exact bounded frame
  cases step with
  | unchanged => exact bounded frame
  | taken i free counts => exact set counts (by decide)
  | lowered i counted counts =>
      have high := bounded (frameAt i)
      rw [count_frameAt, counted] at high
      exact set counts (Nat.le_of_succ_le high)
  | raised i room counts => exact set counts room

theorem count_initial_le (layout : Layout) (frame : Frame) :
    (initial layout).count frame ≤ maxCount := by
  by_cases pooled : layout.IsPooled frame
  · rw [count_initial pooled]
    split <;> decide
  · rw [count_of_not_pooled _ pooled]
    exact Nat.zero_le _

theorem count_run_le (calls : List PoolCall)
    (bounded : ∀ frame, pool.count frame ≤ maxCount) (frame : Frame) :
    (PoolCall.run calls pool).2.count frame ≤ maxCount := by
  induction calls generalizing pool with
  | nil => exact bounded frame
  | cons call calls ih => exact ih ((step_perform call pool).count_le bounded)

def lost (pool left : FramePool layout) : Nat :=
  (Finset.univ.filter fun i => pool.counts.get i = 1 ∧ left.counts.get i = 0).card

/-- How often a frame loses its last reference over a history. -/
def losses : List PoolCall → FramePool layout → Nat
  | [], _ => 0
  | call :: calls, pool => lost pool (call.perform pool).2 + losses calls (call.perform pool).2

theorem lost_self (pool : FramePool layout) : lost pool pool = 0 := by
  rw [lost, Finset.card_eq_zero, Finset.filter_eq_empty_iff]
  rintro i - ⟨one, zero⟩
  omega

theorem lost_of_set {i : Fin layout.poolFrames} {value : Nat}
    (set : left.counts = pool.counts.set i value i.isLt) :
    lost pool left = if pool.counts.get i = 1 ∧ value = 0 then 1 else 0 := by
  have here : left.counts.get i = value := by
    rw [set]
    exact Vector.getElem_set_self i.isLt
  have elsewhere (j : Fin layout.poolFrames) (apart : j ≠ i) :
      left.counts.get j = pool.counts.get j := by
    rw [set]
    exact Vector.getElem_set_ne _ _ fun same => apart (Fin.ext same.symm)
  have only (j : Fin layout.poolFrames) : (pool.counts.get j = 1 ∧ left.counts.get j = 0) ↔
      j = i ∧ pool.counts.get i = 1 ∧ value = 0 := by
    by_cases same : j = i
    · rw [same, here]
      exact (and_iff_right rfl).symm
    · rw [elsewhere j same]
      constructor
      · rintro ⟨one, zero⟩
        omega
      · exact fun equal => absurd equal.1 same
  rw [lost, Finset.filter_congr fun j _ => only j]
  by_cases last : pool.counts.get i = 1 ∧ value = 0
  · simp only [last, and_true, Finset.filter_eq', Finset.mem_univ, if_true, Finset.card_singleton]
  · rw [if_neg last]
    simp only [last, and_false, Finset.filter_false, Finset.card_empty]

theorem Step.frees_eq (step : Step pool call reply left) :
    left.frees = pool.frees + lost pool left := by
  cases step with
  | unchanged => rw [lost_self, Nat.add_zero]
  | taken i free counts allocations frees =>
      rw [lost_of_set counts, if_neg fun last => Nat.one_ne_zero last.2, frees, Nat.add_zero]
  | @lowered _ i value counted counts allocations frees =>
      have last : (value + 1 = 1 ∧ value = 0) ↔ value = 0 := by omega
      rw [lost_of_set counts, counted, frees, if_congr last rfl rfl]
  | raised i room counts allocations frees =>
      rw [lost_of_set counts, if_neg fun last => Nat.succ_ne_zero _ last.2, frees, Nat.add_zero]

theorem frees_run (calls : List PoolCall) (pool : FramePool layout) :
    (PoolCall.run calls pool).2.frees = pool.frees + losses calls pool := by
  induction calls generalizing pool with
  | nil => rfl
  | cons call calls ih =>
      calc (PoolCall.run calls (call.perform pool).2).2.frees
          = (call.perform pool).2.frees + losses calls (call.perform pool).2 := ih _
        _ = pool.frees + lost pool (call.perform pool).2 + losses calls (call.perform pool).2 := by
          rw [(step_perform call pool).frees_eq]
        _ = pool.frees + losses (call :: calls) pool := Nat.add_assoc _ _ _

def handedOut (events : List (PoolCall × PoolAnswer)) : List Frame :=
  events.filterMap fun event =>
    match event.2 with
    | .allocated frame => frame
    | _ => none

theorem Step.allocations_eq (step : Step pool call reply left) :
    left.allocations = pool.allocations + (handedOut [(call, reply)]).length := by
  cases step with
  | unchanged nothing =>
      cases reply with
      | allocated frame =>
          cases frame with
          | none => rfl
          | some frame => exact absurd rfl (nothing frame)
      | done => rfl
      | refused error => rfl
  | taken i free counts allocations => exact allocations
  | lowered i counted counts allocations => exact allocations
  | raised i room counts allocations => exact allocations

theorem allocations_run (calls : List PoolCall) (pool : FramePool layout) :
    (PoolCall.run calls pool).2.allocations =
      pool.allocations + (handedOut (PoolCall.run calls pool).1).length := by
  induction calls generalizing pool with
  | nil => rfl
  | cons call calls ih =>
      have events : handedOut (PoolCall.run (call :: calls) pool).1 =
          handedOut [(call, (call.perform pool).1)] ++
            handedOut (PoolCall.run calls (call.perform pool).2).1 :=
        List.filterMap_append (l := [(call, (call.perform pool).1)])
      rw [events, List.length_append, ← Nat.add_assoc, ← (step_perform call pool).allocations_eq]
      exact ih _

def Allowed (pool : FramePool layout) : PoolCall → Prop
  | .share frame => pool.count? frame ≠ some 0
  | _ => True

instance (pool : FramePool layout) : DecidablePred pool.Allowed
  | .allocate => .isTrue trivial
  | .free _ => .isTrue trivial
  | .share frame => inferInstanceAs (Decidable (pool.count? frame ≠ some 0))

/-- A history in which every call is allowed when it is made. -/
def AllAllowed : List PoolCall → FramePool layout → Prop
  | [], _ => True
  | call :: calls, pool => pool.Allowed call ∧ AllAllowed calls (call.perform pool).2

instance decidableAllAllowed : (calls : List PoolCall) → (pool : FramePool layout) →
    Decidable (AllAllowed calls pool)
  | [], _ => .isTrue trivial
  | call :: calls, pool =>
      have := decidableAllAllowed calls (call.perform pool).2
      inferInstanceAs (Decidable (pool.Allowed call ∧ AllAllowed calls (call.perform pool).2))

theorem Step.freeCount_eq (step : Step pool call reply left) (allowed : pool.Allowed call) :
    left.freeCount + left.allocations + pool.frees =
      pool.freeCount + pool.allocations + left.frees := by
  cases step with
  | unchanged => rfl
  | taken i free counts allocations frees =>
      have fewer := freeCount_set counts
      rw [if_pos free, if_neg Nat.one_ne_zero] at fewer
      omega
  | lowered i counted counts allocations frees =>
      have more := freeCount_set counts
      rw [counted, if_neg (Nat.succ_ne_zero _)] at more
      omega
  | raised i room counts allocations frees =>
      have used : pool.counts.get i ≠ 0 := by
        intro unused
        exact allowed (by rw [count?_frameAt, unused])
      have same := freeCount_set counts
      rw [if_neg used, if_neg (Nat.succ_ne_zero _)] at same
      omega

theorem freeCount_run {calls : List PoolCall} (allowed : AllAllowed calls pool) :
    (PoolCall.run calls pool).2.freeCount + (PoolCall.run calls pool).2.allocations + pool.frees =
      pool.freeCount + pool.allocations + (PoolCall.run calls pool).2.frees := by
  induction calls generalizing pool with
  | nil => rfl
  | cons call calls ih =>
      have step := (step_perform call pool).freeCount_eq allowed.1
      have rest := ih allowed.2
      simp only [PoolCall.run]
      omega

theorem free_add_used (pool : FramePool layout) :
    pool.stats.free + pool.stats.used = pool.stats.total := by
  have used : (fun count : Nat => count != 0) = fun count => decide ¬ (count == 0) = true := by
    funext count
    rw [bne, decide_not, Bool.decide_eq_true]
  simp only [stats_eq, used]
  exact Vector.size_eq_countP_add_countP.symm

theorem stats_free (pool : FramePool layout) : pool.stats.free = pool.freeCount := by
  rw [stats_eq, freeCount]

theorem freeCount_initial (layout : Layout) :
    (initial layout).freeCount + layout.bufferFrames = layout.poolFrames := by
  have cache := layout.bufferFrames_le_poolFrames
  have counts : (initial layout).counts.toList = List.replicate layout.bufferFrames bufferCount ++
      List.replicate (layout.poolFrames - layout.bufferFrames) 0 := by
    apply List.ext_getElem
    · simp
      omega
    · intro i _ _
      simp [initial, List.getElem_append]
  have free : (initial layout).freeCount = layout.poolFrames - layout.bufferFrames := by
    rw [freeCount, ← Vector.countP_toList, counts, List.countP_append, List.countP_replicate,
      List.countP_replicate]
    simp [bufferCount]
  omega

theorem allocates_none_iff (pool : FramePool layout) :
    (PoolCall.allocate.perform pool).1 = .allocated none ↔ ∀ frame, pool.count? frame ≠ some 0 := by
  have outcome : (PoolCall.allocate.perform pool).1 = .allocated none ↔
      pool.highestFree = none := by
    cases found : pool.highestFree <;> simp [PoolCall.perform, allocate, found, PoolCall.answer]
  rw [outcome, highestFree_eq_none_iff_count?]

theorem allocates_iff (pool : FramePool layout) (frame : Frame) :
    (PoolCall.allocate.perform pool).1 = .allocated (some frame) ↔ pool.count? frame = some 0 ∧
      ∀ higher, frame.number < higher.number → pool.count? higher ≠ some 0 := by
  by_cases pooled : layout.IsPooled frame
  · rw [allocated_iff pool pooled, count?_eq pool pooled, Option.some_inj]
    refine and_congr_right fun _ => forall_congr' fun higher => ⟨fun taken above free => ?_,
      fun taken _ => taken⟩
    by_cases inside : layout.IsPooled higher
    · exact taken inside above free
    · rw [count?_of_not_pooled pool inside] at free
      cases free
  · rw [count?_of_not_pooled pool pooled]
    refine ⟨fun outcome => absurd ?_ pooled, fun free => by cases free.1⟩
    have step := step_allocate pool
    rw [outcome] at step
    generalize (PoolCall.allocate.perform pool).2 = left at step
    cases step with
    | unchanged nothing => exact absurd rfl (nothing frame)
    | taken i => exact pooled_frameAt i

theorem free_done_iff (pool : FramePool layout) (frame : Frame) :
    ((PoolCall.free frame).perform pool).1 = .done ↔
      layout.isReserved frame ∨ ∃ count, pool.count? frame = some (count + 1) := by
  rw [free_answer]
  cases layout.isReserved frame with
  | true => simp
  | false => rcases pool.count? frame with _ | _ | count <;> simp

theorem share_done_iff (pool : FramePool layout) (frame : Frame) :
    ((PoolCall.share frame).perform pool).1 = .done ↔
      layout.isReserved frame ∨ ∃ count < maxCount, pool.count? frame = some count := by
  rw [share_answer]
  cases layout.isReserved frame with
  | true => simp
  | false => rcases pool.count? frame with _ | count <;> simp

/-- The books of a pool that was new before a history of calls. -/
structure Books (events : List (PoolCall × PoolAnswer)) (drops : Nat) (pool : FramePool layout) :
    Prop where
  /-- A count is what has been added to it since the start, less what has been taken away. -/
  counted : ∀ frame, layout.IsPooled frame → ∃ count ≤ maxCount, pool.count? frame = some count ∧
    count + events.count (.free frame, .done) = (if layout.IsCached frame then bufferCount else 0) +
      events.count (.allocate, .allocated (some frame)) + events.count (.share frame, .done)
  exhausted : (PoolCall.allocate.perform pool).1 = .allocated none ↔
    ∀ frame, pool.count? frame ≠ some 0
  highest : ∀ frame, (PoolCall.allocate.perform pool).1 = .allocated (some frame) ↔
    pool.count? frame = some 0 ∧
      ∀ higher, frame.number < higher.number → pool.count? higher ≠ some 0
  freed : ∀ frame, ((PoolCall.free frame).perform pool).1 = .done ↔
    layout.isReserved frame ∨ ∃ count, pool.count? frame = some (count + 1)
  shared : ∀ frame, ((PoolCall.share frame).perform pool).1 = .done ↔
    layout.isReserved frame ∨ ∃ count < maxCount, pool.count? frame = some count
  refused : ∀ (call : PoolCall) error, (call.perform pool).1 = .refused error →
    (call.perform pool).2 = pool
  reserved : ∀ frame, layout.isReserved frame → ((PoolCall.free frame).perform pool).2 = pool ∧
    ((PoolCall.share frame).perform pool).2 = pool
  frees : pool.stats.frees = drops
  allocations : pool.stats.allocations = (handedOut events).length
  free : pool.freeCount = pool.stats.free
  total : pool.stats.free + pool.stats.used = pool.stats.total
  used : pool.stats.used + pool.stats.frees = layout.bufferFrames + pool.stats.allocations

/-- After every history in which frames are shared only while they are in use, the books of the
pool are exact. -/
theorem books_of_history (layout : Layout) (calls : List PoolCall)
    (allowed : AllAllowed calls (initial layout)) :
    Books (PoolCall.run calls (initial layout)).1 (losses calls (initial layout))
      (PoolCall.run calls (initial layout)).2 where
  counted frame pooled := by
    have books := count_run calls (initial layout) pooled
    refine ⟨_, count_run_le calls (count_initial_le layout) frame, count?_eq _ pooled, ?_⟩
    have start := count_initial pooled
    omega
  exhausted := allocates_none_iff _
  highest := allocates_iff _
  freed := free_done_iff _
  shared := share_done_iff _
  refused _ _ := perform_of_refused
  reserved frame below := by
    have outside : ¬ layout.IsPooled frame :=
      fun pooled => Nat.not_lt.mpr pooled.1 (of_decide_eq_true below)
    rw [perform_of_not_pooled outside (.inl rfl), perform_of_not_pooled outside (.inr rfl)]
    exact ⟨rfl, rfl⟩
  frees := by
    rw [stats_eq]
    exact (frees_run calls (initial layout)).trans (Nat.zero_add _)
  allocations := by
    rw [stats_eq]
    exact (allocations_run calls (initial layout)).trans (Nat.zero_add _)
  free := (stats_free _).symm
  total := free_add_used _
  used := by
    have moved := freeCount_run allowed
    have start := freeCount_initial layout
    have split := free_add_used (PoolCall.run calls (initial layout)).2
    have none : (initial layout).frees = 0 ∧ (initial layout).allocations = 0 := ⟨rfl, rfl⟩
    rw [stats_free] at split
    simp only [stats_eq] at split ⊢
    omega

/-- Frame 257 is taken, shared and given up three times; frame 256 is cached, frame 3 is reserved
and there is no frame 258. -/
def mixedCalls : List PoolCall :=
  [.allocate, .share ⟨257⟩, .free ⟨257⟩, .share ⟨256⟩, .free ⟨3⟩, .share ⟨258⟩, .free ⟨257⟩,
    .free ⟨257⟩]

theorem books_of_mixedCalls : AllAllowed mixedCalls (initial .buffered) ∧
    Books (PoolCall.run mixedCalls (initial .buffered)).1 1
      (PoolCall.run mixedCalls (initial .buffered)).2 := by
  have allowed : AllAllowed mixedCalls (initial .buffered) := by decide +kernel
  have once : losses mixedCalls (initial .buffered) = 1 := by decide +kernel
  have books := books_of_history .buffered mixedCalls allowed
  rw [once] at books
  exact ⟨allowed, books⟩

end FramePool

end PagedMemory

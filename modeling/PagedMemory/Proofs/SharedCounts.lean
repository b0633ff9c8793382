import Mathlib.Algebra.BigOperators.Group.Finset.Basic
import Mathlib.Algebra.BigOperators.Group.Finset.Piecewise
import PagedMemory.Proofs.PoolBooks

/-!
The statistic of shared frames. It knows a frame of the buffer cache by its count alone. So it
overlooks a task's frame with as many references as a cached frame starts with, and it mistakes a
cached frame that has lost references for a shared one. After any history it is off by just these
frames (`shared_run`).
-/

namespace PagedMemory

namespace FramePool

variable {layout : Layout}

def made (events : List (PoolCall × PoolAnswer)) (frame : Frame) : Nat :=
  events.count (.share frame, .done) + events.count (.allocate, .allocated (some frame))

def dropped (events : List (PoolCall × PoolAnswer)) (frame : Frame) : Nat :=
  events.count (.free frame, .done)

def sharedFrames (pool : FramePool layout) : Finset (Fin layout.poolFrames) :=
  Finset.univ.filter fun i => layout.IsTaskFrame (frameAt i) ∧ 2 ≤ pool.counts.get i

/-- Frames past the buffer cache with so many references left that they pass for cached ones. -/
def overlooked (layout : Layout) (events : List (PoolCall × PoolAnswer)) :
    Finset (Fin layout.poolFrames) :=
  Finset.univ.filter fun i => layout.IsTaskFrame (frameAt i) ∧
    bufferCount + dropped events (frameAt i) ≤ made events (frameAt i)

/-- Cached frames with fewer references than at the start, but still two. -/
def mistaken (layout : Layout) (events : List (PoolCall × PoolAnswer)) :
    Finset (Fin layout.poolFrames) :=
  Finset.univ.filter fun i => layout.IsCached (frameAt i) ∧
    made events (frameAt i) < dropped events (frameAt i) ∧
      dropped events (frameAt i) + 2 ≤ bufferCount + made events (frameAt i)

theorem countP_eq_card (pool : FramePool layout) (p : Nat → Bool) :
    pool.counts.countP p = (Finset.univ.filter fun i => p (pool.counts.get i) = true).card := by
  have listed : pool.counts.toList = (List.finRange layout.poolFrames).map pool.counts.get := by
    apply List.ext_getElem
    · simp
    · intro i _ _
      simp [Vector.get]
  have filtered : (List.finRange layout.poolFrames).filter (p ∘ pool.counts.get) =
      (List.finRange layout.poolFrames).filter fun i => decide (p (pool.counts.get i) = true) :=
    List.filter_congr fun _ _ => Bool.decide_eq_true.symm
  rw [← Vector.countP_toList, listed, List.countP_map, List.countP_eq_length_filter, filtered]
  rfl

theorem get_run (calls : List PoolCall) (i : Fin layout.poolFrames) :
    (PoolCall.run calls (initial layout)).2.counts.get i +
        dropped (PoolCall.run calls (initial layout)).1 (frameAt i) =
      (if layout.IsCached (frameAt i) then bufferCount else 0) +
        made (PoolCall.run calls (initial layout)).1 (frameAt i) := by
  have books := count_run calls (initial layout) (pooled_frameAt i)
  rw [count_frameAt, count_initial (pooled_frameAt i), Nat.add_assoc] at books
  exact books

theorem shared_eq_card (pool : FramePool layout) : pool.stats.shared =
    (Finset.univ.filter fun i => 2 ≤ pool.counts.get i ∧ pool.counts.get i < bufferCount).card := by
  simp only [stats_eq, countP_eq_card, Bool.and_eq_true, decide_eq_true_eq]

/-- After any history the statistic leaves out the frames that it overlooks and counts those that
it mistakes, so it is right just when there are as many of the one as of the other. -/
theorem shared_run (layout : Layout) (calls : List PoolCall) :
    let events := (PoolCall.run calls (initial layout)).1
    let pool := (PoolCall.run calls (initial layout)).2
    pool.stats.shared + (overlooked layout events).card =
        (sharedFrames pool).card + (mistaken layout events).card ∧
      (pool.stats.shared = (sharedFrames pool).card ↔
        (overlooked layout events).card = (mistaken layout events).card) := by
  intro events pool
  have exact : pool.stats.shared + (overlooked layout events).card =
      (sharedFrames pool).card + (mistaken layout events).card := by
    rw [shared_eq_card, overlooked, sharedFrames, mistaken]
    simp only [Finset.card_filter]
    rw [← Finset.sum_add_distrib, ← Finset.sum_add_distrib]
    -- frame by frame: its count is the one at the start with what the history has done to it
    apply Finset.sum_congr rfl
    intro i _
    have high : 2 ≤ bufferCount := by decide
    have books : pool.counts.get i + dropped events (frameAt i) =
        (if layout.IsCached (frameAt i) then bufferCount else 0) + made events (frameAt i) :=
      get_run calls i
    rcases (pooled_frameAt i).cached_or_task with cached | task
    · have other : ¬ layout.IsTaskFrame (frameAt i) := fun task => task.not_cached cached
      rw [if_pos cached] at books
      simp only [other, cached, false_and, true_and, if_false]
      split_ifs <;> omega
    · rw [if_neg task.not_cached] at books
      simp only [task, task.not_cached, false_and, true_and, if_false]
      split_ifs <;> omega
  exact ⟨exact, by omega⟩

def manySharers : List PoolCall := .allocate :: List.replicate 99 (.share ⟨257⟩)

/-- A frame with that many owners is no longer among the shared ones. -/
theorem not_shared_eq_card : ¬ ∀ (layout : Layout) (calls : List PoolCall),
    (PoolCall.run calls (initial layout)).2.stats.shared =
      (sharedFrames (PoolCall.run calls (initial layout)).2).card := by
  intro right
  exact absurd (right .buffered manySharers) (by decide +kernel)

end FramePool

end PagedMemory

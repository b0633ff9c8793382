import PagedMemory.Layout

/-!
The frame pool: one count for each frame from the end of the reserved region on. A count of 0 is a
free frame, 1 a frame of one owner, more a shared one; frames of the buffer cache start at
`bufferCount` and are never handed out. Reserved frames have no count: dropping or sharing one does
nothing.
-/

namespace PagedMemory

/-- The count that marks a frame of the buffer cache. -/
def bufferCount : Nat := 100

def maxCount : Nat := 65535

structure FramePool (layout : Layout) where
  counts : Vector Nat layout.poolFrames
  /-- Frames handed out so far. -/
  allocations : Nat
  /-- Frames given back so far. -/
  frees : Nat
  deriving DecidableEq

structure PoolStats where
  total : Nat
  free : Nat
  used : Nat
  /-- Frames with a count from 2 up to `bufferCount`, that one excluded. -/
  shared : Nat
  allocations : Nat
  frees : Nat
  deriving DecidableEq, Repr

def PoolStats.tally (stats : PoolStats) (count : Nat) : PoolStats :=
  if count = 0 then { stats with free := stats.free + 1 }
  else if count = 1 ∨ bufferCount ≤ count then { stats with used := stats.used + 1 }
  else { stats with used := stats.used + 1, shared := stats.shared + 1 }

theorem PoolStats.foldl_tally (counts : List Nat) (stats : PoolStats) :
    counts.foldl tally stats =
      { stats with
        free := stats.free + counts.countP (· == 0)
        used := stats.used + counts.countP (· != 0)
        shared := stats.shared + counts.countP fun count => 2 ≤ count && count < bufferCount } := by
  induction counts generalizing stats with
  | nil => rfl
  | cons count counts ih =>
      rw [List.foldl_cons, ih, tally]
      simp only [List.countP_cons]
      by_cases free : count = 0
      · simp [free, bufferCount]
        omega
      · by_cases single : count = 1 ∨ bufferCount ≤ count
        · have unshared : ¬ (2 ≤ count ∧ count < bufferCount) := by omega
          simp [free, single, unshared]
          omega
        · have shared : 2 ≤ count ∧ count < bufferCount := by omega
          simp [free, single, shared]
          omega

namespace FramePool

variable {layout : Layout}

def initial (layout : Layout) : FramePool layout :=
  ⟨Vector.ofFn fun i => if i.val < layout.bufferFrames then bufferCount else 0, 0, 0⟩

/-- Where the pool keeps the count of `frame`: nowhere for a reserved frame. -/
def place (layout : Layout) (frame : Frame) : Except FatalError (Option (Fin layout.poolFrames)) :=
  if frame.number < layout.firstPoolFrame then .ok none
  else if h : frame.number - layout.firstPoolFrame < layout.poolFrames then .ok (some ⟨_, h⟩)
  else .error (.nonexistentPage frame)

def frameAt (i : Fin layout.poolFrames) : Frame := ⟨layout.firstPoolFrame + i.val⟩

theorem place_frameAt (i : Fin layout.poolFrames) : place layout (frameAt i) = .ok (some i) := by
  have h : ¬ layout.firstPoolFrame + i.val < layout.firstPoolFrame := by omega
  have sub : layout.firstPoolFrame + i.val - layout.firstPoolFrame = i.val := by omega
  simp [place, frameAt, h, sub]

theorem frameAt_lt (i : Fin layout.poolFrames) : (frameAt i).number < layout.totalFrames := by
  have := layout.firstPoolFrame_add_poolFrames
  have := i.isLt
  simp only [frameAt]
  omega

def count? (pool : FramePool layout) (frame : Frame) : Option Nat :=
  match place layout frame with
  | .ok (some i) => some (pool.counts.get i)
  | _ => none

def isPooled (layout : Layout) (frame : Frame) : Bool :=
  match place layout frame with
  | .ok (some _) => true
  | _ => false

def lastFree (counts : Vector Nat layout.poolFrames) :
    (bound : Nat) → bound ≤ layout.poolFrames → Option (Fin layout.poolFrames)
  | 0, _ => none
  | bound + 1, h =>
      if counts[bound] = 0 then some ⟨bound, h⟩
      else lastFree counts bound (Nat.le_of_succ_le h)

/-- The free frame with the highest number, as its place. -/
def highestFree (pool : FramePool layout) : Option (Fin layout.poolFrames) :=
  lastFree pool.counts layout.poolFrames (Nat.le_refl _)

theorem lastFree_eq_none_iff {counts : Vector Nat layout.poolFrames} {bound : Nat}
    (h : bound ≤ layout.poolFrames) :
    lastFree counts bound h = none ↔
      ∀ i : Fin layout.poolFrames, i.val < bound → counts[i] ≠ 0 := by
  induction bound with
  | zero => simp [lastFree]
  | succ bound ih =>
      simp only [lastFree]
      split
      · rename_i free
        simp only [reduceCtorEq, false_iff]
        exact fun all => all ⟨bound, h⟩ (Nat.lt_succ_self _) free
      · rename_i taken
        rw [ih]
        constructor
        · intro all i hi
          by_cases last : i.val = bound
          · simpa [← last] using taken
          · exact all i (by omega)
        · exact fun all i hi => all i (by omega)

theorem lastFree_eq_some {counts : Vector Nat layout.poolFrames} {bound : Nat}
    {h : bound ≤ layout.poolFrames} {i : Fin layout.poolFrames}
    (found : lastFree counts bound h = some i) :
    counts[i] = 0 ∧ i.val < bound ∧
      ∀ j : Fin layout.poolFrames, i < j → j.val < bound → counts[j] ≠ 0 := by
  induction bound with
  | zero => simp [lastFree] at found
  | succ bound ih =>
      simp only [lastFree] at found
      split at found
      · rename_i free
        obtain rfl := Option.some.inj found
        exact ⟨free, Nat.lt_succ_self _, fun j above hj => absurd above (by
          simp only [Fin.lt_def]
          omega)⟩
      · rename_i taken
        obtain ⟨zero, lt, above⟩ := ih found
        refine ⟨zero, by omega, fun j hij hj => ?_⟩
        by_cases last : j.val = bound
        · simpa [← last] using taken
        · exact above j hij (by omega)

abbrev Change (layout : Layout) (ε : Type) := EStateM ε (FramePool layout)

def allocate {ε : Type} : Change layout ε (Option Frame) := fun pool =>
  match pool.highestFree with
  | none => .ok none pool
  | some i =>
      .ok (some (frameAt i))
        { pool with counts := pool.counts.set i 1, allocations := pool.allocations + 1 }

def free (frame : Frame) : Change layout FatalError Unit := fun pool =>
  match place layout frame with
  | .error error => .error error pool
  | .ok none => .ok () pool
  | .ok (some i) =>
      match pool.counts.get i with
      | 0 => .error (.doubleFree frame) pool
      | 1 => .ok () { pool with counts := pool.counts.set i 0, frees := pool.frees + 1 }
      | count + 2 => .ok () { pool with counts := pool.counts.set i (count + 1) }

def share (frame : Frame) : Change layout FatalError Unit := fun pool =>
  match place layout frame with
  | .error error => .error error pool
  | .ok none => .ok () pool
  | .ok (some i) =>
      let count := pool.counts.get i
      if count < maxCount then .ok () { pool with counts := pool.counts.set i (count + 1) }
      else .error (.countOverflow frame) pool

def toList (pool : FramePool layout) : List (Frame × Nat) :=
  (List.finRange layout.poolFrames).map fun i => (frameAt i, pool.counts.get i)

def freeCount (pool : FramePool layout) : Nat := pool.counts.countP (· == 0)

def stats (pool : FramePool layout) : PoolStats :=
  pool.counts.foldl PoolStats.tally ⟨layout.poolFrames, 0, 0, 0, pool.allocations, pool.frees⟩

theorem stats_eq (pool : FramePool layout) : pool.stats =
    { total := layout.poolFrames
      free := pool.counts.countP (· == 0)
      used := pool.counts.countP (· != 0)
      shared := pool.counts.countP fun count => 2 ≤ count && count < bufferCount
      allocations := pool.allocations
      frees := pool.frees } := by
  rw [stats, ← Vector.foldl_toList, PoolStats.foldl_tally]
  simp only [Vector.countP_toList, Nat.zero_add]

end FramePool

end PagedMemory

import PagedMemory.Proofs.ForkFailure

/-!
What a fork does to tables that were there before. Its duplication keeps every one of them and stops
at the first that stands in the child's range. But a fork that runs out of frames before it gets
that far releases the child's whole range, with what it had no part in: `fork_survives_iff`.
-/

namespace PagedMemory

namespace Manager

variable {layout : Layout} {m m' m'' : Manager layout} {held : Finset Frame}

open Operation

/-- The link of a block, and the frames behind its leaves, are what they were. -/
structure Survives (m m' : Manager layout) (block : Nat) : Prop where
  link : m'.memory.link block = m.memory.link block
  leaf : ∀ index frame, (m'.memory.leaf (block, index)).PointsAt frame ↔
    (m.memory.leaf (block, index)).PointsAt frame

theorem Survives.refl (m : Manager layout) (block : Nat) : m.Survives m block :=
  ⟨rfl, fun _ _ => Iff.rfl⟩

theorem Survives.trans {block : Nat} (first : m.Survives m' block)
    (second : m'.Survives m'' block) : m.Survives m'' block :=
  ⟨second.link.trans first.link,
    fun index frame => (second.leaf index frame).trans (first.leaf index frame)⟩

theorem BlockShared.survives {source target block : Nat}
    (shared : BlockShared m m' held source target) (apart : block ≠ target) :
    m.Survives m' block := by
  refine ⟨shared.link block apart, ?_⟩
  intro index frame
  have leaf := shared.leaf (block, index)
  rw [if_neg apart] at leaf
  rw [leaf]
  split
  · exact Entry.pointsAt_writeProtected
  · exact Iff.rfl

theorem Released.survives {first blocks block : Nat} (released : m.Released m' first blocks)
    (outside : ¬ (first ≤ block ∧ block < first + blocks)) : m.Survives m' block := by
  refine ⟨?_, ?_⟩
  · rw [released.link, if_neg outside]
  · intro index frame
    rw [released.leaf, if_neg outside]

/-- Every block that has a table survives. -/
def KeepsTables (m m' : Manager layout) : Prop :=
  ∀ block, (m.memory.link block).isPresent = true → m.Survives m' block

theorem keepsTables_self (m : Manager layout) : m.KeepsTables m :=
  fun block _ => Survives.refl m block

theorem KeepsTables.flushed (kept : m.KeepsTables m') : m.KeepsTables m'.flushed :=
  fun block present => ⟨(kept block present).link, (kept block present).leaf⟩

theorem KeepsTables.share {source target : Nat} (kept : m.KeepsTables m')
    (absent : (m'.memory.link target).isPresent = false)
    (shared : BlockShared m' m'' held source target) : m.KeepsTables m'' := by
  intro block present
  have survives := kept block present
  have apart : block ≠ target := by
    rintro rfl
    rw [survives.link, present] at absent
    cases absent
  exact survives.trans (shared.survives apart)

section Range

variable {source target : LinearAddr} {blocks size : Nat}

theorem Sound.shareBlocks_keepsTables (sound : m.Sound held)
    (members : ∀ block < blocks, source.dirIndex + block ∈ layout.taskBlocks)
    (members' : ∀ block < blocks, target.dirIndex + block ∈ layout.taskBlocks)
    (whole : sharedEntries source = entriesPerTable) :
    (∃ m', shareBlocks source target blocks m = .ok () m' ∧ m'.Sound held ∧ m.KeepsTables m' ∧
      ∀ block < blocks, (m.memory.link (target.dirIndex + block)).isPresent = false) ∨
    ∃ error m', shareBlocks source target blocks m = .error error m' ∧ m'.Sound held ∧
      m.KeepsTables m' := by
  have rounds := forM_cases
    (fun block => duplicateBlock (sharedEntries source) (source.dirIndex + block)
      (target.dirIndex + block))
    (fun n m' => m'.Sound held ∧ m.KeepsTables m' ∧
      ∀ block < n, (m.memory.link (target.dirIndex + block)).isPresent = false)
    (fun _ _ m' => m'.Sound held ∧ m.KeepsTables m') (List.range blocks) (by
      rintro n inside m₁ ⟨sound₁, kept, vacant⟩
      rw [List.length_range] at inside
      rw [List.getElem_range, whole]
      rcases sound₁.duplicateBlock_cases (members n inside) (members' n inside) with
        ⟨-, run⟩ | ⟨-, -, run⟩ | ⟨absent, m₂, run, shared⟩
      · exact Or.inr ⟨_, m₁, run, sound₁, kept⟩
      · exact Or.inr ⟨_, m₁, run, sound₁, kept⟩
      · refine Or.inl ⟨m₂, run, shared.sound, kept.share absent shared, ?_⟩
        intro block below
        rcases Nat.lt_succ_iff_lt_or_eq.mp below with earlier | rfl
        · exact vacant block earlier
        · by_contra occupied
          have present := Bool.not_eq_false _ ▸ occupied
          rw [(kept _ present).link, present] at absent
          cases absent)
    m ⟨sound, keepsTables_self m, fun _ below => absurd below (Nat.not_lt_zero _)⟩
  rw [List.length_range] at rounds
  rcases rounds with ⟨m', run, sound', kept, vacant⟩ | ⟨_, error, m', -, run, sound', kept⟩
  · exact Or.inl ⟨m', run, sound', kept, vacant⟩
  · exact Or.inr ⟨error, m', run, sound', kept⟩

theorem Sound.fork_keepsTables (sound : m.Sound held)
    (task : layout.kernelTables ≤ source.dirIndex) (task' : layout.kernelTables ≤ target.dirIndex)
    (limit : Nat) :
    (∃ m', fork source target limit m = .ok () m' ∧ m.KeepsTables m' ∧
      ∀ block < blocksSpanned limit, (m.memory.link (target.dirIndex + block)).isPresent = false) ∨
    (∃ error m', fork source target limit m = .error (.fatal error) m' ∧ m.KeepsTables m') ∨
    ∃ m₁ m', fork source target limit m = .error .outOfMemory m' ∧ m.KeepsTables m₁ ∧
      m₁.Released m' target.dirIndex (blocksSpanned limit) := by
  rcases duplicate_checked_or_refused m with ⟨checked, shares⟩ | ⟨error, refused⟩
  · obtain ⟨⟨aligned, aligned'⟩, fits, fits'⟩ := checkDuplicate_eq_ok_iff.mp checked
    have within := Layout.inTaskSpace_of_blocks task aligned fits
    have within' := Layout.inTaskSpace_of_blocks task' aligned' fits'
    rcases sound.shareBlocks_keepsTables (fun _ => within.mem_taskBlocks aligned)
        (fun _ => within'.mem_taskBlocks aligned') within.sharedEntries_eq with
      ⟨m₁, run, -, kept, vacant⟩ | ⟨error, m₁, run, sound₁, kept⟩
    · have duplicates := shares.trans (thenFlush_ok run)
      exact Or.inl ⟨m₁.flushed, bind_ok (attempt_ok duplicates), kept.flushed, vacant⟩
    · have duplicates := shares.trans (thenFlush_error run)
      cases error with
      | fatal error =>
          exact Or.inr (Or.inl
            ⟨error, m₁.flushed, bind_ok (attempt_error duplicates), kept.flushed⟩)
      | outOfMemory =>
          have flushed : m₁.flushed.Sound held := sound₁
          obtain ⟨m₂, failed, -, released⟩ :=
            flushed.exists_fork_of_duplicate within' aligned' duplicates
          exact Or.inr (Or.inr ⟨m₁.flushed, m₂, failed, kept.flushed, released⟩)
  · exact Or.inr (Or.inl ⟨error, m, bind_ok (attempt_error refused), keepsTables_self m⟩)

theorem Sound.exists_released_of_full (sound : m.Sound held) {limit : Nat}
    (within : layout.InTaskSpace source limit) (within' : layout.InTaskSpace target limit)
    (aligned : source.isBlockAligned = true) (aligned' : target.isBlockAligned = true)
    (full : ((Call.duplicate source target limit).perform m).1 = .outOfMemory) :
    ∃ m₁ m' : Manager layout, (Call.fork source target limit).perform m = (.outOfMemory, m') ∧
      m₁.Released m' target.dirIndex (blocksSpanned limit) := by
  obtain ⟨m₁, failed⟩ := exists_of_report_outOfMemory full
  rcases sound.duplicate_cases within within' aligned aligned' with
    ⟨_, run, -⟩ | ⟨m₂, run, sound₂, -⟩ | ⟨_, _, -, run, -⟩
  · cases run.symm.trans failed
  · obtain ⟨m', fails, -, released⟩ := sound₂.exists_fork_of_duplicate within' aligned' run
    exact ⟨m₂, m', congrArg (report _ _) fails, released⟩
  · cases run.symm.trans failed

end Range

end Manager

open Manager

variable {layout : Layout} {m : Manager layout} {held : Finset Frame}

/-- Tables that stand in the child's range survive a fork unless it runs out of frames: then the
whole range is empty afterwards. All other tables survive every fork. -/
theorem Reachable.fork_survives_iff (reachable : Reachable layout m held)
    {parent child : LinearAddr} (task : layout.kernelTables ≤ parent.dirIndex)
    (task' : layout.kernelTables ≤ child.dirIndex) (limit : Nat) :
    (∀ block, ¬ (child.dirIndex ≤ block ∧ block < child.dirIndex + blocksSpanned limit) →
      (m.memory.link block).isPresent = true →
      m.Survives ((Call.fork parent child limit).perform m).2 block) ∧
    (((Call.fork parent child limit).perform m).1 = .done →
      ∀ block < blocksSpanned limit, (m.memory.link (child.dirIndex + block)).isPresent = false) ∧
    (((Call.fork parent child limit).perform m).1 = .outOfMemory →
      ∀ block < blocksSpanned limit,
        ((Call.fork parent child limit).perform m).2.memory.link (child.dirIndex + block) =
          .empty ∧
        ∀ index, ((Call.fork parent child limit).perform m).2.memory.leaf
          (child.dirIndex + block, index) = .empty) ∧
    ((∀ block < blocksSpanned limit,
        (m.memory.link (child.dirIndex + block)).isPresent = true →
        m.Survives ((Call.fork parent child limit).perform m).2 (child.dirIndex + block)) ↔
      (((Call.fork parent child limit).perform m).1 = .outOfMemory →
        ∀ block < blocksSpanned limit,
          (m.memory.link (child.dirIndex + block)).isPresent = false)) := by
  rcases reachable.sound.fork_keepsTables task task' limit with
    ⟨m', run, kept, vacant⟩ | ⟨error, m', run, kept⟩ | ⟨m₁, m', run, kept, released⟩
  · have ends : (Call.fork parent child limit).perform m = (.done, m') :=
      congrArg (report _ _) run
    rw [ends]
    have roomy : (Outcome.done, m').1 ≠ .outOfMemory := Outcome.noConfusion
    exact ⟨fun block _ => kept block, fun _ => vacant, fun full => absurd full roomy,
      iff_of_true (fun block _ => kept _) (fun full => absurd full roomy)⟩
  · have ends : (Call.fork parent child limit).perform m = (.fatal error, m') :=
      congrArg (report _ _) run
    rw [ends]
    have roomy : (Outcome.fatal error, m').1 ≠ .outOfMemory := Outcome.noConfusion
    exact ⟨fun block _ => kept block, fun done => (Outcome.noConfusion done),
      fun full => absurd full roomy,
      iff_of_true (fun block _ => kept _) (fun full => absurd full roomy)⟩
  -- only a fork that has run out of frames releases anything
  · have ends : (Call.fork parent child limit).perform m = (.outOfMemory, m') :=
      congrArg (report _ _) run
    have covered {block : Nat} (below : block < blocksSpanned limit) :
        child.dirIndex ≤ child.dirIndex + block ∧
          child.dirIndex + block < child.dirIndex + blocksSpanned limit := by omega
    have gone {block : Nat} (below : block < blocksSpanned limit) :
        m'.memory.link (child.dirIndex + block) = .empty := by
      rw [released.link, if_pos (covered below)]
    rw [ends]
    refine ⟨?_, fun done => Outcome.noConfusion done, ?_, ?_⟩
    · exact fun block outside present => (kept block present).trans (released.survives outside)
    · intro _ block below
      refine ⟨gone below, ?_⟩
      intro index
      rw [released.leaf, if_pos (covered below)]
    · constructor
      · intro survive _ block below
        by_contra occupied
        have present := Bool.not_eq_false _ ▸ occupied
        rw [← (survive block below present).link, gone below] at present
        exact absurd present (by decide)
      · intro vacant block below present
        rw [vacant rfl block below] at present
        cases present

def occupiedPage : LinearAddr := LinearAddr.ofNat 16777216

/-- The tiny machine with two pages, each with a table of its own, so that no frame is left. -/
def doublyFilled : Manager .tiny := ((Call.noPage occupiedPage).perform filled).2

theorem reachable_doublyFilled : Reachable .tiny doublyFilled ∅ :=
  reachable_filled.step (.noPage occupiedPage)
    (show Layout.tiny.kernelTables ≤ occupiedPage.dirIndex by decide) (by decide +kernel)

def occupiedChild : LinearAddr := LinearAddr.ofNat 12582912

theorem exists_released_doublyFilled : ∃ m₁ m' : Manager .tiny,
    (Call.fork firstPage occupiedChild (2 * blockSize)).perform doublyFilled =
        (.outOfMemory, m') ∧
      m₁.Released m' occupiedChild.dirIndex (blocksSpanned (2 * blockSize)) :=
  reachable_doublyFilled.sound.exists_released_of_full ⟨by decide, by decide⟩
    ⟨by decide, by decide⟩ (by decide) (by decide) (by decide +kernel)

/-- The failed fork has emptied the second block of the child's range, which had a table. -/
theorem fork_survives_iff_doublyFilled :
    (doublyFilled.memory.link 4).isPresent = true ∧
      ((Call.fork firstPage occupiedChild (2 * blockSize)).perform doublyFilled).2.memory.link 4 =
        .empty := by
  obtain ⟨_, m', ends, -⟩ := exists_released_doublyFilled
  obtain ⟨-, -, emptied, -⟩ := Reachable.fork_survives_iff reachable_doublyFilled
    (show Layout.tiny.kernelTables ≤ firstPage.dirIndex by decide)
    (show Layout.tiny.kernelTables ≤ occupiedChild.dirIndex by decide) (2 * blockSize)
  exact ⟨by decide +kernel, (emptied (congrArg Prod.fst ends) 1 (by decide)).1⟩

/-- A fork does not keep every table that stands in the child's range. -/
theorem fork_empties_occupied_block :
    ¬ ∀ (layout : Layout) (m : Manager layout) (held : Finset Frame) (parent child : LinearAddr)
      (limit : Nat), Reachable layout m held → layout.InTaskSpace parent limit →
      layout.InTaskSpace child limit → parent.isBlockAligned = true →
      child.isBlockAligned = true → ∀ block < blocksSpanned limit,
        (m.memory.link (child.dirIndex + block)).isPresent = true →
        m.Survives ((Call.fork parent child limit).perform m).2 (child.dirIndex + block) := by
  intro claim
  obtain ⟨_, m', ends, released⟩ := exists_released_doublyFilled
  have present : (doublyFilled.memory.link 4).isPresent = true := by decide +kernel
  have survives := claim .tiny doublyFilled ∅ firstPage occupiedChild (2 * blockSize)
    reachable_doublyFilled ⟨by decide, by decide⟩ ⟨by decide, by decide⟩ (by decide) (by decide)
    1 (by decide) present
  rw [ends] at survives
  have same : m'.memory.link 4 = doublyFilled.memory.link 4 := survives.link
  have gone : m'.memory.link 4 = .empty := (released.link 4).trans (if_pos (by decide))
  rw [← same, gone] at present
  cases present

end PagedMemory

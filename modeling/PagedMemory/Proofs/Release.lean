import PagedMemory.Proofs.Primitives
import PagedMemory.Space.Release

/-!
Releasing blocks of task space. Nothing is left of a block: neither its link nor its leaves, and
tasks find zeros there. A range that starts at a block boundary is always released.
-/

namespace PagedMemory

namespace Operation

variable {layout : Layout} {good : Manager layout → Prop}

open Manager

section Steps

variable (empties : ∀ slot, Keeps good (setEntry slot .empty))
  (drops : ∀ frame, Keeps good (freeFrame frame))

include empties drops

theorem Keeps.releaseLeaf (table : Frame) (index : Nat) :
    Keeps good (releaseLeaf table index) := by
  rw [Manager.releaseLeaf]
  refine (Keeps.ask _).bind fun entry => ?_
  cases entry.isPresent with
  | true => exact (drops _).bind fun _ => empties _
  | false => exact empties _

theorem Keeps.unlink (table : Frame) (block : Nat) :
    Keeps good (freeFrame table >>= fun _ => setEntry (dirSlot block) .empty) :=
  (drops table).bind fun _ => empties _

theorem Keeps.releaseBlock (block : Nat) : Keeps good (releaseBlock block) := by
  rw [Manager.releaseBlock]
  refine (Keeps.ask _).bind fun link => ?_
  cases link.isPresent with
  | true =>
      exact (Keeps.forM fun index _ => Keeps.releaseLeaf empties drops _ index).bind fun _ =>
        Keeps.unlink empties drops _ block
  | false => exact Keeps.pure _

theorem Keeps.release (flushes : ∀ m, good m → good m.flushed) (start : LinearAddr) (size : Nat) :
    Keeps good (release start size) :=
  (Keeps.ask _).bind fun _ =>
    (Keeps.forM fun block _ => Keeps.releaseBlock empties drops block).thenFlush flushes

end Steps

end Operation

namespace Manager

variable {layout : Layout} {m m' : Manager layout} {held : Finset Frame}

open Operation

/-- The blocks from `first` on, `blocks` of them, are gone, and nothing else has changed. -/
structure Released (m m' : Manager layout) (first blocks : Nat) : Prop where
  link : ∀ block, m'.memory.link block =
    if first ≤ block ∧ block < first + blocks then .empty else m.memory.link block
  leaf : ∀ place, m'.memory.leaf place =
    if first ≤ place.1 ∧ place.1 < first + blocks then .empty else m.memory.leaf place
  seen : ∀ place ∈ layout.taskPlaces, m'.memory.seen place =
    if first ≤ place.1 ∧ place.1 < first + blocks then Page.zero else m.memory.seen place

theorem released_zero (m : Manager layout) (first : Nat) : m.Released m first 0 := by
  have none (block : Nat) : ¬ (first ≤ block ∧ block < first + 0) := by omega
  refine ⟨?_, ?_, ?_⟩
  · intro block
    rw [if_neg (none block)]
  · intro place
    rw [if_neg (none place.1)]
  · intro place _
    rw [if_neg (none place.1)]

theorem released_one {block : Nat}
    (link : ∀ other, m'.memory.link other =
      if other = block then .empty else m.memory.link other)
    (leaf : ∀ place, m'.memory.leaf place =
      if place.1 = block then .empty else m.memory.leaf place)
    (seen : ∀ place ∈ layout.taskPlaces, m'.memory.seen place =
      if place.1 = block then Page.zero else m.memory.seen place) : m.Released m' block 1 := by
  have only (other : Nat) : other = block ↔ block ≤ other ∧ other < block + 1 := by omega
  refine ⟨?_, ?_, ?_⟩
  · intro other
    rw [link]
    exact if_congr (only other) rfl rfl
  · intro place
    rw [leaf]
    exact if_congr (only place.1) rfl rfl
  · intro place inside
    rw [seen place inside]
    exact if_congr (only place.1) rfl rfl

theorem Released.succ {m'' : Manager layout} {first blocks : Nat}
    (released : m.Released m' first blocks) (next : m'.Released m'' (first + blocks) 1) :
    m.Released m'' first (blocks + 1) := by
  have split {α : Type} (block : Nat) (nothing old : α) :
      (if first + blocks ≤ block ∧ block < first + blocks + 1 then nothing
        else if first ≤ block ∧ block < first + blocks then nothing else old) =
      if first ≤ block ∧ block < first + (blocks + 1) then nothing else old := by
    grind
  refine ⟨?_, ?_, ?_⟩
  · intro block
    rw [next.link, released.link, split]
  · intro place
    rw [next.leaf, released.leaf, split]
  · intro place inside
    rw [next.seen place inside, released.seen place inside, split]

theorem Sound.exists_releaseLeaf (sound : m.Sound held) {place : Nat × Nat}
    (inside : place ∈ layout.taskPlaces) (linked : (m.memory.link place.1).isPresent = true) :
    ∃ m', releaseLeaf (m.memory.link place.1).frame place.2 m = .ok () m' ∧ m'.Sound held ∧
      m'.Shows m.memory.link (Function.update m.memory.leaf place .empty)
        (Function.update m.memory.seen place Page.zero) := by
  have read : (ask (·.entryAt ⟨(m.memory.link place.1).frame, place.2⟩) :
      Operation layout FatalError Entry) m = .ok (m.memory.leaf place) m :=
    ask_ok (sound.entryAt_eq place linked)
  have vanish : Entry.empty.isPresent = true → Entry.empty.frame ≠ (m.memory.link place.1).frame :=
    fun present => nomatch present
  have seen (other : Nat × Nat) (member : other ∈ layout.taskPlaces) :
      (m.memory.setLeaf place .empty).seen other =
        Function.update m.memory.seen place Page.zero other :=
    sound.seen_setLeaf inside linked _ vanish member
  by_cases present : (m.memory.leaf place).isPresent = true
  · have counted := sound.balanced.count_pos_of_leaf inside present
    have task := sound.balanced.mapped place inside present
    obtain ⟨pool, run, count⟩ := m.pool.exists_free task.pooled (by omega)
    have drop : freeFrame (m.memory.leaf place).frame m = .ok () { m with pool := pool } :=
      onPool_ok run
    have books := sound.balanced.dropLeaf inside present
    rw [← count] at books
    refine ⟨{ m with pool := pool, memory := m.memory.setLeaf place .empty, tlbStale := true }, ?_,
      sound.setLeaf inside linked .empty books, sound.link_setLeaf place linked _,
      sound.leaf_setLeaf inside linked _, seen⟩
    rw [releaseLeaf, bind_ok read]
    simp only [present, if_true]
    exact (bind_ok drop).trans
      (setEntry_leaf { m with pool := pool } place .empty (sound.link_inside linked))
  · have absent : (m.memory.leaf place).isPresent = false := Bool.not_eq_true _ ▸ present
    have empty := sound.balanced.leafEmpty place inside absent
    have books : Balanced layout m.memory.link (Function.update m.memory.leaf place .empty)
        m.pool.count held := by
      rw [← empty, Function.update_eq_self]
      exact sound.balanced
    refine ⟨{ m with memory := m.memory.setLeaf place .empty, tlbStale := true }, ?_,
      sound.setLeaf inside linked .empty books, sound.link_setLeaf place linked _,
      sound.leaf_setLeaf inside linked _, seen⟩
    rw [releaseLeaf, bind_ok read]
    simp only [absent, Bool.false_eq_true, if_false]
    exact setEntry_leaf m place .empty (sound.link_inside linked)

structure Vacated (m m' : Manager layout) (held : Finset Frame) (block entries : Nat) : Prop where
  sound : m'.Sound held
  link : m'.memory.link = m.memory.link
  leaf : ∀ place, m'.memory.leaf place =
    if place.1 = block ∧ place.2 < entries then .empty else m.memory.leaf place
  seen : ∀ place ∈ layout.taskPlaces, m'.memory.seen place =
    if place.1 = block ∧ place.2 < entries then Page.zero else m.memory.seen place

theorem Vacated.exists_releaseLeaf {block entries : Nat}
    (vacated : Vacated m m' held block entries) (member : block ∈ layout.taskBlocks)
    (linked : (m.memory.link block).isPresent = true) (bound : entries < entriesPerTable) :
    ∃ m'', releaseLeaf (m.memory.link block).frame entries m' = .ok () m'' ∧
      Vacated m m'' held block (entries + 1) := by
  have inside : (block, entries) ∈ layout.taskPlaces := Layout.mem_taskPlaces.mpr ⟨member, bound⟩
  have linked' : (m'.memory.link block).isPresent = true := by
    rw [vacated.link]
    exact linked
  obtain ⟨m'', run, sound, shows⟩ := vacated.sound.exists_releaseLeaf inside linked'
  have step {α : Type} (place : Nat × Nat) (nothing : α) (old now : Nat × Nat → α)
      (before : now place = if place.1 = block ∧ place.2 < entries then nothing else old place) :
      Function.update now (block, entries) nothing place =
        if place.1 = block ∧ place.2 < entries + 1 then nothing else old place := by
    rcases place with ⟨other, index⟩
    by_cases same : (other, index) = (block, entries)
    · obtain ⟨rfl, rfl⟩ := Prod.mk.inj same
      rw [Function.update_self, if_pos ⟨rfl, Nat.lt_succ_self _⟩]
    · have bounds : other = block ∧ index < entries ↔ other = block ∧ index < entries + 1 := by
        have differ : other = block → index ≠ entries := fun here there =>
          same (Prod.ext here there)
        omega
      rw [Function.update_of_ne same, before]
      exact if_congr bounds rfl rfl
  refine ⟨m'', ?_, sound, shows.link.trans vacated.link, ?_, ?_⟩
  · rw [← vacated.link]
    exact run
  · intro place
    rw [shows.leaf]
    exact step place _ _ _ (vacated.leaf place)
  · intro place member'
    rw [shows.seen place member']
    exact step place _ _ _ (vacated.seen place member')

theorem Sound.exists_unlink (sound : m.Sound held) {block : Nat}
    (member : block ∈ layout.taskBlocks) (linked : (m.memory.link block).isPresent = true)
    (vacant : ∀ index, m.memory.leaf (block, index) = .empty) :
    ∃ m', (freeFrame (m.memory.link block).frame >>= fun _ => setEntry (dirSlot block) .empty) m =
        .ok () m' ∧ m'.Sound held ∧
      m'.Shows (Function.update m.memory.link block .empty) m.memory.leaf m.memory.seen := by
  obtain ⟨task, once⟩ := sound.balanced.linked block member linked
  obtain ⟨pool, run, count⟩ := m.pool.exists_free task.pooled (by omega)
  have drop : freeFrame (m.memory.link block).frame m = .ok () { m with pool := pool } :=
    onPool_ok run
  have books := sound.balanced.unlink member linked
  rw [once] at count
  rw [← count] at books
  have leaves := sound.leaf_setLink_empty member vacant
  refine ⟨_, (bind_ok drop).trans (setEntry_link { m with pool := pool } block .empty),
    sound.setLink member .empty leaves books, m.memory.link_setLink_of_task member _, leaves, ?_⟩
  intro place inside
  exact sound.seen_setLink leaves inside

theorem Sound.exists_vacate (sound : m.Sound held) {block : Nat}
    (member : block ∈ layout.taskBlocks)
    (linked : (m.memory.link block).isPresent = true) :
    ∃ m', (List.range entriesPerTable).forM (releaseLeaf (m.memory.link block).frame) m =
        .ok () m' ∧ Vacated m m' held block entriesPerTable := by
  obtain ⟨m', loop, vacated⟩ := forM_ok (releaseLeaf (m.memory.link block).frame)
    (fun n m' => Vacated m m' held block n) (List.range entriesPerTable) (by
      intro n inside m' vacated
      rw [List.length_range] at inside
      rw [List.getElem_range]
      exact vacated.exists_releaseLeaf member linked inside) m
    ⟨sound, rfl, fun place => (if_neg fun both => Nat.not_lt_zero _ both.2).symm,
      fun place _ => (if_neg fun both => Nat.not_lt_zero _ both.2).symm⟩
  rw [List.length_range] at vacated
  exact ⟨m', loop, vacated⟩

theorem Sound.released_of_absent (sound : m.Sound held) {block : Nat}
    (member : block ∈ layout.taskBlocks) (absent : (m.memory.link block).isPresent = false) :
    m.Released m block 1 := by
  apply released_one
  · intro other
    by_cases same : other = block
    · rw [if_pos same, same]
      exact sound.balanced.linkEmpty block member absent
    · rw [if_neg same]
  · intro place
    by_cases same : place.1 = block
    · rw [if_pos same]
      exact PhysicalMemory.leaf_of_absent place (same ▸ absent)
    · rw [if_neg same]
  · intro place _
    by_cases same : place.1 = block
    · rw [if_pos same]
      exact PhysicalMemory.seen_of_unlinked place (same ▸ absent)
    · rw [if_neg same]

theorem releaseBlock_of_absent {block : Nat} (absent : (m.memory.link block).isPresent = false) :
    releaseBlock block m = .ok () m := by
  rw [releaseBlock, bind_ok (ask_ok (dirEntry_eq m block))]
  simp only [absent, Bool.false_eq_true, if_false]
  rfl

theorem Sound.exists_releaseBlock (sound : m.Sound held) {block : Nat}
    (member : block ∈ layout.taskBlocks) :
    ∃ m', releaseBlock block m = .ok () m' ∧ m'.Sound held ∧ m.Released m' block 1 := by
  have read : (ask (·.dirEntry block) : Operation layout FatalError Entry) m =
      .ok (m.memory.link block) m := ask_ok (dirEntry_eq m block)
  by_cases linked : (m.memory.link block).isPresent = true
  · obtain ⟨m₁, loop, vacated⟩ := sound.exists_vacate member linked
    have vacant (index : Nat) : m₁.memory.leaf (block, index) = .empty := by
      by_cases bound : index < entriesPerTable
      · rw [vacated.leaf, if_pos ⟨rfl, bound⟩]
      · exact PhysicalMemory.leaf_of_le (Nat.le_of_not_lt bound)
    have linked' : (m₁.memory.link block).isPresent = true := by
      rw [vacated.link]
      exact linked
    obtain ⟨m₂, done, sound₂, shows⟩ := vacated.sound.exists_unlink member linked' vacant
    have done' : (freeFrame (m.memory.link block).frame >>= fun _ =>
        setEntry (dirSlot block) .empty) m₁ = .ok () m₂ := by
      rw [← vacated.link]
      exact done
    refine ⟨m₂, ?_, sound₂, released_one ?_ ?_ ?_⟩
    · rw [releaseBlock, bind_ok read]
      simp only [linked, if_true]
      exact (bind_ok loop).trans done'
    · intro other
      rw [shows.link, vacated.link, Function.update_apply]
    · intro place
      rw [shows.leaf]
      by_cases same : place.1 = block
      · rw [if_pos same]
        rw [← same] at vacant
        exact vacant place.2
      · rw [if_neg same, vacated.leaf, if_neg (fun both => same both.1)]
    · intro place inside
      have bound := (Layout.mem_taskPlaces.mp inside).2
      rw [shows.seen place inside, vacated.seen place inside]
      exact if_congr (and_iff_left bound) rfl rfl
  · have absent : (m.memory.link block).isPresent = false := Bool.not_eq_true _ ▸ linked
    exact ⟨m, releaseBlock_of_absent absent, sound, sound.released_of_absent member absent⟩

theorem requireAligned_eq {operation : String} {addr : LinearAddr}
    (aligned : addr.isBlockAligned = true) : requireAligned operation addr = .ok () :=
  if_pos aligned

theorem requireAligned_of_misaligned {operation : String} {addr : LinearAddr}
    (misaligned : addr.isBlockAligned = false) :
    requireAligned operation addr = .error (.misaligned operation addr) := by
  rw [requireAligned, misaligned]
  rfl

theorem checkRelease_eq_ok_iff {start : LinearAddr} {size : Nat} :
    checkRelease start size = .ok () ↔ start.isBlockAligned = true ∧ start.toNat ≠ 0 ∧
      start.dirIndex + blocksSpanned size ≤ entriesPerDirectory := by
  simp only [checkRelease, requireAligned, requireInDirectory, bind, Except.bind]
  grind

theorem checkRelease_eq {start : LinearAddr} {size : Nat} (within : layout.InTaskSpace start size)
    (aligned : start.isBlockAligned = true) : checkRelease start size = .ok () :=
  checkRelease_eq_ok_iff.mpr ⟨aligned, within.toNat_ne_zero, within.blocks_le aligned⟩

theorem release_of_misaligned {start : LinearAddr} (misaligned : start.isBlockAligned = false)
    (size : Nat) (m : Manager layout) :
    release start size m = .error (.misaligned "free_page_tables" start) m := by
  have refused : checkRelease start size = .error (.misaligned "free_page_tables" start) := by
    rw [checkRelease, requireAligned_of_misaligned misaligned]
    rfl
  exact bind_error (ask_error refused)

theorem Sound.exists_release (sound : m.Sound held) {start : LinearAddr} {size : Nat}
    (within : layout.InTaskSpace start size) (aligned : start.isBlockAligned = true) :
    ∃ m', release start size m = .ok () m' ∧ m'.Sound held ∧
      m.Released m' start.dirIndex (blocksSpanned size) := by
  have checked : (ask (fun _ => checkRelease start size) : Operation layout FatalError Unit) m =
      .ok () m := ask_ok (checkRelease_eq within aligned)
  obtain ⟨m₁, loop, sound₁, released⟩ := forM_ok releaseBlock
    (fun n m' => m'.Sound held ∧ m.Released m' start.dirIndex n)
    (List.range' start.dirIndex (blocksSpanned size)) (by
      intro n inside m' kept
      rw [List.length_range'] at inside
      rw [List.getElem_range', Nat.one_mul]
      obtain ⟨m'', run, sound', next⟩ :=
        kept.1.exists_releaseBlock (within.mem_taskBlocks aligned inside)
      exact ⟨m'', run, sound', kept.2.succ next⟩) m ⟨sound, released_zero m start.dirIndex⟩
  rw [List.length_range'] at released
  refine ⟨m₁.flushed, ?_, sound₁, released.link, released.leaf, released.seen⟩
  rw [release, bind_ok checked]
  exact thenFlush_ok loop

end Manager

end PagedMemory

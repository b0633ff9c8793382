import Mathlib.Algebra.BigOperators.Group.Finset.Piecewise
import Mathlib.Data.Finset.Card
import Mathlib.Data.Finset.Prod
import Mathlib.Order.Interval.Finset.Nat
import PagedMemory.Proofs.Counts
import PagedMemory.Proofs.Entries

/-!
The books that tables and counts keep together. `Balanced` says who owns which frame: a table
belongs to one link, a frame that may be written to one leaf, and a count is the number of links
and leaves that point at the frame, and one more for a frame that the caller holds. The lemmas say
how the books stay balanced when one word and one count change.
-/

namespace PagedMemory

namespace Layout

def taskBlocks (layout : Layout) : Finset Nat := Finset.Ico layout.kernelTables entriesPerDirectory

/-- Pages of the linear space that tasks use. -/
def taskPlaces (layout : Layout) : Finset (Nat × Nat) :=
  layout.taskBlocks ×ˢ Finset.range entriesPerTable

variable {layout : Layout}

theorem mem_taskBlocks {block : Nat} :
    block ∈ layout.taskBlocks ↔ layout.kernelTables ≤ block ∧ block < entriesPerDirectory :=
  Finset.mem_Ico

theorem mem_taskPlaces {place : Nat × Nat} :
    place ∈ layout.taskPlaces ↔ place.1 ∈ layout.taskBlocks ∧ place.2 < entriesPerTable := by
  rw [taskPlaces, Finset.mem_product, Finset.mem_range]

theorem kernelTables_le_of_mem {place : Nat × Nat} (inside : place ∈ layout.taskPlaces) :
    layout.kernelTables ≤ place.1 :=
  (mem_taskBlocks.mp (mem_taskPlaces.mp inside).1).1

end Layout

def linksTo (layout : Layout) (link : Nat → Entry) (frame : Frame) : Finset Nat :=
  {block ∈ layout.taskBlocks | (link block).PointsAt frame}

/-- The leaves that map `frame`. -/
def leavesTo (layout : Layout) (leaf : Nat × Nat → Entry) (frame : Frame) : Finset (Nat × Nat) :=
  {place ∈ layout.taskPlaces | (leaf place).PointsAt frame}

theorem mem_leavesTo {layout : Layout} {leaf : Nat × Nat → Entry} {frame : Frame}
    {place : Nat × Nat} : place ∈ leavesTo layout leaf frame ↔
      place ∈ layout.taskPlaces ∧ (leaf place).PointsAt frame :=
  Finset.mem_filter

structure Balanced (layout : Layout) (link : Nat → Entry) (leaf : Nat × Nat → Entry)
    (count : Frame → Nat) (held : Finset Frame) : Prop where
  /-- A table is counted once. -/
  linked : ∀ block ∈ layout.taskBlocks, (link block).isPresent = true →
    layout.IsTaskFrame (link block).frame ∧ count (link block).frame = 1
  mapped : ∀ place ∈ layout.taskPlaces, (leaf place).isPresent = true →
    layout.IsTaskFrame (leaf place).frame
  /-- A page that can be written is counted once. -/
  exclusive : ∀ place ∈ layout.taskPlaces, (leaf place).isPresent = true →
    (leaf place).isWritable = true → count (leaf place).frame = 1
  /-- A frame has the same index in every table that maps it. -/
  aligned : ∀ place ∈ layout.taskPlaces, ∀ other ∈ layout.taskPlaces,
    (leaf place).isPresent = true → (leaf other).isPresent = true →
    (leaf place).frame = (leaf other).frame → place.2 = other.2
  linkEmpty : ∀ block ∈ layout.taskBlocks, (link block).isPresent = false → link block = .empty
  leafEmpty : ∀ place ∈ layout.taskPlaces, (leaf place).isPresent = false → leaf place = .empty
  /-- A frame in the caller's hands is counted once. -/
  owned : ∀ frame ∈ held, layout.IsTaskFrame frame ∧ count frame = 1
  cached : ∀ frame, layout.IsCached frame → count frame = bufferCount
  counted : ∀ frame, layout.IsTaskFrame frame →
    count frame = (linksTo layout link frame).card + (leavesTo layout leaf frame).card +
      if frame ∈ held then 1 else 0

theorem card_filter_update {α : Type} [DecidableEq α] {places : Finset α} {place : α}
    (old new : α → Prop) [DecidablePred old] [DecidablePred new] (member : place ∈ places)
    (same : ∀ other ∈ places, other ≠ place → (new other ↔ old other)) :
    {other ∈ places | new other}.card + (if old place then 1 else 0) =
      {other ∈ places | old other}.card + if new place then 1 else 0 := by
  have rest : ∑ other ∈ places.erase place, (if new other then 1 else 0) =
      ∑ other ∈ places.erase place, if old other then 1 else 0 := by
    apply Finset.sum_congr rfl
    intro other inside
    have apart := Finset.mem_erase.mp inside
    simp only [same other apart.2 apart.1]
  rw [Finset.card_filter, Finset.card_filter, ← Finset.sum_erase_add _ _ member,
    ← Finset.sum_erase_add _ _ member, rest]
  omega

section Update

variable {layout : Layout} {link : Nat → Entry} {leaf : Nat × Nat → Entry} {frame : Frame}

theorem forall_mem_update {α : Type} [DecidableEq α] {places : Finset α} {entries : α → Entry}
    {place : α} {entry : Entry} (good : α → Entry → Prop) (here : good place entry)
    (elsewhere : ∀ other ∈ places, other ≠ place → good other (entries other)) :
    ∀ other ∈ places, good other (Function.update entries place entry other) := by
  intro other member
  by_cases same : other = place
  · rw [same, Function.update_self]
    exact here
  · rw [Function.update_of_ne same]
    exact elsewhere other member same

theorem empty_update {α : Type} [DecidableEq α] {places : Finset α} {entries : α → Entry}
    {place : α} {entry : Entry} (clean : entry.isPresent = false → entry = .empty)
    (empty : ∀ other ∈ places, (entries other).isPresent = false → entries other = .empty) :
    ∀ other ∈ places, (Function.update entries place entry other).isPresent = false →
      Function.update entries place entry other = .empty :=
  forall_mem_update (fun _ entry => entry.isPresent = false → entry = .empty) clean
    fun other member _ => empty other member

theorem card_linksTo_update (link : Nat → Entry) (frame : Frame) {block : Nat}
    (member : block ∈ layout.taskBlocks) (entry : Entry) :
    (linksTo layout (Function.update link block entry) frame).card +
        (if (link block).PointsAt frame then 1 else 0) =
      (linksTo layout link frame).card + if entry.PointsAt frame then 1 else 0 := by
  have step := card_filter_update (fun other => (link other).PointsAt frame)
    (fun other => (Function.update link block entry other).PointsAt frame) member
    (fun other _ apart => by rw [Function.update_of_ne apart])
  simpa only [linksTo, Function.update_self] using step

theorem card_leavesTo_update (leaf : Nat × Nat → Entry) (frame : Frame) {place : Nat × Nat}
    (member : place ∈ layout.taskPlaces) (entry : Entry) :
    (leavesTo layout (Function.update leaf place entry) frame).card +
        (if (leaf place).PointsAt frame then 1 else 0) =
      (leavesTo layout leaf frame).card + if entry.PointsAt frame then 1 else 0 := by
  have step := card_filter_update (fun other => (leaf other).PointsAt frame)
    (fun other => (Function.update leaf place entry other).PointsAt frame) member
    (fun other _ apart => by rw [Function.update_of_ne apart])
  simpa only [leavesTo, Function.update_self] using step

theorem one_le_linksTo {block : Nat} (member : block ∈ layout.taskBlocks)
    (points : (link block).PointsAt frame) : 1 ≤ (linksTo layout link frame).card :=
  Finset.card_pos.mpr ⟨block, Finset.mem_filter.mpr ⟨member, points⟩⟩

theorem two_le_linksTo {block other : Nat} (member : block ∈ layout.taskBlocks)
    (points : (link block).PointsAt frame) (second : other ∈ layout.taskBlocks)
    (points' : (link other).PointsAt frame) (apart : block ≠ other) :
    2 ≤ (linksTo layout link frame).card :=
  Finset.one_lt_card.mpr ⟨block, Finset.mem_filter.mpr ⟨member, points⟩, other,
    Finset.mem_filter.mpr ⟨second, points'⟩, apart⟩

theorem one_le_leavesTo {place : Nat × Nat} (member : place ∈ layout.taskPlaces)
    (points : (leaf place).PointsAt frame) : 1 ≤ (leavesTo layout leaf frame).card :=
  Finset.card_pos.mpr ⟨place, Finset.mem_filter.mpr ⟨member, points⟩⟩

theorem two_le_leavesTo {place other : Nat × Nat} (member : place ∈ layout.taskPlaces)
    (points : (leaf place).PointsAt frame) (second : other ∈ layout.taskPlaces)
    (points' : (leaf other).PointsAt frame) (apart : place ≠ other) :
    2 ≤ (leavesTo layout leaf frame).card :=
  Finset.one_lt_card.mpr ⟨place, Finset.mem_filter.mpr ⟨member, points⟩, other,
    Finset.mem_filter.mpr ⟨second, points'⟩, apart⟩

end Update

namespace Balanced

variable {layout : Layout} {link : Nat → Entry} {leaf : Nat × Nat → Entry} {count : Frame → Nat}
  {held : Finset Frame} (balanced : Balanced layout link leaf count held)

include balanced

theorem count_of_link {block : Nat} {frame : Frame} (member : block ∈ layout.taskBlocks)
    (points : (link block).PointsAt frame) : count frame = 1 := by
  rw [← points.2]
  exact (balanced.linked block member points.1).2

theorem link_injective {block other : Nat} (member : block ∈ layout.taskBlocks)
    (second : other ∈ layout.taskBlocks) (present : (link block).isPresent = true)
    (present' : (link other).isPresent = true) (same : (link other).frame = (link block).frame) :
    other = block := by
  by_contra apart
  have once := balanced.linked block member present
  have sum := balanced.counted _ once.1
  have twice := two_le_linksTo second ⟨present', same⟩ member ⟨present, rfl⟩ apart
  omega

theorem leaf_ne_link {block : Nat} {place : Nat × Nat} (member : block ∈ layout.taskBlocks)
    (present : (link block).isPresent = true) (inside : place ∈ layout.taskPlaces)
    (mapped : (leaf place).isPresent = true) : (leaf place).frame ≠ (link block).frame := by
  intro same
  have once := balanced.linked block member present
  have sum := balanced.counted _ once.1
  have linked := one_le_linksTo member ⟨present, rfl⟩
  have leaves := one_le_leavesTo inside ⟨mapped, same⟩
  omega

theorem held_ne_link {block : Nat} {frame : Frame} (member : block ∈ layout.taskBlocks)
    (present : (link block).isPresent = true) (holds : frame ∈ held) :
    frame ≠ (link block).frame := by
  rintro rfl
  have once := balanced.owned _ holds
  have sum := balanced.counted _ once.1
  have linked := one_le_linksTo member ⟨present, rfl⟩
  rw [if_pos holds] at sum
  omega

theorem held_ne_leaf {place : Nat × Nat} {frame : Frame} (inside : place ∈ layout.taskPlaces)
    (mapped : (leaf place).isPresent = true) (holds : frame ∈ held) :
    frame ≠ (leaf place).frame := by
  rintro rfl
  have once := balanced.owned _ holds
  have sum := balanced.counted _ once.1
  have leaves := one_le_leavesTo inside ⟨mapped, rfl⟩
  rw [if_pos holds] at sum
  omega

theorem count_pos_of_leaf {place : Nat × Nat} (inside : place ∈ layout.taskPlaces)
    (mapped : (leaf place).isPresent = true) : 1 ≤ count (leaf place).frame := by
  have sum := balanced.counted _ (balanced.mapped place inside mapped)
  have leaves := one_le_leavesTo inside ⟨mapped, rfl⟩
  omega

theorem count_eq_card {place : Nat × Nat} (inside : place ∈ layout.taskPlaces)
    (mapped : (leaf place).isPresent = true) :
    count (leaf place).frame = (leavesTo layout leaf (leaf place).frame).card := by
  have links : linksTo layout link (leaf place).frame = ∅ := by
    apply Finset.filter_eq_empty_iff.mpr
    intro block member points
    exact balanced.leaf_ne_link member points.1 inside mapped points.2.symm
  have unheld : (leaf place).frame ∉ held :=
    fun holds => balanced.held_ne_leaf inside mapped holds rfl
  rw [balanced.counted _ (balanced.mapped place inside mapped), links, if_neg unheld,
    Finset.card_empty, Nat.zero_add, Nat.add_zero]

/-- Two leaves that map one frame are both read-only. -/
theorem two_le_count {place other : Nat × Nat} (inside : place ∈ layout.taskPlaces)
    (mapped : (leaf place).isPresent = true) (second : other ∈ layout.taskPlaces)
    (mapped' : (leaf other).isPresent = true) (same : (leaf other).frame = (leaf place).frame)
    (apart : other ≠ place) : 2 ≤ count (leaf place).frame := by
  have sum := balanced.counted _ (balanced.mapped place inside mapped)
  have leaves := two_le_leavesTo second ⟨mapped', same⟩ inside ⟨mapped, rfl⟩ apart
  omega

/-- Leaves of one frame lie in different tables, so there are no more of them than task tables. -/
theorem card_leavesTo_le (frame : Frame) :
    (leavesTo layout leaf frame).card ≤ entriesPerDirectory - layout.kernelTables := by
  have blocks : (leavesTo layout leaf frame).image Prod.fst ⊆ layout.taskBlocks := by
    intro block member
    obtain ⟨place, points, rfl⟩ := Finset.mem_image.mp member
    exact (Layout.mem_taskPlaces.mp (Finset.mem_filter.mp points).1).1
  have injective : Set.InjOn Prod.fst (leavesTo layout leaf frame : Set (Nat × Nat)) := by
    intro place member other second same
    obtain ⟨inside, present, points⟩ := Finset.mem_filter.mp member
    obtain ⟨inside', present', points'⟩ := Finset.mem_filter.mp second
    have index := balanced.aligned place inside other inside' present present'
      (points.trans points'.symm)
    exact Prod.ext same index
  calc
    (leavesTo layout leaf frame).card = ((leavesTo layout leaf frame).image Prod.fst).card :=
      (Finset.card_image_of_injOn injective).symm
    _ ≤ layout.taskBlocks.card := Finset.card_le_card blocks
    _ = entriesPerDirectory - layout.kernelTables := Nat.card_Ico _ _

theorem count_le {frame : Frame} (task : layout.IsTaskFrame frame) :
    count frame ≤ entriesPerDirectory - layout.kernelTables := by
  have room := layout.kernelTables_lt_entriesPerDirectory
  have sum := balanced.counted frame task
  have leaves := balanced.card_leavesTo_le frame
  by_cases holds : frame ∈ held
  · have once := (balanced.owned frame holds).2
    omega
  · rw [if_neg holds] at sum
    rcases Finset.eq_empty_or_nonempty (linksTo layout link frame) with none | ⟨block, member⟩
    · rw [none, Finset.card_empty] at sum
      omega
    · obtain ⟨inside, present, rfl⟩ := Finset.mem_filter.mp member
      have once := (balanced.linked block inside present).2
      omega

theorem count_eq {leaf' : Nat × Nat → Entry} {count' : Frame → Nat}
    (balanced' : Balanced layout link leaf' count' held)
    (same : ∀ place ∈ layout.taskPlaces, ∀ frame,
      (leaf' place).PointsAt frame ↔ (leaf place).PointsAt frame)
    {frame : Frame} (pooled : layout.IsPooled frame) : count' frame = count frame := by
  rcases pooled.cached_or_task with cached | task
  · rw [balanced.cached frame cached, balanced'.cached frame cached]
  · have leaves : leavesTo layout leaf' frame = leavesTo layout leaf frame :=
      Finset.filter_congr fun place inside => same place inside frame
    rw [balanced.counted frame task, balanced'.counted frame task, leaves]

theorem unused_of_count_eq_zero {frame : Frame} (task : layout.IsTaskFrame frame)
    (free : count frame = 0) :
    (∀ block ∈ layout.taskBlocks, ¬ (link block).PointsAt frame) ∧
      (∀ place ∈ layout.taskPlaces, ¬ (leaf place).PointsAt frame) ∧ frame ∉ held := by
  have sum := balanced.counted frame task
  refine ⟨?_, ?_, ?_⟩
  · intro block member points
    have linked := one_le_linksTo member points
    omega
  · intro place inside points
    have leaves := one_le_leavesTo inside points
    omega
  · intro holds
    have once := (balanced.owned frame holds).2
    omega

theorem count_eq_zero {frame : Frame} (task : layout.IsTaskFrame frame)
    (unlinked : ∀ block ∈ layout.taskBlocks, ¬ (link block).PointsAt frame)
    (unmapped : ∀ place ∈ layout.taskPlaces, ¬ (leaf place).PointsAt frame)
    (unheld : frame ∉ held) : count frame = 0 := by
  have links : linksTo layout link frame = ∅ := Finset.filter_eq_empty_iff.mpr unlinked
  have leaves : leavesTo layout leaf frame = ∅ := Finset.filter_eq_empty_iff.mpr unmapped
  rw [balanced.counted frame task, links, leaves, if_neg unheld, Finset.card_empty,
    Finset.card_empty]

theorem cached_update {frame : Frame} (task : layout.IsTaskFrame frame) (value : Nat) :
    ∀ other, layout.IsCached other → Function.update count frame value other = bufferCount := by
  intro other cached
  have apart : other ≠ frame := by
    rintro rfl
    exact task.not_cached cached
  rw [Function.update_of_ne apart]
  exact balanced.cached other cached

theorem aligned_update {place : Nat × Nat} {entry : Entry}
    (fits : entry.isPresent = true → ∀ other ∈ layout.taskPlaces, (leaf other).isPresent = true →
      (leaf other).frame = entry.frame → other.2 = place.2) :
    ∀ first ∈ layout.taskPlaces, ∀ second ∈ layout.taskPlaces,
      (Function.update leaf place entry first).isPresent = true →
      (Function.update leaf place entry second).isPresent = true →
      (Function.update leaf place entry first).frame =
        (Function.update leaf place entry second).frame → first.2 = second.2 := by
  intro first inside₁ second inside₂ mapped₁ mapped₂ equal
  by_cases same₁ : first = place
  · by_cases same₂ : second = place
    · rw [same₁, same₂]
    · rw [Function.update_of_ne same₂] at mapped₂ equal
      rw [same₁, Function.update_self] at mapped₁ equal
      rw [same₁]
      exact (fits mapped₁ second inside₂ mapped₂ equal.symm).symm
  · rw [Function.update_of_ne same₁] at mapped₁ equal
    by_cases same₂ : second = place
    · rw [same₂, Function.update_self] at mapped₂ equal
      rw [same₂]
      exact fits mapped₂ first inside₁ mapped₁ equal
    · rw [Function.update_of_ne same₂] at mapped₂ equal
      exact balanced.aligned first inside₁ second inside₂ mapped₁ mapped₂ equal

theorem allocate {frame : Frame} (task : layout.IsTaskFrame frame) (free : count frame = 0) :
    Balanced layout link leaf (Function.update count frame 1) (insert frame held) := by
  obtain ⟨unlinked, unmapped, unheld⟩ := balanced.unused_of_count_eq_zero task free
  have other {frame' : Frame} (counted : count frame' ≠ 0) :
      Function.update count frame 1 frame' = count frame' := by
    apply Function.update_of_ne
    rintro rfl
    exact counted free
  refine ⟨?_, balanced.mapped, ?_, balanced.aligned, balanced.linkEmpty, balanced.leafEmpty,
    ?_, balanced.cached_update task _, ?_⟩
  · intro block member present
    have once := balanced.linked block member present
    exact ⟨once.1, (other (by omega)).trans once.2⟩
  · intro place inside present writable
    have once := balanced.exclusive place inside present writable
    exact (other (by omega)).trans once
  · intro frame' member
    rcases Finset.mem_insert.mp member with rfl | holds
    · exact ⟨task, Function.update_self _ _ _⟩
    · have once := balanced.owned frame' holds
      exact ⟨once.1, (other (by omega)).trans once.2⟩
  · intro frame' task'
    have sum := balanced.counted frame' task'
    by_cases same : frame' = frame
    · subst same
      rw [Function.update_self, if_pos (Finset.mem_insert_self _ _)]
      rw [if_neg unheld] at sum
      omega
    · rw [Function.update_of_ne same, sum]
      simp only [Finset.mem_insert, same, false_or]

theorem free {frame : Frame} (holds : frame ∈ held) :
    Balanced layout link leaf (Function.update count frame 0) (held.erase frame) := by
  obtain ⟨task, once⟩ := balanced.owned frame holds
  have counted := balanced.counted frame task
  rw [if_pos holds] at counted
  refine ⟨?_, balanced.mapped, ?_, balanced.aligned, balanced.linkEmpty, balanced.leafEmpty,
    ?_, balanced.cached_update task _, ?_⟩
  · intro block member present
    have apart := (balanced.held_ne_link member present holds).symm
    rw [Function.update_of_ne apart]
    exact balanced.linked block member present
  · intro place inside present writable
    have apart := (balanced.held_ne_leaf inside present holds).symm
    rw [Function.update_of_ne apart]
    exact balanced.exclusive place inside present writable
  · intro frame' member
    obtain ⟨apart, holds'⟩ := Finset.mem_erase.mp member
    rw [Function.update_of_ne apart]
    exact balanced.owned frame' holds'
  · intro frame' task'
    have sum := balanced.counted frame' task'
    by_cases same : frame' = frame
    · subst same
      rw [Function.update_self, if_neg (Finset.notMem_erase _ _)]
      omega
    · rw [Function.update_of_ne same, sum]
      simp only [Finset.mem_erase, same, ne_eq, not_false_eq_true, true_and]

theorem setLink {block : Nat} {entry : Entry} (member : block ∈ layout.taskBlocks)
    (absent : (link block).isPresent = false) (present : entry.isPresent = true)
    (holds : entry.frame ∈ held) :
    Balanced layout (Function.update link block entry) leaf count (held.erase entry.frame) := by
  have clean : entry.isPresent = false → entry = .empty :=
    fun absent => nomatch present.symm.trans absent
  refine ⟨?_, balanced.mapped, balanced.exclusive, balanced.aligned,
    empty_update clean balanced.linkEmpty, balanced.leafEmpty, ?_, balanced.cached, ?_⟩
  · exact forall_mem_update (fun _ entry => entry.isPresent = true →
      layout.IsTaskFrame entry.frame ∧ count entry.frame = 1) (fun _ => balanced.owned _ holds)
      (fun other second _ => balanced.linked other second)
  · intro frame holds'
    exact balanced.owned frame (Finset.mem_of_mem_erase holds')
  · intro frame task
    have sum := balanced.counted frame task
    have links := card_linksTo_update link frame member entry
    rw [if_neg (Entry.not_pointsAt_of_absent absent frame)] at links
    by_cases same : entry.frame = frame
    · subst same
      rw [if_pos ⟨present, rfl⟩] at links
      rw [if_pos holds] at sum
      rw [if_neg (Finset.notMem_erase _ _)]
      omega
    · rw [if_neg (fun points => same points.2)] at links
      simp only [Finset.mem_erase, ne_eq, Ne.symm same, not_false_eq_true, true_and]
      omega

theorem unlink {block : Nat} (member : block ∈ layout.taskBlocks)
    (present : (link block).isPresent = true) :
    Balanced layout (Function.update link block .empty) leaf
      (Function.update count (link block).frame 0) held := by
  obtain ⟨task, once⟩ := balanced.linked block member present
  refine ⟨?_, balanced.mapped, ?_, balanced.aligned,
    empty_update (fun _ => rfl) balanced.linkEmpty, balanced.leafEmpty, ?_,
    balanced.cached_update task _, ?_⟩
  · apply forall_mem_update (fun _ entry => entry.isPresent = true →
      layout.IsTaskFrame entry.frame ∧
        Function.update count (link block).frame 0 entry.frame = 1)
    · intro empty
      cases empty
    · intro other second same linked
      have apart : (link other).frame ≠ (link block).frame :=
        fun equal => same (balanced.link_injective member second present linked equal)
      rw [Function.update_of_ne apart]
      exact balanced.linked other second linked
  · intro place inside mapped writable
    rw [Function.update_of_ne (balanced.leaf_ne_link member present inside mapped)]
    exact balanced.exclusive place inside mapped writable
  · intro frame holds
    rw [Function.update_of_ne (balanced.held_ne_link member present holds)]
    exact balanced.owned frame holds
  · intro frame task'
    have sum := balanced.counted frame task'
    have links := card_linksTo_update link frame member .empty
    rw [if_neg (Entry.not_pointsAt_of_absent Entry.isPresent_empty frame)] at links
    by_cases same : frame = (link block).frame
    · subst same
      rw [if_pos ⟨present, rfl⟩] at links
      rw [Function.update_self]
      omega
    · rw [if_neg (fun points => same points.2.symm)] at links
      rw [Function.update_of_ne same]
      omega

theorem setLeaf {place : Nat × Nat} {entry : Entry} (inside : place ∈ layout.taskPlaces)
    (absent : (leaf place).isPresent = false) (present : entry.isPresent = true)
    (holds : entry.frame ∈ held) :
    Balanced layout link (Function.update leaf place entry) count (held.erase entry.frame) := by
  obtain ⟨task, once⟩ := balanced.owned _ holds
  have clean : entry.isPresent = false → entry = .empty :=
    fun absent => nomatch present.symm.trans absent
  refine ⟨balanced.linked, ?_, ?_, ?_, balanced.linkEmpty,
    empty_update clean balanced.leafEmpty, ?_, balanced.cached, ?_⟩
  · exact forall_mem_update (fun _ entry => entry.isPresent = true →
      layout.IsTaskFrame entry.frame) (fun _ => task)
      (fun other second _ => balanced.mapped other second)
  · exact forall_mem_update (fun _ entry => entry.isPresent = true → entry.isWritable = true →
      count entry.frame = 1) (fun _ _ => once)
      (fun other second _ => balanced.exclusive other second)
  · apply balanced.aligned_update
    intro _ other second mapped equal
    exact absurd equal.symm (balanced.held_ne_leaf second mapped holds)
  · intro frame holds'
    exact balanced.owned frame (Finset.mem_of_mem_erase holds')
  · intro frame task'
    have sum := balanced.counted frame task'
    have leaves := card_leavesTo_update leaf frame inside entry
    rw [if_neg (Entry.not_pointsAt_of_absent absent frame)] at leaves
    by_cases same : entry.frame = frame
    · subst same
      rw [if_pos ⟨present, rfl⟩] at leaves
      rw [if_pos holds] at sum
      rw [if_neg (Finset.notMem_erase _ _)]
      omega
    · rw [if_neg (fun points => same points.2)] at leaves
      simp only [Finset.mem_erase, ne_eq, Ne.symm same, not_false_eq_true, true_and]
      omega

theorem dropLeaf {place : Nat × Nat} (inside : place ∈ layout.taskPlaces)
    (present : (leaf place).isPresent = true) :
    Balanced layout link (Function.update leaf place .empty)
      (Function.update count (leaf place).frame (count (leaf place).frame - 1)) held := by
  have task := balanced.mapped place inside present
  refine ⟨?_, ?_, ?_, ?_, balanced.linkEmpty, empty_update (fun _ => rfl) balanced.leafEmpty, ?_,
    balanced.cached_update task _, ?_⟩
  · intro block member linked
    rw [Function.update_of_ne (balanced.leaf_ne_link member linked inside present).symm]
    exact balanced.linked block member linked
  · apply forall_mem_update (fun _ entry => entry.isPresent = true →
      layout.IsTaskFrame entry.frame)
    · intro empty
      cases empty
    · exact fun other second _ => balanced.mapped other second
  · apply forall_mem_update (fun _ entry => entry.isPresent = true → entry.isWritable = true →
      Function.update count (leaf place).frame (count (leaf place).frame - 1) entry.frame = 1)
    · intro empty
      cases empty
    · intro other second same mapped writable
      have once := balanced.exclusive other second mapped writable
      have apart : (leaf other).frame ≠ (leaf place).frame := by
        intro equal
        have twice := balanced.two_le_count inside present second mapped equal same
        rw [equal] at once
        omega
      rw [Function.update_of_ne apart, once]
  · apply balanced.aligned_update
    intro empty
    cases empty
  · intro frame holds
    rw [Function.update_of_ne (balanced.held_ne_leaf inside present holds)]
    exact balanced.owned frame holds
  · intro frame task'
    have sum := balanced.counted frame task'
    have leaves := card_leavesTo_update leaf frame inside .empty
    rw [if_neg (Entry.not_pointsAt_of_absent Entry.isPresent_empty frame)] at leaves
    by_cases same : frame = (leaf place).frame
    · subst same
      rw [if_pos ⟨present, rfl⟩] at leaves
      rw [Function.update_self]
      omega
    · rw [if_neg (fun points => same points.2.symm)] at leaves
      rw [Function.update_of_ne same]
      omega

theorem setFlags {place : Nat × Nat} {entry : Entry} (inside : place ∈ layout.taskPlaces)
    (present : (leaf place).isPresent = true) (present' : entry.isPresent = true)
    (frame : entry.frame = (leaf place).frame)
    (once : entry.isWritable = true → count entry.frame = 1) :
    Balanced layout link (Function.update leaf place entry) count held := by
  have clean : entry.isPresent = false → entry = .empty :=
    fun absent => nomatch present'.symm.trans absent
  refine ⟨balanced.linked, ?_, ?_, ?_, balanced.linkEmpty,
    empty_update clean balanced.leafEmpty, balanced.owned, balanced.cached, ?_⟩
  · exact forall_mem_update (fun _ entry => entry.isPresent = true →
      layout.IsTaskFrame entry.frame) (fun _ => frame ▸ balanced.mapped place inside present)
      (fun other second _ => balanced.mapped other second)
  · exact forall_mem_update (fun _ entry => entry.isPresent = true → entry.isWritable = true →
      count entry.frame = 1) (fun _ => once)
      (fun other second _ => balanced.exclusive other second)
  · apply balanced.aligned_update
    intro _ other second mapped equal
    exact balanced.aligned other second place inside mapped present (equal.trans frame)
  · intro other task
    have sum := balanced.counted other task
    have leaves := card_leavesTo_update leaf other inside entry
    have points : entry.PointsAt other ↔ (leaf place).PointsAt other := by
      simp only [Entry.PointsAt, present, present', frame]
    simp only [points] at leaves
    omega

theorem addSharer {place target : Nat × Nat} {entry : Entry} (inside : place ∈ layout.taskPlaces)
    (present : (leaf place).isPresent = true) (readOnly : (leaf place).isWritable = false)
    (inside' : target ∈ layout.taskPlaces) (absent : (leaf target).isPresent = false)
    (index : target.2 = place.2) (present' : entry.isPresent = true)
    (readOnly' : entry.isWritable = false) (frame : entry.frame = (leaf place).frame) :
    Balanced layout link (Function.update leaf target entry)
      (Function.update count (leaf place).frame (count (leaf place).frame + 1)) held := by
  have task := balanced.mapped place inside present
  have clean : entry.isPresent = false → entry = .empty :=
    fun absent => nomatch present'.symm.trans absent
  refine ⟨?_, ?_, ?_, ?_, balanced.linkEmpty, empty_update clean balanced.leafEmpty, ?_,
    balanced.cached_update task _, ?_⟩
  · intro block member linked
    rw [Function.update_of_ne (balanced.leaf_ne_link member linked inside present).symm]
    exact balanced.linked block member linked
  · exact forall_mem_update (fun _ entry => entry.isPresent = true →
      layout.IsTaskFrame entry.frame) (fun _ => frame ▸ task)
      (fun other second _ => balanced.mapped other second)
  · apply forall_mem_update (fun _ entry => entry.isPresent = true → entry.isWritable = true →
      Function.update count (leaf place).frame (count (leaf place).frame + 1) entry.frame = 1)
    · intro _ writable
      rw [readOnly'] at writable
      cases writable
    · intro other second _ mapped writable
      have once := balanced.exclusive other second mapped writable
      have differ : other ≠ place := by
        rintro rfl
        rw [readOnly] at writable
        cases writable
      have apart : (leaf other).frame ≠ (leaf place).frame := by
        intro equal
        have twice := balanced.two_le_count inside present second mapped equal differ
        rw [equal] at once
        omega
      rw [Function.update_of_ne apart, once]
  · -- the new leaf has the index of `place`, which maps the same frame
    apply balanced.aligned_update
    intro _ other second mapped equal
    have same := balanced.aligned other second place inside mapped present (equal.trans frame)
    exact same.trans index.symm
  · intro other holds
    rw [Function.update_of_ne (balanced.held_ne_leaf inside present holds)]
    exact balanced.owned other holds
  · intro other task'
    have sum := balanced.counted other task'
    have leaves := card_leavesTo_update leaf other inside' entry
    rw [if_neg (Entry.not_pointsAt_of_absent absent other)] at leaves
    by_cases same : other = (leaf place).frame
    · subst same
      rw [if_pos ⟨present', frame⟩] at leaves
      rw [Function.update_self]
      omega
    · rw [if_neg (fun points => same (points.2.symm.trans frame))] at leaves
      rw [Function.update_of_ne same]
      omega

end Balanced

end PagedMemory

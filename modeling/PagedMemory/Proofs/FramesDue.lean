import Mathlib.Algebra.Order.BigOperators.Group.Finset
import PagedMemory.Proofs.FaultOutcomes

/-!
What it costs to write to an area. Each page that is absent takes a frame, each block without a
table another one, and the read-only pages of a shared frame take a copy each until the frame has
one owner. In whatever order the pages are written to, a fault takes the frames that were due for
its page and leaves the rest due; so the frames that an area takes are known before its first fault.
-/

namespace PagedMemory

theorem FramePool.sum_eq_one {layout : Layout} {frame : Frame} (pooled : layout.IsPooled frame) :
    ∑ i : Fin layout.poolFrames, (if frameAt i = frame then 1 else 0) = 1 := by
  obtain ⟨j, rfl⟩ := exists_place pooled
  rw [Finset.sum_eq_single j]
  · exact if_pos rfl
  · exact fun i _ apart => if_neg fun same => apart (frameAt_inj same)
  · exact fun outside => absurd (Finset.mem_univ j) outside

namespace Manager

variable {layout : Layout} {m m' m'' : Manager layout} {held : Finset Frame}
  {area : Finset (Nat × Nat)}

def pagesDue (m : Manager layout) (area : Finset (Nat × Nat)) : Nat :=
  {place ∈ area | (m.memory.leaf place).isPresent = false}.card

def tablesDue (m : Manager layout) (area : Finset (Nat × Nat)) : Nat :=
  {block ∈ area.image Prod.fst | (m.memory.link block).isPresent = false}.card

def readersIn (m : Manager layout) (area : Finset (Nat × Nat)) (frame : Frame) : Nat :=
  {place ∈ area | (m.memory.leaf place).PointsAt frame ∧
    (m.memory.leaf place).isWritable = false}.card

/-- Copies of `frame` that the area is to be given: none for the last owner. -/
def copiesDue (m : Manager layout) (area : Finset (Nat × Nat)) (frame : Frame) : Nat :=
  min (m.pool.count frame - 1) (m.readersIn area frame)

/-- Frames that all pages of the area take before they can be written to. -/
def framesDue (m : Manager layout) (area : Finset (Nat × Nat)) : Nat :=
  m.pagesDue area + m.tablesDue area +
    ∑ i : Fin layout.poolFrames, m.copiesDue area (FramePool.frameAt i)

theorem copiesDue_of_count {frame : Frame} (count : m.pool.count frame ≤ 1)
    (area : Finset (Nat × Nat)) : m.copiesDue area frame = 0 := by
  rw [copiesDue, Nat.sub_eq_zero_of_le count, Nat.zero_min]

theorem copiesDue_le_framesDue (m : Manager layout) (area : Finset (Nat × Nat)) {frame : Frame}
    (pooled : layout.IsPooled frame) : m.copiesDue area frame ≤ m.framesDue area := by
  obtain ⟨i, rfl⟩ := FramePool.exists_place pooled
  apply Nat.le_add_left_of_le
  exact Finset.single_le_sum (fun i _ => Nat.zero_le (m.copiesDue area (FramePool.frameAt i)))
    (Finset.mem_univ i)

section Ready

variable (ready : ∀ place ∈ area, m.Writable place)

include ready

theorem copiesDue_of_writable (frame : Frame) : m.copiesDue area frame = 0 := by
  have none : m.readersIn area frame = 0 := by
    rw [readersIn, Finset.card_eq_zero, Finset.filter_eq_empty_iff]
    rintro place member ⟨-, refused⟩
    rw [(ready place member).2] at refused
    cases refused
  rw [copiesDue, none, Nat.min_zero]

theorem framesDue_of_writable : m.framesDue area = 0 := by
  have pages : m.pagesDue area = 0 := by
    rw [pagesDue, Finset.card_eq_zero, Finset.filter_eq_empty_iff]
    intro place member absent
    rw [(ready place member).1] at absent
    cases absent
  have tables : m.tablesDue area = 0 := by
    rw [tablesDue, Finset.card_eq_zero, Finset.filter_eq_empty_iff]
    intro block member absent
    obtain ⟨place, inside, rfl⟩ := Finset.mem_image.mp member
    rw [PhysicalMemory.link_present_of_leaf (ready place inside).1] at absent
    cases absent
  have copies : ∑ i : Fin layout.poolFrames, m.copiesDue area (FramePool.frameAt i) = 0 :=
    Finset.sum_eq_zero fun i _ => copiesDue_of_writable ready (FramePool.frameAt i)
  rw [framesDue, pages, tables, copies]

end Ready

/-- What has been taken from the pool was due for pages of the area and is due no longer; pages
elsewhere are as they were. -/
structure Paid (m m' : Manager layout) (held : Finset Frame) (area : Finset (Nat × Nat)) :
    Prop where
  sound : m'.Sound held
  elsewhere : ∀ place, place ∉ area → m'.memory.leaf place = m.memory.leaf place
  present : ∀ place, (m.memory.leaf place).isPresent = true →
    (m'.memory.leaf place).isPresent = true
  guarded : ∀ place, m.Guarded place → m'.Guarded place
  free : m'.pool.freeCount + m.framesDue area = m.pool.freeCount + m'.framesDue area
  counts : ∀ frame, m.pool.count frame ≠ 0 → m'.pool.count frame ≠ 0 ∧
    m'.pool.count frame + m.copiesDue area frame = m.pool.count frame + m'.copiesDue area frame

namespace Paid

theorem of_same (sound : m'.Sound held) (link : m'.memory.link = m.memory.link)
    (leaf : m'.memory.leaf = m.memory.leaf) (pool : m'.pool = m.pool)
    (area : Finset (Nat × Nat)) : Paid m m' held area := by
  have copies (frame : Frame) : m'.copiesDue area frame = m.copiesDue area frame := by
    rw [copiesDue, copiesDue, readersIn, readersIn, leaf, pool]
  refine ⟨sound, ?_, ?_, ?_, ?_, ?_⟩
  · exact fun place _ => congrFun leaf place
  · intro place present
    rw [leaf]
    exact present
  · intro place guarded
    rw [Guarded, leaf]
    exact guarded
  · simp only [framesDue, pagesDue, tablesDue, copies, link, leaf, pool]
  · intro frame used
    rw [copies, pool]
    exact ⟨used, rfl⟩

theorem refl (sound : m.Sound held) (area : Finset (Nat × Nat)) : Paid m m held area :=
  of_same sound rfl rfl rfl area

theorem trans (first : Paid m m' held area) (second : Paid m' m'' held area) :
    Paid m m'' held area := by
  have free := first.free
  have free' := second.free
  refine ⟨second.sound, ?_, ?_, ?_, by omega, ?_⟩
  · intro place outside
    rw [second.elsewhere place outside, first.elsewhere place outside]
  · exact fun place present => second.present place (first.present place present)
  · exact fun place guarded => second.guarded place (first.guarded place guarded)
  · intro frame used
    obtain ⟨used', count⟩ := first.counts frame used
    obtain ⟨used'', count'⟩ := second.counts frame used'
    exact ⟨used'', by omega⟩

theorem writable (paid : Paid m m' held area) {place : Nat × Nat} (before : m.Writable place) :
    m'.Writable place :=
  have present := paid.present place before.1
  ⟨present, paid.guarded place (fun _ => before.2) present⟩

theorem short (paid : Paid m m' held area) (few : m'.pool.freeCount < m'.framesDue area) :
    m.pool.freeCount < m.framesDue area := by
  have free := paid.free
  omega

theorem freeCount_add (paid : Paid m m' held area) (ready : ∀ place ∈ area, m'.Writable place) :
    m'.pool.freeCount + m.framesDue area = m.pool.freeCount := by
  rw [paid.free, framesDue_of_writable ready, Nat.add_zero]

theorem count_add (paid : Paid m m' held area) (ready : ∀ place ∈ area, m'.Writable place)
    {frame : Frame} (used : m.pool.count frame ≠ 0) :
    m'.pool.count frame + m.copiesDue area frame = m.pool.count frame := by
  rw [(paid.counts frame used).2, copiesDue_of_writable ready, Nat.add_zero]

end Paid

section Opened

variable {place : Nat × Nat}

theorem Opened.pagesDue_add (opened : Opened m m' held place) (member : place ∈ area) :
    m'.pagesDue area + (if (m.memory.leaf place).isPresent = false then 1 else 0) =
      m.pagesDue area := by
  have step := card_filter_update (fun other => (m.memory.leaf other).isPresent = false)
    (fun other => (m'.memory.leaf other).isPresent = false) member
    (fun other _ apart => by rw [opened.leaf other apart])
  rw [if_neg (ne_false_of_eq_true opened.present)] at step
  exact step

theorem Opened.pagesDue_eq (opened : Opened m m' held place) (member : place ∈ area)
    (mapped : (m.memory.leaf place).isPresent = true) : m'.pagesDue area = m.pagesDue area := by
  have step := opened.pagesDue_add member
  rw [if_neg (ne_false_of_eq_true mapped)] at step
  exact step

theorem tablesDue_congr (link : m'.memory.link = m.memory.link) (area : Finset (Nat × Nat)) :
    m'.tablesDue area = m.tablesDue area := by
  rw [tablesDue, tablesDue, link]

theorem Opened.readersIn_add (opened : Opened m m' held place) (member : place ∈ area)
    (frame : Frame) : m'.readersIn area frame +
      (if (m.memory.leaf place).PointsAt frame ∧ (m.memory.leaf place).isWritable = false
        then 1 else 0) = m.readersIn area frame := by
  have step := card_filter_update
    (fun other => (m.memory.leaf other).PointsAt frame ∧
      (m.memory.leaf other).isWritable = false)
    (fun other => (m'.memory.leaf other).PointsAt frame ∧
      (m'.memory.leaf other).isWritable = false) member
    (fun other _ apart => by rw [opened.leaf other apart])
  have done : ¬ ((m'.memory.leaf place).PointsAt frame ∧
      (m'.memory.leaf place).isWritable = false) :=
    fun refused => ne_false_of_eq_true opened.writable refused.2
  rw [if_neg done] at step
  exact step

theorem Opened.readersIn_eq (opened : Opened m m' held place) (member : place ∈ area)
    {frame : Frame} (apart : ¬ (m.memory.leaf place).PointsAt frame) :
    m'.readersIn area frame = m.readersIn area frame := by
  have step := opened.readersIn_add member frame
  rw [if_neg (fun reads => apart reads.1)] at step
  exact step

theorem TableGiven.tablesDue_add {count count' : Frame → Nat}
    (given : TableGiven layout m.memory.link m'.memory.link count count' place.1)
    (member : place ∈ area) :
    m'.tablesDue area + (if (m.memory.link place.1).isPresent then 0 else 1) =
      m.tablesDue area := by
  cases given with
  | kept present links _ => rw [if_pos present, tablesDue_congr links, Nat.add_zero]
  | made absent _ _ links _ =>
      have step := card_filter_update
        (fun block => (m.memory.link block).isPresent = false)
        (fun block => (m'.memory.link block).isPresent = false)
        (Finset.mem_image_of_mem Prod.fst member)
        (fun block _ apart => by rw [links, Function.update_of_ne apart])
      have given' : (m'.memory.link place.1).isPresent = true := by
        rw [links, Function.update_self]
        exact Entry.isPresent_new _ _
      rw [if_pos absent, if_neg (ne_false_of_eq_true given')] at step
      rw [if_neg (ne_true_of_eq_false absent)]
      exact step

theorem Opened.paid (opened : Opened m m' held place) (member : place ∈ area)
    (free : m'.pool.freeCount + m.framesDue area = m.pool.freeCount + m'.framesDue area)
    (counts : ∀ frame, m.pool.count frame ≠ 0 → m'.pool.count frame ≠ 0 ∧
      m'.pool.count frame + m.copiesDue area frame =
        m.pool.count frame + m'.copiesDue area frame) : Paid m m' held area := by
  refine ⟨opened.sound, ?_, ?_, opened.verified.others, free, counts⟩
  · intro other outside
    apply opened.leaf
    rintro rfl
    exact outside member
  · intro other present
    by_cases same : other = place
    · rw [same]
      exact opened.present
    · rw [opened.leaf other same]
      exact present

end Opened

section Exclusive

variable {place : Nat × Nat} (member : place ∈ area)

include member

theorem Restored.paid (restored : Restored m m' held place)
    (mapped : (m.memory.leaf place).isPresent = true) : Paid m m' held area := by
  have pages := restored.opened.pagesDue_eq member mapped
  have tables := tablesDue_congr restored.link area
  have copies (frame : Frame) : m'.copiesDue area frame = m.copiesDue area frame := by
    by_cases same : frame = (m.memory.leaf place).frame
    · have once : m.pool.count frame ≤ 1 := by
        rw [same, restored.once]
      rw [copiesDue_of_count once, copiesDue_of_count (by rw [restored.pool]; exact once)]
    · have readers := restored.opened.readersIn_eq member fun points => same points.2.symm
      rw [copiesDue, copiesDue, readers, restored.pool]
  apply restored.opened.paid member
  · simp only [framesDue, pages, tables, copies, restored.pool]
  · intro frame used
    rw [copies, restored.pool]
    exact ⟨used, rfl⟩

variable (sound : m.Sound held) (inside : place ∈ layout.taskPlaces)
  (mapped : (m.memory.leaf place).isPresent = true)

include sound inside mapped

theorem Sound.readersIn_pos (shared : m.pool.count (m.memory.leaf place).frame ≠ 1) :
    (m.memory.leaf place).isWritable = false ∧
      1 ≤ m.readersIn area (m.memory.leaf place).frame := by
  have refused : (m.memory.leaf place).isWritable = false := by
    rw [← Bool.not_eq_true]
    exact fun writable => shared (sound.balanced.exclusive place inside mapped writable)
  refine ⟨refused, Finset.card_pos.mpr ⟨place, Finset.mem_filter.mpr ⟨member, ?_, refused⟩⟩⟩
  exact ⟨mapped, rfl⟩

theorem Separated.copiesDue_add {copy : Frame} (separated : Separated m m' held place copy)
    (frame : Frame) : m'.copiesDue area frame +
      (if frame = (m.memory.leaf place).frame then 1 else 0) = m.copiesDue area frame := by
  by_cases same : frame = (m.memory.leaf place).frame
  -- one sharer less, and one read-only page less in the area
  · subst same
    have readers := separated.opened.readersIn_add member (m.memory.leaf place).frame
    obtain ⟨refused, some⟩ := sound.readersIn_pos member inside mapped separated.shared
    have many := separated.two_le sound inside mapped
    have dropped := separated.count_frame sound inside mapped
    rw [if_pos ⟨⟨mapped, rfl⟩, refused⟩] at readers
    rw [if_pos rfl, copiesDue, copiesDue]
    omega
  · have readers := separated.opened.readersIn_eq member fun points => same points.2.symm
    rw [if_neg same, Nat.add_zero]
    by_cases taken : frame = copy
    · have unused : m.pool.count frame ≤ 1 := by
        rw [taken, separated.free]
        exact Nat.zero_le 1
      have once : m'.pool.count frame ≤ 1 := by
        rw [taken, separated.count_copy sound inside mapped]
      rw [copiesDue_of_count unused, copiesDue_of_count once]
    · rw [copiesDue, copiesDue, readers, separated.count_of_ne taken same]

theorem Separated.paid {copy : Frame} (separated : Separated m m' held place copy) :
    Paid m m' held area := by
  have free := separated.freeCount_succ sound inside mapped
  have pages := separated.opened.pagesDue_eq member mapped
  have tables := tablesDue_congr separated.link area
  have copies := separated.copiesDue_add member sound inside mapped
  have one := FramePool.sum_eq_one (sound.balanced.mapped place inside mapped).pooled
  have due : m'.framesDue area + 1 = m.framesDue area := by
    rw [framesDue, framesDue, pages, tables, Nat.add_assoc]
    simp only [← copies, Finset.sum_add_distrib, one]
  apply separated.opened.paid member (by omega)
  intro frame used
  have count := copies frame
  by_cases same : frame = (m.memory.leaf place).frame
  · have many := separated.two_le sound inside mapped
    have dropped := separated.count_frame sound inside mapped
    rw [if_pos same] at count
    subst same
    exact ⟨by omega, by omega⟩
  · have apart : frame ≠ copy := by
      rintro rfl
      exact used separated.free
    rw [if_neg same, Nat.add_zero] at count
    rw [separated.count_of_ne apart same, count]
    exact ⟨used, rfl⟩

theorem Exclusive.paid {resolution : Resolution} (ends : Exclusive m m' held place resolution)
    (alive : resolution ≠ .killed) : Paid m m' held area := by
  cases ends with
  | restored restored => exact restored.paid member mapped
  | copied separated => exact separated.paid member sound inside mapped
  | killed => exact absurd rfl alive

theorem Exclusive.short (ends : Exclusive m m' held place .killed) :
    m.pool.freeCount < m.framesDue area := by
  obtain ⟨shared, none⟩ := ends.killed_iff.mp rfl
  obtain ⟨-, some⟩ := sound.readersIn_pos member inside mapped shared
  have counted := sound.balanced.count_pos_of_leaf inside mapped
  have due := m.copiesDue_le_framesDue area (sound.balanced.mapped place inside mapped).pooled
  rw [copiesDue] at due
  omega

end Exclusive

section ZeroFilled

variable {place : Nat × Nat} (member : place ∈ area)

include member

theorem ZeroFilled.paid {frame : Frame} (filled : ZeroFilled m m' held place frame) :
    Paid m m' held area := by
  have free := filled.freeCount_add
  have pages := filled.opened.pagesDue_add member
  have tables := filled.table.tablesDue_add member
  have copies (other : Frame) : m'.copiesDue area other = m.copiesDue area other := by
    by_cases used : m.pool.count other = 0
    · rw [copiesDue_of_count (filled.count_le used), copiesDue_of_count (by omega)]
    · have unread : ¬ (m.memory.leaf place).PointsAt other :=
        fun points => ne_true_of_eq_false filled.absent points.1
      have readers := filled.opened.readersIn_eq member unread
      rw [copiesDue, copiesDue, readers, filled.count_eq used]
  apply filled.opened.paid member
  · rw [if_pos filled.absent] at pages
    rw [framesNeeded] at free
    simp only [framesDue, copies]
    split at free
    · rename_i linked
      rw [if_pos linked] at tables
      omega
    · rename_i unlinked
      rw [if_neg unlinked] at tables
      omega
  · intro other used
    rw [copies, filled.count_eq used]
    exact ⟨used, rfl⟩

theorem Unfilled.framesDue_gt (unfilled : Unfilled m m' held place)
    (absent : (m.memory.leaf place).isPresent = false) :
    m.pool.freeCount < m.framesDue area := by
  have short := unfilled.short
  have page : 1 ≤ m.pagesDue area :=
    Finset.card_pos.mpr ⟨place, Finset.mem_filter.mpr ⟨member, absent⟩⟩
  rw [framesNeeded] at short
  rw [framesDue]
  split at short
  · omega
  · rename_i unlinked
    have table : 1 ≤ m.tablesDue area := Finset.card_pos.mpr ⟨place.1, Finset.mem_filter.mpr
      ⟨Finset.mem_image_of_mem Prod.fst member, Bool.not_eq_true _ ▸ unlinked⟩⟩
    omega

end ZeroFilled

end Manager

end PagedMemory

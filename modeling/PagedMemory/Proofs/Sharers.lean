import PagedMemory.Proofs.FaultOutcomes

/-!
Sharers that separate. Each sharer of a frame takes a copy at its first write but the last one,
which finds the frame its own. Which frames the copies lie in depends only on which frames were
free, so the order of the faults decides nothing but who gets which of them.
-/

namespace PagedMemory

namespace FramePool

variable {layout : Layout} {pool left : FramePool layout}

theorem unused_iff_of_taken {copy : Frame} (taken : left.count = Function.update pool.count copy 1)
    (frame : Frame) : left.count frame = 0 ↔ pool.count frame = 0 ∧ frame ≠ copy := by
  rw [taken]
  by_cases same : frame = copy
  · rw [same, Function.update_self]
    simp only [Nat.one_ne_zero, ne_eq, not_true_eq_false, and_false]
  · rw [Function.update_of_ne same]
    exact (and_iff_left same).symm

/-- The next `n` frames that the pool hands out, or as many as it has. -/
def handouts : Nat → FramePool layout → List Frame
  | 0, _ => []
  | n + 1, pool =>
      match (allocate pool : EStateM.Result FatalError (FramePool layout) (Option Frame)) with
      | .ok (some frame) left => frame :: handouts n left
      | _ => []

theorem handouts_of_full (n : Nat) (full : pool.highestFree = none) : handouts n pool = [] := by
  cases n with
  | zero => rfl
  | succ n => simp only [handouts, allocate, full]

theorem exists_handouts {i : Fin layout.poolFrames} (n : Nat)
    (found : pool.highestFree = some i) : ∃ left : FramePool layout,
      left.count = Function.update pool.count (frameAt i) 1 ∧
      handouts (n + 1) pool = frameAt i :: handouts n left := by
  simp only [handouts, allocate, found]
  exact ⟨_, count_of_set rfl, rfl⟩

theorem handouts_congr (n : Nat)
    (same : ∀ frame, left.count frame = 0 ↔ pool.count frame = 0) :
    handouts n left = handouts n pool := by
  induction n generalizing left pool with
  | zero => rfl
  | succ n ih =>
      have next := highestFree_congr same
      cases found : pool.highestFree with
      | none => rw [handouts_of_full _ found, handouts_of_full _ (next.trans found)]
      | some i =>
          obtain ⟨pool', taken, handed⟩ := exists_handouts n found
          obtain ⟨left', taken', handed'⟩ := exists_handouts n (next.trans found)
          rw [handed, handed']
          refine congrArg (frameAt i :: ·) (ih fun frame => ?_)
          rw [unused_iff_of_taken taken, unused_iff_of_taken taken', same]

theorem handouts_succ {copy : Frame} (n : Nat) (next : pool.highestFree.map frameAt = some copy)
    (free : ∀ frame, left.count frame = 0 ↔ pool.count frame = 0 ∧ frame ≠ copy) :
    handouts (n + 1) pool = copy :: handouts n left := by
  obtain ⟨i, found, rfl⟩ := Option.map_eq_some_iff.mp next
  obtain ⟨pool', taken, handed⟩ := exists_handouts n found
  rw [handed]
  refine congrArg (frameAt i :: ·) (handouts_congr n fun frame => ?_)
  rw [free, unused_iff_of_taken taken]

theorem unused_of_mem_handouts {n : Nat} {frame : Frame} (member : frame ∈ handouts n pool) :
    layout.IsPooled frame ∧ pool.count frame = 0 := by
  induction n generalizing pool with
  | zero => cases member
  | succ n ih =>
      cases found : pool.highestFree with
      | none =>
          rw [handouts_of_full _ found] at member
          cases member
      | some i =>
          obtain ⟨left, taken, handed⟩ := exists_handouts n found
          rw [handed] at member
          rcases List.mem_cons.mp member with rfl | later
          · exact ⟨pooled_frameAt i, count_of_highestFree_eq_some found⟩
          · obtain ⟨pooled, unused⟩ := ih later
            exact ⟨pooled, ((unused_iff_of_taken taken _).mp unused).1⟩

theorem nodup_handouts (n : Nat) (pool : FramePool layout) : (handouts n pool).Nodup := by
  induction n generalizing pool with
  | zero => exact List.nodup_nil
  | succ n ih =>
      cases found : pool.highestFree with
      | none =>
          rw [handouts_of_full _ found]
          exact List.nodup_nil
      | some i =>
          obtain ⟨left, taken, handed⟩ := exists_handouts n found
          rw [handed]
          refine List.nodup_cons.mpr ⟨?_, ih left⟩
          intro member
          obtain ⟨-, unused⟩ := unused_of_mem_handouts member
          exact ((unused_iff_of_taken taken _).mp unused).2 rfl

theorem length_handouts {n : Nat} (enough : n ≤ pool.freeCount) :
    (handouts n pool).length = n := by
  induction n generalizing pool with
  | zero => rfl
  | succ n ih =>
      cases found : pool.highestFree with
      | none =>
          have zero := highestFree_eq_none_iff.mp found
          omega
      | some i =>
          obtain ⟨left, taken, handed⟩ := exists_handouts n found
          have count := freeCount_of_taken (pooled_frameAt i)
            (count_of_highestFree_eq_some found) taken
          rw [handed, List.length_cons, ih (by omega)]

end FramePool

namespace Manager

variable {layout : Layout} {m m' : Manager layout} {held : Finset Frame} {frame : Frame}

open Operation

/-- The list names each page that maps `frame` once, in some order. -/
structure Orders (m : Manager layout) (frame : Frame) (pages : List LinearAddr) : Prop where
  nodup : (pages.map LinearAddr.place).Nodup
  mem_iff : ∀ place, place ∈ pages.map LinearAddr.place ↔
    place ∈ leavesTo layout m.memory.leaf frame

namespace Orders

variable {page : LinearAddr} {pages : List LinearAddr}

theorem card_eq (orders : m.Orders frame pages) :
    (leavesTo layout m.memory.leaf frame).card = pages.length := by
  have same : leavesTo layout m.memory.leaf frame = (pages.map LinearAddr.place).toFinset := by
    ext place
    rw [List.mem_toFinset, orders.mem_iff]
  rw [same, List.toFinset_card_of_nodup orders.nodup, List.length_map]

theorem maps (orders : m.Orders frame pages) (member : page ∈ pages) :
    page.place ∈ layout.taskPlaces ∧ (m.memory.leaf page.place).PointsAt frame :=
  mem_leavesTo.mp ((orders.mem_iff _).mp (List.mem_map_of_mem member))

theorem tail {copy : Frame} (orders : m.Orders frame (page :: pages)) (apart : copy ≠ frame)
    (leads : (Entry.new copy .userWritable).frame = copy)
    (leaf : m'.memory.leaf =
      Function.update m.memory.leaf page.place (Entry.new copy .userWritable)) :
    m'.Orders frame pages := by
  obtain ⟨fresh, nodup⟩ := List.nodup_cons.mp orders.nodup
  refine ⟨nodup, fun place => ?_⟩
  have before := orders.mem_iff place
  rw [List.map_cons, List.mem_cons, mem_leavesTo] at before
  rw [mem_leavesTo, leaf]
  by_cases same : place = page.place
  · subst same
    rw [Function.update_self]
    refine ⟨fun member => absurd member fresh, fun points => ?_⟩
    exact absurd (leads.symm.trans points.2.2) apart
  · rw [Function.update_of_ne same, ← before]
    exact (or_iff_right same).symm

end Orders

/-- Each page of the list has one of the frames to itself, and can write to it. Nothing else has
changed, but that all of the frames save the last have been taken from the pool. -/
structure AllSeparated (m m' : Manager layout) (held : Finset Frame) (pages : List LinearAddr)
    (frames : List Frame) : Prop where
  sound : m'.Sound held
  link : m'.memory.link = m.memory.link
  leaf : ∀ place, place ∉ pages.map LinearAddr.place → m'.memory.leaf place = m.memory.leaf place
  opened : ∀ page ∈ pages, m'.Writable page.place
  given : pages.map (fun page => (m'.memory.leaf page.place).frame) = frames
  seen : ∀ other ∈ layout.taskPlaces, m'.memory.seen other = m.memory.seen other
  free : m'.pool.freeCount + frames.length = m.pool.freeCount + 1
  allocations : m'.pool.allocations + 1 = m.pool.allocations + frames.length

theorem Restored.allSeparated {page : LinearAddr}
    (restored : Restored m m' held page.place) :
    AllSeparated m m' held [page] [(m.memory.leaf page.place).frame] := by
  refine ⟨restored.opened.sound, restored.link, ?_, ?_, ?_, restored.opened.seen, ?_, ?_⟩
  · intro place outside
    exact restored.opened.leaf place (fun same => outside (List.mem_singleton.mpr same))
  · intro other member
    rw [List.mem_singleton.mp member]
    exact ⟨restored.opened.present, restored.opened.writable⟩
  · rw [restored.leaf, List.map_singleton, Function.update_self, Entry.frame_madeWritable]
  · rw [restored.pool]
    rfl
  · rw [restored.pool]
    rfl

theorem AllSeparated.cons {m'' : Manager layout} {page : LinearAddr} {pages : List LinearAddr}
    {copy : Frame} {frames : List Frame} (sound : m.Sound held)
    (inside : page.place ∈ layout.taskPlaces)
    (mapped : (m.memory.leaf page.place).isPresent = true)
    (first : Separated m m' held page.place copy) (rest : AllSeparated m' m'' held pages frames)
    (fresh : page.place ∉ pages.map LinearAddr.place) :
    AllSeparated m m'' held (page :: pages) (copy :: frames) := by
  have kept := rest.leaf _ fresh
  have free := first.freeCount_succ sound inside mapped
  have free' := rest.free
  have taken := first.allocations
  have taken' := rest.allocations
  refine ⟨rest.sound, rest.link.trans first.link, ?_, ?_, ?_, ?_, ?_, ?_⟩
  · intro place outside
    rw [List.map_cons, List.mem_cons, not_or] at outside
    obtain ⟨apart, outside'⟩ := outside
    rw [rest.leaf place outside', first.opened.leaf place apart]
  · intro other member
    rcases List.mem_cons.mp member with rfl | later
    · rw [Writable, kept]
      exact ⟨first.opened.present, first.opened.writable⟩
    · exact rest.opened other later
  · rw [List.map_cons, rest.given, kept, first.leaf, Function.update_self,
      Entry.frame_new_of_lt first.task.2]
  · intro other member
    rw [rest.seen other member, first.opened.seen other member]
  · rw [List.length_cons]
    omega
  · rw [List.length_cons]
    omega

theorem Sound.exists_separate (sound : m.Sound held) {page : LinearAddr}
    {pages : List LinearAddr} (orders : m.Orders frame (page :: pages))
    (room : pages.length ≤ m.pool.freeCount) :
    ∃ m', (page :: pages).mapM resolveWriteProtect m =
        .ok ((FramePool.handouts pages.length m.pool).map .copied ++ [.restored]) m' ∧
      AllSeparated m m' held (page :: pages)
        (FramePool.handouts pages.length m.pool ++ [frame]) := by
  induction pages generalizing m page with
  | nil =>
      obtain ⟨inside, mapped, rfl⟩ := orders.maps List.mem_cons_self
      have task := Layout.kernelTables_le_of_mem inside
      -- the one sharer that is left finds its frame counted once
      have once := (sound.balanced.count_eq_card inside mapped).trans orders.card_eq
      obtain ⟨resolution, m', run, ends⟩ := sound.exists_resolveWriteProtect task mapped
      obtain rfl := ends.restored_iff.mpr once
      obtain ⟨restored⟩ | _ | _ := ends
      refine ⟨m', ?_, restored.allSeparated⟩
      rw [List.mapM_cons, bind_ok run]
      rfl
  | cons next pages ih =>
      obtain ⟨inside, mapped, rfl⟩ := orders.maps List.mem_cons_self
      have task := Layout.kernelTables_le_of_mem inside
      have count := (sound.balanced.count_eq_card inside mapped).trans orders.card_eq
      rw [List.length_cons, List.length_cons] at count
      rw [List.length_cons] at room
      obtain ⟨resolution, m₁, run, ends⟩ := sound.exists_resolveWriteProtect task mapped
      obtain ⟨copy, rfl⟩ := ends.copied_iff.mpr ⟨by omega, by omega⟩
      obtain _ | ⟨separated⟩ | _ := ends
      have apart := separated.frame_ne sound inside mapped
      have free := separated.freeCount_succ sound inside mapped
      -- the sharers that are left have the frame to themselves
      have orders' := orders.tail apart.symm (Entry.frame_new_of_lt separated.task.2 _)
        separated.leaf
      obtain ⟨m₂, rest, all⟩ := ih separated.opened.sound orders' (by omega)
      have handed : FramePool.handouts (pages.length + 1) m.pool =
          copy :: FramePool.handouts pages.length m₁.pool :=
        FramePool.handouts_succ _ separated.next (separated.free_iff sound inside mapped)
      rw [List.length_cons, handed]
      refine ⟨m₂, ?_, AllSeparated.cons sound inside mapped separated all
        (List.nodup_cons.mp orders.nodup).1⟩
      rw [List.mapM_cons, bind_ok run, bind_ok rest]
      rfl

end Manager

open Manager

variable {layout : Layout} {m : Manager layout} {held : Finset Frame}

/-- However the sharers of a frame take their faults, all but the last get the next free frames,
one each, and the last keeps the frame. Each then has a frame of its own with the bytes of before,
and nobody else notices. -/
theorem Reachable.sharers_separate (reachable : Reachable layout m held) {frame : Frame}
    (shared : 2 ≤ (leavesTo layout m.memory.leaf frame).card)
    (room : (leavesTo layout m.memory.leaf frame).card - 1 ≤ m.pool.freeCount) :
    ∃ copies : List Frame, copies.Nodup ∧
      copies.length + 1 = (leavesTo layout m.memory.leaf frame).card ∧
      (∀ copy ∈ copies, m.refCount? copy = some 0) ∧
      ∀ pages, m.Orders frame pages →
        ∃ m', pages.mapM resolveWriteProtect m =
            .ok (copies.map .copied ++ [.restored]) m' ∧
          m'.pool.allocations = m.pool.allocations + copies.length ∧
          m'.pool.freeCount + copies.length = m.pool.freeCount ∧
          pages.map (fun page => (m'.memory.leaf page.place).frame) = copies ++ [frame] ∧
          (∀ page ∈ pages, ∃ own, (m'.memory.leaf page.place).PointsAt own ∧
            (m'.memory.leaf page.place).isWritable = true ∧ m'.refCount? own = some 1 ∧
            leavesTo layout m'.memory.leaf own = {page.place}) ∧
          (∀ addr, layout.kernelTables ≤ addr.dirIndex → m'.byteAt addr = m.byteAt addr) ∧
          m'.memory.link = m.memory.link ∧
          ∀ place, place ∉ leavesTo layout m.memory.leaf frame →
            m'.memory.leaf place = m.memory.leaf place := by
  have sound := reachable.sound
  generalize card : (leavesTo layout m.memory.leaf frame).card = sharers at *
  have length := FramePool.length_handouts room
  refine ⟨FramePool.handouts (sharers - 1) m.pool, FramePool.nodup_handouts _ _, by omega, ?_, ?_⟩
  · intro copy member
    obtain ⟨pooled, unused⟩ := FramePool.unused_of_mem_handouts member
    rw [refCount?_eq pooled, unused]
  · intro pages orders
    have many := orders.card_eq
    cases pages with
    | nil =>
        rw [card, List.length_nil] at many
        omega
    | cons page pages =>
        rw [card, List.length_cons] at many
        have others : sharers - 1 = pages.length := by omega
        rw [others] at room length ⊢
        obtain ⟨m', run, all⟩ := sound.exists_separate orders room
        have free := all.free
        have allocations := all.allocations
        rw [List.length_append, List.length_singleton] at free allocations
        refine ⟨m', run, by omega, by omega, all.given, ?_, ?_, all.link, ?_⟩
        · intro other member
          obtain ⟨present, writable⟩ := all.opened other member
          have inside := (orders.maps member).1
          have task := Layout.kernelTables_le_of_mem inside
          have once := all.sound.balanced.exclusive _ inside present writable
          have pooled := (all.sound.balanced.mapped _ inside present).pooled
          refine ⟨_, ⟨present, rfl⟩, writable, ?_, ?_⟩
          · rw [refCount?_eq pooled, once]
          · exact all.sound.leavesTo_of_once task ⟨present, rfl⟩ once
        · intro addr task
          rw [all.sound.byteAt_eq task, sound.byteAt_eq task]
          exact congrArg Except.ok (SameContents.of_seen all.seen addr task)
        · intro place outside
          exact all.leaf place (fun member => outside ((orders.mem_iff place).mp member))

theorem Manager.orders_of_pair {frame : Frame} {addr other : LinearAddr}
    (pair : leavesTo layout m.memory.leaf frame = {addr.place, other.place})
    (apart : addr.place ≠ other.place) : m.Orders frame [addr, other] := by
  constructor
  · exact List.nodup_cons.mpr ⟨fun member => apart (List.mem_singleton.mp member),
      List.nodup_singleton _⟩
  · intro place
    rw [pair, Finset.mem_insert, Finset.mem_singleton, List.map_cons, List.map_singleton,
      List.mem_cons, List.mem_singleton]

/-- Two sharers in either order: the first takes the copy, the second keeps the frame. -/
theorem sharers_separate_shared :
    ∃ m copy, Reachable .tiny m ∅ ∧ m.refCount? copy = some 0 ∧
      (∃ m', [firstPage, spareBlock].mapM resolveWriteProtect m =
          .ok [.copied copy, .restored] m' ∧
        (m'.memory.leaf firstPage.place).frame = copy ∧
        (m'.memory.leaf spareBlock.place).frame = ⟨163⟩) ∧
      ∃ m', [spareBlock, firstPage].mapM resolveWriteProtect m =
          .ok [.copied copy, .restored] m' ∧
        (m'.memory.leaf spareBlock.place).frame = copy ∧
        (m'.memory.leaf firstPage.place).frame = ⟨163⟩ := by
  obtain ⟨m, reachable, pair, room⟩ := exists_reachable_shared
  have apart : firstPage.place ≠ spareBlock.place := by decide
  have two : (leavesTo .tiny m.memory.leaf ⟨163⟩).card = 2 := by
    rw [pair, Finset.card_pair apart]
  obtain ⟨copies, -, length, free, separate⟩ := Reachable.sharers_separate reachable
    (Nat.le_of_eq two.symm) (by rw [two]; exact room)
  rw [two] at length
  obtain ⟨copy, rfl⟩ := List.length_eq_one_iff.mp (Nat.succ.inj length)
  obtain ⟨m₁, run₁, -, -, given₁, -⟩ := separate _ (orders_of_pair pair apart)
  obtain ⟨m₂, run₂, -, -, given₂, -⟩ := separate _
    (orders_of_pair (pair.trans (Finset.pair_comm _ _)) apart.symm)
  obtain ⟨first, rest⟩ := List.cons.inj given₁
  obtain ⟨first', rest'⟩ := List.cons.inj given₂
  exact ⟨m, copy, reachable, free copy List.mem_cons_self,
    ⟨m₁, run₁, first, (List.cons.inj rest).1⟩, m₂, run₂, first', (List.cons.inj rest').1⟩

end PagedMemory

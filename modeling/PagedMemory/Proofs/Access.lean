import PagedMemory.Access
import PagedMemory.Proofs.Faults

/-!
Reading and writing task memory. Faults on the way leave the bytes alone, a frame that is written
to has one owner, and so a store changes the bytes it names and no others. An access that kills the
task has stored the first part of its data, up to the start of a page.
-/

namespace PagedMemory.Manager

variable {layout : Layout} {m m' : Manager layout} {held : Finset Frame}

open Operation

def contents (m : Manager layout) : Contents := fun addr =>
  (m.memory.seen addr.place).byte addr.pageOffset

/-- The byte at an address, found through the tables; zero where no page is mapped. -/
def byteAt (m : Manager layout) (addr : LinearAddr) : Except FatalError UInt8 := do
  match ← m.walk addr with
  | none => return 0
  | some entry => m.memory.readByte entry.frame addr.pageOffset

def SameContents (layout : Layout) (contents contents' : Contents) : Prop :=
  ∀ addr : LinearAddr, layout.kernelTables ≤ addr.dirIndex → contents' addr = contents addr

theorem SameContents.of_seen
    (seen : ∀ place ∈ layout.taskPlaces, m'.memory.seen place = m.memory.seen place) :
    SameContents layout m.contents m'.contents := by
  intro addr task
  rw [contents, contents, seen _ (Layout.place_mem_taskPlaces task)]

theorem SameContents.trans {first second third : Contents}
    (same : SameContents layout first second) (next : SameContents layout second third) :
    SameContents layout first third :=
  fun addr task => (next addr task).trans (same addr task)

theorem SameContents.fetch_eq {first second : Contents} (same : SameContents layout first second)
    {addr : LinearAddr} {length : Nat} (within : length ≠ 0 → layout.InTaskSpace addr length) :
    second.fetch addr length = first.fetch addr length := by
  apply List.map_congr_left
  intro i member
  have bound := List.mem_range.mp member
  exact same _ ((within (by omega)).advance bound).1

theorem Sound.byteAt_eq (sound : m.Sound held) {addr : LinearAddr}
    (task : layout.kernelTables ≤ addr.dirIndex) : m.byteAt addr = .ok (m.contents addr) := by
  rw [byteAt, sound.walk_eq, contents]
  by_cases mapped : (m.memory.leaf addr.place).isPresent = true
  · have inside := (sound.balanced.mapped _ (Layout.place_mem_taskPlaces task) mapped).2
    rw [if_pos mapped, PhysicalMemory.seen_of_present _ mapped]
    change m.memory.readByte (m.memory.leaf addr.place).frame addr.pageOffset = _
    exact m.memory.readByte_eq inside addr.pageOffset
  · rw [if_neg mapped, PhysicalMemory.seen_of_absent _ (Bool.not_eq_true _ ▸ mapped),
      Page.byte_zero]
    rfl

theorem survive_run {resolution : Resolution} (alive : resolution ≠ .killed)
    (m : Manager layout) : survive resolution m = .ok () m := by
  rw [survive, if_neg alive]
  rfl

theorem survive_killed (m : Manager layout) : survive .killed m = .error .killed m := rfl

section Backing

variable {addr : LinearAddr}

theorem Sound.mappedEntry_run (sound : m.Sound held)
    (mapped : (m.memory.leaf addr.place).isPresent = true) :
    (orFatal (mappedEntry addr) : Operation layout AccessError Entry) m =
      .ok (m.memory.leaf addr.place) m := by
  have walk := sound.walk_eq addr
  rw [if_pos mapped] at walk
  apply orFatal_ok
  rw [mappedEntry, bind_ok (ask_ok walk)]
  rfl

theorem backingFrame_of_writable {entry : Entry} (found : m.walk addr = .ok (some entry))
    (writable : entry.isWritable = true) (mode : AccessMode) :
    backingFrame addr mode m = .ok entry.frame m := by
  have present : presentEntry addr m = .ok entry m := by
    rw [presentEntry, bind_ok (orFatal_ok (ask_ok found))]
    rfl
  have pass : ¬ (mode = .userWrite && !entry.isWritable) = true := by
    rw [writable, Bool.not_true, Bool.and_false]
    exact Bool.false_ne_true
  rw [backingFrame, bind_ok present, if_neg pass]
  rfl

/-- How the frame behind a page is found: at once or after one fault, or the task is killed. -/
inductive Found (m : Manager layout) (held : Finset Frame) (place : Nat × Nat)
    (mode : AccessMode) : EStateM.Result AccessError (Manager layout) Frame → Prop
  | mapped (present : (m.memory.leaf place).isPresent = true)
      (pass : mode = .userWrite → (m.memory.leaf place).isWritable = true) :
      Found m held place mode (.ok (m.memory.leaf place).frame m)
  | filled {frame : Frame} {m' : Manager layout} (ends : ZeroFilled m m' held place frame) :
      Found m held place mode (.ok (m'.memory.leaf place).frame m')
  | unfilled {m' : Manager layout} (absent : (m.memory.leaf place).isPresent = false)
      (ends : Unfilled m m' held place) : Found m held place mode (.error .killed m')
  | exclusive {resolution : Resolution} {m' : Manager layout} (user : mode = .userWrite)
      (present : (m.memory.leaf place).isPresent = true) (alive : resolution ≠ .killed)
      (ends : Exclusive m m' held place resolution) :
      Found m held place mode (.ok (m'.memory.leaf place).frame m')
  | shared {m' : Manager layout} (user : mode = .userWrite)
      (present : (m.memory.leaf place).isPresent = true)
      (ends : Exclusive m m' held place .killed) : Found m held place mode (.error .killed m')

theorem Sound.backingFrame_of_present (sound : m.Sound held)
    (task : layout.kernelTables ≤ addr.dirIndex)
    (present : (m.memory.leaf addr.place).isPresent = true) (mode : AccessMode) :
    Found m held addr.place mode (backingFrame addr mode m) := by
  have walk := sound.walk_eq addr
  rw [if_pos present] at walk
  have entry : presentEntry addr m = .ok (m.memory.leaf addr.place) m := by
    rw [presentEntry, bind_ok (orFatal_ok (ask_ok walk))]
    rfl
  by_cases stop : (mode = .userWrite && !(m.memory.leaf addr.place).isWritable) = true
  · have user : mode = .userWrite := of_decide_eq_true (Bool.and_eq_true_iff.mp stop).1
    have begun : backingFrame addr mode m = (do
        survive (← orFatal (resolveWriteProtect addr))
        return (← orFatal (mappedEntry addr)).frame :
        Operation layout AccessError Frame) m := by
      rw [backingFrame, bind_ok entry, if_pos stop]
    obtain ⟨resolution, m₁, fault, ends⟩ := sound.exists_resolveWriteProtect task present
    by_cases alive : resolution = .killed
    · subst alive
      rw [begun, bind_ok (orFatal_ok fault), bind_error (survive_killed m₁)]
      exact .shared user present ends
    · have opened := ends.opened alive
      rw [begun, bind_ok (orFatal_ok fault), bind_ok (survive_run alive m₁),
        bind_ok (opened.sound.mappedEntry_run opened.present)]
      exact .exclusive user present alive ends
  · rw [backingFrame, bind_ok entry, if_neg stop]
    refine .mapped present fun user => ?_
    simpa [user] using stop

theorem Sound.backingFrame_of_absent (sound : m.Sound held)
    (task : layout.kernelTables ≤ addr.dirIndex)
    (absent : ¬ (m.memory.leaf addr.place).isPresent = true) (mode : AccessMode) :
    Found m held addr.place mode (backingFrame addr mode m) := by
  have walk := sound.walk_eq addr
  rw [if_neg absent] at walk
  have begun : presentEntry addr m = (do
      survive (← orFatal (resolveNoPage addr))
      orFatal (mappedEntry addr) : Operation layout AccessError Entry) m := by
    rw [presentEntry, bind_ok (orFatal_ok (ask_ok walk))]
  rcases sound.resolveNoPage_ends task with
    ⟨m₁, fault, unfilled⟩ | ⟨present, -⟩ | ⟨frame, m₁, fault, filled⟩
  · have stop : presentEntry addr m = .error .killed m₁ := by
      rw [begun, bind_ok (orFatal_ok fault), bind_error (survive_killed m₁)]
    rw [backingFrame, bind_error stop]
    exact .unfilled (Bool.not_eq_true _ ▸ absent) unfilled
  · exact absurd present absent
  · have opened := filled.opened
    have alive : Resolution.zeroFilled frame ≠ .killed := nofun
    have entry : presentEntry addr m = .ok (m₁.memory.leaf addr.place) m₁ := by
      rw [begun, bind_ok (orFatal_ok fault), bind_ok (survive_run alive m₁),
        opened.sound.mappedEntry_run opened.present]
    have pass : ¬ (mode = .userWrite && !(m₁.memory.leaf addr.place).isWritable) = true := by
      rw [opened.writable, Bool.not_true, Bool.and_false]
      exact Bool.false_ne_true
    rw [backingFrame, bind_ok entry, if_neg pass]
    exact .filled filled

theorem Sound.backingFrame_found (sound : m.Sound held)
    (task : layout.kernelTables ≤ addr.dirIndex) (mode : AccessMode) :
    Found m held addr.place mode (backingFrame addr mode m) := by
  by_cases present : (m.memory.leaf addr.place).isPresent = true
  · exact sound.backingFrame_of_present task present mode
  · exact sound.backingFrame_of_absent task present mode

/-- `frame` is behind the page at `place`; a page that had to be written can be. -/
structure Backed (m m' : Manager layout) (held : Finset Frame) (place : Nat × Nat) (frame : Frame)
    (mode : AccessMode) : Prop where
  sound : m'.Sound held
  points : (m'.memory.leaf place).PointsAt frame
  writable : mode = .userWrite ∨ m.Guarded place → (m'.memory.leaf place).isWritable = true
  others : ∀ other, m.Guarded other → m'.Guarded other
  seen : ∀ other ∈ layout.taskPlaces, m'.memory.seen other = m.memory.seen other
  grown : m.Grown m'

theorem Opened.backed {place : Nat × Nat} (opened : Opened m m' held place) (mode : AccessMode) :
    Backed m m' held place (m'.memory.leaf place).frame mode :=
  ⟨opened.sound, ⟨opened.present, rfl⟩, fun _ => opened.writable, opened.verified.others,
    opened.seen, opened.grown⟩

theorem Sound.backingFrame_cases (sound : m.Sound held)
    (task : layout.kernelTables ≤ addr.dirIndex) (mode : AccessMode) :
    (∃ m', backingFrame addr mode m = .error .killed m' ∧ m'.Sound held ∧ m.Grown m' ∧
      ∀ other ∈ layout.taskPlaces, m'.memory.seen other = m.memory.seen other) ∨
    ∃ frame m', backingFrame addr mode m = .ok frame m' ∧
      Backed m m' held addr.place frame mode := by
  have found := sound.backingFrame_found task mode
  generalize backingFrame addr mode m = result at found ⊢
  cases found with
  | mapped present pass =>
      refine Or.inr ⟨_, m, rfl, sound, ⟨present, rfl⟩, ?_, fun _ same => same, fun _ _ => rfl,
        Grown.of_same rfl rfl⟩
      exact Or.rec pass fun guarded => guarded present
  | filled ends => exact Or.inr ⟨_, _, rfl, ends.opened.backed mode⟩
  | unfilled _ ends => exact Or.inl ⟨_, rfl, ends.sound, ends.grown, ends.same.seen⟩
  | exclusive _ _ alive ends => exact Or.inr ⟨_, _, rfl, (ends.opened alive).backed mode⟩
  | shared _ _ ends =>
      obtain _ | _ | ⟨_, _, memory, pool⟩ := ends
      refine Or.inl ⟨_, rfl, sound.of_same memory pool, Grown.of_same memory pool, ?_⟩
      intro other _
      rw [memory]

end Backing

theorem readUser_zero (addr : LinearAddr) :
    (readUser addr 0 : Operation layout AccessError (List UInt8)) = pure [] := by
  rw [readUser, dif_pos rfl]

theorem readUser_of_ne_zero (addr : LinearAddr) {length : Nat} (some : length ≠ 0) :
    (readUser addr length : Operation layout AccessError (List UInt8)) = (do
      let frame ← backingFrame addr .read
      let bytes ← orFatal
        (ask (·.memory.readBytes frame addr.pageOffset (firstChunk addr length)))
      let rest ← readUser (addr.advance (firstChunk addr length))
        (length - firstChunk addr length)
      return bytes ++ rest) := by
  rw [readUser, dif_neg some]

theorem firstChunk_le (addr : LinearAddr) (length : Nat) : firstChunk addr length ≤ length :=
  Nat.min_le_right _ _

theorem pageOffset_add_firstChunk_le (addr : LinearAddr) (length : Nat) :
    addr.pageOffset + firstChunk addr length ≤ pageSize := by
  have below := addr.pageOffset_lt
  have least := Nat.min_le_left (pageSize - addr.pageOffset) length
  simp only [firstChunk]
  omega

theorem slice_eq_fetch {page : Page} {contents : Contents} {addr : LinearAddr} {length : Nat}
    (fits : addr.pageOffset + length ≤ pageSize)
    (shown : ∀ other : LinearAddr, other.toNat / pageSize = addr.toNat / pageSize →
      contents other = page.byte other.pageOffset) :
    page.slice addr.pageOffset length = contents.fetch addr length := by
  rw [Page.slice, Contents.fetch, List.range'_eq_map_range, List.map_map]
  apply List.map_congr_left
  intro i member
  have below : addr.pageOffset + i < pageSize := by
    have bound := List.mem_range.mp member
    omega
  have here := LinearAddr.place_eq_iff.mp (LinearAddr.place_advance below)
  rw [shown _ here, LinearAddr.pageOffset_advance below]
  rfl

theorem Sound.readBytes_eq (sound : m.Sound held) {addr : LinearAddr}
    (task : layout.kernelTables ≤ addr.dirIndex) {frame : Frame}
    (points : (m.memory.leaf addr.place).PointsAt frame) {length : Nat}
    (page : addr.pageOffset + length ≤ pageSize) :
    m.memory.readBytes frame addr.pageOffset length = .ok (m.contents.fetch addr length) := by
  have inside := sound.balanced.mapped _ (Layout.place_mem_taskPlaces task) points.1
  rw [points.2] at inside
  rw [m.memory.readBytes_eq inside.2, slice_eq_fetch page]
  intro other same
  rw [contents, LinearAddr.place_eq_iff.mpr same, PhysicalMemory.seen_of_present _ points.1,
    points.2]

theorem Sound.readUser_cases (sound : m.Sound held) {addr : LinearAddr} {length : Nat}
    (within : length ≠ 0 → layout.InTaskSpace addr length) :
    (∃ m', readUser addr length m = .error .killed m' ∧ m'.Sound held ∧
      SameContents layout m.contents m'.contents) ∨
    ∃ m', readUser addr length m = .ok (m.contents.fetch addr length) m' ∧ m'.Sound held ∧
      SameContents layout m.contents m'.contents := by
  induction length using Nat.strongRecOn generalizing addr m with
  | ind length ih =>
    by_cases empty : length = 0
    · subst empty
      refine Or.inr ⟨m, ?_, sound, fun _ _ => rfl⟩
      rw [readUser_zero]
      rfl
    · have inside := within empty
      have positive := firstChunk_pos addr empty
      have part := firstChunk_le addr length
      have page := pageOffset_add_firstChunk_le addr length
      rw [readUser_of_ne_zero addr empty]
      generalize firstChunk addr length = chunk at *
      rcases sound.backingFrame_cases inside.1 .read with
        ⟨m₁, run, sound₁, -, seen⟩ | ⟨frame, m₁, run, backed⟩
      · exact Or.inl ⟨m₁, bind_error run, sound₁, SameContents.of_seen seen⟩
      · have same := SameContents.of_seen backed.seen
        have bytes := backed.sound.readBytes_eq inside.1 backed.points page
        have within' : length - chunk ≠ 0 →
            layout.InTaskSpace (addr.advance chunk) (length - chunk) :=
          fun more => inside.advance (by omega)
        have first : m₁.contents.fetch addr chunk = m.contents.fetch addr chunk :=
          same.fetch_eq fun _ => ⟨inside.1, by have below := inside.2; omega⟩
        have whole : m.contents.fetch addr length = m₁.contents.fetch addr chunk ++
            m₁.contents.fetch (addr.advance chunk) (length - chunk) := by
          rw [first, same.fetch_eq within', ← Contents.fetch_add]
          congr 1
          omega
        rw [bind_ok run, bind_ok (orFatal_ok (ask_ok bytes)), whole]
        rcases ih (length - chunk) (by omega) backed.sound within' with
          ⟨m₂, rest, sound₂, same'⟩ | ⟨m₂, rest, sound₂, same'⟩
        · exact Or.inl ⟨m₂, bind_error rest, sound₂, same.trans same'⟩
        · exact Or.inr ⟨m₂, bind_ok rest, sound₂, same.trans same'⟩

theorem storeUser_nil (mode : AccessMode) (addr : LinearAddr) :
    (storeUser mode addr [] : Operation layout AccessError Unit) = pure () := by
  rw [storeUser, dif_pos List.length_nil]

theorem storeUser_of_ne_zero (mode : AccessMode) (addr : LinearAddr) {data : List UInt8}
    (some : data.length ≠ 0) :
    (storeUser mode addr data : Operation layout AccessError Unit) = (do
      let frame ← backingFrame addr mode
      orFatal (onMemory (PhysicalMemory.writeBytes frame addr.pageOffset
        (data.take (firstChunk addr data.length))))
      storeUser mode (addr.advance (firstChunk addr data.length))
        (data.drop (firstChunk addr data.length))) := by
  rw [storeUser, dif_neg some]

theorem byte_store_eq {page : Page} {contents : Contents} {addr other : LinearAddr}
    {data : List UInt8} (same : other.toNat / pageSize = addr.toNat / pageSize)
    (before : contents other = page.byte other.pageOffset) :
    (page.store addr.pageOffset data).byte other.pageOffset = contents.store addr data other := by
  have offset : other.pageOffset < pageSize := other.pageOffset_lt
  rw [Page.byte_store, Contents.store, before]
  by_cases stored : addr.toNat ≤ other.toNat ∧ other.toNat - addr.toNat < data.length
  · have stored' : addr.pageOffset ≤ other.pageOffset ∧
        other.pageOffset < addr.pageOffset + data.length ∧ other.pageOffset < pageSize := by
      simp only [LinearAddr.pageOffset, pageSize] at *
      omega
    have index : other.pageOffset - addr.pageOffset = other.toNat - addr.toNat := by
      simp only [LinearAddr.pageOffset, pageSize] at *
      omega
    rw [dif_pos stored', dif_pos stored]
    simp only [index]
  · have stored' : ¬ (addr.pageOffset ≤ other.pageOffset ∧
        other.pageOffset < addr.pageOffset + data.length ∧ other.pageOffset < pageSize) := by
      simp only [LinearAddr.pageOffset, pageSize] at *
      omega
    rw [dif_neg stored', dif_neg stored]

theorem store_elsewhere (contents : Contents) {addr other : LinearAddr} {data : List UInt8}
    (apart : other.toNat / pageSize ≠ addr.toNat / pageSize)
    (fits : addr.pageOffset + data.length ≤ pageSize) :
    contents.store addr data other = contents other := by
  rw [Contents.store, dif_neg]
  simp only [LinearAddr.pageOffset, pageSize] at *
  omega

theorem writeBytes_of_inside {frame : Frame} (inside : frame.number < layout.totalFrames)
    (offset : Nat) (data : List UInt8) (m : Manager layout) :
    (onMemory (PhysicalMemory.writeBytes frame offset data) : Operation layout FatalError Unit) m =
      .ok () { m with memory := m.memory.modifyPage frame (·.store offset data) } :=
  onMemory_ok (m.memory.change_eq inside _)

theorem storeUser_firstPage {mode : AccessMode} {addr : LinearAddr} {data : List UInt8}
    {frame : Frame} (backed : backingFrame addr mode m = .ok frame m')
    (inside : frame.number < layout.totalFrames) (some : data.length ≠ 0) :
    storeUser mode addr data m =
      storeUser mode (addr.advance (pageSize - addr.pageOffset))
        (data.drop (pageSize - addr.pageOffset)) { m' with
          memory := m'.memory.modifyPage frame
            (·.store addr.pageOffset (data.take (pageSize - addr.pageOffset))) } := by
  rw [storeUser_of_ne_zero mode addr some, bind_ok backed, firstChunk,
    bind_ok (orFatal_ok (writeBytes_of_inside inside _ _ m'))]
  by_cases more : pageSize - addr.pageOffset ≤ data.length
  · rw [Nat.min_eq_left more]
  · have short : data.length ≤ pageSize - addr.pageOffset := Nat.le_of_not_le more
    rw [Nat.min_eq_right short, List.take_length, List.drop_length, List.take_of_length_le short,
      List.drop_of_length_le short, storeUser_nil, storeUser_nil]

theorem Sound.exists_writeBytes (sound : m.Sound held) {addr : LinearAddr}
    (task : layout.kernelTables ≤ addr.dirIndex) {frame : Frame}
    (points : (m.memory.leaf addr.place).PointsAt frame) {data : List UInt8}
    (page : addr.pageOffset + data.length ≤ pageSize) :
    ∃ m', (orFatal (onMemory (PhysicalMemory.writeBytes frame addr.pageOffset data)) :
        Operation layout AccessError Unit) m = .ok () m' ∧ m'.Sound held ∧
      m'.memory.leaf = m.memory.leaf ∧ m'.memory.link = m.memory.link ∧ m'.pool = m.pool ∧
      ((m.memory.leaf addr.place).isWritable = true →
        ∀ other : LinearAddr, layout.kernelTables ≤ other.dirIndex →
          m'.contents other = m.contents.store addr data other) := by
  have inside := Layout.place_mem_taskPlaces task
  have owned := sound.balanced.mapped _ inside points.1
  have unlinked : ∀ block ∈ layout.taskBlocks, (m.memory.link block).isPresent = true →
      (m.memory.link block).frame ≠ frame := by
    intro block member present same
    exact sound.balanced.leaf_ne_link member present inside points.1 (points.2.trans same.symm)
  rw [points.2] at owned
  have run := writeBytes_of_inside owned.2 addr.pageOffset data m
  have only := m.memory.onlyPage_modifyPage frame (·.store addr.pageOffset data)
  refine ⟨_, orFatal_ok run, sound.onlyPage only owned unlinked sound.balanced,
    sound.leaf_onlyPage only owned unlinked, only.link owned.ne_directory, rfl, ?_⟩
  intro writable other task'
  have alone : ∀ place ∈ layout.taskPlaces, (m.memory.leaf place).PointsAt frame →
      place = addr.place := by
    intro place member points'
    by_contra apart
    have twice := sound.balanced.two_le_count inside points.1 member points'.1
      (points'.2.trans points.2.symm) apart
    have once := sound.balanced.exclusive _ inside points.1 writable
    omega
  have seen := sound.seen_onlyPage only owned unlinked other.place
  rw [contents, seen]
  by_cases here : other.place = addr.place
  · have before : m.contents other = (m.memory.page frame).byte other.pageOffset := by
      rw [contents, here, PhysicalMemory.seen_of_present _ points.1, points.2]
    rw [here, if_pos points, PhysicalMemory.page_modifyPage_self owned.2]
    exact byte_store_eq (LinearAddr.place_eq_iff.mp here) before
  · rw [store_elsewhere m.contents (fun same => here (LinearAddr.place_eq_iff.mpr same)) page,
      if_neg]
    · rfl
    · exact fun points' => here (alone _ (Layout.place_mem_taskPlaces task') points')

/-- How a store of `data` ends: all of it is there, or a first part of it up to the start of a page
and the task is killed. -/
def Stored (m : Manager layout) (held : Finset Frame) (addr : LinearAddr) (data : List UInt8) :
    EStateM.Result AccessError (Manager layout) Unit → Prop
  | .ok _ m' => m'.Sound held ∧
      SameContents layout (m.contents.store addr data) m'.contents
  | .error .killed m' => m'.Sound held ∧ ∃ stored < data.length,
      (stored = 0 ∨ (addr.toNat + stored) % pageSize = 0) ∧
        SameContents layout (m.contents.store addr (data.take stored)) m'.contents
  | .error (.fatal _) _ => False

theorem stored_killed {addr : LinearAddr} {data : List UInt8} (some : data.length ≠ 0)
    (sound : m'.Sound held) (same : SameContents layout m.contents m'.contents) :
    Stored m held addr data (.error .killed m') := by
  refine ⟨sound, 0, Nat.pos_of_ne_zero some, Or.inl rfl, ?_⟩
  rw [List.take_zero, Contents.store_nil]
  exact same

theorem Stored.of_same {addr : LinearAddr} {data : List UInt8}
    {result : EStateM.Result AccessError (Manager layout) Unit}
    (same : SameContents layout m.contents m'.contents) (rest : Stored m' held addr data result) :
    Stored m held addr data result := by
  have moved (part : List UInt8) (last : Contents)
      (next : SameContents layout (m'.contents.store addr part) last) :
      SameContents layout (m.contents.store addr part) last := by
    intro other task
    rw [next other task]
    exact Contents.store_congr _ _ (same other task)
  match result, rest with
  | .ok _ m'', ⟨sound, last⟩ => exact ⟨sound, moved _ _ last⟩
  | .error .killed m'', ⟨sound, stored, below, boundary, last⟩ =>
      exact ⟨sound, stored, below, boundary, moved _ _ last⟩

theorem Stored.of_rest {addr : LinearAddr} {data : List UInt8} {chunk : Nat}
    {result : EStateM.Result AccessError (Manager layout) Unit}
    (first : SameContents layout (m.contents.store addr (data.take chunk)) m'.contents)
    (part : chunk ≤ data.length) (fits : addr.toNat + data.length ≤ addressSpace)
    (full : chunk < data.length → (addr.toNat + chunk) % pageSize = 0)
    (rest : Stored m' held (addr.advance chunk) (data.drop chunk) result) :
    Stored m held addr data result := by
  have length : (data.take chunk).length = chunk := List.length_take_of_le part
  have left : (data.drop chunk).length = data.length - chunk := List.length_drop
  have joined {more : List UInt8} {last : Contents} (bound : more.length ≤ data.length - chunk)
      (next : SameContents layout (m'.contents.store (addr.advance chunk) more) last) :
      SameContents layout (m.contents.store addr (data.take chunk ++ more)) last := by
    have fits' : more ≠ [] → addr.toNat + (data.take chunk).length < addressSpace := by
      intro some
      have positive := List.length_pos_iff.mpr some
      omega
    intro other task
    have twice := Contents.store_append m.contents addr fits'
    rw [length] at twice
    rw [next other task, ← twice]
    exact Contents.store_congr _ _ (first other task)
  match result, rest with
  | .ok _ m'', ⟨sound, same⟩ =>
      refine ⟨sound, ?_⟩
      rw [← List.take_append_drop chunk data]
      exact joined (Nat.le_of_eq left) same
  | .error .killed m'', ⟨sound, stored, below, boundary, same⟩ =>
      have number : (addr.advance chunk).toNat = addr.toNat + chunk :=
        LinearAddr.toNat_advance_of_lt (by omega)
      refine ⟨sound, chunk + stored, by omega, Or.inr ?_, ?_⟩
      · rcases boundary with rfl | boundary
        · exact full (by omega)
        · rw [number] at boundary
          rw [← Nat.add_assoc]
          exact boundary
      · rw [List.take_add]
        apply joined _ same
        rw [List.length_take]
        omega

theorem Sound.storeUser_stored (sound : m.Sound held) {mode : AccessMode} {addr : LinearAddr}
    {data : List UInt8} (within : data.length ≠ 0 → layout.InTaskSpace addr data.length)
    (guarded : mode = .userWrite ∨ ∀ other : LinearAddr, addr.toNat ≤ other.toNat →
      other.toNat < addr.toNat + data.length → m.Guarded other.place) :
    Stored m held addr data (storeUser mode addr data m) := by
  induction length : data.length using Nat.strongRecOn generalizing addr data m with
  | ind length' ih =>
    by_cases empty : data.length = 0
    · obtain rfl := List.length_eq_zero_iff.mp empty
      rw [storeUser_nil]
      refine ⟨sound, ?_⟩
      rw [Contents.store_nil]
      exact fun _ _ => rfl
    · have inside := within empty
      have positive := firstChunk_pos addr empty
      have part := firstChunk_le addr data.length
      have page := pageOffset_add_firstChunk_le addr data.length
      -- only the last chunk may end inside a page
      have full : firstChunk addr data.length < data.length →
          (addr.toNat + firstChunk addr data.length) % pageSize = 0 := by
        intro more
        simp only [firstChunk, LinearAddr.pageOffset, pageSize] at *
        omega
      rw [storeUser_of_ne_zero mode addr empty]
      generalize firstChunk addr data.length = chunk at *
      rcases sound.backingFrame_cases inside.1 mode with
        ⟨m₁, run, sound₁, -, seen⟩ | ⟨frame, m₁, run, backed⟩
      · rw [bind_error run]
        exact stored_killed empty sound₁ (SameContents.of_seen seen)
      · have writable : (m₁.memory.leaf addr.place).isWritable = true :=
          backed.writable (guarded.imp_right fun all => all addr (Nat.le_refl _) (by omega))
        have page' : addr.pageOffset + (data.take chunk).length ≤ pageSize := by
          rw [List.length_take_of_le part]
          exact page
        obtain ⟨m₂, write, sound₂, leaf, -, -, same⟩ :=
          backed.sound.exists_writeBytes inside.1 backed.points page'
        rw [bind_ok run, bind_ok write]
        have left : (data.drop chunk).length = data.length - chunk := List.length_drop
        have first : SameContents layout (m.contents.store addr (data.take chunk)) m₂.contents := by
          intro other task
          rw [same writable other task]
          exact Contents.store_congr _ _ (SameContents.of_seen backed.seen other task)
        apply Stored.of_rest first part inside.2 full
        apply ih (data.drop chunk).length (by omega) sound₂ _ _ rfl
        · intro some
          rw [left]
          exact inside.advance (by omega)
        -- the fault of this chunk may open a page, and it closes none
        · refine guarded.imp_right ?_
          intro all other above below
          have fits := inside.2
          have number : (addr.advance chunk).toNat = addr.toNat + chunk :=
            LinearAddr.toNat_advance_of_lt (by omega)
          rw [Guarded, leaf]
          exact backed.others _ (all other (by omega) (by omega))

theorem Sound.writeUser_stored (sound : m.Sound held) {addr : LinearAddr} {data : List UInt8}
    (within : data.length ≠ 0 → layout.InTaskSpace addr data.length) :
    Stored m held addr data (writeUser addr data m) :=
  sound.storeUser_stored within (Or.inl rfl)

theorem copyToUser_of_ne_nil {addr : LinearAddr} {data : List UInt8} (some : data ≠ [])
    (within : layout.InTaskSpace addr data.length) (m : Manager layout) :
    copyToUser addr data m =
      (verifyArea addr data.length >>= fun _ => storeUser .kernelWrite addr data) m := by
  have fits := within.2
  have positive := within.toNat_ne_zero
  rw [copyToUser, if_neg, Nat.mod_eq_of_lt (show data.length < addressSpace by omega)]
  rw [List.isEmpty_iff]
  exact some

theorem Sound.copyToUser_stored (sound : m.Sound held) {addr : LinearAddr} {data : List UInt8}
    (within : data.length ≠ 0 → layout.InTaskSpace addr data.length) :
    Stored m held addr data (copyToUser addr data m) := by
  by_cases empty : data = []
  · subst empty
    refine ⟨sound, ?_⟩
    rw [Contents.store_nil]
    exact fun _ _ => rfl
  · have some : data.length ≠ 0 := fun zero => empty (List.length_eq_zero_iff.mp zero)
    rw [copyToUser_of_ne_nil empty (within some)]
    rcases sound.verifyArea_cases (within some).1 data.length with
      ⟨m₁, run, sound₁, -, seen⟩ | ⟨m₁, run, area⟩
    · rw [bind_error run]
      exact stored_killed some sound₁ (SameContents.of_seen seen)
    · rw [bind_ok run]
      apply Stored.of_same (SameContents.of_seen area.seen)
      apply area.sound.storeUser_stored within
      refine Or.inr ?_
      intro other above below
      obtain ⟨page, member, place⟩ := exists_areaPage above below
      rw [← place]
      exact area.guarded page member

end PagedMemory.Manager

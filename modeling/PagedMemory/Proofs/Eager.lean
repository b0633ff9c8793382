import PagedMemory.Proofs.FaultOutcomes

/-!
Sharing against copying. The eager machine has one byte for each linear address and copies a
parent's blocks when it forks. Whatever tasks do, they find the bytes of the eager machine: faults,
sharing and the reuse of frames are invisible, and an access that is killed half way has stored the
first pages of its data.
-/

namespace PagedMemory

open Manager

namespace Contents

/-- The blocks from `target` on become copies of those from `source` on. -/
def copyBlocks (contents : Contents) (source target : LinearAddr) (blocks : Nat) : Contents :=
  fun addr =>
    if target.dirIndex ≤ addr.dirIndex ∧ addr.dirIndex < target.dirIndex + blocks then
      contents (LinearAddr.ofNat (source.toNat + (addr.toNat - target.toNat)))
    else contents addr

def clearBlocks (contents : Contents) (start : LinearAddr) (blocks : Nat) : Contents := fun addr =>
  if start.dirIndex ≤ addr.dirIndex ∧ addr.dirIndex < start.dirIndex + blocks then 0
  else contents addr

end Contents

namespace Call

/-- What the eager machine does on a call that ends in the given way. -/
def Eager (before : Contents) : Call → Outcome → Contents → Prop
  | write addr data, .done, after | copyToUser addr data, .done, after =>
      after = before.store addr data
  | write addr data, .killed, after | copyToUser addr data, .killed, after =>
      ∃ stored < data.length, (stored = 0 ∨ (addr.toNat + stored) % pageSize = 0) ∧
        after = before.store addr (data.take stored)
  | read addr length, .bytes data, after => data = before.fetch addr length ∧ after = before
  | fork parent child limit, .done, after =>
      after = before.copyBlocks parent child (blocksSpanned limit)
  | release start size, .done, after => after = before.clearBlocks start (blocksSpanned size)
  | fork parent child _, .fatal (.misaligned _ addr), after =>
      (addr = parent ∨ addr = child) ∧ addr.isBlockAligned = false ∧ after = before
  | release start _, .fatal (.misaligned _ addr), after =>
      addr = start ∧ start.isBlockAligned = false ∧ after = before
  | read .., .killed, after | fork .., .outOfMemory, after | noPage _, .resolved _, after
  | writeProtect _, .resolved _, after | verifyWrite _, .verified _, after
  | verifyArea .., .done, after | verifyArea .., .killed, after => after = before
  | _, _, _ => False

/-- What tasks and the kernel on their behalf may ask for, in task space throughout. A child's range
is empty and apart from its parent's. -/
def OfTask {layout : Layout} (m : Manager layout) : Call → Prop
  | read addr size | verifyArea addr size | release addr size => layout.InTaskSpace addr size
  | write addr data | copyToUser addr data => layout.InTaskSpace addr data.length
  | fork parent child limit =>
      layout.InTaskSpace parent limit ∧ layout.InTaskSpace child limit ∧
        m.Separate parent.dirIndex child.dirIndex (blocksSpanned limit)
  | noPage addr => layout.kernelTables ≤ addr.dirIndex ∧ m.walk addr = .ok none
  | writeProtect addr =>
      layout.kernelTables ≤ addr.dirIndex ∧ ∃ entry, m.walk addr = .ok (some entry)
  | verifyWrite addr => layout.kernelTables ≤ addr.dirIndex
  | _ => False

end Call

/-- Runs of the manager: what was asked and how it ended, and all states on the way, the latest
first. -/
inductive TaskRun (layout : Layout) : List (Call × Outcome) → List (Manager layout) → Prop
  | boot (console : Console) : TaskRun layout [] [boot layout console]
  | step {trace : List (Call × Outcome)} {m : Manager layout} {past : List (Manager layout)}
      (call : Call) (before : TaskRun layout trace (m :: past)) (permitted : call.OfTask m) :
      TaskRun layout ((call, (call.perform m).1) :: trace) ((call.perform m).2 :: m :: past)

inductive EagerRun : List (Call × Outcome) → List Contents → Prop
  | boot : EagerRun [] [fun _ => 0]
  | step {trace : List (Call × Outcome)} {before after : Contents} {past : List Contents}
      {call : Call} {outcome : Outcome} (run : EagerRun trace (before :: past))
      (eager : call.Eager before outcome after) :
      EagerRun ((call, outcome) :: trace) (after :: before :: past)

/-- What is found through the tables at task addresses. -/
def Manager.Presents {layout : Layout} (m : Manager layout) (contents : Contents) : Prop :=
  ∀ addr : LinearAddr, layout.kernelTables ≤ addr.dirIndex → m.byteAt addr = .ok (contents addr)

namespace Manager

variable {layout : Layout} {m m' : Manager layout} {held : Finset Frame} {before : Contents}

theorem contents_boot (layout : Layout) (console : Console) :
    SameContents layout (fun _ => 0) (boot layout console).contents := by
  intro addr task
  have member := (Layout.mem_taskPlaces.mp (Layout.place_mem_taskPlaces task)).1
  rw [contents, PhysicalMemory.seen_of_unlinked, Page.byte_zero]
  rw [link_boot_of_task member]
  exact Entry.isPresent_empty

def Follows (m : Manager layout) (held : Finset Frame) (before : Contents) (call : Call) : Prop :=
  ∃ after, call.Eager before (call.perform m).1 after ∧ (call.perform m).2.Sound held ∧
    SameContents layout after (call.perform m).2.contents

theorem Follows.of_perform {call : Call} {outcome : Outcome} {after : Contents}
    (ends : call.perform m = (outcome, m')) (eager : call.Eager before outcome after)
    (sound : m'.Sound held) (same : SameContents layout after m'.contents) :
    m.Follows held before call := by
  refine ⟨after, ?_, ?_, ?_⟩
  · rw [ends]
    exact eager
  · rw [ends]
    exact sound
  · rw [ends]
    exact same

theorem SameContents.store {first second : Contents} (same : SameContents layout first second)
    (addr : LinearAddr) (data : List UInt8) :
    SameContents layout (first.store addr data) (second.store addr data) :=
  fun other task => Contents.store_congr _ _ (same other task)

theorem Released.contents_eq {start : LinearAddr} {blocks : Nat}
    (released : m.Released m' start.dirIndex blocks) :
    SameContents layout (m.contents.clearBlocks start blocks) m'.contents := by
  intro addr task
  rw [contents, released.seen _ (Layout.place_mem_taskPlaces task), Contents.clearBlocks]
  by_cases covered : start.dirIndex ≤ addr.dirIndex ∧ addr.dirIndex < start.dirIndex + blocks
  · have covered' : start.dirIndex ≤ addr.place.1 ∧ addr.place.1 < start.dirIndex + blocks :=
      covered
    rw [if_pos covered, if_pos covered', Page.byte_zero]
  · have covered' : ¬ (start.dirIndex ≤ addr.place.1 ∧ addr.place.1 < start.dirIndex + blocks) :=
      covered
    rw [if_neg covered, if_neg covered']
    rfl

theorem SameContents.clearBlocks {first second : Contents}
    (same : SameContents layout first second) (start : LinearAddr) (blocks : Nat) :
    SameContents layout (first.clearBlocks start blocks) (second.clearBlocks start blocks) := by
  intro addr task
  rw [Contents.clearBlocks, Contents.clearBlocks, same addr task]

section Copy

variable {source target addr : LinearAddr} {blocks : Nat}
  (inside : source.dirIndex + blocks ≤ entriesPerDirectory)
  (aligned : source.isBlockAligned = true) (aligned' : target.isBlockAligned = true)
  (covered : target.dirIndex ≤ addr.dirIndex ∧ addr.dirIndex < target.dirIndex + blocks)

include inside aligned aligned' covered

theorem place_of_copy :
    (LinearAddr.ofNat (source.toNat + (addr.toNat - target.toNat))).place =
        (source.dirIndex + (addr.dirIndex - target.dirIndex), addr.tableIndex) ∧
      (LinearAddr.ofNat (source.toNat + (addr.toNat - target.toNat))).pageOffset =
        addr.pageOffset := by
  have whole : source.toNat % blockSize = 0 := beq_iff_eq.mp aligned
  have whole' : target.toNat % blockSize = 0 := beq_iff_eq.mp aligned'
  have number : (LinearAddr.ofNat (source.toNat + (addr.toNat - target.toNat))).toNat =
      source.toNat + (addr.toNat - target.toNat) := by
    rw [LinearAddr.toNat_ofNat]
    apply Nat.mod_eq_of_lt
    simp only [LinearAddr.dirIndex, blockSize, entriesPerDirectory, addressSpace] at *
    omega
  simp only [LinearAddr.place, LinearAddr.dirIndex, LinearAddr.tableIndex, LinearAddr.pageOffset,
    number, blockSize, pageSize, entriesPerTable, Prod.mk.injEq] at *
  omega

end Copy

theorem RangeShared.contents_eq {source target : LinearAddr} {blocks : Nat}
    (shared : m.RangeShared m' source.dirIndex target.dirIndex blocks)
    (inside : source.dirIndex + blocks ≤ entriesPerDirectory)
    (aligned : source.isBlockAligned = true) (aligned' : target.isBlockAligned = true) :
    SameContents layout (m.contents.copyBlocks source target blocks) m'.contents := by
  intro addr task
  have seen := shared.seen _ (Layout.place_mem_taskPlaces task)
  rw [contents, seen, Contents.copyBlocks]
  by_cases covered : target.dirIndex ≤ addr.dirIndex ∧ addr.dirIndex < target.dirIndex + blocks
  · obtain ⟨place, offset⟩ := place_of_copy inside aligned aligned' covered
    have covered' : target.dirIndex ≤ addr.place.1 ∧ addr.place.1 < target.dirIndex + blocks :=
      covered
    rw [if_pos covered, if_pos covered', contents, place, offset]
    rfl
  · have covered' : ¬ (target.dirIndex ≤ addr.place.1 ∧ addr.place.1 < target.dirIndex + blocks) :=
      covered
    rw [if_neg covered, if_neg covered']
    rfl

theorem SameContents.copyBlocks {first second : Contents}
    (same : SameContents layout first second) {source target : LinearAddr} {blocks : Nat}
    (task : layout.kernelTables ≤ source.dirIndex)
    (inside : source.dirIndex + blocks ≤ entriesPerDirectory)
    (aligned : source.isBlockAligned = true) (aligned' : target.isBlockAligned = true) :
    SameContents layout (first.copyBlocks source target blocks)
      (second.copyBlocks source target blocks) := by
  intro addr task'
  rw [Contents.copyBlocks, Contents.copyBlocks]
  by_cases covered : target.dirIndex ≤ addr.dirIndex ∧ addr.dirIndex < target.dirIndex + blocks
  · obtain ⟨place, -⟩ := place_of_copy inside aligned aligned' covered
    have block : (LinearAddr.ofNat (source.toNat + (addr.toNat - target.toNat))).dirIndex =
        source.dirIndex + (addr.dirIndex - target.dirIndex) := congrArg Prod.fst place
    rw [if_pos covered, if_pos covered]
    apply same
    omega
  · rw [if_neg covered, if_neg covered]
    exact same addr task'

section Follow

variable (agrees : SameContents layout before m.contents)

include agrees

theorem Follows.of_same {call : Call} {outcome : Outcome} (ends : call.perform m = (outcome, m'))
    (eager : call.Eager before outcome before) (sound : m'.Sound held)
    (same : SameContents layout m.contents m'.contents) : m.Follows held before call :=
  Follows.of_perform ends eager sound (agrees.trans same)

theorem follows_of_stored {call : Call} {addr : LinearAddr} {data : List UInt8}
    {result : EStateM.Result AccessError (Manager layout) Unit}
    (ends : call.perform m = report .ofAccessError (fun _ => .done) result)
    (done : call.Eager before .done (before.store addr data))
    (killed : ∀ stored < data.length, (stored = 0 ∨ (addr.toNat + stored) % pageSize = 0) →
      call.Eager before .killed (before.store addr (data.take stored)))
    (stored : Stored m held addr data result) : m.Follows held before call := by
  match result, stored with
  | .ok _ m', ⟨sound, same⟩ =>
      exact Follows.of_perform ends done sound ((agrees.store addr data).trans same)
  | .error .killed m', ⟨sound, stored, below, boundary, same⟩ =>
      exact Follows.of_perform ends (killed stored below boundary) sound
        ((agrees.store addr (data.take stored)).trans same)

variable (sound : m.Sound held)

include sound

theorem follows_write {addr : LinearAddr} {data : List UInt8}
    (within : layout.InTaskSpace addr data.length) : m.Follows held before (.write addr data) :=
  follows_of_stored agrees rfl rfl (fun stored below boundary => ⟨stored, below, boundary, rfl⟩)
    (sound.writeUser_stored fun _ => within)

theorem follows_copyToUser {addr : LinearAddr} {data : List UInt8}
    (within : layout.InTaskSpace addr data.length) :
    m.Follows held before (.copyToUser addr data) :=
  follows_of_stored agrees rfl rfl (fun stored below boundary => ⟨stored, below, boundary, rfl⟩)
    (sound.copyToUser_stored fun _ => within)

theorem follows_read {addr : LinearAddr} {length : Nat}
    (within : layout.InTaskSpace addr length) : m.Follows held before (.read addr length) := by
  rcases sound.readUser_cases (fun _ => within) with
    ⟨m', run, sound', same⟩ | ⟨m', run, sound', same⟩
  · exact Follows.of_same agrees (congrArg (report _ _) run) rfl sound' same
  · refine Follows.of_same agrees (congrArg (report _ _) run) ⟨?_, rfl⟩ sound' same
    exact agrees.fetch_eq fun _ => within

theorem follows_fork {parent child : LinearAddr} {limit : Nat}
    (within : layout.InTaskSpace parent limit) (within' : layout.InTaskSpace child limit)
    (separate : m.Separate parent.dirIndex child.dirIndex (blocksSpanned limit)) :
    m.Follows held before (.fork parent child limit) := by
  by_cases aligned : parent.isBlockAligned = true ∧ child.isBlockAligned = true
  · have inside := within.blocks_le aligned.1
    rcases sound.fork_cases within within' aligned.1 aligned.2 with
      ⟨m', run, sound', effect⟩ | ⟨m', run, sound', effect⟩ | ⟨_, _, _, _, _, _, _, mixed⟩
    · have copied := (effect separate).contents_eq inside aligned.1 aligned.2
      exact Follows.of_perform (congrArg (report _ _) run) rfl sound'
        ((agrees.copyBlocks within.1 inside aligned.1 aligned.2).trans copied)
    · exact Follows.of_same agrees (congrArg (report _ _) run) rfl sound'
        (SameContents.of_seen (effect separate).2)
    · exact absurd separate mixed
  · obtain ⟨addr, given, crooked, run⟩ := exists_fork_of_misaligned aligned limit m
    exact Follows.of_same agrees (congrArg (report _ _) run) ⟨given, crooked, rfl⟩ sound
      fun _ _ => rfl

theorem follows_release {start : LinearAddr} {size : Nat}
    (within : layout.InTaskSpace start size) : m.Follows held before (.release start size) := by
  by_cases aligned : start.isBlockAligned = true
  · obtain ⟨m', run, sound', released⟩ := sound.exists_release within aligned
    exact Follows.of_perform (congrArg (report _ _) run) rfl sound'
      ((agrees.clearBlocks start (blocksSpanned size)).trans released.contents_eq)
  · have crooked : start.isBlockAligned = false := Bool.not_eq_true _ ▸ aligned
    exact Follows.of_same agrees (congrArg (report _ _) (release_of_misaligned crooked size m))
      ⟨rfl, crooked, rfl⟩ sound fun _ _ => rfl

theorem follows_verifyArea {addr : LinearAddr} {size : Nat}
    (within : layout.InTaskSpace addr size) : m.Follows held before (.verifyArea addr size) := by
  rcases sound.verifyArea_cases within.1 size with
    ⟨m', run, sound', -, seen⟩ | ⟨m', run, area⟩
  · exact Follows.of_same agrees (congrArg (report _ _) run) rfl sound' (SameContents.of_seen seen)
  · exact Follows.of_same agrees (congrArg (report _ _) run) rfl area.sound
      (SameContents.of_seen area.seen)

section Page

variable {addr : LinearAddr} (task : layout.kernelTables ≤ addr.dirIndex)

include task

theorem follows_noPage (absent : m.walk addr = .ok none) :
    m.Follows held before (.noPage addr) := by
  rcases sound.resolveNoPage_cases task with
    ⟨m', run, sound', same, -⟩ | ⟨present, -⟩ | ⟨-, frame, m', run, opened⟩
  · exact Follows.of_same agrees (congrArg (report _ _) run) rfl sound'
      (SameContents.of_seen same.seen)
  · rw [sound.walk_eq, if_pos present] at absent
    cases absent
  · exact Follows.of_same agrees (congrArg (report _ _) run) rfl opened.sound
      (SameContents.of_seen opened.seen)

theorem follows_writeProtect (present : ∃ entry, m.walk addr = .ok (some entry)) :
    m.Follows held before (.writeProtect addr) := by
  rcases sound.resolveWriteProtect_cases task with
    ⟨absent, -⟩ | ⟨-, ⟨m', run, memory, pool⟩ | ⟨resolution, m', -, run, opened⟩⟩
  · obtain ⟨entry, found⟩ := present
    have none : ¬ (m.memory.leaf addr.place).isPresent = true := by
      rw [absent]
      exact Bool.false_ne_true
    rw [sound.walk_eq, if_neg none] at found
    cases found
  · exact Follows.of_same agrees (congrArg (report _ _) run) rfl (sound.of_same memory pool)
      (SameContents.of_seen (SameSpace.of_memory memory).seen)
  · exact Follows.of_same agrees (congrArg (report _ _) run) rfl opened.sound
      (SameContents.of_seen opened.seen)

theorem follows_verifyWrite : m.Follows held before (.verifyWrite addr) := by
  rcases sound.verifyWrite_cases task with ⟨m', run, memory, pool⟩ | ⟨result, m', -, run, verified⟩
  · exact Follows.of_same agrees (congrArg (report _ _) run) rfl (sound.of_same memory pool)
      (SameContents.of_seen (SameSpace.of_memory memory).seen)
  · exact Follows.of_same agrees (congrArg (report _ _) run) rfl verified.sound
      (SameContents.of_seen verified.seen)

end Page

theorem Sound.follows {call : Call} (permitted : call.OfTask m) : m.Follows held before call := by
  cases call with
  | fork => exact follows_fork agrees sound permitted.1 permitted.2.1 permitted.2.2
  | release => exact follows_release agrees sound permitted
  | writeProtect => exact follows_writeProtect agrees sound permitted.1 permitted.2
  | noPage => exact follows_noPage agrees sound permitted.1 permitted.2
  | verifyWrite => exact follows_verifyWrite agrees sound permitted
  | verifyArea => exact follows_verifyArea agrees sound permitted
  | read => exact follows_read agrees sound permitted
  | write => exact follows_write agrees sound permitted
  | copyToUser => exact follows_copyToUser agrees sound permitted
  | _ => exact permitted.elim

end Follow

end Manager

variable {layout : Layout} {trace : List (Call × Outcome)} {states : List (Manager layout)}

theorem TaskRun.exists_eager (run : TaskRun layout trace states) :
    ∃ contents, EagerRun trace contents ∧ List.Forall₂
      (fun m before => m.Sound ∅ ∧ SameContents layout before m.contents) states contents := by
  -- the books are balanced at every point, and both machines have the same bytes
  induction run with
  | boot console =>
      exact ⟨_, EagerRun.boot, .cons ⟨sound_boot layout console, contents_boot layout console⟩ .nil⟩
  | step call _ permitted ih =>
      obtain ⟨_, eager, states⟩ := ih
      obtain _ | ⟨⟨sound, agrees⟩, past⟩ := states
      obtain ⟨after, step, sound', agrees'⟩ := Sound.follows agrees sound permitted
      exact ⟨_, eager.step step, .cons ⟨sound', agrees'⟩ (.cons ⟨sound, agrees⟩ past)⟩

theorem TaskRun.sound {m : Manager layout} (run : TaskRun layout trace (m :: states)) :
    m.Sound ∅ := by
  obtain ⟨_, -, agree⟩ := run.exists_eager
  obtain _ | ⟨⟨sound, -⟩, -⟩ := agree
  exact sound

theorem TaskRun.next {m m' : Manager layout} {outcome : Outcome}
    (run : TaskRun layout trace (m :: states)) (call : Call) (permitted : call.OfTask m)
    (ends : call.perform m = (outcome, m')) :
    TaskRun layout ((call, outcome) :: trace) (m' :: m :: states) := by
  have step := run.step call permitted
  rw [ends] at step
  exact step

/-- Tasks cannot tell sharing from copying: one run of the eager machine with the same calls and
outcomes has, at every point, the bytes that are found through the tables. -/
theorem TaskRun.refines_eager (run : TaskRun layout trace states) :
    ∃ contents, EagerRun trace contents ∧ List.Forall₂ Presents states contents := by
  obtain ⟨contents, eager, agree⟩ := run.exists_eager
  refine ⟨contents, eager, agree.imp ?_⟩
  rintro m before ⟨sound, agrees⟩ addr task
  rw [sound.byteAt_eq task, agrees addr task]

def written : Manager .tiny := ((Call.write firstPage [1, 2]).perform (boot .tiny .empty)).2

theorem reachable_written : Reachable .tiny written ∅ :=
  Reachable.step (.write firstPage [1, 2]) (Reachable.boot .empty) ⟨by decide, by decide⟩
    (by decide +kernel)

theorem exists_fork_written :
    ∃ m, fork firstPage spareBlock blockSize written = .ok () m ∧
      (m.memory.leaf firstPage.place).isPresent = true ∧
      (m.memory.leaf spareBlock.place).isPresent = true ∧ 0 < m.pool.freeCount := by
  obtain ⟨within, within'⟩ := duplicate_permitted
  have present : (written.memory.leaf firstPage.place).isPresent = true := by decide +kernel
  have room : written.pool.freeCount = 2 := by decide +kernel
  obtain ⟨m, done, shared, taken⟩ := reachable_written.sound.exists_duplicate_block within within'
    (by decide) (by decide) (by decide) (by decide +kernel) (by decide +kernel) (by omega)
  have parent : m.memory.leaf firstPage.place =
      (written.memory.leaf firstPage.place).writeProtected :=
    (shared.leaf firstPage.place).trans ((if_neg (by decide)).trans (if_pos rfl))
  have child : m.memory.leaf spareBlock.place =
      (written.memory.leaf firstPage.place).writeProtected :=
    (shared.leaf spareBlock.place).trans (if_pos rfl)
  refine ⟨m, Operation.bind_ok (Operation.attempt_ok done), ?_, ?_, by omega⟩
  · rw [parent, Entry.isPresent_writeProtected]
    exact present
  · rw [child, Entry.isPresent_writeProtected]
    exact present

/-- A parent writes to a page and forks, and the child writes to its copy. Then both are read, the
child is released, and the parent is read again. -/
def forkTrace (parent child last : List UInt8) : List (Call × Outcome) :=
  [(.read firstPage 3, .bytes last), (.release spareBlock blockSize, .done),
    (.read spareBlock 3, .bytes child), (.read firstPage 3, .bytes parent),
    (.write spareBlock [9], .done), (.fork firstPage spareBlock blockSize, .done),
    (.write firstPage [1, 2], .done)]

theorem exists_taskRun_fork :
    ∃ parent child last states, TaskRun .tiny (forkTrace parent child last) states := by
  obtain ⟨within, within'⟩ := duplicate_permitted
  have separate : written.Separate firstPage.dirIndex spareBlock.dirIndex
      (blocksSpanned blockSize) := ⟨by decide +kernel, by decide⟩
  have start : TaskRun .tiny [] [boot .tiny .empty] := .boot .empty
  have first : ((Call.write firstPage [1, 2]).perform (boot .tiny .empty)).1 = .done := by
    decide +kernel
  have run₁ := start.next (.write firstPage [1, 2]) ⟨by decide, by decide⟩
    (show _ = (_, written) from Prod.ext first rfl)
  -- a fork is too large to evaluate: from here on a state is what its call leaves
  obtain ⟨m₂, forked, mapped, mapped', room⟩ := exists_fork_written
  have run₂ := run₁.next (.fork firstPage spareBlock blockSize) ⟨within, within', separate⟩
    (congrArg (report _ _) forked)
  obtain ⟨m₃, wrote, here, others⟩ := run₂.sound.exists_writeUser_of_present within'.1
    (show [9].length ≠ 0 by decide) (by decide +kernel) mapped' room
  have run₃ := run₂.next (.write spareBlock [9]) ⟨within'.1, by decide⟩
    (congrArg (report _ _) wrote)
  have still : (m₃.memory.leaf firstPage.place).isPresent = true := by
    rw [others _ (by decide)]
    exact mapped
  have short : firstPage.pageOffset + 3 ≤ pageSize ∧ spareBlock.pageOffset + 3 ≤ pageSize := by
    decide +kernel
  obtain ⟨parent, read⟩ := run₃.sound.exists_readUser_of_present within.1 short.1 still
  have run₄ := run₃.next (.read firstPage 3) ⟨within.1, by decide⟩ (congrArg (report _ _) read)
  obtain ⟨child, read'⟩ := run₄.sound.exists_readUser_of_present within'.1 short.2 here
  have run₅ := run₄.next (.read spareBlock 3) ⟨within'.1, by decide⟩ (congrArg (report _ _) read')
  obtain ⟨m₆, gone, sound, released⟩ := run₅.sound.exists_release within' (by decide)
  have run₆ := run₅.next (.release spareBlock blockSize) within' (congrArg (report _ _) gone)
  have kept : (m₆.memory.leaf firstPage.place).isPresent = true := by
    rw [released.leaf, if_neg (by decide)]
    exact still
  obtain ⟨last, read''⟩ := sound.exists_readUser_of_present within.1 short.1 kept
  exact ⟨parent, child, last, _,
    run₆.next (.read firstPage 3) ⟨within.1, by decide⟩ (congrArg (report _ _) read'')⟩

theorem EagerRun.bytes_of_fork {parent child last : List UInt8} {contents : List Contents}
    (run : EagerRun (forkTrace parent child last) contents) :
    parent = [1, 2, 0] ∧ child = [9, 2, 0] ∧ last = [1, 2, 0] := by
  obtain _ | ⟨run, last, rfl⟩ := run
  obtain _ | ⟨run, rfl⟩ := run
  obtain _ | ⟨run, child, rfl⟩ := run
  obtain _ | ⟨run, parent, rfl⟩ := run
  obtain _ | ⟨run, rfl⟩ := run
  obtain _ | ⟨run, rfl⟩ := run
  obtain _ | ⟨run, rfl⟩ := run
  cases run
  rw [parent, child, last]
  decide +kernel

theorem refines_eager_fork :
    ∃ states contents, TaskRun .tiny (forkTrace [1, 2, 0] [9, 2, 0] [1, 2, 0]) states ∧
      EagerRun (forkTrace [1, 2, 0] [9, 2, 0] [1, 2, 0]) contents ∧
      List.Forall₂ Presents states contents := by
  obtain ⟨parent, child, last, states, run⟩ := exists_taskRun_fork
  obtain ⟨contents, eager, agree⟩ := TaskRun.refines_eager run
  obtain ⟨rfl, rfl, rfl⟩ := eager.bytes_of_fork
  exact ⟨states, contents, run, eager, agree⟩

end PagedMemory

import PagedMemory.Proofs.Access
import PagedMemory.Proofs.Duplication

/-!
Runs of the manager. A caller allocates frames and frees or maps only those that it holds, and
otherwise works on ranges of task space; `Reachable` collects the states before the first fatal
error. `Sound.answered` is the one fact about a step: the books stay balanced, and a fatal error is
one that the call asked for.
-/

namespace PagedMemory

open Manager

inductive Call where
  | allocate
  | free (frame : Frame)
  | map (frame : Frame) (addr : LinearAddr) (writable : Bool)
  | installArguments (pages : Vector (Option Frame) argumentPages) (top : LinearAddr)
  | duplicate (source target : LinearAddr) (size : Nat)
  | fork (parent child : LinearAddr) (limit : Nat)
  | release (start : LinearAddr) (size : Nat)
  | writeProtect (addr : LinearAddr)
  | noPage (addr : LinearAddr)
  | verifyWrite (addr : LinearAddr)
  | verifyArea (addr : LinearAddr) (size : Nat)
  | read (addr : LinearAddr) (length : Nat)
  | write (addr : LinearAddr) (data : List UInt8)
  | copyToUser (addr : LinearAddr) (data : List UInt8)

inductive Outcome where
  | done
  | allocated (frame : Option Frame)
  | resolved (resolution : Resolution)
  | verified (resolution : Option Resolution)
  | bytes (data : List UInt8)
  | outOfMemory
  | killed
  | fatal (error : FatalError)
  deriving DecidableEq

namespace Outcome

def ofMemoryError : MemoryError → Outcome
  | .outOfMemory => outOfMemory
  | .fatal error => fatal error

def ofAccessError : AccessError → Outcome
  | .killed => killed
  | .fatal error => fatal error

def isFatal : Outcome → Bool
  | fatal _ => true
  | _ => false

end Outcome

variable {layout : Layout} {ε α : Type} {m m' : Manager layout} {held : Finset Frame}

def report (failure : ε → Outcome) (success : α → Outcome) :
    EStateM.Result ε (Manager layout) α → Outcome × Manager layout
  | .ok value m => (success value, m)
  | .error error m => (failure error, m)

theorem eq_of_report_resolved {resolution : Resolution}
    {result : EStateM.Result FatalError (Manager layout) Resolution}
    (ends : (report .fatal .resolved result).1 = .resolved resolution) :
    result = .ok resolution (report .fatal .resolved result).2 := by
  match result with
  | .ok _ m' =>
      cases ends
      rfl
  | .error _ m' => cases ends

namespace Call

def perform (call : Call) (m : Manager layout) : Outcome × Manager layout :=
  match call with
  | allocate => report Outcome.fatal .allocated (allocateFrame m)
  | free frame => report .fatal (fun _ => .done) (freeFrame frame m)
  | map frame addr writable =>
      report .ofMemoryError (fun _ => .done) (mapFrame frame addr writable m)
  | installArguments pages top =>
      report .ofMemoryError (fun _ => .done) (Manager.installArguments pages top m)
  | duplicate source target size =>
      report .ofMemoryError (fun _ => .done) (Manager.duplicate source target size m)
  | fork parent child limit =>
      report .ofMemoryError (fun _ => .done) (Manager.fork parent child limit m)
  | release start size => report .fatal (fun _ => .done) (Manager.release start size m)
  | writeProtect addr => report .fatal .resolved (resolveWriteProtect addr m)
  | noPage addr => report .fatal .resolved (resolveNoPage addr m)
  | verifyWrite addr => report .fatal .verified (Manager.verifyWrite addr m)
  | verifyArea addr size =>
      report .ofAccessError (fun _ => .done) (Manager.verifyArea addr size m)
  | read addr length => report .ofAccessError .bytes (readUser addr length m)
  | write addr data => report .ofAccessError (fun _ => .done) (writeUser addr data m)
  | copyToUser addr data =>
      report .ofAccessError (fun _ => .done) (Manager.copyToUser addr data m)

/-- What a caller that holds the frames `held` may ask for. -/
def Permitted (layout : Layout) (held : Finset Frame) : Call → Prop
  | allocate => True
  | free frame => frame ∈ held
  | map frame addr _ => frame ∈ held ∧ layout.kernelTables ≤ addr.dirIndex
  | installArguments pages top => Fillable layout held (slotsBelow pages.toList.reverse top)
  | duplicate source target size | fork source target size =>
      layout.InTaskSpace source size ∧ layout.InTaskSpace target size
  | release start size => layout.InTaskSpace start size
  | writeProtect addr | noPage addr | verifyWrite addr => layout.kernelTables ≤ addr.dirIndex
  | verifyArea addr size | read addr size => layout.InTaskSpace addr size
  | write addr data | copyToUser addr data => layout.InTaskSpace addr data.length

/-- The frames that the caller holds after a call with this outcome: neither given back nor
mapped. -/
def heldAfter (m : Manager layout) (held : Finset Frame) : Call → Outcome → Finset Frame
  | allocate, .allocated (some frame) => insert frame held
  | free frame, .done | map frame _ _, .done => held.erase frame
  | installArguments pages top, _ => leftBy pages.toList.reverse top m held
  | _, _ => held

/-- The directory entry `block` of the destination was present when a duplication reached it. -/
def Occupied (m : Manager layout) (source target : LinearAddr) (size block : Nat) : Prop :=
  ∃ offset m', offset < blocksSpanned size ∧ block = target.dirIndex + offset ∧
    shareBlocks source target offset m = .ok () m' ∧ (m'.memory.link block).isPresent = true

/-- The fatal errors that a call asks for. -/
def Refuses (m : Manager layout) : Call → FatalError → Prop
  | map _ addr _, .alreadyMapped addr' =>
      addr' = addr ∧ (m.memory.leaf addr.place).isPresent = true
  | installArguments pages top, .alreadyMapped addr => StopsAt pages.toList.reverse top m addr
  | noPage addr, .alreadyMapped addr' =>
      addr' = addr.truncPage ∧ (m.memory.leaf addr.place).isPresent = true
  | writeProtect addr, .notMapped addr' =>
      addr' = addr ∧ (m.memory.leaf addr.place).isPresent = false
  | duplicate source target size, .alreadyExists block
  | fork source target size, .alreadyExists block => Occupied m source target size block
  | duplicate source target _, .misaligned _ addr | fork source target _, .misaligned _ addr =>
      (addr = source ∨ addr = target) ∧ addr.isBlockAligned = false
  | release start _, .misaligned _ addr => addr = start ∧ start.isBlockAligned = false
  | _, _ => False

/-- The books are balanced after the call, and a fatal error is one that it asked for. -/
structure Answered (m : Manager layout) (held : Finset Frame) (call : Call) : Prop where
  sound : ∃ held', (call.perform m).2.Sound held'
  kept : (call.perform m).1.isFatal = false →
    (call.perform m).2.Sound (call.heldAfter m held (call.perform m).1)
  refused : ∀ error, (call.perform m).1 = .fatal error → call.Refuses m error

theorem Answered.of_kept {call : Call} {outcome : Outcome}
    (ends : call.perform m = (outcome, m')) (survives : outcome.isFatal = false)
    (sound : m'.Sound (call.heldAfter m held outcome)) : Answered m held call := by
  refine ⟨?_, ?_, ?_⟩
  · rw [ends]
    exact ⟨_, sound⟩
  · rw [ends]
    exact fun _ => sound
  · intro error fatal
    rw [ends] at fatal
    have broken : outcome = .fatal error := fatal
    rw [broken] at survives
    cases survives

theorem Answered.of_refused {call : Call} {error : FatalError} {held' : Finset Frame}
    (ends : call.perform m = (.fatal error, m')) (sound : m'.Sound held')
    (refuses : call.Refuses m error) : Answered m held call := by
  refine ⟨?_, ?_, ?_⟩
  · rw [ends]
    exact ⟨_, sound⟩
  · rw [ends]
    intro survives
    cases survives
  · intro error' fatal
    rw [ends] at fatal
    obtain rfl := Outcome.fatal.inj fatal
    exact refuses

section Answer

variable (sound : m.Sound held)

include sound

theorem Answered.of_same {call : Call} {outcome : Outcome} (ends : call.perform m = (outcome, m'))
    (survives : outcome.isFatal = false) (memory : m'.memory = m.memory) (pool : m'.pool = m.pool)
    (unmoved : call.heldAfter m held outcome = held) : Answered m held call := by
  apply Answered.of_kept ends survives
  rw [unmoved]
  exact sound.of_same memory pool

theorem answered_allocate : Answered m held allocate := by
  rcases sound.allocateFrame_cases FatalError with ⟨-, run⟩ | ⟨frame, m', run, allocated⟩
  · exact Answered.of_same sound (congrArg (report _ _) run) rfl rfl rfl rfl
  · exact Answered.of_kept (congrArg (report _ _) run) rfl allocated.sound

theorem answered_free {frame : Frame} (holds : frame ∈ held) : Answered m held (free frame) := by
  obtain ⟨m', run, -, sound', -⟩ := sound.exists_freeFrame holds
  exact Answered.of_kept (congrArg (report _ _) run) rfl sound'

theorem answered_map {frame : Frame} {addr : LinearAddr} (holds : frame ∈ held)
    (task : layout.kernelTables ≤ addr.dirIndex) (writable : Bool) :
    Answered m held (map frame addr writable) := by
  rcases sound.mapFrame_cases holds task writable with
    ⟨present, m', run, memory, pool⟩ | ⟨-, -, m', run, memory, pool⟩ | ⟨m', run, mapped, -⟩
  · exact Answered.of_refused (congrArg (report _ _) run) (sound.of_same memory pool) ⟨rfl, present⟩
  · exact Answered.of_same sound (congrArg (report _ _) run) rfl memory pool rfl
  · exact Answered.of_kept (congrArg (report _ _) run) rfl mapped.sound

theorem answered_installArguments {pages : Vector (Option Frame) argumentPages}
    {top : LinearAddr} (fillable : Fillable layout held (slotsBelow pages.toList.reverse top)) :
    Answered m held (installArguments pages top) := by
  rcases sound.mapDownward_cases fillable with
    (⟨m', run, sound'⟩ | ⟨m', run, sound'⟩) | ⟨addr, m', run, sound', stops⟩
  · exact Answered.of_kept (congrArg (report _ _) (Operation.thenFlush_ok run)) rfl sound'
  · exact Answered.of_kept (congrArg (report _ _) (Operation.thenFlush_error run)) rfl sound'
  · exact Answered.of_refused (congrArg (report _ _) (Operation.thenFlush_error run)) sound' stops

section Range

variable {source target : LinearAddr} {size : Nat} (within : layout.InTaskSpace source size)

include within

theorem answered_duplicate (within' : layout.InTaskSpace target size) :
    Answered m held (duplicate source target size) := by
  by_cases aligned : source.isBlockAligned = true ∧ target.isBlockAligned = true
  · rcases sound.duplicate_cases within within' aligned.1 aligned.2 with
      ⟨m', run, sound', -⟩ | ⟨m', run, sound', -⟩ |
      ⟨block, m', below, run, sound', first, present, -⟩
    · exact Answered.of_kept (congrArg (report _ _) run) rfl sound'
    · exact Answered.of_kept (congrArg (report _ _) run) rfl sound'
    · exact Answered.of_refused (congrArg (report _ _) run) sound'
        ⟨block, m', below, rfl, first, present⟩
  · obtain ⟨addr, given, crooked, run⟩ := exists_duplicate_of_misaligned aligned size m
    exact Answered.of_refused (congrArg (report _ _) run) sound ⟨given, crooked⟩

theorem answered_fork (within' : layout.InTaskSpace target size) :
    Answered m held (fork source target size) := by
  by_cases aligned : source.isBlockAligned = true ∧ target.isBlockAligned = true
  · rcases sound.fork_cases within within' aligned.1 aligned.2 with
      ⟨m', run, sound', -⟩ | ⟨m', run, sound', -⟩ |
      ⟨block, m', below, run, sound', first, present, -⟩
    · exact Answered.of_kept (congrArg (report _ _) run) rfl sound'
    · exact Answered.of_kept (congrArg (report _ _) run) rfl sound'
    · exact Answered.of_refused (congrArg (report _ _) run) sound'
        ⟨block, m', below, rfl, first, present⟩
  · obtain ⟨addr, given, crooked, run⟩ := exists_fork_of_misaligned aligned size m
    exact Answered.of_refused (congrArg (report _ _) run) sound ⟨given, crooked⟩

theorem answered_release : Answered m held (release source size) := by
  by_cases aligned : source.isBlockAligned = true
  · obtain ⟨m', run, sound', -⟩ := sound.exists_release within aligned
    exact Answered.of_kept (congrArg (report _ _) run) rfl sound'
  · have crooked : source.isBlockAligned = false := Bool.not_eq_true _ ▸ aligned
    have run := release_of_misaligned crooked size m
    exact Answered.of_refused (congrArg (report _ _) run) sound ⟨rfl, crooked⟩

theorem answered_verifyArea : Answered m held (verifyArea source size) := by
  rcases sound.verifyArea_cases within.1 size with ⟨m', run, sound', -⟩ | ⟨m', run, area⟩
  · exact Answered.of_kept (congrArg (report _ _) run) rfl sound'
  · exact Answered.of_kept (congrArg (report _ _) run) rfl area.sound

theorem answered_read : Answered m held (read source size) := by
  rcases sound.readUser_cases (fun _ => within) with ⟨m', run, sound', -⟩ | ⟨m', run, sound', -⟩
  · exact Answered.of_kept (congrArg (report _ _) run) rfl sound'
  · exact Answered.of_kept (congrArg (report _ _) run) rfl sound'

end Range

section Page

variable {addr : LinearAddr} (task : layout.kernelTables ≤ addr.dirIndex)

include task

theorem answered_writeProtect : Answered m held (writeProtect addr) := by
  rcases sound.resolveWriteProtect_cases task with
    ⟨absent, m', run, memory, pool⟩ |
    ⟨-, ⟨m', run, memory, pool⟩ | ⟨resolution, m', -, run, opened⟩⟩
  · exact Answered.of_refused (congrArg (report _ _) run) (sound.of_same memory pool) ⟨rfl, absent⟩
  · exact Answered.of_same sound (congrArg (report _ _) run) rfl memory pool rfl
  · exact Answered.of_kept (congrArg (report _ _) run) rfl opened.sound

theorem answered_noPage : Answered m held (noPage addr) := by
  rcases sound.resolveNoPage_cases task with
    ⟨m', run, sound', -⟩ | ⟨present, frame, m', run, sound'⟩ | ⟨-, frame, m', run, opened⟩
  · exact Answered.of_kept (congrArg (report _ _) run) rfl sound'
  · exact Answered.of_refused (congrArg (report _ _) run) sound' ⟨rfl, present⟩
  · exact Answered.of_kept (congrArg (report _ _) run) rfl opened.sound

theorem answered_verifyWrite : Answered m held (verifyWrite addr) := by
  rcases sound.verifyWrite_cases task with ⟨m', run, memory, pool⟩ | ⟨result, m', -, run, verified⟩
  · exact Answered.of_same sound (congrArg (report _ _) run) rfl memory pool rfl
  · exact Answered.of_kept (congrArg (report _ _) run) rfl verified.sound

end Page

section Store

variable {addr : LinearAddr} {data : List UInt8}

omit sound in
theorem Answered.of_stored {call : Call} {result : EStateM.Result AccessError (Manager layout) Unit}
    (ends : call.perform m = report .ofAccessError (fun _ => .done) result)
    (unmoved : ∀ outcome, call.heldAfter m held outcome = held)
    (stored : Stored m held addr data result) : Answered m held call := by
  match result, stored with
  | .ok _ m', ⟨sound, _⟩ =>
      exact Answered.of_kept ends rfl ((unmoved .done).symm ▸ sound)
  | .error .killed m', ⟨sound, _⟩ =>
      exact Answered.of_kept ends rfl ((unmoved .killed).symm ▸ sound)

theorem answered_write (within : layout.InTaskSpace addr data.length) :
    Answered m held (write addr data) :=
  Answered.of_stored rfl (fun _ => rfl) (sound.writeUser_stored fun _ => within)

theorem answered_copyToUser (within : layout.InTaskSpace addr data.length) :
    Answered m held (copyToUser addr data) :=
  Answered.of_stored rfl (fun _ => rfl) (sound.copyToUser_stored fun _ => within)

end Store

end Answer

end Call

open Call

theorem Manager.Sound.answered (sound : m.Sound held) {call : Call}
    (permitted : call.Permitted layout held) : Answered m held call := by
  cases call with
  | allocate => exact answered_allocate sound
  | free => exact answered_free sound permitted
  | map _ _ writable => exact answered_map sound permitted.1 permitted.2 writable
  | installArguments => exact answered_installArguments sound permitted
  | duplicate => exact answered_duplicate sound permitted.1 permitted.2
  | fork => exact answered_fork sound permitted.1 permitted.2
  | release => exact answered_release sound permitted
  | writeProtect => exact answered_writeProtect sound permitted
  | noPage => exact answered_noPage sound permitted
  | verifyWrite => exact answered_verifyWrite sound permitted
  | verifyArea => exact answered_verifyArea sound permitted
  | read => exact answered_read sound permitted
  | write => exact answered_write sound permitted
  | copyToUser => exact answered_copyToUser sound permitted

/-- The states of a run before its first fatal error, with the frames that the caller holds. -/
inductive Reachable (layout : Layout) : Manager layout → Finset Frame → Prop
  | boot (console : Console) : Reachable layout (boot layout console) ∅
  | step {m : Manager layout} {held : Finset Frame} (call : Call) (before : Reachable layout m held)
      (permitted : call.Permitted layout held) (survives : (call.perform m).1.isFatal = false) :
      Reachable layout (call.perform m).2 (call.heldAfter m held (call.perform m).1)

/-- A machine with four frames for tasks, which use all blocks but the first. -/
def Layout.tiny : Layout :=
  ⟨655360, 655360, 671744, by decide, by decide, by decide, by decide, by decide, by decide,
    by decide⟩

def firstPage : LinearAddr := LinearAddr.ofNat 4194304

theorem Reachable.sound (reachable : Reachable layout m held) : m.Sound held := by
  induction reachable with
  | boot console => exact sound_boot layout console
  | step call _ permitted survives ih => exact (ih.answered permitted).kept survives

theorem Reachable.allocate (reachable : Reachable layout m held) {frame : Frame}
    (next : (Call.allocate.perform m).1 = .allocated (some frame)) :
    Reachable layout (Call.allocate.perform m).2 (insert frame held) := by
  have step := reachable.step .allocate trivial (by rw [next]; rfl)
  rw [next] at step
  exact step

end PagedMemory

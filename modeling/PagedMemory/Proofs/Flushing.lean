import PagedMemory.Kernel
import PagedMemory.Proofs.Session

/-!
Flushes. Whatever the tables and counts say, and however an operation ends, it flushes after the
last entry that it writes. Only the mapping of a single frame leaves that to its callers: it writes
its last entry just before it succeeds, and nothing when it fails.
-/

namespace PagedMemory

namespace Operation

variable {layout : Layout} {ε α β : Type} {m m' : Manager layout}

def Quiet (operation : Operation layout ε α) : Prop :=
  ∀ m, (operation.after m).tlbFlushes = m.tlbFlushes ∧ (operation.after m).tlbStale = m.tlbStale

/-- Every entry that has been written has been flushed. -/
def Settled (m : Manager layout) : Prop := m.tlbStale = false

def Flushed (flushes : Nat) (m : Manager layout) : Prop := m.tlbFlushes = flushes

theorem Quiet.settled {operation : Operation layout ε α} (quiet : Quiet operation) :
    Keeps Settled operation :=
  fun m before => (quiet m).2.trans before

theorem Quiet.flushed {operation : Operation layout ε α} (quiet : Quiet operation)
    (flushes : Nat) : Keeps (Flushed flushes) operation :=
  fun m before => (quiet m).1.trans before

theorem quiet_onPool (change : FramePool.Change layout ε α) : Quiet (onPool change) :=
  fun m => keeps_onPool (fun m' => m'.tlbFlushes = m.tlbFlushes ∧ m'.tlbStale = m.tlbStale) change
    (fun _ _ before => before) m ⟨rfl, rfl⟩

theorem quiet_onMemory (access : PhysicalMemory.Access layout.totalFrames α) :
    Quiet (onMemory access) :=
  fun m => keeps_onMemory (fun m' => m'.tlbFlushes = m.tlbFlushes ∧ m'.tlbStale = m.tlbStale) access
    (fun _ _ before => before) m ⟨rfl, rfl⟩

theorem quiet_onConsole (output : EStateM ε Console α) :
    Quiet (onConsole output : Operation layout ε α) :=
  fun m => keeps_onConsole (fun m' => m'.tlbFlushes = m.tlbFlushes ∧ m'.tlbStale = m.tlbStale)
    output (fun _ _ before => before) m ⟨rfl, rfl⟩

theorem quiet_count (change : FaultStats → FaultStats) :
    Quiet (count change : Operation layout ε Unit) :=
  fun _ => ⟨rfl, rfl⟩

end Operation

namespace Manager

variable {layout : Layout} {ε α : Type} {m m' : Manager layout}

open Operation

theorem quiet_allocateFrame : Quiet (allocateFrame : Operation layout ε (Option Frame)) := by
  intro m
  rw [after, allocateFrame_eq]
  cases m.pool.highestFree <;> exact ⟨rfl, rfl⟩

theorem quiet_freeFrame (frame : Frame) : Quiet (freeFrame frame : Operation layout _ Unit) :=
  quiet_onPool _

theorem quiet_giveUp (addr : LinearAddr) : Quiet (giveUp addr : Operation layout ε Resolution) :=
  fun _ => ⟨rfl, rfl⟩

theorem flushed_setEntry (slot : Slot) (entry : Entry) (flushes : Nat) :
    Keeps (@Flushed layout flushes) (setEntry slot entry) :=
  keeps_setEntry _ slot entry fun _ _ _ before => before

theorem settled_flush {next : Operation layout ε α} (rest : Keeps Settled next)
    (m : Manager layout) : Settled ((flush >>= fun _ => next).after m) := by
  rw [Operation.after_bind (flush_eq m)]
  exact rest m.flushed rfl

theorem settled_setEntry (slot : Slot) (entry : Entry) {next : Operation layout FatalError α}
    (rest : Keeps Settled next) : Keeps Settled (setEntry slot entry >>= fun _ =>
      flush >>= fun _ => next) := by
  intro m before
  by_cases inside : slot.frame.number < layout.totalFrames
  · rw [Operation.after_bind ((setEntry_eq slot entry m).trans (if_pos inside))]
    exact settled_flush rest _
  · rw [after_of_error (bind_error ((setEntry_eq slot entry m).trans (if_neg inside)))]
    exact before

theorem settled_thenFlush (operation : Operation layout ε α) :
    Keeps Settled (thenFlush operation) := by
  intro m _
  rw [after_thenFlush]
  rfl

theorem tableFor_cases (block : Nat) (m : Manager layout) :
    tableFor block m = .error .outOfMemory m ∨
    tableFor block m = .ok (m.memory.link block).frame m ∨
    ∃ table m', tableFor block m = .ok table m' ∧ layout.IsPooled table ∧
      m'.memory.page table = Page.zero := by
  by_cases present : (m.memory.link block).isPresent = true
  · exact Or.inr (Or.inl (tableFor_of_present present))
  · have taken := @allocateFrame_eq layout MemoryError m
    rw [tableFor, bind_ok (dirEntry_run block m), if_neg present]
    cases found : m.pool.highestFree with
    | none =>
        rw [found] at taken
        exact Or.inl (bind_ok taken)
    | some i =>
        rw [found] at taken
        have pooled := FramePool.pooled_frameAt i
        obtain ⟨m₁, took, blank⟩ : ∃ m₁, (allocateFrame :
            Operation layout MemoryError (Option Frame)) m = .ok (some (FramePool.frameAt i)) m₁ ∧
              m₁.memory.page (FramePool.frameAt i) = Page.zero :=
          ⟨_, taken, PhysicalMemory.page_putPage_self pooled.2 none⟩
        have write : (orFatal (setEntry (dirSlot block) _) : Operation layout MemoryError Unit) m₁ =
            _ := orFatal_ok (setEntry_link m₁ block (Entry.new (FramePool.frameAt i) .userWritable))
        refine Or.inr (Or.inr ⟨_, _, (bind_ok took).trans (bind_ok write), pooled, ?_⟩)
        -- the directory, which has been written since, is no frame of the pool
        exact (PhysicalMemory.page_modifyPage_of_ne pooled.ne_directory.symm _).trans blank

theorem eq_of_writeLeaf_error {slot : Slot} {entry : Entry} {addr : LinearAddr}
    {error : MemoryError}
    (failed : (do
      let old ← orFatal (ask (·.entryAt slot))
      if old.isPresent then
        throw (.fatal (.alreadyMapped addr))
      else
        orFatal (setEntry slot entry) : Operation layout MemoryError Unit) m = .error error m') :
    m' = m ∧ (slot.frame.number < layout.totalFrames →
      (m.memory.page slot.frame).word slot.index ≠ 0) := by
  by_cases inside : slot.frame.number < layout.totalFrames
  · have read := (entryAt_eq m slot).trans (if_pos inside)
    rw [bind_ok (orFatal_ok (ask_ok read))] at failed
    by_cases present : (Entry.mk ((m.memory.page slot.frame).word slot.index)).isPresent = true
    · rw [if_pos present] at failed
      cases failed
      refine ⟨rfl, fun _ zero => ?_⟩
      rw [zero] at present
      cases present
    · rw [if_neg present] at failed
      have write := (setEntry_eq slot entry m).trans (if_pos inside)
      cases (orFatal_ok write).symm.trans failed
  · have read := (entryAt_eq m slot).trans (if_neg inside)
    cases (bind_error (orFatal_error (ask_error read))).symm.trans failed
    exact ⟨rfl, fun within => absurd within inside⟩

theorem stale_of_mapFrame_error {frame : Frame} {addr : LinearAddr} {writable : Bool}
    {error : MemoryError} (failed : mapFrame frame addr writable m = .error error m') :
    m'.tlbStale = m.tlbStale := by
  by_cases inside : frame.number < layout.totalFrames
  · obtain ⟨console, begun⟩ := exists_mapFrame_eq inside addr writable m
    rw [begun] at failed
    rcases tableFor_cases addr.dirIndex { m with console := console } with
      full | found | ⟨table, m₁, made, pooled, blank⟩
    · cases (bind_error full).symm.trans failed
      rfl
    · rw [bind_ok found] at failed
      rw [(eq_of_writeLeaf_error failed).1]
    · -- a table that has just been made has room
      rw [bind_ok made] at failed
      have word := (eq_of_writeLeaf_error failed).2 pooled.2
      rw [blank, Page.word_zero] at word
      exact absurd rfl word
  · have refused : PhysicalMemory.require layout.totalFrames frame =
        .error (.nonexistentPage frame) := if_neg inside
    cases (bind_error (orFatal_error (ask_error refused))).symm.trans failed
    rfl

theorem stale_of_mapFrame_ok {frame : Frame} {addr : LinearAddr} {writable : Bool}
    (done : mapFrame frame addr writable m = .ok () m') : m'.tlbStale = true := by
  rw [mapFrame] at done
  obtain ⟨_, m₁, -, done⟩ := exists_of_bind_ok done
  obtain ⟨_, m₂, -, done⟩ := exists_of_bind_ok done
  obtain ⟨table, m₃, -, done⟩ := exists_of_bind_ok done
  obtain ⟨entry, m₄, -, done⟩ := exists_of_bind_ok done
  by_cases present : entry.isPresent = true
  · rw [if_pos present] at done
    cases done
  · rw [if_neg present] at done
    have write := of_orFatal_ok done
    rw [setEntry_eq] at write
    by_cases inside : table.number < layout.totalFrames
    · rw [if_pos inside] at write
      cases write
      rfl
    · rw [if_neg inside] at write
      cases write

theorem settled_replace (slot : Slot) (entry : Entry) (change : FaultStats → FaultStats)
    (resolution : Resolution) : Keeps Settled (do
      setEntry slot entry
      flush
      count change
      return resolution : Operation layout FatalError Resolution) :=
  settled_setEntry slot entry ((quiet_count change).settled.bind fun _ => Keeps.pure _)

theorem settled_makeExclusive (slot : Slot) (addr : LinearAddr) :
    Keeps Settled (makeExclusive slot addr : Operation layout FatalError Resolution) := by
  rw [makeExclusive]
  refine (Keeps.ask _).bind fun entry => Keeps.get.bind fun m => ?_
  by_cases alone : (!layout.isReserved entry.frame && m.pool.count? entry.frame == some 1) = true
  · simp only [alone, if_true]
    exact settled_replace slot _ _ _
  · simp only [alone]
    refine quiet_allocateFrame.settled.bind fun taken => ?_
    cases taken with
    | none => exact (quiet_giveUp addr).settled
    | some copy =>
        refine (quiet_onMemory _).settled.bind fun _ => ?_
        cases layout.isReserved entry.frame with
        | true => exact settled_replace slot _ _ _
        | false => exact (quiet_freeFrame _).settled.bind fun _ => settled_replace slot _ _ _

theorem settled_resolveWriteProtect (addr : LinearAddr) :
    Keeps Settled (resolveWriteProtect addr : Operation layout FatalError Resolution) := by
  rw [resolveWriteProtect]
  refine (quiet_count _).settled.bind fun _ => (Keeps.ask _).bind fun found => ?_
  cases found with
  | none => exact Keeps.throw _
  | some slot =>
      refine (Keeps.ask _).bind fun entry => ?_
      cases entry.isPresent with
      | true => exact settled_makeExclusive slot addr
      | false => exact Keeps.throw _

theorem settled_resolveNoPage (addr : LinearAddr) :
    Keeps Settled (resolveNoPage addr : Operation layout FatalError Resolution) := by
  rw [resolveNoPage]
  refine (quiet_count _).settled.bind fun _ => quiet_allocateFrame.settled.bind fun taken => ?_
  cases taken with
  | none => exact (quiet_giveUp addr).settled
  | some frame =>
      intro m before
      cases run : mapFrame frame addr.truncPage true m with
      | ok _ m₁ =>
          rw [Operation.after_bind (attempt_ok run)]
          exact settled_flush ((quiet_count _).settled.bind fun _ => Keeps.pure _) m₁
      | error error m₁ =>
          have unwritten : Settled m₁ := (stale_of_mapFrame_error run).trans before
          rw [Operation.after_bind (attempt_error run)]
          cases error with
          | outOfMemory =>
              exact ((quiet_freeFrame frame).settled.bind fun _ => (quiet_giveUp addr).settled) m₁
                unwritten
          | fatal error => exact unwritten

theorem settled_resolveFault (code : FaultCode) (addr : LinearAddr) :
    Keeps Settled (resolveFault code addr : Operation layout FatalError Resolution) := by
  rw [resolveFault]
  cases code.present with
  | true => exact settled_resolveWriteProtect addr
  | false => exact settled_resolveNoPage addr

theorem settled_verifyWrite (addr : LinearAddr) :
    Keeps Settled (verifyWrite addr : Operation layout FatalError (Option Resolution)) := by
  rw [verifyWrite]
  refine (Keeps.ask _).bind fun found => ?_
  cases found with
  | none => exact Keeps.pure _
  | some slot =>
      refine (Keeps.ask _).bind fun entry => ?_
      cases entry.isPresent && !entry.isWritable with
      | true => exact (settled_makeExclusive slot addr).bind fun _ => Keeps.pure _
      | false => exact Keeps.pure _

theorem settled_verifyPage (page : LinearAddr) :
    Keeps Settled (verifyPage page : Operation layout AccessError Unit) := by
  rw [verifyPage]
  refine (settled_verifyWrite page).orFatal.bind fun result => ?_
  match result with
  | some .killed => exact Keeps.throw _
  | none | some .restored | some (.copied _) | some (.zeroFilled _) => exact Keeps.pure _

theorem settled_verifyArea (addr : LinearAddr) (size : Nat) :
    Keeps Settled (verifyArea addr size : Operation layout AccessError Unit) :=
  Keeps.forM fun page _ => settled_verifyPage page

theorem settled_survive (resolution : Resolution) :
    Keeps Settled (survive resolution : Operation layout AccessError Unit) := by
  rw [survive]
  by_cases killed : resolution = .killed
  · rw [if_pos killed]
    exact Keeps.throw _
  · rw [if_neg killed]
    exact Keeps.pure _

theorem settled_mappedEntry (addr : LinearAddr) :
    Keeps Settled (mappedEntry addr : Operation layout FatalError Entry) := by
  rw [mappedEntry]
  refine (Keeps.ask _).bind fun found => ?_
  cases found with
  | none => exact Keeps.throw _
  | some entry => exact Keeps.pure _

theorem settled_presentEntry (addr : LinearAddr) :
    Keeps Settled (presentEntry addr : Operation layout AccessError Entry) := by
  rw [presentEntry]
  refine (Keeps.ask _).orFatal.bind fun found => ?_
  cases found with
  | none =>
      exact (settled_resolveNoPage addr).orFatal.bind fun resolution =>
        (settled_survive resolution).bind fun _ => (settled_mappedEntry addr).orFatal
  | some entry => exact Keeps.pure _

theorem settled_backingFrame (addr : LinearAddr) (mode : AccessMode) :
    Keeps Settled (backingFrame addr mode : Operation layout AccessError Frame) := by
  rw [backingFrame]
  refine (settled_presentEntry addr).bind fun entry => ?_
  by_cases stop : (mode = .userWrite && !entry.isWritable) = true
  · rw [if_pos stop]
    exact (settled_resolveWriteProtect addr).orFatal.bind fun resolution =>
      (settled_survive resolution).bind fun _ =>
        (settled_mappedEntry addr).orFatal.bind fun _ => Keeps.pure _
  · rw [if_neg stop]
    exact Keeps.pure _

theorem settled_readUser (addr : LinearAddr) (length : Nat) :
    Keeps Settled (readUser addr length : Operation layout AccessError (List UInt8)) := by
  induction length using Nat.strongRecOn generalizing addr with
  | ind length ih =>
    by_cases empty : length = 0
    · rw [empty, readUser_zero]
      exact Keeps.pure _
    · have positive := firstChunk_pos addr empty
      rw [readUser_of_ne_zero addr empty]
      exact (settled_backingFrame addr .read).bind fun _ => (Keeps.ask _).orFatal.bind fun _ =>
        (ih _ (by omega) _).bind fun _ => Keeps.pure _

theorem settled_storeUser (mode : AccessMode) (addr : LinearAddr) (data : List UInt8) :
    Keeps Settled (storeUser mode addr data : Operation layout AccessError Unit) := by
  induction length : data.length using Nat.strongRecOn generalizing addr data with
  | ind length ih =>
    by_cases empty : data.length = 0
    · rw [List.length_eq_zero_iff.mp empty, storeUser_nil]
      exact Keeps.pure _
    · have positive := firstChunk_pos addr empty
      rw [storeUser_of_ne_zero mode addr empty]
      refine (settled_backingFrame addr mode).bind fun frame =>
        (quiet_onMemory _).settled.orFatal.bind fun _ => ih _ ?_ _ _ rfl
      rw [List.length_drop]
      omega

theorem settled_copyToUser (addr : LinearAddr) (data : List UInt8) :
    Keeps Settled (copyToUser addr data : Operation layout AccessError Unit) := by
  rw [copyToUser]
  cases data.isEmpty with
  | true => exact Keeps.pure _
  | false =>
      exact (settled_verifyArea addr _).bind fun _ => settled_storeUser .kernelWrite addr data

section Range

variable (source target : LinearAddr) (size : Nat)

theorem settled_release :
    Keeps Settled (release source size : Operation layout FatalError Unit) :=
  (Keeps.ask _).bind fun _ => settled_thenFlush _

theorem settled_duplicate :
    Keeps Settled (duplicate source target size : Operation layout MemoryError Unit) :=
  (Keeps.ask _).orFatal.bind fun _ => settled_thenFlush _

theorem settled_fork :
    Keeps Settled (fork source target size : Operation layout MemoryError Unit) := by
  rw [fork]
  refine (settled_duplicate source target size).attempt.bind fun result => ?_
  cases result with
  | ok _ => exact Keeps.pure _
  | error error =>
      cases error with
      | outOfMemory => exact (settled_release target size).orFatal.bind fun _ => Keeps.throw _
      | fatal error => exact Keeps.throw _

end Range

section Checked

variable {checks body : Operation layout ε Unit}

theorem flushes_of_passed (keeps : ∀ flushes, Keeps (Flushed flushes) body)
    (passed : checks m = .ok () m) :
    ((checks >>= fun _ => thenFlush body).after m).tlbFlushes = m.tlbFlushes + 1 := by
  rw [Operation.after_bind passed, after_thenFlush]
  exact congrArg (· + 1) (keeps m.tlbFlushes m rfl)

theorem flushes_of_refused {error : ε} (refused : checks m = .error error m) :
    ((checks >>= fun _ => thenFlush body).after m).tlbFlushes = m.tlbFlushes := by
  rw [after_of_error (bind_error refused)]

end Checked

/-- There is one flush if the arguments pass the check, and none otherwise. -/
def FlushesOnce (check : Except FatalError Unit) (operation : Operation layout ε Unit) : Prop :=
  ∀ m, (check = .ok () → (operation.after m).tlbFlushes = m.tlbFlushes + 1) ∧
    ∀ error, check = .error error → (operation.after m).tlbFlushes = m.tlbFlushes

theorem duplicate_flushesOnce (source target : LinearAddr) (size : Nat) :
    FlushesOnce (checkDuplicate source target size)
      (duplicate source target size : Operation layout MemoryError Unit) := by
  intro m
  constructor
  · intro passed
    refine flushes_of_passed (fun flushes => Keeps.forM fun block _ => ?_)
      (orFatal_ok (ask_ok passed))
    exact Keeps.duplicateBlock (fun slot entry => flushed_setEntry slot entry flushes)
      (fun _ => (quiet_onPool _).flushed flushes) (quiet_allocateFrame.flushed flushes) _ _ _
  · exact fun error refused => flushes_of_refused (orFatal_error (ask_error refused))

theorem release_flushesOnce (start : LinearAddr) (size : Nat) :
    FlushesOnce (checkRelease start size)
      (release start size : Operation layout FatalError Unit) := by
  intro m
  constructor
  · intro passed
    refine flushes_of_passed (fun flushes => Keeps.forM fun block _ => ?_) (ask_ok passed)
    exact Keeps.releaseBlock (fun slot => flushed_setEntry slot .empty flushes)
      (fun frame => (quiet_freeFrame frame).flushed flushes) block
  · exact fun error refused => flushes_of_refused (ask_error refused)

/-- The manager as if all its entries had been flushed. After an operation its mark tells what the
operation itself has left unflushed. -/
def unmarked (m : Manager layout) : Manager layout := { m with tlbStale := false }

/-- A single mapping leaves its flush to the caller exactly when it succeeds. -/
theorem mapFrame_stale_iff (frame : Frame) (addr : LinearAddr) (writable : Bool)
    (m : Manager layout) :
    ((mapFrame frame addr writable).after m.unmarked).tlbStale = true ↔
      ∃ m', mapFrame frame addr writable m.unmarked = .ok () m' := by
  cases run : mapFrame frame addr writable m.unmarked with
  | ok _ m' =>
      rw [after_of_ok run]
      exact ⟨fun _ => ⟨m', rfl⟩, fun _ => stale_of_mapFrame_ok run⟩
  | error error m' =>
      rw [after_of_error run, stale_of_mapFrame_error run]
      exact ⟨fun stale => (nomatch stale), fun ⟨_, done⟩ => (nomatch done)⟩

end Manager

namespace Kernel

open Operation Manager

variable {α : Type}

def leftBy (entrypoint : Entrypoint α) (kernel : Kernel) : Kernel :=
  match entrypoint kernel with
  | .ok _ kernel => kernel
  | .error _ kernel => kernel

def stale (kernel : Kernel) : Bool :=
  match kernel.machine with
  | .off _ => false
  | .running manager => manager.tlbStale

theorem leftBy_withManager {layout : Layout} (m : Manager layout) (signals : List Signal)
    (operation : {layout : Layout} → Operation layout Panic α) :
    leftBy (withManager operation) ⟨.running m, signals⟩ =
      ⟨.running (operation.after m), signals⟩ := by
  simp only [leftBy, withManager, after]
  cases operation m <;> rfl

theorem settled_orOutOfMemory {layout : Layout} {operation : Operation layout MemoryError α}
    (keeps : Keeps Settled operation) : Keeps Settled (orOutOfMemory operation) := by
  rw [orOutOfMemory]
  refine keeps.attempt.bind fun result => ?_
  cases result with
  | ok value => exact Keeps.pure _
  | error error => exact (quiet_onConsole _).settled.bind fun _ => Keeps.pure _

end Kernel

open Manager

variable {layout : Layout}

theorem report_after {ε α : Type} (failure : ε → Outcome) (success : α → Outcome)
    (operation : Operation layout ε α) (m : Manager layout) :
    (report failure success (operation m)).2 = operation.after m := by
  rw [Operation.after]
  cases operation m <;> rfl

theorem Call.settled_perform {call : Call}
    (several : ∀ frame addr writable, call ≠ .map frame addr writable) (m : Manager layout)
    (before : Operation.Settled m) : Operation.Settled (call.perform m).2 := by
  cases call with
  | allocate =>
      rw [Call.perform, report_after]
      exact quiet_allocateFrame.settled m before
  | free frame =>
      rw [Call.perform, report_after]
      exact (quiet_freeFrame frame).settled m before
  | map frame addr writable => exact absurd rfl (several frame addr writable)
  | installArguments pages top =>
      rw [Call.perform, report_after]
      exact settled_thenFlush _ m before
  | duplicate source target size =>
      rw [Call.perform, report_after]
      exact settled_duplicate source target size m before
  | fork parent child limit =>
      rw [Call.perform, report_after]
      exact settled_fork parent child limit m before
  | release start size =>
      rw [Call.perform, report_after]
      exact settled_release start size m before
  | writeProtect addr =>
      rw [Call.perform, report_after]
      exact settled_resolveWriteProtect addr m before
  | noPage addr =>
      rw [Call.perform, report_after]
      exact settled_resolveNoPage addr m before
  | verifyWrite addr =>
      rw [Call.perform, report_after]
      exact settled_verifyWrite addr m before
  | verifyArea addr size =>
      rw [Call.perform, report_after]
      exact settled_verifyArea addr size m before
  | read addr length =>
      rw [Call.perform, report_after]
      exact settled_readUser addr length m before
  | write addr data =>
      rw [Call.perform, report_after]
      exact settled_storeUser .userWrite addr data m before
  | copyToUser addr data =>
      rw [Call.perform, report_after]
      exact settled_copyToUser addr data m before

/-- Whatever its tables and counts say, a manager has flushed every entry that a call has written
by the time the call returns, however it returns. A mapping of a single frame is flushed by the
kernel that asks for it. Duplications and releases flush once, unless they are refused. -/
theorem entries_flushed (m : Manager layout) :
    (∀ call : Call, (∀ frame addr writable, call ≠ .map frame addr writable) →
      (call.perform m.unmarked).2.tlbStale = false) ∧
    (∀ frame addr writable, ((mapFrame frame addr writable).after m.unmarked).tlbStale = true ↔
      ∃ m', mapFrame frame addr writable m.unmarked = .ok () m') ∧
    (∀ code addr, ((resolveFault code addr).after m.unmarked).tlbStale = false) ∧
    (∀ page addr signals, (Kernel.leftBy (Kernel.mapPage page addr)
      ⟨.running m.unmarked, signals⟩).stale = false) ∧
    (∀ source target size, FlushesOnce (checkDuplicate source target size)
      (duplicate source target size : Operation layout MemoryError Unit)) ∧
    ∀ start size, FlushesOnce (checkRelease start size)
      (release start size : Operation layout FatalError Unit) := by
  refine ⟨?_, ?_, ?_, ?_, duplicate_flushesOnce, release_flushesOnce⟩
  · exact fun call several => call.settled_perform several m.unmarked rfl
  · exact fun frame addr writable => mapFrame_stale_iff frame addr writable m
  · exact fun code addr => settled_resolveFault code addr m.unmarked rfl
  · intro page addr signals
    rw [Kernel.mapPage, Kernel.leftBy_withManager]
    exact Kernel.settled_orOutOfMemory (settled_thenFlush _) m.unmarked rfl

/-- The first page's link and leaf are written and flushed when it is filled in. Its block is
released with one flush, and a range inside it without any. -/
theorem entries_flushed_firstPage :
    ((Call.noPage firstPage).perform (boot .tiny .empty).unmarked).2.tlbStale = false ∧
      (((Call.noPage firstPage).perform (boot .tiny .empty).unmarked).2.memory.leaf
        firstPage.place).isPresent = true ∧
      ((release firstPage blockSize).after filled).tlbFlushes = filled.tlbFlushes + 1 ∧
      ((release (firstPage.advance pageSize) pageSize).after filled).tlbFlushes =
        filled.tlbFlushes := by
  obtain ⟨calls, -⟩ := entries_flushed (boot .tiny .empty)
  obtain ⟨-, -, -, -, -, releases⟩ := entries_flushed filled
  refine ⟨calls (.noPage firstPage) nofun, by decide +kernel, ?_, ?_⟩
  · exact (releases firstPage blockSize filled).1 (checkRelease_eq_ok_iff.mpr (by decide))
  · exact (releases (firstPage.advance pageSize) pageSize filled).2 _
      (show _ = Except.error (.misaligned "free_page_tables" (firstPage.advance pageSize)) by rfl)

end PagedMemory

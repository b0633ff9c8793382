import PagedMemory.Proofs.ForkFailure
import PagedMemory.Proofs.Kills
import PagedMemory.Proofs.Teardown

/-!
Signals. An entry point records a signal exactly when the operation under it has resolved to a kill,
and once. The task's exit comes after the operation has ended: it runs on all that the operation has
left, gives back what it drops, and sends no signal itself. So through every run of the kernel,
stops included, there are as many signals as kills (`Serving.signals_eq_kills`).
-/

namespace PagedMemory

inductive Request where
  | allocatePage
  | freePage (addr : PhysicalAddr)
  | mapPage (page : PhysicalAddr) (addr : LinearAddr)
  | duplicate (source target : LinearAddr) (size : Nat)
  | release (start : LinearAddr) (size : Nat)
  | fork (parent child : LinearAddr) (limit : Nat)
  | installArguments (pages : Vector (Option Frame) Manager.argumentPages) (top : LinearAddr)
  | pageFault (code : Nat) (addr : LinearAddr) (task : Task)
  | writeProtectFault (addr : LinearAddr) (task : Task)
  | noPageFault (addr : LinearAddr) (task : Task)
  | verifyWrite (addr : LinearAddr) (task : Task)
  | verifyArea (addr : LinearAddr) (size : Nat) (task : Task)
  | copyToUser (addr : LinearAddr) (data : List UInt8) (task : Task)

inductive Reply where
  | page (addr : Option PhysicalAddr)
  | done
  | outOfMemory
  | resolved (resolution : Resolution)
  | verified (resolution : Option Resolution)
  | survived (survived : Bool)
  deriving DecidableEq

namespace Reply

def killed : Reply → Bool
  | resolved .killed | verified (some .killed) | survived false => true
  | _ => false

def kills (reply : Reply) : Nat := reply.killed.toNat

def ofResult : Except OutOfMemory Unit → Reply
  | .ok _ => done
  | .error _ => outOfMemory

theorem kills_resolved (resolution : Resolution) :
    (resolved resolution).kills = resolution.kills := by
  cases resolution <;> rfl

theorem kills_verified (resolution : Option Resolution) :
    (verified resolution).kills = Manager.verifiedKills resolution := by
  match resolution with
  | none | some .killed | some .restored | some (.copied _) | some (.zeroFilled _) => rfl

theorem kills_ofResult (result : Except OutOfMemory Unit) : (ofResult result).kills = 0 := by
  cases result <;> rfl

end Reply

open Operation

def Task.exit {layout : Layout} (task : Task) : Operation layout Panic Unit :=
  match task.exitRange with
  | some (start, size) => orHalt (Manager.release start size)
  | none => pure ()

namespace Request

def serve : Request → Kernel.Entrypoint Reply
  | allocatePage => .page <$> Kernel.allocatePage
  | freePage addr => (fun _ => .done) <$> Kernel.freePage addr
  | mapPage page addr => .ofResult <$> Kernel.mapPage page addr
  | duplicate source target size => .ofResult <$> Kernel.duplicate source target size
  | release start size => (fun _ => .done) <$> Kernel.release start size
  | fork parent child limit => .ofResult <$> Kernel.fork parent child limit
  | installArguments pages top => .ofResult <$> Kernel.installArguments pages top
  | pageFault code addr task => .resolved <$> Kernel.pageFault code addr task
  | writeProtectFault addr task => .resolved <$> Kernel.writeProtectFault addr task
  | noPageFault addr task => .resolved <$> Kernel.noPageFault addr task
  | verifyWrite addr task => .verified <$> Kernel.verifyWrite addr task
  | verifyArea addr size task => .survived <$> Kernel.verifyArea addr size task
  | copyToUser addr data task => .survived <$> Kernel.copyToUser addr data task

def operation {layout : Layout} : Request → Operation layout Panic Reply
  | allocatePage => (fun frame => .page (frame.map Frame.addr)) <$> Manager.allocateFrame
  | freePage addr => (fun _ => .done) <$> orHalt (Manager.freeFrame addr.frame)
  | mapPage page addr => .ofResult <$>
      Kernel.orOutOfMemory (Manager.thenFlush (Manager.mapFrame page.frame addr true))
  | duplicate source target size =>
      .ofResult <$> Kernel.orOutOfMemory (Manager.duplicate source target size)
  | release start size => (fun _ => .done) <$> orHalt (Manager.release start size)
  | fork parent child limit =>
      .ofResult <$> Kernel.orOutOfMemory (Manager.fork parent child limit)
  | installArguments pages top =>
      .ofResult <$> Kernel.orOutOfMemory (Manager.installArguments pages top)
  | pageFault code addr _ =>
      .resolved <$> orHalt (Manager.resolveFault (FaultCode.ofNat code) addr)
  | writeProtectFault addr _ => .resolved <$> orHalt (Manager.resolveWriteProtect addr)
  | noPageFault addr _ => .resolved <$> orHalt (Manager.resolveNoPage addr)
  | verifyWrite addr _ => .verified <$> orHalt (Manager.verifyWrite addr)
  | verifyArea addr size _ => .survived <$> Kernel.orKilled (Manager.verifyArea addr size)
  | copyToUser addr data _ => .survived <$> Kernel.orKilled (Manager.copyToUser addr data)

def task? : Request → Option Task
  | allocatePage | freePage _ | mapPage _ _ | duplicate _ _ _ | release _ _ | fork _ _ _
  | installArguments _ _ => none
  | pageFault _ _ task | writeProtectFault _ task | noPageFault _ task | verifyWrite _ task
  | verifyArea _ _ task | copyToUser _ _ task => some task

end Request

namespace Operation

variable {layout : Layout} {ε δ α β : Type} {owed : Nat} {answer : α → Nat} {failure : ε → Nat}

theorem Reports.map {operation : Operation layout ε α} {answer' : β → Nat} {f : α → β}
    (reports : Reports owed answer failure operation)
    (same : ∀ value, answer' (f value) = answer value) :
    Reports owed answer' failure (f <$> operation) :=
  reports.bind fun value => Reports.pure (same value)

def attempted (answer : α → Nat) (failure : ε → Nat) : Except ε α → Nat
  | .ok value => answer value
  | .error error => failure error

theorem Reports.attempt {operation : Operation layout ε α} {failure' : δ → Nat}
    (reports : Reports owed answer failure operation) :
    Reports owed (attempted answer failure) failure'
      (attempt operation : Operation layout δ (Except ε α)) := by
  intro m
  have ended := reports m
  rw [after_attempt]
  cases run : operation m with
  | ok value m' =>
      rw [run] at ended
      rw [attempt_ok run]
      exact ended
  | error error m' =>
      rw [run] at ended
      rw [attempt_error run]
      exact ended

theorem reports_halt (error : FatalError) :
    Reports 0 answer (fun _ => 0) (onConsole error.halt : Operation layout Panic α) :=
  fun _ => rfl

theorem Reports.orHalt {operation : Operation layout FatalError α}
    (reports : Reports 0 answer (fun _ => 0) operation) :
    Reports 0 answer (fun _ => 0) (orHalt operation) := by
  rw [Operation.orHalt]
  refine reports.attempt.bind fun result => ?_
  cases result with
  | ok value => exact Reports.pure rfl
  | error error => exact reports_halt error

theorem Spares.orOutOfMemory {operation : Operation layout MemoryError Unit}
    (spares : Spares operation) : Spares (Kernel.orOutOfMemory operation) := by
  intro kills
  rw [Kernel.orOutOfMemory]
  refine (spares kills).attempt.bind fun result => ?_
  cases result with
  | ok value => exact Keeps.pure _
  | error error => exact (Manager.spares_onConsole _ kills).bind fun _ => Keeps.pure _

theorem Reports.orKilled {operation : Operation layout AccessError Unit}
    (reports : Reports 0 (fun _ => 0) AccessError.kills operation) :
    Reports 0 (fun survived => (Reply.survived survived).kills) (fun _ => 0)
      (Kernel.orKilled operation) := by
  rw [Kernel.orKilled]
  refine reports.attempt.bind fun result => ?_
  match result with
  | .ok _ => exact Reports.pure rfl
  | .error .killed => exact Reports.pure rfl
  | .error (.fatal error) => exact reports_halt error

end Operation

open Manager

variable {layout : Layout}

theorem Request.reports (request : Request) :
    Reports 0 Reply.kills (fun _ => 0) (request.operation : Operation layout Panic Reply) := by
  cases request with
  | allocatePage => exact spares_allocateFrame.reports.map fun _ => rfl
  | freePage addr => exact (spares_freeFrame _).reports.orHalt.map fun _ => rfl
  | mapPage page addr =>
      have spares : Spares (thenFlush (mapFrame page.frame addr true) :
          Operation layout MemoryError Unit) := fun kills =>
        (spares_mapFrame _ addr true kills).thenFlush fun _ before => before
      exact spares.orOutOfMemory.reports.map Reply.kills_ofResult
  | duplicate source target size =>
      exact (spares_duplicate source target size).orOutOfMemory.reports.map Reply.kills_ofResult
  | release start size => exact (spares_release start size).reports.orHalt.map fun _ => rfl
  | fork parent child limit =>
      exact (spares_fork parent child limit).orOutOfMemory.reports.map Reply.kills_ofResult
  | installArguments pages top =>
      exact (spares_installArguments pages top).orOutOfMemory.reports.map Reply.kills_ofResult
  | pageFault code addr task =>
      exact (reports_resolveFault _ addr).orHalt.map Reply.kills_resolved
  | writeProtectFault addr task =>
      exact (reports_resolveWriteProtect addr).orHalt.map Reply.kills_resolved
  | noPageFault addr task => exact (reports_resolveNoPage addr).orHalt.map Reply.kills_resolved
  | verifyWrite addr task => exact (reports_verifyWrite addr).orHalt.map Reply.kills_verified
  | verifyArea addr size task => exact (reports_verifyArea addr size).orKilled.map fun _ => rfl
  | copyToUser addr data task => exact (reports_copyToUser addr data).orKilled.map fun _ => rfl

namespace Kernel

variable {α β : Type} {m m' : Manager layout} {signals : List Signal}
  {operation : {layout : Layout} → Operation layout Panic α}

def withSignals (signals : List Signal) :
    EStateM.Result Panic (Manager layout) α → EStateM.Result Panic Kernel α
  | .ok value m => .ok value ⟨.running m, signals⟩
  | .error panic m => .error panic ⟨.running m, signals⟩

theorem withManager_running :
    withManager operation ⟨.running m, signals⟩ = withSignals signals (operation m) := by
  simp only [withManager]
  cases operation m <;> rfl

theorem bind_withManager_ok {next : α → Entrypoint β} {value : α}
    (run : operation m = .ok value m') :
    (withManager operation >>= next) ⟨.running m, signals⟩ = next value ⟨.running m', signals⟩ := by
  change EStateM.bind _ _ _ = _
  simp only [EStateM.bind, withManager_running, run, withSignals]

theorem bind_withManager_error {next : α → Entrypoint β} {panic : Panic}
    (run : operation m = .error panic m') :
    (withManager operation >>= next) ⟨.running m, signals⟩ =
      .error panic ⟨.running m', signals⟩ := by
  change EStateM.bind _ _ _ = _
  simp only [EStateM.bind, withManager_running, run, withSignals]

theorem exitTask_running (task : Task) (signal : Signal) (value : α) :
    (exitTask task signal >>= fun _ => pure value) ⟨.running m, signals⟩ =
      withSignals (signal :: signals) ((task.exit >>= fun _ => pure value) m) := by
  have exits : exitTask task signal ⟨.running m, signals⟩ =
      withSignals (signal :: signals) (task.exit m) := by
    rcases task with ⟨_ | ⟨start, size⟩⟩
    · rfl
    · change release start size ⟨.running m, signal :: signals⟩ = _
      exact withManager_running
  change EStateM.bind _ _ _ = _
  simp only [EStateM.bind, exits]
  cases run : task.exit m with
  | ok _ m' =>
      rw [bind_ok run]
      rfl
  | error panic m' =>
      rw [bind_error run]
      rfl

def conclude (task? : Option Task) (reply : Reply) : Entrypoint Reply :=
  match task?, reply.killed with
  | some task, true => do
      exitTask task .segmentationViolation
      return reply
  | some _, false | none, _ => return reply

theorem conclude_of_spared {task? : Option Task} {reply : Reply} (silent : reply.killed = false) :
    conclude task? reply = pure reply := by
  cases task? <;> simp only [conclude, silent]

theorem conclude_of_killed {task : Task} {reply : Reply} (killed : reply.killed = true) :
    conclude (some task) reply =
      (exitTask task .segmentationViolation >>= fun _ => pure reply) := by
  simp only [conclude, killed]

theorem map_bind_withManager {next : α → Entrypoint β} {answer : β → Reply} {reply : α → Reply}
    {task? : Option Task} (same : ∀ value, answer <$> next value = conclude task? (reply value)) :
    (answer <$> (withManager operation >>= next)) ⟨.running m, signals⟩ =
      (withManager (reply <$> operation) >>= conclude task?) ⟨.running m, signals⟩ := by
  rw [map_bind]
  cases run : operation m with
  | ok value m' =>
      have answered : (reply <$> operation : Operation layout Panic Reply) m =
          .ok (reply value) m' := bind_ok run
      rw [bind_withManager_ok run, bind_withManager_ok answered, same]
  | error panic m' =>
      have stopped : (reply <$> operation : Operation layout Panic Reply) m = .error panic m' :=
        bind_error run
      rw [bind_withManager_error run, bind_withManager_error stopped]

theorem map_withManager {reply : α → Reply} :
    (reply <$> withManager operation) ⟨.running m, signals⟩ =
      (withManager (reply <$> operation) >>= conclude none) ⟨.running m, signals⟩ := by
  rw [← bind_pure (withManager operation)]
  exact map_bind_withManager fun value => rfl

theorem map_deliver (task : Task) (resolution : Resolution) :
    .resolved <$> deliver task resolution = conclude (some task) (.resolved resolution) := by
  cases resolution with
  | killed => exact map_bind _ _ _
  | restored | copied | zeroFilled => rfl

theorem map_deliver_some (task : Task) (resolution : Resolution) :
    .verified <$> (some <$> deliver task resolution) =
      conclude (some task) (.verified (some resolution)) := by
  cases resolution with
  | killed => exact (congrArg (Reply.verified <$> ·) (map_bind _ _ _)).trans (map_bind _ _ _)
  | restored | copied | zeroFilled => rfl

theorem map_deliverUnless (task : Task) (survived : Bool) :
    .survived <$> deliverUnless task survived = conclude (some task) (.survived survived) := by
  cases survived with
  | false => exact map_bind _ _ _
  | true => rfl

end Kernel

open Kernel

theorem Request.serve_running (request : Request) (m : Manager layout) (signals : List Signal) :
    request.serve ⟨.running m, signals⟩ =
      (withManager request.operation >>= conclude request.task?) ⟨.running m, signals⟩ := by
  cases request with
  | allocatePage => exact map_bind_withManager fun _ => rfl
  | freePage | mapPage | duplicate | release | fork | installArguments =>
      exact map_withManager
  | pageFault | writeProtectFault | noPageFault =>
      exact map_bind_withManager fun resolution => map_deliver _ resolution
  | verifyWrite =>
      refine map_bind_withManager fun result => ?_
      cases result with
      | none => rfl
      | some resolution => exact map_deliver_some _ resolution
  | verifyArea | copyToUser =>
      exact map_bind_withManager fun survived => map_deliverUnless _ survived

theorem Request.exists_task {request : Request} {m m' : Manager layout} {reply : Reply}
    (answered : request.operation m = .ok reply m') (killed : reply.killed = true) :
    ∃ task, request.task? = some task := by
  cases request with
  | allocatePage | freePage | release =>
      obtain ⟨value, _, -, said⟩ := exists_of_bind_ok answered
      cases said
      cases killed
  | mapPage | duplicate | fork | installArguments =>
      obtain ⟨result, _, -, said⟩ := exists_of_bind_ok answered
      cases said
      cases result <;> cases killed
  | pageFault _ _ task | writeProtectFault _ task | noPageFault _ task | verifyWrite _ task
  | verifyArea _ _ task | copyToUser _ _ task => exact ⟨task, rfl⟩

section Exit

variable {m m' : Manager layout} {held : Finset Frame} {task : Task}

theorem Task.keeps_exit {good : Manager layout → Prop}
    (empties : ∀ slot, Keeps good (setEntry slot .empty))
    (drops : ∀ frame, Keeps good (freeFrame frame)) (flushes : ∀ m, good m → good m.flushed)
    (halts : ∀ error : FatalError,
      Keeps good (onConsole error.halt : Operation layout Panic Unit)) (task : Task) :
    Keeps good task.exit := by
  rw [Task.exit]
  match task.exitRange with
  | none => exact Keeps.pure ()
  | some (start, size) =>
      refine (Keeps.release empties drops flushes start size).attempt.bind fun result => ?_
      cases result with
      | ok value => exact Keeps.pure value
      | error error => exact halts error

theorem Task.spares_exit (task : Task) : Spares (task.exit : Operation layout Panic Unit) :=
  fun kills => Task.keeps_exit (fun slot => spares_setEntry slot .empty kills)
    (fun frame => spares_freeFrame frame kills) (fun _ before => before)
    (fun _ => spares_onConsole _ kills) task

theorem keeps_givenBack_freeFrame (pool : FramePool layout) (frame : Frame) :
    Keeps (fun m => pool.GivenBack m.pool) (freeFrame frame) := by
  intro m before
  rw [freeFrame]
  rcases FramePool.free_cases frame m.pool with
    ⟨error, run⟩ | ⟨-, run⟩ | ⟨left, run, -, -⟩
  · rw [after_of_error (onPool_error run)]
    exact before
  · rw [after_of_ok (onPool_ok run)]
    exact before
  · rw [after_of_ok (onPool_ok run)]
    exact before.trans (FramePool.givenBack_of_free run)

theorem Task.givenBack_exit (task : Task) (m : Manager layout) :
    m.pool.GivenBack (task.exit.after m).pool :=
  Task.keeps_exit
    (fun slot => keeps_setEntry (fun m' => m.pool.GivenBack m'.pool) slot .empty
      fun _ _ _ before => before)
    (keeps_givenBack_freeFrame m.pool) (fun _ before => before)
    (fun _ => keeps_onConsole _ _ fun _ _ before => before) task m (FramePool.givenBack_self _)

/-- Only the range refers to the frame: no other table or leaf does, and the caller does not hold
it. -/
structure Manager.OnlyWithin (m : Manager layout) (held : Finset Frame) (first blocks : Nat)
    (frame : Frame) : Prop where
  task : layout.IsTaskFrame frame
  unheld : frame ∉ held
  link : ∀ block ∈ layout.taskBlocks, (m.memory.link block).PointsAt frame →
    first ≤ block ∧ block < first + blocks
  leaf : ∀ place ∈ layout.taskPlaces, (m.memory.leaf place).PointsAt frame →
    first ≤ place.1 ∧ place.1 < first + blocks

theorem Manager.Released.free_of_onlyWithin {first blocks : Nat} {frame : Frame}
    (released : m.Released m' first blocks) (sound' : m'.Sound held)
    (only : m.OnlyWithin held first blocks frame) : m'.refCount? frame = some 0 := by
  rw [refCount?_eq only.task.pooled, Option.some.injEq]
  apply sound'.balanced.count_eq_zero only.task _ _ only.unheld
  · intro block member points
    rw [released.link] at points
    split at points
    · cases points.1
    · rename_i outside
      exact outside (only.link block member points)
  · intro place member points
    rw [released.leaf] at points
    split at points
    · cases points.1
    · rename_i outside
      exact outside (only.leaf place member points)

theorem Manager.Sound.exists_exit (sound : m.Sound held) {start : LinearAddr} {size : Nat}
    (exits : task.exitRange = some (start, size)) (range : layout.IsTaskRange start size) :
    ∃ m', task.exit m = .ok () m' ∧
      ∀ frame, m.OnlyWithin held start.dirIndex (blocksSpanned size) frame →
        m'.refCount? frame = some 0 := by
  obtain ⟨m', run, sound', released⟩ := sound.exists_release range.within range.aligned
  refine ⟨m', ?_, fun frame only => released.free_of_onlyWithin sound' only⟩
  simp only [Task.exit, exits, orHalt]
  rw [bind_ok (attempt_ok run)]
  rfl

end Exit

/-- What becomes of memory when a killed task exits: no count rises, whatever state the kill has
left and however the exit ends, and every frame whose last reference is dropped stays free. A range
of task space is released in full. -/
structure Task.GivesBack (task : Task) (m : Manager layout) : Prop where
  dropped : m.pool.GivenBack (task.exit.after m).pool
  range : ∀ start size held, task.exitRange = some (start, size) → m.Sound held →
    layout.IsTaskRange start size → ∃ m', task.exit m = .ok () m' ∧ ∀ frame,
      m.OnlyWithin held start.dirIndex (blocksSpanned size) frame → m'.refCount? frame = some 0

/-- How a call is served after `signals` have been sent. A stop in the operation ends the call as
it is; so does an answer that tells of no kill. A kill sends one signal, and the exit runs on the
manager that the operation has left. -/
structure Request.Served (request : Request) (m : Manager layout) (signals : List Signal) :
    Prop where
  halted : ∀ {panic m'}, request.operation m = .error panic m' →
    request.serve ⟨.running m, signals⟩ = .error panic ⟨.running m', signals⟩
  spared : ∀ {reply m'}, request.operation m = .ok reply m' → reply.killed = false →
    request.serve ⟨.running m, signals⟩ = .ok reply ⟨.running m', signals⟩
  killed : ∀ {reply m'}, request.operation m = .ok reply m' → reply.killed = true →
    m'.faults.killed = signals.length + 1 ∧ ∃ task, request.task? = some task ∧
      request.serve ⟨.running m, signals⟩ = withSignals (.segmentationViolation :: signals)
        ((task.exit >>= fun _ => pure reply) m') ∧
      task.GivesBack m'

theorem Request.served (request : Request) {m : Manager layout} {signals : List Signal}
    (matched : signals.length = m.faults.killed) : request.Served m signals := by
  refine ⟨?_, ?_, ?_⟩
  · intro panic m' run
    rw [request.serve_running, bind_withManager_error run]
  · intro reply m' run silent
    rw [request.serve_running, bind_withManager_ok run, conclude_of_spared silent]
    rfl
  · intro reply m' run killed
    obtain ⟨task, tasked⟩ := request.exists_task run killed
    have reported := request.reports m
    rw [after_of_ok run, run, killsOf, Reply.kills, killed] at reported
    refine ⟨reported.trans (congrArg (· + 1) matched.symm), task, tasked, ?_, ?_⟩
    · rw [request.serve_running, bind_withManager_ok run, tasked, conclude_of_killed killed]
      exact exitTask_running task _ reply
    · exact ⟨task.givenBack_exit m', fun _ _ _ exits sound range => sound.exists_exit exits range⟩

/-- The kernel from the start on, after any calls, whether they have returned or stopped. -/
inductive Serving (layout : Layout) : Kernel → Prop
  | boot (console : Console) : Serving layout ⟨.running (boot layout console), []⟩
  | step {kernel : Kernel} (request : Request) (before : Serving layout kernel) :
      Serving layout (Kernel.leftBy request.serve kernel)

def Matched (layout : Layout) (kernel : Kernel) : Prop :=
  ∃ m : Manager layout, kernel.machine = .running m ∧ kernel.signals.length = m.faults.killed

theorem matched_boot (layout : Layout) (console : Console) :
    Matched layout ⟨.running (boot layout console), []⟩ := by
  have spares : Spares (mapKernel : Operation layout FatalError Unit) := by
    intro kills
    refine (Keeps.forM fun block _ => ?_).bind fun _ => spares_flush kills
    exact (spares_setEntry _ _ kills).bind fun _ => Keeps.forM fun _ _ => spares_setEntry _ _ kills
  have none : (boot layout console).faults.killed = 0 := spares 0 _ rfl
  exact ⟨_, rfl, none.symm⟩

theorem leftBy_withSignals {α : Type} {entrypoint : Entrypoint α} {kernel : Kernel}
    {operation : Operation layout Panic α} {m : Manager layout} {signals : List Signal}
    (ends : entrypoint kernel = withSignals signals (operation m)) :
    Kernel.leftBy entrypoint kernel = ⟨.running (operation.after m), signals⟩ := by
  rw [Kernel.leftBy, ends, after]
  cases operation m <;> rfl

theorem Matched.step {kernel : Kernel} (request : Request) (matched : Matched layout kernel) :
    Matched layout (Kernel.leftBy request.serve kernel) := by
  obtain ⟨machine, signals⟩ := kernel
  obtain ⟨m, rfl, sent⟩ := matched
  obtain ⟨halted, spared, killed⟩ := request.served sent
  have reported := request.reports m
  cases run : request.operation m with
  | error panic m' =>
      rw [after_of_error run, run] at reported
      rw [Kernel.leftBy, halted run]
      exact ⟨m', rfl, sent.trans reported.symm⟩
  | ok reply m' =>
      rw [after_of_ok run, run] at reported
      cases told : reply.killed with
      | false =>
          rw [killsOf, Reply.kills, told] at reported
          rw [Kernel.leftBy, spared run told]
          exact ⟨m', rfl, sent.trans reported.symm⟩
      | true =>
          obtain ⟨counted, task, -, ends, -⟩ := killed run told
          have exits : Keeps (Killed (signals.length + 1))
              (task.exit >>= fun _ => pure reply : Operation layout Panic Reply) :=
            (task.spares_exit _).bind fun _ => Keeps.pure reply
          rw [leftBy_withSignals ends]
          exact ⟨_, rfl, (exits m' counted).symm⟩

theorem Serving.matched {kernel : Kernel} (serving : Serving layout kernel) :
    Matched layout kernel := by
  induction serving with
  | boot console => exact matched_boot layout console
  | step request _ ih => exact ih.step request

/-- Whatever the kernel has been asked for, there are as many signals as kills in the books, and the
next call sends one exactly when its operation kills. -/
theorem Serving.signals_eq_kills {kernel : Kernel} (serving : Serving layout kernel) :
    ∃ m : Manager layout, kernel.machine = .running m ∧
      faultStats kernel = .ok m.faults kernel ∧ kernel.signals.length = m.faults.killed ∧
      ∀ request : Request, request.Served m kernel.signals := by
  obtain ⟨machine, signals⟩ := kernel
  obtain ⟨m, rfl, sent⟩ := serving.matched
  exact ⟨m, rfl, rfl, sent, fun request => request.served sent⟩

section Steps

variable {m m' : Manager layout} {signals : List Signal}

theorem Serving.allocate (serving : Serving layout ⟨.running m, signals⟩) :
    Serving layout ⟨.running (Call.allocate.perform m).2, signals⟩ := by
  have took : ∃ frame, (allocateFrame : Operation layout Panic (Option Frame)) m =
      .ok frame (Call.allocate.perform m).2 := by
    rw [Call.perform, allocateFrame_eq, allocateFrame_eq]
    cases m.pool.highestFree <;> exact ⟨_, rfl⟩
  obtain ⟨frame, took⟩ := took
  have next := serving.step .allocatePage
  rwa [Kernel.leftBy, Request.serve_running, bind_withManager_ok (bind_ok took)] at next

theorem Serving.noPage (serving : Serving layout ⟨.running m, signals⟩) {addr : LinearAddr}
    {frame : Frame} (outcome : ((Call.noPage addr).perform m).1 = .resolved (.zeroFilled frame)) :
    Serving layout ⟨.running ((Call.noPage addr).perform m).2, signals⟩ := by
  have resolved : (orHalt (resolveNoPage addr) : Operation layout Panic Resolution) m =
      .ok (.zeroFilled frame) ((Call.noPage addr).perform m).2 :=
    bind_ok (attempt_ok (eq_of_report_resolved outcome))
  have next := serving.step (.noPageFault addr ⟨none⟩)
  rwa [Kernel.leftBy, Request.serve_running, bind_withManager_ok (bind_ok resolved)] at next

theorem exists_killed_of_full (full : m.pool.highestFree = none) (addr : LinearAddr) :
    ∃ m', resolveNoPage addr m = .ok .killed m' ∧ m'.memory = m.memory ∧ m'.pool = m.pool := by
  have none : (allocateFrame : Operation layout FatalError (Option Frame)) m.startedNoPage =
      .ok none m.startedNoPage := by
    rw [allocateFrame_eq]
    simp only [Manager.startedNoPage, full]
  exact ⟨_, bind_ok none, rfl, rfl⟩

end Steps

theorem serving_exhausted : Serving .tiny ⟨.running exhausted, []⟩ := by
  have outcome : ((Call.noPage firstPage).perform (boot .tiny .empty)).1 =
      .resolved (.zeroFilled ⟨163⟩) := by decide +kernel
  have first : Serving .tiny ⟨.running filled, []⟩ := (Serving.boot .empty).noPage outcome
  exact first.allocate.allocate

theorem onlyWithin_whole {m : Manager layout} {held : Finset Frame} {frame : Frame}
    {first blocks : Nat}
    (whole : first = layout.kernelTables ∧ first + blocks = entriesPerDirectory)
    (user : layout.IsTaskFrame frame) (unheld : frame ∉ held) :
    m.OnlyWithin held first blocks frame := by
  have covered (block : Nat) (member : block ∈ layout.taskBlocks) :
      first ≤ block ∧ block < first + blocks := by
    rw [whole.2, whole.1]
    exact Layout.mem_taskBlocks.mp member
  exact ⟨user, unheld, fun block member _ => covered block member,
    fun place member _ => covered place.1 (Layout.mem_taskPlaces.mp member).1⟩

/-- On the tiny machine without a free frame, a task whose exit releases all of task space touches
its second page. It gets one signal, and its page and table are free again when the call returns. -/
theorem signals_eq_kills_exhausted :
    ∃ m : Manager .tiny,
      (Request.noPageFault (firstPage.advance pageSize)
          ⟨some (firstPage, 1023 * blockSize)⟩).serve ⟨.running exhausted, []⟩ =
        .ok (.resolved .killed) ⟨.running m, [.segmentationViolation]⟩ ∧
      m.faults.killed = 1 ∧ m.refCount? ⟨162⟩ = some 0 ∧ m.refCount? ⟨163⟩ = some 0 := by
  have serving := serving_exhausted
  have full : exhausted.pool.highestFree = none := by decide +kernel
  have range : Layout.tiny.IsTaskRange firstPage (1023 * blockSize) :=
    ⟨by decide, by decide, by decide⟩
  have whole : firstPage.dirIndex = Layout.tiny.kernelTables ∧
      firstPage.dirIndex + blocksSpanned (1023 * blockSize) = entriesPerDirectory := by decide
  have reachable := reachable_exhausted
  -- what the manager and the exit are made of matters no more
  generalize exhausted = m at serving full reachable ⊢
  generalize exit : (⟨some (firstPage, 1023 * blockSize)⟩ : Task) = task
  obtain ⟨_, running, -, -, served⟩ := Serving.signals_eq_kills serving
  cases running
  obtain ⟨m', kill, memory, pool⟩ := exists_killed_of_full full (firstPage.advance pageSize)
  have run : (Request.noPageFault (firstPage.advance pageSize) task).operation m =
      .ok (.resolved .killed) m' := bind_ok (bind_ok (attempt_ok kill))
  obtain ⟨counted, _, tasked, ends, gives⟩ := (served _).killed run rfl
  cases tasked
  obtain ⟨m'', exits, free⟩ := gives.range _ _ _ (congrArg Task.exitRange exit.symm)
    (reachable.sound.of_same memory pool) range
  have kept : Killed 1 (task.exit.after m') := task.spares_exit 1 m' counted
  rw [after_of_ok exits] at kept
  rw [bind_ok exits] at ends
  exact ⟨m'', ends, kept, free _ (onlyWithin_whole whole (by decide) (by decide)),
    free _ (onlyWithin_whole whole (by decide) (by decide))⟩

end PagedMemory

import PagedMemory.Proofs.Flushing

/-!
Kills. A fault that finds no frame is counted as a kill in one of three places, far from where its
outcome is read. Every operation reports each kill that it counts: by its answer if it answers with
the resolution, by its failure otherwise. So none is counted twice, and none is swallowed by a loop
or by the rest of an access.
-/

namespace PagedMemory

def Resolution.kills : Resolution → Nat
  | killed => 1
  | restored | copied _ | zeroFilled _ => 0

def AccessError.kills : AccessError → Nat
  | killed => 1
  | fatal _ => 0

namespace Operation

variable {layout : Layout} {ε δ α β : Type} {m m' : Manager layout}

def Killed (kills : Nat) (m : Manager layout) : Prop := m.faults.killed = kills

def killsOf (answer : α → Nat) (failure : ε → Nat) : EStateM.Result ε (Manager layout) α → Nat
  | .ok value _ => answer value
  | .error error _ => failure error

/-- The outcome stands for the kills that the operation counts, and for `owed` that have been
counted before it. -/
def Reports (owed : Nat) (answer : α → Nat) (failure : ε → Nat) (operation : Operation layout ε α) :
    Prop :=
  ∀ m, (operation.after m).faults.killed + owed =
    m.faults.killed + killsOf answer failure (operation m)

abbrev Spares (operation : Operation layout ε α) : Prop := ∀ kills, Keeps (Killed kills) operation

variable {owed : Nat} {answer : α → Nat} {failure : ε → Nat}

theorem Reports.pure {value : α} (paid : answer value = owed) :
    Reports owed answer failure (pure value : Operation layout ε α) :=
  fun m => congrArg (m.faults.killed + ·) paid.symm

theorem Reports.throw {error : ε} (paid : failure error = owed) :
    Reports owed answer failure (throw error : Operation layout ε α) :=
  fun m => congrArg (m.faults.killed + ·) paid.symm

theorem Reports.bind {operation : Operation layout ε α} {next : α → Operation layout ε β}
    {answer' : β → Nat} (first : Reports owed answer failure operation)
    (rest : ∀ value, Reports (answer value) answer' failure (next value)) :
    Reports owed answer' failure (operation >>= next) := by
  intro m
  have begun := first m
  cases run : operation m with
  | ok value m₁ =>
      rw [run, after_of_ok run] at begun
      have ended := rest value m₁
      rw [after_bind run, bind_ok run]
      simp only [killsOf] at begun
      omega
  | error error m₁ =>
      rw [run, after_of_error run] at begun
      rw [bind_error run, after_of_error (bind_error run)]
      exact begun

theorem Reports.orFatal [OfFatal ε] {operation : Operation layout FatalError α}
    (reports : Reports owed answer (fun _ => 0) operation)
    (harmless : ∀ error, failure (OfFatal.ofFatal error) = 0) :
    Reports owed answer failure (orFatal operation : Operation layout ε α) := by
  intro m
  have ended := reports m
  rw [after_orFatal]
  cases run : operation m with
  | ok value m₁ =>
      rw [run] at ended
      rw [orFatal_ok run]
      exact ended
  | error error m₁ =>
      rw [run] at ended
      rw [orFatal_error run, killsOf, harmless]
      exact ended

theorem Reports.forM {act : α → Operation layout ε Unit} {xs : List α}
    (each : ∀ x ∈ xs, Reports 0 (fun _ => 0) failure (act x)) :
    Reports 0 (fun _ => 0) failure (xs.forM act) := by
  induction xs with
  | nil => exact Reports.pure rfl
  | cons x xs ih =>
      have rest := ih fun y member => each y (List.mem_cons_of_mem x member)
      exact (each x List.mem_cons_self).bind fun _ => rest

theorem Spares.reports {operation : Operation layout ε α} (spares : Spares operation) :
    Reports 0 (fun _ => 0) (fun _ => 0) operation :=
  fun m => (spares m.faults.killed m rfl).trans (by cases operation m <;> rfl)

theorem Spares.bind {operation : Operation layout ε α} {next : α → Operation layout ε β}
    {answer' : β → Nat} (spares : Spares operation)
    (rest : ∀ value, Reports 0 answer' (fun _ => 0) (next value)) :
    Reports 0 answer' (fun _ => 0) (operation >>= next) :=
  spares.reports.bind rest

end Operation

namespace Manager

variable {layout : Layout} {ε α : Type}

open Operation

section Spared

theorem spares_onPool (change : FramePool.Change layout ε α) : Spares (onPool change) :=
  fun kills => keeps_onPool (Killed kills) change fun _ _ before => before

theorem spares_onMemory (access : PhysicalMemory.Access layout.totalFrames α) :
    Spares (onMemory access) :=
  fun kills => keeps_onMemory (Killed kills) access fun _ _ before => before

theorem spares_onConsole (output : EStateM ε Console α) :
    Spares (onConsole output : Operation layout ε α) :=
  fun kills => keeps_onConsole (Killed kills) output fun _ _ before => before

theorem spares_say (text : String) : Spares (say text : Operation layout ε Unit) :=
  fun _ _ before => before

theorem spares_flush : Spares (flush : Operation layout ε Unit) := fun _ _ before => before

theorem spares_count {change : FaultStats → FaultStats}
    (same : ∀ faults, (change faults).killed = faults.killed) :
    Spares (count change : Operation layout ε Unit) :=
  fun _ m before => (same m.faults).trans before

theorem spares_setEntry (slot : Slot) (entry : Entry) :
    Spares (setEntry slot entry : Operation layout FatalError Unit) :=
  fun kills => keeps_setEntry (Killed kills) slot entry fun _ _ _ before => before

theorem spares_allocateFrame : Spares (allocateFrame : Operation layout ε (Option Frame)) := by
  intro kills
  rw [allocateFrame]
  refine (spares_onPool _ kills).bind fun taken => ?_
  cases taken with
  | none => exact Keeps.pure _
  | some frame => exact fun _ before => before

theorem spares_freeFrame (frame : Frame) :
    Spares (freeFrame frame : Operation layout FatalError Unit) :=
  spares_onPool _

theorem spares_mapFrame (frame : Frame) (addr : LinearAddr) (writable : Bool) :
    Spares (mapFrame frame addr writable : Operation layout MemoryError Unit) :=
  fun kills => Keeps.mapFrame (spares_allocateFrame kills) (fun _ _ => spares_setEntry _ _ kills)
    (fun _ => spares_say _ kills) frame addr writable

theorem spares_mapDownward (slots : List (Option Frame)) (above : LinearAddr) :
    Spares (mapDownward slots above : Operation layout MemoryError Unit) :=
  fun kills => Keeps.mapDownward (spares_allocateFrame kills) (fun _ _ => spares_setEntry _ _ kills)
    (fun _ => spares_say _ kills) slots above

theorem spares_installArguments (pages : Vector (Option Frame) argumentPages) (top : LinearAddr) :
    Spares (installArguments pages top : Operation layout MemoryError Unit) :=
  fun kills => (spares_mapDownward _ top kills).thenFlush fun _ before => before

theorem spares_release (start : LinearAddr) (size : Nat) :
    Spares (release start size : Operation layout FatalError Unit) :=
  fun kills => Keeps.release (fun slot => spares_setEntry slot .empty kills)
    (fun frame => spares_freeFrame frame kills) (fun _ before => before) start size

theorem spares_duplicate (source target : LinearAddr) (size : Nat) :
    Spares (duplicate source target size : Operation layout MemoryError Unit) := by
  intro kills
  have rounds (entries source target : Nat) :
      Keeps (@Killed layout kills) (duplicateBlock entries source target) :=
    Keeps.duplicateBlock (fun slot entry => spares_setEntry slot entry kills)
      (fun _ => spares_onPool _ kills) (spares_allocateFrame kills) entries source target
  exact (Keeps.ask _).orFatal.bind fun _ =>
    (Keeps.forM fun block _ => rounds _ _ _).thenFlush fun _ before => before

theorem spares_fork (parent child : LinearAddr) (limit : Nat) :
    Spares (fork parent child limit : Operation layout MemoryError Unit) := by
  intro kills
  rw [fork]
  refine (spares_duplicate parent child limit kills).attempt.bind fun result => ?_
  cases result with
  | ok _ => exact Keeps.pure _
  | error error =>
      cases error with
      | outOfMemory => exact (spares_release child limit kills).orFatal.bind fun _ => Keeps.throw _
      | fatal error => exact Keeps.throw _

end Spared

theorem reports_giveUp (addr : LinearAddr) (failure : ε → Nat) :
    Reports 0 Resolution.kills failure (giveUp addr : Operation layout ε Resolution) :=
  fun _ => rfl

theorem reports_replace (slot : Slot) (entry : Entry) {change : FaultStats → FaultStats}
    {resolution : Resolution} (same : ∀ faults, (change faults).killed = faults.killed)
    (spared : resolution.kills = 0) : Reports 0 Resolution.kills (fun _ => 0) (do
      setEntry slot entry
      flush
      count change
      return resolution : Operation layout FatalError Resolution) :=
  (spares_setEntry slot entry).bind fun _ => spares_flush.bind fun _ =>
    (spares_count same).bind fun _ => Reports.pure spared

theorem reports_makeExclusive (slot : Slot) (addr : LinearAddr) :
    Reports 0 Resolution.kills (fun _ => 0)
      (makeExclusive slot addr : Operation layout FatalError Resolution) := by
  rw [makeExclusive]
  refine Spares.bind (fun _ => Keeps.ask _) fun entry =>
    Spares.bind (fun _ => Keeps.get) fun m => ?_
  by_cases alone : (!layout.isReserved entry.frame && m.pool.count? entry.frame == some 1) = true
  · simp only [alone, if_true]
    exact reports_replace slot _ (fun _ => rfl) rfl
  · simp only [alone]
    refine spares_allocateFrame.bind fun taken => ?_
    cases taken with
    | none => exact reports_giveUp addr _
    | some copy =>
        refine (spares_onMemory _).bind fun _ => ?_
        cases layout.isReserved entry.frame with
        | true => exact reports_replace slot _ (fun _ => rfl) rfl
        | false =>
            exact (spares_freeFrame _).bind fun _ => reports_replace slot _ (fun _ => rfl) rfl

theorem reports_resolveWriteProtect (addr : LinearAddr) :
    Reports 0 Resolution.kills (fun _ => 0)
      (resolveWriteProtect addr : Operation layout FatalError Resolution) := by
  rw [resolveWriteProtect]
  refine Spares.bind (spares_count fun _ => rfl) fun _ =>
    Spares.bind (fun _ => Keeps.ask _) fun found => ?_
  cases found with
  | none => exact Reports.throw rfl
  | some slot =>
      refine Spares.bind (fun _ => Keeps.ask _) fun entry => ?_
      cases entry.isPresent with
      | true => exact reports_makeExclusive slot addr
      | false => exact Reports.throw rfl

theorem reports_resolveNoPage (addr : LinearAddr) :
    Reports 0 Resolution.kills (fun _ => 0)
      (resolveNoPage addr : Operation layout FatalError Resolution) := by
  rw [resolveNoPage]
  refine Spares.bind (spares_count fun _ => rfl) fun _ =>
    spares_allocateFrame.bind fun taken => ?_
  cases taken with
  | none => exact reports_giveUp addr _
  | some frame =>
      refine Spares.bind (fun kills => (spares_mapFrame frame _ true kills).attempt)
        fun result => ?_
      cases result with
      | ok _ =>
          exact spares_flush.bind fun _ =>
            Spares.bind (spares_count fun _ => rfl) fun _ => Reports.pure rfl
      | error error =>
          cases error with
          | outOfMemory => exact (spares_freeFrame frame).bind fun _ => reports_giveUp addr _
          | fatal error => exact Reports.throw rfl

theorem reports_resolveFault (code : FaultCode) (addr : LinearAddr) :
    Reports 0 Resolution.kills (fun _ => 0)
      (resolveFault code addr : Operation layout FatalError Resolution) := by
  rw [resolveFault]
  cases code.present with
  | true => exact reports_resolveWriteProtect addr
  | false => exact reports_resolveNoPage addr

def verifiedKills : Option Resolution → Nat
  | some resolution => resolution.kills
  | none => 0

theorem reports_verifyWrite (addr : LinearAddr) :
    Reports 0 verifiedKills (fun _ => 0)
      (verifyWrite addr : Operation layout FatalError (Option Resolution)) := by
  rw [verifyWrite]
  refine Spares.bind (fun _ => Keeps.ask _) fun found => ?_
  cases found with
  | none => exact Reports.pure rfl
  | some slot =>
      refine Spares.bind (fun _ => Keeps.ask _) fun entry => ?_
      cases entry.isPresent && !entry.isWritable with
      | true =>
          exact (reports_makeExclusive slot addr).bind fun resolution => Reports.pure rfl
      | false => exact Reports.pure rfl

section Access

theorem reports_harmless {answer : α → Nat} {operation : Operation layout FatalError α}
    (reports : Reports 0 answer (fun _ => 0) operation) :
    Reports 0 answer AccessError.kills (orFatal operation) :=
  reports.orFatal fun _ => rfl

theorem reports_ask (question : Manager layout → Except FatalError α) :
    Reports 0 (fun _ => 0) AccessError.kills (orFatal (ask question)) :=
  reports_harmless (Spares.reports fun _ => Keeps.ask question)

theorem reports_verifyPage (page : LinearAddr) :
    Reports 0 (fun _ => 0) AccessError.kills
      (verifyPage page : Operation layout AccessError Unit) := by
  rw [verifyPage]
  refine (reports_harmless (reports_verifyWrite page)).bind fun result => ?_
  cases result with
  | none => exact Reports.pure rfl
  | some resolution =>
      cases resolution with
      | killed => exact Reports.throw rfl
      | restored | copied | zeroFilled => exact Reports.pure rfl

theorem reports_verifyArea (addr : LinearAddr) (size : Nat) :
    Reports 0 (fun _ => 0) AccessError.kills
      (verifyArea addr size : Operation layout AccessError Unit) :=
  Reports.forM fun page _ => reports_verifyPage page

theorem reports_survive (resolution : Resolution) :
    Reports resolution.kills (fun _ => 0) AccessError.kills
      (survive resolution : Operation layout AccessError Unit) := by
  rw [survive]
  cases resolution with
  | killed => exact Reports.throw rfl
  | restored | copied | zeroFilled => exact Reports.pure rfl

theorem reports_mappedEntry (addr : LinearAddr) :
    Reports 0 (fun _ => 0) AccessError.kills
      (orFatal (mappedEntry addr) : Operation layout AccessError Entry) := by
  refine reports_harmless ?_
  rw [mappedEntry]
  refine Spares.bind (fun _ => Keeps.ask _) fun found => ?_
  cases found with
  | none => exact Reports.throw rfl
  | some entry => exact Reports.pure rfl

theorem reports_presentEntry (addr : LinearAddr) :
    Reports 0 (fun _ => 0) AccessError.kills
      (presentEntry addr : Operation layout AccessError Entry) := by
  rw [presentEntry]
  refine (reports_ask _).bind fun found => ?_
  cases found with
  | none =>
      exact (reports_harmless (reports_resolveNoPage addr)).bind fun resolution =>
        (reports_survive resolution).bind fun _ => reports_mappedEntry addr
  | some entry => exact Reports.pure rfl

theorem reports_backingFrame (addr : LinearAddr) (mode : AccessMode) :
    Reports 0 (fun _ => 0) AccessError.kills
      (backingFrame addr mode : Operation layout AccessError Frame) := by
  rw [backingFrame]
  refine (reports_presentEntry addr).bind fun entry => ?_
  by_cases stop : (mode = .userWrite && !entry.isWritable) = true
  · rw [if_pos stop]
    exact (reports_harmless (reports_resolveWriteProtect addr)).bind fun resolution =>
      (reports_survive resolution).bind fun _ =>
        (reports_mappedEntry addr).bind fun entry => Reports.pure rfl
  · rw [if_neg stop]
    exact Reports.pure rfl

theorem reports_storeUser (mode : AccessMode) (addr : LinearAddr) (data : List UInt8) :
    Reports 0 (fun _ => 0) AccessError.kills
      (storeUser mode addr data : Operation layout AccessError Unit) := by
  induction length : data.length using Nat.strongRecOn generalizing addr data with
  | ind length ih =>
    by_cases empty : data.length = 0
    · rw [List.length_eq_zero_iff.mp empty, storeUser_nil]
      exact Reports.pure rfl
    · have positive := firstChunk_pos addr empty
      rw [storeUser_of_ne_zero mode addr empty]
      refine (reports_backingFrame addr mode).bind fun frame =>
        (reports_harmless (spares_onMemory _).reports).bind fun _ => ih _ ?_ _ _ rfl
      rw [List.length_drop]
      omega

theorem reports_copyToUser (addr : LinearAddr) (data : List UInt8) :
    Reports 0 (fun _ => 0) AccessError.kills
      (copyToUser addr data : Operation layout AccessError Unit) := by
  rw [copyToUser]
  cases data.isEmpty with
  | true => exact Reports.pure rfl
  | false =>
      exact (reports_verifyArea addr _).bind fun _ => reports_storeUser .kernelWrite addr data

end Access

end Manager

end PagedMemory

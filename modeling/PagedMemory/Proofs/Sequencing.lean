import PagedMemory.Manager

/-!
How an operation runs when the outcome of its parts is known. A loop is described by what holds
after its first `n` rounds (`forM_cases`). What all parts of an operation keep, whatever the
outcome, holds of the manager that it leaves behind (`Keeps`). Parts that run alike from related
managers make an operation that does (`Alike`).
-/

namespace PagedMemory.Operation

variable {layout : Layout} {ε δ α β : Type} {m m' : Manager layout}

theorem bind_ok {operation : Operation layout ε α} {next : α → Operation layout ε β} {value : α}
    (run : operation m = .ok value m') : (operation >>= next) m = next value m' := by
  change EStateM.bind operation next m = _
  simp only [EStateM.bind, run]

theorem bind_error {operation : Operation layout ε α} {next : α → Operation layout ε β} {error : ε}
    (run : operation m = .error error m') : (operation >>= next) m = .error error m' := by
  change EStateM.bind operation next m = _
  simp only [EStateM.bind, run]

theorem get_run (m : Manager layout) :
    (get : Operation layout ε (Manager layout)) m = .ok m m := rfl

theorem attempt_ok {operation : Operation layout ε α} {value : α}
    (run : operation m = .ok value m') :
    (attempt operation : Operation layout δ (Except ε α)) m = .ok (.ok value) m' := by
  simp only [attempt, run]

theorem attempt_error {operation : Operation layout ε α} {error : ε}
    (run : operation m = .error error m') :
    (attempt operation : Operation layout δ (Except ε α)) m = .ok (.error error) m' := by
  simp only [attempt, run]

theorem orFatal_ok [OfFatal ε] {operation : Operation layout FatalError α} {value : α}
    (run : operation m = .ok value m') :
    (orFatal operation : Operation layout ε α) m = .ok value m' := by
  change EStateM.adaptExcept OfFatal.ofFatal operation m = _
  simp only [EStateM.adaptExcept, run]

theorem orFatal_error [OfFatal ε] {operation : Operation layout FatalError α} {error : FatalError}
    (run : operation m = .error error m') :
    (orFatal operation : Operation layout ε α) m = .error (OfFatal.ofFatal error) m' := by
  change EStateM.adaptExcept OfFatal.ofFatal operation m = _
  simp only [EStateM.adaptExcept, run]

theorem ask_ok {question : Manager layout → Except ε α} {value : α}
    (answer : question m = .ok value) : ask question m = .ok value m := by
  simp only [ask, answer]

theorem ask_error {question : Manager layout → Except ε α} {error : ε}
    (answer : question m = .error error) : ask question m = .error error m := by
  simp only [ask, answer]

theorem onPool_ok {change : FramePool.Change layout ε α} {value : α} {pool : FramePool layout}
    (run : change m.pool = .ok value pool) :
    onPool change m = .ok value { m with pool := pool } := by
  simp only [onPool, run]

theorem onPool_error {change : FramePool.Change layout ε α} {error : ε} {pool : FramePool layout}
    (run : change m.pool = .error error pool) :
    onPool change m = .error error { m with pool := pool } := by
  simp only [onPool, run]

theorem onMemory_ok {access : PhysicalMemory.Access layout.totalFrames α} {value : α}
    {memory : PhysicalMemory layout.totalFrames} (run : access m.memory = .ok value memory) :
    onMemory access m = .ok value { m with memory := memory } := by
  simp only [onMemory, run]

theorem thenFlush_ok {operation : Operation layout ε α} {value : α}
    (run : operation m = .ok value m') :
    Manager.thenFlush operation m = .ok value m'.flushed := by
  simp only [Manager.thenFlush, run]

theorem thenFlush_error {operation : Operation layout ε α} {error : ε}
    (run : operation m = .error error m') :
    Manager.thenFlush operation m = .error error m'.flushed := by
  simp only [Manager.thenFlush, run]

theorem forM_cases (act : α → Operation layout ε Unit) (after : Nat → Manager layout → Prop)
    (failed : Nat → ε → Manager layout → Prop) (xs : List α)
    (round : ∀ n (inside : n < xs.length) m, after n m →
      (∃ m', act xs[n] m = .ok () m' ∧ after (n + 1) m') ∨
        ∃ error m', act xs[n] m = .error error m' ∧ failed n error m')
    (m : Manager layout) (start : after 0 m) :
    (∃ m', xs.forM act m = .ok () m' ∧ after xs.length m') ∨
      ∃ n error m', n < xs.length ∧ xs.forM act m = .error error m' ∧ failed n error m' := by
  induction xs generalizing m after failed with
  | nil => exact Or.inl ⟨m, rfl, start⟩
  | cons x xs ih =>
      rcases round 0 (Nat.zero_lt_succ _) m start with ⟨m₁, run, kept⟩ | ⟨error, m₁, run, stopped⟩
      · have first : act x m = .ok () m₁ := run
        have rest := ih (fun n => after (n + 1)) (fun n => failed (n + 1))
          (fun n inside => round (n + 1) (Nat.succ_lt_succ inside)) m₁ kept
        rcases rest with ⟨m₂, done, last⟩ | ⟨n, error, m₂, inside, stopped, why⟩
        · exact Or.inl ⟨m₂, (bind_ok first).trans done, last⟩
        · exact Or.inr ⟨n + 1, error, m₂, Nat.succ_lt_succ inside, (bind_ok first).trans stopped,
            why⟩
      · have first : act x m = .error error m₁ := run
        exact Or.inr ⟨0, error, m₁, Nat.zero_lt_succ _, bind_error first, stopped⟩

theorem forM_ok (act : α → Operation layout ε Unit) (after : Nat → Manager layout → Prop)
    (xs : List α)
    (round : ∀ n (inside : n < xs.length) m, after n m →
      ∃ m', act xs[n] m = .ok () m' ∧ after (n + 1) m')
    (m : Manager layout) (start : after 0 m) :
    ∃ m', xs.forM act m = .ok () m' ∧ after xs.length m' := by
  have ends := forM_cases act after (fun _ _ _ => False) xs
    (fun n inside m kept => Or.inl (round n inside m kept)) m start
  rcases ends with done | ⟨_, _, _, _, _, impossible⟩
  · exact done
  · exact impossible.elim

theorem exists_of_bind_ok {operation : Operation layout ε α} {next : α → Operation layout ε β}
    {value : β} (run : (operation >>= next) m = .ok value m') :
    ∃ first m₁, operation m = .ok first m₁ ∧ next first m₁ = .ok value m' := by
  cases begun : operation m with
  | ok first m₁ =>
      rw [bind_ok begun] at run
      exact ⟨first, m₁, rfl, run⟩
  | error error m₁ =>
      rw [bind_error begun] at run
      cases run

theorem of_orFatal_ok [OfFatal ε] {operation : Operation layout FatalError α} {value : α}
    (run : (orFatal operation : Operation layout ε α) m = .ok value m') :
    operation m = .ok value m' := by
  cases begun : operation m with
  | ok first m₁ =>
      rw [orFatal_ok begun] at run
      cases run
      rfl
  | error error m₁ =>
      rw [orFatal_error begun] at run
      cases run

def success? (operation : Operation layout ε α) (m : Manager layout) : Option (Manager layout) :=
  match operation m with
  | .ok _ m => some m
  | .error _ _ => none

theorem exists_of_observed {operation : Operation layout ε Unit} (observe : Manager layout → β)
    {value : β} (observed : (operation.success? m).map observe = some value) :
    ∃ m', operation m = .ok () m' ∧ observe m' = value := by
  rw [success?] at observed
  cases run : operation m with
  | ok _ m' =>
      rw [run] at observed
      exact ⟨m', rfl, Option.some.inj observed⟩
  | error error m' =>
      rw [run] at observed
      cases observed

theorem forM_invariant {act : α → Operation layout ε Unit} {xs : List α}
    (after : Nat → Manager layout → Prop)
    (round : ∀ n (inside : n < xs.length) m m', after n m → act xs[n] m = .ok () m' →
      after (n + 1) m') (start : after 0 m) (run : xs.forM act m = .ok () m') :
    after xs.length m' := by
  induction xs generalizing m after with
  | nil =>
      cases run
      exact start
  | cons x xs ih =>
      have split : (act x >>= fun _ => xs.forM act) m = .ok () m' := run
      obtain ⟨_, m₁, first, rest⟩ := exists_of_bind_ok split
      have next := round 0 (Nat.zero_lt_succ _) m m₁ start first
      exact ih (fun n => after (n + 1)) (fun n inside => round (n + 1) (Nat.succ_lt_succ inside))
        next rest

theorem after_of_error {operation : Operation layout ε α} {error : ε}
    (run : operation m = .error error m') : operation.after m = m' := by
  simp only [after, run]

theorem after_bind {operation : Operation layout ε α} {next : α → Operation layout ε β}
    {value : α} (run : operation m = .ok value m') :
    (operation >>= next).after m = (next value).after m' := by
  rw [after, bind_ok run]
  rfl

theorem after_thenFlush (operation : Operation layout ε α) (m : Manager layout) :
    (Manager.thenFlush operation).after m = (operation.after m).flushed := by
  cases run : operation m with
  | ok value m' => rw [after_of_ok run, after_of_ok (thenFlush_ok run)]
  | error error m' => rw [after_of_error run, after_of_error (thenFlush_error run)]

theorem after_attempt (operation : Operation layout ε α) (m : Manager layout) :
    (attempt operation : Operation layout δ (Except ε α)).after m = operation.after m := by
  cases run : operation m with
  | ok value m' => rw [after_of_ok run, after_of_ok (attempt_ok run)]
  | error error m' => rw [after_of_error run, after_of_ok (attempt_error run)]

theorem after_orFatal [OfFatal ε] (operation : Operation layout FatalError α)
    (m : Manager layout) :
    (orFatal operation : Operation layout ε α).after m = operation.after m := by
  cases run : operation m with
  | ok value m' => rw [after_of_ok run, after_of_ok (orFatal_ok run)]
  | error error m' => rw [after_of_error run, after_of_error (orFatal_error run)]

/-- Where `good` held before the operation it holds of what the operation leaves behind. -/
def Keeps (good : Manager layout → Prop) (operation : Operation layout ε α) : Prop :=
  ∀ m, good m → good (operation.after m)

variable {good : Manager layout → Prop}

theorem Keeps.pure (value : α) : Keeps good (pure value : Operation layout ε α) :=
  fun _ before => before

theorem Keeps.ask (question : Manager layout → Except ε α) : Keeps good (ask question) := by
  intro m before
  cases answer : question m with
  | ok value => rwa [after_of_ok (ask_ok answer)]
  | error error => rwa [after_of_error (ask_error answer)]

theorem Keeps.throw (error : ε) : Keeps good (throw error : Operation layout ε α) :=
  fun _ before => before

theorem Keeps.get : Keeps good (get : Operation layout ε (Manager layout)) :=
  fun _ before => before

theorem Keeps.attempt {operation : Operation layout ε α} (keeps : Keeps good operation) :
    Keeps good (attempt operation : Operation layout δ (Except ε α)) := by
  intro m before
  rw [after_attempt]
  exact keeps m before

theorem Keeps.orFatal [OfFatal ε] {operation : Operation layout FatalError α}
    (keeps : Keeps good operation) : Keeps good (orFatal operation : Operation layout ε α) := by
  intro m before
  rw [after_orFatal]
  exact keeps m before

theorem Keeps.after_bind {operation : Operation layout ε α} {next : α → Operation layout ε β}
    (rest : ∀ value, Keeps good (next value)) (first : good (operation.after m)) :
    good ((operation >>= next).after m) := by
  cases run : operation m with
  | ok value m' =>
      rw [Operation.after_bind run]
      rw [after_of_ok run] at first
      exact rest value m' first
  | error error m' =>
      rw [after_of_error (bind_error run)]
      rwa [after_of_error run] at first

theorem Keeps.bind {operation : Operation layout ε α} {next : α → Operation layout ε β}
    (first : Keeps good operation) (rest : ∀ value, Keeps good (next value)) :
    Keeps good (operation >>= next) :=
  fun m before => Keeps.after_bind rest (first m before)

theorem Keeps.forM {act : α → Operation layout ε Unit} {xs : List α}
    (each : ∀ x ∈ xs, Keeps good (act x)) : Keeps good (xs.forM act) := by
  induction xs with
  | nil => exact Keeps.pure ()
  | cons x xs ih =>
      have rest := ih fun y member => each y (List.mem_cons_of_mem x member)
      exact (each x List.mem_cons_self).bind fun _ => rest

theorem Keeps.thenFlush {operation : Operation layout ε α} (keeps : Keeps good operation)
    (flushes : ∀ m, good m → good m.flushed) : Keeps good (Manager.thenFlush operation) := by
  intro m before
  rw [after_thenFlush]
  exact flushes _ (keeps m before)

section Parts

variable (good)

theorem keeps_onPool (change : FramePool.Change layout ε α)
    (same : ∀ m pool, good m → good { m with pool := pool }) : Keeps good (onPool change) := by
  intro m before
  simp only [after, onPool]
  cases change m.pool <;> exact same m _ before

theorem keeps_onMemory (access : PhysicalMemory.Access layout.totalFrames α)
    (same : ∀ m memory, good m → good { m with memory := memory }) :
    Keeps good (onMemory access) := by
  intro m before
  simp only [after, onMemory]
  cases access m.memory <;> exact same m _ before

theorem keeps_onConsole (output : EStateM ε Console α)
    (same : ∀ m console, good m → good { m with console := console }) :
    Keeps good (onConsole output : Operation layout ε α) := by
  intro m before
  simp only [after, onConsole]
  cases output m.console <;> exact same m _ before

theorem keeps_setEntry (slot : Slot) (entry : Entry)
    (same : ∀ m memory stale, good m → good { m with memory := memory, tlbStale := stale }) :
    Keeps good (Manager.setEntry slot entry) :=
  (keeps_onMemory good _ fun m memory => same m memory m.tlbStale).bind fun _ m before =>
    same m m.memory true before

end Parts

/-- Both runs have the same outcome, and the managers that they leave behind are related. -/
def Alike (related : Manager layout → Manager layout → Prop) :
    EStateM.Result ε (Manager layout) α → EStateM.Result ε (Manager layout) α → Prop
  | .ok value m, .ok value' m' => value = value' ∧ related m m'
  | .error error m, .error error' m' => error = error' ∧ related m m'
  | _, _ => False

variable {related : Manager layout → Manager layout → Prop}

theorem Alike.cases {first second : EStateM.Result ε (Manager layout) α}
    (alike : Alike related first second) :
    (∃ value m m', first = .ok value m ∧ second = .ok value m' ∧ related m m') ∨
      ∃ error m m', first = .error error m ∧ second = .error error m' ∧ related m m' := by
  match first, second, alike with
  | .ok value m, .ok _ m', ⟨rfl, both⟩ => exact Or.inl ⟨value, m, m', rfl, rfl, both⟩
  | .error error m, .error _ m', ⟨rfl, both⟩ => exact Or.inr ⟨error, m, m', rfl, rfl, both⟩

theorem Alike.exists_ok {first second : EStateM.Result ε (Manager layout) α} {value : α}
    (alike : Alike related first second) (run : first = .ok value m) :
    ∃ m', second = .ok value m' ∧ related m m' := by
  rcases alike.cases with ⟨_, _, m', run', run'', both⟩ | ⟨_, _, _, run', -, -⟩
  · cases run.symm.trans run'
    exact ⟨m', run'', both⟩
  · cases run.symm.trans run'

theorem Alike.bind {operation : Operation layout ε α} {next : α → Operation layout ε β}
    (first : Alike related (operation m) (operation m'))
    (rest : ∀ value m₁ m₁', operation m = .ok value m₁ → operation m' = .ok value m₁' →
      related m₁ m₁' → Alike related (next value m₁) (next value m₁')) :
    Alike related ((operation >>= next) m) ((operation >>= next) m') := by
  rcases first.cases with ⟨value, m₁, m₁', run, run', both⟩ | ⟨error, m₁, m₁', run, run', both⟩
  · rw [bind_ok run, bind_ok run']
    exact rest value m₁ m₁' run run' both
  · rw [bind_error run, bind_error run']
    exact ⟨rfl, both⟩

theorem Alike.orFatal [OfFatal ε] {operation : Operation layout FatalError α}
    (alike : Alike related (operation m) (operation m')) :
    Alike related ((orFatal operation : Operation layout ε α) m) (orFatal operation m') := by
  rcases alike.cases with ⟨value, m₁, m₁', run, run', both⟩ | ⟨error, m₁, m₁', run, run', both⟩
  · rw [orFatal_ok run, orFatal_ok run']
    exact ⟨rfl, both⟩
  · rw [orFatal_error run, orFatal_error run']
    exact ⟨rfl, both⟩

theorem Alike.attempt {operation : Operation layout ε α}
    (alike : Alike related (operation m) (operation m')) :
    Alike related ((attempt operation : Operation layout δ (Except ε α)) m)
      (attempt operation m') := by
  rcases alike.cases with ⟨value, m₁, m₁', run, run', both⟩ | ⟨error, m₁, m₁', run, run', both⟩
  · rw [attempt_ok run, attempt_ok run']
    exact ⟨rfl, both⟩
  · rw [attempt_error run, attempt_error run']
    exact ⟨rfl, both⟩

theorem Alike.ask {question : Manager layout → Except ε α} (both : related m m')
    (same : question m = question m') :
    Alike related (ask question m) (ask question m') := by
  cases answer : question m' with
  | ok value =>
      rw [ask_ok (same.trans answer), ask_ok answer]
      exact ⟨rfl, both⟩
  | error error =>
      rw [ask_error (same.trans answer), ask_error answer]
      exact ⟨rfl, both⟩

end PagedMemory.Operation

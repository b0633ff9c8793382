import PagedMemory.Proofs.Primitives
import PagedMemory.Space.Mapping

/-!
Mapping a frame that the caller holds. It fails only without a table, and without a frame for one,
or on a page that is mapped already; otherwise the page shows the frame and nothing else changes.
-/

namespace PagedMemory

namespace Operation

open Manager

variable {layout : Layout} {good : Manager layout → Prop}

section Steps

variable (takes : Keeps good (allocateFrame : Operation layout MemoryError (Option Frame)))
  (writes : ∀ slot entry, Keeps good (setEntry slot entry))
  (speaks : ∀ text, Keeps good (say text : Operation layout MemoryError Unit))

include takes writes in
theorem Keeps.tableFor (block : Nat) : Keeps good (tableFor block) := by
  rw [Manager.tableFor]
  refine (Keeps.ask _).orFatal.bind fun link => ?_
  cases link.isPresent with
  | true => exact Keeps.pure _
  | false =>
      refine takes.bind fun taken => ?_
      cases taken with
      | none => exact Keeps.throw _
      | some table => exact (writes _ _).orFatal.bind fun _ => Keeps.pure _

include speaks in
theorem Keeps.remarkOnCount (frame : Frame) (addr : LinearAddr) :
    Keeps good (remarkOnCount frame addr : Operation layout MemoryError Unit) := by
  refine Keeps.get.bind fun m => ?_
  match m.pool.count? frame with
  | some 1 => exact Keeps.pure _
  | none | some 0 | some (_ + 2) => exact speaks _

include takes writes speaks

theorem Keeps.mapFrame (frame : Frame) (addr : LinearAddr) (writable : Bool) :
    Keeps good (mapFrame frame addr writable) := by
  rw [Manager.mapFrame]
  refine (Keeps.ask _).orFatal.bind fun _ => (Keeps.remarkOnCount speaks frame addr).bind fun _ =>
    (Keeps.tableFor takes writes _).bind fun table => (Keeps.ask _).orFatal.bind fun entry => ?_
  cases entry.isPresent with
  | true => exact Keeps.throw _
  | false => exact (writes _ _).orFatal

theorem Keeps.mapDownward (slots : List (Option Frame)) (above : LinearAddr) :
    Keeps good (mapDownward slots above) := by
  induction slots generalizing above with
  | nil => exact Keeps.pure _
  | cons slot slots ih =>
      cases slot with
      | none => exact ih above.pageBelow
      | some frame =>
          exact (Keeps.mapFrame takes writes speaks frame _ true).bind fun _ => ih above.pageBelow

end Steps

end Operation

namespace Manager

variable {layout : Layout} {ε : Type} {m m' : Manager layout} {held : Finset Frame}

open Operation

theorem exists_remarkOnCount (frame : Frame) (addr : LinearAddr) (m : Manager layout) :
    ∃ console, (remarkOnCount frame addr : Operation layout ε Unit) m =
      .ok () { m with console := console } := by
  rw [remarkOnCount, bind_ok (get_run m)]
  rcases m.pool.count? frame with _ | _ | _ | more
  · exact ⟨_, rfl⟩
  · exact ⟨_, rfl⟩
  · exact ⟨m.console, rfl⟩
  · exact ⟨_, rfl⟩

/-- The page at `place` maps `frame` now, which was the caller's. -/
structure Mapped (m m' : Manager layout) (held : Finset Frame) (place : Nat × Nat) (frame : Frame)
    (writable : Bool) : Prop where
  sound : m'.Sound (held.erase frame)
  absent : (m.memory.leaf place).isPresent = false
  link : m'.memory.link = m.memory.link ∨ (m.memory.link place.1).isPresent = false ∧
    ∃ table, layout.IsPooled table ∧ m.pool.count table = 0 ∧
      m'.memory.link = Function.update m.memory.link place.1 (Entry.new table .userWritable)
  free : ∀ frame, m'.pool.count frame = 0 → m.pool.count frame = 0
  leaf : m'.memory.leaf =
    Function.update m.memory.leaf place (Entry.new frame ⟨true, writable, true⟩)
  seen : ∀ other ∈ layout.taskPlaces, m'.memory.seen other =
    Function.update m.memory.seen place (m.memory.page frame) other

theorem Mapped.grown {place : Nat × Nat} {frame : Frame} {writable : Bool}
    (mapped : Mapped m m' held place frame writable) : m.Grown m' :=
  Grown.of_update mapped.link mapped.free

theorem Linked.exists_map {m₁ : Manager layout} {place : Nat × Nat} {frame : Frame}
    (linked : Linked m m₁ held place.1) (inside : place ∈ layout.taskPlaces)
    (absent : (m.memory.leaf place).isPresent = false) (holds : frame ∈ held) (writable : Bool) :
    ∃ m', setEntry ⟨(m₁.memory.link place.1).frame, place.2⟩
        (Entry.new frame ⟨true, writable, true⟩) m₁ = .ok () m' ∧
      Mapped m m' held place frame writable ∧ m'.memory.link = m₁.memory.link ∧
      m'.pool = m₁.pool := by
  have sound := linked.sound
  have task := (sound.balanced.owned frame holds).1
  have leads : (Entry.new frame ⟨true, writable, true⟩).frame = frame :=
    Entry.frame_new_of_lt task.2 _
  have present : (Entry.new frame ⟨true, writable, true⟩).isPresent = true :=
    Entry.isPresent_new _ _
  have apart : (Entry.new frame ⟨true, writable, true⟩).frame ≠
      (m₁.memory.link place.1).frame := by
    rw [leads]
    exact sound.balanced.held_ne_link (Layout.mem_taskPlaces.mp inside).1 linked.present holds
  have absent' : (m₁.memory.leaf place).isPresent = false := by
    rw [linked.leaf]
    exact absent
  have books := sound.balanced.setLeaf inside absent' present (leads.symm ▸ holds)
  rw [leads] at books
  have links := sound.link_setLeaf place linked.present
    (Entry.new frame ⟨true, writable, true⟩)
  refine ⟨_, setEntry_leaf m₁ place _ (sound.link_inside linked.present),
    ⟨sound.setLeaf inside linked.present _ books, absent, ?_, linked.free, ?_, ?_⟩, links, rfl⟩
  · rcases linked.link with same | ⟨none, table, pooled, unused, link⟩
    · exact Or.inl (links.trans same)
    · exact Or.inr ⟨none, table, pooled, unused, links.trans link⟩
  · rw [← linked.leaf]
    exact sound.leaf_setLeaf inside linked.present _
  · intro other member
    have shows := sound.seen_setLeaf inside linked.present _ (fun _ => apart) member
    rw [if_pos present, leads, linked.pages frame holds] at shows
    refine shows.trans ?_
    by_cases same : other = place
    · rw [same, Function.update_self, Function.update_self]
    · rw [Function.update_of_ne same, Function.update_of_ne same, linked.seen other member]

theorem exists_mapFrame_eq {frame : Frame} (inside : frame.number < layout.totalFrames)
    (addr : LinearAddr) (writable : Bool) (m : Manager layout) :
    ∃ console, mapFrame frame addr writable m = (do
      let table ← tableFor addr.dirIndex
      let entry ← orFatal (ask (·.entryAt ⟨table, addr.tableIndex⟩))
      if entry.isPresent then
        throw (.fatal (.alreadyMapped addr))
      else
        orFatal (setEntry ⟨table, addr.tableIndex⟩ (Entry.new frame ⟨true, writable, true⟩)) :
      Operation layout MemoryError Unit) { m with console := console } := by
  have required : (orFatal (ask fun _ => PhysicalMemory.require layout.totalFrames frame) :
      Operation layout MemoryError Unit) m = .ok () m :=
    orFatal_ok (ask_ok (PhysicalMemory.require_of_lt inside))
  obtain ⟨console, remark⟩ := exists_remarkOnCount (ε := MemoryError) frame addr m
  refine ⟨console, ?_⟩
  rw [mapFrame, bind_ok required, bind_ok remark]

theorem Sound.mapFrame_of_present (sound : m.Sound held) {frame : Frame}
    (exists' : frame.number < layout.totalFrames) {addr : LinearAddr}
    (present : (m.memory.leaf addr.place).isPresent = true) (writable : Bool) :
    ∃ m', mapFrame frame addr writable m = .error (.fatal (.alreadyMapped addr)) m' ∧
      m'.memory = m.memory ∧ m'.pool = m.pool := by
  obtain ⟨console, begun⟩ := exists_mapFrame_eq exists' addr writable m
  have sound' : ({ m with console := console } : Manager layout).Sound held := sound
  have above := PhysicalMemory.link_present_of_leaf present
  have linked : (({ m with console := console } : Manager layout).memory.link
      addr.dirIndex).isPresent = true := above
  refine ⟨{ m with console := console }, ?_, rfl, rfl⟩
  rw [begun, bind_ok (tableFor_of_present linked),
    bind_ok (orFatal_ok (sound'.leafEntry_run linked)), if_pos present]
  rfl

theorem Sound.mapFrame_cases (sound : m.Sound held) {frame : Frame} (holds : frame ∈ held)
    {addr : LinearAddr} (task : layout.kernelTables ≤ addr.dirIndex) (writable : Bool) :
    ((m.memory.leaf addr.place).isPresent = true ∧
      ∃ m', mapFrame frame addr writable m = .error (.fatal (.alreadyMapped addr)) m' ∧
        m'.memory = m.memory ∧ m'.pool = m.pool) ∨
    ((m.memory.link addr.dirIndex).isPresent = false ∧ m.pool.highestFree = none ∧
      ∃ m', mapFrame frame addr writable m = .error .outOfMemory m' ∧
        m'.memory = m.memory ∧ m'.pool = m.pool) ∨
    ∃ m', mapFrame frame addr writable m = .ok () m' ∧
      Mapped m m' held addr.place frame writable ∧
      TableGiven layout m.memory.link m'.memory.link m.pool.count m'.pool.count addr.dirIndex := by
  have inside := Layout.place_mem_taskPlaces task
  have exists' := (sound.balanced.owned frame holds).1.2
  by_cases present : (m.memory.leaf addr.place).isPresent = true
  · exact Or.inl ⟨present, sound.mapFrame_of_present exists' present writable⟩
  · have absent : (m.memory.leaf addr.place).isPresent = false := Bool.not_eq_true _ ▸ present
    obtain ⟨console, begun⟩ := exists_mapFrame_eq exists' addr writable m
    have sound' : ({ m with console := console } : Manager layout).Sound held := sound
    rcases sound'.tableFor_cases (Layout.mem_taskPlaces.mp inside).1 with
      ⟨none, full, run⟩ | ⟨m₁, run, linked, table⟩
    · have run' : tableFor addr.dirIndex { m with console := console } =
          .error .outOfMemory _ := run
      exact Or.inr (Or.inl ⟨none, full, _, begun.trans (bind_error run'), rfl, rfl⟩)
    · have run' : tableFor addr.dirIndex { m with console := console } =
          .ok (m₁.memory.link addr.dirIndex).frame m₁ := run
      have read : (orFatal (ask (·.entryAt ⟨(m₁.memory.link addr.dirIndex).frame,
          addr.tableIndex⟩)) : Operation layout MemoryError Entry) m₁ =
            .ok (m₁.memory.leaf addr.place) m₁ :=
        orFatal_ok (linked.sound.leafEntry_run linked.present)
      have leaf : m₁.memory.leaf = m.memory.leaf := linked.leaf
      obtain ⟨m₂, write, mapped, links, pool⟩ := linked.exists_map inside absent holds writable
      have kept : ¬ (m₁.memory.leaf addr.place).isPresent = true := by
        rw [leaf]
        exact present
      refine Or.inr (Or.inr ⟨m₂, ?_, { mapped with }, ?_⟩)
      · rw [begun, bind_ok run', bind_ok read, if_neg kept]
        exact orFatal_ok write
      · rw [links, pool]
        exact table

def slotsBelow : List (Option Frame) → LinearAddr → List (Frame × LinearAddr)
  | [], _ => []
  | none :: rest, above => slotsBelow rest above.pageBelow
  | some frame :: rest, above =>
      (frame, above.pageBelow) :: slotsBelow rest above.pageBelow

/-- What is left of the caller's frames when slots have been filled, or filling them has stopped. -/
def leftBy : List (Option Frame) → LinearAddr → Manager layout → Finset Frame → Finset Frame
  | [], _, _, held => held
  | none :: rest, above, m, held => leftBy rest above.pageBelow m held
  | some frame :: rest, above, m, held =>
      match mapFrame frame above.pageBelow true m with
      | .ok _ m' => leftBy rest above.pageBelow m' (held.erase frame)
      | .error _ _ => held

/-- Filling slots stops at `addr`, whose leaf was present when its turn came. -/
def StopsAt (slots : List (Option Frame)) (above : LinearAddr) (m : Manager layout)
    (addr : LinearAddr) : Prop :=
  ∃ before frame after m', slots = before ++ some frame :: after ∧
    mapDownward before above m = .ok () m' ∧
    addr = LinearAddr.pageBelow^[before.length + 1] above ∧
    (m'.memory.leaf addr.place).isPresent = true

theorem StopsAt.skip {slots : List (Option Frame)} {above addr : LinearAddr}
    (stops : StopsAt slots above.pageBelow m addr) : StopsAt (none :: slots) above m addr := by
  obtain ⟨before, frame, after, m', rfl, run, rfl, present⟩ := stops
  exact ⟨none :: before, frame, after, m', rfl, run, rfl, present⟩

theorem StopsAt.fill {slots : List (Option Frame)} {above addr : LinearAddr} {frame : Frame}
    (first : mapFrame frame above.pageBelow true m = .ok () m')
    (stops : StopsAt slots above.pageBelow m' addr) :
    StopsAt (some frame :: slots) above m addr := by
  obtain ⟨before, frame', after, m'', rfl, run, rfl, present⟩ := stops
  exact ⟨some frame :: before, frame', after, m'', rfl, (bind_ok first).trans run, rfl, present⟩

/-- The slots may be filled: with different frames of the caller, at pages of tasks. -/
def Fillable (layout : Layout) (held : Finset Frame) (slots : List (Frame × LinearAddr)) : Prop :=
  (slots.map Prod.fst).Nodup ∧
    ∀ slot ∈ slots, slot.1 ∈ held ∧ layout.kernelTables ≤ slot.2.dirIndex

theorem Fillable.tail {frame : Frame} {addr : LinearAddr} {slots : List (Frame × LinearAddr)}
    (fillable : Fillable layout held ((frame, addr) :: slots)) :
    Fillable layout (held.erase frame) slots := by
  obtain ⟨different, good⟩ := fillable
  obtain ⟨fresh, different'⟩ := List.nodup_cons.mp different
  refine ⟨different', fun slot member => ?_⟩
  obtain ⟨holds, task⟩ := good slot (List.mem_cons_of_mem _ member)
  refine ⟨Finset.mem_erase.mpr ⟨?_, holds⟩, task⟩
  intro same
  have again : slot.1 ∈ slots.map Prod.fst := List.mem_map_of_mem member
  rw [same] at again
  exact fresh again

theorem Sound.mapDownward_cases (sound : m.Sound held) {slots : List (Option Frame)}
    {above : LinearAddr} (fillable : Fillable layout held (slotsBelow slots above)) :
    ((∃ m', mapDownward slots above m = .ok () m' ∧ m'.Sound (leftBy slots above m held)) ∨
      ∃ m', mapDownward slots above m = .error .outOfMemory m' ∧
        m'.Sound (leftBy slots above m held)) ∨
    ∃ addr m', mapDownward slots above m = .error (.fatal (.alreadyMapped addr)) m' ∧
      m'.Sound (leftBy slots above m held) ∧ StopsAt slots above m addr := by
  induction slots generalizing m above held with
  | nil => exact Or.inl (Or.inl ⟨m, rfl, sound⟩)
  | cons slot slots ih =>
      cases slot with
      | none =>
          rcases ih sound fillable with ends | ⟨addr, m', run, sound', stops⟩
          · exact Or.inl ends
          · exact Or.inr ⟨addr, m', run, sound', stops.skip⟩
      | some frame =>
          obtain ⟨holds, task⟩ := fillable.2 _ List.mem_cons_self
          rcases sound.mapFrame_cases holds task true with
            ⟨present, m₁, run, memory, pool⟩ | ⟨-, -, m₁, run, memory, pool⟩ | ⟨m₁, run, mapped, -⟩
          · have left : leftBy (some frame :: slots) above m held = held := by
              rw [leftBy, run]
            refine Or.inr ⟨above.pageBelow, m₁, bind_error run, ?_, ?_⟩
            · rw [left]
              exact sound.of_same memory pool
            · exact ⟨[], frame, slots, m, rfl, rfl, rfl, present⟩
          · have left : leftBy (some frame :: slots) above m held = held := by
              rw [leftBy, run]
            refine Or.inl (Or.inr ⟨m₁, bind_error run, ?_⟩)
            rw [left]
            exact sound.of_same memory pool
          · have left : leftBy (some frame :: slots) above m held =
                leftBy slots above.pageBelow m₁ (held.erase frame) := by
              rw [leftBy, run]
            rw [left]
            rcases ih mapped.sound fillable.tail with
              (⟨m₂, done, sound₂⟩ | ⟨m₂, stop, sound₂⟩) | ⟨addr, m₂, stop, sound₂, stops⟩
            · exact Or.inl (Or.inl ⟨m₂, (bind_ok run).trans done, sound₂⟩)
            · exact Or.inl (Or.inr ⟨m₂, (bind_ok run).trans stop, sound₂⟩)
            · exact Or.inr ⟨addr, m₂, (bind_ok run).trans stop, sound₂, StopsAt.fill run stops⟩

end Manager

end PagedMemory

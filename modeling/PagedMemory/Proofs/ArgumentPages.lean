import PagedMemory.Proofs.Flushing
import PagedMemory.Proofs.Guarantees

/-!
Argument pages. They are mapped from the highest slot down, so wherever the mapping stops, the
slots that are filled are the ones above. `Filled` says what a run of slots has done, by its first
slot and the rest; tables that were made on the way are the only frames whose counts have changed.
-/

namespace PagedMemory

open Manager Operation

namespace LinearAddr

theorem toNat_pageBelow (addr : LinearAddr) :
    addr.pageBelow.toNat = (addr.toNat + addressSpace - pageSize) % addressSpace := by
  have below := addr.toNat_lt
  simp only [pageBelow, toNat, UInt32.toNat_sub, pageSize, addressSpace] at *
  rw [show (UInt32.ofNat 4096).toNat = 4096 from rfl]
  omega

theorem toNat_iterate_pageBelow (addr : LinearAddr) {n : Nat} (few : n ≤ 1048576) :
    (pageBelow^[n] addr).toNat = (addr.toNat + addressSpace - n * pageSize) % addressSpace := by
  induction n with
  | zero =>
      have below := addr.toNat_lt
      rw [Function.iterate_zero_apply, Nat.zero_mul, Nat.sub_zero, Nat.add_mod_right,
        Nat.mod_eq_of_lt below]
  | succ n ih =>
      rw [Function.iterate_succ_apply', toNat_pageBelow, ih (Nat.le_of_succ_le few)]
      simp only [addressSpace, pageSize] at *
      omega

theorem place_iterate_pageBelow_ne (addr : LinearAddr) {n n' : Nat} (few : n < 1048576)
    (few' : n' < 1048576) (apart : n ≠ n') :
    (pageBelow^[n] addr).place ≠ (pageBelow^[n'] addr).place := by
  have below := addr.toNat_lt
  rw [ne_eq, place_eq_iff, toNat_iterate_pageBelow addr (Nat.le_of_lt few),
    toNat_iterate_pageBelow addr (Nat.le_of_lt few')]
  simp only [addressSpace, pageSize] at *
  omega

end LinearAddr

def argumentPage (top : LinearAddr) (i : Nat) : LinearAddr :=
  LinearAddr.ofNat (top.toNat + addressSpace - (argumentPages - i) * pageSize)

theorem argumentPage_eq (top : LinearAddr) (i : Nat) :
    argumentPage top i = LinearAddr.pageBelow^[argumentPages - i] top := by
  apply LinearAddr.ext_toNat
  have few : argumentPages - i ≤ 1048576 := Nat.le_trans (Nat.sub_le _ _) (by decide)
  rw [top.toNat_iterate_pageBelow few, argumentPage, LinearAddr.toNat_ofNat]

theorem argumentPage_place_ne (top : LinearAddr) {i j : Fin argumentPages} (apart : i ≠ j) :
    (argumentPage top i).place ≠ (argumentPage top j).place := by
  have inside := i.isLt
  have inside' := j.isLt
  have differ : argumentPages - i.val ≠ argumentPages - j.val := by
    intro same
    exact apart (Fin.ext (by omega))
  rw [argumentPage_eq, argumentPage_eq]
  exact top.place_iterate_pageBelow_ne
    (Nat.lt_of_le_of_lt (Nat.sub_le _ _) (by decide))
    (Nat.lt_of_le_of_lt (Nat.sub_le _ _) (by decide)) differ

namespace Manager

variable {layout : Layout} {m m₁ m' : Manager layout} {held : Finset Frame}

structure NewTable (m m' : Manager layout) (block : Nat) (table : Frame) : Prop where
  absent : (m.memory.link block).isPresent = false
  link : m'.memory.link block = Entry.new table .userWritable
  free : m.refCount? table = some 0
  counted : m'.refCount? table = some 1

structure TablesAdded (m m' : Manager layout) : Prop where
  link : ∀ block, m'.memory.link block = m.memory.link block ∨ ∃ table, NewTable m m' block table
  count : ∀ frame, m'.refCount? frame = m.refCount? frame ∨ ∃ block, NewTable m m' block frame

theorem TablesAdded.of_same (link : m'.memory.link = m.memory.link) (pool : m'.pool = m.pool) :
    TablesAdded m m' := by
  refine ⟨fun block => Or.inl (congrFun link block), fun frame => Or.inl ?_⟩
  rw [refCount?, refCount?, pool]

theorem NewTable.of_after {block : Nat} {table : Frame} (made : NewTable m₁ m' block table)
    (first : TablesAdded m m₁) : NewTable m m' block table := by
  refine ⟨?_, made.link, ?_, made.counted⟩
  · rcases first.link block with same | ⟨other, made'⟩
    · rw [← same]
      exact made.absent
    · have present := made.absent
      rw [made'.link, Entry.isPresent_new] at present
      cases present
  · rcases first.count table with same | ⟨other, made'⟩
    · rw [← same]
      exact made.free
    · cases made'.counted.symm.trans made.free

theorem NewTable.of_before {block : Nat} {table : Frame} (made : NewTable m m₁ block table)
    (second : TablesAdded m₁ m') : NewTable m m' block table := by
  refine ⟨made.absent, ?_, made.free, ?_⟩
  · rcases second.link block with same | ⟨other, made'⟩
    · rw [same]
      exact made.link
    · have absent := made'.absent
      rw [made.link, Entry.isPresent_new] at absent
      cases absent
  · rcases second.count table with same | ⟨other, made'⟩
    · rw [same]
      exact made.counted
    · cases made.counted.symm.trans made'.free

theorem TablesAdded.trans (first : TablesAdded m m₁) (second : TablesAdded m₁ m') :
    TablesAdded m m' := by
  constructor
  · intro block
    rcases second.link block with same | ⟨table, made⟩
    · rcases first.link block with same' | ⟨table, made⟩
      · exact Or.inl (same.trans same')
      · exact Or.inr ⟨table, made.of_before second⟩
    · exact Or.inr ⟨table, made.of_after first⟩
  · intro frame
    rcases second.count frame with same | ⟨block, made⟩
    · rcases first.count frame with same' | ⟨block, made⟩
      · exact Or.inl (same.trans same')
      · exact Or.inr ⟨block, made.of_before second⟩
    · exact Or.inr ⟨block, made.of_after first⟩

theorem TableGiven.tablesAdded {block : Nat} (given : TableGiven layout m.memory.link
    m'.memory.link m.pool.count m'.pool.count block) : TablesAdded m m' := by
  cases given with
  | kept _ links counts =>
      exact ⟨fun other => Or.inl (congrFun links other),
        fun frame => Or.inl (refCount?_congr (congrFun counts frame))⟩
  | @made table absent task free links counts =>
      have made : NewTable m m' block table := by
        refine ⟨absent, ?_, ?_, ?_⟩
        · rw [links, Function.update_self]
        · rw [refCount?_eq task.pooled, free]
        · rw [refCount?_eq task.pooled, counts, Function.update_self]
      constructor
      · intro other
        by_cases same : other = block
        · rw [same]
          exact Or.inr ⟨table, made⟩
        · rw [links, Function.update_of_ne same]
          exact Or.inl rfl
      · intro frame
        by_cases same : frame = table
        · rw [same]
          exact Or.inr ⟨block, made⟩
        · refine Or.inl (refCount?_congr ?_)
          rw [counts, Function.update_of_ne same]

theorem slotsBelow_append (before after : List (Option Frame)) (above : LinearAddr) :
    slotsBelow (before ++ after) above =
      slotsBelow before above ++ slotsBelow after (LinearAddr.pageBelow^[before.length] above) := by
  induction before generalizing above with
  | nil => rfl
  | cons slot before ih =>
      cases slot with
      | none => exact ih above.pageBelow
      | some frame => exact congrArg (_ :: ·) (ih above.pageBelow)

theorem mem_slotsBelow {slots : List (Option Frame)} {above : LinearAddr}
    {slot : Frame × LinearAddr} : slot ∈ slotsBelow slots above ↔
      ∃ k, slots[k]? = some (some slot.1) ∧ slot.2 = LinearAddr.pageBelow^[k + 1] above := by
  induction slots generalizing above with
  | nil => simp [slotsBelow]
  | cons first slots ih =>
      cases first with
      | none =>
          rw [slotsBelow, ih]
          constructor
          · rintro ⟨k, found, page⟩
            exact ⟨k + 1, found, page⟩
          · rintro ⟨k, found, page⟩
            cases k with
            | zero => cases found
            | succ k => exact ⟨k, found, page⟩
      | some frame =>
          rw [slotsBelow, List.mem_cons, ih]
          constructor
          · rintro (rfl | ⟨k, found, page⟩)
            · exact ⟨0, rfl, rfl⟩
            · exact ⟨k + 1, found, page⟩
          · rintro ⟨k, found, page⟩
            cases k with
            | zero => exact Or.inl (Prod.ext (Option.some.inj (Option.some.inj found)).symm page)
            | succ k => exact Or.inr ⟨k, found, page⟩

theorem pairwise_slotsBelow {slots : List (Option Frame)} {above : LinearAddr}
    (few : slots.length < 1048576) :
    (slotsBelow slots above).Pairwise fun slot later => later.2.place ≠ slot.2.place := by
  induction slots generalizing above with
  | nil => exact List.Pairwise.nil
  | cons first slots ih =>
      cases first with
      | none => exact ih (Nat.lt_of_succ_lt few)
      | some frame =>
          refine List.Pairwise.cons ?_ (ih (Nat.lt_of_succ_lt few))
          intro later member
          obtain ⟨k, found, page⟩ := mem_slotsBelow.mp member
          have below : k < slots.length := (List.getElem?_eq_some_iff.mp found).1
          rw [page]
          exact above.pageBelow.place_iterate_pageBelow_ne
            (Nat.lt_of_le_of_lt below (Nat.lt_of_succ_lt few)) (by decide) (Nat.succ_ne_zero k)

/-- These slots are filled, and nothing else has changed but for new tables. -/
structure Filled (m m' : Manager layout) (slots : List (Frame × LinearAddr)) : Prop where
  mapped : ∀ slot ∈ slots, m'.memory.leaf slot.2.place = Entry.new slot.1 .userWritable
  others : ∀ place, (∀ slot ∈ slots, slot.2.place ≠ place) →
    m'.memory.leaf place = m.memory.leaf place
  tables : TablesAdded m m'

theorem Filled.nil (leaf : m'.memory.leaf = m.memory.leaf) (tables : TablesAdded m m') :
    Filled m m' [] :=
  ⟨nofun, fun place _ => congrFun leaf place, tables⟩

theorem Filled.cons {frame : Frame} {addr : LinearAddr} {slots : List (Frame × LinearAddr)}
    (leaf : m₁.memory.leaf =
      Function.update m.memory.leaf addr.place (Entry.new frame .userWritable))
    (tables : TablesAdded m m₁) (apart : ∀ slot ∈ slots, slot.2.place ≠ addr.place)
    (rest : Filled m₁ m' slots) : Filled m m' ((frame, addr) :: slots) := by
  refine ⟨?_, ?_, tables.trans rest.tables⟩
  · intro slot member
    rcases List.mem_cons.mp member with rfl | later
    · rw [rest.others _ apart, leaf, Function.update_self]
    · exact rest.mapped slot later
  · intro place elsewhere
    rw [rest.others place fun slot later => elsewhere slot (List.mem_cons_of_mem _ later), leaf,
      Function.update_of_ne (elsewhere _ List.mem_cons_self).symm]

theorem Filled.flushed {slots : List (Frame × LinearAddr)} (filled : Filled m m' slots) :
    Filled m m'.flushed slots :=
  ⟨filled.mapped, filled.others, filled.tables.trans (TablesAdded.of_same rfl rfl)⟩

/-- No page can be mapped at `addr`: there is no table and no frame for one, or a page is mapped
there already. -/
def Obstructed (m : Manager layout) (addr : LinearAddr) (error : MemoryError) : Prop :=
  error = .outOfMemory ∧ (m.memory.link addr.dirIndex).isPresent = false ∧
      (∀ frame, m.refCount? frame ≠ some 0) ∨
    error = .fatal (.alreadyMapped addr) ∧ (m.memory.leaf addr.place).isPresent = true

theorem Sound.mapDownward_filled (sound : m.Sound held) {slots : List (Option Frame)}
    {above : LinearAddr} (fillable : Fillable layout held (slotsBelow slots above))
    (apart : (slotsBelow slots above).Pairwise fun slot later => later.2.place ≠ slot.2.place) :
    (∃ m', mapDownward slots above m = .ok () m' ∧ Filled m m' (slotsBelow slots above)) ∨
    ∃ before frame after error m', slots = before ++ some frame :: after ∧
      mapDownward slots above m = .error error m' ∧
      Filled m m' (slotsBelow before above) ∧
      m'.Obstructed (LinearAddr.pageBelow^[before.length + 1] above) error := by
  induction slots generalizing m above held with
  | nil => exact Or.inl ⟨m, rfl, Filled.nil rfl (TablesAdded.of_same rfl rfl)⟩
  | cons slot slots ih =>
      cases slot with
      | none =>
          rcases ih sound fillable apart with
            ⟨m', run, filled⟩ | ⟨before, frame, after, error, m', rfl, run, filled, obstructed⟩
          · exact Or.inl ⟨m', run, filled⟩
          · exact Or.inr ⟨none :: before, frame, after, error, m', rfl, run, filled, obstructed⟩
      | some frame =>
          obtain ⟨holds, task⟩ := fillable.2 _ List.mem_cons_self
          obtain ⟨apart, apart'⟩ := List.pairwise_cons.mp apart
          -- the first slot to fail ends it with nothing below it filled
          rcases sound.mapFrame_cases holds task true with
            ⟨present, m₁, run, memory, pool⟩ | ⟨absent, full, m₁, run, memory, pool⟩ |
            ⟨m₁, run, mapped, table⟩
          · refine Or.inr ⟨[], frame, slots, _, m₁, rfl, bind_error run, ?_, Or.inr ⟨rfl, ?_⟩⟩
            · exact Filled.nil (by rw [memory]) (TablesAdded.of_same (by rw [memory]) pool)
            · rw [memory]
              exact present
          · refine Or.inr ⟨[], frame, slots, _, m₁, rfl, bind_error run, ?_,
              Or.inl ⟨rfl, ?_, ?_⟩⟩
            · exact Filled.nil (by rw [memory]) (TablesAdded.of_same (by rw [memory]) pool)
            · rw [memory]
              exact absent
            · intro frame
              rw [refCount?, pool]
              exact FramePool.highestFree_eq_none_iff_count?.mp full frame
          · rcases ih mapped.sound fillable.tail apart' with
              ⟨m', rest, filled⟩ | ⟨before, frame', after, error, m', rfl, rest, filled, obstructed⟩
            · exact Or.inl ⟨m', (bind_ok run).trans rest,
                filled.cons mapped.leaf table.tablesAdded apart⟩
            · have apart'' : ∀ slot ∈ slotsBelow before above.pageBelow,
                  slot.2.place ≠ above.pageBelow.place := by
                intro slot member
                apply apart
                rw [slotsBelow_append]
                exact List.mem_append_left _ member
              exact Or.inr ⟨some frame :: before, frame', after, error, m', rfl,
                (bind_ok run).trans rest, filled.cons mapped.leaf table.tablesAdded apart'',
                obstructed⟩

/-- The slots from `cut` on are filled, and nothing else has changed but for new tables. -/
structure TopFilled (m m' : Manager layout) (pages : Vector (Option Frame) argumentPages)
    (top : LinearAddr) (cut : Nat) : Prop where
  mapped : ∀ (i : Fin argumentPages) (frame : Frame), cut ≤ i.val → pages.get i = some frame →
    (m'.memory.leaf (argumentPage top i).place).PointsAt frame ∧
      (m'.memory.leaf (argumentPage top i).place).isWritable = true ∧
      (m'.memory.leaf (argumentPage top i).place).isUser = true
  kept : ∀ i : Fin argumentPages, i.val < cut ∨ pages.get i = none →
    m'.memory.leaf (argumentPage top i).place = m.memory.leaf (argumentPage top i).place
  others : ∀ place, (∀ i : Fin argumentPages, (argumentPage top i).place ≠ place) →
    m'.memory.leaf place = m.memory.leaf place
  tables : TablesAdded m m'

section Slots

variable {pages : Vector (Option Frame) argumentPages} {top : LinearAddr} {cut : Nat}
  {before rest : List (Option Frame)}

theorem getElem?_reverse_slots (pages : Vector (Option Frame) argumentPages)
    (i : Fin argumentPages) :
    pages.toList.reverse[argumentPages - 1 - i.val]? = some (pages.get i) := by
  have inside := i.isLt
  have length : pages.toList.length = argumentPages := pages.length_toList
  have place : argumentPages - 1 - (argumentPages - 1 - i.val) = i.val := by omega
  rw [List.getElem?_reverse (by omega), length, place, List.getElem?_eq_getElem (by omega)]
  rfl

variable (split : pages.toList.reverse = before ++ rest)
  (length : before.length + cut = argumentPages)

include split length

theorem mem_slotsBelow_of_split {slot : Frame × LinearAddr} : slot ∈ slotsBelow before top ↔
    ∃ i : Fin argumentPages, cut ≤ i.val ∧ pages.get i = some slot.1 ∧
      slot.2 = argumentPage top i := by
  have place (k : Nat) (below : k < before.length) :
      before[k]? = pages.toList.reverse[k]? := by
    rw [split, List.getElem?_append_left below]
  rw [mem_slotsBelow]
  constructor
  · rintro ⟨k, found, page⟩
    have below : k < before.length := (List.getElem?_eq_some_iff.mp found).1
    let i : Fin argumentPages := ⟨argumentPages - 1 - k, by omega⟩
    have back : argumentPages - 1 - i.val = k := by
      simp only [i]
      omega
    rw [place k below, ← back, getElem?_reverse_slots] at found
    refine ⟨i, by simp only [i]; omega, Option.some.inj found, ?_⟩
    rw [page, argumentPage_eq]
    congr 2
    omega
  · rintro ⟨i, above, found, page⟩
    have inside := i.isLt
    have below : argumentPages - 1 - i.val < before.length := by omega
    refine ⟨argumentPages - 1 - i.val, ?_, ?_⟩
    · rw [place _ below, getElem?_reverse_slots, found]
    · rw [page, argumentPage_eq]
      congr 2
      omega

theorem Filled.topFilled (filled : Filled m m' (slotsBelow before top))
    (inside : ∀ (i : Fin argumentPages) frame, pages.get i = some frame →
      frame.number < layout.totalFrames) : TopFilled m m' pages top cut := by
  refine ⟨?_, ?_, ?_, filled.tables⟩
  · intro i frame above found
    have slot : (frame, argumentPage top i) ∈ slotsBelow before top :=
      (mem_slotsBelow_of_split split length).mpr ⟨i, above, found, rfl⟩
    rw [filled.mapped _ slot]
    exact ⟨Entry.pointsAt_new (inside i frame found) rfl, Entry.isWritable_new _ _,
      Entry.isUser_new _ _⟩
  · intro i outside
    apply filled.others
    intro slot here same
    obtain ⟨j, above, found, page⟩ := (mem_slotsBelow_of_split split length).mp here
    rw [page] at same
    obtain rfl : j = i := by
      by_contra apart
      exact argumentPage_place_ne top apart same
    rcases outside with below | empty
    · exact absurd above (Nat.not_le.mpr below)
    · rw [empty] at found
      cases found
  · intro place elsewhere
    apply filled.others
    intro slot here
    obtain ⟨j, -, -, page⟩ := (mem_slotsBelow_of_split split length).mp here
    rw [page]
    exact elsewhere j

end Slots

theorem map_fst_slotsBelow (slots : List (Option Frame)) (above : LinearAddr) :
    (slotsBelow slots above).map Prod.fst = slots.filterMap id := by
  induction slots generalizing above with
  | nil => rfl
  | cons slot slots ih =>
      cases slot with
      | none => exact ih above.pageBelow
      | some frame => exact congrArg (frame :: ·) (ih above.pageBelow)

theorem fillable_slots {pages : Vector (Option Frame) argumentPages} {top : LinearAddr}
    (distinct : (pages.toList.filterMap id).Nodup)
    (owned : ∀ (i : Fin argumentPages) frame, pages.get i = some frame → frame ∈ held)
    (task : ∀ i : Fin argumentPages, layout.kernelTables ≤ (argumentPage top i).dirIndex) :
    Fillable layout held (slotsBelow pages.toList.reverse top) := by
  constructor
  · rw [map_fst_slotsBelow, List.filterMap_reverse, List.nodup_reverse]
    exact distinct
  · intro slot member
    have whole : pages.toList.reverse.length + 0 = argumentPages :=
      List.length_reverse.trans pages.length_toList
    obtain ⟨i, -, found, page⟩ :=
      (mem_slotsBelow_of_split (List.append_nil _).symm whole).mp member
    refine ⟨owned i _ found, ?_⟩
    rw [page]
    exact task i

theorem flushed_mapDownward (slots : List (Option Frame)) (above : LinearAddr) (flushes : Nat) :
    Keeps (@Flushed layout flushes) (mapDownward slots above) :=
  Keeps.mapDownward (quiet_allocateFrame.flushed flushes)
    (fun slot entry => flushed_setEntry slot entry flushes) (fun _ _ before => before) slots above

theorem flushes_installArguments (pages : Vector (Option Frame) argumentPages) (top : LinearAddr)
    (m : Manager layout) :
    ((installArguments pages top).after m).tlbFlushes = m.tlbFlushes + 1 := by
  rw [installArguments, after_thenFlush]
  exact congrArg (· + 1) (flushed_mapDownward _ top m.tlbFlushes m rfl)

end Manager

open Manager

variable {layout : Layout} {m : Manager layout} {held : Finset Frame}

/-- Filling the argument slots fills those above the one that fails, and all of them if none does.
Everything else stays as it was, but for tables that are made on the way. -/
theorem Reachable.installs_top_slots (reachable : Reachable layout m held)
    {pages : Vector (Option Frame) argumentPages} {top : LinearAddr}
    (distinct : (pages.toList.filterMap id).Nodup)
    (owned : ∀ (i : Fin argumentPages) frame, pages.get i = some frame → frame ∈ held)
    (task : ∀ i : Fin argumentPages, layout.kernelTables ≤ (argumentPage top i).dirIndex) :
    ((installArguments pages top).after m).tlbFlushes = m.tlbFlushes + 1 ∧
    ((∃ m', installArguments pages top m = .ok () m' ∧ TopFilled m m' pages top 0) ∨
      ∃ (j : Fin argumentPages) (frame : Frame) (error : MemoryError) (m' : Manager layout),
        installArguments pages top m = .error error m' ∧ pages.get j = some frame ∧
        m'.Obstructed (argumentPage top j) error ∧ TopFilled m m' pages top (j.val + 1)) := by
  have sound := reachable.sound
  have length : pages.toList.reverse.length = argumentPages :=
    List.length_reverse.trans pages.length_toList
  have inside (i : Fin argumentPages) (frame : Frame) (found : pages.get i = some frame) :
      frame.number < layout.totalFrames := (sound.balanced.owned frame (owned i frame found)).1.2
  refine ⟨flushes_installArguments pages top m, ?_⟩
  rcases sound.mapDownward_filled (fillable_slots distinct owned task)
      (pairwise_slotsBelow (by rw [length]; decide)) with
    ⟨m', run, filled⟩ | ⟨before, frame, after, error, m', split, run, filled, obstructed⟩
  · exact Or.inl ⟨m'.flushed, thenFlush_ok run,
      filled.flushed.topFilled (List.append_nil _).symm length inside⟩
  · have total : before.length + (after.length + 1) = argumentPages := by
      rw [← length, split, List.length_append, List.length_cons]
    let j : Fin argumentPages := ⟨after.length, by omega⟩
    have back : argumentPages - 1 - j.val = before.length := by
      simp only [j]
      omega
    have found : pages.get j = some frame := by
      have slot := getElem?_reverse_slots pages j
      rw [back, split, List.getElem?_append_right (Nat.le_refl _), Nat.sub_self] at slot
      exact (Option.some.inj slot).symm
    have page : argumentPage top j = LinearAddr.pageBelow^[before.length + 1] top := by
      rw [argumentPage_eq]
      congr 1
      omega
    refine Or.inr ⟨j, frame, error, m'.flushed, thenFlush_error run, found, ?_,
      filled.flushed.topFilled split total inside⟩
    rw [page]
    exact obstructed

def handful : Manager .tiny :=
  (Call.allocate.perform (Call.allocate.perform
    (Call.allocate.perform (boot .tiny .empty)).2).2).2

theorem reachable_handful : Reachable .tiny handful {⟨161⟩, ⟨162⟩, ⟨163⟩} := by
  have first : Reachable .tiny _ {⟨163⟩} :=
    (Reachable.boot .empty).allocate (by decide +kernel)
  have second : Reachable .tiny _ {⟨162⟩, ⟨163⟩} := first.allocate (by decide +kernel)
  exact second.allocate (by decide +kernel)

def threeArguments : Vector (Option Frame) argumentPages :=
  .ofFn fun i => if 29 ≤ i.val then some ⟨132 + i.val⟩ else none

def argumentTop : LinearAddr := LinearAddr.ofNat 8392704

/-- The one frame that is left becomes a table for the highest slot, and the next one fails. -/
theorem installs_top_slots_handful : ∃ m',
    installArguments threeArguments argumentTop handful = .error .outOfMemory m' ∧
      TopFilled handful m' threeArguments argumentTop 31 := by
  have slots : ∀ i : Fin argumentPages, 29 ≤ i.val ∨ threeArguments.get i = none := by decide
  have ends : ((Call.installArguments threeArguments argumentTop).perform handful).1 =
      .outOfMemory := by decide +kernel
  have high : (((installArguments threeArguments argumentTop).after handful).memory.leaf
      (argumentPage argumentTop 31).place).isPresent = true := by decide +kernel
  have low : (((installArguments threeArguments argumentTop).after handful).memory.leaf
      (argumentPage argumentTop 30).place).isPresent = false := by decide +kernel
  have empty : (handful.memory.leaf (argumentPage argumentTop 31).place).isPresent = false := by
    decide +kernel
  have distinct : (threeArguments.toList.filterMap id).Nodup := by decide
  have owned : ∀ (i : Fin argumentPages) frame, threeArguments.get i = some frame →
      frame ∈ ({⟨161⟩, ⟨162⟩, ⟨163⟩} : Finset Frame) := by
    have each : ∀ i : Fin argumentPages, (threeArguments.get i).all fun frame =>
        decide (frame ∈ ({⟨161⟩, ⟨162⟩, ⟨163⟩} : Finset Frame)) := by decide
    intro i frame found
    have held := each i
    rw [found] at held
    exact of_decide_eq_true held
  have task : ∀ i : Fin argumentPages,
      Layout.tiny.kernelTables ≤ (argumentPage argumentTop i).dirIndex := by decide
  obtain ⟨-, ⟨m', run, -⟩ | ⟨j, frame, error, m', run, found, -, filled⟩⟩ :=
    reachable_handful.installs_top_slots distinct owned task
  · rw [Call.perform, run] at ends
    cases ends
  · rw [after_of_error run] at high low
    rw [Call.perform, run] at ends
    obtain rfl : error = .outOfMemory := by
      cases error with
      | outOfMemory => rfl
      | fatal error => cases ends
    have named : 29 ≤ j.val := by
      rcases slots j with late | none
      · exact late
      · rw [none] at found
        cases found
    -- slot 31 is filled and slot 30 is not, so it is slot 30 that failed
    have first : j.val ≠ 31 := by
      intro last
      have same := filled.kept ⟨31, by decide⟩ (Or.inl (by rw [last]; decide))
      rw [same] at high
      cases empty.symm.trans high
    have second : j.val ≠ 29 := by
      intro next
      have mapped := filled.mapped ⟨30, by decide⟩ ⟨162⟩ (by rw [next]) (by decide)
      cases low.symm.trans mapped.1.1
    have cut : j.val + 1 = 31 := by
      have inside : j.val < 32 := j.isLt
      omega
    rw [cut] at filled
    exact ⟨m', run, filled⟩

end PagedMemory

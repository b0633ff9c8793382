import Mathlib.Algebra.Group.Nat.Defs
import PagedMemory.Memory.Physical

/-!
Physical memory as a plain array with one byte for each address, all zero at first. Whatever is
asked of memory, and in whatever order, it answers as that array does (`refines_flat`). In
particular a frame without a page cannot be told from one whose page is zero.
-/

namespace PagedMemory

inductive MemoryCall where
  | readByte (addr : PhysicalAddr)
  | writeByte (addr : PhysicalAddr) (value : UInt8)
  | readWord (addr : PhysicalAddr)
  | writeWord (addr : PhysicalAddr) (value : UInt32)
  | zeroFrame (frame : Frame)
  | copyFrame (source target : Frame)
  | frameBytes (frame : Frame)
  | isZeroed (frame : Frame)
  deriving DecidableEq

inductive MemoryAnswer where
  | byte (value : UInt8)
  | word (value : UInt32)
  | bytes (values : List UInt8)
  | flag (value : Bool)
  | done
  | refused (error : FatalError)
  deriving DecidableEq

namespace MemoryCall

variable {σ τ : Type}

def named : MemoryCall → List Frame
  | readByte addr | writeByte addr _ | readWord addr | writeWord addr _ => [addr.frame]
  | zeroFrame frame | frameBytes frame | isZeroed frame => [frame]
  | copyFrame source target => [source, target]

/-- The first frame named that lies past the end. -/
def missing? (frames : Nat) (call : MemoryCall) : Option Frame :=
  call.named.find? fun frame => decide (frames ≤ frame.number)

def Aligned : MemoryCall → Prop
  | readWord addr | writeWord addr _ => addr.toNat % 4 = 0
  | _ => True

instance : DecidablePred Aligned
  | readWord addr | writeWord addr _ => inferInstanceAs (Decidable (addr.toNat % 4 = 0))
  | readByte _ | writeByte _ _ | zeroFrame _ | copyFrame _ _ | frameBytes _ | isZeroed _ =>
      .isTrue trivial

theorem le_of_missing {frames : Nat} {call : MemoryCall} {frame : Frame}
    (missing : call.missing? frames = some frame) : frames ≤ frame.number := by
  have outside := List.find?_some missing
  exact of_decide_eq_true outside

def run (perform : σ → MemoryCall → MemoryAnswer × σ) :
    List MemoryCall → σ → List MemoryAnswer × σ
  | [], state => ([], state)
  | call :: calls, state =>
      let (answer, next) := perform state call
      let (answers, last) := run perform calls next
      (answer :: answers, last)

theorem run_simulates {perform : σ → MemoryCall → MemoryAnswer × σ}
    {perform' : τ → MemoryCall → MemoryAnswer × τ} {view : σ → τ} {calls : List MemoryCall}
    (step : ∀ state, ∀ call ∈ calls, (perform state call).1 = (perform' (view state) call).1 ∧
      view (perform state call).2 = (perform' (view state) call).2) (state : σ) :
    (run perform calls state).1 = (run perform' calls (view state)).1 ∧
      view (run perform calls state).2 = (run perform' calls (view state)).2 := by
  induction calls generalizing state with
  | nil => exact ⟨rfl, rfl⟩
  | cons call calls ih =>
      obtain ⟨answer, next⟩ := step state call List.mem_cons_self
      obtain ⟨answers, last⟩ :=
        ih (fun state call member => step state call (List.mem_cons_of_mem _ member))
          (perform state call).2
      simp only [run, answer, answers, last, next]
      exact ⟨trivial, trivial⟩

end MemoryCall

structure FlatMemory (frames : Nat) where
  bytes : Vector UInt8 (pageSize * frames)
  deriving DecidableEq

def littleEndian : List UInt8 → Nat
  | [] => 0
  | value :: rest => value.toNat + 256 * littleEndian rest

theorem wordOfBytes_eq_littleEndian (b₀ b₁ b₂ b₃ : UInt8) :
    wordOfBytes b₀ b₁ b₂ b₃ = UInt32.ofNat (littleEndian [b₀, b₁, b₂, b₃]) := by
  have h₀ := b₀.toNat_lt
  have h₁ := b₁.toNat_lt
  have h₂ := b₂.toNat_lt
  have h₃ := b₃.toNat_lt
  apply UInt32.toNat_inj.mp
  simp [wordOfBytes, littleEndian]
  omega

theorem byteOfWord_eq_ofNat (word : UInt32) {i : Nat} (inside : i < 4) :
    byteOfWord word i = UInt8.ofNat (word.toNat / 256 ^ i) := by
  have h := word.toNat_lt
  apply UInt8.toNat_inj.mp
  match i, inside with
  | 0, _ => simp [byteOfWord]
  | 1, _ => simp [byteOfWord]
  | 2, _ => simp [byteOfWord]
  | 3, _ => simp [byteOfWord]

namespace FlatMemory

variable {frames : Nat}

def zero (frames : Nat) : FlatMemory frames := ⟨Vector.replicate _ 0⟩

def byteAt (flat : FlatMemory frames) (i : Nat) : UInt8 := flat.bytes[i]?.getD 0

def slice (flat : FlatMemory frames) (start length : Nat) : List UInt8 :=
  (List.range' start length).map flat.byteAt

def update (flat : FlatMemory frames) (change : Nat → UInt8 → UInt8) : FlatMemory frames :=
  ⟨flat.bytes.mapIdx change⟩

def answer (flat : FlatMemory frames) : MemoryCall → MemoryAnswer
  | .readByte addr => .byte (flat.byteAt addr.toNat)
  | .readWord addr => .word (UInt32.ofNat (littleEndian (flat.slice addr.toNat 4)))
  | .frameBytes frame => .bytes (flat.slice (frame.number * pageSize) pageSize)
  | .isZeroed frame => .flag ((flat.slice (frame.number * pageSize) pageSize).all (· == 0))
  | .writeByte _ _ | .writeWord _ _ | .zeroFrame _ | .copyFrame _ _ => .done

def next (flat : FlatMemory frames) : MemoryCall → FlatMemory frames
  | .writeByte addr value => flat.update fun i old => if i = addr.toNat then value else old
  | .writeWord addr value => flat.update fun i old =>
      if addr.toNat ≤ i ∧ i < addr.toNat + 4 then
        UInt8.ofNat (value.toNat / 256 ^ (i - addr.toNat))
      else old
  | .zeroFrame frame => flat.update fun i old => if i / pageSize = frame.number then 0 else old
  | .copyFrame source target => flat.update fun i old =>
      if i / pageSize = target.number then flat.byteAt (source.number * pageSize + i % pageSize)
      else old
  | .readByte _ | .readWord _ | .frameBytes _ | .isZeroed _ => flat

def perform (flat : FlatMemory frames) (call : MemoryCall) : MemoryAnswer × FlatMemory frames :=
  match call.missing? frames with
  | some frame => (.refused (.nonexistentPage frame), flat)
  | none => (flat.answer call, flat.next call)

theorem ext_byteAt {flat other : FlatMemory frames}
    (same : ∀ i < pageSize * frames, flat.byteAt i = other.byteAt i) : flat = other := by
  rcases flat with ⟨bytes⟩
  rcases other with ⟨bytes'⟩
  congr 1
  apply Vector.ext
  intro i inside
  simpa [byteAt, inside] using same i inside

theorem byteAt_update (flat : FlatMemory frames) (change : Nat → UInt8 → UInt8) {i : Nat}
    (inside : i < pageSize * frames) :
    (flat.update change).byteAt i = change i (flat.byteAt i) := by
  simp [byteAt, update, inside]

end FlatMemory

namespace PhysicalMemory

variable {frames : Nat} {α : Type}

def reading (success : α → MemoryAnswer) (memory : PhysicalMemory frames) :
    Except FatalError α → MemoryAnswer × PhysicalMemory frames
  | .ok value => (success value, memory)
  | .error error => (.refused error, memory)

def writing (access : Access frames Unit) (memory : PhysicalMemory frames) :
    MemoryAnswer × PhysicalMemory frames :=
  match access memory with
  | .ok _ memory => (.done, memory)
  | .error error memory => (.refused error, memory)

def perform (memory : PhysicalMemory frames) :
    MemoryCall → MemoryAnswer × PhysicalMemory frames
  | .readByte addr => reading .byte memory (memory.readByte addr.frame addr.pageOffset)
  | .writeByte addr value => writing (writeByte addr.frame addr.pageOffset value) memory
  | .readWord addr => reading .word memory (memory.readWord addr.slot)
  | .writeWord addr value => writing (writeWord addr.slot value) memory
  | .zeroFrame frame => writing (zeroFrame frame) memory
  | .copyFrame source target => writing (copyFrame source target) memory
  | .frameBytes frame => reading .bytes memory (memory.frameBytes frame)
  | .isZeroed frame => reading .flag memory (memory.isZeroed frame)

/-- The bytes of memory by address. -/
def flat (memory : PhysicalMemory frames) : FlatMemory frames :=
  ⟨Vector.ofFn fun i => (memory.page ⟨i / pageSize⟩).byte (i % pageSize)⟩

theorem byteAt_flat (memory : PhysicalMemory frames) (i : Nat) :
    memory.flat.byteAt i = (memory.page ⟨i / pageSize⟩).byte (i % pageSize) := by
  by_cases inside : i < pageSize * frames
  · simp [flat, FlatMemory.byteAt, inside]
  · have outside : frames ≤ i / pageSize := by
      simp only [pageSize] at *
      omega
    rw [memory.page_of_le outside, Page.byte_zero]
    simp [flat, FlatMemory.byteAt, inside]

theorem flat_blank (frames : Nat) : (blank frames).flat = .zero frames := by
  apply FlatMemory.ext_byteAt
  intro i inside
  rw [byteAt_flat, page_blank, Page.byte_zero]
  simp [FlatMemory.byteAt, FlatMemory.zero, inside]

theorem slice_flat (memory : PhysicalMemory frames) (frame : Frame) :
    memory.flat.slice (frame.number * pageSize) pageSize =
      (memory.page frame).slice 0 pageSize := by
  rw [FlatMemory.slice, Page.slice, List.range'_eq_map_range, List.range'_eq_map_range,
    List.map_map, List.map_map]
  apply List.map_congr_left
  intro offset member
  have inside : offset < pageSize := List.mem_range.mp member
  have number : (frame.number * pageSize + offset) / pageSize = frame.number := by
    simp only [pageSize] at *
    omega
  have rest : (frame.number * pageSize + offset) % pageSize = offset := by
    simp only [pageSize] at *
    omega
  simp only [Function.comp_apply, byteAt_flat, number, rest, Nat.zero_add]

theorem word_flat (memory : PhysicalMemory frames) {addr : PhysicalAddr}
    (aligned : addr.toNat % 4 = 0) :
    (memory.page addr.frame).word (addr.pageOffset / 4) =
      UInt32.ofNat (littleEndian (memory.flat.slice addr.toNat 4)) := by
  have place (k : Nat) (inside : k < 4) : memory.flat.byteAt (addr.toNat + k) =
      (memory.page addr.frame).byte (4 * (addr.pageOffset / 4) + k) := by
    have number : (addr.toNat + k) / pageSize = addr.toNat / pageSize := by
      simp only [pageSize] at *
      omega
    have rest : (addr.toNat + k) % pageSize = 4 * (addr.pageOffset / 4) + k := by
      simp only [PhysicalAddr.pageOffset, pageSize] at *
      omega
    rw [byteAt_flat, number, rest]
    rfl
  rw [Page.word_eq, wordOfBytes_eq_littleEndian, ← place 1 (by decide), ← place 2 (by decide),
    ← place 3 (by decide)]
  have first := place 0 (by decide)
  rw [Nat.add_zero, Nat.add_zero] at first
  rw [← first]
  rfl

theorem isZero_page (memory : PhysicalMemory frames) (frame : Frame) :
    (memory.page frame).isZero =
      (memory.flat.slice (frame.number * pageSize) pageSize).all (· == 0) := by
  rw [slice_flat, Bool.eq_iff_iff, Page.isZero_iff, Page.slice, List.all_map, List.all_eq_true]
  simp

theorem flat_eq_update {memory memory' : PhysicalMemory frames} {frame : Frame}
    (only : memory.OnlyPage memory' frame) {change : Nat → UInt8 → UInt8}
    (here : ∀ i, i / pageSize = frame.number → frame.number < frames →
      (memory'.page frame).byte (i % pageSize) = change i (memory.flat.byteAt i))
    (elsewhere : ∀ i old, i / pageSize ≠ frame.number → change i old = old) :
    memory'.flat = memory.flat.update change := by
  apply FlatMemory.ext_byteAt
  intro i inside
  have within : i / pageSize < frames := by
    simp only [pageSize] at *
    omega
  rw [FlatMemory.byteAt_update _ _ inside, byteAt_flat]
  by_cases same : i / pageSize = frame.number
  · rw [← here i same (same ▸ within), same]
  · have apart : (⟨i / pageSize⟩ : Frame) ≠ frame := by
      rintro rfl
      exact same rfl
    rw [elsewhere i _ same, only _ apart, byteAt_flat]

theorem flat_setByte (memory : PhysicalMemory frames) (addr : PhysicalAddr) (value : UInt8) :
    (memory.modifyPage addr.frame (·.setByte addr.pageOffset value)).flat =
      memory.flat.next (.writeByte addr value) := by
  apply flat_eq_update (memory.onlyPage_modifyPage _ _)
  · intro i same inside
    have number : (⟨i / pageSize⟩ : Frame) = addr.frame := by rw [same]
    have bound : i % pageSize < pageSize := Nat.mod_lt _ (by decide)
    have place : addr.pageOffset = i % pageSize ∧ i % pageSize < pageSize ↔ i = addr.toNat := by
      simp only [PhysicalAddr.pageOffset, PhysicalAddr.frame, pageSize] at *
      omega
    simp only [page_modifyPage_self inside, Page.byte_setByte, byteAt_flat, number, place]
  · intro i old apart
    rw [if_neg]
    rintro rfl
    exact apart rfl

theorem flat_setWord (memory : PhysicalMemory frames) {addr : PhysicalAddr}
    (aligned : addr.toNat % 4 = 0) (value : UInt32) :
    (memory.modifyPage addr.frame (·.setWord (addr.pageOffset / 4) value)).flat =
      memory.flat.next (.writeWord addr value) := by
  apply flat_eq_update (memory.onlyPage_modifyPage _ _)
  · intro i same inside
    have number : (⟨i / pageSize⟩ : Frame) = addr.frame := by rw [same]
    rw [page_modifyPage_self inside, Page.byte_setWord, byteAt_flat, number]
    by_cases within : addr.toNat ≤ i ∧ i < addr.toNat + 4
    · have word : addr.pageOffset / 4 = i % pageSize / 4 ∧ i % pageSize / 4 < wordsPerPage := by
        simp only [PhysicalAddr.pageOffset, PhysicalAddr.frame, pageSize, wordsPerPage] at *
        omega
      have rest : i % pageSize % 4 = i - addr.toNat := by
        simp only [pageSize] at *
        omega
      rw [if_pos word, if_pos within, rest, byteOfWord_eq_ofNat value (by omega)]
    · have word : ¬ (addr.pageOffset / 4 = i % pageSize / 4 ∧ i % pageSize / 4 < wordsPerPage) := by
        simp only [PhysicalAddr.pageOffset, PhysicalAddr.frame, pageSize, wordsPerPage] at *
        omega
      rw [if_neg word, if_neg within]
  · intro i old apart
    rw [if_neg]
    rintro ⟨above, below⟩
    simp only [PhysicalAddr.frame, pageSize] at *
    omega

theorem flat_putPage_none (memory : PhysicalMemory frames) (frame : Frame) :
    (memory.putPage frame none).flat = memory.flat.next (.zeroFrame frame) := by
  apply flat_eq_update (memory.onlyPage_putPage _ _)
  · intro i same inside
    rw [page_putPage_self inside, if_pos same]
    exact Page.byte_zero _
  · intro i old apart
    exact if_neg apart

theorem flat_putPage (memory : PhysicalMemory frames) (source target : Frame) :
    (memory.putPage target (memory.page? source)).flat =
      memory.flat.next (.copyFrame source target) := by
  apply flat_eq_update (memory.onlyPage_putPage _ _)
  · intro i same inside
    have bound : i % pageSize < pageSize := Nat.mod_lt _ (by decide)
    have number : (source.number * pageSize + i % pageSize) / pageSize = source.number := by
      simp only [pageSize] at *
      omega
    have rest : (source.number * pageSize + i % pageSize) % pageSize = i % pageSize := by
      simp only [pageSize] at *
      omega
    rw [page_putPage_self inside, if_pos same, byteAt_flat, number, rest]
    rfl
  · intro i old apart
    exact if_neg apart

theorem perform_of_missing (memory : PhysicalMemory frames) {call : MemoryCall} {frame : Frame}
    (missing : call.missing? frames = some frame) :
    memory.perform call = (.refused (.nonexistentPage frame), memory) := by
  have outside := MemoryCall.le_of_missing missing
  have named := List.mem_of_find?_eq_some missing
  have refused := require_of_le outside
  cases call with
  | copyFrame source target =>
      -- the one call with two frames: it is the source that is looked at first
      simp only [perform, writing, copyFrame]
      by_cases inside : source.number < frames
      · have second : target = frame := by
          rcases List.mem_cons.mp named with rfl | rest
          · exact absurd inside (Nat.not_lt.mpr outside)
          · exact (List.mem_singleton.mp rest).symm
        rw [require_of_lt inside, second, refused]
      · have first : source = frame := by
          have found := List.find?_cons_of_pos (l := [target])
            (p := fun frame : Frame => decide (frames ≤ frame.number))
            (decide_eq_true (Nat.le_of_not_lt inside))
          exact Option.some.inj (found.symm.trans missing)
        rw [first, refused]
  | readByte | readWord | frameBytes | isZeroed =>
      cases List.mem_singleton.mp named
      simp only [perform, readByte, readWord, PhysicalAddr.slot, frameBytes, readBytes, isZeroed,
        refused]
      rfl
  | writeByte | writeWord | zeroFrame =>
      cases List.mem_singleton.mp named
      simp only [perform, writing, writeByte, writeWord, PhysicalAddr.slot, zeroFrame, change,
        refused]

theorem perform_of_inside (memory : PhysicalMemory frames) {call : MemoryCall}
    (aligned : call.Aligned) (inside : call.missing? frames = none) :
    (memory.perform call).1 = memory.flat.answer call ∧
      (memory.perform call).2.flat = memory.flat.next call := by
  have accepted (frame : Frame) (named : frame ∈ call.named) : frame.number < frames := by
    have within := List.find?_eq_none.mp inside frame named
    rwa [decide_eq_true_eq, Nat.not_le] at within
  cases call with
  | readByte addr =>
      have read := memory.readByte_eq (accepted addr.frame List.mem_cons_self) addr.pageOffset
      rw [perform, read, reading]
      exact ⟨congrArg _ (memory.byteAt_flat addr.toNat).symm, rfl⟩
  | readWord addr =>
      have read := memory.readWord_eq (accepted addr.frame List.mem_cons_self) (addr.pageOffset / 4)
      rw [perform, PhysicalAddr.slot, read, reading]
      exact ⟨congrArg _ (memory.word_flat aligned), rfl⟩
  | frameBytes frame =>
      have read := memory.readBytes_eq (accepted frame List.mem_cons_self) 0 pageSize
      rw [perform, frameBytes, read, reading]
      exact ⟨congrArg _ (memory.slice_flat frame).symm, rfl⟩
  | isZeroed frame =>
      rw [perform, memory.isZeroed_eq (accepted frame List.mem_cons_self), reading]
      exact ⟨congrArg _ (memory.isZero_page frame), rfl⟩
  | writeByte addr value =>
      rw [perform, writing, writeByte, memory.change_eq (accepted addr.frame List.mem_cons_self)]
      exact ⟨rfl, memory.flat_setByte addr value⟩
  | writeWord addr value =>
      rw [perform, PhysicalAddr.slot, writing, writeWord,
        memory.change_eq (accepted addr.frame List.mem_cons_self)]
      exact ⟨rfl, memory.flat_setWord aligned value⟩
  | zeroFrame frame =>
      rw [perform, writing, memory.zeroFrame_eq (accepted frame List.mem_cons_self)]
      exact ⟨rfl, memory.flat_putPage_none frame⟩
  | copyFrame source target =>
      have first := accepted source List.mem_cons_self
      have second := accepted target (List.mem_cons_of_mem _ List.mem_cons_self)
      rw [perform, writing, memory.copyFrame_eq first second]
      exact ⟨rfl, memory.flat_putPage source target⟩

theorem perform_flat (memory : PhysicalMemory frames) {call : MemoryCall}
    (aligned : call.Aligned) :
    (memory.perform call).1 = (memory.flat.perform call).1 ∧
      (memory.perform call).2.flat = (memory.flat.perform call).2 := by
  cases found : call.missing? frames with
  | some frame =>
      rw [memory.perform_of_missing found, FlatMemory.perform, found]
      exact ⟨rfl, rfl⟩
  | none =>
      rw [FlatMemory.perform, found]
      exact memory.perform_of_inside aligned found

/-- Whatever is asked of memory, it answers as the array does, and its bytes stay those of the
array. Memories with the same bytes answer alike, however they keep their zeros. A call is refused
exactly when it names a frame past the end, for the first such frame, and then changes nothing. -/
theorem refines_flat (frames : Nat) (calls : List MemoryCall)
    (aligned : ∀ call ∈ calls, call.Aligned) :
    (MemoryCall.run perform calls (blank frames)).1 =
        (MemoryCall.run FlatMemory.perform calls (.zero frames)).1 ∧
      (MemoryCall.run perform calls (blank frames)).2.flat =
        (MemoryCall.run FlatMemory.perform calls (.zero frames)).2 ∧
      (∀ memory memory' : PhysicalMemory frames, memory.flat = memory'.flat →
        (MemoryCall.run perform calls memory).1 = (MemoryCall.run perform calls memory').1) ∧
      ∀ (memory : PhysicalMemory frames) (call : MemoryCall), call.Aligned → ∀ error,
        ((memory.perform call).1 = .refused error ↔
          ∃ frame, call.missing? frames = some frame ∧ error = .nonexistentPage frame) ∧
        ((memory.perform call).1 = .refused error → (memory.perform call).2 = memory) := by
  have step (memory : PhysicalMemory frames) (call : MemoryCall) (member : call ∈ calls) :=
    memory.perform_flat (aligned call member)
  have start := MemoryCall.run_simulates step (blank frames)
  rw [flat_blank] at start
  refine ⟨start.1, start.2, ?_, ?_⟩
  · intro memory memory' same
    rw [(MemoryCall.run_simulates step memory).1, (MemoryCall.run_simulates step memory').1, same]
  · intro memory call aligned' error
    cases found : call.missing? frames with
    | some frame =>
        rw [memory.perform_of_missing found]
        simp [eq_comm]
    | none =>
        have answered := (memory.perform_of_inside aligned' found).1
        have accepted : (memory.perform call).1 ≠ .refused error := by
          rw [answered]
          cases call <;> exact nofun
        simp [accepted]

def mixedMemoryCalls : List MemoryCall :=
  [.writeWord ⟨4⟩ 0x04030201, .readByte ⟨6⟩, .copyFrame ⟨0⟩ ⟨1⟩, .readWord ⟨4100⟩,
    .zeroFrame ⟨0⟩, .isZeroed ⟨0⟩, .copyFrame ⟨0⟩ ⟨1⟩, .isZeroed ⟨1⟩, .writeByte ⟨8192⟩ 1,
    .copyFrame ⟨5⟩ ⟨4⟩]

theorem refines_flat_mixedMemoryCalls :
    (∀ call ∈ mixedMemoryCalls, call.Aligned) ∧
      (MemoryCall.run FlatMemory.perform mixedMemoryCalls (.zero 2)).1 =
        [.done, .byte 3, .done, .word 0x04030201, .done, .flag true, .done, .flag true,
          .refused (.nonexistentPage ⟨2⟩), .refused (.nonexistentPage ⟨5⟩)] := by
  have aligned : ∀ call ∈ mixedMemoryCalls, call.Aligned := by decide
  exact ⟨aligned, (refines_flat 2 mixedMemoryCalls aligned).1.symm.trans (by decide +kernel)⟩

end PhysicalMemory

end PagedMemory

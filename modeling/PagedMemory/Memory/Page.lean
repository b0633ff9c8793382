import PagedMemory.Address

/-!
The contents of one frame: 1024 words, each of which is four bytes with the least significant
first. Positions past the end read as zero and ignore writes. `word_setWord`, `byte_setWord`,
`byte_setByte` and `byte_store` say what a read sees after a write.
-/

namespace PagedMemory

def wordsPerPage : Nat := 1024

def wordOfBytes (b₀ b₁ b₂ b₃ : UInt8) : UInt32 :=
  b₀.toUInt32 + b₁.toUInt32 * 256 + b₂.toUInt32 * 65536 + b₃.toUInt32 * 16777216

def byteOfWord (word : UInt32) (i : Nat) : UInt8 := (word / UInt32.ofNat (Nat.pow 256 i)).toUInt8

def replaceByte (word : UInt32) (i : Nat) (value : UInt8) : UInt32 :=
  let pick (j : Nat) : UInt8 := if i = j then value else byteOfWord word j
  wordOfBytes (pick 0) (pick 1) (pick 2) (pick 3)

theorem wordOfBytes_byteOfWord (word : UInt32) :
    wordOfBytes (byteOfWord word 0) (byteOfWord word 1) (byteOfWord word 2) (byteOfWord word 3) =
      word := by
  have h := word.toNat_lt
  apply UInt32.toNat_inj.mp
  simp [wordOfBytes, byteOfWord]
  omega

theorem byteOfWord_wordOfBytes (b₀ b₁ b₂ b₃ : UInt8) :
    byteOfWord (wordOfBytes b₀ b₁ b₂ b₃) 0 = b₀ ∧ byteOfWord (wordOfBytes b₀ b₁ b₂ b₃) 1 = b₁ ∧
      byteOfWord (wordOfBytes b₀ b₁ b₂ b₃) 2 = b₂ ∧
      byteOfWord (wordOfBytes b₀ b₁ b₂ b₃) 3 = b₃ := by
  have h₀ := b₀.toNat_lt
  have h₁ := b₁.toNat_lt
  have h₂ := b₂.toNat_lt
  have h₃ := b₃.toNat_lt
  refine ⟨?_, ?_, ?_, ?_⟩ <;> apply UInt8.toNat_inj.mp <;> simp [wordOfBytes, byteOfWord] <;> omega

theorem byteOfWord_replaceByte (word : UInt32) {i j : Nat} (value : UInt8) (h : j < 4) :
    byteOfWord (replaceByte word i value) j = if i = j then value else byteOfWord word j := by
  obtain ⟨h₀, h₁, h₂, h₃⟩ := byteOfWord_wordOfBytes (if i = 0 then value else byteOfWord word 0)
    (if i = 1 then value else byteOfWord word 1) (if i = 2 then value else byteOfWord word 2)
    (if i = 3 then value else byteOfWord word 3)
  match j, h with
  | 0, _ => exact h₀
  | 1, _ => exact h₁
  | 2, _ => exact h₂
  | 3, _ => exact h₃

structure Page where
  words : Vector UInt32 wordsPerPage
  deriving DecidableEq

namespace Page

def zero : Page := ⟨Vector.replicate wordsPerPage 0⟩

instance : Inhabited Page := ⟨zero⟩

def word (page : Page) (index : Nat) : UInt32 :=
  if h : index < wordsPerPage then page.words[index] else 0

def setWord (page : Page) (index : Nat) (value : UInt32) : Page :=
  ⟨page.words.setIfInBounds index value⟩

def byte (page : Page) (offset : Nat) : UInt8 := byteOfWord (page.word (offset / 4)) (offset % 4)

def setByte (page : Page) (offset : Nat) (value : UInt8) : Page :=
  let word := replaceByte (page.word (offset / 4)) (offset % 4) value
  page.setWord (offset / 4) word

def slice (page : Page) (offset length : Nat) : List UInt8 :=
  (List.range' offset length).map page.byte

def store (page : Page) (offset : Nat) : List UInt8 → Page
  | [] => page
  | value :: rest => (page.setByte offset value).store (offset + 1) rest

def isZero (page : Page) : Bool := page.words.all (· == 0)

theorem ext_word {page other : Page} (h : ∀ i < wordsPerPage, page.word i = other.word i) :
    page = other := by
  rcases page with ⟨words⟩
  rcases other with ⟨others⟩
  congr 1
  apply Vector.ext
  intro i hi
  simpa [word, hi] using h i hi

theorem word_zero (index : Nat) : zero.word index = 0 := by
  simp only [word, zero, Vector.getElem_replicate]
  split <;> rfl

theorem word_of_le {page : Page} {index : Nat} (h : wordsPerPage ≤ index) :
    page.word index = 0 := by
  simp [word, Nat.not_lt.mpr h]

theorem word_setWord (page : Page) (index other : Nat) (value : UInt32) :
    (page.setWord index value).word other =
      if index = other ∧ other < wordsPerPage then value else page.word other := by
  by_cases h : other < wordsPerPage
  · simp [word, setWord, h, Vector.getElem_setIfInBounds]
  · simp [word, h]

theorem word_eq (page : Page) (index : Nat) :
    page.word index = wordOfBytes (page.byte (4 * index)) (page.byte (4 * index + 1))
      (page.byte (4 * index + 2)) (page.byte (4 * index + 3)) := by
  have at₀ : 4 * index / 4 = index ∧ 4 * index % 4 = 0 := by omega
  have at₁ : (4 * index + 1) / 4 = index ∧ (4 * index + 1) % 4 = 1 := by omega
  have at₂ : (4 * index + 2) / 4 = index ∧ (4 * index + 2) % 4 = 2 := by omega
  have at₃ : (4 * index + 3) / 4 = index ∧ (4 * index + 3) % 4 = 3 := by omega
  simp only [byte, at₀.1, at₀.2, at₁.1, at₁.2, at₂.1, at₂.2, at₃.1, at₃.2, wordOfBytes_byteOfWord]

theorem byte_zero (offset : Nat) : zero.byte offset = 0 := by
  simp [byte, byteOfWord, word_zero]

theorem byte_setByte (page : Page) (offset other : Nat) (value : UInt8) :
    (page.setByte offset value).byte other =
      if offset = other ∧ other < pageSize then value else page.byte other := by
  simp only [byte, setByte, word_setWord]
  by_cases here : offset / 4 = other / 4 ∧ other / 4 < wordsPerPage
  · rw [if_pos here, byteOfWord_replaceByte _ _ (Nat.mod_lt _ (by decide)), here.1]
    have inside := here.2
    have same : offset % 4 = other % 4 ↔ offset = other ∧ other < pageSize := by
      simp only [wordsPerPage, pageSize] at *
      omega
    simp only [same]
  · have apart : ¬ (offset = other ∧ other < pageSize) := by
      simp only [wordsPerPage, pageSize] at *
      omega
    rw [if_neg here, if_neg apart]

theorem byte_setWord (page : Page) (index offset : Nat) (value : UInt32) :
    (page.setWord index value).byte offset =
      if index = offset / 4 ∧ offset / 4 < wordsPerPage then byteOfWord value (offset % 4)
      else page.byte offset := by
  rw [byte, word_setWord]
  split
  · rfl
  · rfl

theorem byte_store (page : Page) (offset other : Nat) (data : List UInt8) :
    (page.store offset data).byte other =
      if h : offset ≤ other ∧ other < offset + data.length ∧ other < pageSize then
        data[other - offset]
      else page.byte other := by
  induction data generalizing page offset with
  | nil => simp [store]; omega
  | cons value rest ih =>
      simp only [store, ih, byte_setByte, List.length_cons]
      grind

theorem isZero_iff (page : Page) :
    page.isZero = true ↔ ∀ offset < pageSize, page.byte offset = 0 := by
  have words : page.isZero = true ↔ ∀ index < wordsPerPage, page.word index = 0 := by
    simp only [isZero, Vector.all_eq_true, beq_iff_eq]
    refine forall_congr' fun index => forall_congr' fun inside => ?_
    rw [word, dif_pos inside]
  rw [words]
  constructor
  · intro zero offset inside
    have within : offset / 4 < wordsPerPage := by
      simp only [wordsPerPage, pageSize] at *
      omega
    rw [byte, zero _ within]
    simp [byteOfWord]
  · intro zero index inside
    have within : 4 * index + 3 < pageSize := by
      simp only [wordsPerPage, pageSize] at *
      omega
    rw [word_eq, zero _ (by omega), zero _ (by omega), zero _ (by omega), zero _ within]
    decide

end Page

end PagedMemory

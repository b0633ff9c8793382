import Mathlib.Logic.Function.Basic
import PagedMemory.Proofs.Entries
import PagedMemory.Space.Mapping

/-!
What the tables in physical memory say. `link` is a word of the directory, `leaf` a word of the
table that a link leads to, and `seen` the page that a task finds behind a leaf. A write changes
at most the one word it names, as long as no two links lead to the same table.
-/

namespace PagedMemory

open Manager (pageDirectory dirSlot)

namespace PhysicalMemory

variable {frames : Nat}

def link (memory : PhysicalMemory frames) (block : Nat) : Entry :=
  ⟨(memory.page pageDirectory).word block⟩

def leaf (memory : PhysicalMemory frames) (place : Nat × Nat) : Entry :=
  if (memory.link place.1).isPresent then
    ⟨(memory.page (memory.link place.1).frame).word place.2⟩
  else .empty

/-- The contents of a page as they are found through the tables; zero where nothing is mapped. -/
def seen (memory : PhysicalMemory frames) (place : Nat × Nat) : Page :=
  if (memory.leaf place).isPresent then memory.page (memory.leaf place).frame else Page.zero

def setLeaf (memory : PhysicalMemory frames) (place : Nat × Nat) (entry : Entry) :
    PhysicalMemory frames :=
  memory.modifyPage (memory.link place.1).frame (·.setWord place.2 entry.raw)

def setLink (memory : PhysicalMemory frames) (block : Nat) (entry : Entry) :
    PhysicalMemory frames :=
  memory.modifyPage pageDirectory (·.setWord block entry.raw)

variable {memory : PhysicalMemory frames}

theorem leaf_of_absent (place : Nat × Nat) (absent : (memory.link place.1).isPresent = false) :
    memory.leaf place = .empty := by
  simp only [leaf, absent, Bool.false_eq_true, if_false]

theorem leaf_of_present (place : Nat × Nat) (present : (memory.link place.1).isPresent = true) :
    memory.leaf place = ⟨(memory.page (memory.link place.1).frame).word place.2⟩ := by
  simp only [leaf, present, if_true]

theorem link_present_of_leaf {place : Nat × Nat} (present : (memory.leaf place).isPresent = true) :
    (memory.link place.1).isPresent = true := by
  by_cases linked : (memory.link place.1).isPresent = true
  · exact linked
  · rw [leaf_of_absent place (Bool.not_eq_true _ ▸ linked)] at present
    exact absurd present Bool.false_ne_true

theorem block_lt_of_link {block : Nat} (present : (memory.link block).isPresent = true) :
    block < entriesPerDirectory := by
  by_contra outside
  have zero : memory.link block = .empty := by
    rw [link, Page.word_of_le (Nat.le_of_not_lt outside)]
    rfl
  rw [zero] at present
  exact absurd present Bool.false_ne_true

theorem leaf_of_le {place : Nat × Nat} (outside : entriesPerTable ≤ place.2) :
    memory.leaf place = .empty := by
  by_cases linked : (memory.link place.1).isPresent = true
  · rw [leaf_of_present place linked, Page.word_of_le outside]
    rfl
  · exact leaf_of_absent place (Bool.not_eq_true _ ▸ linked)

theorem seen_of_present (place : Nat × Nat) (present : (memory.leaf place).isPresent = true) :
    memory.seen place = memory.page (memory.leaf place).frame := by
  simp only [seen, present, if_true]

theorem seen_of_absent (place : Nat × Nat) (absent : (memory.leaf place).isPresent = false) :
    memory.seen place = Page.zero := by
  simp only [seen, absent, Bool.false_eq_true, if_false]

theorem seen_of_unlinked (place : Nat × Nat) (absent : (memory.link place.1).isPresent = false) :
    memory.seen place = Page.zero := by
  apply seen_of_absent
  rw [leaf_of_absent place absent]
  exact Entry.isPresent_empty

theorem OnlyPage.link {memory' : PhysicalMemory frames} {frame : Frame}
    (only : memory.OnlyPage memory' frame) (apart : frame ≠ pageDirectory) :
    memory'.link = memory.link := by
  funext block
  rw [PhysicalMemory.link, PhysicalMemory.link, only _ apart.symm]

theorem OnlyPage.leaf {memory' : PhysicalMemory frames} {frame : Frame}
    (only : memory.OnlyPage memory' frame) (apart : frame ≠ pageDirectory)
    (unlinked : ∀ block, (memory.link block).isPresent = true →
      (memory.link block).frame ≠ frame) : memory'.leaf = memory.leaf := by
  funext place
  rw [PhysicalMemory.leaf, PhysicalMemory.leaf, only.link apart]
  by_cases linked : (memory.link place.1).isPresent = true
  · rw [if_pos linked, if_pos linked, only _ (unlinked place.1 linked)]
  · rw [if_neg linked, if_neg linked]

theorem link_modifyPage {frame : Frame} (apart : frame ≠ pageDirectory) (change : Page → Page) :
    (memory.modifyPage frame change).link = memory.link :=
  (memory.onlyPage_modifyPage frame change).link apart

theorem link_setLeaf {place : Nat × Nat} (apart : (memory.link place.1).frame ≠ pageDirectory)
    (entry : Entry) : (memory.setLeaf place entry).link = memory.link :=
  link_modifyPage apart _

theorem leaf_setLeaf {place : Nat × Nat} (entry : Entry)
    (present : (memory.link place.1).isPresent = true) (bound : place.2 < entriesPerTable)
    (inside : (memory.link place.1).frame.number < frames)
    (apart : (memory.link place.1).frame ≠ pageDirectory)
    (alone : ∀ other, (memory.link other).isPresent = true →
      (memory.link other).frame = (memory.link place.1).frame → other = place.1) :
    (memory.setLeaf place entry).leaf = Function.update memory.leaf place entry := by
  funext other
  by_cases linked : (memory.link other.1).isPresent = true
  · have linked' : ((memory.setLeaf place entry).link other.1).isPresent = true := by
      rw [link_setLeaf apart]
      exact linked
    rw [leaf_of_present other linked', link_setLeaf apart, setLeaf]
    by_cases same : other.1 = place.1
    · rw [same, page_modifyPage_self inside, Page.word_setWord]
      by_cases here : place.2 = other.2
      · have whole : other = place := Prod.ext same here.symm
        rw [if_pos ⟨here, here ▸ bound⟩, whole, Function.update_self]
      · have differ : other ≠ place := fun equal => here (congrArg Prod.snd equal).symm
        have kept : ¬ (place.2 = other.2 ∧ other.2 < wordsPerPage) := fun both => here both.1
        rw [if_neg kept, Function.update_of_ne differ, leaf_of_present other linked, same]
    · have differ : other ≠ place := fun equal => same (congrArg Prod.fst equal)
      rw [page_modifyPage_of_ne (fun equal => same (alone other.1 linked equal.symm)),
        Function.update_of_ne differ, leaf_of_present other linked]
  · have differ : other ≠ place := by
      rintro rfl
      exact linked present
    have unlinked : (memory.link other.1).isPresent = false := Bool.not_eq_true _ ▸ linked
    rw [Function.update_of_ne differ, leaf_of_absent other unlinked, leaf_of_absent other]
    rw [link_setLeaf apart]
    exact unlinked

theorem link_setLink {block : Nat} (entry : Entry) (bound : block < entriesPerDirectory)
    (inside : pageDirectory.number < frames) :
    (memory.setLink block entry).link = Function.update memory.link block entry := by
  funext other
  rw [link, setLink, page_modifyPage_self inside, Page.word_setWord]
  by_cases same : block = other
  · subst other
    rw [if_pos ⟨rfl, bound⟩, Function.update_self]
  · have kept : ¬ (block = other ∧ other < wordsPerPage) := fun both => same both.1
    rw [if_neg kept, Function.update_of_ne (Ne.symm same), link]

theorem leaf_setLink {block : Nat} (entry : Entry) (bound : block < entriesPerDirectory)
    (inside : pageDirectory.number < frames)
    (apart : ∀ other, (memory.link other).isPresent = true →
      (memory.link other).frame ≠ pageDirectory)
    (same : ∀ index, (memory.setLink block entry).leaf (block, index) =
      memory.leaf (block, index)) :
    (memory.setLink block entry).leaf = memory.leaf := by
  funext place
  rcases place with ⟨other, index⟩
  by_cases here : other = block
  · subst other
    exact same index
  · rw [leaf, leaf, link_setLink entry bound inside, Function.update_of_ne here]
    by_cases linked : (memory.link other).isPresent = true
    · rw [if_pos linked, if_pos linked, setLink,
        page_modifyPage_of_ne (apart other linked).symm]
    · rw [if_neg linked, if_neg linked]

theorem leaf_setLink_of_blank {block : Nat} {entry : Entry} (bound : block < entriesPerDirectory)
    (inside : pageDirectory.number < frames)
    (apart : ∀ other, (memory.link other).isPresent = true →
      (memory.link other).frame ≠ pageDirectory)
    (absent : (memory.link block).isPresent = false) (blank : memory.page entry.frame = Page.zero)
    (outside : entry.frame ≠ pageDirectory) :
    (memory.setLink block entry).leaf = memory.leaf := by
  apply leaf_setLink entry bound inside apart
  intro index
  rw [leaf, link_setLink entry bound inside, Function.update_self, setLink,
    page_modifyPage_of_ne outside.symm, blank, Page.word_zero,
    leaf_of_absent (block, index) absent]
  exact ite_self Entry.empty

theorem leaf_setLink_empty {block : Nat} (bound : block < entriesPerDirectory)
    (inside : pageDirectory.number < frames)
    (apart : ∀ other, (memory.link other).isPresent = true →
      (memory.link other).frame ≠ pageDirectory)
    (vacant : ∀ index, memory.leaf (block, index) = .empty) :
    (memory.setLink block .empty).leaf = memory.leaf := by
  apply leaf_setLink .empty bound inside apart
  intro index
  rw [vacant index]
  apply leaf_of_absent
  rw [link_setLink .empty bound inside, Function.update_self]
  exact Entry.isPresent_empty

theorem seen_congr {other : PhysicalMemory frames} {place : Nat × Nat}
    (same : other.leaf place = memory.leaf place)
    (kept : (memory.leaf place).isPresent = true →
      other.page (memory.leaf place).frame = memory.page (memory.leaf place).frame) :
    other.seen place = memory.seen place := by
  by_cases present : (memory.leaf place).isPresent = true
  · rw [seen_of_present place present, ← kept present, ← same]
    exact seen_of_present place (same ▸ present)
  · have absent : (memory.leaf place).isPresent = false := Bool.not_eq_true _ ▸ present
    rw [seen_of_absent place absent]
    exact seen_of_absent place (same ▸ absent)

end PhysicalMemory

end PagedMemory

import PagedMemory.Console

/-!
What the console keeps of a history. The log is the end of all that was written since it was last
emptied: in front of it a text loses one segment after the other, each as long as the log can hold
before the character that follows (`Cut`). Where the texts were cut when they were written makes no
difference to the log, but the sink has each of them in full.
-/

namespace PagedMemory

inductive ConsoleCall where
  | write (text : String)
  | clear
  | installSink
  | removeSink
  deriving DecidableEq

namespace ConsoleCall

def perform (console : Console) : ConsoleCall → Console
  | write text => console.write text
  | clear => console.clear
  | installSink => console.installSink
  | removeSink => console.removeSink

def run (calls : List ConsoleCall) (console : Console) : Console := calls.foldl perform console

def extend (text : String) : ConsoleCall → String
  | write more => text ++ more
  | clear => ""
  | installSink | removeSink => text

/-- All that a history has written since it last emptied the log. -/
def written (calls : List ConsoleCall) : String := calls.foldl extend ""

def fragments (calls : List ConsoleCall) : List String :=
  calls.filterMap fun call =>
    match call with
    | write text => some text
    | _ => none

end ConsoleCall

namespace Console

variable {console : Console} {segments : List String} {kept text : String}

/-- A text of which the end is kept and the rest is cut into segments. A segment fits into the log,
but not with the character after it. -/
inductive Cut (kept : String) : List String → String → Prop where
  | whole (fits : kept.utf8ByteSize ≤ logCapacity) : Cut kept [] kept
  | cons {segment : String} {segments : List String} {next : Char} {rest : String}
      (fits : segment.utf8ByteSize ≤ logCapacity)
      (full : logCapacity < segment.utf8ByteSize + next.utf8Size)
      (later : Cut kept segments (String.singleton next ++ rest)) :
      Cut kept (segment :: segments) (segment ++ (String.singleton next ++ rest))

theorem Cut.text_eq (cut : Cut kept segments text) : text = String.join segments ++ kept := by
  induction cut with
  | whole fits => rw [String.join_nil, String.empty_append]
  | cons fits full later ih => rw [String.join_cons, String.append_assoc, ← ih]

theorem Cut.fits (cut : Cut kept segments text) : kept.utf8ByteSize ≤ logCapacity := by
  induction cut with
  | whole fits => exact fits
  | cons fits full later ih => exact ih

theorem Cut.eq_empty (cut : Cut kept segments text) (nothing : kept = "") : text = "" := by
  induction cut with
  | whole fits => exact nothing
  | cons fits full later ih =>
      exact absurd (String.append_eq_empty_iff.mp ih).1 String.singleton_ne_empty

theorem append_push (first second : String) (c : Char) :
    (first ++ second).push c = first ++ second.push c := by
  rw [String.push_eq_append, String.push_eq_append, String.append_assoc]

theorem Cut.push (cut : Cut kept segments text) {c : Char}
    (room : kept.utf8ByteSize + c.utf8Size ≤ logCapacity) :
    Cut (kept.push c) segments (text.push c) := by
  -- over the segments: the character goes behind all of them, to what is kept
  induction cut with
  | whole fits => exact .whole (by rwa [String.utf8ByteSize_push])
  | cons fits full later ih =>
      rw [append_push, append_push]
      rw [append_push] at ih
      exact .cons fits full ih

theorem Cut.startOver (cut : Cut kept segments text) {c : Char}
    (full : logCapacity < kept.utf8ByteSize + c.utf8Size) :
    Cut (String.singleton c) (segments ++ [kept]) (text.push c) := by
  induction cut with
  | whole fits =>
      have alone : Cut (String.singleton c) [] (String.singleton c ++ "") := by
        rw [String.append_empty]
        refine .whole (Nat.le_trans ?_ (by decide : 4 ≤ logCapacity))
        rw [String.utf8ByteSize_singleton]
        exact c.utf8Size_le_four
      have started := Cut.cons fits full alone
      rwa [String.append_empty, String.append_singleton] at started
  | cons fits full' later ih =>
      rw [append_push, append_push]
      rw [append_push] at ih
      exact .cons fits full' ih

theorem Cut.pushChar (cut : Cut kept segments text) (c : Char) :
    ∃ segments, Cut (pushChar kept c) segments (text.push c) := by
  rw [Console.pushChar]
  split
  · rename_i room
    exact ⟨segments, cut.push room⟩
  · rename_i full
    exact ⟨segments ++ [kept], cut.startOver (Nat.lt_of_not_le full)⟩

theorem Cut.foldl_pushChar (cut : Cut kept segments text) (more : List Char) :
    ∃ segments, Cut (more.foldl Console.pushChar kept) segments (text ++ String.ofList more) := by
  induction more generalizing kept segments text with
  | nil => exact ⟨segments, by rwa [String.ofList_nil, String.append_empty]⟩
  | cons c more ih =>
      obtain ⟨segments, next⟩ := cut.pushChar c
      obtain ⟨segments, last⟩ := ih next
      have same : text.push c ++ String.ofList more = text ++ String.ofList (c :: more) := by
        rw [String.push_eq_append, String.append_assoc, String.ofList_cons]
      exact ⟨segments, same ▸ last⟩

theorem cut_write_empty (text : String) :
    ∃ segments, Cut (empty.write text).log segments text := by
  have start : Cut "" [] "" := .whole (Nat.zero_le _)
  obtain ⟨segments, cut⟩ := start.foldl_pushChar text.toList
  rw [String.empty_append, String.ofList_toList] at cut
  exact ⟨segments, cut⟩

theorem foldl_pushChar_of_fits (log : String) (more : List Char)
    (fits : log.utf8ByteSize + (String.ofList more).utf8ByteSize ≤ logCapacity) :
    more.foldl pushChar log = log ++ String.ofList more := by
  induction more generalizing log with
  | nil => rw [String.ofList_nil, String.append_empty]; rfl
  | cons c more ih =>
      rw [String.ofList_cons, String.utf8ByteSize_append, String.utf8ByteSize_singleton,
        ← Nat.add_assoc] at fits
      have room : log.utf8ByteSize + c.utf8Size ≤ logCapacity := Nat.le_of_add_right_le fits
      rw [← String.utf8ByteSize_push] at fits
      rw [List.foldl_cons, pushChar, if_pos room, ih (log.push c) fits, String.push_eq_append,
        String.append_assoc, String.ofList_cons]

theorem log_write_of_fits (console : Console) {text : String}
    (fits : console.log.utf8ByteSize + text.utf8ByteSize ≤ logCapacity) :
    (console.write text).log = console.log ++ text := by
  rw [← text.ofList_toList] at fits
  exact (foldl_pushChar_of_fits console.log text.toList fits).trans (by rw [String.ofList_toList])

theorem log_perform (call : ConsoleCall) (same : console.log = (empty.write text).log) :
    (call.perform console).log = (empty.write (call.extend text)).log := by
  cases call with
  | write more =>
      rw [ConsoleCall.extend, write_append]
      exact congrArg (more.toList.foldl Console.pushChar) same
  | clear => rfl
  | installSink => exact same
  | removeSink => exact same

theorem log_run (calls : List ConsoleCall) (same : console.log = (empty.write text).log) :
    (ConsoleCall.run calls console).log =
      (empty.write (calls.foldl ConsoleCall.extend text)).log := by
  induction calls generalizing console text with
  | nil => exact same
  | cons call calls ih => exact ih (log_perform call same)

theorem sink_perform {call : ConsoleCall} {texts : List String}
    (installed : console.sink = some texts.toArray) (kept : call ≠ .installSink)
    (connected : call ≠ .removeSink) :
    (call.perform console).sink = some (texts ++ ConsoleCall.fragments [call]).toArray := by
  cases call with
  | write text =>
      have received : (console.write text).sink = some (texts.toArray.push text) :=
        congrArg (Option.map (Array.push · text)) installed
      rwa [List.push_toArray] at received
  | clear => exact (List.append_nil texts).symm ▸ installed
  | installSink => exact absurd rfl kept
  | removeSink => exact absurd rfl connected

theorem sink_run {calls : List ConsoleCall} {texts : List String}
    (installed : console.sink = some texts.toArray) (kept : .installSink ∉ calls)
    (connected : .removeSink ∉ calls) :
    (ConsoleCall.run calls console).sink = some (texts ++ ConsoleCall.fragments calls).toArray := by
  induction calls generalizing console texts with
  | nil => exact (List.append_nil texts).symm ▸ installed
  | cons call calls ih =>
      have step := sink_perform installed (fun same => kept (same ▸ List.mem_cons_self))
        (fun same => connected (same ▸ List.mem_cons_self))
      have last := ih step (fun member => kept (List.mem_cons_of_mem _ member))
        (fun member => connected (List.mem_cons_of_mem _ member))
      have split : ConsoleCall.fragments (call :: calls) =
          ConsoleCall.fragments [call] ++ ConsoleCall.fragments calls :=
        List.filterMap_append (l := [call])
      rw [split, ← List.append_assoc]
      exact last

/-- What a history leaves of all that it has written since it last emptied the log: the same as if
that had been written in one piece, namely its end. And what the sink that was installed last has
received. -/
theorem log_of_history (calls : List ConsoleCall) :
    let written := ConsoleCall.written calls
    let console := ConsoleCall.run calls empty
    console.log = (empty.write written).log ∧
      console.log.utf8ByteSize ≤ logCapacity ∧ (console.log = "" → written = "") ∧
      (∃ segments, written = String.join segments ++ console.log ∧
        Cut console.log segments written) ∧
      ∀ before rest, calls = before ++ .installSink :: rest → .installSink ∉ rest →
        .removeSink ∉ rest → console.sink = some (ConsoleCall.fragments rest).toArray := by
  intro written console
  have whole : console.log = (empty.write written).log := log_run calls rfl
  obtain ⟨segments, cut⟩ := cut_write_empty written
  rw [← whole] at cut
  refine ⟨whole, cut.fits, cut.eq_empty, ⟨segments, cut.text_eq, cut⟩, ?_⟩
  intro before rest parts kept connected
  have run : console = ConsoleCall.run rest (ConsoleCall.run before empty).installSink :=
    (congrArg (ConsoleCall.run · empty) parts).trans List.foldl_append
  have started : (ConsoleCall.run before empty).installSink.sink = some [].toArray := rfl
  rw [run]
  exact sink_run started kept connected

def overflow (text : String) : List ConsoleCall := [.write text, .installSink, .write "y"]

theorem written_overflow (text : String) : ConsoleCall.written (overflow text) = text ++ "y" :=
  congrArg (· ++ "y") String.empty_append

theorem log_overflow (full : text.utf8ByteSize = logCapacity) :
    (ConsoleCall.run (overflow text) empty).log = "y" := by
  have first : (empty.write text).log = text := by
    rw [log_write_of_fits empty (Nat.le_of_eq ((Nat.zero_add _).trans full))]
    exact String.empty_append
  calc (ConsoleCall.run (overflow text) empty).log
      = pushChar (empty.write text).log 'y' := rfl
    _ = String.singleton 'y' := by
      rw [first, pushChar, full]
      exact if_neg (by decide)

def fullText : String := String.ofList (List.replicate logCapacity 'x')

theorem utf8ByteSize_fullText : fullText.utf8ByteSize = logCapacity := by
  have size (n : Nat) : (String.ofList (List.replicate n 'x')).utf8ByteSize = n := by
    induction n with
    | zero => rfl
    | succ n ih =>
        rw [List.replicate_succ, String.ofList_cons, String.utf8ByteSize_append, ih, Nat.add_comm]
        rfl
  exact size logCapacity

theorem log_of_history_overflow :
    (ConsoleCall.run (overflow fullText) empty).log = "y" ∧
      (ConsoleCall.run (overflow fullText) empty).sink = some #["y"] ∧
      ∃ segments, fullText ++ "y" = String.join segments ++ "y" ∧
        Cut "y" segments (fullText ++ "y") := by
  have last := log_overflow utf8ByteSize_fullText
  obtain ⟨-, -, -, ⟨segments, joined, cut⟩, received⟩ := log_of_history (overflow fullText)
  rw [last, written_overflow] at joined cut
  exact ⟨last, received [.write fullText] [.write "y"] rfl (by decide) (by decide), segments,
    joined, cut⟩

end Console

end PagedMemory

import Mathlib.Data.List.SplitBy

/-!
# Task ids in log messages

The log sink writes the id of the current task in front of every line of a user
message, after the fields of the logging library.  The tagged message can be taken
apart again.
-/

namespace AsyncFlow

open List

/-- A `std::string_view`: where its characters are stored, and the characters. -/
structure StringView where
  address : Nat
  text : List Char

namespace StringView

def userLogFieldOffset (message userMessage : StringView) : Option Nat :=
  let size := message.text.length
  let userSize := userMessage.text.length
  let offset := userMessage.address - message.address
  if message.address ≠ 0 ∧ message.address ≤ userMessage.address ∧ offset ≤ size ∧
      userSize ≤ size - offset ∧ (message.text.drop offset).take userSize = userMessage.text then
    some offset
  else if userSize ≤ size ∧ message.text.drop (size - userSize) = userMessage.text then
    some (size - userSize)
  else none

/-- The end of the line that begins at the given position. -/
def lineEnd (text : List Char) (lineBegin : Nat) : Nat :=
  match (text.drop lineBegin).idxOf? '\n' with
  | none => text.length
  | some newline => lineBegin + newline + 1

theorem lt_lineEnd {text : List Char} {lineBegin : Nat} (inside : lineBegin < text.length) :
    lineBegin < lineEnd text lineBegin := by
  unfold lineEnd
  split <;> omega

def tagLines (tag text : List Char) (lineBegin : Nat) (tagged : List Char) : List Char :=
  if lineBegin < text.length then
    let line := (text.drop lineBegin).take (lineEnd text lineBegin - lineBegin)
    tagLines tag text (lineEnd text lineBegin) (tagged ++ tag ++ line)
  else tagged
termination_by text.length - lineBegin
decreasing_by
  have advances := lt_lineEnd ‹_›
  omega

/-- What stands before each line: the fields of the message and the task id.  The
buffer of 32 characters holds every 64-bit id. -/
def lineTag (fields : List Char) (taskId : BitVec 64) : List Char :=
  fields ++ "[task=".toList ++ Nat.toDigits 10 taskId.toNat ++ "] ".toList

def taskIdTaggedUserLogMessage (message userMessage : StringView) (taskId : BitVec 64) :
    List Char :=
  match userLogFieldOffset message userMessage with
  | none => message.text
  | some fieldsSize =>
    let tag := lineTag (message.text.take fieldsSize) taskId
    let tagged := tagLines tag userMessage.text 0 []
    if userMessage.text = [] then tagged ++ tag else tagged

structure CutAfterNewlines (lines : List (List Char)) : Prop where
  nonempty : [] ∉ lines
  inside : ∀ line ∈ lines, line.IsChain fun character _ => character ≠ '\n'
  between : lines.IsChain fun line _ => line.getLast? = some '\n'

/-- The lines of a text.  An empty text is one empty line. -/
def SplitAfterNewlines (text : List Char) (lines : List (List Char)) : Prop :=
  if text = [] then lines = [[]] else text = lines.flatten ∧ CutAfterNewlines lines

theorem splitBy_newline_eq_iff {text : List Char} {lines : List (List Char)} :
    (text.splitBy fun character _ => character != '\n') = lines ↔
      text = lines.flatten ∧ CutAfterNewlines lines := by
  have last : [] ∉ lines → (lines.IsChain (fun line _ => line.getLast? = some '\n') ↔
      lines.IsChain fun line next => ∃ (ended : line ≠ []) (_ : next ≠ []),
        (line.getLast ended != '\n') = false) := by
    intro nonempty
    apply IsChain.iff_of_mem_imp
    intro line next member nextMember
    have ended := ne_of_mem_of_not_mem member nonempty
    have started := ne_of_mem_of_not_mem nextMember nonempty
    simp [ended, started, getLast?_eq_some_getLast]
  rw [splitBy_eq_iff]
  constructor
  · rintro ⟨whole, nonempty, inside, between⟩
    exact ⟨whole, nonempty, by simpa using inside, (last nonempty).mpr between⟩
  · rintro ⟨whole, nonempty, inside, between⟩
    exact ⟨whole, nonempty, by simpa using inside, (last nonempty).mp between⟩

/-- A text has exactly one split into lines. -/
theorem splitAfterNewlines_iff (text : List Char) (lines : List (List Char)) :
    SplitAfterNewlines text lines ↔
      lines = if text = [] then [[]] else text.splitBy fun character _ => character != '\n' := by
  rw [SplitAfterNewlines]
  split
  · rfl
  · rw [← splitBy_newline_eq_iff, eq_comm]

theorem idxOf?_line {line rest : List Char} (nonempty : line ≠ [])
    (inside : line.IsChain fun character _ => character ≠ '\n')
    (ended : rest ≠ [] → line.getLast? = some '\n') :
    (line ++ rest).idxOf? '\n' = none ∧ rest = [] ∨
      (line ++ rest).idxOf? '\n' = some (line.length - 1) := by
  induction line with
  | nil => exact absurd rfl nonempty
  | cons character line ih =>
    rw [cons_append, idxOf?_cons]
    cases line with
    | nil =>
      by_cases newline : character = '\n'
      · simp [newline]
      · have last : rest = [] := by
          by_contra more
          simp [newline] at ended
          exact more ended
        simp [newline, last]
    | cons next line =>
      obtain ⟨notNewline, inside⟩ := isChain_cons_cons.mp inside
      rw [if_neg (by simpa using notNewline)]
      rcases ih (by simp) inside (by simpa using ended) with ⟨absent, last⟩ | found
      · exact .inl ⟨by rw [absent]; rfl, last⟩
      · exact .inr (by rw [found]; rfl)

theorem lineEnd_append {before line rest : List Char} (nonempty : line ≠ [])
    (inside : line.IsChain fun character _ => character ≠ '\n')
    (ended : rest ≠ [] → line.getLast? = some '\n') :
    lineEnd (before ++ (line ++ rest)) before.length = (before ++ line).length := by
  have positive := length_pos_iff.mpr nonempty
  rw [lineEnd, drop_left]
  rcases idxOf?_line nonempty inside ended with ⟨absent, rfl⟩ | found
  · rw [absent, append_nil]
  · rw [found]
    simp only [length_append]
    omega

theorem tagLines_flatten (tag : List Char) {lines : List (List Char)}
    (cut : CutAfterNewlines lines) (before tagged : List Char) :
    tagLines tag (before ++ lines.flatten) before.length tagged =
      tagged ++ (lines.map (tag ++ ·)).flatten := by
  induction lines generalizing before tagged with
  | nil =>
    rw [tagLines]
    simp
  | cons line lines ih =>
    obtain ⟨nonempty, inside, between⟩ := cut
    obtain ⟨lineNonempty, nonempty⟩ : line ≠ [] ∧ [] ∉ lines := by simpa [eq_comm] using nonempty
    obtain ⟨lineInside, inside⟩ := forall_mem_cons.mp inside
    have ended : lines.flatten ≠ [] → line.getLast? = some '\n' := by
      intro more
      cases lines with
      | nil => exact absurd rfl more
      | cons next lines => exact (isChain_cons_cons.mp between).1
    have positive := length_pos_iff.mpr lineNonempty
    rw [tagLines, if_pos (by simp; omega), flatten_cons, lineEnd_append lineNonempty lineInside ended,
      ← append_assoc before, ih ⟨nonempty, inside, between.tail⟩]
    simp

/-- Neither the address of the text nor any of its characters lies among the
characters of the message. -/
def StoredElsewhere (message userMessage : StringView) : Prop :=
  ∀ byte, message.address ≤ byte → byte < message.address + message.text.length →
    byte ≠ userMessage.address ∧
      ¬ (userMessage.address ≤ byte ∧ byte < userMessage.address + userMessage.text.length)

/-- The message is the fields followed by the user message, which is given as a view into
the message or as a copy. -/
structure EndsWith (message : StringView) (fields : List Char) (userMessage : StringView) :
    Prop where
  whole : message.text = fields ++ userMessage.text
  placed : userMessage.address = message.address + fields.length ∨
    StoredElsewhere message userMessage

variable {message userMessage : StringView} {fields : List Char}

theorem EndsWith.userLogFieldOffset (ends : EndsWith message fields userMessage) :
    userLogFieldOffset message userMessage = some fields.length := by
  obtain ⟨whole, placed⟩ := ends
  have size : message.text.length = fields.length + userMessage.text.length := by
    rw [whole, length_append]
  have found : userMessage.text.length ≤ message.text.length ∧
      message.text.drop (message.text.length - userMessage.text.length) = userMessage.text := by
    rw [size, Nat.add_sub_cancel, whole, drop_left]
    exact ⟨Nat.le_add_left _ _, rfl⟩
  rw [StringView.userLogFieldOffset]
  split
  · rename_i inside
    obtain ⟨-, above, offsetFits, userFits, -⟩ := inside
    rcases placed with inMessage | elsewhere
    · rw [inMessage, Nat.add_sub_cancel_left]
    · have outside := elsewhere userMessage.address above
      congr 1
      omega
  · rw [size, Nat.add_sub_cancel]

/-- Every line of the user message comes after the fields and the task id, and without
them the lines are the user message again. -/
theorem tagged_message_reversible (ends : EndsWith message fields userMessage)
    (taskId : BitVec 64) :
    ∃ lines, (∀ split, SplitAfterNewlines userMessage.text split ↔ split = lines) ∧
      let pieces := lines.map (lineTag fields taskId ++ ·)
      taskIdTaggedUserLogMessage message userMessage taskId = pieces.flatten ∧
        (pieces.map (·.drop (lineTag fields taskId).length)).flatten = userMessage.text := by
  refine ⟨_, splitAfterNewlines_iff _, ?_⟩
  rw [taskIdTaggedUserLogMessage, ends.userLogFieldOffset]
  dsimp only
  rw [ends.whole, take_left]
  split
  · rename_i empty
    rw [empty, tagLines]
    simp
  · obtain ⟨whole, cut⟩ := splitBy_newline_eq_iff.mp (Eq.refl (userMessage.text.splitBy _))
    have loop := tagLines_flatten (lineTag fields taskId) cut [] []
    rw [← whole] at loop
    exact ⟨loop, by simp [Function.comp_def, ← whole]⟩

theorem tagged_message_reversible_two_lines :
    ∃ lines, (∀ split, SplitAfterNewlines "a\nb".toList split ↔ split = lines) ∧
      let pieces := lines.map (lineTag "I] ".toList 7 ++ ·)
      taskIdTaggedUserLogMessage ⟨1, "I] a\nb".toList⟩ ⟨4, "a\nb".toList⟩ 7 = pieces.flatten ∧
        (pieces.map (·.drop (lineTag "I] ".toList 7).length)).flatten = "a\nb".toList :=
  tagged_message_reversible (show EndsWith ⟨1, "I] a\nb".toList⟩ "I] ".toList
    ⟨4, "a\nb".toList⟩ from ⟨rfl, .inl rfl⟩) 7

end StringView

end AsyncFlow

import Mathlib.Data.List.DropRight
import SentinelGRC.Python.Text

/-!
The reader of Dockerfiles. Lines end at LF. An instruction goes on after a line that ends in
one escape character, and comments and empty lines in between are skipped; a directive in the
first lines can change the escape character. What the reader returns accounts for every
line: it is skipped, or it belongs to the instruction that it starts or continues.
-/

namespace SentinelGRC.Assessment

open Python

/-! ### Characters -/

/-- `BUILDKIT_WHITESPACE`. -/
def isBuildkitWhitespace (c : CodePoint) : Bool :=
  (0x9 ≤ c.val && c.val ≤ 0xD) || c.val == 0x20 || c.val == 0x85 || c.val == 0xA0 ||
    c.val == 0x1680 || (0x2000 ≤ c.val && c.val ≤ 0x200A) || c.val == 0x2028 || c.val == 0x2029 ||
    c.val == 0x202F || c.val == 0x205F || c.val == 0x3000

/-- `DOCKER_COMMAND_SEPARATORS`. -/
def isCommandSeparator (c : CodePoint) : Bool :=
  c.val == 0x9 || c.val == 0xB || c.val == 0xC || c.val == 0xD || c.val == 0x20

/-- The class `[ \t]`. -/
def isSpaceOrTab (c : CodePoint) : Bool := c.val == 0x20 || c.val == 0x9

/-- The class `[A-Za-z]`. -/
def isAsciiLetter (c : CodePoint) : Bool :=
  (0x41 ≤ c.val && c.val ≤ 0x5A) || (0x61 ≤ c.val && c.val ≤ 0x7A)

/-- `str.upper` on ASCII letters. -/
def asciiUpper (t : Text) : Text :=
  t.map fun c => if 0x61 ≤ c.val ∧ c.val ≤ 0x7A then Fin.ofNat _ (c.val - 0x20) else c

/-- The backslash and the backtick. -/
def escapeCharacters : List CodePoint := [0x5C, 0x60]

/-- `_lstrip_buildkit_whitespace`. -/
def lstripBuildkitWhitespace (t : Text) : Text := t.dropWhile isBuildkitWhitespace

/-- `_trim_buildkit_whitespace`. -/
def trimBuildkitWhitespace (t : Text) : Text :=
  (t.dropWhile isBuildkitWhitespace).rdropWhile isBuildkitWhitespace

/-! ### Lines -/

/-- A command and its argument. -/
abbrev Instruction := Text × Text

/-- `_split_docker_command`. -/
def splitDockerCommand (line : Text) : Option Instruction :=
  let normalized := trimBuildkitWhitespace line
  let command := normalized.takeWhile fun c => !isCommandSeparator c
  let rest := normalized.dropWhile fun c => !isCommandSeparator c
  let argument := trimBuildkitWhitespace (rest.dropWhile isCommandSeparator)
  if rest = [] ∨ command = [] ∨ ¬ command.all isAsciiLetter ∨ argument = [] then none
  else some (asciiUpper command, argument)

/-- The escape character, whether a directive has set it, and whether one still can. -/
structure DirectiveState where
  escapeCharacter : CodePoint
  directiveSeen : Bool
  windowOpen : Bool

def DirectiveState.close (state : DirectiveState) : DirectiveState := { state with windowOpen := false }

/-- A comment or an empty line. -/
def isSkipped (line : Text) : Bool :=
  (lstripBuildkitWhitespace line).head?.all fun c => c = ofChar '#'

/-- The line ends in one escape character, not preceded by another, and spaces or tabs; `body`
is what stands before. -/
def Fragment (escape : CodePoint) (line body : Text) : Prop :=
  ∃ blanks, line = body ++ escape :: blanks ∧ (∀ c ∈ blanks, isSpaceOrTab c = true) ∧
    body.getLast? ≠ some escape

/-- The lines of one instruction, and the text that they join to. A line is taken in only after
one that ends in an escape; comments and empty lines in between are left out. -/
inductive Continued (escape : CodePoint) : List Text → Text → Prop
  | last {line : Text} (complete : ¬ ∃ body, Fragment escape line body) : Continued escape [line] line
  | more {line body next text : Text} {skipped lines : List Text} (tail : Fragment escape line body)
      (left : ∀ s ∈ skipped, isSkipped s = true) (taken : isSkipped next = false)
      (rest : Continued escape (next :: lines) text) :
      Continued escape (line :: (skipped ++ next :: lines)) (body ++ text)

/-- The lines of a file, and the instructions in it. -/
inductive Layout (escape : CodePoint) : List Text → List Instruction → Prop
  | nil : Layout escape [] []
  | skip {line : Text} {lines : List Text} {instructions : List Instruction}
      (skipped : isSkipped line = true) (rest : Layout escape lines instructions) :
      Layout escape (line :: lines) instructions
  | instruction {start text : Text} {block lines : List Text} {instruction : Instruction}
      {instructions : List Instruction} (starts : isSkipped start = false)
      (continued : Continued escape (start :: block) text)
      (split : splitDockerCommand text = some instruction) (rest : Layout escape lines instructions) :
      Layout escape (start :: (block ++ lines)) (instruction :: instructions)

/-! ### Tails -/

variable {isWord : CodePoint → Bool} {escape : CodePoint} {line body t : Text} {lines : List Text}
  {state : DirectiveState} {instructions : List Instruction}

/-- A later state: its escape character is one of the two, and once the window is closed it
stays closed and the escape character stays. -/
def DirectiveState.Follows (state' state : DirectiveState) : Prop :=
  state'.escapeCharacter ∈ escapeCharacters ∧ (state.windowOpen = false →
    state'.windowOpen = false ∧ state'.escapeCharacter = state.escapeCharacter)

/-- The lines that are left when `current` has been read of an instruction. -/
def Resumed (escape : CodePoint) (current : Text) (lines : List Text)
    (instructions : List Instruction) : Prop :=
  ∃ (skipped block rest : List Text) (next text : Text) (instruction : Instruction)
    (others : List Instruction),
    lines = skipped ++ next :: (block ++ rest) ∧ (∀ s ∈ skipped, isSkipped s = true) ∧
      isSkipped next = false ∧ Continued escape (next :: block) text ∧
      splitDockerCommand (current ++ text) = some instruction ∧
      instructions = instruction :: others ∧ Layout escape rest others

theorem Resumed.skip {current : Text} (hline : isSkipped line = true)
    (h : Resumed escape current lines instructions) :
    Resumed escape current (line :: lines) instructions := by
  obtain ⟨skipped, block, rest, next, text, instruction, others, rfl, hskipped, hrest⟩ := h
  refine ⟨line :: skipped, block, rest, next, text, instruction, others, rfl, ?_, hrest⟩
  rintro s (_ | ⟨_, hs⟩)
  · exact hline
  · exact hskipped s hs

theorem Resumed.more {current current' : Text} (hline : isSkipped line = false)
    (hbody : Fragment escape line body)
    (hsame : ∀ t, splitDockerCommand (current' ++ t) = splitDockerCommand (current ++ (body ++ t)))
    (h : Resumed escape current' lines instructions) :
    Resumed escape current (line :: lines) instructions := by
  obtain ⟨skipped, block, rest, next, text, instruction, others, rfl, hskipped, hnext, hcontinued,
    hsplit, hrest⟩ := h
  refine ⟨[], skipped ++ next :: block, rest, line, body ++ text, instruction, others, ?_, ?_, hline,
    ?_, ?_, hrest⟩
  · simp
  · simp
  · exact Continued.more hbody hskipped hnext hcontinued
  · rw [← hsame]
    exact hsplit

theorem Resumed.last {current : Text} {instruction : Instruction} (hline : isSkipped line = false)
    (hlast : ¬ ∃ body, Fragment escape line body)
    (hsplit : splitDockerCommand (current ++ line) = some instruction)
    (h : Layout escape lines instructions) :
    Resumed escape current (line :: lines) (instruction :: instructions) :=
  ⟨[], [], lines, line, line, instruction, instructions, rfl, by simp, hline, Continued.last hlast,
    hsplit, rfl, h⟩

/-- What the lines hold for a reader that has no instruction or a part of one. -/
def Accounted (escape : CodePoint) (pending : Option Text) (lines : List Text)
    (instructions : List Instruction) : Prop :=
  match pending with
  | none => Layout escape lines instructions
  | some current => Resumed escape current lines instructions

theorem Accounted.skip {pending : Option Text} (hline : isSkipped line = true)
    (h : Accounted escape pending lines instructions) :
    Accounted escape pending (line :: lines) instructions := by
  cases pending with
  | none => exact Layout.skip hline h
  | some current => exact Resumed.skip hline h

end SentinelGRC.Assessment

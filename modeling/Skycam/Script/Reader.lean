import Skycam.Script.Line

/-!
# Script texts

The commands of a text fill one keyframe after another: each command sets its field of the keyframe
under construction, and `time` ends it. `loop` may stand anywhere. Commands after the last `time`
belong to no keyframe, and a problem with the line of the first of them says so.
-/

namespace Skycam.Script

/-- A script and what was wrong with its text. -/
structure Report where
  /-- The script. -/
  script : Script Float32
  /-- The problems in the order of their lines, and a missing `time` at the end last. -/
  problems : List Problem
  deriving DecidableEq, Repr

/-- A script of which some lines have been read. -/
structure Draft where
  /-- The keyframes that have ended. -/
  keyframes : List (Keyframe Float32)
  /-- The keyframe under construction. -/
  pending : Keyframe Float32
  /-- The line of the first command that set something in it. -/
  since : Option Nat
  /-- Whether a `loop` was read. -/
  looping : Bool
  deriving DecidableEq, Repr

namespace Draft

/-- The draft before the first line. -/
def start : Draft := ⟨[], Keyframe.still, none, false⟩

/-- Takes in the command of a line. -/
def take (d : Draft) (line : Nat) : Command Float32 → Draft
  | .loop => { d with looping := true }
  | .time duration =>
    { d with
      keyframes := d.keyframes ++ [{ d.pending with duration := duration }]
      pending := Keyframe.still
      since := none }
  | command =>
    { d with
      pending := command.apply d.pending
      since := if d.since.isSome then d.since else some line }

/-- Takes in a numbered line. -/
def takeLine (d : Draft) (line : LineReading × Nat) : Draft :=
  match line.1.command with
  | some command => d.take line.2 command
  | none => d

/-- The script so far. -/
def script (d : Draft) : Script Float32 := ⟨d.keyframes, d.looping⟩

/-- The problem of a text that ends before its last keyframe does. -/
def unterminated (d : Draft) : List Problem :=
  match d.since with
  | some line => [⟨line, .unterminated⟩]
  | none => []

end Draft

/-- The readings of the lines of a text, numbered from 1. -/
def readLines (text : String) : List (LineReading × Nat) :=
  ((Text.lines text.toList).map readLine).zipIdx 1

/-- The problems of a numbered line. -/
def lineProblems (line : LineReading × Nat) : List Problem :=
  line.1.faults.map fun fault => ⟨line.2, fault⟩

/-- Reads a script text with its problems. -/
def report (text : String) : Report :=
  let lines := readLines text
  let draft := lines.foldl Draft.takeLine Draft.start
  ⟨draft.script, lines.flatMap lineProblems ++ draft.unterminated⟩

/-- Reads a script text. -/
def ofText (text : String) : Script Float32 := (report text).script

/-- The notes that reading a text leaves in the log. -/
def readingNotes (text : String) : List Note :=
  let lines := readLines text
  let draft := lines.foldl Draft.takeLine Draft.start
  lines.flatMap (fun line => line.1.notes line.2) ++ draft.unterminated.map Problem.note

/-- Reads a script text with its problems and leaves the notes in the log. -/
def read (text : String) : Logged Report := do
  Logged.report (readingNotes text)
  return report text

end Skycam.Script

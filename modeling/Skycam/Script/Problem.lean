import Skycam.Logged

/-!
# Problems of script texts

Reading a script never fails. What cannot be read is passed over or takes a default, and a problem
with its line number says so.
-/

namespace Skycam.Script

/-- What is wrong with a line, and what becomes of it. -/
inductive Fault where
  /-- No such command; the line is passed over. -/
  | unknownCommand (word : String)
  /-- A token that is no finite number; it counts as 0. -/
  | invalidNumber (token : String)
  /-- Fewer arguments than the command takes; the missing ones count as 0. -/
  | missingArguments (command : String) (expected found : Nat)
  /-- No such follow mode; smooth is taken. -/
  | unknownMode (name : String)
  /-- Commands after the last `time`; they are passed over. -/
  | unterminated
  deriving DecidableEq, Repr

/-- A fault and the number of its line, counted from 1. -/
structure Problem where
  /-- The number of the line. -/
  line : Nat
  /-- What is wrong there. -/
  fault : Fault
  deriving DecidableEq, Repr

/-- The name of a kind of fault. -/
def Fault.label : Fault → String
  | unknownCommand _ => "UnknownCommand"
  | invalidNumber _ => "InvalidNumber"
  | missingArguments _ _ _ => "MissingArguments"
  | unknownMode _ => "UnknownMode"
  | unterminated => "UnterminatedKeyframe"

/-- The message of a fault. -/
def Fault.message : Fault → String
  | unknownCommand word => s!"unknown command '{word}'"
  | invalidNumber token => s!"'{token}' is not a number, using 0"
  | missingArguments command expected found =>
    s!"'{command}' expects {expected} argument(s), got {found}"
  | unknownMode name => s!"unknown follow mode '{name}', using smooth"
  | unterminated => "commands after the last 'time' are ignored"

/-- The message of a problem. -/
def Problem.message (p : Problem) : String := s!"line {p.line}: {p.fault.message}"

/-- The note that a problem leaves in the log. -/
def Problem.note (p : Problem) : Note :=
  match p.fault with
  | .unknownCommand word => ⟨.debug, s!"script line {p.line}: unknown command '{word}'"⟩
  | _ => ⟨.warn, s!"script {p.message}"⟩

end Skycam.Script

import Skycam.Number.Float32
import Skycam.Script.Basic
import Skycam.Script.Problem

/-!
# Lines of a script

A line is a command word and its arguments, separated by blank characters; the case of the letters
`A` to `Z` in the word does not matter. What a line means depends on that line alone: `readLine`
gives its command and its faults, `Command.apply` what the command does to the keyframe under
construction.
-/

namespace Skycam.Script

/-- A command of a script line. -/
inductive Command (α : Type) where
  /-- Sets the change of position. -/
  | position (motion : Motion α)
  /-- Sets a change of position along the axes of the camera. -/
  | bodyMove (value : Vec3 α)
  /-- Sets the change of rotation. -/
  | rotation (motion : Motion α)
  /-- Sets the change of the field of view. -/
  | fov (change : FovChange α)
  /-- Sets the projection. -/
  | projection (kind : Projection)
  /-- Sets what is looked at. -/
  | lookAt (what : LookAt α)
  /-- Hands the camera to a follow mode. -/
  | follow (mode : FollowMode)
  /-- Makes the script start over at its end. -/
  | loop
  /-- Ends the keyframe and gives its duration. -/
  | time (duration : α)
  deriving DecidableEq, Repr

namespace Command

variable {α : Type}

/-- Whether the command sets something in the keyframe under construction. -/
def setsField : Command α → Bool
  | loop => false
  | time _ => false
  | _ => true

/-- The keyframe under construction after the command. -/
def apply (k : Keyframe α) : Command α → Keyframe α
  | position motion => { k with position := motion }
  | bodyMove value => { k with position := .relative value, space := .body }
  | rotation motion => { k with rotation := motion }
  | fov change => { k with fov := some change }
  | projection kind => { k with projection := some kind }
  | lookAt what => { k with lookAt := what }
  | follow mode => { k with follow := some mode }
  | loop => k
  | time _ => k

end Command

/-- What a line says: a command, if there is one, and what is wrong. -/
structure LineReading where
  /-- The command of the line. -/
  command : Option (Command Float32)
  /-- The faults of the line, from left to right. -/
  faults : List Fault
  deriving DecidableEq, Repr

/-- The word at the start of a trimmed line. -/
def headWord (line : List Char) : List Char := line.takeWhile fun c => !Text.isBlank c

/-- The rest of a trimmed line after its first word, trimmed. -/
def afterHead (line : List Char) : List Char := Text.trim (line.drop (headWord line).length)

/-- The number that a token stands for: its own value, or 0 when it is no finite number. -/
def numberOf (token : List Char) : Float32 := (Single.finiteOfChars? token).getD 0.0

/-- The argument at a position as a number; a missing one counts as 0. -/
def numberAt (args : List (List Char)) (i : Nat) : Float32 :=
  match args[i]? with
  | some token => numberOf token
  | none => 0.0

/-- The first three arguments as a vector. -/
def vectorOf (args : List (List Char)) : Vec3 Float32 :=
  ⟨numberAt args 0, numberAt args 1, numberAt args 2⟩

/-- The fault of a command that has fewer arguments than it takes. -/
def missing (word : String) (expected : Nat) (args : List (List Char)) : Fault :=
  .missingArguments word expected args.length

/-- The faults of a command that takes a given count of numbers: one for each token among them that
is no finite number, then one when there are too few. Further tokens do not matter. -/
def numberFaults (word : String) (expected : Nat) (args : List (List Char)) : List Fault :=
  let bad := (args.take expected).filter fun token => (Single.finiteOfChars? token).isNone
  bad.map (fun token => .invalidNumber (String.ofList token)) ++
    if args.length < expected then [missing word expected args] else []

/-- A command that takes three numbers. -/
def vectorLine (word : String) (args : List (List Char))
    (command : Vec3 Float32 → Command Float32) : LineReading :=
  ⟨some (command (vectorOf args)), numberFaults word 3 args⟩

/-- A command that takes one number. -/
def scalarLine (word : String) (args : List (List Char))
    (command : Float32 → Command Float32) : LineReading :=
  ⟨some (command (numberAt args 0)), numberFaults word 1 args⟩

/-- A command that looks at a player. The name is the rest of the line, blank characters inside it
included; without a name the origin is looked at. -/
def playerLine (word : String) (name : List Char) (args : List (List Char)) (smooth : Bool) :
    LineReading :=
  if name = [] then ⟨some (.lookAt (.point Vec3.zero smooth)), [missing word 1 args]⟩
  else ⟨some (.lookAt (.player (String.ofList name) smooth)), []⟩

/-- A command that hands the camera to a follow mode. -/
def followLine (word : String) (args : List (List Char)) : LineReading :=
  match args with
  | [] => ⟨some (.follow .smooth), [missing word 1 args]⟩
  | name :: _ =>
    match FollowMode.ofChars? name with
    | some mode => ⟨some (.follow mode), []⟩
    | none => ⟨some (.follow .smooth), [.unknownMode (String.ofList name)]⟩

/-- Reads a line by its command word in small letters. -/
def readCommand (word : String) (head rest : List Char) (args : List (List Char)) : LineReading :=
  match word with
  | "setposition" => vectorLine word args fun v => .position (.absolute v)
  | "setrotation" => vectorLine word args fun v => .rotation (.absolute v)
  | "move" => vectorLine word args fun v => .position (.relative v)
  | "rotate" => vectorLine word args fun v => .rotation (.relative v)
  | "lmove" => vectorLine word args .bodyMove
  | "fov" => scalarLine word args fun v => .fov ⟨v, false⟩
  | "setfov" => scalarLine word args fun v => .fov ⟨v, true⟩
  | "ortho" => ⟨some (.projection .orthographic), []⟩
  | "persp" => ⟨some (.projection .perspective), []⟩
  | "lookat" => vectorLine word args fun v => .lookAt (.point v false)
  | "smoothlookat" => vectorLine word args fun v => .lookAt (.point v true)
  | "lookatplayer" => playerLine word rest args false
  | "smoothlookatplayer" => playerLine word rest args true
  | "clearlookat" => ⟨some (.lookAt .none), []⟩
  | "followmode" => followLine word args
  | "loop" => ⟨some .loop, []⟩
  | "time" => scalarLine word args fun v => .time (Scalar.max v 0.0)
  | _ => ⟨none, [.unknownCommand (String.ofList head)]⟩

/-- Reads a line. A blank line says nothing. -/
def readLine (line : List Char) : LineReading :=
  let line := Text.trim line
  match Text.words line with
  | [] => ⟨none, []⟩
  | head :: args =>
    readCommand (String.ofList (Text.lowerAscii head)) head (afterHead line) args

/-- The notes that a line leaves in the log: its faults, and the player that it looks at. -/
def LineReading.notes (r : LineReading) (line : Nat) : List Note :=
  let aside : List Note :=
    match r.command with
    | some (.lookAt (.player name _)) =>
      [⟨.debug, s!"script line {line}: look-at player '{name}'"⟩]
    | _ => []
  r.faults.map (fun fault => Problem.note ⟨line, fault⟩) ++ aside

end Skycam.Script

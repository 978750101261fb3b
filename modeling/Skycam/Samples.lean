import Skycam.Roster.Record

/-!
# Samples

Scripts and rosters to try things out with, under their names.
-/

namespace Skycam.Samples

/-- A sample: its name, the name of its file and the lines of its text. -/
structure Sample where
  /-- The name. -/
  name : String
  /-- The name of the file that holds it. -/
  file : String
  /-- The lines, without what ends them. -/
  lines : List String
  deriving DecidableEq, Repr

/-- The text of a sample: each of its lines ends in a line feed. -/
def Sample.text (s : Sample) : String := String.join (s.lines.map (· ++ "\n"))

/-- The sample scripts, sorted by name. -/
def scripts : List Sample := [
  ⟨"dolly", "dolly.pd", ["move 0 0 10", "time 2"]⟩,
  ⟨"establishing", "establishing.pd",
    ["setposition 0 30 -40", "setrotation 35 0 0", "setfov 80", "time 0", "",
     "move 0 -20 30", "smoothlookat 0 0 0", "fov 45", "time 4", "", "persp",
     "lookatplayer Racer One", "time 2"]⟩,
  ⟨"follow_handoff", "follow_handoff.pd",
    ["setposition 0 5 -10", "lookat 0 0 0", "time 1", "", "followmode locked", "time 3", "",
     "setfov 60", "clearlookat", "rotate 0 90 0", "time 1"]⟩,
  ⟨"local_orbit", "local_orbit.pd",
    ["loop", "setposition 0 2 -10", "time 0", "lmove 10 0 0", "lookat 0 0 0", "time 4"]⟩,
  ⟨"malformed", "malformed.pd",
    ["move 1 two 3", "wobble 4 5 6", "fov", "followmode orbit", "lookatplayer", "time 1",
     "setposition 1 1 1"]⟩,
  ⟨"zero_loop", "zero_loop.pd",
    ["loop", "move 1 0 0", "time 0", "move 0 1 0", "time 0"]⟩]

/-- The line of a roster's text that holds an anchor. -/
def anchorLine (kind position rotation : String) : String :=
  "      \x7b \"kind\": \"" ++ kind ++ "\", \"position\": [" ++ position ++
    "], \"rotation\": [" ++ rotation ++ "] \x7d"

/-- The sample rosters, sorted by name. -/
def rosters : List Sample := [
  ⟨"lobby_empty", "lobby_empty.json", ["[]"]⟩,
  ⟨"race_grid", "race_grid.json",
    ["[", "  \x7b", "    \"username\": \"Viewer\",", "    \"local\": true,",
     "    \"live\": 1,", "    \"anchors\": [",
     anchorLine "reset" "0.0, 0.0, -5.0" "0.0, 0.0, 0.0",
     "    ]", "  \x7d,", "  \x7b", "    \"username\": \"Racer One\",", "    \"live\": 2,",
     "    \"anchors\": [",
     anchorLine "body" "10.0, 0.0, 20.0" "0.0, 90.0, 0.0" ++ ",",
     anchorLine "head" "10.0, 1.2, 20.0" "0.0, 90.0, 0.0",
     "    ]", "  \x7d,", "  \x7b", "    \"username\": \"Loading Larry\"", "  \x7d", "]"]⟩]

/-- The kinds of samples. -/
inductive Kind where
  /-- Scripts. -/
  | script
  /-- Rosters. -/
  | roster
  deriving DecidableEq, Repr

/-- The name of a kind. -/
def Kind.name : Kind → String
  | script => "script"
  | roster => "roster"

/-- The samples of a kind. -/
def Kind.samples : Kind → List Sample
  | script => scripts
  | roster => rosters

/-- The names of the samples of a kind. -/
def names (kind : Kind) : List String := kind.samples.map (·.name)

/-- The message for a name under which there is no sample. -/
def unknownMessage (kind : Kind) (name : String) : String :=
  s!"unknown {kind.name} fixture '{name}'"

/-- The sample of a name. -/
def sample (kind : Kind) (name : String) : Except String Sample :=
  match kind.samples.find? (·.name == name) with
  | some s => .ok s
  | none => .error (unknownMessage kind name)

/-- The records of a sample roster; none when its text cannot be read. -/
def records (name : String) : Except String (Option (List RosterRecord)) :=
  (sample .roster name).map fun s => (Json.Value.ofText? s.text).bind RosterRecord.listOfJson?

end Skycam.Samples

import Skycam.Proofs.Script.Blocks

/-!
# What is wrong with a script text

The problems of a text are those of its lines, one line after another, and what a line says of
itself depends on nothing else. The one thing that is carried from line to line is the number of the
line that opened the keyframe under construction. The lines up to the last `time` leave none
(`takeLines_since_blocks`), and behind it the first command that sets something leaves its number
(`takeLines_since`): a text that ends there has one more problem (`problems_lineByLine`).
-/

namespace Skycam.Script

/-! ## Commands that take numbers -/

/-- A command that takes numbers: its word, how many it takes, and what it does with them. -/
structure NumberCommand where
  word : String
  count : Nat
  command : (Nat → Float32) → Command Float32

/-- The commands that take numbers. -/
def numberCommands : List NumberCommand :=
  [⟨"setposition", 3, fun x => .position (.absolute ⟨x 0, x 1, x 2⟩)⟩,
    ⟨"setrotation", 3, fun x => .rotation (.absolute ⟨x 0, x 1, x 2⟩)⟩,
    ⟨"move", 3, fun x => .position (.relative ⟨x 0, x 1, x 2⟩)⟩,
    ⟨"rotate", 3, fun x => .rotation (.relative ⟨x 0, x 1, x 2⟩)⟩,
    ⟨"lmove", 3, fun x => .bodyMove ⟨x 0, x 1, x 2⟩⟩,
    ⟨"lookat", 3, fun x => .lookAt (.point ⟨x 0, x 1, x 2⟩ false)⟩,
    ⟨"smoothlookat", 3, fun x => .lookAt (.point ⟨x 0, x 1, x 2⟩ true)⟩,
    ⟨"fov", 1, fun x => .fov ⟨x 0, false⟩⟩,
    ⟨"setfov", 1, fun x => .fov ⟨x 0, true⟩⟩,
    ⟨"time", 1, fun x => .time (Scalar.max (x 0) 0.0)⟩]

/-- What a line makes of the arguments of a command that takes numbers: there is a fault for each
token among them that is no numeral of a finite number, and one more if there are too few. A token
counts as the number that it stands for, and as 0 if it stands for none or is not there. -/
structure ReadsNumbers (c : NumberCommand) (args : List (List Char)) (r : LineReading) : Prop where
  faults : r.faults =
    ((args.take c.count).filter fun token => (Single.finiteOfChars? token).isNone).map
        (fun token => .invalidNumber (String.ofList token)) ++
      if args.length < c.count then [.missingArguments c.word c.count args.length] else []
  numbers : ∃ x, r.command = some (c.command x) ∧
    (∀ i token v, args[i]? = some token → Single.finiteOfChars? token = some v → x i = v) ∧
    ∀ i, (∀ token, args[i]? = some token → Single.finiteOfChars? token = none) → x i = 0.0

variable {line head rest : List Char} {args : List (List Char)} {word : String}
  {c : NumberCommand}

theorem numberAt_of_numeral {i : Nat} {token : List Char} {v : Float32}
    (htoken : args[i]? = some token) (hv : Single.finiteOfChars? token = some v) :
    numberAt args i = v := by
  rw [numberAt, htoken]
  simp [numberOf, hv]

/-- An argument that is none, or is not there, counts as 0. -/
theorem numberAt_eq_zero {i : Nat}
    (h : ∀ token, args[i]? = some token → Single.finiteOfChars? token = none) :
    numberAt args i = 0.0 := by
  unfold numberAt
  split
  · next token htoken => simp [numberOf, h token htoken]
  · rfl

/-- All commands that take numbers are read in one way. -/
theorem readCommand_of_mem (hc : c ∈ numberCommands) :
    readCommand c.word head rest args =
      ⟨some (c.command (numberAt args)), numberFaults c.word c.count args⟩ := by
  revert c
  simp only [numberCommands, List.forall_mem_cons, List.not_mem_nil, false_implies, implies_true]
  exact ⟨rfl, rfl, rfl, rfl, rfl, rfl, rfl, rfl, rfl, rfl, trivial⟩

/-- The first word of a line is its command and the others are the arguments. -/
theorem readLine_of_words (h : Text.words line = head :: args) :
    ∃ rest, readLine line =
      readCommand (String.ofList (Text.lowerAscii head)) head rest args := by
  unfold readLine
  dsimp only
  rw [Text.words_trim, h]
  exact ⟨_, rfl⟩

theorem readsNumbers (h : Text.words line = head :: args) (hc : c ∈ numberCommands)
    (hword : String.ofList (Text.lowerAscii head) = c.word) :
    ReadsNumbers c args (readLine line) := by
  obtain ⟨rest, hreading⟩ := readLine_of_words h
  rw [hreading, hword, readCommand_of_mem hc]
  exact ⟨rfl, numberAt args, rfl, fun _ _ _ => numberAt_of_numeral, fun _ => numberAt_eq_zero⟩

/-! ## Faults of lines -/

theorem unterminated_not_mem_numberFaults (count : Nat) :
    .unterminated ∉ numberFaults word count args := by
  unfold numberFaults missing
  split <;> simp

theorem unterminated_not_mem_playerLine (smooth : Bool) :
    .unterminated ∉ (playerLine word rest args smooth).faults := by
  unfold playerLine missing
  split <;> simp

theorem unterminated_not_mem_followLine : .unterminated ∉ (followLine word args).faults := by
  unfold followLine missing
  split
  · simp
  · split <;> simp

/-- No line says of itself that the text ends too early. -/
theorem unterminated_not_mem_faults (line : List Char) :
    .unterminated ∉ (readLine line).faults := by
  cases hword : keyword line with
  | none => simp [readLine_of_keyword_none hword]
  | some word =>
    obtain ⟨head, rest, args, hreading⟩ := readLine_of_keyword hword
    rw [hreading]
    unfold readCommand
    split <;>
      simp [vectorLine, scalarLine, unterminated_not_mem_numberFaults,
        unterminated_not_mem_playerLine, unterminated_not_mem_followLine]

/-! ## The line that opened the keyframe -/

/-- The words of the commands that set something in the keyframe under construction. -/
def fieldWords : List String := commandWords.filter fun word => word ≠ "loop" ∧ word ≠ "time"

/-- The line sets something in the keyframe under construction. -/
def writesField (line : List Char) : Bool := (keyword line).any (· ∈ fieldWords)

variable {d : Draft} {number : Nat}

theorem playerLine_isSome (smooth : Bool) :
    (playerLine word rest args smooth).command.isSome = true := by
  unfold playerLine
  split <;> rfl

theorem followLine_isSome : (followLine word args).command.isSome = true := by
  unfold followLine
  split
  · rfl
  · split <;> rfl

theorem readCommand_isSome (h : word ∈ commandWords) :
    (readCommand word head rest args).command.isSome = true := by
  unfold readCommand
  split <;> simp_all [vectorLine, scalarLine, playerLine_isSome, followLine_isSome, commandWords]

/-- The word of a line says whether its command sets something. -/
theorem writesField_eq (line : List Char) :
    writesField line = (readLine line).command.any Command.setsField := by
  cases hword : keyword line with
  | none => simp [writesField, readLine_of_keyword_none hword, hword]
  | some word =>
    obtain ⟨head, rest, args, hreading⟩ := readLine_of_keyword hword
    rw [writesField, hword, hreading, Option.any_some]
    by_cases hloop : word = "loop"
    · subst hloop
      rfl
    · by_cases htime : word = "time"
      · subst htime
        rfl
      · have hfield := readCommand_setsField head rest args hloop htime
        by_cases hmem : word ∈ commandWords
        · have hsome : (readCommand word head rest args).command.isSome = true :=
            readCommand_isSome hmem
          obtain ⟨command, hcommand⟩ := Option.isSome_iff_exists.mp hsome
          rw [hcommand] at hfield ⊢
          simpa [fieldWords, hmem, hloop, htime] using hfield.symm
        · rw [readCommand_of_notMem head rest args hmem]
          simp [fieldWords, hmem]

/-- A command that sets something leaves the number of its line, unless one is there. -/
theorem take_since {command : Command Float32} (h : command.setsField = true) :
    (d.take number command).since = d.since.or (some number) := by
  have hopen : (if d.since.isSome then d.since else some number) = d.since.or (some number) := by
    cases d.since <;> rfl
  cases command with
  | loop => cases h
  | time duration => cases h
  | _ => exact hopen

/-- A line that does not end the keyframe opens it if it sets something in it and none before
did. -/
theorem takeLine_since (h : keyword line ≠ some "time") :
    (d.takeLine (readLine line, number)).since =
      d.since.or (if writesField line then some number else none) := by
  rw [writesField_eq]
  by_cases hloop : keyword line = some "loop"
  · simp [Draft.takeLine, Draft.take, command_eq_loop hloop, Command.setsField]
  · have hfield := command_setsField hloop h
    cases hcommand : (readLine line).command with
    | none => simp [Draft.takeLine, hcommand]
    | some command =>
      rw [hcommand, Option.all_some] at hfield
      simp [Draft.takeLine, hcommand, hfield, take_since hfield]

/-- A line that ends the keyframe leaves none open. -/
theorem takeLine_since_of_time (h : keyword line = some "time") :
    (d.takeLine (readLine line, number)).since = none := by
  obtain ⟨duration, hcommand⟩ := exists_command_eq_time h
  simp [Draft.takeLine, Draft.take, hcommand]

/-- The draft after some lines of which the first has the given number. -/
def Draft.takeLines (d : Draft) (number : Nat) (lines : List (List Char)) : Draft :=
  ((lines.map readLine).zipIdx number).foldl Draft.takeLine d

theorem takeLines_append (d : Draft) (number : Nat) (front rest : List (List Char)) :
    d.takeLines number (front ++ rest) =
      (d.takeLines number front).takeLines (number + front.length) rest := by
  simp [Draft.takeLines, List.zipIdx_append]

/-- The number of the first line that sets something. -/
def firstField (number : Nat) (lines : List (List Char)) : Option Nat :=
  ((lines.zipIdx number).find? fun line => writesField line.1).map (·.2)

/-- Without a line that begins with `time`, the first line that sets something stays noted. -/
theorem takeLines_since {lines : List (List Char)}
    (h : ∀ line ∈ lines, keyword line ≠ some "time") (d : Draft) (number : Nat) :
    (d.takeLines number lines).since = d.since.or (firstField number lines) := by
  induction lines generalizing d number with
  | nil => simp [Draft.takeLines, firstField]
  | cons line rest ih =>
    have hrest := ih (fun other hother => h other (List.mem_cons_of_mem _ hother))
      (d.takeLine (readLine line, number)) (number + 1)
    have hstep : d.takeLines number (line :: rest) =
        (d.takeLine (readLine line, number)).takeLines (number + 1) rest := rfl
    rw [hstep, hrest, takeLine_since (h line List.mem_cons_self), Option.or_assoc]
    congr 1
    unfold firstField
    rw [List.zipIdx_cons, List.find?_cons]
    cases writesField line <;> simp

/-- Blocks leave no keyframe open. -/
theorem takeLines_since_blocks {bs : List (List (List Char))} (h : ∀ block ∈ bs, IsBlock block)
    (hd : d.since = none) (number : Nat) : (d.takeLines number bs.flatten).since = none := by
  induction bs generalizing d number with
  | nil => exact hd
  | cons block bs ih =>
    rw [List.flatten_cons, takeLines_append]
    refine ih (fun other hother => h other (List.mem_cons_of_mem _ hother)) ?_ _
    obtain ⟨front, last, rfl, hlast, -⟩ := h block List.mem_cons_self
    rw [takeLines_append]
    exact takeLine_since_of_time hlast

theorem isSome_firstField_iff (number : Nat) (lines : List (List Char)) :
    (firstField number lines).isSome = true ↔ ∃ line ∈ lines, writesField line = true := by
  rw [firstField, Option.isSome_map, List.find?_isSome]
  constructor
  · rintro ⟨⟨line, i⟩, hmem, hwrites⟩
    exact ⟨line, List.fst_mem_of_mem_zipIdx hmem, hwrites⟩
  · rintro ⟨line, hmem, hwrites⟩
    obtain ⟨i, hi⟩ := List.getElem?_of_mem hmem
    exact ⟨(line, number + i), List.mk_add_mem_zipIdx_iff_getElem?.mpr hi, hwrites⟩

/-! ## Texts -/

theorem unterminated_eq (d : Draft) :
    d.unterminated = (d.since.map fun number => ⟨number, .unterminated⟩).toList := by
  unfold Draft.unterminated
  cases d.since <;> rfl

/-- What the lines say of themselves is said in their order, with their numbers. -/
theorem flatMap_lineProblems (lines : List (List Char)) (number : Nat) :
    ((lines.map readLine).zipIdx number).flatMap lineProblems =
      (lines.zipIdx number).flatMap fun line =>
        (readLine line.1).faults.map (Problem.mk line.2) := by
  rw [List.zipIdx_map, List.flatMap_map]
  rfl

/-- The problems of a text are those of its lines, one line after another, with their numbers, and
what a line says of itself depends on that line alone. There is one more problem just if some
command behind the last `time` sets something, and it has the number of the first such line. A
command that takes numbers has a fault for each token among them that is no numeral, and one more
if there are too few tokens; a number that is not there counts as 0. -/
theorem problems_lineByLine (text : String) :
    let lines := Text.lines text.toList
    let cut := blocks lines
    let opened := firstField (cut.1.flatten.length + 1) cut.2
    IsCut lines cut.1 cut.2 ∧
      (report text).problems =
        ((lines.zipIdx 1).flatMap fun line => (readLine line.1).faults.map (Problem.mk line.2)) ++
          (opened.map fun number => ⟨number, .unterminated⟩).toList ∧
      (∀ line, .unterminated ∉ (readLine line).faults) ∧
      ((∃ number, ⟨number, .unterminated⟩ ∈ (report text).problems) ↔
        ∃ line ∈ cut.2, writesField line = true) ∧
      ∀ line head args, Text.words line = head :: args → ∀ c ∈ numberCommands,
        String.ofList (Text.lowerAscii head) = c.word → ReadsNumbers c args (readLine line) := by
  intro lines cut opened
  have hcut : IsCut lines cut.1 cut.2 := blocks_isCut lines
  have hsince : (Draft.start.takeLines 1 lines).since = opened := by
    rw [← hcut.flatten, takeLines_append, takeLines_since hcut.behind,
      takeLines_since_blocks hcut.isBlock rfl, Option.none_or, Nat.add_comm]
  have hproblems : (report text).problems =
      ((lines.zipIdx 1).flatMap fun line => (readLine line.1).faults.map (Problem.mk line.2)) ++
        (opened.map fun number => ⟨number, .unterminated⟩).toList := by
    rw [← flatMap_lineProblems, ← hsince, ← unterminated_eq]
    rfl
  refine ⟨hcut, hproblems, unterminated_not_mem_faults, ?_,
    fun line head args hwords c hc hword => readsNumbers hwords hc hword⟩
  rw [hproblems, ← isSome_firstField_iff (cut.1.flatten.length + 1)]
  constructor
  · rintro ⟨number, hmem⟩
    rcases List.mem_append.mp hmem with hline | hend
    · -- a line does not say this of itself
      obtain ⟨line, -, hfault⟩ := List.mem_flatMap.mp hline
      obtain ⟨fault, hfault, hsame⟩ := List.mem_map.mp hfault
      obtain ⟨-, rfl⟩ := (Problem.mk.injEq _ _ _ _).mp hsame
      exact absurd hfault (unterminated_not_mem_faults line.1)
    · rw [Option.mem_toList, Option.map_eq_some_iff] at hend
      obtain ⟨first, hfirst, -⟩ := hend
      exact Option.isSome_iff_exists.mpr ⟨first, hfirst⟩
  · intro hsome
    obtain ⟨first, hfirst⟩ := Option.isSome_iff_exists.mp hsome
    refine ⟨first, List.mem_append_right _ ?_⟩
    simp [opened, hfirst]

/-- A token that is no numeral, one too many, one too few, an infinite time, and two commands that
no `time` follows. -/
theorem problems_lineByLine_malformed :
    let text := "move 1 two 3 x\nfov\nTIME inf\nloop\nlookat\npersp"
    let line := "move 1 two 3 x".toList
    (report text).problems =
        [⟨1, .invalidNumber "two"⟩, ⟨2, .missingArguments "fov" 1 0⟩, ⟨3, .invalidNumber "inf"⟩,
          ⟨5, .missingArguments "lookat" 3 0⟩, ⟨5, .unterminated⟩] ∧
      (∃ last ∈ (blocks (Text.lines text.toList)).2, writesField last = true) ∧
      ReadsNumbers numberCommands[2] ["1".toList, "two".toList, "3".toList, "x".toList]
        (readLine line) := by
  intro text line
  obtain ⟨-, -, -, hopened, hnumbers⟩ := problems_lineByLine text
  have hproblems : (report text).problems =
      [⟨1, .invalidNumber "two"⟩, ⟨2, .missingArguments "fov" 1 0⟩, ⟨3, .invalidNumber "inf"⟩,
        ⟨5, .missingArguments "lookat" 3 0⟩, ⟨5, .unterminated⟩] := by decide
  have hwords : Text.words line = "move".toList :: ["1", "two", "3", "x"].map String.toList := by
    decide
  refine ⟨hproblems, hopened.mp ⟨5, ?_⟩, ?_⟩
  · rw [hproblems]
    decide
  · exact hnumbers line _ _ hwords numberCommands[2] (List.getElem_mem _) (by decide)

end Skycam.Script

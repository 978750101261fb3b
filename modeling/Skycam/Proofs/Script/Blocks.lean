import Skycam.Proofs.Text.Lines
import Skycam.Script.Reader

/-!
# Scripts are read block by block

A block of a script text ends with a line whose command is `time`. Since such a line starts the next
keyframe afresh, the keyframes of a text are those of its blocks, each read alone
(`ofText_blockwise`). What makes this true is that a line does nothing but its command: with the
keyframe under construction as an argument, the lines add keyframes (`framesFrom`) and do not look
at those that were added before.
-/

namespace Skycam.Script

/-! ## The word of a line -/

/-- The first word of a line, in small letters. -/
def keyword (line : List Char) : Option String :=
  (Text.words line).head?.map fun word => String.ofList (Text.lowerAscii word)

/-- The words of the commands. -/
def commandWords : List String :=
  ["setposition", "setrotation", "move", "rotate", "lmove", "fov", "setfov", "ortho", "persp",
    "lookat", "smoothlookat", "lookatplayer", "smoothlookatplayer", "clearlookat", "followmode",
    "loop", "time"]

/-- The line is blank, or its first word is none of the commands. -/
def SaysNothing (line : List Char) : Prop :=
  (∀ c ∈ line, Text.isBlank c = true) ∨ ∃ word, keyword line = some word ∧ word ∉ commandWords

variable {line : List Char} {word : String}

theorem readLine_of_keyword_none (h : keyword line = none) : readLine line = ⟨none, []⟩ := by
  have hwords : Text.words line = [] := by simpa [keyword] using h
  unfold readLine
  dsimp only
  rw [Text.words_trim, hwords]

/-- What a line says is decided by its first word. -/
theorem readLine_of_keyword (h : keyword line = some word) :
    ∃ head rest args, readLine line = readCommand word head rest args := by
  obtain ⟨head, hhead, rfl⟩ := Option.map_eq_some_iff.mp h
  obtain ⟨args, hwords⟩ := List.head?_eq_some_iff.mp hhead
  unfold readLine
  dsimp only
  rw [Text.words_trim, hwords]
  exact ⟨head, _, args, rfl⟩

theorem readLine_dropReturn (line : List Char) :
    readLine (Text.dropReturn line) = readLine line := by
  unfold readLine
  rw [Text.trim_dropReturn]

section ReadCommand

variable (head rest : List Char) (args : List (List Char))

theorem playerLine_setsField (smooth : Bool) :
    (playerLine word rest args smooth).command.all Command.setsField = true := by
  unfold playerLine
  split <;> rfl

theorem followLine_setsField : (followLine word args).command.all Command.setsField = true := by
  unfold followLine
  split
  · rfl
  · split <;> rfl

theorem readCommand_setsField (hloop : word ≠ "loop") (htime : word ≠ "time") :
    (readCommand word head rest args).command.all Command.setsField = true := by
  unfold readCommand
  split <;>
    simp_all [vectorLine, scalarLine, playerLine_setsField, followLine_setsField, Command.setsField]

theorem readCommand_of_notMem (h : word ∉ commandWords) :
    (readCommand word head rest args).command = none := by
  unfold readCommand
  split <;> simp_all [commandWords]

end ReadCommand

/-- All commands but `loop` and `time` set something in the keyframe. -/
theorem command_setsField (hloop : keyword line ≠ some "loop")
    (htime : keyword line ≠ some "time") :
    (readLine line).command.all Command.setsField = true := by
  cases hword : keyword line with
  | none =>
    rw [readLine_of_keyword_none hword]
    rfl
  | some word =>
    obtain ⟨head, rest, args, hreading⟩ := readLine_of_keyword hword
    rw [hreading]
    refine readCommand_setsField head rest args ?_ ?_ <;> rintro rfl <;> contradiction

theorem command_eq_loop (h : keyword line = some "loop") :
    (readLine line).command = some .loop := by
  obtain ⟨head, rest, args, hreading⟩ := readLine_of_keyword h
  rw [hreading]
  rfl

theorem exists_command_eq_time (h : keyword line = some "time") :
    ∃ duration, (readLine line).command = some (.time duration) := by
  obtain ⟨head, rest, args, hreading⟩ := readLine_of_keyword h
  rw [hreading]
  exact ⟨_, rfl⟩

theorem SaysNothing.command_eq_none (h : SaysNothing line) : (readLine line).command = none := by
  rcases h with hblank | ⟨word, hword, hunknown⟩
  · have hkeyword : keyword line = none := by simp [keyword, Text.words_eq_nil hblank]
    rw [readLine_of_keyword_none hkeyword]
  · obtain ⟨head, rest, args, hreading⟩ := readLine_of_keyword hword
    rw [hreading, readCommand_of_notMem head rest args hunknown]

/-! ## The keyframes of some lines -/

/-- The keyframes that some lines add when `k` is under construction before them. -/
def framesFrom (k : Keyframe Float32) : List (List Char) → List (Keyframe Float32)
  | [] => []
  | line :: rest =>
    match (readLine line).command with
    | some (.time duration) => { k with duration } :: framesFrom .still rest
    | some command => framesFrom (command.apply k) rest
    | none => framesFrom k rest

/-- Reading lines adds their keyframes to those before, and sets the flag if one of them says so. -/
theorem foldl_takeLine (lines : List (List Char)) (d : Draft) (number : Nat) :
    (((lines.map readLine).zipIdx number).foldl Draft.takeLine d).script =
      ⟨d.keyframes ++ framesFrom d.pending lines,
        d.looping || lines.any (keyword · = some "loop")⟩ := by
  induction lines generalizing d number with
  | nil => simp [Draft.script, framesFrom]
  | cons line rest ih =>
    rw [List.map_cons, List.zipIdx_cons, List.foldl_cons, ih, List.any_cons, framesFrom]
    by_cases htime : keyword line = some "time"
    · obtain ⟨duration, hcommand⟩ := exists_command_eq_time htime
      simp [Draft.takeLine, Draft.take, hcommand, htime]
    · by_cases hloop : keyword line = some "loop"
      · simp [Draft.takeLine, Draft.take, command_eq_loop hloop, hloop, Command.apply]
      · have hfield := command_setsField hloop htime
        cases hcommand : (readLine line).command with
        | none => simp [Draft.takeLine, hcommand, hloop]
        | some command =>
          rw [hcommand] at hfield
          cases command <;> simp_all [Draft.takeLine, Draft.take, Command.setsField]

theorem ofText_eq (text : String) : ofText text =
    ⟨framesFrom .still (Text.lines text.toList),
      (Text.lines text.toList).any (keyword · = some "loop")⟩ :=
  foldl_takeLine (Text.lines text.toList) Draft.start 1

theorem framesFrom_dropReturn (k : Keyframe Float32) (lines : List (List Char)) :
    framesFrom k (lines.map Text.dropReturn) = framesFrom k lines := by
  induction lines generalizing k with
  | nil => rfl
  | cons line rest ih => simp only [List.map_cons, framesFrom, readLine_dropReturn, ih]

theorem framesFrom_of_command_eq_none (h : (readLine line).command = none) (k : Keyframe Float32)
    (before after : List (List Char)) :
    framesFrom k (before ++ line :: after) = framesFrom k (before ++ after) := by
  induction before generalizing k with
  | nil => simp [framesFrom, h]
  | cons first before ih => simp only [List.cons_append, framesFrom, ih]

/-- The keyframe under construction after a line that does not end it. -/
def fill (k : Keyframe Float32) (line : List Char) : Keyframe Float32 :=
  match (readLine line).command with
  | some command => command.apply k
  | none => k

/-- A line without `time` ends no keyframe: it changes the one under construction. -/
theorem framesFrom_cons_of_ne_time (h : keyword line ≠ some "time") (k : Keyframe Float32)
    (rest : List (List Char)) : framesFrom k (line :: rest) = framesFrom (fill k line) rest := by
  by_cases hloop : keyword line = some "loop"
  · simp [framesFrom, fill, command_eq_loop hloop, Command.apply]
  · have hfield := command_setsField hloop h
    cases hcommand : (readLine line).command with
    | none => simp [framesFrom, fill, hcommand]
    | some command =>
      rw [hcommand] at hfield
      cases command <;> simp_all [framesFrom, fill, Command.setsField]

/-- Lines that end no keyframe fill the one under construction. -/
theorem framesFrom_append_of_ne_time {front : List (List Char)}
    (h : ∀ line ∈ front, keyword line ≠ some "time") (k : Keyframe Float32)
    (rest : List (List Char)) :
    framesFrom k (front ++ rest) = framesFrom (front.foldl fill k) rest := by
  induction front generalizing k with
  | nil => rfl
  | cons line front ih =>
    rw [List.cons_append, framesFrom_cons_of_ne_time (h line List.mem_cons_self), List.foldl_cons]
    exact ih (fun other hother => h other (List.mem_cons_of_mem _ hother)) (fill k line)

/-- A line with `time` adds the keyframe under construction with its duration. -/
theorem exists_framesFrom_cons_of_time (h : keyword line = some "time") :
    ∃ duration, ∀ k rest, framesFrom k (line :: rest) =
      { k with duration } :: framesFrom .still rest := by
  obtain ⟨duration, hcommand⟩ := exists_command_eq_time h
  exact ⟨duration, fun k rest => by rw [framesFrom, hcommand]⟩

/-! ## Blocks -/

/-- The lines are a block: the word of the last one, and of no other, is `time`. -/
def IsBlock (lines : List (List Char)) : Prop :=
  ∃ front last, lines = front ++ [last] ∧ keyword last = some "time" ∧
    ∀ line ∈ front, keyword line ≠ some "time"

/-- Cuts some lines after each one whose word is `time`: the blocks, and the lines behind the last
of them. -/
def blocks : List (List Char) → List (List (List Char)) × List (List Char)
  | [] => ([], [])
  | line :: rest =>
    if keyword line = some "time" then ([line] :: (blocks rest).1, (blocks rest).2)
    else
      match (blocks rest).1 with
      | [] => ([], line :: (blocks rest).2)
      | block :: more => ((line :: block) :: more, (blocks rest).2)

/-- The blocks and the lines behind them make up some lines, and no block ends behind them. -/
structure IsCut (lines : List (List Char)) (bs : List (List (List Char)))
    (rest : List (List Char)) : Prop where
  flatten : bs.flatten ++ rest = lines
  isBlock : ∀ block ∈ bs, IsBlock block
  behind : ∀ line ∈ rest, keyword line ≠ some "time"

/-- The blocks and the rest are the lines in their order. -/
theorem blocks_flatten (lines : List (List Char)) :
    (blocks lines).1.flatten ++ (blocks lines).2 = lines := by
  induction lines with
  | nil => rfl
  | cons line rest ih =>
    unfold blocks
    split
    · simpa using ih
    · split
      · next hnone => simpa [hnone] using ih
      · next block more hsome => simpa [hsome] using ih

/-- Every block ends with its only line that begins with `time`. -/
theorem isBlock_of_mem_blocks {lines block : List (List Char)} (h : block ∈ (blocks lines).1) :
    IsBlock block := by
  induction lines generalizing block with
  | nil => cases h
  | cons line rest ih =>
    unfold blocks at h
    split at h
    · next htime =>
      rcases List.mem_cons.mp h with rfl | hlater
      · exact ⟨[], line, rfl, htime, by simp⟩
      · exact ih hlater
    · next htime =>
      split at h
      · cases h
      · next first more hfirst =>
        rw [hfirst] at ih
        rcases List.mem_cons.mp h with rfl | hlater
        · obtain ⟨front, last, rfl, hlast, hfront⟩ := ih List.mem_cons_self
          refine ⟨line :: front, last, rfl, hlast, ?_⟩
          exact List.forall_mem_cons.mpr ⟨htime, hfront⟩
        · exact ih (List.mem_cons_of_mem _ hlater)

/-- No line behind the last block has the word `time`. -/
theorem keyword_ne_time_of_mem_blocks {lines : List (List Char)} (h : line ∈ (blocks lines).2) :
    keyword line ≠ some "time" := by
  induction lines with
  | nil => cases h
  | cons first rest ih =>
    unfold blocks at h
    split at h
    · exact ih h
    · next htime =>
      split at h
      · rcases List.mem_cons.mp h with rfl | hlater
        · exact htime
        · exact ih hlater
      · exact ih h

/-- A block adds one keyframe, which it alone decides, and the lines behind it start afresh. -/
theorem IsBlock.exists_frame {block : List (List Char)} (h : IsBlock block)
    (k : Keyframe Float32) :
    ∃ frame, ∀ rest, framesFrom k (block ++ rest) = frame :: framesFrom .still rest := by
  obtain ⟨front, last, rfl, hlast, hfront⟩ := h
  obtain ⟨duration, hframe⟩ := exists_framesFrom_cons_of_time hlast
  refine ⟨{ front.foldl fill k with duration }, fun rest => ?_⟩
  rw [List.append_assoc, framesFrom_append_of_ne_time hfront, List.singleton_append, hframe]

/-- Each block gives one keyframe, and the rest gives none. -/
theorem map_framesFrom_blocks {bs : List (List (List Char))} (h : ∀ block ∈ bs, IsBlock block)
    {rest : List (List Char)} (hrest : ∀ line ∈ rest, keyword line ≠ some "time") :
    bs.map (framesFrom .still) = (framesFrom .still (bs.flatten ++ rest)).map ([·]) := by
  induction bs with
  | nil =>
    have hnone := framesFrom_append_of_ne_time hrest .still []
    rw [List.append_nil] at hnone
    rw [List.flatten_nil, List.nil_append, hnone]
    rfl
  | cons block bs ih =>
    obtain ⟨frame, hframe⟩ := (h block List.mem_cons_self).exists_frame .still
    have halone := hframe []
    rw [List.append_nil] at halone
    rw [List.map_cons, List.flatten_cons, List.append_assoc, hframe, List.map_cons, halone,
      ih fun other hother => h other (List.mem_cons_of_mem _ hother)]
    rfl

theorem blocks_isCut (lines : List (List Char)) :
    IsCut lines (blocks lines).1 (blocks lines).2 where
  flatten := blocks_flatten lines
  isBlock := fun _ => isBlock_of_mem_blocks
  behind := fun _ => keyword_ne_time_of_mem_blocks

/-! ## Texts -/

/-- The text of some lines. -/
def textOf (lines : List (List Char)) : String := String.ofList (Text.unlines lines)

theorem keyframes_textOf {lines : List (List Char)} (h : ∀ line ∈ lines, '\n' ∉ line) :
    (ofText (textOf lines)).keyframes = framesFrom .still lines := by
  rw [ofText_eq, textOf, String.toList_ofList, Text.lines_unlines h]
  exact framesFrom_dropReturn .still lines

/-- A line that says nothing can be left out of a text. -/
theorem SaysNothing.ofText_eq {text other : String} {before after : List (List Char)}
    (h : SaysNothing line) (htext : Text.lines text.toList = before ++ line :: after)
    (hother : Text.lines other.toList = before ++ after) : ofText other = ofText text := by
  have hloop : keyword line ≠ some "loop" := by
    rcases h with hblank | ⟨word, hword, hunknown⟩
    · simp [keyword, Text.words_eq_nil hblank]
    · rw [hword]
      rintro ⟨⟩
      exact hunknown (by decide)
  rw [Script.ofText_eq, Script.ofText_eq, htext, hother,
    framesFrom_of_command_eq_none h.command_eq_none]
  simp [hloop]

/-- Cut the lines of a text after each `time`. Each block gives the keyframe that it gives when it
is read alone, and the lines behind the last block give none. The script starts over just if some
line says `loop`, and lines that say nothing may be put in or left out anywhere. -/
theorem ofText_blockwise (text : String) :
    let lines := Text.lines text.toList
    let cut := blocks lines
    IsCut lines cut.1 cut.2 ∧
      cut.1.map (fun block => (ofText (textOf block)).keyframes) =
        (ofText text).keyframes.map ([·]) ∧
      (ofText (textOf cut.2)).keyframes = [] ∧
      ((ofText text).looping = true ↔ ∃ line ∈ lines, keyword line = some "loop") ∧
      ∀ other before line after, lines = before ++ line :: after → SaysNothing line →
        Text.lines other.toList = before ++ after → ofText other = ofText text := by
  intro lines cut
  have hcut : IsCut lines cut.1 cut.2 := blocks_isCut lines
  have hlines : ∀ line ∈ cut.1.flatten ++ cut.2, '\n' ∉ line := by
    rw [hcut.flatten]
    exact fun _ => Text.lineFeed_not_mem_of_mem_lines
  refine ⟨hcut, ?_, ?_, ?_, fun other before line after htext hnothing hother =>
    hnothing.ofText_eq htext hother⟩
  · have halone : ∀ block ∈ cut.1,
        (ofText (textOf block)).keyframes = framesFrom .still block := by
      intro block hblock
      refine keyframes_textOf fun line hline => hlines line ?_
      exact List.mem_append_left _ (List.mem_flatten.mpr ⟨block, hblock, hline⟩)
    rw [List.map_congr_left halone, map_framesFrom_blocks hcut.isBlock hcut.behind, hcut.flatten,
      Script.ofText_eq]
  · rw [keyframes_textOf fun line hline => hlines line (List.mem_append_right _ hline)]
    have hnoBlock : ∀ block ∈ ([] : List (List (List Char))), IsBlock block := by simp
    have hnone := map_framesFrom_blocks hnoBlock hcut.behind
    simpa using hnone
  · rw [Script.ofText_eq]
    simp [lines]

/-- A misspelt command in the middle of a block. -/
theorem ofText_blockwise_unknown : SaysNothing "wobble 2".toList ∧
    ofText "move 1 0 0\ntime 1\nloop" = ofText "move 1 0 0\nwobble 2\ntime 1\nloop" := by
  have hnothing : SaysNothing "wobble 2".toList :=
    Or.inr ⟨"wobble", by decide +kernel, by decide⟩
  obtain ⟨-, -, -, -, hsame⟩ := ofText_blockwise "move 1 0 0\nwobble 2\ntime 1\nloop"
  exact ⟨hnothing, hsame _ ["move 1 0 0".toList] "wobble 2".toList
    ["time 1".toList, "loop".toList] (by decide +kernel) hnothing (by decide +kernel)⟩

end Skycam.Script

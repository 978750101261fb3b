import Mathlib.Data.List.DropRight
import Skycam.Proofs.Script.Blocks

/-!
# Commands that a later one supersedes

Within a block a later command of the same kind takes the place of an earlier one, with a single
exception: `lmove` says that the change of position is along the axes of the camera, and `move` and
`setposition` do not take that back. `ofText_superseded` says what leaving out a superseded line
does to the script, for every kind of command.
-/

namespace Skycam

/-- What a command of a script sets. -/
inductive Slot where
  | position
  | rotation
  | fov
  | projection
  | lookAt
  | follow
  deriving DecidableEq, Repr

/-- The keyframe with one of its settings taken back, a change of position without its axes. -/
def Keyframe.without (k : Keyframe Float32) : Slot → Keyframe Float32
  | .position => { k with position := .relative Vec3.zero }
  | .rotation => { k with rotation := .relative Vec3.zero }
  | .fov => { k with fov := none }
  | .projection => { k with projection := none }
  | .lookAt => { k with lookAt := .none }
  | .follow => { k with follow := none }

/-- The keyframe with its change of position along the axes of the camera. -/
def Keyframe.alongCamera (k : Keyframe Float32) : Keyframe Float32 := { k with space := .body }

namespace Script

namespace Command

/-- What the command sets in the keyframe under construction. -/
def slot : Command Float32 → Option Slot
  | position _ => some .position
  | bodyMove _ => some .position
  | rotation _ => some .rotation
  | fov _ => some .fov
  | projection _ => some .projection
  | lookAt _ => some .lookAt
  | follow _ => some .follow
  | loop => none
  | time _ => none

/-- The command sets the axes of the change of position besides the change itself. -/
def isBodyMove : Command Float32 → Bool
  | bodyMove _ => true
  | _ => false

variable {command : Command Float32} {s : Slot} {k k' : Keyframe Float32}

/-- Apart from what it sets, a command leaves the keyframe alone, but for the axes of `lmove`. -/
theorem without_apply (h : command.slot = some s) :
    (command.apply k).without s =
      (if command.isBodyMove then k.alongCamera else k).without s := by
  cases command <;> simp_all only [slot, Option.some.injEq, reduceCtorEq] <;> subst h <;> rfl

theorem without_apply_congr (h : k.without s = k'.without s) :
    (command.apply k).without s = (command.apply k').without s := by
  cases command <;> cases s <;> simp_all [apply, Keyframe.without]

/-- A command does not look at what it sets. -/
theorem apply_congr (hslot : command.slot = some s) (h : k.without s = k'.without s) :
    command.apply k = command.apply k' := by
  cases command <;> simp_all only [slot, Option.some.injEq, reduceCtorEq] <;> subst hslot <;>
    simp_all [apply, Keyframe.without]

theorem apply_alongCamera (command : Command Float32) (k : Keyframe Float32) :
    command.apply k.alongCamera = (command.apply k).alongCamera := by
  cases command <;> rfl

theorem space_apply : (command.apply k).space = .body ↔
    k.space = .body ∨ command.isBodyMove = true := by
  cases command <;> simp [apply, isBodyMove]

end Command

/-! ## What a line sets -/

/-- What a command word sets. -/
def slotOfWord : String → Option Slot
  | "setposition" => some .position
  | "move" => some .position
  | "lmove" => some .position
  | "setrotation" => some .rotation
  | "rotate" => some .rotation
  | "fov" => some .fov
  | "setfov" => some .fov
  | "ortho" => some .projection
  | "persp" => some .projection
  | "lookat" => some .lookAt
  | "smoothlookat" => some .lookAt
  | "lookatplayer" => some .lookAt
  | "smoothlookatplayer" => some .lookAt
  | "clearlookat" => some .lookAt
  | "followmode" => some .follow
  | _ => none

/-- What the command of a line sets. -/
def slot (line : List Char) : Option Slot := (keyword line).bind slotOfWord

variable {line later : List Char} {s : Slot} {k : Keyframe Float32}

section ReadCommand

variable (word : String) (head rest : List Char) (args : List (List Char))

theorem playerLine_slot (smooth : Bool) :
    (playerLine word rest args smooth).command.bind Command.slot = some .lookAt := by
  unfold playerLine
  split <;> rfl

theorem followLine_slot : (followLine word args).command.bind Command.slot = some .follow := by
  unfold followLine
  split
  · rfl
  · split <;> rfl

/-- What a command sets is decided by its word. -/
theorem readCommand_slot :
    (readCommand word head rest args).command.bind Command.slot = slotOfWord word := by
  unfold readCommand slotOfWord
  split
  case h_12 | h_13 => exact playerLine_slot ..
  case h_15 => exact followLine_slot ..
  case h_18 => simp
  all_goals rfl

/-- Only `lmove` sets the axes. -/
theorem readCommand_isBodyMove :
    (readCommand word head rest args).command.any Command.isBodyMove = decide (word = "lmove") := by
  have hplayer : ∀ smooth,
      (playerLine word rest args smooth).command.any Command.isBodyMove = false := by
    intro smooth
    unfold playerLine
    split <;> rfl
  have hfollow : (followLine word args).command.any Command.isBodyMove = false := by
    unfold followLine
    split
    · rfl
    · split <;> rfl
  unfold readCommand
  split <;> simp_all [vectorLine, scalarLine, Command.isBodyMove]

end ReadCommand

/-- What a line sets is decided by its first word. -/
theorem command_slot (line : List Char) :
    (readLine line).command.bind Command.slot = slot line := by
  cases hword : keyword line with
  | none => rw [readLine_of_keyword_none hword, slot, hword]; rfl
  | some word =>
    obtain ⟨head, rest, args, hreading⟩ := readLine_of_keyword hword
    rw [hreading, slot, hword]
    exact readCommand_slot word head rest args

theorem command_isBodyMove (line : List Char) :
    (readLine line).command.any Command.isBodyMove = decide (keyword line = some "lmove") := by
  cases hword : keyword line with
  | none => rw [readLine_of_keyword_none hword]; rfl
  | some word =>
    obtain ⟨head, rest, args, hreading⟩ := readLine_of_keyword hword
    rw [hreading, readCommand_isBodyMove]
    simp

/-! ## Filling a keyframe -/

/-- A line that sets something applies one command to the keyframe. -/
theorem exists_fill_of_slot (h : slot line = some s) : ∃ command : Command Float32,
    command.slot = some s ∧ (command.isBodyMove = true ↔ keyword line = some "lmove") ∧
      ∀ k, fill k line = command.apply k := by
  have hslot := command_slot line
  rw [h] at hslot
  obtain ⟨command, hcommand, hset⟩ := Option.bind_eq_some_iff.mp hslot
  have hbody := command_isBodyMove line
  rw [hcommand] at hbody
  refine ⟨command, hset, ?_, fun k => by rw [fill, hcommand]⟩
  simpa using congrArg (· = true) hbody

theorem ne_time_of_slot (h : slot line = some s) : keyword line ≠ some "time" := by
  intro htime
  rw [slot, htime] at h
  cases h

theorem without_fill_congr {k' : Keyframe Float32} (h : k.without s = k'.without s)
    (line : List Char) : (fill k line).without s = (fill k' line).without s := by
  unfold fill
  split
  · exact Command.without_apply_congr h
  · exact h

theorem fill_alongCamera (k : Keyframe Float32) (line : List Char) :
    fill k.alongCamera line = (fill k line).alongCamera := by
  unfold fill
  split
  · exact Command.apply_alongCamera _ k
  · rfl

theorem space_fill :
    (fill k line).space = .body ↔ k.space = .body ∨ keyword line = some "lmove" := by
  rw [← decide_eq_true_iff (p := keyword line = some "lmove"), ← command_isBodyMove, fill]
  split
  next command hcommand => rw [hcommand, Option.any_some, Command.space_apply]
  next hcommand => simp [hcommand]

theorem space_foldl_fill (lines : List (List Char)) (k : Keyframe Float32) :
    (lines.foldl fill k).space = .body ↔
      k.space = .body ∨ ∃ move ∈ lines, keyword move = some "lmove" := by
  induction lines generalizing k with
  | nil => simp
  | cons line rest ih => rw [List.foldl_cons, ih, space_fill, or_assoc, List.exists_mem_cons_iff]

/-! ## A superseded line -/

/-- The lines before the first `time`. -/
def untilTime (lines : List (List Char)) : List (List Char) :=
  lines.takeWhile (keyword · ≠ some "time")

/-- The lines behind the last `time`. -/
def sinceTime (lines : List (List Char)) : List (List Char) :=
  lines.rtakeWhile (keyword · ≠ some "time")

/-- Two keyframes that differ in one setting give the same keyframes when a line sets it. -/
theorem framesFrom_congr {k' : Keyframe Float32} {rest : List (List Char)}
    (h : k.without s = k'.without s) (hlater : later ∈ untilTime rest)
    (hslot : slot later = some s) : framesFrom k rest = framesFrom k' rest := by
  induction rest generalizing k k' with
  | nil => cases hlater
  | cons first rest ih =>
    by_cases htime : keyword first = some "time"
    · rw [untilTime, List.takeWhile_cons_of_neg (by simpa using htime)] at hlater
      cases hlater
    · rw [framesFrom_cons_of_ne_time htime, framesFrom_cons_of_ne_time htime]
      rw [untilTime, List.takeWhile_cons_of_pos (by simpa using htime)] at hlater
      rcases List.mem_cons.mp hlater with rfl | hmem
      · obtain ⟨command, hset, -, happly⟩ := exists_fill_of_slot hslot
        rw [happly, happly, Command.apply_congr hset h]
      · exact ih (without_fill_congr h first) hmem

/-- A line that a later one supersedes leaves at most the axes of the camera behind. -/
theorem framesFrom_superseded {rest : List (List Char)} (hline : slot line = some s)
    (hlater : later ∈ untilTime rest) (hslot : slot later = some s) (k : Keyframe Float32) :
    framesFrom k (line :: rest) =
      framesFrom (if keyword line = some "lmove" then k.alongCamera else k) rest := by
  obtain ⟨command, hset, hbody, happly⟩ := exists_fill_of_slot hline
  rw [framesFrom_cons_of_ne_time (ne_time_of_slot hline), happly]
  refine framesFrom_congr ?_ hlater hslot
  rw [Command.without_apply hset]
  simp only [hbody]

/-- The axes of the camera stay with the keyframe under construction. -/
theorem framesFrom_alongCamera (lines : List (List Char)) (k : Keyframe Float32) :
    framesFrom k.alongCamera lines = (framesFrom k lines).modify 0 Keyframe.alongCamera := by
  induction lines generalizing k with
  | nil => rfl
  | cons line rest ih =>
    by_cases htime : keyword line = some "time"
    · obtain ⟨duration, hframe⟩ := exists_framesFrom_cons_of_time htime
      rw [hframe, hframe]
      rfl
    · rw [framesFrom_cons_of_ne_time htime, framesFrom_cons_of_ne_time htime, fill_alongCamera, ih]

/-- The lines behind the last `time` of the lines read so far are what matters for the next ones. -/
theorem framesFrom_append (before rest : List (List Char)) :
    framesFrom .still (before ++ rest) =
      framesFrom .still before ++ framesFrom ((sinceTime before).foldl fill .still) rest := by
  induction before using List.reverseRecOn generalizing rest with
  | nil => simp [framesFrom, sinceTime]
  | append_singleton before line ih =>
    rw [List.append_assoc, List.singleton_append, ih, ih [line]]
    by_cases htime : keyword line = some "time"
    · obtain ⟨duration, hframe⟩ := exists_framesFrom_cons_of_time htime
      have hsince : sinceTime (before ++ [line]) = [] := by
        simp [sinceTime, htime]
      rw [hframe, hframe, hsince]
      simp [framesFrom]
    · have hsince : sinceTime (before ++ [line]) = sinceTime before ++ [line] := by
        simp [sinceTime, htime]
      rw [framesFrom_cons_of_ne_time htime, framesFrom_cons_of_ne_time htime, hsince]
      simp [framesFrom]

theorem modify_append_length {α : Type} (f : α → α) (front back : List α) :
    (front ++ back).modify front.length f = front ++ back.modify 0 f := by
  induction front with
  | nil => rfl
  | cons x front ih => simp [List.modify_succ_cons, ih]

/-- There are as many keyframes as lines that begin with `time`. -/
theorem length_framesFrom (lines : List (List Char)) (k : Keyframe Float32) :
    (framesFrom k lines).length = lines.countP (keyword · = some "time") := by
  induction lines generalizing k with
  | nil => rfl
  | cons line rest ih =>
    by_cases htime : keyword line = some "time"
    · obtain ⟨duration, hframe⟩ := exists_framesFrom_cons_of_time htime
      rw [hframe, List.length_cons, ih, List.countP_cons_of_pos (by simpa using htime)]
    · rw [framesFrom_cons_of_ne_time htime, ih, List.countP_cons_of_neg (by simpa using htime)]

/-- The first keyframe that some lines add is what those before the first `time` make of `k`. -/
theorem framesFrom_eq_nil_or_cons (lines : List (List Char)) (k : Keyframe Float32) :
    ((∀ line ∈ lines, keyword line ≠ some "time") ∧ framesFrom k lines = []) ∨
      (∃ line ∈ lines, keyword line = some "time") ∧ ∃ duration more, framesFrom k lines =
        { (untilTime lines).foldl fill k with duration } :: more := by
  induction lines generalizing k with
  | nil => exact Or.inl ⟨by simp, rfl⟩
  | cons line rest ih =>
    by_cases htime : keyword line = some "time"
    · obtain ⟨duration, hframe⟩ := exists_framesFrom_cons_of_time htime
      refine Or.inr ⟨⟨line, List.mem_cons_self, htime⟩, duration, framesFrom .still rest, ?_⟩
      rw [hframe]
      simp [untilTime, htime]
    · rw [framesFrom_cons_of_ne_time htime]
      rcases ih (fill k line) with ⟨hnone, hframes⟩ | ⟨⟨time, hmem, hword⟩, duration, more, hframes⟩
      · exact Or.inl ⟨List.forall_mem_cons.mpr ⟨htime, hnone⟩, hframes⟩
      · refine Or.inr ⟨⟨time, List.mem_cons_of_mem _ hmem, hword⟩, duration, more, ?_⟩
        rw [hframes]
        simp [untilTime, htime]

/-- The axes of the first keyframe are already those of the camera just if some `lmove` before the
first `time` says so. -/
theorem modify_framesFrom_eq_iff (before lines : List (List Char)) :
    (framesFrom (before.foldl fill .still) lines).modify 0 Keyframe.alongCamera =
        framesFrom (before.foldl fill .still) lines ↔
      (∃ move ∈ before ++ untilTime lines, keyword move = some "lmove") ∨
        ∀ line ∈ lines, keyword line ≠ some "time" := by
  rcases framesFrom_eq_nil_or_cons lines (before.foldl fill .still) with
    ⟨hnone, hframes⟩ | ⟨⟨time, hmem, htime⟩, duration, more, hframes⟩
  · rw [hframes]
    exact iff_of_true rfl (Or.inr hnone)
  · have hspace := space_foldl_fill (before ++ untilTime lines) .still
    rw [List.foldl_append, or_iff_right (show (Keyframe.still : Keyframe Float32).space ≠ .body by
      decide)] at hspace
    rw [or_iff_left fun hnone => hnone time hmem htime, ← hspace, hframes]
    generalize (untilTime lines).foldl fill (before.foldl fill .still) = frame
    rcases frame with ⟨position, rotation, _, space, fov, projection, lookAt, follow⟩
    simp [Keyframe.alongCamera, eq_comm]

/-- Leave out a line of a text whose command is followed, before the next `time`, by another one
that sets the same. If the command is not `lmove`, the script stays the same. If it is, only the
axes of the change of position can change, of the keyframe that the line belongs to; and they do
unless another `lmove` belongs to it as well or no `time` follows. -/
theorem ofText_superseded {text other : String} {before rest : List (List Char)}
    (htext : Text.lines text.toList = before ++ line :: rest)
    (hother : Text.lines other.toList = before ++ rest) (hline : slot line = some s)
    (hlater : later ∈ untilTime rest) (hslot : slot later = some s) :
    (keyword line ≠ some "lmove" → ofText other = ofText text) ∧
    (keyword line = some "lmove" →
      ofText text = ⟨(ofText other).keyframes.modify (before.countP (keyword · = some "time"))
        Keyframe.alongCamera, (ofText other).looping⟩) ∧
    (ofText other = ofText text ↔ keyword line ≠ some "lmove" ∨
      (∃ move ∈ sinceTime before ++ untilTime rest, keyword move = some "lmove") ∨
        ∀ later ∈ rest, keyword later ≠ some "time") := by
  have hloop : keyword line ≠ some "loop" := by
    intro hloop
    rw [slot, hloop] at hline
    cases hline
  have hlooping : (ofText text).looping = (ofText other).looping := by
    rw [ofText_eq, ofText_eq, htext, hother]
    simp [hloop]
  have hframes : (ofText other).keyframes = framesFrom .still before ++
      framesFrom ((sinceTime before).foldl fill .still) rest := by
    rw [ofText_eq, hother, framesFrom_append]
  have hframes' : (ofText text).keyframes = framesFrom .still before ++
      framesFrom (if keyword line = some "lmove"
        then ((sinceTime before).foldl fill .still).alongCamera
        else (sinceTime before).foldl fill .still) rest := by
    rw [ofText_eq, htext, framesFrom_append, framesFrom_superseded hline hlater hslot]
  have hsame : ofText other = ofText text ↔ (ofText other).keyframes = (ofText text).keyframes := by
    constructor
    · rintro h
      rw [h]
    · intro h
      rcases hscript : ofText other with ⟨keyframes, looping⟩
      rcases hscript' : ofText text with ⟨keyframes', looping'⟩
      rw [hscript, hscript'] at h hlooping
      simp_all
  by_cases hmove : keyword line = some "lmove"
  · rw [if_pos hmove, framesFrom_alongCamera] at hframes'
    refine ⟨fun h => absurd hmove h, fun _ => ?_, ?_⟩
    · rw [← length_framesFrom before .still, hframes, modify_append_length, ← hframes', ← hlooping]
    · rw [hsame, hframes, hframes', or_iff_right (not_not.mpr hmove), List.append_cancel_left_eq,
        ← modify_framesFrom_eq_iff]
      exact eq_comm
  · rw [if_neg hmove] at hframes'
    have h : ofText other = ofText text := hsame.mpr (hframes.trans hframes'.symm)
    exact ⟨fun _ => h, fun hmove' => absurd hmove' hmove, iff_of_true h (Or.inl hmove)⟩

/-- An `lmove` that a `move` supersedes. -/
theorem ofText_superseded_move :
    slot "lmove 1 0 0".toList = some .position ∧ slot "move 0 0 1".toList = some .position ∧
    ofText "move 0 0 1\ntime 1" ≠ ofText "lmove 1 0 0\nmove 0 0 1\ntime 1" := by
  have hline : slot "lmove 1 0 0".toList = some .position := by decide +kernel
  have hslot : slot "move 0 0 1".toList = some .position := by decide +kernel
  have htext : Text.lines "lmove 1 0 0\nmove 0 0 1\ntime 1".toList =
      [] ++ "lmove 1 0 0".toList :: ["move 0 0 1".toList, "time 1".toList] := by decide +kernel
  have hother : Text.lines "move 0 0 1\ntime 1".toList =
      [] ++ ["move 0 0 1".toList, "time 1".toList] := by decide +kernel
  have hlater : "move 0 0 1".toList ∈ untilTime ["move 0 0 1".toList, "time 1".toList] := by
    decide +kernel
  obtain ⟨-, -, hsame⟩ := ofText_superseded htext hother hline hlater hslot
  refine ⟨hline, hslot, fun h => ?_⟩
  exact absurd (hsame.mp h) (by decide +kernel)

/-- A `move` after an `lmove` does not give the same keyframe as it does alone. -/
theorem ofText_move_after_lmove :
    ¬ ∀ (text other : String) (before rest : List (List Char)) (line later : List Char) (s : Slot),
      Text.lines text.toList = before ++ line :: rest →
      Text.lines other.toList = before ++ rest → slot line = some s →
      later ∈ untilTime rest → slot later = some s → ofText other = ofText text := by
  intro h
  have hsame := h "lmove 1 0 0\nmove 0 0 1\ntime 1" "move 0 0 1\ntime 1" []
    ["move 0 0 1".toList, "time 1".toList] "lmove 1 0 0".toList "move 0 0 1".toList .position
    (by decide +kernel) (by decide +kernel) (by decide +kernel) (by decide +kernel)
    (by decide +kernel)
  revert hsame
  decide +kernel

end Script

end Skycam

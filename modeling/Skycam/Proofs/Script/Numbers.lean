import Skycam.Proofs.Number.Arithmetic
import Skycam.Proofs.Script.Blocks

/-!
# The numbers of a script

A numeral of a script text that stands for no finite number counts as 0, and so does one that is not
there; a time below 0 counts as 0 as well. So each command gives finite numbers (`Command.Sound`),
and a keyframe takes all its numbers from commands: every number in a script that was read is finite
and no duration is negative (`ofText_sound`).
-/

namespace Skycam

/-- Every number of a keyframe is finite, and its duration is not negative. -/
structure Keyframe.Sound (k : Keyframe Float32) : Prop where
  position : k.position.value.isFinite = true
  rotation : k.rotation.value.isFinite = true
  duration : k.duration.isFinite = true
  nonneg : 0.0 ≤ k.duration
  fov : ∀ change, k.fov = some change → change.value.isFinite = true
  target : ∀ point smooth, k.lookAt = .point point smooth → point.isFinite = true

/-- Every keyframe of a script is sound. -/
def Script.Sound (script : Script Float32) : Prop := ∀ k ∈ script.keyframes, k.Sound

theorem Keyframe.still_sound : (Keyframe.still : Keyframe Float32).Sound where
  position := by decide
  rotation := by decide
  duration := Single.isFinite_eq_true Single.zero_isAmount
  nonneg := Single.zero_isAmount.nonneg
  fov := by
    intro change hchange
    cases hchange
  target := by
    intro point smooth hpoint
    cases hpoint

namespace Script

/-! ## Commands -/

/-- Every number of a command is finite, and a duration is not negative. -/
def Command.Sound : Command Float32 → Prop
  | position motion => motion.value.isFinite = true
  | bodyMove value => value.isFinite = true
  | rotation motion => motion.value.isFinite = true
  | fov change => change.value.isFinite = true
  | lookAt what => ∀ point smooth, what = .point point smooth → point.isFinite = true
  | time duration => duration.isFinite = true ∧ 0.0 ≤ duration
  | projection _ => True
  | follow _ => True
  | loop => True

variable {line head rest : List Char} {args : List (List Char)} {word : String}
  {command : Command Float32} {k : Keyframe Float32}

/-- A token counts as a finite number, whatever it is. -/
theorem numberOf_isFinite (token : List Char) : (numberOf token).isFinite = true := by
  unfold numberOf
  cases hread : Single.finiteOfChars? token with
  | none => exact Single.isFinite_eq_true Single.zero_isAmount
  | some x => exact (Option.filter_eq_some_iff.mp hread).2

theorem numberAt_isFinite (args : List (List Char)) (i : Nat) :
    (numberAt args i).isFinite = true := by
  unfold numberAt
  split
  · exact numberOf_isFinite _
  · exact Single.isFinite_eq_true Single.zero_isAmount

theorem vectorOf_isFinite (args : List (List Char)) : (vectorOf args).isFinite = true := by
  have hcoordinate : ∀ i, Scalar.isFinite (numberAt args i) = true := numberAt_isFinite args
  simp [Vec3.isFinite, vectorOf, hcoordinate]

/-- A command with three numbers is sound if it is for finite ones. -/
theorem vectorLine_sound {build : Vec3 Float32 → Command Float32}
    (h : (vectorLine word args build).command = some command)
    (hbuild : ∀ v, v.isFinite = true → (build v).Sound) : command.Sound := by
  obtain rfl := Option.some.inj h
  exact hbuild _ (vectorOf_isFinite args)

theorem scalarLine_sound {build : Float32 → Command Float32}
    (h : (scalarLine word args build).command = some command)
    (hbuild : ∀ x, x.isFinite = true → (build x).Sound) : command.Sound := by
  obtain rfl := Option.some.inj h
  exact hbuild _ (numberAt_isFinite args 0)

theorem playerLine_sound {smooth : Bool}
    (h : (playerLine word rest args smooth).command = some command) : command.Sound := by
  unfold playerLine at h
  split at h
  · -- without a name the origin is looked at
    obtain rfl := Option.some.inj h
    rintro point smooth' ⟨⟩
    decide
  · obtain rfl := Option.some.inj h
    rintro point smooth' ⟨⟩

theorem followLine_sound (h : (followLine word args).command = some command) :
    command.Sound := by
  unfold followLine at h
  split at h
  · obtain rfl := Option.some.inj h
    trivial
  · split at h <;> obtain rfl := Option.some.inj h <;> trivial

theorem lookAt_sound {v : Vec3 Float32} (h : v.isFinite = true) (smooth : Bool) :
    (Command.lookAt (.point v smooth)).Sound := by
  rintro point smooth' ⟨⟩
  exact h

/-- A duration is cut at 0 from below. -/
theorem time_sound {x : Float32} (h : x.isFinite = true) :
    (Command.time (Scalar.max x 0.0)).Sound :=
  ⟨Single.isFinite_eq_true (Single.max_zero_isAmount h), (Single.max_zero_isAmount h).nonneg⟩

/-- A line gives finite numbers to its command, whatever its tokens are. -/
theorem readCommand_sound (h : (readCommand word head rest args).command = some command) :
    command.Sound := by
  unfold readCommand at h
  split at h
  · exact vectorLine_sound h fun _ hv => hv
  · exact vectorLine_sound h fun _ hv => hv
  · exact vectorLine_sound h fun _ hv => hv
  · exact vectorLine_sound h fun _ hv => hv
  · exact vectorLine_sound h fun _ hv => hv
  · exact scalarLine_sound h fun _ hx => hx
  · exact scalarLine_sound h fun _ hx => hx
  · obtain rfl := Option.some.inj h
    trivial
  · obtain rfl := Option.some.inj h
    trivial
  · exact vectorLine_sound h fun _ hv => lookAt_sound hv false
  · exact vectorLine_sound h fun _ hv => lookAt_sound hv true
  · exact playerLine_sound h
  · exact playerLine_sound h
  · obtain rfl := Option.some.inj h
    rintro point smooth ⟨⟩
  · exact followLine_sound h
  · obtain rfl := Option.some.inj h
    trivial
  · exact scalarLine_sound h fun _ hx => time_sound hx
  · cases h

/-- Every command that is read from a line is sound. -/
theorem command_sound (h : (readLine line).command = some command) : command.Sound := by
  cases hword : keyword line with
  | none =>
    rw [readLine_of_keyword_none hword] at h
    cases h
  | some word =>
    obtain ⟨head, rest, args, hreading⟩ := readLine_of_keyword hword
    rw [hreading] at h
    exact readCommand_sound h

/-! ## Keyframes -/

/-- A command puts its numbers into the keyframe under construction and leaves the others. -/
theorem Command.apply_sound (hk : k.Sound) (h : command.Sound) : (command.apply k).Sound := by
  cases command with
  | position motion => exact { hk with position := h }
  | bodyMove value => exact { hk with position := h }
  | rotation motion => exact { hk with rotation := h }
  | fov change =>
    refine { hk with fov := ?_ }
    rintro _ ⟨⟩
    exact h
  | projection kind => exact { hk with }
  | lookAt what => exact { hk with target := h }
  | follow mode => exact { hk with }
  | loop => exact hk
  | time duration => exact hk

/-- The lines keep the keyframe under construction sound, and it is ended by a sound duration. -/
theorem framesFrom_sound (hk : k.Sound) (lines : List (List Char)) :
    ∀ frame ∈ framesFrom k lines, frame.Sound := by
  induction lines generalizing k with
  | nil =>
    intro frame hframe
    cases hframe
  | cons line rest ih =>
    unfold framesFrom
    split
    · next duration hcommand =>
      obtain ⟨hfinite, hnonneg⟩ : Command.Sound (.time duration) := command_sound hcommand
      refine List.forall_mem_cons.mpr ⟨?_, ih Keyframe.still_sound⟩
      exact { hk with duration := hfinite, nonneg := hnonneg }
    · next command hcommand => exact ih (Command.apply_sound hk (command_sound hcommand))
    · exact ih hk

/-- Every number of a script that was read is finite, and no duration is negative. -/
theorem ofText_sound (text : String) : (ofText text).Sound := by
  rw [ofText_eq]
  exact framesFrom_sound Keyframe.still_sound _

end Script

end Skycam

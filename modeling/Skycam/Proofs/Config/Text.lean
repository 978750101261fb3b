import Skycam.Config
import Skycam.Proofs.Json.Record
import Skycam.Proofs.Number.Reread

/-!
# The text of a configuration

A configuration is read from its own text exactly when all its numbers are finite; otherwise its
text is not that of a configuration (`Config.ofText?_toText`). Every section has a name of its own
for each of its fields, so each is decoded from what it is written as.
-/

namespace Skycam

open Json

/-- Whether all numbers of a tuning are finite. -/
def FollowTuning.isFinite (t : FollowTuning) : Bool :=
  t.followOffset.isFinite && t.firstPersonOffset.isFinite && t.bumperOffset.isFinite &&
    t.lockedOffset.isFinite && t.lockedTilt.isFinite && t.lookAheadDistance.isFinite &&
    t.smoothFollowSpeed.isFinite

/-- Whether all fields of view are finite. -/
def FovTuning.isFinite (f : FovTuning) : Bool :=
  f.base.isFinite && f.smooth.isFinite && f.strict.isFinite && f.locked.isFinite &&
    f.bumper.isFinite && f.first.isFinite && f.min.isFinite && f.max.isFinite

/-- Whether both times are finite. -/
def RecoveryWindow.isFinite (r : RecoveryWindow) : Bool :=
  r.pollInterval.isFinite && r.timeout.isFinite

/-- Whether all numbers of a configuration are finite. -/
def Config.isFinite (c : Config) : Bool :=
  c.tuning.isFinite && c.fov.isFinite && c.recovery.isFinite

section Guarded

variable {α β : Type}

theorem guarded_bind (p : Bool) (a : α) (f : α → Option β) :
    (if p then some a else none).bind f = if p then f a else none := by
  cases p with
  | false => rfl
  | true => rfl

theorem guarded_guarded (p q : Bool) (a : Option α) :
    (if p then if q then a else none else none) = if p && q then a else none := by
  cases p with
  | false => rfl
  | true => rfl

end Guarded

/-- A vector is read back just if its parts are finite, since a number that is not is written as
nothing. -/
theorem Vec3.ofJson?_toJson (v : Vec3 Float32) :
    Vec3.ofJson? v.toJson = if v.isFinite then some v else none := by
  simp only [Vec3.toJson, Vec3.ofJson?, Value.single?_ofSingle, Option.bind_eq_bind, guarded_bind,
    guarded_guarded, ← Bool.and_assoc]
  rfl

/-! ## The sections -/

/-- The numbers of the follow modes are read back just if all of them are finite. -/
theorem FollowTuning.ofJson?_toJson (t : FollowTuning) :
    FollowTuning.ofJson? t.toJson = if t.isFinite then some t else none := by
  have hfields : t.toJson.fields? FollowTuning.fieldNames = _ :=
    Value.fields?_record (by decide : FollowTuning.fieldNames.Nodup)
  simp only [FollowTuning.ofJson?, hfields, List.map_cons, List.map_nil, Option.bind_eq_bind,
    Option.bind_some, Json.optional, Value.single?_ofSingle, Vec3.ofJson?_toJson, guarded_bind,
    guarded_guarded, ← Bool.and_assoc]
  rfl

/-- The fields of view are read back just if all of them are finite. -/
theorem FovTuning.ofJson?_toJson (f : FovTuning) :
    FovTuning.ofJson? f.toJson = if f.isFinite then some f else none := by
  have hfields : f.toJson.fields? FovTuning.fieldNames = _ :=
    Value.fields?_record (by decide : FovTuning.fieldNames.Nodup)
  simp only [FovTuning.ofJson?, hfields, List.map_cons, List.map_nil, Option.bind_eq_bind,
    Option.bind_some, Json.optional, Value.single?_ofSingle, guarded_bind, guarded_guarded,
    ← Bool.and_assoc]
  rfl

/-- The times of a wait are read back just if both are finite. -/
theorem RecoveryWindow.ofJson?_toJson (r : RecoveryWindow) :
    RecoveryWindow.ofJson? r.toJson = if r.isFinite then some r else none := by
  have hfields : r.toJson.fields? ["poll_interval", "timeout"] = _ :=
    Value.fields?_record (by decide : ["poll_interval", "timeout"].Nodup)
  simp only [RecoveryWindow.ofJson?, hfields, List.map_cons, List.map_nil, Option.bind_eq_bind,
    Option.bind_some, Json.optional, Value.single?_ofSingle, guarded_bind, guarded_guarded]
  rfl

/-- The sizes of surfaces are whole numbers and are always read back. -/
theorem SurfaceSizes.ofJson?_toJson (s : SurfaceSizes) :
    SurfaceSizes.ofJson? s.toJson = some s := by
  have hfields : s.toJson.fields? ["default_width", "default_height", "min_preset_size"] = _ :=
    Value.fields?_record
      (by decide : ["default_width", "default_height", "min_preset_size"].Nodup)
  simp only [SurfaceSizes.ofJson?, hfields, List.map_cons, List.map_nil, Option.bind_eq_bind,
    Option.bind_some, Json.optional, Value.word?_ofInt]
  rfl

/-- A configuration is read back just if all of its numbers are finite. -/
theorem Config.ofJson?_toJson (c : Config) :
    Config.ofJson? c.toJson = if c.isFinite then some c else none := by
  have hfields : c.toJson.fields? Config.fieldNames = _ :=
    Value.fields?_record (by decide : Config.fieldNames.Nodup)
  simp only [Config.ofJson?, hfields, List.map_cons, List.map_nil, Option.bind_eq_bind,
    Option.bind_some, Json.optional, FollowTuning.ofJson?_toJson, FovTuning.ofJson?_toJson,
    RecoveryWindow.ofJson?_toJson, SurfaceSizes.ofJson?_toJson, Value.bool?, guarded_bind,
    guarded_guarded, ← Bool.and_assoc]
  rfl

/-! ## The text -/

theorem Vec3.printable_toJson (v : Vec3 Float32) : v.toJson.Printable := by
  refine .array ?_
  simp [Value.printable_ofSingle]

/-- All that is written of a configuration can be read as text again. -/
theorem Config.printable_toJson (c : Config) : c.toJson.Printable := by
  have htuning : c.tuning.toJson.Printable :=
    .record (by simp [Vec3.printable_toJson, Value.printable_ofSingle])
  have hfov : c.fov.toJson.Printable := .record (by simp [Value.printable_ofSingle])
  have hrecovery : c.recovery.toJson.Printable := .record (by simp [Value.printable_ofSingle])
  have hsurface : c.surface.toJson.Printable := .record (by simp [Value.printable_ofInt])
  exact .record (by simp [htuning, hfov, hrecovery, hsurface, Value.Printable.bool])

/-- Writing a configuration as text and reading the text loses nothing of what was to be written. -/
theorem Config.ofText?_pretty (c : Config) : Config.ofText? c.toText = Config.ofJson? c.toJson := by
  rw [Config.ofText?, Config.toText, c.printable_toJson.ofText?_pretty]
  rfl

/-- A configuration is read from its own text exactly when all its numbers are finite. -/
theorem Config.ofText?_toText (c : Config) :
    Config.ofText? c.toText = if c.isFinite then some c else none :=
  c.ofText?_pretty.trans c.ofJson?_toJson

/-- A number that is finite at double precision may be infinite at single precision; it is accepted
and cannot be written. -/
theorem Config.exists_ofText?_toText_eq_none :
    ∃ text c, Config.ofText? text = some c ∧ Config.ofText? c.toText = none := by
  have haccepted : (Config.ofText? "\x7b\"fov\":\x7b\"base\":1e39\x7d\x7d").any
      (fun c => !c.isFinite) = true := by
    decide +kernel
  generalize hread : Config.ofText? _ = read at haccepted
  cases read with
  | none => cases haccepted
  | some c =>
    refine ⟨_, c, hread, ?_⟩
    have hinfinite : c.isFinite = false := by simpa using haccepted
    rw [c.ofText?_pretty, c.ofJson?_toJson, hinfinite, if_neg Bool.false_ne_true]

end Skycam

import Skycam.Proofs.Fleet.Run

/-!
# Requests that change things in their place

The functions of the library give a changed rig or a changed fleet, or nothing. A request can give
up after it has begun in two cases: when it binds a rig to a player, and when it creates a rig. Here
both are written as programs that change the rig, or the fleet, where it stands, one field after the
other, and whose changes remain when they give up. Each of them leaves behind what its function
gives (`Fleet.setTargetInPlace_performs`, `Fleet.createInPlace_performs`), and so all that was there
before if it gives up: nothing is changed on the way to a refusal (`Fleet.run_inPlace_unchanged`).
-/

namespace Skycam

namespace Rig

/-- Puts the rig behind a handle whose pose is `target`, one field after the other. -/
def attachInPlace (config : Config) (username : String) (handle : Handle) (isLocal : Bool)
    (target : Pose Float32) : StateM Rig Unit := do
  modify fun r => { r with body := r.body.setEnabled true }
  modify fun r => { r with body := r.body.setFov (config.fov.forMode r.mode) }
  modify fun r => { r with body := r.body.setPose (config.tuning.bindPose target) }
  modify fun r => { r with overlay := { r.overlay with label := username } }
  modify fun r => { r with overlay := { r.overlay with telemetry := !isLocal } }
  modify fun r => r.emit (.targetBound username)
  modify fun r => { r with target := .bound username handle isLocal }

/-- Binds the rig to a player; the flag says whether it was done. -/
def bindInPlace (config : Config) (e : Entry) (roster : Roster Float32) : StateM Rig Bool :=
  match e.followHandle? with
  | none => return false
  | some handle =>
    match usablePose? roster handle with
    | none => return false
    | some pose => do
      attachInPlace config e.username handle e.isLocal pose
      return true

/-- Binds the rig to the first player whose follow handle has a pose; the flag says whether it was
done. -/
def bindFirstInPlace (config : Config) (roster : Roster Float32) : StateM Rig Bool :=
  match roster.firstValid? with
  | none => return false
  | some (username, handle) =>
    match usablePose? roster handle with
    | none => return false
    | some pose => do
      attachInPlace config username handle (handle.anchor == .reset) pose
      return true

/-- Binds the rig to the player that a preset names, if it names one who is there. -/
def bindNamedInPlace (config : Config) (p : Preset) (roster : Roster Float32) : StateM Rig Bool :=
  match (if p.target = "" then none else roster.find? p.target) with
  | none => return false
  | some e => bindInPlace config e roster

/-- Makes one search for a target and, if it is in vain, goes on with the other one. -/
def orElseInPlace (first second : StateM Rig Bool) : StateM Rig Bool := do
  if ← first then return true else second

/-- Makes a search for a target and goes on with the rig if it is bound. -/
def andThenInPlace (search : StateM Rig Bool) (change : Rig → Rig) : StateM Rig Bool := do
  let bound ← search
  if bound then modify change
  return bound

/-- Makes a new rig start out; the flag says whether it can. A preset gives it its mode before its
target is looked for, and its placement once it is bound. -/
def spawnInPlace (config : Config) (display : DisplaySize) (roster : Roster Float32) :
    Spawn → StateM Rig Bool
  | .cinematic => return true
  | .follow => bindFirstInPlace config roster
  | .preset p => do
    modify (·.setFollowMode config p.mode)
    andThenInPlace
      (orElseInPlace (bindNamedInPlace config p roster) (bindFirstInPlace config roster))
      (·.setPlacement (p.toPixels display config.surface.minPresetSize))

/-- The program does in its place what the function gives. If it gives nothing, the program says so
and has not changed the rig. -/
def Performs (program : StateM Rig Bool) (change : Rig → Option Rig) : Prop :=
  ∀ r, program.run r = ((change r).isSome, (change r).getD r)

variable (config : Config) (roster : Roster Float32)

/-- The fields that are set one after the other are those that the function sets at once. -/
theorem attachInPlace_run (username : String) (handle : Handle) (isLocal : Bool)
    (target : Pose Float32) (r : Rig) :
    (do attachInPlace config username handle isLocal target
        return true : StateM Rig Bool).run r =
      (true, r.attached config username handle isLocal target) :=
  rfl

/-- A rig is changed by a binding only after its handle and the pose of that were found. -/
theorem bindInPlace_performs (e : Entry) :
    Performs (bindInPlace config e roster) fun r => (r.bind? config e roster).value := by
  intro r
  unfold bindInPlace bind?
  cases e.followHandle? with
  | none => rfl
  | some handle =>
    dsimp only
    cases usablePose? roster handle with
    | none => rfl
    | some pose => exact attachInPlace_run config e.username handle e.isLocal pose r

theorem bindFirstInPlace_performs :
    Performs (bindFirstInPlace config roster) fun r => (r.bindFirst? config roster).value := by
  intro r
  unfold bindFirstInPlace bindFirst?
  cases roster.firstValid? with
  | none => rfl
  | some found =>
    obtain ⟨username, handle⟩ := found
    dsimp only
    cases usablePose? roster handle with
    | none => rfl
    | some pose => exact attachInPlace_run config username handle (handle.anchor == .reset) pose r

theorem bindNamedInPlace_performs (p : Preset) :
    Performs (bindNamedInPlace config p roster) fun r =>
      (if p.target = "" then none else roster.find? p.target).bind fun e =>
        (r.bind? config e roster).value := by
  intro r
  unfold bindNamedInPlace
  cases (if p.target = "" then none else roster.find? p.target) with
  | none => rfl
  | some e => exact bindInPlace_performs config roster e r

/-- A search in vain leaves the rig to the next search as it found it. -/
theorem Performs.orElse {first second : StateM Rig Bool} {change other : Rig → Option Rig}
    (hfirst : Performs first change) (hsecond : Performs second other) :
    Performs (orElseInPlace first second) fun r => (change r).or (other r) := by
  intro r
  have hrun : (orElseInPlace first second).run r =
      (if (first.run r).1 then pure true else second : StateM Rig Bool).run (first.run r).2 := rfl
  rw [hrun, hfirst r]
  dsimp only
  cases change r with
  | some changed => rfl
  | none => exact hsecond r

theorem Performs.andThen {search : StateM Rig Bool} {change : Rig → Option Rig}
    (hsearch : Performs search change) (further : Rig → Rig) :
    Performs (andThenInPlace search further) fun r => (change r).map further := by
  intro r
  have hrun : (andThenInPlace search further).run r =
      (do if (search.run r).1 then modify further
          return (search.run r).1 : StateM Rig Bool).run (search.run r).2 := rfl
  rw [hrun, hsearch r]
  dsimp only
  cases change r with
  | some changed => rfl
  | none => rfl

end Rig

namespace Fleet

/-- Binds a rig to the player of a name. The rig is changed where it stands in the fleet, before it
is known whether the request is refused. -/
def setTargetInPlace (id : RigId) (username : String) (roster : Roster Float32) :
    ExceptT FleetError (StateM Fleet) Unit := do
  let f ← get
  match f.rig? id with
  | none => throw (.rigNotFound id)
  | some rig =>
    match roster.find? username with
    | none => throw (.unknownPlayer username)
    | some e =>
      let (done, changed) := (Rig.bindInPlace f.config e roster).run rig
      set (f.replace changed)
      if done then return () else throw (.noValidTarget id)

/-- Creates a rig. It starts out on its own, and is put last in the fleet once it can. -/
def createInPlace (id : RigId) (spawn : Spawn) (roster : Roster Float32) :
    ExceptT FleetError (StateM Fleet) Unit := do
  let f ← get
  if id.isBlank then throw .emptyRigId
  else if f.contains id then throw (.duplicateRig id)
  else if roster.isEmpty then throw .emptyRoster
  else
    let (done, rig) := (Rig.spawnInPlace f.config f.display roster spawn).run
      (Rig.new f.config id (spawn == .cinematic))
    if done then set { f with rigs := f.rigs ++ [rig] } else throw (.noValidTarget id)

/-- The program does with the fleet what the function gives: it leaves the changed fleet, or it
gives up with the same error and leaves the fleet of before. -/
def Performs (f : Fleet) (program : ExceptT FleetError (StateM Fleet) Unit)
    (result : Except FleetError Fleet) : Prop :=
  program.run.run f = (result.map fun _ => (), result.toOption.getD f)

variable {f : Fleet} {id : RigId} {roster : Roster Float32}

/-- A program that gives up has not changed the fleet. -/
theorem Performs.unchanged {program : ExceptT FleetError (StateM Fleet) Unit}
    {result : Except FleetError Fleet} (h : f.Performs program result) {e : FleetError}
    (hrefused : (program.run.run f).1 = .error e) : (program.run.run f).2 = f := by
  rw [h] at hrefused ⊢
  cases result with
  | ok next => cases hrefused
  | error e => rfl

/-- Nothing happens if a rig is put in its own place. -/
theorem replace_self {r : Rig} (hn : f.ids.Nodup) (hr : f.rig? id = some r) : f.replace r = f := by
  obtain ⟨hmem, -⟩ := rig?_eq_some hr
  have hsame : ∀ x ∈ f.rigs, (if x.id = r.id then r else x) = x := by
    intro x hx
    by_cases hid : x.id = r.id
    · rw [if_pos hid]
      exact (List.inj_on_of_nodup_map hn hx hmem hid).symm
    · exact if_neg hid
  unfold replace
  rw [List.map_congr_left hsame, List.map_id']

/-- A new rig can start out just if the function makes one, and then it has become that rig. -/
theorem spawnInPlace_run (f : Fleet) (id : RigId) (spawn : Spawn) (roster : Roster Float32) :
    let made := (f.spawnRig? id spawn roster).value
    ∃ rest, (Rig.spawnInPlace f.config f.display roster spawn).run
      (Rig.new f.config id (spawn == .cinematic)) = (made.isSome, made.getD rest) := by
  cases spawn with
  | cinematic => exact ⟨Rig.new f.config id true, rfl⟩
  | follow => exact ⟨_, Rig.bindFirstInPlace_performs f.config roster _⟩
  | preset p =>
    rw [spawnRig?_preset_value]
    have hsearch := (Rig.bindNamedInPlace_performs f.config roster p).orElse
      (Rig.bindFirstInPlace_performs f.config roster)
    exact ⟨_, hsearch.andThen _ _⟩

/-- A program that looks at the fleet goes on with the fleet that is there. -/
theorem get_bind_run (next : Fleet → ExceptT FleetError (StateM Fleet) Unit) :
    (get >>= next).run.run f = (next f).run.run f :=
  rfl

/-- Where no two rigs have the same name, as after every run, a target is set in its place as the
function sets it: the rig that is put back after a binding in vain is the one that was there. -/
theorem setTargetInPlace_performs (hn : f.ids.Nodup) (username : String) :
    f.Performs (setTargetInPlace id username roster) (f.setTarget id username roster).value := by
  unfold Performs setTargetInPlace setTarget
  rw [get_bind_run]
  cases hrig : f.rig? id with
  | none => rfl
  | some rig =>
    cases hfind : roster.find? username with
    | none => rfl
    | some e =>
      have hrun : (Rig.bindInPlace f.config e roster).run rig = _ :=
        Rig.bindInPlace_performs f.config roster e rig
      dsimp only at hrun ⊢
      rw [hrun, Logged.value_bind]
      cases (rig.bind? f.config e roster).value with
      | some bound => rfl
      | none =>
        show (Except.error (FleetError.noValidTarget id), f.replace rig) = (Except.error _, f)
        rw [replace_self hn hrig]

/-- A rig is created in its place as the function creates it, and a rig that cannot start out is
never in the fleet. -/
theorem createInPlace_performs (spawn : Spawn) :
    f.Performs (createInPlace id spawn roster) (f.create id spawn roster).value := by
  obtain ⟨rest, hrun⟩ := spawnInPlace_run f id spawn roster
  unfold Performs createInPlace create
  rw [get_bind_run, hrun]
  cases id.isBlank with
  | true => rfl
  | false =>
    cases f.contains id with
    | true => rfl
    | false =>
      cases roster.isEmpty with
      | true => rfl
      | false =>
        simp only [Bool.false_eq_true, if_false, Logged.value_bind]
        cases (f.spawnRig? id spawn roster).value with
        | none => rfl
        | some rig => rfl

/-- After every run, a rig that cannot be created and a target that cannot be set have left the
fleet as it was, although both change things as they go. -/
theorem run_inPlace_unchanged (config : Config) (ops : List (Operation × Roster Float32))
    (id : RigId) (roster : Roster Float32) (e : FleetError) :
    let f := (Fleet.new config).run ops
    (∀ username, ((setTargetInPlace id username roster).run.run f).1 = .error e →
      ((setTargetInPlace id username roster).run.run f).2 = f) ∧
    ∀ spawn, ((createInPlace id spawn roster).run.run f).1 = .error e →
      ((createInPlace id spawn roster).run.run f).2 = f := by
  intro f
  have hn : f.ids.Nodup := run_nodup config ops
  exact ⟨fun username => (setTargetInPlace_performs hn username).unchanged,
    fun spawn => (createInPlace_performs spawn).unchanged⟩

end Fleet

end Skycam

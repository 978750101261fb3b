import Mathlib.Data.List.Induction
import Skycam.Proofs.Fleet.Run
import Skycam.Proofs.Rig.Phases

/-!
# Where the rigs of a fleet come from

A rig of the fleet after an operation was there before and may have been changed by a request, or
was made by the operation, or has aged. `Fleet.Origin` says so for all operations at once
(`Fleet.origin_of_mem`), and `Rig.Edited` and `Rig.Started` say what a request can make of a rig, so
that what holds of the rigs after every run is proved by one case for each of these ways
(`Fleet.run_rigs_induction`).
-/

namespace Skycam

namespace Rig

/-- The second rig is the first one, but for the follow mode, the cameras, the window, the surface
and the events that wait. -/
structure Unmoved (r r' : Rig) : Prop where
  /-- The name. -/
  id : r'.id = r.id
  /-- Who moves the rig. -/
  control : r'.control = r.control
  /-- The target. -/
  target : r'.target = r.target
  /-- The script and how far it has been played. -/
  playback : r'.playback = r.playback
  /-- The pose. -/
  pose : r'.body.pose = r.body.pose
  /-- Whether the name of the target is shown. -/
  nameLabel : r'.overlay.nameLabel = r.overlay.nameLabel
  /-- Whether the readings of the target are shown. -/
  telemetry : r'.overlay.telemetry = r.overlay.telemetry

variable {config : Config} {r r' r'' : Rig}

theorem Unmoved.refl (r : Rig) : r.Unmoved r := ⟨rfl, rfl, rfl, rfl, rfl, rfl, rfl⟩

/-- What stays twice stays. -/
theorem Unmoved.trans (h : r.Unmoved r') (h' : r'.Unmoved r'') : r.Unmoved r'' where
  id := h'.id.trans h.id
  control := h'.control.trans h.control
  target := h'.target.trans h.target
  playback := h'.playback.trans h.playback
  pose := h'.pose.trans h.pose
  nameLabel := h'.nameLabel.trans h.nameLabel
  telemetry := h'.telemetry.trans h.telemetry

theorem setFollowMode_unmoved (config : Config) (r : Rig) (mode : FollowMode) :
    r.Unmoved (r.setFollowMode config mode) := by
  unfold setFollowMode
  dsimp only
  split <;> exact ⟨rfl, rfl, rfl, rfl, rfl, rfl, rfl⟩

theorem resizeSurface_unmoved (r : Rig) (width height : UInt32) :
    r.Unmoved (r.resizeSurface width height).1 := by
  unfold resizeSurface
  split <;> exact ⟨rfl, rfl, rfl, rfl, rfl, rfl, rfl⟩

/-- To move the window does not move the rig. -/
theorem setPlacement_unmoved (r : Rig) (rect : PixelRect) : r.Unmoved (r.setPlacement rect) := by
  have hplaced : r.Unmoved { r with placement := rect } := ⟨rfl, rfl, rfl, rfl, rfl, rfl, rfl⟩
  exact hplaced.trans (resizeSurface_unmoved _ _ _)

theorem setUiVisible_unmoved (r : Rig) (visible : Bool) :
    r.Unmoved (r.setUiVisible visible).1 := by
  unfold setUiVisible
  split <;> exact ⟨rfl, rfl, rfl, rfl, rfl, rfl, rfl⟩

/-- A rig as it can be when it is made: it waits for its script, or it has taken its mode, was bound
to a player, and was put into its place if there is one for it. -/
inductive Started (config : Config) (id : RigId) (roster : Roster Float32) : Rig → Prop where
  /-- It waits for its script. -/
  | cinematic : Started config id roster (Rig.new config id true)
  /-- It is bound. -/
  | bound (mode : FollowMode) (r : Rig)
      (binds : ((Rig.new config id false).setFollowMode config mode).Binds config roster r) :
      Started config id roster r
  /-- It is bound and has a place. -/
  | placed (mode : FollowMode) (r : Rig) (rect : PixelRect)
      (binds : ((Rig.new config id false).setFollowMode config mode).Binds config roster r) :
      Started config id roster (r.setPlacement rect)

/-- What a request can make of the rig that it names. -/
inductive Edited (config : Config) (op : Operation) (roster : Roster Float32) (r : Rig) :
    Rig → Prop where
  /-- The rig goes on as before. -/
  | unmoved (r' : Rig) (unmoved : r.Unmoved r') : Edited config op roster r r'
  /-- It is bound to a player. -/
  | bound (username : String) (e : Entry) (handle : Handle) (pose : Pose Float32)
      (requested : op = .setTarget r.id username)
      (sighted : roster.sighted? username = some (e, handle, pose)) :
      Edited config op roster r (r.attached config e.username handle e.isLocal pose)
  /-- It is given to its script. -/
  | entered (uiVisible : Bool) (text : Option String)
      (requested : op = .setCinematic r.id true uiVisible text) :
      Edited config op roster r (r.enterCinematic uiVisible (Fleet.scriptOf text).value)
  /-- It is given to its follow mode. -/
  | left (uiVisible : Bool) : Edited config op roster r (r.leaveCinematic uiVisible)
  /-- It starts a script. -/
  | started (text : String) (requested : op = .runScript r.id text) :
      Edited config op roster r (r.runScript (Script.read text).value.script)
  /-- It stops its script. -/
  | stopped : Edited config op roster r r.stopScript

/-- A rig has the mode smooth from its start. -/
theorem new_setFollowMode_smooth (config : Config) (id : RigId) (cinematic : Bool) :
    (Rig.new config id cinematic).setFollowMode config .smooth = Rig.new config id cinematic :=
  rfl

/-- What a request makes of an open rig, as one of the few ways to change it. -/
theorem edited_of_edit? {op : Operation} {display : DisplaySize} {roster : Roster Float32}
    {change : Rig → Option Rig} (edits : op.edit? config display roster = some (r.id, change))
    (changes : change r = some r') : r.Edited config op roster r' := by
  cases op <;>
    simp only [Operation.edit?, Option.some.injEq, Prod.mk.injEq, reduceCtorEq] at edits <;>
    obtain ⟨rfl, rfl⟩ := edits
  case setTarget username =>
    obtain ⟨e, hfind, hbind⟩ := Option.bind_eq_some_iff.mp changes
    rw [bind?_value] at hbind
    obtain ⟨⟨handle, pose⟩, hbindable, rfl⟩ := Option.map_eq_some_iff.mp hbind
    exact .bound username e handle pose rfl (Roster.sighted?_eq_some_iff.mpr ⟨hfind, hbindable⟩)
  case setFov fov =>
    obtain ⟨cut, -, rfl⟩ := Option.map_eq_some_iff.mp changes
    exact .unmoved _ ⟨rfl, rfl, rfl, rfl, rfl, rfl, rfl⟩
  all_goals obtain rfl := Option.some.inj changes
  case setFollowMode name => exact .unmoved _ (setFollowMode_unmoved config r _)
  case setCinematic state uiVisible text =>
    cases state
    · exact .left uiVisible
    · exact .entered uiVisible text rfl
  case runScript text => exact .started text rfl
  case stopScript => exact .stopped
  case setRigUiVisible visible => exact .unmoved _ (setUiVisible_unmoved r visible)
  case setLocked locked => exact .unmoved _ ⟨rfl, rfl, rfl, rfl, rfl, rfl, rfl⟩
  case setPosition | setSize | setRect => exact .unmoved _ (setPlacement_unmoved r _)
  case resizeSurface width height => exact .unmoved _ (resizeSurface_unmoved r width height)

/-- No request changes the name of a rig. -/
theorem Edited.id_eq {op : Operation} {roster : Roster Float32}
    (h : r.Edited config op roster r') : r'.id = r.id := by
  cases h with
  | unmoved _ unmoved => exact unmoved.id
  | bound | entered | left | started | stopped => rfl

end Rig

namespace Fleet

/-- How a rig of the next fleet has come about. -/
inductive Origin (f : Fleet) (op : Operation) (roster : Roster Float32) : Rig → Prop where
  /-- It was there, and a request may have changed it. -/
  | edited (r r' : Rig) (isOpen : r ∈ f.rigs) (edited : r.Edited f.config op roster r') :
      Origin f op roster r'
  /-- It was made. -/
  | made (id : RigId) (r : Rig) (started : r.Started f.config id roster) : Origin f op roster r
  /-- A step of time has gone by. -/
  | aged (dt : Float32) (r : Rig) (updates : op = .update dt) (isOpen : r ∈ f.rigs)
      (stays : r.expires f.config dt roster = false) :
      Origin f op roster (r.aged f.config dt roster).delivered

variable {f f' : Fleet} {op : Operation} {id : RigId} {r : Rig} {roster : Roster Float32}

theorem Origin.of_mem (h : r ∈ f.rigs) : f.Origin op roster r :=
  .edited r r h (.unmoved r (.refl r))

/-- A rig that is made has just started out. -/
theorem started_of_spawnRig? {spawn : Spawn}
    (h : (f.spawnRig? id spawn roster).value = some r) : r.Started f.config id roster := by
  cases spawn with
  | cinematic =>
    obtain rfl := Option.some.inj h
    exact .cinematic
  | follow =>
    refine .bound .smooth r ?_
    rw [Rig.new_setFollowMode_smooth]
    exact Rig.bindFirst?_binds h
  | preset p =>
    rw [spawnRig?_preset_value] at h
    obtain ⟨bound, hbound, rfl⟩ := Option.map_eq_some_iff.mp h
    refine .placed p.mode bound _ ?_
    rcases Option.or_eq_some_iff.mp hbound with hnamed | ⟨-, hfirst⟩
    · obtain ⟨e, he, hbind⟩ := Option.bind_eq_some_iff.mp hnamed
      split at he
      · cases he
      · exact Rig.bind?_binds (List.mem_of_find?_eq_some he) hbind
    · exact Rig.bindFirst?_binds hfirst

theorem started_of_made? {start : Except FleetError Spawn}
    (h : f.made? id start roster = some r) : r.Started f.config id roster := by
  unfold made? at h
  split at h
  · cases h
  · obtain ⟨spawn, -, hspawn⟩ := Option.bind_eq_some_iff.mp h
    exact started_of_spawnRig? hspawn

theorem mem_replace {changed : Rig} (h : r ∈ (f.replace changed).rigs) :
    r ∈ f.rigs ∨ r = changed := by
  obtain ⟨old, hold, rfl⟩ := List.mem_map.mp h
  split
  · exact .inr rfl
  · exact .inl hold

/-- A rig that takes the place of another is found under its name. -/
theorem rig?_replace {changed old : Rig} (h : f.rig? changed.id = some old) :
    (f.replace changed).rig? changed.id = some changed := by
  have hname : ((·.id == changed.id) ∘ fun r : Rig => if r.id = changed.id then changed else r) =
      (·.id == changed.id) := by
    funext r
    by_cases hr : r.id = changed.id <;> simp [hr]
  obtain ⟨-, hid⟩ := rig?_eq_some h
  have hfind : f.rigs.find? (·.id == changed.id) = some old := h
  simp only [rig?, replace, List.find?_map, hname, hfind]
  simp [hid]

/-- A group of presets leaves the rigs that are there, and adds rigs that have just started. -/
theorem createEach_origin (presets : List (RigId × Preset))
    (h : r ∈ (f.createEach roster presets).value.1.rigs) :
    r ∈ f.rigs ∨ ∃ id, r.Started f.config id roster := by
  let Kept : Fleet → Prop := fun g => g.config = f.config ∧
    ∀ r ∈ g.rigs, r ∈ f.rigs ∨ ∃ id, r.Started f.config id roster
  have hkept : Kept (f.createEach roster presets).value.1 := by
    refine createEach_keeps presets ?_ ⟨rfl, fun r hr => .inl hr⟩
    rintro g preset rig - hmade ⟨hconfig, hrigs⟩
    refine ⟨hconfig, fun r hr => ?_⟩
    rcases List.mem_append.mp hr with hold | hnew
    · exact hrigs r hold
    · rw [List.mem_singleton.mp hnew]
      exact .inr ⟨preset.1, hconfig ▸ started_of_made? hmade⟩
  exact hkept.2 r h

/-- Every rig of the fleet after an operation has come about in one of these ways. -/
theorem origin_of_mem (op : Operation) (roster : Roster Float32)
    (h : r ∈ (f.perform op roster).value.1.rigs) : f.Origin op roster r := by
  cases op using Operation.byKind f.config f.display roster with
  | edit op id change hedit =>
    rw [(perform_edit hedit).fleet] at h
    cases hnext : f.edited? id change with
    | none =>
      rw [hnext] at h
      exact .of_mem h
    | some next =>
      rw [hnext] at h
      obtain ⟨r', hr', rfl⟩ := Option.map_eq_some_iff.mp hnext
      obtain ⟨old, hold, hchange⟩ := Option.bind_eq_some_iff.mp hr'
      rcases mem_replace h with hsame | rfl
      · exact .of_mem hsame
      · obtain ⟨hmem, rfl⟩ := rig?_eq_some hold
        exact .edited old r hmem (Rig.edited_of_edit? hedit hchange)
  | spawn op id start hspawn =>
    rw [(perform_spawn hspawn).fleet] at h
    cases hmade : f.made? id start roster with
    | none =>
      rw [hmade] at h
      exact .of_mem h
    | some rig =>
      rw [hmade] at h
      rcases List.mem_append.mp h with hold | hnew
      · exact .of_mem hold
      · rw [List.mem_singleton.mp hnew]
        exact .made id rig (started_of_made? hmade)
  | applyGroup presets =>
    have hgroup : r ∈ f.rigs ∨ ∃ id, r.Started f.config id roster := by
      simp only [perform, applyGroup, Logged.value_bind, Logged.value_pure] at h
      split at h
      · rcases createEach_origin presets h with hold | hnew
        · cases hold
        · exact .inr hnew
      · exact createEach_origin presets h
    rcases hgroup with hold | ⟨id, hnew⟩
    · exact .of_mem hold
    · exact .made id r hnew
  | close id =>
    refine .of_mem ?_
    simp only [perform, close] at h
    split at h
    · exact h
    · exact (List.mem_filter.mp h).1
  | shutdownAll => cases h
  | setUiVisible visible =>
    obtain ⟨⟨changed, done⟩, hchanged, rfl⟩ := List.mem_map.mp h
    obtain ⟨old, hold, hshown⟩ := List.mem_map.mp hchanged
    rw [← hshown]
    exact .edited old _ hold (.unmoved _ (Rig.setUiVisible_unmoved old visible))
  | setDisplay display => exact .of_mem h
  | update dt =>
    have hmem : r ∈ (f.update dt roster).value.rigs := h
    rw [update_rigs] at hmem
    obtain ⟨old, hold, rfl⟩ := List.mem_map.mp hmem
    obtain ⟨hopen, hstays⟩ := List.mem_filter.mp hold
    exact .aged dt old rfl hopen (by simpa using hstays)

theorem run_concat (ops : List (Operation × Roster Float32)) (op : Operation)
    (roster : Roster Float32) :
    f.run (ops ++ [(op, roster)]) = ((f.run ops).perform op roster).value.1 := by
  simp [run]

/-- What holds of the rigs after a run, if it holds of each rig of the next fleet when it holds of
the rigs before. -/
theorem run_rigs_induction (config : Config)
    (Kept : List (Operation × Roster Float32) → Rig → Prop)
    (step : ∀ ops op roster r, (∀ r ∈ ((Fleet.new config).run ops).rigs, Kept ops r) →
      ((Fleet.new config).run ops).Origin op roster r → Kept (ops ++ [(op, roster)]) r)
    (ops : List (Operation × Roster Float32)) : ∀ r ∈ ((Fleet.new config).run ops).rigs,
      Kept ops r := by
  induction ops using List.reverseRecOn with
  | nil => exact fun r hr => absurd hr List.not_mem_nil
  | append_singleton ops last ih =>
    intro r hr
    obtain ⟨op, roster⟩ := last
    rw [run_concat] at hr
    exact step ops op roster r ih (origin_of_mem op roster hr)

end Fleet

end Skycam

import Skycam.Proofs.Rig.Sighting
import Skycam.Fleet.Operation

/-!
# Requests to one rig

A request that names one rig either takes place as a whole or is refused. What it makes of its rig
is said once, by `Operation.edit?` for an open rig and by `Fleet.made?` for a new one, and with it
what the fleet becomes and when the request is refused (`Fleet.perform_edit`,
`Fleet.perform_spawn`). After that, no proof has to look into the requests themselves.
-/

namespace Skycam

/-- Whether the operation was refused. -/
def Answer.isRefused : Answer → Bool
  | refused _ => true
  | _ => false

theorem Answer.isRefused_iff {a : Answer} : a.isRefused = true ↔ ∃ e, a = .refused e := by
  cases a <;> simp [isRefused]

/-- The rig once its window is moved, as a region of the given unit. -/
def Rig.relocated (config : Config) (display : DisplaySize) (unit : PlacementUnit)
    (change : Region Float32 → Region Float32) (r : Rig) : Rig :=
  r.setPlacement
    ((change (r.preset unit display).region).toPixels unit display config.surface.minPresetSize)

namespace Operation

/-- The rig that the operation names. -/
def addressee? : Operation → Option RigId
  | create id _ | createOfText id _ | close id | setTarget id _ | setFollowMode id _ | setFov id _
  | setCinematic id _ _ _ | runScript id _ | stopScript id | setRigUiVisible id _ | setLocked id _
  | setPosition id _ _ _ | setSize id _ _ _ | setRect id _ _ | resizeSurface id _ _ => some id
  | applyGroup _ | shutdownAll | setUiVisible _ | setDisplay _ | update _ => none

/-- The name of the rig that the operation is to create, and how it is to start out. -/
def spawn? : Operation → Option (RigId × Except FleetError Spawn)
  | create id spawn => some (id, .ok spawn)
  | createOfText id text => some (id, Fleet.spawnOfText text)
  | _ => none

/-- The name of the rig that the operation changes, and what becomes of that rig if it can be
changed. Of the fleet only the configuration and the display matter. -/
def edit? (config : Config) (display : DisplaySize) (roster : Roster Float32) :
    Operation → Option (RigId × (Rig → Option Rig))
  | setTarget id username =>
    some (id, fun r => (roster.find? username).bind fun e => (r.bind? config e roster).value)
  | setFollowMode id name => some (id, fun r => r.setFollowMode config (.ofNameOrSmooth name))
  | setFov id fov =>
    some (id, fun r => (config.fov.clamp? fov).map fun fov => { r with body := r.body.setFov fov })
  | setCinematic id state uiVisible text =>
    some (id, fun r => some (
      if state then r.enterCinematic uiVisible (Fleet.scriptOf text).value
      else r.leaveCinematic uiVisible))
  | runScript id text => some (id, fun r => r.runScript (Script.read text).value.script)
  | stopScript id => some (id, fun r => r.stopScript)
  | setRigUiVisible id visible => some (id, fun r => (r.setUiVisible visible).1)
  | setLocked id locked => some (id, fun r => r.setLocked locked)
  | setPosition id unit x y =>
    some (id, fun r => r.relocated config display unit fun region => { region with x, y })
  | setSize id unit width height =>
    some (id, fun r => r.relocated config display unit fun region => { region with width, height })
  | setRect id unit region => some (id, fun r => r.relocated config display unit fun _ => region)
  | resizeSurface id width height => some (id, fun r => (r.resizeSurface width height).1)
  | _ => none

variable {config : Config} {display : DisplaySize} {roster : Roster Float32} {op : Operation}
  {id : RigId} {change : Rig → Option Rig} {r r' : Rig}

theorem addressee?_of_edit? (h : op.edit? config display roster = some (id, change)) :
    op.addressee? = some id := by
  cases op <;> simp [edit?] at h <;> simp [addressee?, h.1]

theorem addressee?_of_spawn? {spawn : Except FleetError Spawn} (h : op.spawn? = some (id, spawn)) :
    op.addressee? = some id := by
  cases op <;> simp [spawn?] at h <;> simp [addressee?, h.1]

/-- A request changes an open rig by its moves. -/
theorem edit?_moves (h : op.edit? config display roster = some (id, change))
    (hchange : change r = some r') : Rig.Moves config r r' := by
  cases op <;> simp only [edit?, Option.some.injEq, Prod.mk.injEq, reduceCtorEq] at h <;>
    obtain ⟨rfl, rfl⟩ := h
  case setTarget username =>
    obtain ⟨e, -, hbind⟩ := Option.bind_eq_some_iff.mp hchange
    exact Rig.bind?_moves hbind
  case setFov fov =>
    obtain ⟨cut, -, rfl⟩ := Option.map_eq_some_iff.mp hchange
    exact .single (.fov r cut)
  all_goals obtain rfl := Option.some.inj hchange
  case setFollowMode name => exact .single (.mode r _)
  case setCinematic state uiVisible text =>
    split
    · exact .single (.enterCinematic r _ _)
    · exact .single (.leaveCinematic r _)
  case runScript text => exact .single (.runScript r _)
  case stopScript => exact .single (.stopScript r)
  case setRigUiVisible visible => exact .single (.showWindow r visible)
  case setLocked locked => exact .single (.lock r locked)
  case setPosition | setSize | setRect => exact Rig.setPlacement_moves _
  case resizeSurface width height => exact .single (.resize r width height)

/-- Every operation is a request to an open rig, one for a new rig, or one of those that are neither
and cannot be refused. -/
@[elab_as_elim]
theorem byKind {motive : Operation → Prop} (config : Config) (display : DisplaySize)
    (roster : Roster Float32)
    (edit : ∀ op id change, op.edit? config display roster = some (id, change) → motive op)
    (spawn : ∀ op id start, op.spawn? = some (id, start) → motive op)
    (applyGroup : ∀ presets, motive (.applyGroup presets)) (close : ∀ id, motive (.close id))
    (shutdownAll : motive .shutdownAll) (setUiVisible : ∀ visible, motive (.setUiVisible visible))
    (setDisplay : ∀ display, motive (.setDisplay display)) (update : ∀ dt, motive (.update dt))
    (op : Operation) : motive op := by
  cases op
  case applyGroup presets => exact applyGroup presets
  case close id => exact close id
  case shutdownAll => exact shutdownAll
  case setUiVisible visible => exact setUiVisible visible
  case setDisplay display => exact setDisplay display
  case update dt => exact update dt
  case create | createOfText => exact spawn _ _ _ rfl
  all_goals exact edit _ _ _ rfl

end Operation

namespace Fleet

/-- The fleet once the rig of a name is changed, if there is one and it can be. -/
def edited? (f : Fleet) (id : RigId) (change : Rig → Option Rig) : Option Fleet :=
  ((f.rig? id).bind change).map f.replace

/-- The rig that is made for a name that may be given to it. -/
def made? (f : Fleet) (id : RigId) (spawn : Except FleetError Spawn) (roster : Roster Float32) :
    Option Rig :=
  if id.isBlank || f.contains id || roster.isEmpty then none
  else spawn.toOption.bind fun spawn => (f.spawnRig? id spawn roster).value

/-- The fleet with one more rig. -/
def add (f : Fleet) (rig : Rig) : Fleet := { f with rigs := f.rigs ++ [rig] }

/-- A request has led to the next fleet, or it was refused because there is none. -/
structure Outcome (f : Fleet) (next : Option Fleet) (outcome : Fleet × Answer) : Prop where
  /-- The fleet stays as it was if there is no next one. -/
  fleet : outcome.1 = next.getD f
  /-- Only then the request is refused. -/
  refused : outcome.2.isRefused = next.isNone

variable {f : Fleet} {op : Operation} {id : RigId} {r : Rig} {roster : Roster Float32}

/-- A result that may be an error settles the request as its value says. -/
theorem Outcome.of_settle {α : Type} {result : Except FleetError α} {fleet : α → Fleet}
    {answer : α → Answer} {next : Option Fleet} (h : result.toOption.map fleet = next)
    (hanswer : ∀ a, (answer a).isRefused = false) :
    f.Outcome next (f.settle result fleet answer) := by
  subst h
  cases result with
  | ok a => exact ⟨rfl, hanswer a⟩
  | error e => exact ⟨rfl, rfl⟩

theorem Outcome.of_settleDone {result : Except FleetError Fleet} {next : Option Fleet}
    (h : result.toOption = next) : f.Outcome next (f.settleDone result) :=
  .of_settle (by simpa using h) fun _ => rfl

theorem Outcome.refused_iff {next : Option Fleet} {outcome : Fleet × Answer}
    (h : f.Outcome next outcome) : (∃ e, outcome.2 = .refused e) ↔ next = none := by
  rw [← Answer.isRefused_iff, h.refused, Option.isNone_iff_eq_none]

/-- A request that is refused leaves the fleet as it was. -/
theorem Outcome.unchanged {next : Option Fleet} {outcome : Fleet × Answer}
    (h : f.Outcome next outcome) {e : FleetError} (hrefused : outcome.2 = .refused e) :
    outcome.1 = f := by
  rw [h.fleet, h.refused_iff.mp ⟨e, hrefused⟩]
  rfl

/-! ## Requests to an open rig -/

theorem edit_toOption (change : Rig → Rig) :
    (f.edit id change).toOption = f.edited? id fun r => some (change r) := by
  unfold edit edited?
  cases f.rig? id <;> rfl

/-- A target is set if the rig is there, the player is found and the rig can be bound to that
one. -/
theorem setTarget_toOption (username : String) :
    (f.setTarget id username roster).value.toOption = f.edited? id fun r =>
      (roster.find? username).bind fun e => (r.bind? f.config e roster).value := by
  unfold setTarget edited?
  cases f.rig? id with
  | none => rfl
  | some r =>
    cases roster.find? username with
    | none => rfl
    | some e =>
      cases hbind : (r.bind? f.config e roster).value <;> simp [hbind, Except.toOption]

theorem setFollowMode_value (name : String) :
    (f.setFollowMode id name).value =
      (f.edit id (·.setFollowMode f.config (.ofNameOrSmooth name))).map
        fun f => (f, .ofNameOrSmooth name) := by
  unfold setFollowMode
  dsimp only
  split <;> rfl

theorem setFollowMode_toOption (name : String) :
    (f.setFollowMode id name).value.toOption.map (·.1) =
      f.edited? id fun r => some (r.setFollowMode f.config (.ofNameOrSmooth name)) := by
  rw [setFollowMode_value, ← edit_toOption]
  cases f.edit id (·.setFollowMode f.config (.ofNameOrSmooth name)) <;> rfl

/-- A field of view is set if the rig is there and the configured range is not empty. -/
theorem setFov_toOption (fov : Float32) :
    (f.setFov id fov).toOption = f.edited? id fun r =>
      (f.config.fov.clamp? fov).map fun fov => { r with body := r.body.setFov fov } := by
  unfold setFov edited?
  cases f.rig? id with
  | none => rfl
  | some r => cases f.config.fov.clamp? fov <;> rfl

theorem setCinematic_toOption (state uiVisible : Bool) (text : Option String) :
    (f.setCinematic id state uiVisible text).value.toOption = f.edited? id fun r =>
      some (if state then r.enterCinematic uiVisible (scriptOf text).value
        else r.leaveCinematic uiVisible) := by
  unfold setCinematic edited?
  cases f.rig? id <;> rfl

theorem runScript_toOption (text : String) :
    (f.runScript id text).value.toOption.map (·.1) =
      f.edited? id fun r => some (r.runScript (Script.read text).value.script) := by
  unfold runScript edited?
  cases f.rig? id <;> rfl

theorem setRigUiVisible_toOption (visible : Bool) :
    (f.setRigUiVisible id visible).toOption.map (·.1) =
      f.edited? id fun r => some (r.setUiVisible visible).1 := by
  unfold setRigUiVisible edited?
  cases f.rig? id <;> rfl

theorem resizeSurface_toOption (width height : UInt32) :
    (f.resizeSurface id width height).toOption.map (·.1) =
      f.edited? id fun r => some (r.resizeSurface width height).1 := by
  unfold resizeSurface edited?
  cases f.rig? id <;> rfl

/-- A request to an open rig changes that rig, and is refused if it is not there or cannot be
changed. -/
theorem perform_edit {change : Rig → Option Rig}
    (h : op.edit? f.config f.display roster = some (id, change)) :
    f.Outcome (f.edited? id change) (f.perform op roster).value := by
  cases op <;>
    simp only [Operation.edit?, Option.some.injEq, Prod.mk.injEq, reduceCtorEq] at h <;>
    obtain ⟨rfl, rfl⟩ := h
  case setTarget username => exact .of_settleDone (setTarget_toOption username)
  case setFollowMode name => exact .of_settle (setFollowMode_toOption name) fun _ => rfl
  case setFov fov => exact .of_settleDone (setFov_toOption fov)
  case setCinematic state uiVisible text =>
    exact .of_settleDone (setCinematic_toOption state uiVisible text)
  case runScript text => exact .of_settle (runScript_toOption text) fun _ => rfl
  case setRigUiVisible visible => exact .of_settle (setRigUiVisible_toOption visible) fun _ => rfl
  case resizeSurface width height =>
    exact .of_settle (resizeSurface_toOption width height) fun _ => rfl
  case stopScript | setLocked | setPosition | setSize | setRect =>
    exact .of_settleDone (edit_toOption _)

/-! ## Requests for a new rig -/

/-- A rig with a preset takes its mode, is bound to the player it names, or else to the first one
there is, and takes its placement. -/
theorem spawnRig?_preset_value (p : Preset) :
    (f.spawnRig? id (.preset p) roster).value =
      let start := (Rig.new f.config id false).setFollowMode f.config p.mode
      let named := (if p.target = "" then none else roster.find? p.target).bind fun e =>
        (start.bind? f.config e roster).value
      (named.or (start.bindFirst? f.config roster).value).map fun r =>
        r.setPlacement (p.toPixels f.display f.config.surface.minPresetSize) := by
  unfold spawnRig?
  dsimp only
  generalize (Rig.new f.config id false).setFollowMode f.config p.mode = start
  cases (if p.target = "" then none else roster.find? p.target) with
  | none => rfl
  | some e =>
    cases hbind : (start.bind? f.config e roster).value with
    | none => simp [hbind]
    | some bound => simp [hbind]

/-- A rig that starts out has moved from a new rig of the configuration. -/
theorem spawnRig?_moves {spawn : Spawn}
    (h : (f.spawnRig? id spawn roster).value = some r) :
    ∃ cinematic, Rig.Moves f.config (Rig.new f.config id cinematic) r := by
  cases spawn with
  | cinematic =>
    obtain rfl := Option.some.inj h
    exact ⟨true, .refl⟩
  | follow => exact ⟨false, Rig.bindFirst?_moves h⟩
  | preset p =>
    rw [spawnRig?_preset_value] at h
    obtain ⟨bound, hbound, rfl⟩ := Option.map_eq_some_iff.mp h
    have hmode : Rig.Moves f.config (Rig.new f.config id false)
        ((Rig.new f.config id false).setFollowMode f.config p.mode) := .single (.mode _ _)
    refine ⟨false, (hmode.trans ?_).trans (Rig.setPlacement_moves _)⟩
    rcases Option.or_eq_some_iff.mp hbound with hnamed | ⟨-, hfirst⟩
    · obtain ⟨e, -, hbind⟩ := Option.bind_eq_some_iff.mp hnamed
      exact Rig.bind?_moves hbind
    · exact Rig.bindFirst?_moves hfirst

/-- A fleet in which a rig is created has that rig in addition, if it can be made. -/
theorem create_toOption (spawn : Spawn) :
    (f.create id spawn roster).value.toOption = (f.made? id (.ok spawn) roster).map f.add := by
  unfold create made?
  cases id.isBlank <;> cases f.contains id <;> cases roster.isEmpty <;> try rfl
  cases hspawn : (f.spawnRig? id spawn roster).value <;>
    simp [hspawn, Except.toOption, add]

/-- A text must be read before a rig can be made from it. -/
theorem createOfText_toOption (text : String) :
    (f.createOfText id text roster).value.toOption =
      (f.made? id (spawnOfText text) roster).map f.add := by
  unfold createOfText
  cases spawnOfText text with
  | ok spawn => exact create_toOption spawn
  | error e => simp [made?, Except.toOption]

/-- A new rig has a name that is not blank and that no other has, and has only moved since it is
there. -/
theorem moves_of_made? {start : Except FleetError Spawn} (h : f.made? id start roster = some r) :
    id.isBlank = false ∧ f.contains id = false ∧
      ∃ cinematic, Rig.Moves f.config (Rig.new f.config id cinematic) r := by
  unfold made? at h
  split at h
  · cases h
  · next hallowed =>
    simp only [Bool.or_eq_true, not_or, Bool.not_eq_true] at hallowed
    obtain ⟨⟨hnotBlank, hnew⟩, -⟩ := hallowed
    obtain ⟨spawn, -, hspawn⟩ := Option.bind_eq_some_iff.mp h
    exact ⟨hnotBlank, hnew, spawnRig?_moves hspawn⟩

theorem id_eq_of_made? {start : Except FleetError Spawn} (h : f.made? id start roster = some r) :
    r.id = id := by
  obtain ⟨-, -, cinematic, hmoves⟩ := moves_of_made? h
  exact hmoves.id_eq

/-- What the addition of each of the new rigs keeps is kept by a group of presets, some of which may
fail. -/
theorem createEach_keeps {Kept : Fleet → Prop} (presets : List (RigId × Preset))
    (step : ∀ f preset rig, preset ∈ presets →
      f.made? preset.1 (.ok (.preset preset.2)) roster = some rig → Kept f → Kept (f.add rig))
    (h : Kept f) : Kept (f.createEach roster presets).value.1 := by
  induction presets generalizing f with
  | nil => exact h
  | cons preset rest ih =>
    obtain ⟨name, p⟩ := preset
    have hrest : ∀ {next : Fleet}, Kept next → Kept (next.createEach roster rest).value.1 :=
      ih fun f preset rig hpreset => step f preset rig (List.mem_cons_of_mem _ hpreset)
    have hcreate : (f.create name (.preset p) roster).value.toOption =
        (f.made? name (.ok (.preset p)) roster).map f.add := create_toOption _
    unfold createEach
    cases hresult : (f.create name (.preset p) roster).value with
    | ok next =>
      rw [hresult] at hcreate
      obtain ⟨rig, hmade, hadd⟩ := Option.map_eq_some_iff.mp hcreate.symm
      have hnext : Kept next := hadd ▸ step f (name, p) rig List.mem_cons_self hmade h
      simpa [hresult] using hrest hnext
    | error e => simpa [hresult] using hrest h

/-- A request for a new rig adds that rig, and is refused if none can be made. -/
theorem perform_spawn {spawn : Except FleetError Spawn} (h : op.spawn? = some (id, spawn)) :
    f.Outcome ((f.made? id spawn roster).map f.add) (f.perform op roster).value := by
  cases op <;>
    simp only [Operation.spawn?, Option.some.injEq, Prod.mk.injEq, reduceCtorEq] at h <;>
    obtain ⟨rfl, rfl⟩ := h
  case create spawn => exact .of_settle (by simpa using create_toOption spawn) fun _ => rfl
  case createOfText text =>
    exact .of_settle (by simpa using createOfText_toOption text) fun _ => rfl

/-- Only a request for a new rig answers that it made one. -/
theorem spawn?_of_created (h : (f.perform op roster).value.2 = .created id) :
    ∃ spawn, op.spawn? = some (id, spawn) := by
  have hsettle : ∀ {α : Type} {result : Except FleetError α} {fleet : α → Fleet}
      {answer : α → Answer}, (f.settle result fleet answer).2 = .created id →
        ∃ a, answer a = .created id := by
    intro α result fleet answer hcreated
    cases result with
    | ok a => exact ⟨a, hcreated⟩
    | error e => cases hcreated
  cases op
  case create name spawn =>
    obtain ⟨-, hname⟩ := hsettle h
    exact ⟨.ok spawn, by rw [Operation.spawn?, Answer.created.inj hname]⟩
  case createOfText name text =>
    obtain ⟨-, hname⟩ := hsettle h
    exact ⟨spawnOfText text, by rw [Operation.spawn?, Answer.created.inj hname]⟩
  case applyGroup | close | shutdownAll | setUiVisible | setDisplay | update => cases h
  all_goals
    obtain ⟨a, hother⟩ := hsettle h
    cases hother

end Fleet

end Skycam

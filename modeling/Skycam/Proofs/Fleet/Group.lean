import Skycam.Proofs.Fleet.Binding
import Skycam.Proofs.Fleet.Update

/-!
# A group of presets is the sum of its presets

Whether a rig can be made for a preset is settled by the configuration, the display and the roster:
the rigs that are open have no part in it as long as the name is new (`Fleet.create_preset`). So
each preset of a group gets what it would get alone, and the rigs that are made come one after
another behind those that were there (`Fleet.createEach_value`). A group that clears the fleet
leaves one end of each rig to be told, whatever becomes of its presets (`Fleet.applyGroup_sum`).
-/

namespace Skycam

/-! ## Generated names -/

namespace RigId

/-- A generated name has a hyphen in it, so it is not blank. -/
theorem ofRandom_isBlank (high middle low : Nat) : (ofRandom high middle low).isBlank = false := by
  have hhyphen : '-' ∈ (ofRandom high middle low).text.toList := by
    simp [ofRandom, List.intercalate, List.intersperse]
  unfold isBlank Text.isBlankText
  rw [List.all_eq_false]
  exact ⟨'-', hhyphen, by decide⟩

/-- The names are generated ones, no two of them are the same, and none is among the given ones. -/
structure Fresh (taken names : List RigId) : Prop where
  generated : ∀ id ∈ names, ∃ high middle low, id = ofRandom high middle low
  nodup : names.Nodup
  isNew : ∀ id ∈ names, id ∉ taken

end RigId

/-- The error of the same kind about a rig of the given name. -/
def FleetError.about (id : RigId) : FleetError → FleetError
  | duplicateRig _ => .duplicateRig id
  | rigNotFound _ => .rigNotFound id
  | noValidTarget _ => .noValidTarget id
  | e => e

/-- The event tells of the end of a rig. -/
def Event.isEnd (e : Event) : Bool :=
  match e.change with
  | .destroyed _ => true
  | _ => false

namespace Fleet

/-- The fleet without rigs that has the same configuration and the same display. -/
def emptied (f : Fleet) : Fleet := { Fleet.new f.config with display := f.display }

/-- What comes of the creation of a rig for a preset in a fleet without rigs. -/
def alone (f : Fleet) (id : RigId) (p : Preset) (roster : Roster Float32) :
    Except FleetError Fleet := (f.emptied.create id (.preset p) roster).value

/-- The rigs that come of it. -/
def rigsAlone (f : Fleet) (roster : Roster Float32) (preset : RigId × Preset) : List Rig :=
  match f.alone preset.1 preset.2 roster with
  | .ok made => made.rigs
  | .error _ => []

variable {f : Fleet} {id name : RigId} {p : Preset} {roster : Roster Float32}

/-! ## One preset -/

/-- To create a rig from a preset under a new name depends on the roster and the preset alone: the
rig is the one that the emptied fleet would make, and it is put last. -/
theorem create_preset (hid : id.isBlank = false) (hnew : id ∉ f.ids) :
    (f.create id (.preset p) roster).value =
      if roster.isEmpty then .error .emptyRoster
      else
        match (f.emptied.spawnRig? id (.preset p) roster).value with
        | none => .error (.noValidTarget id)
        | some rig => .ok (f.add rig) := by
  have hcontains : f.contains id = false := by
    rw [← Bool.not_eq_true, contains_iff]
    exact hnew
  have hsame : f.emptied.spawnRig? id (.preset p) roster = f.spawnRig? id (.preset p) roster := rfl
  unfold create
  rw [hid, hcontains, hsame]
  simp only [Bool.false_eq_true, if_false]
  split
  · rfl
  · cases hspawn : (f.spawnRig? id (.preset p) roster).value <;> simp [hspawn, add]

/-- What a preset gives by itself, as the emptied fleet makes it. -/
theorem alone_eq (hid : id.isBlank = false) :
    f.alone id p roster =
      if roster.isEmpty then .error .emptyRoster
      else
        match (f.emptied.spawnRig? id (.preset p) roster).value with
        | none => .error (.noValidTarget id)
        | some rig => .ok (f.emptied.add rig) :=
  create_preset hid List.not_mem_nil

/-- A rig is made in a fleet of others as it is made alone. -/
theorem create_eq_alone (hid : id.isBlank = false) (hnew : id ∉ f.ids) :
    (f.create id (.preset p) roster).value =
      (f.alone id p roster).map fun made => { f with rigs := f.rigs ++ made.rigs } := by
  rw [create_preset hid hnew, alone_eq hid]
  split
  · rfl
  · split <;> rfl

/-- The name has no part in whether a rig is made. -/
theorem alone_renamed (hid : id.isBlank = false) (hname : name.isBlank = false) :
    (f.alone id p roster).map (fun _ => id) =
      ((f.alone name p roster).map fun _ => id).mapError (·.about id) := by
  have hsome : (f.emptied.spawnRig? id (.preset p) roster).value.isSome =
      (f.emptied.spawnRig? name (.preset p) roster).value.isSome := by
    rw [Bool.eq_iff_iff, isSome_spawnRig?_iff _ _ _ Spawn.noConfusion,
      isSome_spawnRig?_iff _ _ _ Spawn.noConfusion]
  rw [alone_eq hid, alone_eq hname]
  split
  · rfl
  · cases hmine : (f.emptied.spawnRig? id (.preset p) roster).value <;>
      cases hother : (f.emptied.spawnRig? name (.preset p) roster).value <;>
        rw [hmine, hother] at hsome <;> first | rfl | cases hsome

/-- A preset by itself makes one rig at most, under the name that goes with it. -/
theorem ids_of_alone {made : Fleet} (hid : id.isBlank = false)
    (h : f.alone id p roster = .ok made) : made.ids = [id] := by
  rw [alone_eq hid] at h
  split at h
  · cases h
  · split at h
    · cases h
    · next rig hrig =>
      obtain ⟨cinematic, hmoves⟩ := spawnRig?_moves hrig
      have hname : rig.id = id := hmoves.id_eq
      obtain rfl := Except.ok.inj h
      simp [ids, add, emptied, Fleet.new, hname]

/-! ## One preset after another -/

/-- A group of presets whose names are new adds, in order, the rig that each of them gives by
itself, and answers as each of them does by itself. -/
theorem createEach_value {presets : List (RigId × Preset)}
    (hblank : ∀ id ∈ presets.map (·.1), id.isBlank = false) (hn : (presets.map (·.1)).Nodup)
    (hnew : ∀ id ∈ presets.map (·.1), id ∉ f.ids) :
    (f.createEach roster presets).value =
      ({ f with rigs := f.rigs ++ presets.flatMap (f.rigsAlone roster) },
        presets.map fun preset => (f.alone preset.1 preset.2 roster).map fun _ => preset.1) := by
  induction presets generalizing f with
  | nil => simp [createEach]
  | cons preset rest ih =>
    obtain ⟨id, p⟩ := preset
    obtain ⟨hid, hblank⟩ := List.forall_mem_cons.mp hblank
    obtain ⟨hnewId, hnew⟩ := List.forall_mem_cons.mp hnew
    obtain ⟨hother, hn⟩ := List.nodup_cons.mp hn
    have hcreate : (f.create id (.preset p) roster).value =
        (f.alone id p roster).map fun made => { f with rigs := f.rigs ++ made.rigs } :=
      create_eq_alone hid hnewId
    cases halone : f.alone id p roster with
    | error e =>
      have hrefused : (f.create id (.preset p) roster).value = .error e := by
        rw [hcreate, halone]
        rfl
      unfold createEach
      simp [hrefused, ih hblank hn hnew, rigsAlone, halone, Except.map]
    | ok made =>
      have hmade : (f.create id (.preset p) roster).value =
          .ok { f with rigs := f.rigs ++ made.rigs } := by
        rw [hcreate, halone]
        rfl
      have hids : ({ f with rigs := f.rigs ++ made.rigs } : Fleet).ids = f.ids ++ [id] := by
        rw [← ids_of_alone hid halone]
        exact List.map_append
      have hnewRest : ∀ later ∈ rest.map (·.1),
          later ∉ ({ f with rigs := f.rigs ++ made.rigs } : Fleet).ids := by
        intro later hlater
        rw [hids, List.mem_append, List.mem_singleton, not_or]
        refine ⟨hnew later hlater, ?_⟩
        rintro rfl
        exact hother hlater
      -- a fleet with one more rig gives the rest of the presets what this one gives them
      have hrest := ih hblank hn hnewRest
      have halones : ({ f with rigs := f.rigs ++ made.rigs } : Fleet).alone = f.alone := rfl
      have hrigs : ({ f with rigs := f.rigs ++ made.rigs } : Fleet).rigsAlone roster =
          f.rigsAlone roster := rfl
      rw [halones, hrigs] at hrest
      unfold createEach
      simp [hmade, hrest, rigsAlone, halone, Except.map]

/-! ## Groups -/

theorem shutdownAll_value : f.shutdownAll.value =
    { f with
      rigs := []
      pending := f.pending ++ f.rigs.flatMap fun r => (r.ended .shutdown).deliveries } := by
  simp [shutdownAll, Rig.destroy, List.flatMap_map]

/-- Of a rig that has not ended yet, its end is told once. -/
theorem filter_isEnd_ended {r : Rig} (h : ∀ reason, .destroyed reason ∉ r.events)
    (reason : DestroyReason) :
    (r.ended reason).deliveries.filter (·.isEnd) = [⟨r.id, .destroyed reason⟩] := by
  have hbefore : r.deliveries.filter (·.isEnd) = [] := by
    refine List.filter_eq_nil_iff.mpr fun e he => ?_
    obtain ⟨change, hchange, rfl⟩ := List.mem_map.mp he
    cases change with
    | destroyed reason => exact absurd hchange (h reason)
    | _ => exact Bool.false_ne_true
  have hended : (r.ended reason).deliveries = r.deliveries ++ [⟨r.id, .destroyed reason⟩] := by
    simp [Rig.ended, Rig.emit, Rig.deliveries]
  rw [hended, List.filter_append, hbefore]
  rfl

/-- A shutdown tells the end of each rig once, in the order of their creation. -/
theorem filter_isEnd_shutdown {rigs : List Rig}
    (h : ∀ r ∈ rigs, ∀ reason, .destroyed reason ∉ r.events) :
    (rigs.flatMap fun r => (r.ended .shutdown).deliveries).filter (·.isEnd) =
      rigs.map fun r => ⟨r.id, .destroyed .shutdown⟩ := by
  rw [List.filter_flatMap]
  induction rigs with
  | nil => rfl
  | cons r rest ih =>
    obtain ⟨hr, hrest⟩ := List.forall_mem_cons.mp h
    rw [List.flatMap_cons, List.map_cons, filter_isEnd_ended hr, ih hrest]
    rfl

/-- The new rigs have the names of the presets that did not fail. -/
theorem map_id_rigsAlone {presets : List (RigId × Preset)}
    (hblank : ∀ id ∈ presets.map (·.1), id.isBlank = false) :
    (presets.flatMap (f.rigsAlone roster)).map (·.id) =
      (presets.map fun preset =>
        (f.alone preset.1 preset.2 roster).map fun _ => preset.1).filterMap Except.toOption := by
  induction presets with
  | nil => rfl
  | cons preset rest ih =>
    obtain ⟨hid, hblank⟩ := List.forall_mem_cons.mp hblank
    rw [List.flatMap_cons, List.map_append, ih hblank, List.map_cons]
    unfold rigsAlone
    cases halone : f.alone preset.1 preset.2 roster with
    | error e => rfl
    | ok made =>
      have hids : made.rigs.map (·.id) = [preset.1] := ids_of_alone hid halone
      rw [hids]
      rfl

/-- The rigs that stay when a group of presets is applied. -/
def kept (f : Fleet) : List Rig := if f.config.clearOnPreset then [] else f.rigs

/-- The events of the rigs that do not stay. -/
def clearing (f : Fleet) : List Event :=
  if f.config.clearOnPreset then f.rigs.flatMap fun r => (r.ended .shutdown).deliveries else []

/-- A group of presets leaves the rigs that were there, unless the fleet is cleared first, and adds
the rig that each preset gives by itself. -/
theorem applyGroup_value {presets : List (RigId × Preset)}
    (hblank : ∀ id ∈ presets.map (·.1), id.isBlank = false) (hn : (presets.map (·.1)).Nodup)
    (hnew : ∀ id ∈ presets.map (·.1), id ∉ f.ids) :
    (f.applyGroup presets roster).value =
      ({ f with
          rigs := f.kept ++ presets.flatMap (f.rigsAlone roster)
          pending := f.pending ++ f.clearing },
        presets.map fun preset => (f.alone preset.1 preset.2 roster).map fun _ => preset.1) := by
  unfold applyGroup kept clearing
  split
  · have hcleared : (f.shutdownAll.value.createEach roster presets).value = _ :=
      createEach_value hblank hn fun id _ => List.not_mem_nil
    have halones : f.shutdownAll.value.alone = f.alone := rfl
    have hrigs : f.shutdownAll.value.rigsAlone roster = f.rigsAlone roster := rfl
    rw [halones, hrigs, shutdownAll_value] at hcleared
    simp [shutdownAll_value, hcleared]
  · simp [createEach_value hblank hn hnew]

/-- After every run, a group of presets under generated names gives each preset what it gives it
alone in a fleet without rigs, under whatever name that is, and the rigs that are made come one
after another behind those that stay. If the fleet is cleared, the events of the rigs that were open
are added to those that wait already for rigs that were closed before: the end of each one is among
them once, in the order of creation. Nothing is added otherwise. -/
theorem applyGroup_sum (config : Config) (ops : List (Operation × Roster Float32))
    (presets : List (RigId × Preset)) (roster : Roster Float32)
    (fresh : RigId.Fresh ((Fleet.new config).run ops).ids (presets.map (·.1))) :
    let f := (Fleet.new config).run ops
    let outcome := (f.applyGroup presets roster).value
    (∀ name : RigId, name.isBlank = false →
        outcome.2 = presets.map fun preset =>
          ((f.alone name preset.2 roster).map fun _ => preset.1).mapError (·.about preset.1)) ∧
      outcome.1.ids =
        (if f.config.clearOnPreset then [] else f.ids) ++ outcome.2.filterMap Except.toOption ∧
      ∃ added, outcome.1 =
          { f with
            rigs := f.kept ++ presets.flatMap (f.rigsAlone roster)
            pending := f.pending ++ added } ∧
        (f.config.clearOnPreset = true →
          added.filter (·.isEnd) = f.ids.map fun id => ⟨id, .destroyed .shutdown⟩) ∧
        (f.config.clearOnPreset = false → added = []) := by
  intro f outcome
  have hblank : ∀ id ∈ presets.map (·.1), id.isBlank = false := by
    intro id hid
    obtain ⟨high, middle, low, rfl⟩ := fresh.generated id hid
    exact RigId.ofRandom_isBlank high middle low
  have houtcome : outcome = _ := applyGroup_value hblank fresh.nodup fresh.isNew
  obtain ⟨told, endings, hnoEnd⟩ :=
    run_keeps config ops (fun _ _ => Ledger.Step.noEndWaits) (start_noEndWaits config)
  have hnoEnds : ∀ r ∈ f.rigs, ∀ reason, .destroyed reason ∉ r.events := hnoEnd.rigs
  rw [houtcome]
  refine ⟨fun name hname => ?_, ?_, f.clearing, rfl, fun hclears => ?_, fun hstays => ?_⟩
  · refine List.map_congr_left fun preset hpreset => ?_
    exact alone_renamed (hblank preset.1 (List.mem_map_of_mem hpreset)) hname
  · have hkept : f.kept.map (·.id) = if f.config.clearOnPreset then [] else f.ids := by
      unfold kept
      split <;> rfl
    rw [← hkept, ← map_id_rigsAlone hblank]
    exact List.map_append
  · rw [clearing, if_pos hclears, filter_isEnd_shutdown hnoEnds, ids, List.map_map]
    rfl
  · rw [clearing, hstays]
    rfl

/-- A run after which one rig is open. -/
def openRun : List (Operation × Roster Float32) := [(.create ⟨"cam"⟩ .follow, .lone "racer")]

/-- Three presets, of which the second one alone names a player who can be followed. -/
def mixedGroup : List (RigId × Preset) :=
  [(.ofRandom 1 0 0, presetFor ""), (.ofRandom 2 0 0, presetFor "racer"),
    (.ofRandom 3 0 0, presetFor "ghost")]

/-- The fleet is cleared first, and of three presets only the second one, which names a player,
finds a target. -/
theorem applyGroup_sum_mixedGroup :
    let f := (Fleet.new .standard).run openRun
    let outcome := (f.applyGroup mixedGroup veiledRoster).value
    RigId.Fresh f.ids (mixedGroup.map (·.1)) ∧
      outcome.2 = [.error (.noValidTarget (.ofRandom 1 0 0)), .ok (.ofRandom 2 0 0),
        .error (.noValidTarget (.ofRandom 3 0 0))] ∧
      outcome.1.ids = [.ofRandom 2 0 0] ∧
      ∃ added, outcome.1.pending = f.pending ++ added ∧
        added.filter (·.isEnd) = [⟨⟨"cam"⟩, .destroyed .shutdown⟩] := by
  dsimp only
  have hids : ((Fleet.new .standard).run openRun).ids = [⟨"cam"⟩] := by decide +kernel
  have hfresh : RigId.Fresh ((Fleet.new .standard).run openRun).ids (mixedGroup.map (·.1)) := by
    rw [hids]
    refine ⟨?_, by decide +kernel, by decide +kernel⟩
    intro id hid
    simp only [mixedGroup, List.map_cons, List.map_nil, List.mem_cons, List.not_mem_nil,
      or_false] at hid
    rcases hid with rfl | rfl | rfl <;> exact ⟨_, _, _, rfl⟩
  have hclears : ((Fleet.new .standard).run openRun).config.clearOnPreset = true := by
    rw [run_config]
    rfl
  obtain ⟨hresults, hids', added, houtcome, hends, -⟩ :=
    applyGroup_sum .standard openRun mixedGroup veiledRoster hfresh
  have hgroup := hresults ⟨"alone"⟩ (by decide)
  have hresult : (mixedGroup.map fun preset =>
      ((((Fleet.new .standard).run openRun).alone ⟨"alone"⟩ preset.2 veiledRoster).map
        fun _ => preset.1).mapError (·.about preset.1)) =
      [.error (.noValidTarget (.ofRandom 1 0 0)), .ok (.ofRandom 2 0 0),
        .error (.noValidTarget (.ofRandom 3 0 0))] := by
    decide +kernel
  rw [hresult] at hgroup
  -- from here on the fleets must not be computed any more
  generalize (Fleet.new .standard).run openRun = f at *
  generalize (f.applyGroup mixedGroup veiledRoster).value = outcome at *
  refine ⟨hfresh, hgroup, ?_, added, ?_, ?_⟩
  · rw [hids', hclears, hgroup]
    rfl
  · rw [houtcome]
  · rw [hends hclears, hids]
    rfl

end Fleet

end Skycam

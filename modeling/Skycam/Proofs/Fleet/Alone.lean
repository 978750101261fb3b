import Mathlib.Data.List.Induction
import Skycam.Proofs.Fleet.Run

/-!
# Rigs do not interfere

Rigs share a configuration, a display and the queue of events, and an update goes over all of them;
yet nothing that is asked of one rig, and nothing that happens to it, can be noticed by another. To
see this, everything that is not about the rigs of one name is left out: from a fleet
(`Fleet.only`), from its chronicle, and from the operations of a run (`Operation.concerning`). The
two agree after each operation, hence after every run (`Chronicle.run_only`).
-/

namespace Skycam

namespace Operation

/-- The names that were made up for the rigs which the operation creates. -/
def madeUp : Operation → List RigId
  | applyGroup presets => presets.map (·.1)
  | _ => []

/-- What the operation is to the rigs of a name: nothing if it names another rig. A group of presets
creates rigs of other names, but it may shut all rigs down before. -/
def concerning (config : Config) (id : RigId) : Operation → Option Operation
  | applyGroup _ => if config.clearOnPreset then some shutdownAll else none
  | op => if op.addressee?.all (· == id) then some op else none

/-- What a run is to the rigs of a name. -/
def runConcerning (config : Config) (id : RigId) (ops : List (Operation × Roster Float32)) :
    List (Operation × Roster Float32) :=
  ops.filterMap fun (op, roster) => (op.concerning config id).map fun op => (op, roster)

variable {config : Config} {id other : RigId} {op : Operation}

/-- An operation that names one rig concerns that rig and no other. -/
theorem concerning_of_addressee (h : op.addressee? = some other) :
    op.concerning config id = if other = id then some op else none := by
  cases op
  case applyGroup | shutdownAll | setUiVisible | setDisplay | update => cases h
  all_goals
    obtain rfl := Option.some.inj h
    simp [concerning, addressee?]

/-- What is recorded of no operation on one rig is recorded of none that concerns another rig. -/
theorem elim_concerning_nil {α : Type} {record : Operation → List α}
    (h : op.addressee? = some other) (hsilent : record op = []) :
    (op.concerning config id).elim [] record = [] := by
  rw [concerning_of_addressee h]
  split
  · exact hsilent
  · rfl

theorem runConcerning_singleton (op : Operation) (roster : Roster Float32) :
    runConcerning config id [(op, roster)] =
      ((op.concerning config id).map fun op => (op, roster)).toList := by
  unfold runConcerning
  cases hconcerning : op.concerning config id <;> simp [hconcerning]

end Operation

namespace Fleet

/-- The fleet without all that is about rigs of another name. -/
def only (f : Fleet) (id : RigId) : Fleet :=
  { f with
    rigs := f.rigs.filter (·.id = id)
    pending := f.pending.filter (·.rig = id)
    frames := f.frames.filter (·.rig = id)
    events := f.events.filter (·.rig = id) }

variable {f : Fleet} {id other : RigId} {roster : Roster Float32}

@[simp] theorem rig?_only : (f.only id).rig? id = f.rig? id := by
  simp [rig?, only, List.find?_filter, beq_eq_decide]

@[simp] theorem frame?_only : (f.only id).frame? id = f.frame? id := by
  simp [frame?, only, List.find?_filter, beq_eq_decide]

@[simp] theorem contains_only : (f.only id).contains id = f.contains id := by
  simp [contains]

/-! ## Events -/

theorem filter_deliveries_self {r : Rig} (h : r.id = id) :
    r.deliveries.filter (·.rig = id) = r.deliveries := by
  simp [Rig.deliveries, h]

theorem filter_deliveries_of_ne {r : Rig} (h : r.id ≠ id) :
    r.deliveries.filter (·.rig = id) = [] := by
  simp [Rig.deliveries, h]

/-- Of the events of some rigs, those under one name are the events of the rigs of that name. -/
theorem filter_flatMap_deliveries {change : Rig → Rig} (hchange : ∀ r, (change r).id = r.id)
    (rigs : List Rig) :
    (rigs.flatMap fun r => (change r).deliveries).filter (·.rig = id) =
      (rigs.filter (·.id = id)).flatMap fun r => (change r).deliveries := by
  induction rigs with
  | nil => rfl
  | cons r rest ih =>
    rw [List.flatMap_cons, List.filter_append, ih]
    by_cases hid : r.id = id
    · have hall := filter_deliveries_self ((hchange r).trans hid)
      simp [hall, hid]
    · have hnone : (change r).deliveries.filter (·.rig = id) = [] :=
        filter_deliveries_of_ne (by rwa [hchange r])
      simp [hnone, hid]

theorem filter_map_rigs {change : Rig → Rig} (hchange : ∀ r, (change r).id = r.id)
    (rigs : List Rig) :
    (rigs.map change).filter (·.id = id) = (rigs.filter (·.id = id)).map change := by
  simp [List.filter_map, Function.comp_def, hchange]

/-! ## Requests to one rig -/

/-- A rig takes the place of the one before whether the others are there or not. -/
theorem replace_only (r : Rig) : (f.replace r).only id = (f.only id).replace r := by
  have hchange : ∀ other : Rig, (if other.id = r.id then r else other).id = other.id := by
    intro other
    split
    · next hsame => exact hsame.symm
    · rfl
  unfold replace only
  dsimp only
  rw [filter_map_rigs hchange]

/-- In a fleet without it, a rig takes no place. -/
theorem replace_only_of_ne {r : Rig} (h : r.id ≠ id) : (f.only id).replace r = f.only id := by
  have hothers : ∀ mine ∈ f.rigs.filter (·.id = id),
      (if mine.id = r.id then r else mine) = mine := by
    intro mine hmine
    have hid : mine.id = id := by simpa using (List.mem_filter.mp hmine).2
    rw [if_neg (by rw [hid]; exact h.symm)]
  unfold replace only
  dsimp only
  rw [List.map_congr_left hothers, List.map_id']

/-- A change of the rig itself is the same without the others. -/
theorem edited?_only (change : Rig → Option Rig) :
    (f.only id).edited? id change = (f.edited? id change).map (·.only id) := by
  unfold edited?
  rw [rig?_only, Option.map_map]
  congr 1
  funext r
  exact (replace_only r).symm

/-- A change of another rig is no change to the fleet without the others. -/
theorem edited?_only_of_ne {change : Rig → Option Rig} {next : Fleet} (h : other ≠ id)
    (hchange : ∀ r r', change r = some r' → r'.id = r.id)
    (hnext : f.edited? other change = some next) : next.only id = f.only id := by
  obtain ⟨r', hr', rfl⟩ := Option.map_eq_some_iff.mp hnext
  obtain ⟨r, hr, hr'⟩ := Option.bind_eq_some_iff.mp hr'
  have hid : r'.id = other := (hchange r r' hr').trans (rig?_eq_some hr).2
  rw [replace_only, replace_only_of_ne (by rwa [hid])]

theorem add_only {rig : Rig} (h : rig.id = id) : (f.add rig).only id = (f.only id).add rig := by
  simp [add, only, h]

theorem add_only_of_ne {rig : Rig} (h : rig.id ≠ id) : (f.add rig).only id = f.only id := by
  simp [add, only, h]

theorem made?_only (spawn : Except FleetError Spawn) :
    (f.only id).made? id spawn roster = f.made? id spawn roster := by
  unfold made?
  rw [contains_only]
  rfl

variable {next : Option Fleet} {outcome : Fleet × Answer}

theorem Outcome.only {alone : Fleet × Answer} (h : f.Outcome next outcome)
    (halone : (f.only id).Outcome (next.map (·.only id)) alone) :
    alone.1 = outcome.1.only id := by
  rw [h.fleet, halone.fleet]
  cases next <;> rfl

/-- If the next fleet differs in the other rigs only, the request changes nothing for this one,
whether it is refused or not. -/
theorem Outcome.only_of_others (h : f.Outcome next outcome)
    (hnext : ∀ f', next = some f' → f'.only id = f.only id) : outcome.1.only id = f.only id := by
  rw [h.fleet]
  cases next with
  | none => rfl
  | some f' => exact hnext f' rfl

/-! ## Closing and shutting down -/

/-- Closing the rig is the same without the others. -/
theorem close_only : ((f.only id).close id).value.1 = (f.close id).value.1.only id := by
  unfold close
  rw [rig?_only]
  cases hr : f.rig? id with
  | none => rfl
  | some r =>
    have hall : (r.ended .closed).deliveries.filter (·.rig = id) = (r.ended .closed).deliveries :=
      filter_deliveries_self (rig?_eq_some hr).2
    simp [only, without, Rig.destroy, hall]

/-- Closing another rig is nothing to this one. -/
theorem close_only_of_ne (h : other ≠ id) :
    (f.close other).value.1.only id = f.only id := by
  unfold close
  cases hr : f.rig? other with
  | none => rfl
  | some r =>
    have hid : r.id = other := (rig?_eq_some hr).2
    have hnone : (r.ended .closed).deliveries.filter (·.rig = id) = [] :=
      filter_deliveries_of_ne (hid.trans_ne h)
    have hrigs : (f.rigs.filter (·.id ≠ other)).filter (·.id = id) = f.rigs.filter (·.id = id) := by
      rw [List.filter_filter]
      refine List.filter_congr fun r _ => ?_
      by_cases hmine : r.id = id <;> simp [hmine, h.symm]
    simp only [only, without, Rig.destroy, Logged.value_bind, Logged.value_pure,
      List.filter_append, hnone, hrigs, List.append_nil]

/-- Of a shutdown of all rigs this one sees its own. -/
theorem shutdownAll_only : (f.only id).shutdownAll.value = f.shutdownAll.value.only id := by
  have hvalue : ∀ f : Fleet, f.shutdownAll.value =
      { f with
        rigs := []
        pending := f.pending ++ f.rigs.flatMap fun r => (r.ended .shutdown).deliveries } := by
    intro f
    simp [shutdownAll, List.flatMap_map, Rig.destroy]
  rw [hvalue, hvalue]
  have hended : ∀ r : Rig, (r.ended .shutdown).id = r.id := fun _ => rfl
  unfold only
  dsimp only
  rw [List.filter_append, filter_flatMap_deliveries hended]
  rfl

theorem setUiVisible_only (visible : Bool) :
    ((f.only id).setUiVisible visible).1 = (f.setUiVisible visible).1.only id := by
  have hchange : ∀ r : Rig, (r.setUiVisible visible).1.id = r.id := by
    intro r
    unfold Rig.setUiVisible
    split <;> rfl
  have hrigs : ∀ rigs : List Rig, ((rigs.map (·.setUiVisible visible)).map (·.1)) =
      rigs.map fun r => (r.setUiVisible visible).1 := fun _ => List.map_map
  unfold setUiVisible only
  dsimp only
  rw [hrigs, hrigs, filter_map_rigs hchange]

/-- A group of presets whose names are all other ones adds nothing under this name. -/
theorem createEach_only (presets : List (RigId × Preset)) (fresh : id ∉ presets.map (·.1)) :
    (f.createEach roster presets).value.1.only id = f.only id := by
  have hstep : ∀ (next : Fleet) (preset : RigId × Preset) (rig : Rig), preset ∈ presets →
      next.made? preset.1 (.ok (.preset preset.2)) roster = some rig →
        next.only id = f.only id → (next.add rig).only id = f.only id := by
    intro next preset rig hpreset hmade h
    have hid : rig.id ≠ id := by
      rw [id_eq_of_made? hmade]
      rintro rfl
      exact fresh (List.mem_map_of_mem hpreset)
    rw [add_only_of_ne hid, h]
  exact createEach_keeps presets hstep rfl

/-! ## A step of time -/

theorem expired_only (dt : Float32) :
    (f.only id).expired dt roster = (f.expired dt roster).filter (·.id = id) := by
  have haged : ∀ r : Rig, (r.aged f.config dt roster).delivered.id = r.id := fun _ => Rig.aged_id
  unfold expired
  rw [filter_map_rigs haged, List.filter_comm]
  rfl

/-- A step of time is the same to the rigs of a name whether or not there are others, some of which
may have waited in vain. -/
theorem update_only (dt : Float32) :
    ((f.only id).update dt roster).value = (f.update dt roster).value.only id := by
  have haged : ∀ r : Rig, (r.aged f.config dt roster).id = r.id := fun _ => Rig.aged_id
  have hdelivered : ∀ r : Rig, (r.aged f.config dt roster).delivered.id = r.id :=
    fun _ => Rig.aged_id
  have hended : ∀ r : Rig, (r.ended .recoveryTimeout).id = r.id := fun _ => rfl
  have hrigs : ((f.only id).update dt roster).value.rigs =
      (f.update dt roster).value.rigs.filter (·.id = id) := by
    rw [update_rigs, update_rigs, filter_map_rigs hdelivered, List.filter_comm]
    rfl
  have hframes : ((f.only id).update dt roster).value.frames =
      (f.update dt roster).value.frames.filter (·.rig = id) := by
    have hvalue : ∀ f : Fleet, (f.update dt roster).value.frames =
        (f.update dt roster).value.rigs.map (·.frame) := fun _ => rfl
    rw [hvalue, hvalue, hrigs, List.filter_map]
    rfl
  have hevents : ((f.only id).update dt roster).value.events =
      (f.update dt roster).value.events.filter (·.rig = id) := by
    rw [update_events, update_events, List.filter_append, List.filter_append,
      filter_flatMap_deliveries haged, filter_flatMap_deliveries hended, expired_only]
    rfl
  have hfields : ∀ f : Fleet, (f.update dt roster).value =
      ⟨f.config, (f.update dt roster).value.rigs, f.display, [],
        (f.update dt roster).value.frames, (f.update dt roster).value.events⟩ := fun _ => rfl
  rw [hfields, hrigs, hframes, hevents]
  rfl

/-! ## Every operation -/

section Perform

variable {op : Operation}

/-- The fleet after what the operation is to the rigs of a name. -/
def performConcerning (f : Fleet) (id : RigId) (op : Operation) (roster : Roster Float32) : Fleet :=
  (op.concerning f.config id).elim f fun op => (f.perform op roster).value.1

theorem performConcerning_of_self (h : op.addressee? = some id) :
    f.performConcerning id op roster = (f.perform op roster).value.1 := by
  unfold performConcerning
  rw [Operation.concerning_of_addressee h, if_pos rfl]
  rfl

theorem performConcerning_of_ne (h : op.addressee? = some other) (hne : other ≠ id) :
    f.performConcerning id op roster = f := by
  unfold performConcerning
  rw [Operation.concerning_of_addressee h, if_neg hne]
  rfl

/-- A request to an open rig does the same to this one without the others. -/
theorem perform_edit_only {change : Rig → Option Rig}
    (h : op.edit? f.config f.display roster = some (other, change)) :
    (f.only id).performConcerning id op roster = (f.perform op roster).value.1.only id := by
  have hnames : op.addressee? = some other := Operation.addressee?_of_edit? h
  have houtcome : f.Outcome (f.edited? other change) (f.perform op roster).value := perform_edit h
  by_cases hid : other = id
  · subst hid
    have halone : (f.only other).Outcome ((f.only other).edited? other change)
        ((f.only other).perform op roster).value := perform_edit h
    rw [edited?_only] at halone
    rw [performConcerning_of_self hnames]
    exact houtcome.only halone
  · have hchange : ∀ r r', change r = some r' → r'.id = r.id := by
      intro r r' hr'
      exact (Operation.edit?_moves h hr').id_eq
    rw [performConcerning_of_ne hnames hid]
    exact (houtcome.only_of_others fun f' => edited?_only_of_ne hid hchange).symm

/-- A request for a new rig does the same to this one without the others. -/
theorem perform_spawn_only {spawn : Except FleetError Spawn}
    (h : op.spawn? = some (other, spawn)) :
    (f.only id).performConcerning id op roster = (f.perform op roster).value.1.only id := by
  have hnames : op.addressee? = some other := Operation.addressee?_of_spawn? h
  have houtcome : f.Outcome ((f.made? other spawn roster).map f.add)
      (f.perform op roster).value := perform_spawn h
  by_cases hid : other = id
  · subst hid
    have halone : (f.only other).Outcome
        (((f.only other).made? other spawn roster).map (f.only other).add)
        ((f.only other).perform op roster).value := perform_spawn h
    rw [performConcerning_of_self hnames]
    refine houtcome.only ?_
    rw [made?_only] at halone
    cases hmade : f.made? other spawn roster with
    | none => rwa [hmade] at halone
    | some rig =>
      rw [hmade] at halone
      rwa [Option.map_some, Option.map_some, add_only (id_eq_of_made? hmade)]
  · rw [performConcerning_of_ne hnames hid]
    refine (houtcome.only_of_others fun f' hf' => ?_).symm
    obtain ⟨rig, hmade, rfl⟩ := Option.map_eq_some_iff.mp hf'
    exact add_only_of_ne (by rwa [id_eq_of_made? hmade])

/-- Of a group of presets that makes no rig of this name, only the clearing of the fleet is left. -/
theorem applyGroup_only (presets : List (RigId × Preset)) (fresh : id ∉ presets.map (·.1)) :
    (f.only id).performConcerning id (.applyGroup presets) roster =
      (f.applyGroup presets roster).value.1.only id := by
  have hconfig : (f.only id).config = f.config := rfl
  unfold performConcerning applyGroup Operation.concerning
  rw [hconfig]
  cases f.config.clearOnPreset with
  | true => exact shutdownAll_only.trans (createEach_only presets fresh).symm
  | false => exact (createEach_only presets fresh).symm

/-- The rigs of a name and all that is about them become what they would if there were no others. -/
theorem perform_only (fresh : id ∉ op.madeUp) :
    (f.only id).performConcerning id op roster = (f.perform op roster).value.1.only id := by
  cases op using Operation.byKind f.config f.display roster with
  | edit op other change hedit => exact perform_edit_only hedit
  | spawn op other start hspawn => exact perform_spawn_only hspawn
  | applyGroup presets => exact applyGroup_only presets fresh
  | close other =>
    by_cases hid : other = id
    · subst hid
      rw [performConcerning_of_self rfl]
      exact close_only
    · rw [performConcerning_of_ne rfl hid]
      exact (close_only_of_ne hid).symm
  | shutdownAll => exact shutdownAll_only
  | setUiVisible visible => exact setUiVisible_only visible
  | setDisplay display => rfl
  | update dt => exact update_only dt

/-- What an operation tells is told to the rigs of a name as far as it is about them. -/
theorem tells_only {config : Config} (f' : Fleet) :
    (op.concerning config id).elim [] (fun op => op.tells (f'.only id)) =
      (op.tells f').filter (·.rig = id) := by
  cases op using Operation.byKind config f'.display .empty with
  | edit op other change hedit =>
    have htells := (Operation.silent_of_edit? hedit).1
    rw [Operation.elim_concerning_nil (Operation.addressee?_of_edit? hedit) (htells _), htells]
    rfl
  | spawn op other start hspawn =>
    have htells := (Operation.silent_of_spawn? hspawn).1
    rw [Operation.elim_concerning_nil (Operation.addressee?_of_spawn? hspawn) (htells _), htells]
    rfl
  | applyGroup presets =>
    unfold Operation.concerning
    dsimp only
    split <;> rfl
  | close other => exact Operation.elim_concerning_nil rfl rfl
  | shutdownAll | setUiVisible | setDisplay | update => rfl

theorem ids_only : (f.only id).ids = f.ids.filter (· = id) := by
  unfold ids only
  rw [List.filter_map]
  rfl

theorem filter_endings (names : List RigId) (reason : DestroyReason) :
    (names.map fun name => (⟨name, reason⟩ : Ending)).filter (·.rig = id) =
      (names.filter (· = id)).map fun name => ⟨name, reason⟩ := by
  rw [List.filter_map]
  rfl

/-- The end that closing a rig brings about is recorded for that rig alone. -/
theorem ends_close_only (f' : Fleet) :
    ((Operation.close other).concerning f.config id).elim []
        (fun op => op.ends (f.only id) (f'.only id)) =
      ((Operation.close other).ends f f').filter (·.rig = id) := by
  have hends : ∀ f f' : Fleet, (Operation.close other).ends f f' =
      if f.contains other then [⟨other, .closed⟩] else [] := fun _ _ => rfl
  rw [Operation.concerning_of_addressee rfl]
  by_cases hid : other = id
  · subst hid
    rw [if_pos rfl, Option.elim_some, hends, hends, contains_only]
    cases f.contains other <;> simp
  · rw [if_neg hid, Option.elim_none, hends]
    cases f.contains other <;> simp [hid]

theorem ends_shutdownAll_only (f' : Fleet) :
    Operation.shutdownAll.ends (f.only id) (f'.only id) =
      (Operation.shutdownAll.ends f f').filter (·.rig = id) := by
  unfold Operation.ends
  rw [filter_endings, ids_only]

/-- Without the others an update ends the same rig for the same reason. -/
theorem ends_update_only (dt : Float32) (f' : Fleet) :
    (Operation.update dt).ends (f.only id) (f'.only id) =
      ((Operation.update dt).ends f f').filter (·.rig = id) := by
  have hmissing : ((f.only id).ids.filter (· ∉ (f'.only id).ids)) =
      (f.ids.filter (· ∉ f'.ids)).filter (· = id) := by
    rw [ids_only, ids_only, List.filter_filter, List.filter_filter]
    refine List.filter_congr fun name _ => ?_
    by_cases hid : name = id <;> simp [hid]
  unfold Operation.ends
  rw [filter_endings, hmissing]

/-- Of the rigs that an operation takes away, those of a name are the ones that it would take away
if there were no others. -/
theorem ends_only (f' : Fleet) :
    (op.concerning f.config id).elim [] (fun op => op.ends (f.only id) (f'.only id)) =
      (op.ends f f').filter (·.rig = id) := by
  cases op using Operation.byKind f.config f.display .empty with
  | edit op other change hedit =>
    have hends := (Operation.silent_of_edit? hedit).2
    rw [Operation.elim_concerning_nil (Operation.addressee?_of_edit? hedit) (hends _ _), hends]
    rfl
  | spawn op other start hspawn =>
    have hends := (Operation.silent_of_spawn? hspawn).2
    rw [Operation.elim_concerning_nil (Operation.addressee?_of_spawn? hspawn) (hends _ _), hends]
    rfl
  | applyGroup presets =>
    unfold Operation.concerning Operation.ends
    dsimp only
    cases f.config.clearOnPreset with
    | true => exact ends_shutdownAll_only f'
    | false => rfl
  | close other => exact ends_close_only f'
  | shutdownAll => exact ends_shutdownAll_only f'
  | update dt => exact ends_update_only dt f'
  | setUiVisible | setDisplay => rfl

end Perform

end Fleet

namespace Chronicle

/-- The chronicle without all that is about rigs of another name. -/
def only (c : Chronicle) (id : RigId) : Chronicle :=
  ⟨c.fleet.only id, c.told.filter (·.rig = id), c.endings.filter (·.rig = id)⟩

variable {c : Chronicle} {id : RigId} {op : Operation}

/-- In the chronicle, too, an operation leaves to the rigs of a name what it would if there were no
others. -/
theorem perform_only (fresh : id ∉ op.madeUp) (roster : Roster Float32) :
    (c.only id).run (Operation.runConcerning c.fleet.config id [(op, roster)]) =
      (c.perform op roster).only id := by
  have hfleet : (c.fleet.only id).performConcerning id op roster = _ := Fleet.perform_only fresh
  have htells : (op.concerning c.fleet.config id).elim [] _ = _ :=
    Fleet.tells_only (c.fleet.perform op roster).value.1
  have hends : (op.concerning c.fleet.config id).elim [] _ = _ :=
    Fleet.ends_only (c.fleet.perform op roster).value.1
  have hconfig : (c.fleet.only id).config = c.fleet.config := rfl
  unfold Fleet.performConcerning at hfleet
  rw [hconfig] at hfleet
  unfold Chronicle.perform only
  dsimp only
  rw [List.filter_append, List.filter_append, ← hfleet, ← htells, ← hends, ← hfleet]
  rw [Operation.runConcerning_singleton]
  cases op.concerning c.fleet.config id with
  | none => simp [run]
  | some kept => rfl

/-- After a run the chronicle of the rigs of a name is what is about them in the chronicle of all
rigs. -/
theorem run_only (config : Config) (ops : List (Operation × Roster Float32))
    (fresh : ∀ step ∈ ops, id ∉ step.1.madeUp) :
    (start config).run (Operation.runConcerning config id ops) =
      ((start config).run ops).only id := by
  induction ops using List.reverseRecOn with
  | nil => rfl
  | append_singleton ops step ih =>
    obtain ⟨op, roster⟩ := step
    have hbefore := ih fun step hstep => fresh step (List.mem_append_left _ hstep)
    have hlast : id ∉ op.madeUp := fresh (op, roster) (by simp)
    have hsplit : (start config).run (Operation.runConcerning config id (ops ++ [(op, roster)])) =
        ((start config).run (Operation.runConcerning config id ops)).run
          (Operation.runConcerning config id [(op, roster)]) := by
      unfold Operation.runConcerning run
      rw [List.filterMap_append, List.foldl_append]
    have hstep := perform_only (c := (start config).run ops) hlast roster
    rw [run_config] at hstep
    rw [hsplit, hbefore, hstep, run_concat]

/-- Rigs do not interfere. Let no rig of a name be created under a made-up name. At every moment of
a run there is a rig of that name, with the same state, the same frame and the same events told of
it, just as there would be if only that had been asked which concerns the rigs of that name. -/
theorem run_alone (config : Config) (id : RigId) (ops : List (Operation × Roster Float32))
    (fresh : ∀ step ∈ ops, id ∉ step.1.madeUp) (moment : Nat) :
    let full := (start config).run (ops.take moment)
    let alone := (start config).run (Operation.runConcerning config id (ops.take moment))
    Operation.runConcerning config id (ops.take moment) <+: Operation.runConcerning config id ops ∧
      alone.fleet.contains id = full.fleet.contains id ∧
      alone.fleet.rig? id = full.fleet.rig? id ∧
      alone.fleet.frame? id = full.fleet.frame? id ∧
      alone.fleet.events = full.fleet.events.filter (·.rig = id) ∧
      alone.told = full.told.filter (·.rig = id) := by
  intro full alone
  have hbegins : ops.take moment <+: ops := List.take_prefix moment ops
  have halone : alone = full.only id :=
    run_only config _ fun step hstep => fresh step (List.mem_of_mem_take hstep)
  refine ⟨hbegins.filterMap _, ?_⟩
  rw [halone]
  exact ⟨Fleet.contains_only, Fleet.rig?_only, Fleet.frame?_only, rfl, rfl⟩

/-- A run in which a rig is shut down for a group of presets and created anew, loses its target and
gets it back, while another rig is created by the group and waits in vain. -/
def crowdedRun : List (Operation × Roster Float32) :=
  [(.create ⟨"cam"⟩ .follow, .lone "racer"),
    (.applyGroup [(⟨"eye"⟩, ⟨.locked, "", .pixels, ⟨0, 0, 64, 64⟩⟩)], .lone "racer"),
    (.create ⟨"cam"⟩ .follow, .lone "racer"),
    (.update 0.5, .empty),
    (.setTarget ⟨"cam"⟩ "racer", .lone "racer"),
    (.update 60.0, .empty)]

/-- A group of presets ends the rig in between, which is then created anew, and a rig of the group
waits in vain. -/
theorem run_alone_crowdedRun :
    let full := (start .standard).run crowdedRun
    let alone := (start .standard).run
      [(.create ⟨"cam"⟩ .follow, .lone "racer"), (.shutdownAll, .lone "racer"),
        (.create ⟨"cam"⟩ .follow, .lone "racer"), (.update 0.5, .empty),
        (.setTarget ⟨"cam"⟩ "racer", .lone "racer"), (.update 60.0, .empty)]
    full.endings = [⟨⟨"cam"⟩, .shutdown⟩, ⟨⟨"eye"⟩, .recoveryTimeout⟩] ∧
      full.fleet.contains ⟨"cam"⟩ = true ∧
      alone.fleet.rig? ⟨"cam"⟩ = full.fleet.rig? ⟨"cam"⟩ ∧
      alone.fleet.frame? ⟨"cam"⟩ = full.fleet.frame? ⟨"cam"⟩ ∧
      alone.told = full.told.filter (·.rig = ⟨"cam"⟩) := by
  intro full alone
  have hfresh : ∀ step ∈ crowdedRun, (⟨"cam"⟩ : RigId) ∉ step.1.madeUp := by decide
  obtain ⟨-, -, hrig, hframe, -, htold⟩ := run_alone .standard ⟨"cam"⟩ crowdedRun hfresh 6
  have hendings : full.endings = [⟨⟨"cam"⟩, .shutdown⟩, ⟨⟨"eye"⟩, .recoveryTimeout⟩] := by
    decide +kernel
  have hopen : full.fleet.contains ⟨"cam"⟩ = true := by decide +kernel
  exact ⟨hendings, hopen, hrig, hframe, htold⟩

end Chronicle

end Skycam

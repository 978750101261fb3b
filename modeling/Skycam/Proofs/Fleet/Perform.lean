import Skycam.Proofs.Fleet.Ledger
import Skycam.Proofs.Fleet.Request
import Skycam.Proofs.Rig.Expiry

/-!
# Operations are steps

Every operation on a fleet whose rigs have different names is a sequence of steps
(`Fleet.perform_leads`): a request that is refused is none at all, one that names a rig moves that
rig alone, and an update moves all rigs, tells what waits to be told and lets the rigs expire that
have waited in vain. A chronicle follows a run of operations and keeps what the updates have told
and which rigs have ended.
-/

namespace Skycam

namespace Operation

/-- The events that an operation tells, which has led to the given fleet. -/
def tells : Operation → Fleet → List Event
  | .update _, after => after.events
  | _, _ => []

/-- The rigs that an operation takes away which leads from one fleet to another, with the reason:
a rig is closed, shut down together with all others, or missing after an update. -/
def ends (op : Operation) (before after : Fleet) : List Ending :=
  match op with
  | .close id => if before.contains id then [⟨id, .closed⟩] else []
  | .shutdownAll => before.ids.map fun id => ⟨id, .shutdown⟩
  | .applyGroup _ =>
    if before.config.clearOnPreset then before.ids.map fun id => ⟨id, .shutdown⟩ else []
  | .update _ =>
    (before.ids.filter (· ∉ after.ids)).map fun id => ⟨id, .recoveryTimeout⟩
  | _ => []

variable {config : Config} {display : DisplaySize} {roster : Roster Float32} {op : Operation}
  {id : RigId}

theorem silent_of_edit? {change : Rig → Option Rig}
    (h : op.edit? config display roster = some (id, change)) :
    (∀ f', op.tells f' = []) ∧ ∀ f f', op.ends f f' = [] := by
  cases op
  case update | close | shutdownAll | applyGroup => cases h
  all_goals exact ⟨fun _ => rfl, fun _ _ => rfl⟩

theorem silent_of_spawn? {start : Except FleetError Spawn} (h : op.spawn? = some (id, start)) :
    (∀ f', op.tells f' = []) ∧ ∀ f f', op.ends f f' = [] := by
  cases op
  case create | createOfText => exact ⟨fun _ => rfl, fun _ _ => rfl⟩
  all_goals cases h

end Operation

namespace Fleet

/-- The ledger of a fleet of which the given events were told and the given rigs are gone. -/
def ledger (f : Fleet) (told : List Event) (endings : List Ending) : Ledger :=
  ⟨f.config, f.rigs, f.pending, told, endings⟩

/-- A sequence of steps leads from one fleet to the other, in which nothing is told and no rig
ends. -/
def Requested (f f' : Fleet) : Prop :=
  ∀ told endings, Ledger.Steps (f.ledger told endings) (f'.ledger told endings)

variable {f f' f'' : Fleet} {id : RigId} {r r' : Rig} {roster : Roster Float32} {dt : Float32}

theorem Requested.refl (f : Fleet) : f.Requested f := fun _ _ => .refl

theorem Requested.trans (h : f.Requested f') (h' : f'.Requested f'') : f.Requested f'' :=
  fun told endings => Relation.ReflTransGen.trans (h told endings) (h' told endings)

/-- Rigs that have moved, with all else as before, are a single step. -/
theorem Requested.of_moves {rigs : List Rig}
    (h : List.Forall₂ (Rig.Moves f.config) f.rigs rigs) : f.Requested { f with rigs } :=
  fun _ _ => .single (.move _ rigs h)

/-! ## Requests to one rig -/

theorem rig?_eq_some (h : f.rig? id = some r) : r ∈ f.rigs ∧ r.id = id := by
  refine ⟨List.mem_of_find?_eq_some h, ?_⟩
  simpa using List.find?_some h

/-- Where names are different, each rig is found under its own. -/
theorem rig?_id_of_mem (hn : f.ids.Nodup) (hr : r ∈ f.rigs) : f.rig? r.id = some r := by
  unfold rig?
  cases hfind : f.rigs.find? (·.id == r.id) with
  | none => simpa using List.find?_eq_none.mp hfind r hr
  | some found =>
    obtain ⟨hmem, hid⟩ := rig?_eq_some hfind
    rw [List.inj_on_of_nodup_map hn hmem hr hid]

theorem contains_iff : f.contains id = true ↔ id ∈ f.ids := by
  simp [contains, rig?, ids]

/-- A rig takes the place of the one it came from by its moves. -/
theorem replace_requested (hn : f.ids.Nodup) (hr : f.rig? id = some r)
    (hmoves : Rig.Moves f.config r r') : f.Requested (f.replace r') := by
  obtain ⟨hmem, -⟩ := rig?_eq_some hr
  apply Requested.of_moves
  rw [List.forall₂_map_right_iff, List.forall₂_same]
  intro other hother
  split
  · next hsame =>
    have heq : other = r := List.inj_on_of_nodup_map hn hother hmem (hsame.trans hmoves.id_eq)
    rw [heq]
    exact hmoves
  · exact .refl

/-- A request that is done by steps, if it is done, is done or refused by steps. -/
theorem Outcome.requested {next : Option Fleet} {outcome : Fleet × Answer}
    (h : f.Outcome next outcome) (hnext : ∀ f', next = some f' → f.Requested f') :
    f.Requested outcome.1 := by
  rw [h.fleet]
  cases next with
  | none => exact .refl f
  | some f' => exact hnext f' rfl

/-- A change that is made of moves, to the rig of a name, leads on by steps. -/
theorem edited?_requested (hn : f.ids.Nodup) {change : Rig → Option Rig}
    (hchange : ∀ r r', change r = some r' → Rig.Moves f.config r r')
    (h : f.edited? id change = some f') : f.Requested f' := by
  obtain ⟨r', hr', rfl⟩ := Option.map_eq_some_iff.mp h
  obtain ⟨r, hr, hr'⟩ := Option.bind_eq_some_iff.mp hr'
  exact replace_requested hn hr (hchange r r' hr')

theorem setUiVisible_requested (visible : Bool) : f.Requested (f.setUiVisible visible).1 := by
  have hmoves : List.Forall₂ (Rig.Moves f.config) f.rigs
      ((f.rigs.map (·.setUiVisible visible)).map (·.1)) := by
    rw [List.map_map, List.forall₂_map_right_iff, List.forall₂_same]
    exact fun r _ => .single (.showWindow r visible)
  exact .of_moves hmoves

/-! ## New rigs -/

theorem add_requested {start : Except FleetError Spawn} {rig : Rig}
    (h : f.made? id start roster = some rig) : f.Requested (f.add rig) := by
  obtain ⟨hnotBlank, hnew, cinematic, hmoves⟩ := moves_of_made? h
  have hid : id ∉ f.ids := fun hmem => by simp [contains_iff.mpr hmem] at hnew
  exact fun told endings =>
    .single (.spawn (f.ledger told endings) id cinematic rig hnotBlank hid hmoves)

theorem createEach_requested (presets : List (RigId × Preset)) :
    f.Requested (f.createEach roster presets).value.1 :=
  createEach_keeps presets (fun _ _ _ _ hmade h => h.trans (add_requested hmade)) (.refl f)

/-! ## Closing and shutting down -/

/-- Closing a rig, if there is one of that name, is one end in the ledger. -/
theorem close_steps (told : List Event) (endings : List Ending) :
    Ledger.Steps (f.ledger told endings)
      ((f.close id).value.1.ledger told
        (endings ++ if f.contains id then [⟨id, .closed⟩] else [])) := by
  unfold close contains
  cases hr : f.rig? id with
  | none =>
    have hnone : Ledger.Steps (f.ledger told endings) (f.ledger told endings) := .refl
    simpa using hnone
  | some r =>
    obtain ⟨hmem, rfl⟩ := rig?_eq_some hr
    have hstep := Ledger.Step.close (f.ledger told endings) r .closed hmem (by decide)
    have hrigs : (f.ledger told endings).rigsBut [r.id] = (f.without r.id).rigs := by
      simp [Ledger.rigsBut, ledger, without]
    unfold Ledger.close at hstep
    rw [hrigs] at hstep
    exact .single hstep

/-- A shutdown is the end of each rig in turn, in the order of their creation. -/
theorem shutdownAll_steps (hn : f.ids.Nodup) (told : List Event) (endings : List Ending) :
    Ledger.Steps (f.ledger told endings)
      (f.shutdownAll.value.ledger told (endings ++ f.ids.map fun id => ⟨id, .shutdown⟩)) := by
  have hopen : ∀ r ∈ f.rigs, r ∈ (f.ledger told endings).rigs := fun _ hr => hr
  have honDemand : DestroyReason.shutdown ≠ .recoveryTimeout := by decide
  have hsteps := Ledger.steps_close honDemand hopen hn
  have hrigs : (f.ledger told endings).rigsBut (f.rigs.map (·.id)) = [] := by
    refine List.filter_eq_nil_iff.mpr fun r hr => ?_
    simpa using ⟨r, hr, rfl⟩
  rw [hrigs] at hsteps
  simpa [shutdownAll, ledger, ids, List.flatMap_map, Rig.destroy, Function.comp_def] using hsteps

/-- A group of presets is a shutdown, if the configuration asks for it, and then the beginnings. -/
theorem applyGroup_steps (hn : f.ids.Nodup) (presets : List (RigId × Preset)) (told : List Event)
    (endings : List Ending) :
    Ledger.Steps (f.ledger told endings)
      ((f.applyGroup presets roster).value.1.ledger told (endings ++
        if f.config.clearOnPreset then f.ids.map fun id => ⟨id, .shutdown⟩ else [])) := by
  unfold applyGroup
  split
  · exact (shutdownAll_steps hn told endings).trans (createEach_requested presets told _)
  · simpa using createEach_requested presets told endings

/-! ## A step of time -/

/-- Where names are different, the name of a rig is left just if the rig is. -/
theorem id_mem_filter_iff {rigs : List Rig} (hn : (rigs.map (·.id)).Nodup) (hr : r ∈ rigs)
    (p : Rig → Bool) : r.id ∈ (rigs.filter p).map (·.id) ↔ p r = true := by
  constructor
  · intro hmem
    obtain ⟨other, hother, hid⟩ := List.mem_map.mp hmem
    obtain ⟨hin, hp⟩ := List.mem_filter.mp hother
    rwa [List.inj_on_of_nodup_map hn hin hr hid] at hp
  · intro hp
    exact List.mem_map_of_mem (List.mem_filter.mpr ⟨hr, hp⟩)

/-- An update leaves the rigs that a step of time does not end, without their events. -/
theorem update_rigs : (f.update dt roster).value.rigs =
    (f.rigs.filter fun r => !r.expires f.config dt roster).map fun r =>
      (r.aged f.config dt roster).delivered := by
  have hstays : ∀ r : Rig, ((r.tick f.config dt roster).value.2.isNone) =
      !r.expires f.config dt roster := by
    intro r
    rw [Rig.tick_value]
    cases r.expires f.config dt roster <;> rfl
  simp [update, List.filter_map, Function.comp_def, hstays, Rig.aged]

/-- The rigs that a step of time ends, as they are when their other events are delivered. -/
def expired (f : Fleet) (dt : Float32) (roster : Roster Float32) : List Rig :=
  (f.rigs.filter (·.expires f.config dt roster)).map fun r =>
    (r.aged f.config dt roster).delivered

/-- An update tells what waited of closed rigs, then what each rig has to tell, then the ends. -/
theorem update_events : (f.update dt roster).value.events =
    f.pending ++ (f.rigs.flatMap fun r => (r.aged f.config dt roster).deliveries) ++
      (f.expired dt roster).flatMap fun r => (r.ended .recoveryTimeout).deliveries := by
  have hdoomed : ∀ rigs : List Rig,
      (rigs.filterMap fun r =>
          (if r.expires f.config dt roster then some DestroyReason.recoveryTimeout else none).map
            fun reason => (r.aged f.config dt roster, reason)) =
        (rigs.filter (·.expires f.config dt roster)).map
          fun r => (r.aged f.config dt roster, .recoveryTimeout) := by
    intro rigs
    induction rigs with
    | nil => rfl
    | cons r rest ih =>
      cases hexpires : r.expires f.config dt roster <;> simpa [hexpires] using ih
  unfold update
  simp only [Logged.value_bind, Logged.value_each, Logged.value_pure, List.filterMap_map,
    Function.comp_def, Rig.tick_value, hdoomed]
  simp [expired, Rig.destroy, List.flatMap_map]

theorem update_ids : (f.update dt roster).value.ids =
    (f.rigs.filter fun r => !r.expires f.config dt roster).map (·.id) := by
  simp [ids, update_rigs, Rig.delivered]

theorem expired_ids : (f.expired dt roster).map (·.id) =
    (f.rigs.filter (·.expires f.config dt roster)).map (·.id) := by
  simp [expired, Rig.delivered]

theorem expired_ids_nodup (hn : f.ids.Nodup) : ((f.expired dt roster).map (·.id)).Nodup := by
  rw [expired_ids]
  exact hn.sublist (List.filter_sublist.map _)

/-- A rig is missing after a step of time just if that step was its last one. -/
theorem mem_update_ids_iff (hn : f.ids.Nodup) (dt : Float32) (roster : Roster Float32)
    (hr : r ∈ f.rigs) :
    r.id ∈ (f.update dt roster).value.ids ↔ r.expires f.config dt roster = false := by
  rw [update_ids, id_mem_filter_iff hn hr, Bool.not_eq_true']

/-- The names that are gone after an update are those of the rigs that it ends. -/
theorem ids_filter_update (hn : f.ids.Nodup) :
    f.ids.filter (· ∉ (f.update dt roster).value.ids) = (f.expired dt roster).map (·.id) := by
  have hids : f.ids = f.rigs.map (·.id) := rfl
  rw [expired_ids, hids, List.filter_map]
  congr 1
  refine List.filter_congr fun r hr => ?_
  have hmissing := mem_update_ids_iff hn dt roster hr
  cases hexpires : r.expires f.config dt roster <;> simp [hmissing, hexpires]

/-- An update is a move of all rigs, the end of those that have waited in vain, and a delivery. -/
theorem update_steps (hn : f.ids.Nodup) (told : List Event) (endings : List Ending) :
    Ledger.Steps (f.ledger told endings)
      ((f.update dt roster).value.ledger (told ++ (f.update dt roster).value.events)
        (endings ++ (f.ids.filter (· ∉ (f.update dt roster).value.ids)).map
          fun id => ⟨id, .recoveryTimeout⟩)) := by
  -- all rigs move, then all events are told, then the rigs expire that have waited in vain
  have hmoves : List.Forall₂ (Rig.Moves f.config) f.rigs
      (f.rigs.map (·.aged f.config dt roster)) := by
    rw [List.forall₂_map_right_iff, List.forall₂_same]
    exact fun r _ => Rig.aged_moves f.config dt roster r
  have hmove := Ledger.Step.move (f.ledger told endings) _ hmoves
  have hdeliver := Relation.ReflTransGen.tail (.single hmove) (.deliver _)
  have hopen : ∀ r ∈ f.expired dt roster,
      r ∈ (f.rigs.map (·.aged f.config dt roster)).map (·.delivered) := by
    intro r hr
    obtain ⟨before, hbefore, rfl⟩ := List.mem_map.mp hr
    rw [List.map_map]
    exact List.mem_map_of_mem (List.mem_filter.mp hbefore).1
  have hsteps := hdeliver.trans (Ledger.steps_expire rfl hopen (expired_ids_nodup hn))
  have hrigs : ((f.rigs.map (·.aged f.config dt roster)).map (·.delivered)).filter
      (·.id ∉ (f.expired dt roster).map (·.id)) = (f.update dt roster).value.rigs := by
    rw [update_rigs, List.map_map, List.filter_map]
    congr 1
    refine List.filter_congr fun r hr => ?_
    have hgone := id_mem_filter_iff hn hr (·.expires f.config dt roster)
    rw [← expired_ids] at hgone
    cases hexpires : r.expires f.config dt roster <;>
      simp only [Function.comp_apply, Rig.delivered, Rig.aged_id, hgone, hexpires] <;> rfl
  have hledger : (f.update dt roster).value.ledger (told ++ (f.update dt roster).value.events)
      (endings ++ (f.ids.filter (· ∉ (f.update dt roster).value.ids)).map
        fun id => ⟨id, .recoveryTimeout⟩) =
      ⟨f.config, (f.update dt roster).value.rigs, [],
        told ++ (f.update dt roster).value.events,
        endings ++ (f.expired dt roster).map fun r => ⟨r.id, .recoveryTimeout⟩⟩ := by
    rw [ids_filter_update hn, List.map_map]
    rfl
  rw [hledger, ← hrigs, update_events]
  simpa [Ledger.deliver, ledger, Ledger.rigsBut, List.flatMap_map] using hsteps

/-! ## Every operation -/

/-- The operation leads from one fleet to the other by steps, in which the events are told that it
tells and the rigs end that it takes away. -/
def Leads (f : Fleet) (op : Operation) (f' : Fleet) : Prop :=
  ∀ told endings, Ledger.Steps (f.ledger told endings)
    (f'.ledger (told ++ op.tells f') (endings ++ op.ends f f'))

/-- An operation that tells nothing only has to account for the ends. -/
theorem Leads.of_silent {op : Operation} (htells : op.tells f' = [])
    (h : ∀ told endings, Ledger.Steps (f.ledger told endings)
      (f'.ledger told (endings ++ op.ends f f'))) : f.Leads op f' := by
  intro told endings
  rw [htells, List.append_nil]
  exact h told endings

/-- An operation that tells nothing and ends nothing leads on by the steps of its request. -/
theorem Requested.leads {op : Operation} (h : f.Requested f') (htells : op.tells f' = [])
    (hends : op.ends f f' = []) : f.Leads op f' := by
  refine .of_silent htells fun told endings => ?_
  rw [hends, List.append_nil]
  exact h told endings

/-- Every operation leads on by steps, one kind of operation after the other. -/
theorem perform_leads (hn : f.ids.Nodup) (op : Operation) (roster : Roster Float32) :
    f.Leads op (f.perform op roster).value.1 := by
  cases op using Operation.byKind f.config f.display roster with
  | edit op id change hedit =>
    obtain ⟨htells, hends⟩ := Operation.silent_of_edit? hedit
    have hrequested : f.Requested (f.perform op roster).value.1 :=
      (perform_edit hedit).requested fun f' =>
        edited?_requested hn fun r r' => Operation.edit?_moves hedit
    exact hrequested.leads (htells _) (hends _ _)
  | spawn op id start hspawn =>
    obtain ⟨htells, hends⟩ := Operation.silent_of_spawn? hspawn
    have hrequested : f.Requested (f.perform op roster).value.1 := by
      refine (perform_spawn hspawn).requested fun f' hf' => ?_
      obtain ⟨rig, hmade, rfl⟩ := Option.map_eq_some_iff.mp hf'
      exact add_requested hmade
    exact hrequested.leads (htells _) (hends _ _)
  | applyGroup presets => exact .of_silent rfl (applyGroup_steps hn presets)
  | close id => exact .of_silent rfl close_steps
  | shutdownAll => exact .of_silent rfl (shutdownAll_steps hn)
  | setUiVisible visible => exact (setUiVisible_requested visible).leads rfl rfl
  | setDisplay display => exact Requested.leads (fun _ _ => .refl) rfl rfl
  | update dt => exact update_steps hn

end Fleet

end Skycam

import Skycam.Proofs.Fleet.Live
import Skycam.Proofs.Fleet.Origin
import Skycam.Proofs.Rig.Counters
import Skycam.Proofs.Script.Slices

/-!
# Which operations return

Here an operation is performed step by step with all that can stop it (`Fleet.perform?`): a
keyframe read at an index at which there is none, a line cut behind its end or within a character, a
full counter that is to be counted up, and a number that is to be cut to a range whose ends are not
in order. `none` stands for an operation that does not return. Only the last two ever happen
(`Fleet.run_returns`): the range of fields of view is taken from the configuration as it is, and one
long step of time can fill the counter of the looks for a lost target.
-/

namespace Skycam

namespace Rig

variable {config : Config} {r r' ready : Rig} {n : Nat} {dt : Float32} {roster : Roster Float32}

theorem InBounds.of_not_recovering (hlocated : r.playback.Located)
    (hnot : r.target.isRecovering = false) : r.InBounds n where
  located := hlocated
  ticks := fun username timer htarget => by simp [htarget, Target.isRecovering] at hnot

theorem InBounds.mono {m : Nat} (h : r.InBounds n) (hle : n ≤ m) : r.InBounds m where
  located := h.located
  ticks := fun username timer htarget => (h.ticks username timer htarget).trans hle

theorem InBounds.congr (h : r.InBounds n) (htarget : r'.target = r.target)
    (hplayback : r'.playback.Located) : r'.InBounds n where
  located := hplayback
  ticks := fun username timer ht => h.ticks username timer (htarget ▸ ht)

theorem new_inBounds (config : Config) (id : RigId) (cinematic : Bool) :
    (Rig.new config id cinematic).InBounds n :=
  .of_not_recovering (Playback.located_of_not_playing (by simp [Rig.new, Playback.new])) rfl

/-! ## A step of time -/

/-- A look for a lost target counts one step more at most. -/
theorem InBounds.polled (h : r.InBounds n) (hpolled : r.Polled config dt roster ready) :
    ready.InBounds (n + 1) := by
  have hlocated : ready.playback.Located := by
    rw [hpolled.playback]
    exact h.located
  cases hpolled with
  | ready notWaiting => exact h.mono (Nat.le_succ n)
  | waits username timer target =>
    refine ⟨hlocated, ?_⟩
    rintro _ _ ⟨⟩
    have hbefore : timer.ticks.toNat ≤ n := h.ticks username timer target
    exact RecoveryTimer.advance_ticks_le.trans (Nat.succ_le_succ hbefore)
  | found => exact .of_not_recovering hlocated rfl

theorem afterPlayback_playback (p : Progress Float32) :
    (r.afterPlayback config p).playback = p.playback := by
  have hclaimed : (r.claimed config p).playback = p.playback := by
    unfold claimed
    cases p.step.claimed with
    | none => rfl
    | some claim =>
      cases claim with
      | cinematic => rfl
      | follow mode => exact setFollowMode_playback config _ mode
  rw [afterPlayback_eq]
  split <;> exact hclaimed

theorem afterPlayback_target (p : Progress Float32) :
    (r.afterPlayback config p).target = r.target := by
  have hclaimed : (r.claimed config p).target = r.target := by
    unfold claimed
    cases p.step.claimed with
    | none => rfl
    | some claim =>
      cases claim with
      | cinematic => rfl
      | follow mode => exact setFollowMode_target config _ mode
  rw [afterPlayback_eq]
  split <;> exact hclaimed

/-- A step of playback ends at a keyframe that is there. -/
theorem InBounds.runPlayback (h : r.InBounds n) :
    (r.runPlayback config dt roster).value.InBounds n := by
  obtain ⟨-, hlocated⟩ := Playback.tick?_eq h.located dt r.body roster
  refine h.congr (afterPlayback_target _) ?_
  have hplayback : (r.runPlayback config dt roster).value.playback =
      (r.playback.tick dt r.body roster).value.playback := afterPlayback_playback _
  rw [hplayback]
  exact hlocated

/-- A rig that loses its target waits with a clock that has counted no step. -/
theorem InBounds.beginRecovery (h : r.InBounds n) (fault : FollowFault) :
    (r.beginRecovery config fault).value.InBounds n := by
  unfold Rig.beginRecovery
  split
  · exact h
  · refine ⟨h.located, ?_⟩
    rintro _ _ ⟨⟩
    exact Nat.zero_le n

/-- A follow mode counts no step. A target that it loses is waited for from the beginning. -/
theorem InBounds.runFollow (h : r.InBounds n) :
    (r.runFollow config dt roster).value.InBounds n := by
  have hsought : (r.seekTarget config roster).value.InBounds n := by
    rcases seekTarget_cases with hsame | ⟨-, e, -, handle, pose, -, hbound⟩
    · rw [hsame]
      exact h
    · rw [hbound]
      exact .of_not_recovering h.located rfl
  have hfollowed : ∀ r : Rig, r.InBounds n →
      (r.followTarget config dt roster).value.InBounds n := by
    intro r h
    rcases followTarget_cases with hsame | ⟨pose, -, hmoved⟩ | ⟨fault, hlost⟩
    · rw [hsame]
      exact h
    · rw [hmoved]
      exact { h with }
    · rw [hlost]
      exact h.beginRecovery fault
  unfold Rig.runFollow
  split
  · exact hfollowed _ hsought
  · exact h

/-- A step of time that does not end the rig counts one step more at most. -/
theorem InBounds.aged (h : r.InBounds n) (stays : r.expires config dt roster = false) :
    (r.aged config dt roster).InBounds (n + 1) := by
  obtain ⟨ready, hpolled, haged⟩ := aged_eq_of_stays stays
  rw [haged]
  exact (h.polled hpolled).runPlayback.runFollow

/-! ## Requests -/

/-- A request counts no step, and a script starts at a keyframe that is there. -/
theorem InBounds.edited {op : Operation} (h : r.InBounds n)
    (hedited : r.Edited config op roster r') : r'.InBounds n := by
  cases hedited with
  | unmoved r' unmoved =>
    refine h.congr unmoved.target ?_
    rw [unmoved.playback]
    exact h.located
  | bound => exact .of_not_recovering h.located rfl
  | entered uiVisible text requested =>
    refine h.congr rfl ?_
    unfold enterCinematic
    split <;> exact Playback.restart_located _
  | started text requested => exact h.congr rfl (Playback.restart_located _)
  | left | stopped =>
    exact h.congr rfl (Playback.located_of_not_playing (by
      simp [leaveCinematic, showFollow, stopScript, Playback.stop]))

/-- A rig that has just started out does not wait. -/
theorem Started.inBounds {id : RigId} (h : r.Started config id roster) : r.InBounds n := by
  have hbound : ∀ {mode : FollowMode} {bound : Rig},
      ((Rig.new config id false).setFollowMode config mode).Binds config roster bound →
        bound.InBounds n := by
    rintro mode bound ⟨e, -, handle, pose, -, rfl⟩
    refine .of_not_recovering ?_ rfl
    have hnew : (Rig.new config id false).InBounds n := new_inBounds config id false
    have hlocated := hnew.located
    rwa [← setFollowMode_playback config _ mode] at hlocated
  cases h with
  | cinematic => exact new_inBounds config id true
  | bound mode r binds => exact hbound binds
  | placed mode r rect binds =>
    have hplaced := setPlacement_unmoved r rect
    refine (hbound binds).congr hplaced.target ?_
    rw [hplaced.playback]
    exact (hbound binds).located

end Rig

namespace Fleet

/-- The fleet after a step of time that has left its rigs as given, each with the reason for which
it has to go. -/
def assembled (f : Fleet) (ticked : List (Rig × Option DestroyReason)) : Fleet :=
  let doomed := ticked.filterMap fun (rig, reason) => reason.map fun reason => (rig, reason)
  let gone := doomed.map fun (rig, reason) => (rig.delivered.destroy reason).value
  let rigs := (ticked.filter (·.2.isNone)).map (·.1.delivered)
  { f with
    rigs
    pending := []
    frames := rigs.map (·.frame)
    events := f.pending ++ ticked.flatMap (·.1.deliveries) ++ gone.flatMap (·.deliveries) }

/-- Lets a step of time go by for every rig. -/
def update? (f : Fleet) (dt : Float32) (roster : Roster Float32) : Option Fleet := do
  let ticked ← f.rigs.mapM fun rig => rig.tick? f.config dt roster
  return f.assembled ticked

/-- Gives a rig a field of view, cut to the configured range. -/
def setFov? (f : Fleet) (id : RigId) (fov : Float32) : Option (Except FleetError Fleet) :=
  match f.rig? id with
  | none => some (.error (.rigNotFound id))
  | some rig => do
    let cut ← f.config.fov.clamp? fov
    return .ok (f.replace { rig with body := rig.body.setFov cut })

/-- The script of a text that is not blank. -/
def scriptOf? (text : Option String) : Option (Option (Script Float32)) :=
  match text.filter fun text => !Text.isBlankText text with
  | some text => do
    let report ← Script.report? text
    return some report.script
  | none => some none

/-- Gives a rig to its script or to its follow mode. -/
def setCinematic? (f : Fleet) (id : RigId) (state uiVisible : Bool) (text : Option String) :
    Option (Except FleetError Fleet) :=
  match f.rig? id with
  | none => some (.error (.rigNotFound id))
  | some rig => do
    let script ← scriptOf? text
    let changed :=
      if state then rig.enterCinematic uiVisible script else rig.leaveCinematic uiVisible
    return .ok (f.replace changed)

/-- Starts a script on a rig and gives the problems of its text. -/
def runScript? (f : Fleet) (id : RigId) (text : String) :
    Option (Except FleetError (Fleet × List Script.Problem)) :=
  match f.rig? id with
  | none => some (.error (.rigNotFound id))
  | some rig => do
    let report ← Script.report? text
    return .ok (f.replace (rig.runScript report.script), report.problems)

/-- Performs an operation. The other operations have nothing in them that could stop them. -/
def perform? (f : Fleet) (op : Operation) (roster : Roster Float32) : Option (Fleet × Answer) :=
  match op with
  | .setFov id fov => f.settleDone <$> f.setFov? id fov
  | .setCinematic id state uiVisible text =>
    f.settleDone <$> f.setCinematic? id state uiVisible text
  | .runScript id text =>
    (fun result => f.settle result (·.1) (fun a => .problems a.2)) <$> f.runScript? id text
  | .update dt => (fun fleet => (fleet, .done)) <$> f.update? dt roster
  | op => some (f.perform op roster).value

/-- What stops an operation: an open rig is to be given a field of view, and the ends of the
configured range are not in order, or a step of time brings the last look for a lost target to a rig
whose counter of the looks is full. -/
def Stops (f : Fleet) (op : Operation) : Prop :=
  (∃ id fov, op = .setFov id fov ∧ f.contains id = true ∧ ¬f.config.fov.min ≤ f.config.fov.max) ∨
    ∃ dt, op = .update dt ∧ ∃ r ∈ f.rigs, r.LooksTooOften dt

variable {config : Config} {f : Fleet} {op : Operation} {r : Rig} {n : Nat} {dt : Float32}
  {roster : Roster Float32}

theorem mapM_eq_some_map {α β : Type} {get : α → Option β} {got : α → β} {items : List α}
    (h : ∀ a ∈ items, get a = some (got a)) : items.mapM get = some (items.map got) := by
  induction items with
  | nil => rfl
  | cons first rest ih =>
    have hrest := ih fun a ha => h a (List.mem_cons_of_mem _ ha)
    simp [h first List.mem_cons_self, hrest]

theorem mapM_eq_none {α β : Type} {get : α → Option β} {items : List α} {a : α}
    (ha : a ∈ items) (h : get a = none) : items.mapM get = none := by
  induction items with
  | nil => cases ha
  | cons first rest ih =>
    rcases List.mem_cons.mp ha with rfl | hrest
    · simp [h]
    · cases hfirst : get first <;> simp [hfirst, ih hrest]

theorem update_value : (f.update dt roster).value =
    f.assembled (f.rigs.map fun r => (r.tick f.config dt roster).value) :=
  rfl

/-- An update with every check made stops just if some rig looks for its target too often, and else
is the update. -/
theorem update?_eq (hrigs : ∀ r ∈ f.rigs, r.InBounds n) (hn : n + 1 < UInt32.size) :
    ((∃ r ∈ f.rigs, r.LooksTooOften dt) → f.update? dt roster = none) ∧
      (¬(∃ r ∈ f.rigs, r.LooksTooOften dt) →
        f.update? dt roster = some (f.update dt roster).value) := by
  constructor
  · rintro ⟨r, hr, htoo⟩
    have hstops : r.tick? f.config dt roster = none := (Rig.tick?_eq (hrigs r hr) hn).1 htoo
    have hticked : (f.rigs.mapM fun rig => rig.tick? f.config dt roster) = none :=
      mapM_eq_none hr hstops
    simp [update?, hticked]
  · intro hnone
    have hticks : ∀ r ∈ f.rigs, r.tick? f.config dt roster =
        some (r.tick f.config dt roster).value :=
      fun r hr => (Rig.tick?_eq (hrigs r hr) hn).2 fun htoo => hnone ⟨r, hr, htoo⟩
    simp [update?, mapM_eq_some_map hticks, update_value]

/-- A field of view cannot be cut to a range whose ends are not in order. This stops the request
just if the rig is there. -/
theorem setFov?_eq (id : RigId) (fov : Float32) :
    (f.contains id = true ∧ ¬f.config.fov.min ≤ f.config.fov.max → f.setFov? id fov = none) ∧
      (¬(f.contains id = true ∧ ¬f.config.fov.min ≤ f.config.fov.max) →
        f.setFov? id fov = some (f.setFov id fov)) := by
  unfold setFov? setFov contains
  cases f.rig? id with
  | none => simp
  | some rig =>
    by_cases hrange : f.config.fov.min ≤ f.config.fov.max <;> simp [FovTuning.clamp?, hrange]

theorem scriptOf?_eq (text : Option String) : scriptOf? text = some (scriptOf text).value := by
  unfold scriptOf? scriptOf
  cases text.filter fun text => !Text.isBlankText text with
  | none => rfl
  | some text => simp [Script.report?_eq, Script.read]

theorem setCinematic?_eq (id : RigId) (state uiVisible : Bool) (text : Option String) :
    f.setCinematic? id state uiVisible text =
      some (f.setCinematic id state uiVisible text).value := by
  unfold setCinematic? setCinematic
  cases f.rig? id with
  | none => rfl
  | some rig => simp [scriptOf?_eq]

theorem runScript?_eq (id : RigId) (text : String) :
    f.runScript? id text = some (f.runScript id text).value := by
  unfold runScript? runScript
  cases f.rig? id with
  | none => rfl
  | some rig => simp [Script.report?_eq, Script.read]

/-- An operation with every check made stops just where it is said to, and else does what it does
without checks. -/
theorem perform?_eq (hrigs : ∀ r ∈ f.rigs, r.InBounds n) (hn : n + 1 < UInt32.size)
    (op : Operation) :
    (f.Stops op → f.perform? op roster = none) ∧
      (¬f.Stops op → f.perform? op roster = some (f.perform op roster).value) := by
  cases op
  case setFov id fov =>
    obtain ⟨hnone, hsome⟩ : (_ → f.setFov? id fov = none) ∧ _ := setFov?_eq id fov
    constructor
    · rintro (⟨_, _, ⟨⟩, hrange⟩ | ⟨_, ⟨⟩, -⟩)
      simp [perform?, hnone hrange]
    · intro hstops
      have hreturns := hsome fun hrange => hstops (.inl ⟨id, fov, rfl, hrange⟩)
      simp [perform?, perform, hreturns]
  case update dt =>
    obtain ⟨hnone, hsome⟩ : (_ → f.update? dt roster = none) ∧ _ := update?_eq hrigs hn
    constructor
    · rintro (⟨_, _, ⟨⟩, -⟩ | ⟨_, ⟨⟩, htoo⟩)
      simp [perform?, hnone htoo]
    · intro hstops
      have hreturns := hsome fun htoo => hstops (.inr ⟨dt, rfl, htoo⟩)
      simp [perform?, perform, hreturns]
  case setCinematic id state uiVisible text =>
    refine ⟨fun hstops => ?_, fun _ => ?_⟩
    · rcases hstops with ⟨_, _, ⟨⟩, -⟩ | ⟨_, ⟨⟩, -⟩
    · simp [perform?, perform, setCinematic?_eq]
  case runScript id text =>
    refine ⟨fun hstops => ?_, fun _ => ?_⟩
    · rcases hstops with ⟨_, _, ⟨⟩, -⟩ | ⟨_, ⟨⟩, -⟩
    · simp [perform?, perform, runScript?_eq]
  all_goals
    refine ⟨fun hstops => ?_, fun _ => rfl⟩
    rcases hstops with ⟨_, _, ⟨⟩, -⟩ | ⟨_, ⟨⟩, -⟩

/-- However a rig came into the next fleet, it has counted one step more at most. -/
theorem Origin.inBounds (h : f.Origin op roster r) (hrigs : ∀ r ∈ f.rigs, r.InBounds n) :
    r.InBounds (n + 1) := by
  cases h with
  | edited before after isOpen edited =>
    exact ((hrigs before isOpen).edited edited).mono (Nat.le_succ n)
  | made id r started => exact started.inBounds
  | aged dt r updates isOpen stays => exact { (hrigs r isOpen).aged stays with }

/-- By induction on the run, no rig has counted more steps than there were operations. -/
theorem run_inBounds (config : Config) (ops : List (Operation × Roster Float32)) :
    ∀ r ∈ ((Fleet.new config).run ops).rigs, r.InBounds ops.length := by
  refine run_rigs_induction config (fun ops r => r.InBounds ops.length) ?_ ops
  intro ops op roster r hrigs horigin
  rw [List.length_append]
  exact horigin.inBounds hrigs

/-- After every run of operations, if there are less than `2 ^ 32` of them with the next one, the
next one returns just if nothing stops it, with any arguments and any roster, and does then what it
is to do. -/
theorem run_returns (config : Config) (ops : List (Operation × Roster Float32)) (op : Operation)
    (roster : Roster Float32) (short : ops.length + 1 < UInt32.size) :
    let f := (Fleet.new config).run ops
    (f.perform? op roster = none ↔ f.Stops op) ∧
      (¬f.Stops op → f.perform? op roster = some (f.perform op roster).value) := by
  intro f
  obtain ⟨hnone, hsome⟩ : (f.Stops op → f.perform? op roster = none) ∧ _ :=
    perform?_eq (run_inBounds config ops) short op
  refine ⟨⟨fun hstopped => ?_, hnone⟩, hsome⟩
  by_contra hstops
  rw [hsome hstops] at hstopped
  cases hstopped

/-- A request to a rig in the middle of a keyframe. -/
theorem run_returns_keyframeRun :
    keyframeRun.length + 1 < UInt32.size ∧
      ((Fleet.new .standard).run keyframeRun).perform? (.setFov ⟨"cam"⟩ 45.0) .empty =
        some (((Fleet.new .standard).run keyframeRun).perform (.setFov ⟨"cam"⟩ 45.0)
          .empty).value := by
  have short : keyframeRun.length + 1 < UInt32.size := by decide
  refine ⟨short, (run_returns .standard keyframeRun _ _ short).2 ?_⟩
  rintro (⟨_, _, -, -, hrange⟩ | ⟨_, ⟨⟩, -⟩)
  rw [run_config] at hrange
  exact hrange (by decide)

/-- The ends of the range of fields of view can be read in the wrong order, and then no rig can be
given a field of view. With a timeout that is long enough, a step of time can fill the counter of
the looks for a lost target, and then the last look does not return. -/
theorem run_stops :
    (∃ config, Config.ofText? "\x7b\"fov\":\x7b\"min\":50,\"max\":40\x7d\x7d" = some config ∧
      ((Fleet.new config).run [(.create ⟨"cam"⟩ .follow, .lone "racer")]).perform?
        (.setFov ⟨"cam"⟩ 45.0) .empty = none) ∧
    ∃ config, Config.ofText? "\x7b\"recovery\":\x7b\"timeout\":1e30\x7d\x7d" = some config ∧
      ((Fleet.new config).run (lostRun "racer" ++ [(.update 1e12, .empty)])).perform?
        (.update 1e30) .empty = none := by
  have hrange : (Config.ofText? "\x7b\"fov\":\x7b\"min\":50,\"max\":40\x7d\x7d").map (fun config =>
      (((Fleet.new config).run [(.create ⟨"cam"⟩ .follow, .lone "racer")]).perform?
        (.setFov ⟨"cam"⟩ 45.0) .empty).isNone) = some true := by decide +kernel
  have hlooks : (Config.ofText? "\x7b\"recovery\":\x7b\"timeout\":1e30\x7d\x7d").map (fun config =>
      (((Fleet.new config).run (lostRun "racer" ++ [(.update 1e12, .empty)])).perform?
        (.update 1e30) .empty).isNone) = some true := by decide +kernel
  obtain ⟨config, hconfig, hstops⟩ := Option.map_eq_some_iff.mp hrange
  obtain ⟨config', hconfig', hstops'⟩ := Option.map_eq_some_iff.mp hlooks
  exact ⟨⟨config, hconfig, Option.isNone_iff_eq_none.mp hstops⟩,
    config', hconfig', Option.isNone_iff_eq_none.mp hstops'⟩

end Fleet

end Skycam

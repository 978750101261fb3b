import Skycam.Proofs.Fleet.Origin
import Skycam.Proofs.Fleet.Still

/-!
# The poses of rigs that play no script

As long as no script is started, the pose of a rig is written by two: by the follow mode, which
writes only what is finite and else loses the target, and by binding. What binding writes is not
looked at again, so a pose that is not finite is one that binding has computed from the finite pose
of a target (`Fleet.run_poses`).
-/

namespace Skycam

/-- The script that an operation starts. -/
def Operation.script? : Operation → Option (Script Float32)
  | .setCinematic _ true _ text => (Fleet.scriptOf text).value
  | .runScript _ text => some (Script.read text).value.script
  | _ => none

/-- The pose is the one that a rig takes when it binds to some player of the roster. -/
def Roster.GivesPose (tuning : FollowTuning) (roster : Roster Float32) (pose : Pose Float32) :
    Prop :=
  ∃ e ∈ roster.entries, ∃ handle target, roster.bindable? e = some (handle, target) ∧
    pose = tuning.bindPose target

/-- A roster with one player, a remote one of the given name whose body has the given pose. -/
def Roster.loneAt (username : String) (pose : Pose Float32) : Roster Float32 :=
  ⟨[⟨username, false, some ⟨1⟩⟩], [(⟨⟨1⟩, .body⟩, pose)]⟩

theorem Roster.givesPose_of_sighted {tuning : FollowTuning} {roster : Roster Float32}
    {name : String} {e : Entry} {handle : Handle} {target : Pose Float32}
    (h : roster.sighted? name = some (e, handle, target)) :
    roster.GivesPose tuning (tuning.bindPose target) := by
  obtain ⟨hfind, hbindable⟩ := sighted?_eq_some_iff.mp h
  exact ⟨e, List.mem_of_find?_eq_some hfind, handle, target, hbindable, rfl⟩

theorem Pose.identity_isFinite : (Pose.identity : Pose Float32).isFinite = true := by decide

namespace Rig

/-- The rig has no script to play, and its pose is finite or as allowed. -/
structure Grounded (P : Pose Float32 → Prop) (r : Rig) : Prop where
  /-- The script is empty. -/
  noScript : r.playback.script.isEmpty = true
  /-- No keyframe is being played. -/
  notPlaying : r.playback.status ≠ .playing
  /-- The pose is finite or as allowed. -/
  pose : r.body.pose.isFinite = true ∨ P r.body.pose

variable {config : Config} {P Q : Pose Float32 → Prop} {r bound ready : Rig} {dt : Float32}
  {roster : Roster Float32}

theorem Grounded.mono (h : r.Grounded P) (himp : ∀ pose, P pose → Q pose) : r.Grounded Q :=
  { h with pose := h.pose.imp_right (himp _) }

theorem new_grounded (config : Config) (id : RigId) (cinematic : Bool) :
    (Rig.new config id cinematic).Grounded P where
  noScript := rfl
  notPlaying := by simp [Rig.new, Playback.new]
  pose := .inl Pose.identity_isFinite

theorem Grounded.binds (h : r.Grounded P) (hbinds : r.Binds config roster bound)
    (hgives : ∀ pose, roster.GivesPose config.tuning pose → P pose) : bound.Grounded P := by
  obtain ⟨e, he, handle, target, hbindable, rfl⟩ := hbinds
  exact ⟨h.noScript, h.notPlaying, .inr (hgives _ ⟨e, he, handle, target, hbindable, rfl⟩)⟩

/-- What does not move the rig leaves its pose as allowed. -/
theorem Grounded.unmoved {r' : Rig} (h : r.Grounded P) (hsame : r.Unmoved r') :
    r'.Grounded P where
  noScript := by
    rw [hsame.playback]
    exact h.noScript
  notPlaying := by
    rw [hsame.playback]
    exact h.notPlaying
  pose := by
    rw [hsame.pose]
    exact h.pose

/-- Only an empty script is started, so nothing is played. -/
theorem Grounded.start (h : r.Grounded P) (script : Script Float32)
    (hempty : script.isEmpty = true) :
    Grounded P { r with playback := r.playback.start script } where
  noScript := hempty
  notPlaying := by simp [Playback.start, Playback.restart, hempty]
  pose := h.pose

theorem Grounded.restart (h : r.Grounded P) :
    Grounded P { r with playback := r.playback.restart } where
  noScript := h.noScript
  notPlaying := by simp [Playback.restart, h.noScript]
  pose := h.pose

theorem Grounded.stop (h : r.Grounded P) : Grounded P { r with playback := r.playback.stop } where
  noScript := h.noScript
  notPlaying := by simp [Playback.stop]
  pose := h.pose

/-! ## A step of time -/

/-- A look for a lost target leaves the rig where it is or puts it at a pose that the roster
gives. -/
theorem Grounded.polled (h : r.Grounded P) (hpolled : r.Polled config dt roster ready)
    (hgives : ∀ pose, roster.GivesPose config.tuning pose → P pose) : ready.Grounded P := by
  cases hpolled with
  | ready notWaiting => exact h
  | waits username timer target => exact { h with }
  | found username timer e handle pose target isDue sighted =>
    exact ⟨h.noScript, h.notPlaying, .inr (hgives _ (Roster.givesPose_of_sighted sighted))⟩

/-- A rig that loses its target keeps its pose and its script, and its cameras are off. -/
theorem beginRecovery_of_bound {username : String} {handle : Handle} {isLocal : Bool}
    (h : r.target = .bound username handle isLocal) (fault : FollowFault) :
    (r.beginRecovery config fault).value.target.isRecovering = true ∧
      (r.beginRecovery config fault).value.body = r.body.setEnabled false := by
  unfold beginRecovery
  simp [targetName?, h, Target.username?, Target.isRecovering, emit]

theorem Grounded.beginRecovery (h : r.Grounded P) (fault : FollowFault) :
    (r.beginRecovery config fault).value.Grounded P := by
  unfold Rig.beginRecovery
  split
  · exact h
  · exact { h with }

/-- A follow mode moves the rig to a finite pose or not at all, or binds it to a new target
first. -/
theorem Grounded.runFollow (h : r.Grounded P)
    (hgives : ∀ pose, roster.GivesPose config.tuning pose → P pose) :
    (r.runFollow config dt roster).value.Grounded P := by
  have hsought : (r.seekTarget config roster).value.Grounded P := by
    rcases seekTarget_cases with hsame | ⟨-, hbinds⟩
    · rw [hsame]
      exact h
    · exact h.binds hbinds hgives
  have hfollowed : ∀ r : Rig, r.Grounded P →
      (r.followTarget config dt roster).value.Grounded P := by
    intro r h
    rcases followTarget_cases with hsame | ⟨pose, hfinite, hmoved⟩ | ⟨fault, hlost⟩
    · rw [hsame]
      exact h
    · rw [hmoved]
      exact ⟨h.noScript, h.notPlaying, .inl hfinite⟩
    · rw [hlost]
      exact h.beginRecovery fault
  unfold Rig.runFollow
  split
  · exact hfollowed _ hsought
  · exact h

/-- A step of time that does not end the rig leaves it grounded, since it has nothing to play. -/
theorem Grounded.aged (h : r.Grounded P) (stays : r.expires config dt roster = false)
    (hgives : ∀ pose, roster.GivesPose config.tuning pose → P pose) :
    (r.aged config dt roster).Grounded P := by
  obtain ⟨ready, hpolled, haged⟩ := aged_eq_of_stays stays
  have hready : ready.Grounded P := h.polled hpolled hgives
  rw [haged, runPlayback_value_of_not_playing hready.notPlaying]
  exact hready.runFollow hgives

/-! ## Requests -/

/-- A request leaves the rig grounded if it brings no script with keyframes. -/
theorem Grounded.edited {op : Operation} {r' : Rig} (h : r.Grounded P)
    (hedited : r.Edited config op roster r')
    (hscript : ∀ script, op.script? = some script → script.isEmpty = true)
    (hgives : ∀ pose, roster.GivesPose config.tuning pose → P pose) : r'.Grounded P := by
  cases hedited with
  | unmoved r' unmoved => exact h.unmoved unmoved
  | bound username e handle pose requested sighted =>
    exact ⟨h.noScript, h.notPlaying, .inr (hgives _ (Roster.givesPose_of_sighted sighted))⟩
  | entered uiVisible text requested =>
    rw [requested] at hscript
    cases hread : (Fleet.scriptOf text).value with
    | none => exact { h.restart with }
    | some script => exact { h.start script (hscript script hread) with }
  | left uiVisible => exact { h.stop with }
  | started text requested =>
    rw [requested] at hscript
    exact h.start _ (hscript _ rfl)
  | stopped => exact h.stop

/-- A rig starts out at the origin or behind a player. -/
theorem Started.grounded {id : RigId} (h : r.Started config id roster)
    (hgives : ∀ pose, roster.GivesPose config.tuning pose → P pose) : r.Grounded P := by
  have hbound : ∀ {mode : FollowMode} {bound : Rig},
      ((Rig.new config id false).setFollowMode config mode).Binds config roster bound →
        bound.Grounded P :=
    fun hbinds => ((new_grounded config id false).unmoved
      (setFollowMode_unmoved config _ _)).binds hbinds hgives
  cases h with
  | cinematic => exact new_grounded config id true
  | bound mode r binds => exact hbound binds
  | placed mode r rect binds => exact (hbound binds).unmoved (setPlacement_unmoved r rect)

/-- A rig that plays nothing and whose follow mode gives no finite pose loses its target and stays
where it is. -/
theorem Grounded.aged_of_fault (h : r.Grounded P) (follows : r.control = .follow)
    {username : String} {handle : Handle} {isLocal : Bool}
    (isBound : r.target = .bound username handle isLocal)
    (noPose : ∀ target, roster.pose? handle = some target → target.isFinite = false ∨
      (config.tuning.nextPose r.mode target r.body.pose dt).isFinite = false) :
    r.expires config dt roster = false ∧
      (r.aged config dt roster).target.isRecovering = true ∧
      (r.aged config dt roster).body = r.body.setEnabled false := by
  have hnot : r.target.isRecovering = false := by simp [isBound, Target.isRecovering]
  obtain ⟨hstays, haged⟩ := aged_eq_of_not_recovering hnot config dt roster
  obtain ⟨fault, hfault⟩ : ∃ fault, config.tuning.follow r.mode username (roster.pose? handle)
      r.body.pose dt = .error fault := by
    cases hnext : config.tuning.follow r.mode username (roster.pose? handle) r.body.pose dt with
    | error fault => exact ⟨fault, rfl⟩
    | ok pose =>
      obtain ⟨target, htarget, hfinite, rfl, hnextFinite⟩ := FollowTuning.follow_eq_ok_iff.mp hnext
      rcases noPose target htarget with hbad | hbad
      · simp [hfinite] at hbad
      · simp [hnextFinite] at hbad
  have hfollow : (r.runFollow config dt roster).value = (r.beginRecovery config fault).value := by
    simp [Rig.runFollow, follows, seekTarget, isBound, followTarget, hfault]
  rw [runPlayback_value_of_not_playing h.notPlaying, hfollow] at haged
  rw [haged]
  exact ⟨hstays, beginRecovery_of_bound isBound fault⟩

end Rig

namespace Fleet

variable {config : Config} {f : Fleet} {op : Operation} {r : Rig} {roster : Roster Float32}

/-- However a rig came into the next fleet, it is grounded if all were before. -/
theorem Origin.grounded {P : Pose Float32 → Prop} (h : f.Origin op roster r)
    (hrigs : ∀ r ∈ f.rigs, r.Grounded P)
    (hscript : ∀ script, op.script? = some script → script.isEmpty = true)
    (hgives : ∀ pose, roster.GivesPose f.config.tuning pose → P pose) : r.Grounded P := by
  cases h with
  | edited before after isOpen edited => exact (hrigs before isOpen).edited edited hscript hgives
  | made id r started => exact started.grounded hgives
  | aged dt r updates isOpen stays => exact { (hrigs r isOpen).aged stays hgives with }

/-- By induction on the run, each rig is grounded, with the poses that some roster of the run
gave. -/
theorem run_grounded (config : Config) (ops : List (Operation × Roster Float32))
    (noScript : ∀ step ∈ ops, ∀ script, step.1.script? = some script → script.isEmpty = true) :
    ∀ r ∈ ((Fleet.new config).run ops).rigs,
      r.Grounded fun pose => ∃ step ∈ ops, step.2.GivesPose config.tuning pose := by
  let Kept : List (Operation × Roster Float32) → Rig → Prop := fun ops r =>
    (∀ step ∈ ops, ∀ script, step.1.script? = some script → script.isEmpty = true) →
      r.Grounded fun pose => ∃ step ∈ ops, step.2.GivesPose config.tuning pose
  have hkept : ∀ r ∈ ((Fleet.new config).run ops).rigs, Kept ops r := by
    refine run_rigs_induction config Kept (fun ops op roster r hrigs horigin hscripts => ?_) ops
    have hlast : (op, roster) ∈ ops ++ [(op, roster)] := by simp
    have hbefore : ∀ step ∈ ops, step ∈ ops ++ [(op, roster)] := fun _ => List.mem_append_left _
    refine horigin.grounded (fun r hr => ?_) (hscripts _ hlast) fun pose hgives => ?_
    · refine (hrigs r hr fun step hstep => hscripts step (hbefore step hstep)).mono ?_
      rintro pose ⟨step, hstep, hgives⟩
      exact ⟨step, hbefore step hstep, hgives⟩
    · rw [run_config] at hgives
      exact ⟨(op, roster), hlast, hgives⟩
  exact fun r hr => hkept r hr noScript

/-- After every run that starts no script but empty ones, each frame of an update has a finite pose
or one that a rig was given when it was bound, computed from the finite pose of its target. A rig
that follows a player stays where it is and loses its target if the pose of the target or the pose
that the follow mode gives is missing or not finite. No rig is bound to a player whose pose is not
finite. -/
theorem run_poses (config : Config) (ops : List (Operation × Roster Float32)) (dt : Float32)
    (roster : Roster Float32)
    (noScript : ∀ step ∈ ops, ∀ script, step.1.script? = some script → script.isEmpty = true) :
    let f := (Fleet.new config).run ops
    (∀ frame ∈ (f.update dt roster).value.frames,
      (frame.position.isFinite = true ∧ frame.rotation.isFinite = true) ∨
        ∃ step ∈ ops ++ [(.update dt, roster)],
          step.2.GivesPose config.tuning ⟨frame.position, frame.rotation⟩) ∧
    (∀ r ∈ f.rigs, r.control = .follow → ∀ username handle isLocal,
      r.target = .bound username handle isLocal →
      (∀ target, roster.pose? handle = some target → target.isFinite = false ∨
        (config.tuning.nextPose r.mode target r.body.pose dt).isFinite = false) →
      ∃ r', (f.update dt roster).value.rig? r.id = some r' ∧ r'.target.isRecovering = true ∧
        r'.body = r.body.setEnabled false) ∧
    ∀ r ∈ f.rigs, ∀ username e handle, roster.find? username = some e →
      e.followHandle? = some handle →
      (∀ target, roster.pose? handle = some target → target.isFinite = false) →
      (f.perform (.setTarget r.id username) roster).value =
        (f, .refused (.noValidTarget r.id)) := by
  intro f
  have hn : f.ids.Nodup := run_nodup config ops
  have hconfig : f.config = config := run_config config ops
  have hgrounded := run_grounded config ops noScript
  refine ⟨fun frame hframe => ?_, fun r hr follows username handle isLocal isBound noPose => ?_,
    fun r hr username e handle hfind hhandle noPose => ?_⟩
  · -- the update is one more operation of the run, and starts no script
    have hrun := run_grounded config (ops ++ [(.update dt, roster)]) (by
      intro step hstep
      rcases List.mem_append.mp hstep with hbefore | hlast
      · exact noScript step hbefore
      · rw [List.mem_singleton.mp hlast]
        rintro script ⟨⟩)
    obtain ⟨r, hr, rfl⟩ := List.mem_map.mp hframe
    rw [run_concat] at hrun
    refine (hrun r hr).pose.imp_left fun hfinite => ?_
    exact Bool.and_eq_true_iff.mp hfinite
  · obtain ⟨hstays, hrecovering, hbody⟩ :=
      (hgrounded r hr).aged_of_fault follows isBound noPose
    rw [← hconfig] at hstays
    refine ⟨_, update_rig? hn hr hstays, ?_, ?_⟩
    · rw [hconfig]
      exact hrecovering
    · rw [hconfig]
      exact hbody
  · have hrig : f.rig? r.id = some r := rig?_id_of_mem hn hr
    have hbind : (r.bind? f.config e roster).value = none := by
      rw [Rig.bind?_value, Option.map_eq_none_iff, Roster.bindable?_eq_none_iff]
      exact .inr ⟨handle, hhandle, noPose⟩
    simp [perform, setTarget, hrig, hfind, hbind, settleDone, settle]

/-- A run after which a rig follows a player. -/
def followRun : List (Operation × Roster Float32) := [(.create ⟨"cam"⟩ .follow, .lone "racer")]

/-- A pose whose first coordinate is no number. -/
def nowhere : Pose Float32 := ⟨⟨0.0 / 0.0, 0.0, 0.0⟩, Quat.identity⟩

/-- A target whose pose is no number is lost and not followed there, and no rig can be bound to
it. -/
theorem run_poses_followRun :
    ∃ r, ((Fleet.new .standard).run followRun).rigs = [r] ∧ r.control = .follow ∧
      (∃ r', (((Fleet.new .standard).run followRun).update 0.5
          (.loneAt "racer" nowhere)).value.rig? r.id = some r' ∧
        r'.target.isRecovering = true ∧ r'.body = r.body.setEnabled false) ∧
      (((Fleet.new .standard).run followRun).perform (.setTarget r.id "racer")
        (.loneAt "racer" nowhere)).value.2 = .refused (.noValidTarget r.id) := by
  have hstates : ((Fleet.new .standard).run followRun).rigs.map (fun r => (r.control, r.target)) =
      [(.follow, .bound "racer" ⟨⟨1⟩, .body⟩ false)] := by decide +kernel
  have noScript : ∀ step ∈ followRun, ∀ script, step.1.script? = some script →
      script.isEmpty = true := by
    simp [followRun, Operation.script?]
  have hnowhere : nowhere.isFinite = false := by decide +kernel
  have hfind : (Roster.loneAt "racer" nowhere).find? "racer" =
      some ⟨"racer", false, some ⟨1⟩⟩ := by decide +kernel
  have hposes := run_poses .standard followRun 0.5 (.loneAt "racer" nowhere) noScript
  -- from here on the fleet must not be computed any more
  generalize (Fleet.new .standard).run followRun = f at hstates hposes ⊢
  obtain ⟨r, hr, hstate⟩ := List.map_eq_singleton_iff.mp hstates
  obtain ⟨hcontrol, htarget⟩ := Prod.mk.inj hstate
  have hmem : r ∈ f.rigs := by simp [hr]
  have noPose : ∀ target, (Roster.loneAt "racer" nowhere).pose? ⟨⟨1⟩, .body⟩ = some target →
      target.isFinite = false := by
    rintro target ⟨⟩
    exact hnowhere
  obtain ⟨-, hlost, hrefused⟩ := hposes
  refine ⟨r, hr, hcontrol, ?_, ?_⟩
  · exact hlost r hmem hcontrol _ _ _ htarget fun target ht => .inl (noPose target ht)
  · rw [hrefused r hmem "racer" _ _ hfind rfl noPose]

/-- A rig that is bound to a player whose pose is finite can get a pose that is not, which the next
frame shows. -/
theorem run_shows_infinite_pose :
    ∃ target frame, target.isFinite = true ∧
      (((Fleet.new .standard).run [(.create ⟨"cam"⟩ .follow, .loneAt "racer" target)]).update 0.5
        (.loneAt "racer" target)).value.frames = [frame] ∧ frame.position.isFinite = false := by
  let target : Pose Float32 := ⟨Vec3.zero, ⟨0.0, 1e20, 0.0, 0.0⟩⟩
  have hframes : (((Fleet.new .standard).run
      [(.create ⟨"cam"⟩ .follow, .loneAt "racer" target)]).update 0.5
        (.loneAt "racer" target)).value.frames.map (·.position.isFinite) = [false] := by
    decide +kernel
  obtain ⟨frame, hframe, hposition⟩ := List.map_eq_singleton_iff.mp hframes
  exact ⟨target, frame, by decide +kernel, hframe, hposition⟩

end Fleet

end Skycam

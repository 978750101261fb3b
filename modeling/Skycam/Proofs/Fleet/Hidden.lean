import Skycam.Proofs.Fleet.Origin
import Skycam.Proofs.Fleet.Still

/-!
# What a cinematic rig shows of a target

A rig that is given to its script shows neither the name of a target nor its readings. Only binding
does not ask who moves the rig: one that is bound to a remote player while its script moves it shows
the readings of that player, be it bound by a request or by the look for a lost target. There is no
other way (`Fleet.run_hides`).
-/

namespace Skycam

namespace Rig

/-- A cinematic rig does not show the name of a target. It shows readings only of a remote player to
whom it is bound, and only under the given condition. -/
structure Conceals (P : Prop) (r : Rig) : Prop where
  /-- The name is hidden. -/
  nameLabel : r.control = .cinematic → r.overlay.nameLabel = false
  /-- The readings are hidden, but for those of a remote player. -/
  telemetry : r.control = .cinematic → r.overlay.telemetry = true →
    P ∧ ∃ username handle, r.target = .bound username handle false

variable {config : Config} {P Q : Prop} {r bound : Rig} {dt : Float32} {roster : Roster Float32}

theorem Conceals.mono (h : r.Conceals P) (himp : P → Q) : r.Conceals Q where
  nameLabel := h.nameLabel
  telemetry := fun hcontrol hshown =>
    have hold := h.telemetry hcontrol hshown
    ⟨himp hold.1, hold.2⟩

/-- A rig that a follow mode moves has nothing to hide. -/
theorem Conceals.of_follow (h : r.control = .follow) : r.Conceals P where
  nameLabel := by simp [h]
  telemetry := by simp [h]

theorem Conceals.of_hidden (hname : r.overlay.nameLabel = false)
    (htelemetry : r.overlay.telemetry = false) : r.Conceals P where
  nameLabel := fun _ => hname
  telemetry := by simp [htelemetry]

theorem new_conceals (id : RigId) (cinematic : Bool) :
    (Rig.new config id cinematic).Conceals P := by
  cases cinematic
  · exact .of_follow rfl
  · exact .of_hidden rfl rfl

/-- A rig that is bound shows the readings of a remote player, whoever moves it. -/
theorem Conceals.attached (h : r.Conceals P) (username : String) (handle : Handle) (isLocal : Bool)
    (pose : Pose Float32) (hbinds : r.control = .cinematic → isLocal = false → P) :
    (r.attached config username handle isLocal pose).Conceals P where
  nameLabel := h.nameLabel
  telemetry := fun hcontrol hshown => by
    cases isLocal with
    | true => cases hshown
    | false => exact ⟨hbinds hcontrol rfl, username, handle, rfl⟩

/-- What is shown of a target does not depend on the placement, the window or the follow mode. -/
theorem Conceals.unmoved {r' : Rig} (h : r.Conceals P) (hsame : r.Unmoved r') :
    r'.Conceals P where
  nameLabel := by
    rw [hsame.control, hsame.nameLabel]
    exact h.nameLabel
  telemetry := by
    rw [hsame.control, hsame.telemetry, hsame.target]
    exact h.telemetry

/-! ## A step of time -/

/-- A look for a lost target shows something on a cinematic rig only by binding it to a remote
player. -/
theorem Conceals.polled {ready : Rig} (h : r.Conceals P)
    (hpolled : r.Polled config dt roster ready)
    (hbinds : ∀ username timer e handle pose, r.target = .recovering username timer →
      (timer.advance dt).1 ≠ .wait → roster.sighted? username = some (e, handle, pose) →
      r.control = .cinematic → e.isLocal = false → P) : ready.Conceals P := by
  have hwaited : ∀ username timer, r.target = .recovering username timer →
      (r.waited username timer dt).Conceals P := by
    refine fun username timer htarget => ⟨h.nameLabel, fun hcontrol hshown => ?_⟩
    obtain ⟨-, name, handle, hbound⟩ := h.telemetry hcontrol hshown
    rw [htarget] at hbound
    cases hbound
  cases hpolled with
  | ready notWaiting => exact h
  | waits username timer target => exact hwaited username timer target
  | found username timer e handle pose target isDue sighted =>
    have hbound : ((r.waited username timer dt).attached config e.username handle e.isLocal
        pose).Conceals P :=
      (hwaited username timer target).attached _ _ _ _
        (hbinds username timer e handle pose target isDue sighted)
    exact { hbound with }

/-- Whoever the script calls upon, the rig then shows what belongs to a target only while a follow
mode moves it. -/
theorem obey_conceals (claim : Claim) : (r.obey config claim).Conceals P := by
  cases claim with
  | cinematic => exact .of_hidden rfl rfl
  | follow mode => exact .of_follow (setFollowMode_control config _ mode)

/-- A keyframe that becomes current hides what belongs to the target when it gives the rig to the
script. -/
theorem Conceals.afterPlayback (h : r.Conceals P) (p : Progress Float32) :
    (r.afterPlayback config p).Conceals P := by
  have hclaimed : (r.claimed config p).Conceals P := by
    unfold claimed
    cases p.step.claimed with
    | none => exact { h with }
    | some claim => exact obey_conceals claim
  rw [afterPlayback_eq]
  split
  · exact { hclaimed with }
  · exact hclaimed

theorem beginRecovery_control (fault : FollowFault) :
    (r.beginRecovery config fault).value.control = r.control := by
  unfold beginRecovery
  split <;> rfl

theorem runFollow_control : (r.runFollow config dt roster).value.control = r.control := by
  have hseek : (r.seekTarget config roster).value.control = r.control := by
    rcases seekTarget_cases with hsame | ⟨-, e, -, handle, pose, -, hbound⟩
    · rw [hsame]
    · rw [hbound]
      rfl
  have hfollow : ∀ r : Rig, (r.followTarget config dt roster).value.control = r.control := by
    intro r
    rcases followTarget_cases with hsame | ⟨pose, -, hmoved⟩ | ⟨fault, hlost⟩
    · rw [hsame]
    · rw [hmoved]
    · rw [hlost, beginRecovery_control]
  unfold runFollow
  split
  · exact (hfollow _).trans hseek
  · rfl

/-- A follow mode moves a rig that is not cinematic, so it conceals nothing less. -/
theorem Conceals.runFollow (h : r.Conceals P) :
    (r.runFollow config dt roster).value.Conceals P := by
  cases hcontrol : r.control with
  | follow => exact .of_follow (runFollow_control.trans hcontrol)
  | cinematic =>
    rw [runFollow_value_of_cinematic hcontrol]
    exact h

/-- A step of time shows something on a cinematic rig only by binding it to a remote player. -/
theorem Conceals.aged (h : r.Conceals P) (stays : r.expires config dt roster = false)
    (hbinds : ∀ username timer e handle pose, r.target = .recovering username timer →
      (timer.advance dt).1 ≠ .wait → roster.sighted? username = some (e, handle, pose) →
      r.control = .cinematic → e.isLocal = false → P) : (r.aged config dt roster).Conceals P := by
  obtain ⟨ready, hpolled, haged⟩ := aged_eq_of_stays stays
  rw [haged]
  have hready : ready.Conceals P := h.polled hpolled hbinds
  exact (hready.afterPlayback _).runFollow

/-! ## Requests -/

/-- A request shows something on a cinematic rig only by binding it to a remote player. -/
theorem Conceals.edited {op : Operation} {r' : Rig} (h : r.Conceals P)
    (hedited : r.Edited config op roster r')
    (hbinds : ∀ username e handle pose, op = .setTarget r.id username →
      roster.sighted? username = some (e, handle, pose) → r.control = .cinematic →
      e.isLocal = false → P) : r'.Conceals P := by
  cases hedited with
  | unmoved r' unmoved => exact h.unmoved unmoved
  | bound username e handle pose requested sighted =>
    exact h.attached _ _ _ _ (hbinds username e handle pose requested sighted)
  | entered uiVisible text requested => exact .of_hidden rfl rfl
  | left uiVisible => exact .of_follow rfl
  | started | stopped => exact { h with }

/-- A cinematic rig starts out with nothing of a target to be seen. -/
theorem Started.conceals {id : RigId} (h : r.Started config id roster) : r.Conceals P := by
  have hbound : ∀ {mode : FollowMode} {bound : Rig},
      ((Rig.new config id false).setFollowMode config mode).Binds config roster bound →
        bound.Conceals P := by
    rintro mode bound ⟨e, -, handle, pose, -, rfl⟩
    exact .of_follow (setFollowMode_control config _ mode)
  cases h with
  | cinematic => exact new_conceals id true
  | bound mode r binds => exact hbound binds
  | placed mode r rect binds => exact (hbound binds).unmoved (setPlacement_unmoved r rect)

end Rig

namespace Fleet

/-- The operation binds the rig of a name, which is open and cinematic, to a remote player: it is a
request to do so, or it is an update in which the rig finds the target it waits for. -/
def BindsCinematic (f : Fleet) (op : Operation) (roster : Roster Float32) (id : RigId) : Prop :=
  ∃ r ∈ f.rigs, r.id = id ∧ r.control = .cinematic ∧
    ∃ username e handle pose, roster.sighted? username = some (e, handle, pose) ∧
      e.isLocal = false ∧
        (op = .setTarget id username ∨ ∃ dt timer, op = .update dt ∧
          r.target = .recovering username timer ∧ (timer.advance dt).1 ≠ .wait)

/-- At some moment of a run, an operation binds the cinematic rig of a name to a remote player. -/
def BoundWhileCinematic (config : Config) (ops : List (Operation × Roster Float32))
    (id : RigId) : Prop :=
  ∃ before op roster after, ops = before ++ (op, roster) :: after ∧
    ((Fleet.new config).run before).BindsCinematic op roster id

variable {config : Config} {ops : List (Operation × Roster Float32)} {op : Operation}
  {roster : Roster Float32} {id : RigId} {f : Fleet} {r : Rig}

theorem BoundWhileCinematic.concat (h : BoundWhileCinematic config ops id)
    (last : Operation × Roster Float32) : BoundWhileCinematic config (ops ++ [last]) id := by
  obtain ⟨before, op, roster, after, rfl, hbinds⟩ := h
  exact ⟨before, op, roster, after ++ [last], by simp, hbinds⟩

theorem BindsCinematic.bound (h : ((Fleet.new config).run ops).BindsCinematic op roster id) :
    BoundWhileCinematic config (ops ++ [(op, roster)]) id :=
  ⟨ops, op, roster, [], rfl, h⟩

/-- An operation keeps hidden what is hidden, unless it binds a cinematic rig. -/
theorem Origin.conceals {P : RigId → Prop} (h : f.Origin op roster r)
    (hrigs : ∀ r ∈ f.rigs, r.Conceals (P r.id))
    (hbinds : ∀ id, f.BindsCinematic op roster id → P id) : r.Conceals (P r.id) := by
  cases h with
  | edited before after isOpen edited =>
    rw [edited.id_eq]
    refine (hrigs before isOpen).edited edited ?_
    intro username e handle pose hop hsighted hcontrol hremote
    exact hbinds before.id
      ⟨before, isOpen, rfl, hcontrol, username, e, handle, pose, hsighted, hremote, .inl hop⟩
  | made id r started => exact started.conceals
  | aged dt r updates isOpen stays =>
    have hid : (r.aged f.config dt roster).delivered.id = r.id := Rig.aged_id
    rw [hid]
    have haged : (r.aged f.config dt roster).Conceals (P r.id) := by
      refine (hrigs r isOpen).aged stays ?_
      intro username timer e handle pose htarget hdue hsighted hcontrol hremote
      exact hbinds r.id ⟨r, isOpen, rfl, hcontrol, username, e, handle, pose, hsighted, hremote,
        .inr ⟨dt, timer, updates, htarget, hdue⟩⟩
    exact { haged with }

/-- After every run a rig conceals what it should unless it was bound while it was cinematic. -/
theorem run_conceals (config : Config) (ops : List (Operation × Roster Float32)) :
    ∀ r ∈ ((Fleet.new config).run ops).rigs, r.Conceals (BoundWhileCinematic config ops r.id) := by
  refine run_rigs_induction config (fun ops r => r.Conceals (BoundWhileCinematic config ops r.id))
    (fun ops op roster r hrigs horigin => ?_) ops
  have hbefore : ∀ r ∈ ((Fleet.new config).run ops).rigs,
      r.Conceals (BoundWhileCinematic config (ops ++ [(op, roster)]) r.id) :=
    fun r hr => (hrigs r hr).mono fun hbound => hbound.concat (op, roster)
  exact horigin.conceals hbefore fun id hbinds => hbinds.bound

/-- After every run, a rig that its script moves does not show the name of a target. If it shows
readings, they are those of the remote player to whom it is bound, and at some moment of the run it
was bound to a remote player while its script moved it. Whenever that happens by a request, the
readings are shown. -/
theorem run_hides (config : Config) (ops : List (Operation × Roster Float32)) (r : Rig)
    (isOpen : r ∈ ((Fleet.new config).run ops).rigs) (cinematic : r.control = .cinematic) :
    r.overlay.nameLabel = false ∧
      (r.overlay.telemetry = true → BoundWhileCinematic config ops r.id ∧
        ∃ username handle, r.target = .bound username handle false) ∧
      ∀ username roster e handle pose, roster.sighted? username = some (e, handle, pose) →
        ∃ r', (((Fleet.new config).run ops).perform (.setTarget r.id username)
            roster).value.1.rig? r.id = some r' ∧
          r'.control = .cinematic ∧ r'.overlay.nameLabel = false ∧
          r'.overlay.telemetry = !e.isLocal := by
  have hconceals := run_conceals config ops r isOpen
  have hname : r.overlay.nameLabel = false := hconceals.nameLabel cinematic
  refine ⟨hname, hconceals.telemetry cinematic, ?_⟩
  intro username roster e handle pose hsighted
  have hn := run_nodup config ops
  generalize (Fleet.new config).run ops = f at isOpen hn ⊢
  obtain ⟨hfind, hbindable⟩ := Roster.sighted?_eq_some_iff.mp hsighted
  have hrig : f.rig? r.id = some r := rig?_id_of_mem hn isOpen
  let bound := r.attached f.config e.username handle e.isLocal pose
  have hfleet : (f.perform (.setTarget r.id username) roster).value.1 = f.replace bound := by
    rw [(perform_edit rfl).fleet]
    simp [edited?, hrig, hfind, Rig.bind?_value, hbindable, bound]
  refine ⟨bound, ?_, cinematic, hname, rfl⟩
  rw [hfleet]
  exact rig?_replace hrig

/-- A run that makes a cinematic rig. -/
def cinematicRun : List (Operation × Roster Float32) :=
  [(.create ⟨"cam"⟩ .cinematic, .lone "racer")]

/-- A cinematic rig shows nothing of a target until it is bound to a remote player. -/
theorem run_hides_cinematicRun :
    ∃ r, ((Fleet.new .standard).run cinematicRun).rigs = [r] ∧ r.control = .cinematic ∧
      r.overlay.nameLabel = false ∧
      ∃ r', (((Fleet.new .standard).run cinematicRun).perform (.setTarget r.id "racer")
          (.lone "racer")).value.1.rig? r.id = some r' ∧
        r'.control = .cinematic ∧ r'.overlay.telemetry = true := by
  have hcontrols : ((Fleet.new .standard).run cinematicRun).rigs.map (·.control) =
      [.cinematic] := by decide +kernel
  have hsighted : (Roster.lone "racer").sighted? "racer" =
      some (⟨"racer", false, some ⟨1⟩⟩, ⟨⟨1⟩, .body⟩, Pose.identity) := by decide +kernel
  have hhides := run_hides .standard cinematicRun
  -- from here on the fleet must not be computed any more
  generalize (Fleet.new .standard).run cinematicRun = f at hcontrols hhides ⊢
  obtain ⟨r, hr, hcontrol⟩ := List.map_eq_singleton_iff.mp hcontrols
  have hmem : r ∈ f.rigs := by simp [hr]
  obtain ⟨hname, -, hbound⟩ := hhides r hmem hcontrol
  obtain ⟨r', hr', hcontrol', -, hshown⟩ := hbound _ _ _ _ _ hsighted
  exact ⟨r, hr, hcontrol, hname, r', hr', hcontrol', hshown⟩

/-- A rig that its script moves shows the readings of a player to whom it was bound by a request, or
whom it has found again. -/
theorem run_shows_readings :
    (∃ r, ((Fleet.new .standard).run
        (cinematicRun ++ [(.setTarget ⟨"cam"⟩ "racer", .lone "racer")])).rigs = [r] ∧
      r.control = .cinematic ∧ r.overlay.telemetry = true) ∧
    ∃ r, ((Fleet.new .standard).run
        (handoverRun ++ [(.update 0.25, .lone "racer")])).rigs = [r] ∧
      r.control = .cinematic ∧ r.overlay.telemetry = true := by
  have hrequest : ((Fleet.new .standard).run
      (cinematicRun ++ [(.setTarget ⟨"cam"⟩ "racer", .lone "racer")])).rigs.map
        (fun r => (r.control, r.overlay.telemetry)) = [(.cinematic, true)] := by decide +kernel
  have hlook : ((Fleet.new .standard).run
      (handoverRun ++ [(.update 0.25, .lone "racer")])).rigs.map
        (fun r => (r.control, r.overlay.telemetry)) = [(.cinematic, true)] := by decide +kernel
  obtain ⟨r, hr, hshown⟩ := List.map_eq_singleton_iff.mp hrequest
  obtain ⟨r', hr', hshown'⟩ := List.map_eq_singleton_iff.mp hlook
  rw [Prod.mk.injEq] at hshown hshown'
  exact ⟨⟨r, hr, hshown⟩, r', hr', hshown'⟩

end Fleet

end Skycam

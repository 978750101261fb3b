import Skycam.Proofs.Fleet.Origin

/-!
# Whom a new rig is bound to

A new rig that is to follow somebody is bound to the player its preset asks for, if that one can be
followed at present, and to the first player otherwise who can be (`Fleet.create_binds`). But the
search for the first one ends at the first pose that there is, and when that pose is not finite no
rig is made, although somebody further down could be followed (`Fleet.create_stops_at_pose`).
-/

namespace Skycam

namespace Roster

variable {roster : Roster Float32} {e : Entry} {h : Handle} {pose : Pose Float32}

/-- The player can be followed at present, and no player before can. -/
structure FirstBindable (roster : Roster Float32) (e : Entry) (h : Handle) (pose : Pose Float32) :
    Prop where
  /-- The handle is live, and its pose is finite. -/
  bindable : roster.bindable? e = some (h, pose)
  /-- The players before. -/
  first : ∃ before after, roster.entries = before ++ e :: after ∧
    ∀ x ∈ before, roster.bindable? x = none

/-- The first pose that there is is not finite, and hides all that come after it. -/
def Obscured (roster : Roster Float32) : Prop :=
  ∃ e h pose, roster.firstPosed? = some (e, h, pose) ∧ pose.isFinite = false

theorem bindable?_eq_none_of_posed? (hnone : roster.posed? e = none) :
    roster.bindable? e = none := by
  rw [bindable?_eq_filter, hnone]
  rfl

/-- The first player with a pose is the first one who can be followed, if that pose is finite. -/
theorem firstBindable_of_firstPosed? (hfirst : roster.firstPosed? = some (e, h, pose))
    (hfinite : pose.isFinite = true) : roster.FirstBindable e h pose := by
  obtain ⟨before, x, after, hentries, hx, hbefore⟩ := List.findSome?_eq_some_iff.mp hfirst
  obtain ⟨found, hposed, hpair⟩ := Option.map_eq_some_iff.mp hx
  obtain ⟨rfl, rfl⟩ := Prod.mk.inj hpair
  refine ⟨?_, before, after, hentries, ?_⟩
  · rw [bindable?_eq_filter, hposed, Option.filter_some, if_pos hfinite]
  · intro y hy
    exact bindable?_eq_none_of_posed? (Option.map_eq_none_iff.mp (hbefore y hy))

/-- The first pose that is found is finite just if somebody can be followed whom it does not
hide. -/
theorem isSome_firstPosed?_iff :
    (roster.firstPosed?.filter fun found => found.2.2.isFinite).isSome = true ↔
      (∃ e ∈ roster.entries, (roster.bindable? e).isSome = true) ∧ ¬roster.Obscured := by
  cases hfirst : roster.firstPosed? with
  | none =>
    have hnobody : ¬∃ e ∈ roster.entries, (roster.bindable? e).isSome = true := by
      rintro ⟨e, he, hsome⟩
      have hposed := List.findSome?_eq_none_iff.mp hfirst e he
      rw [bindable?_eq_none_of_posed? (Option.map_eq_none_iff.mp hposed)] at hsome
      cases hsome
    exact iff_of_false Bool.false_ne_true fun hsome => hnobody hsome.1
  | some found =>
    obtain ⟨e, h, pose⟩ := found
    rw [Option.filter_some]
    cases hfinite : pose.isFinite with
    | false =>
      exact iff_of_false Bool.false_ne_true fun hsome => hsome.2 ⟨e, h, pose, hfirst, hfinite⟩
    | true =>
      have hbindable := (firstBindable_of_firstPosed? hfirst hfinite).bindable
      refine iff_of_true rfl ⟨⟨e, (firstPosed?_mem hfirst).1, by rw [hbindable]; rfl⟩, ?_⟩
      rintro ⟨e', h', pose', hfirst', hinfinite⟩
      rw [hfirst] at hfirst'
      cases hfirst'
      rw [hfinite] at hinfinite
      cases hinfinite

end Roster

namespace Spawn

variable {spawn : Spawn} {roster : Roster Float32} {e : Entry} {h : Handle} {pose : Pose Float32}

/-- The player that a preset asks for, if it can be followed at present. -/
def named? (spawn : Spawn) (roster : Roster Float32) : Option (Entry × Handle × Pose Float32) :=
  match spawn with
  | .preset p => if p.target = "" then none else roster.sighted? p.target
  | _ => none

/-- The player that a new rig is bound to. -/
def found? (spawn : Spawn) (roster : Roster Float32) : Option (Entry × Handle × Pose Float32) :=
  (spawn.named? roster).or (roster.firstPosed?.filter fun found => found.2.2.isFinite)

/-- The player that a preset names is in the roster and can be followed. -/
theorem named?_bindable (hnamed : spawn.named? roster = some (e, h, pose)) :
    e ∈ roster.entries ∧ roster.bindable? e = some (h, pose) := by
  cases spawn with
  | preset p =>
    unfold named? at hnamed
    dsimp only at hnamed
    split at hnamed
    · cases hnamed
    · obtain ⟨hfind, hbindable⟩ := Roster.sighted?_eq_some_iff.mp hnamed
      exact ⟨List.mem_of_find?_eq_some hfind, hbindable⟩
  | _ => cases hnamed

/-- There is a target just if some player can be followed and, unless the named one can, no pose
that is not finite stands before the first one of them. -/
theorem isSome_found?_iff :
    (spawn.found? roster).isSome = true ↔
      (∃ e ∈ roster.entries, (roster.bindable? e).isSome = true) ∧
        ((spawn.named? roster).isSome = true ∨ ¬roster.Obscured) := by
  cases hnamed : spawn.named? roster with
  | none =>
    rw [found?, hnamed, Option.none_or, Roster.isSome_firstPosed?_iff]
    simp
  | some found =>
    obtain ⟨e, h, pose⟩ := found
    obtain ⟨he, hbindable⟩ := named?_bindable hnamed
    rw [found?, hnamed]
    exact iff_of_true rfl ⟨⟨e, he, by rw [hbindable]; rfl⟩, .inl rfl⟩

/-- The target is the named player, or else the first one who can be followed. -/
theorem found?_cases (hfound : spawn.found? roster = some (e, h, pose)) :
    spawn.named? roster = some (e, h, pose) ∨
      spawn.named? roster = none ∧ roster.FirstBindable e h pose := by
  rcases Option.or_eq_some_iff.mp hfound with hnamed | ⟨hnone, hfirst⟩
  · exact .inl hnamed
  · obtain ⟨hfirst, hfinite⟩ := Option.filter_eq_some_iff.mp hfirst
    exact .inr ⟨hnone, Roster.firstBindable_of_firstPosed? hfirst hfinite⟩

end Spawn

namespace Fleet

variable (f : Fleet) (id : RigId) {spawn : Spawn} (roster : Roster Float32)

/-- The target of a rig that is bound to a player. -/
def targetOf (found : Entry × Handle × Pose Float32) : Target :=
  .bound found.1.username found.2.1 found.1.isLocal

/-- A rig that is bound to the named player has that one for its target. -/
theorem bindNamed_target (config : Config) (r : Rig) (p : Preset) :
    ((if p.target = "" then none else roster.find? p.target).bind fun e =>
        (r.bind? config e roster).value).map (·.target) =
      ((Spawn.preset p).named? roster).map targetOf := by
  unfold Spawn.named?
  dsimp only
  split
  · rfl
  · unfold Roster.sighted?
    cases roster.find? p.target with
    | none => rfl
    | some e =>
      rw [Option.bind_some, Rig.bind?_value]
      cases hbind : roster.bindable? e with
      | none => simp [hbind]
      | some found => simp [hbind, targetOf, Rig.attached, Rig.emit]

theorem bindFirst?_target (config : Config) (r : Rig) :
    (r.bindFirst? config roster).value.map (·.target) =
      (roster.firstPosed?.filter fun found => found.2.2.isFinite).map targetOf := by
  rw [Rig.bindFirst?_value, Option.map_map]
  rfl

/-- A new rig has the player for its target who was found for it. -/
theorem spawnRig?_target (h : spawn ≠ .cinematic) :
    (f.spawnRig? id spawn roster).value.map (·.target) = (spawn.found? roster).map targetOf := by
  cases spawn with
  | cinematic => exact absurd rfl h
  | follow => exact bindFirst?_target roster f.config (Rig.new f.config id false)
  | preset p =>
    have hplaced : ∀ rect : PixelRect, ((·.target) ∘ fun r : Rig => r.setPlacement rect) =
        fun r : Rig => r.target := by
      intro rect
      funext r
      exact (Rig.setPlacement_unmoved r rect).target
    rw [spawnRig?_preset_value]
    dsimp only
    rw [Option.map_map, hplaced, Option.map_or, bindNamed_target, bindFirst?_target,
      ← Option.map_or]
    rfl

/-- A rig that needs a target can start out just if there is one. -/
theorem isSome_spawnRig?_iff (h : spawn ≠ .cinematic) :
    (f.spawnRig? id spawn roster).value.isSome = true ↔
      (∃ e ∈ roster.entries, (roster.bindable? e).isSome = true) ∧
        ((spawn.named? roster).isSome = true ∨ ¬roster.Obscured) := by
  have hsome := congrArg Option.isSome (spawnRig?_target f id roster h)
  rw [Option.isSome_map, Option.isSome_map] at hsome
  rw [hsome, Spawn.isSome_found?_iff]

/-- A name that may be given is given to the rig that is made. -/
theorem made?_eq (hid : id.isBlank = false) (hnew : f.contains id = false)
    (h : spawn ≠ .cinematic) :
    f.made? id (.ok spawn) roster = (f.spawnRig? id spawn roster).value := by
  unfold made?
  rw [hid, hnew, Bool.false_or, Bool.false_or]
  split
  · next hempty =>
    -- an empty roster is refused by itself, but nobody would be found in it either
    have hnone : ¬(f.spawnRig? id spawn roster).value.isSome = true := by
      rw [isSome_spawnRig?_iff f id roster h]
      rintro ⟨⟨e, he, -⟩, -⟩
      rw [List.isEmpty_iff.mp hempty] at he
      cases he
    exact (Option.not_isSome_iff_eq_none.mp hnone).symm
  · rfl

/-- A new rig that is to follow somebody is made just if there is a player who can be followed and
either the preset names one or no other pose hides the first one. It is bound to the player the
preset names, or else to the first one. -/
theorem create_binds (f : Fleet) (id : RigId) (spawn : Spawn) (roster : Roster Float32)
    (hid : id.isBlank = false) (hnew : f.contains id = false) (h : spawn ≠ .cinematic) :
    ((∃ f', (f.create id spawn roster).value = .ok f') ↔
      (∃ e ∈ roster.entries, (roster.bindable? e).isSome = true) ∧
        ((spawn.named? roster).isSome = true ∨ ¬roster.Obscured)) ∧
    ∀ f', (f.create id spawn roster).value = .ok f' →
      ∃ rig e h pose, f' = f.add rig ∧ rig.id = id ∧
        rig.target = .bound e.username h e.isLocal ∧
        (spawn.named? roster = some (e, h, pose) ∨
          spawn.named? roster = none ∧ roster.FirstBindable e h pose) := by
  have hcreate : (f.create id spawn roster).value.toOption =
      (f.spawnRig? id spawn roster).value.map f.add := by
    rw [create_toOption, made?_eq f id roster hid hnew h]
  constructor
  · rw [← isSome_spawnRig?_iff f id roster h]
    constructor
    · rintro ⟨f', hok⟩
      rw [hok] at hcreate
      obtain ⟨rig, hrig, -⟩ := Option.map_eq_some_iff.mp hcreate.symm
      rw [hrig]
      rfl
    · intro hsome
      obtain ⟨rig, hrig⟩ := Option.isSome_iff_exists.mp hsome
      rw [hrig] at hcreate
      cases hresult : (f.create id spawn roster).value with
      | ok f' => exact ⟨f', rfl⟩
      | error e =>
        rw [hresult] at hcreate
        cases hcreate
  · intro f' hok
    rw [hok] at hcreate
    obtain ⟨rig, hrig, hadd⟩ := Option.map_eq_some_iff.mp hcreate.symm
    have htarget := spawnRig?_target f id roster h
    rw [hrig] at htarget
    obtain ⟨⟨e, handle, pose⟩, hfound, hbound⟩ := Option.map_eq_some_iff.mp htarget.symm
    have hmade : f.made? id (.ok spawn) roster = some rig := by
      rw [made?_eq f id roster hid hnew h, hrig]
    exact ⟨rig, e, handle, pose, hadd.symm, id_eq_of_made? hmade, hbound.symm,
      Spawn.found?_cases hfound⟩

/-- A pose at no place. -/
def farPose : Pose Float32 := { Pose.identity with position := ⟨Single.infinity, 0.0, 0.0⟩ }

/-- A roster of a player without an entity, one who can be followed and one at no place. -/
def mixedRoster : Roster Float32 :=
  ⟨[⟨"idle", false, none⟩, ⟨"racer", false, some ⟨1⟩⟩, ⟨"ghost", false, some ⟨2⟩⟩],
    [(⟨⟨1⟩, .body⟩, Pose.identity), (⟨⟨2⟩, .body⟩, farPose)]⟩

/-- The preset of a rig that is to follow the player of a name. -/
def presetFor (name : String) : Preset := ⟨.smooth, name, .pixels, ⟨0.0, 0.0, 640.0, 360.0⟩⟩

/-- The preset names nobody, and the first player has no live entity. -/
theorem create_binds_mixedRoster :
    ⟨"cam"⟩ ∉ (Fleet.new .standard).ids ∧
      ∃ f' rig, ((Fleet.new .standard).create ⟨"cam"⟩ (.preset (presetFor "ghost"))
          mixedRoster).value = .ok f' ∧
        f' = (Fleet.new .standard).add rig ∧ rig.target = .bound "racer" ⟨⟨1⟩, .body⟩ false := by
  have hidle : mixedRoster.bindable? ⟨"idle", false, none⟩ = none := by decide +kernel
  have hracer : mixedRoster.bindable? ⟨"racer", false, some ⟨1⟩⟩ =
      some (⟨⟨1⟩, .body⟩, Pose.identity) := by decide +kernel
  have hghost : mixedRoster.bindable? ⟨"ghost", false, some ⟨2⟩⟩ = none := by decide +kernel
  have hnamed : (Spawn.preset (presetFor "ghost")).named? mixedRoster = none := by decide +kernel
  have hclear : ¬mixedRoster.Obscured := by
    have hfirst : mixedRoster.firstPosed? =
        some (⟨"racer", false, some ⟨1⟩⟩, ⟨⟨1⟩, .body⟩, Pose.identity) := by decide +kernel
    rintro ⟨e, h, pose, hfirst', hinfinite⟩
    rw [hfirst] at hfirst'
    cases hfirst'
    exact absurd hinfinite (by decide)
  obtain ⟨hmade, hbound⟩ := create_binds (Fleet.new .standard) ⟨"cam"⟩
    (.preset (presetFor "ghost")) mixedRoster (by decide) (by decide) Spawn.noConfusion
  obtain ⟨f', hok⟩ := hmade.mpr
    ⟨⟨⟨"racer", false, some ⟨1⟩⟩, by decide, by rw [hracer]; rfl⟩, .inr hclear⟩
  obtain ⟨rig, e, h, pose, hadd, -, htarget, hsome | ⟨-, hfirst⟩⟩ := hbound f' hok
  · rw [hnamed] at hsome
    cases hsome
  · have hbindable := hfirst.bindable
    obtain ⟨before, after, hentries, -⟩ := hfirst.first
    have he : e ∈ mixedRoster.entries := by
      rw [hentries]
      exact List.mem_append_right _ List.mem_cons_self
    simp only [mixedRoster, List.mem_cons, List.not_mem_nil, or_false] at he
    refine ⟨by decide, f', rig, hok, hadd, ?_⟩
    rcases he with rfl | rfl | rfl
    · rw [hidle] at hbindable
      cases hbindable
    · rw [hracer] at hbindable
      cases hbindable
      exact htarget
    · rw [hghost] at hbindable
      cases hbindable

/-- A roster in which a player at no place comes before one who can be followed. -/
def veiledRoster : Roster Float32 :=
  ⟨[⟨"ghost", false, some ⟨1⟩⟩, ⟨"racer", false, some ⟨2⟩⟩],
    [(⟨⟨1⟩, .body⟩, farPose), (⟨⟨2⟩, .body⟩, Pose.identity)]⟩

/-- A rig is refused although there is a player who can be followed. -/
theorem create_stops_at_pose :
    (⟨"racer", false, some ⟨2⟩⟩ : Entry) ∈ veiledRoster.entries ∧
      veiledRoster.bindable? ⟨"racer", false, some ⟨2⟩⟩ =
        some (⟨⟨2⟩, .body⟩, Pose.identity) ∧
      ((Fleet.new .standard).create ⟨"cam"⟩ .follow veiledRoster).value =
        .error (.noValidTarget ⟨"cam"⟩) ∧
      ((Fleet.new .standard).create ⟨"cam"⟩ (.preset (presetFor "")) veiledRoster).value =
        .error (.noValidTarget ⟨"cam"⟩) := by
  decide +kernel

end Fleet

end Skycam

import Skycam.Proofs.Rig.Live

/-!
# What the events of a rig tell about it

A host that sees only the events of a rig knows its target, its follow mode and the size of its
surface: it starts from what a new rig shows and takes note of each event in turn. This is right
because no move changes any of the three without an event that says so (`Rig.Move.raises`), and no
move tells of a creation or an end.
-/

namespace Skycam

/-- What the events tell about a target. -/
inductive SeenTarget where
  /-- There is none. -/
  | unbound
  /-- A player is followed. -/
  | bound (username : String)
  /-- A player is waited for. -/
  | recovering (username : String)
  deriving DecidableEq, Repr

/-- The part of a target that the events tell. -/
def Target.seen : Target → SeenTarget
  | .unbound => .unbound
  | .bound username _ _ => .bound username
  | .recovering username _ => .recovering username

/-- What a host knows about a rig from its events. -/
structure Sighting where
  /-- The name. -/
  rig : RigId
  /-- The target. -/
  target : SeenTarget
  /-- The follow mode. -/
  mode : FollowMode
  /-- The width of the render surface. -/
  width : UInt32
  /-- The height of the render surface. -/
  height : UInt32
  deriving DecidableEq, Repr

namespace Sighting

/-- What there is to know about a rig that was just created. -/
def fresh (config : Config) (id : RigId) : Sighting :=
  ⟨id, .unbound, .smooth, max config.surface.defaultWidth 1, max config.surface.defaultHeight 1⟩

/-- Takes note of an event. -/
def note (s : Sighting) : RigChange → Sighting
  | .targetBound username => { s with target := .bound username }
  | .targetLost username _ => { s with target := .recovering username }
  | .followModeChanged mode => { s with mode }
  | .surfaceResized width height => { s with width, height }
  | _ => s

@[simp] theorem note_rig (s : Sighting) (change : RigChange) : (s.note change).rig = s.rig := by
  cases change <;> rfl

theorem foldl_note_keyframeStarted (s : Sighting) (indices : List Nat) :
    (indices.map RigChange.keyframeStarted).foldl note s = s := by
  induction indices with
  | nil => rfl
  | cons index rest ih => exact ih

end Sighting

/-- Whether an event tells of the creation or the end of a rig. -/
def RigChange.isBoundary : RigChange → Bool
  | .created _ => true
  | .destroyed _ => true
  | _ => false

namespace Rig

/-- What a host should know about the rig. -/
def sighting (r : Rig) : Sighting :=
  ⟨r.id, r.target.seen, r.mode, r.surface.width, r.surface.height⟩

/-- Between two states of a rig the given events were raised, and they tell all that has changed. -/
structure Raises (r r' : Rig) (changes : List RigChange) : Prop where
  /-- The name stays. -/
  id : r'.id = r.id
  /-- The events wait behind those that were there. -/
  events : r'.events = r.events ++ changes
  /-- None of them tells of a creation or an end. -/
  inner : ∀ change ∈ changes, change.isBoundary = false
  /-- They tell all that a host has to know. -/
  sighting : r'.sighting = changes.foldl Sighting.note r.sighting

variable {config : Config} {r r' r'' : Rig}

theorem Raises.refl (r : Rig) : r.Raises r [] :=
  ⟨rfl, (List.append_nil _).symm, by simp, rfl⟩

/-- What is told of two changes is told one after the other. -/
theorem Raises.trans {first second : List RigChange} (h : r.Raises r' first)
    (h' : r'.Raises r'' second) : r.Raises r'' (first ++ second) where
  id := h'.id.trans h.id
  events := by rw [h'.events, h.events, List.append_assoc]
  inner := by
    intro change hmem
    rcases List.mem_append.mp hmem with hfirst | hsecond
    · exact h.inner change hfirst
    · exact h'.inner change hsecond
  sighting := by rw [h'.sighting, h.sighting, List.foldl_append]

/-- A change of other parts of a rig needs no event. -/
theorem Raises.silent (hid : r'.id = r.id) (hevents : r'.events = r.events)
    (hsighting : r'.sighting = r.sighting) : r.Raises r' [] :=
  ⟨hid, by simp [hevents], by simp, hsighting⟩

/-- One event tells of a change of the parts that it names. -/
theorem Raises.emit {changed : Rig} {change : RigChange} (hid : changed.id = r.id)
    (hevents : changed.events = r.events) (hinner : change.isBoundary = false)
    (hsighting : changed.sighting = r.sighting.note change) :
    r.Raises (changed.emit change) [change] where
  id := hid
  events := congrArg (· ++ [change]) hevents
  inner := by simpa using hinner
  sighting := hsighting

/-- A follow mode is told of if it is another one. -/
theorem setFollowMode_raises (mode : FollowMode) :
    ∃ changes, r.Raises (r.setFollowMode config mode) changes := by
  unfold setFollowMode
  dsimp only
  split
  · next hmode =>
    refine ⟨[], .silent rfl rfl ?_⟩
    simp [sighting, hmode]
  · exact ⟨[.followModeChanged mode], .emit rfl rfl rfl rfl⟩

theorem beginRecovery_raises (fault : FollowFault) :
    ∃ changes, r.Raises (r.beginRecovery config fault).value changes := by
  unfold beginRecovery
  cases r.targetName? with
  | none => exact ⟨[], .refl r⟩
  | some username => exact ⟨[.targetLost username fault.message], .emit rfl rfl rfl rfl⟩

theorem resizeSurface_raises (width height : UInt32) :
    ∃ changes, r.Raises (r.resizeSurface width height).1 changes := by
  unfold resizeSurface
  split
  · exact ⟨[], .refl r⟩
  · next surface _ => exact ⟨[.surfaceResized surface.width surface.height], .emit rfl rfl rfl rfl⟩

theorem setUiVisible_raises (visible : Bool) : r.Raises (r.setUiVisible visible).1 [] := by
  unfold setUiVisible
  split
  · exact .refl r
  · exact .silent rfl rfl rfl

/-! ## A step of playback -/

/-- The script tells of the keyframes that have begun. -/
theorem played_raises (p : Progress Float32) :
    r.Raises (r.played p) (p.step.started.map .keyframeStarted) where
  id := rfl
  events := rfl
  inner := by
    intro change hmem
    obtain ⟨index, -, rfl⟩ := List.mem_map.mp hmem
    rfl
  sighting := (Sighting.foldl_note_keyframeStarted _ _).symm

/-- To obey a claim may change the follow mode, which is told. -/
theorem obey_raises (claim : Claim) : ∃ changes, r.Raises (r.obey config claim) changes := by
  cases claim with
  | cinematic => exact ⟨[], .silent rfl rfl rfl⟩
  | follow mode =>
    have hgiven : r.Raises { r with control := .follow } [] := .silent rfl rfl rfl
    have hmode : ∃ changes, Raises { r with control := .follow }
        (setFollowMode config { r with control := .follow } mode) changes :=
      setFollowMode_raises mode
    obtain ⟨changes, hmode⟩ := hmode
    exact ⟨_, (hgiven.trans hmode).trans (.silent rfl rfl rfl)⟩

/-- After a step of the script its keyframes, its claim and its end have been told. -/
theorem afterPlayback_raises (p : Progress Float32) :
    ∃ changes, r.Raises (r.afterPlayback config p) changes := by
  have hplayed := r.played_raises p
  have hclaimed : ∃ changes, r.Raises (r.claimed config p) changes := by
    unfold claimed
    cases p.step.claimed with
    | none => exact ⟨_, hplayed⟩
    | some claim =>
      have hobey : ∃ changes, (r.played p).Raises ((r.played p).obey config claim) changes :=
        obey_raises claim
      obtain ⟨changes, hobey⟩ := hobey
      exact ⟨_, hplayed.trans hobey⟩
  obtain ⟨changes, hclaimed⟩ := hclaimed
  rw [afterPlayback_eq]
  split
  · exact ⟨_, hclaimed.trans (.emit rfl rfl rfl rfl)⟩
  · exact ⟨_, hclaimed⟩

/-! ## Every move -/

/-- Every move tells what it changes. -/
theorem Move.raises (h : Move config r r') : ∃ changes, r.Raises r' changes := by
  cases h with
  | attach username handle isLocal pose suits =>
    exact ⟨[.targetBound username], .emit rfl rfl rfl rfl⟩
  | wait username before after waits =>
    refine ⟨[], .silent rfl rfl ?_⟩
    simp [sighting, waits, Target.seen]
  | recover username after => exact ⟨[.recovered username after], .emit rfl rfl rfl rfl⟩
  | lose fault => exact beginRecovery_raises fault
  | play dt roster => exact afterPlayback_raises _
  | mode mode => exact setFollowMode_raises mode
  | showWindow visible => exact ⟨[], setUiVisible_raises visible⟩
  | resize width height => exact resizeSurface_raises width height
  | follow | fov | enterCinematic | leaveCinematic | runScript | stopScript | lock | place =>
    exact ⟨[], .silent rfl rfl rfl⟩

/-- All that changes in any number of moves is told in their order. -/
theorem Moves.raises (h : Moves config r r') : ∃ changes, r.Raises r' changes := by
  induction h with
  | refl => exact ⟨[], .refl r⟩
  | tail _ hmove ih =>
    obtain ⟨first, hfirst⟩ := ih
    obtain ⟨second, hsecond⟩ := hmove.raises
    exact ⟨first ++ second, hfirst.trans hsecond⟩

theorem Moves.id_eq (h : Moves config r r') : r'.id = r.id := by
  obtain ⟨changes, hraises⟩ := h.raises
  exact hraises.id

theorem new_sighting (id : RigId) (cinematic : Bool) :
    (Rig.new config id cinematic).sighting = .fresh config id :=
  rfl

end Rig

end Skycam

import Skycam.Proofs.Fleet.Run
import Skycam.Proofs.Stage.Mirror
import Skycam.Stage

/-!
# Frames of a stage

A stage adds nothing to what its fleet does: after each frame the fleet is where it would be if it
had been asked directly, what was sent out is what its updates have told, and the scene mirrors it
(`Stage.run_direct`). A request that is refused does not keep the later ones from being performed.
-/

namespace Skycam

/-- What goes into a frame: the size of the display, what is asked for, the roster and the step of
time. -/
structure Turn where
  /-- The size of the display. -/
  display : DisplaySize
  /-- What is asked for, in order. -/
  requests : List Request
  /-- The roster. -/
  roster : Roster Float32
  /-- The step of time. -/
  dt : Float32

/-- The stage after a frame. -/
def Stage.take (s : Stage) (t : Turn) : Stage :=
  ((t.requests.foldl Stage.request (s.setDisplay t.display)).turn t.roster t.dt).value

/-- The stage after some frames. -/
def Stage.run (s : Stage) (turns : List Turn) : Stage := turns.foldl Stage.take s

/-- The fleet after the call that a request asks for. A call that is refused leaves the fleet as it
was. -/
def Fleet.serve (f : Fleet) (roster : Roster Float32) : Request → Fleet
  | .create id preset => (f.createOfText id preset roster).value.toOption.getD f
  | .applyGroup presets => (f.applyGroup presets roster).value.1
  | .close id => (f.close id).value.1
  | .closeAll => f.shutdownAll.value
  | .setTarget rig username => (f.setTarget rig username roster).value.toOption.getD f
  | .setFollowMode rig mode => ((f.setFollowMode rig mode).value.toOption.map (·.1)).getD f
  | .setFov rig fov => (f.setFov rig fov).toOption.getD f
  | .setCinematic rig state uiVisible script =>
    (f.setCinematic rig state uiVisible script).value.toOption.getD f
  | .runScript rig script => ((f.runScript rig script).value.toOption.map (·.1)).getD f
  | .stopScript rig => (f.stopScript rig).toOption.getD f
  | .setUi visible => (f.setUiVisible visible).1
  | .setLocked rig locked => (f.setLocked rig locked).toOption.getD f
  | .setRect rig unit region => (f.setRect rig unit region).toOption.getD f

/-- A fleet without a stage, and all that its updates have told, after what a frame does to it. -/
def Turn.direct (told : Fleet × List Event) (t : Turn) : Fleet × List Event :=
  let asked := t.requests.foldl (fun f r => f.serve t.roster r) (told.1.setDisplay t.display)
  let next := (asked.update t.dt t.roster).value
  (next, told.2 ++ next.events)

/-- What a frame does to a fleet, as operations. -/
def Turn.operations (t : Turn) : List (Operation × Roster Float32) :=
  (.setDisplay t.display :: (t.requests.map Request.operation ++ [.update t.dt])).map
    fun op => (op, t.roster)

theorem Fleet.settle_fst {α : Type} (f : Fleet) (result : Except FleetError α) (fleet : α → Fleet)
    (answer : α → Answer) :
    (f.settle result fleet answer).1 = (result.toOption.map fleet).getD f := by
  cases result with
  | ok a => rfl
  | error e => rfl

/-- A stage performs the operation that a request stands for, which is the call that it asks for. -/
theorem Fleet.serve_eq (f : Fleet) (roster : Roster Float32) (r : Request) :
    f.serve roster r = (f.perform r.operation roster).value.1 := by
  cases r with
  | applyGroup | close | closeAll | setUi => rfl
  | setFollowMode | runScript => exact (f.settle_fst _ _ _).symm
  | create | setTarget | setFov | setCinematic | stopScript | setLocked | setRect =>
    have hsettled : ∀ result : Except FleetError Fleet, ∀ answer,
        (f.settle result (fun f => f) answer).1 = result.toOption.getD f := by
      intro result answer
      rw [f.settle_fst, Option.map_id']
    exact (hsettled _ _).symm

namespace Stage

variable {s : Stage}

/-- The requests of a frame are served in their order, whether one is refused or not. -/
theorem performAll_value (roster : Roster Float32) (f : Fleet) (requests : List Request) :
    (performAll roster f requests).value =
      requests.foldl (fun f r => f.serve roster r) f := by
  induction requests generalizing f with
  | nil => rfl
  | cons r requests ih =>
    unfold performAll
    rw [List.foldl_cons, Fleet.serve_eq, Logged.value_bind]
    exact ih _

theorem foldl_request (s : Stage) (requests : List Request) :
    requests.foldl request s = { s with requests := s.requests ++ requests } := by
  induction requests generalizing s with
  | nil => simp
  | cons r requests ih =>
    rw [List.foldl_cons, ih]
    simp [request]

/-- A frame serves what was asked for, updates the fleet, and brings the scene in line. -/
theorem turn_value (s : Stage) (roster : Roster Float32) (dt : Float32) :
    (s.turn roster dt).value =
      let asked := s.requests.foldl (fun f r => f.serve roster r) (s.fleet.setDisplay s.display)
      let next := (asked.update dt roster).value
      { s with
        fleet := next
        scene := (s.scene.sync next.frames).apply next.frames
        requests := []
        roster
        staged := next.frames
        notices := s.notices ++ next.events } := by
  unfold turn handleRequests tickFleet
  simp only [Logged.value_bind, Logged.value_pure, performAll_value]
  rfl

/-- The fleet of a frame and what it tells are those of the same calls without a stage. -/
theorem take_value (hrequests : s.requests = []) (t : Turn) :
    s.take t =
      let next := t.direct (s.fleet, s.notices)
      { s with
        fleet := next.1
        scene := (s.scene.sync next.1.frames).apply next.1.frames
        display := t.display
        requests := []
        roster := t.roster
        staged := next.1.frames
        notices := next.2 } := by
  have hasked : t.requests.foldl request (s.setDisplay t.display) =
      { s with display := t.display, requests := t.requests } := by
    rw [foldl_request]
    simp [setDisplay, hrequests]
  unfold take
  rw [hasked, turn_value]
  rfl

/-- A frame takes what was asked for so far and the roster of the moment. -/
theorem frame_value (s : Stage) (micros : Nat) :
    (s.frame micros).value =
      ({ s with started := true, requests := [] } : Stage).take
        { display := s.display
          requests := s.requests
          roster := s.snapshot
          dt := if s.started then stepOfMicros micros else 0.0 } := by
  unfold frame take
  rw [foldl_request]
  rfl

end Stage

theorem Turn.direct_fleet (t : Turn) (told : Fleet × List Event) :
    (t.direct told).1 = told.1.run t.operations := by
  unfold direct operations Fleet.run
  rw [List.foldl_map, List.foldl_cons, List.foldl_append, List.foldl_map]
  simp only [Fleet.serve_eq]
  rfl

/-- Between two frames nothing is asked for, and the scene mirrors the fleet, which some operations
have made of the empty one. -/
structure Stage.Settled (config : Config) (s : Stage) : Prop where
  requests : s.requests = []
  reached : ∃ ops, s.fleet = (Fleet.new config).run ops
  holds : ∃ xs, s.scene.Holds xs
  mirrors : s.scene.Mirrors s.fleet

namespace Stage

variable {s : Stage} {config : Config}

theorem new_settled (config : Config) (hasImages : Bool) :
    (new config hasImages).Settled config where
  requests := rfl
  reached := ⟨[], rfl⟩
  holds := ⟨[], Scene.new_holds hasImages⟩
  mirrors := (Scene.new_holds hasImages).mirrors List.nodup_nil (fun _ => Iff.rfl) (by simp)

/-- A frame leads from between two frames to there again. -/
theorem Settled.take (h : s.Settled config) (t : Turn) :
    (s.take t).Settled config ∧
      ((s.take t).fleet, (s.take t).notices) = t.direct (s.fleet, s.notices) := by
  obtain ⟨ops, hops⟩ := h.reached
  obtain ⟨xs, hxs⟩ := h.holds
  have hreached : (t.direct (s.fleet, s.notices)).1 =
      (Fleet.new config).run (ops ++ t.operations) := by
    rw [Turn.direct_fleet, hops]
    exact (List.foldl_append ..).symm
  have hn : (t.direct (s.fleet, s.notices)).1.ids.Nodup := by
    rw [hreached]
    exact Fleet.run_nodup config _
  obtain ⟨ys, hys, hmirrors⟩ := hxs.sync_apply_mirrors hn rfl
  rw [take_value h.requests]
  exact ⟨⟨rfl, ⟨_, hreached⟩, ⟨ys, hys⟩, hmirrors⟩, rfl⟩

/-- From between two frames, any number of frames leads there again. -/
theorem Settled.run (h : s.Settled config) (turns : List Turn) :
    (s.run turns).Settled config ∧
      ((s.run turns).fleet, (s.run turns).notices) =
        turns.foldl (fun told t => t.direct told) (s.fleet, s.notices) := by
  induction turns generalizing s with
  | nil => exact ⟨h, rfl⟩
  | cons t turns ih =>
    obtain ⟨hsettled, hdirect⟩ := h.take t
    rw [List.foldl_cons, ← hdirect]
    exact ih hsettled

/-- After any frames, each with any requests, roster and step of time, the fleet of a stage and what
was sent out are those of a fleet without a stage that is given the display, asked for the same
things one after the other and updated once with each frame. The scene then mirrors the fleet. -/
theorem run_direct (config : Config) (hasImages : Bool) (turns : List Turn) :
    let s := (new config hasImages).run turns
    (s.fleet, s.notices) = turns.foldl (fun told t => t.direct told) (Fleet.new config, []) ∧
      s.scene.Mirrors s.fleet := by
  obtain ⟨hsettled, hdirect⟩ := (new_settled config hasImages).run turns
  exact ⟨hdirect, hsettled.mirrors⟩

end Stage

end Skycam

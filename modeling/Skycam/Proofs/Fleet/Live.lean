import Skycam.Proofs.Fleet.Run

/-!
# The open rigs of a fleet

Every rig of a fleet that has come about by operations is found under its own name, and its parts
agree.
-/

namespace Skycam

namespace Ledger

/-- The parts of every rig agree. -/
def AllLive (l : Ledger) : Prop := ∀ r ∈ l.rigs, r.Live

variable {l l' : Ledger}

/-- Each step keeps the rigs live, one case for each kind of step. -/
theorem Step.allLive (h : Step l l') (hl : l.AllLive) : l'.AllLive := by
  cases h with
  | move rigs moves =>
    intro r' hr'
    obtain ⟨r, hr, hmoves⟩ := exists_moves_of_mem moves hr'
    exact (hl r hr).moves hmoves
  | spawn id cinematic rig notBlank isNew moves =>
    intro r hr
    rcases List.mem_append.mp hr with hold | hnew
    · exact hl r hold
    · rw [List.mem_singleton.mp hnew]
      exact (Rig.new_live notBlank cinematic).moves moves
  | close rig reason isOpen onDemand => exact fun r hr => hl r (mem_rigsBut.mp hr).1
  | expire rig isOpen noneWaits => exact fun r hr => hl r (mem_rigsBut.mp hr).1
  | deliver =>
    intro r' hr'
    obtain ⟨r, hr, rfl⟩ := List.mem_map.mp hr'
    exact (hl r hr).delivered

end Ledger

namespace Fleet

/-- After every run, a rig is found under its name, and its parts agree. -/
theorem run_live (config : Config) (ops : List (Operation × Roster Float32)) (r : Rig)
    (hr : r ∈ ((Fleet.new config).run ops).rigs) :
    ((Fleet.new config).run ops).rig? r.id = some r ∧ r.Live := by
  obtain ⟨told, endings, hlive⟩ := run_keeps config ops (fun _ _ => Ledger.Step.allLive)
    (fun r hr => absurd hr List.not_mem_nil)
  exact ⟨rig?_id_of_mem (run_nodup config ops) hr, hlive r hr⟩

/-- A run after which a rig is in the middle of a keyframe. -/
def keyframeRun : List (Operation × Roster Float32) :=
  [(.create ⟨"cam"⟩ .follow, .lone "racer"),
    (.runScript ⟨"cam"⟩ "move 0 0 1\ntime 3", .lone "racer"),
    (.update 0.5, .lone "racer")]

/-- A rig in the middle of a keyframe. -/
theorem run_live_keyframeRun :
    ∃ r, ((Fleet.new .standard).run keyframeRun).rigs = [r] ∧ r.playback.active.isSome = true ∧
      ((Fleet.new .standard).run keyframeRun).rig? r.id = some r ∧ r.Live := by
  have hlength : ((Fleet.new .standard).run keyframeRun).rigs.length = 1 := by
    decide +kernel
  have hactive : ((Fleet.new .standard).run keyframeRun).rigs.all
      (·.playback.active.isSome) = true := by decide +kernel
  have hlive := run_live .standard keyframeRun
  -- from here on the fleet must not be computed any more
  generalize (Fleet.new .standard).run keyframeRun = f at hlength hactive hlive ⊢
  obtain ⟨r, hr⟩ := List.length_eq_one_iff.mp hlength
  exact ⟨r, hr, by simpa [hr] using hactive, hlive r (by simp [hr])⟩

end Fleet

end Skycam

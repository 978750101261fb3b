import Skycam.Proofs.Fleet.Run
import Skycam.Proofs.Preset.Text

/-!
# Saved presets

The preset of an open rig can be saved at any time, and from its text the rig's mode, the unit and
the placement are read again to the last bit, whatever the display is. The name of the target is
read without the blank characters around it, so that what is read is the preset that was saved just
if the name has none (`Fleet.run_presetText`). A name with a semicolon is cut
(`Fleet.presetText_loses_name`).
-/

namespace Skycam

namespace Fleet

/-- A run after which a rig follows a player of the given name. -/
def boundRun (username : String) : List (Operation × Roster Float32) :=
  [(.create ⟨"cam"⟩ .follow, .lone username)]

/-- The text of a preset can be saved in every state that a fleet gets into, and gives the preset
back, up to the blank characters around the name of the target. -/
theorem run_presetText (config : Config) (ops : List (Operation × Roster Float32)) (r : Rig)
    (hr : r ∈ ((Fleet.new config).run ops).rigs)
    (hplain : ';' ∉ (r.targetName?.getD "").toList) (unit : PlacementUnit) :
    let f := (Fleet.new config).run ops
    let saved := r.preset unit f.display
    ∃ text, f.presetText r.id unit = .ok text ∧
      Preset.ofText text = .ok { saved with target := Text.trimmed saved.target } ∧
      (Preset.ofText text = .ok saved ↔ Text.trimmed saved.target = saved.target) := by
  intro f saved
  have hrig : f.rig? r.id = some r := rig?_id_of_mem (run_nodup config ops) hr
  have htext : f.presetText r.id unit = .ok saved.toText := by rw [presetText, hrig]
  have hfinite : saved.region.Finite := Region.ofPixels_finite r.placement unit f.display
  have hread : Preset.ofText saved.toText =
      .ok { saved with target := Text.trimmed saved.target } :=
    Preset.ofText_toText hfinite hplain
  refine ⟨saved.toText, htext, hread, ?_⟩
  rw [hread]
  constructor
  · intro hsame
    exact congrArg Preset.target (Except.ok.inj hsame)
  · intro hname
    rw [hname]

/-- A rig that is bound to a player, with its placement as fractions of the display. -/
theorem run_presetText_racer :
    ∃ r, ((Fleet.new .standard).run (boundRun "racer")).rigs = [r] ∧
      ';' ∉ (r.targetName?.getD "").toList ∧
      ∃ text, ((Fleet.new .standard).run (boundRun "racer")).presetText r.id .fraction = .ok text ∧
        Preset.ofText text =
          .ok (r.preset .fraction ((Fleet.new .standard).run (boundRun "racer")).display) := by
  have htargets : ((Fleet.new .standard).run (boundRun "racer")).rigs.map (·.targetName?) =
      [some "racer"] := by decide +kernel
  obtain ⟨r, hrigs, htarget⟩ := List.map_eq_singleton_iff.mp htargets
  have hopen : r ∈ ((Fleet.new .standard).run (boundRun "racer")).rigs := by simp [hrigs]
  have hplain : ';' ∉ (r.targetName?.getD "").toList := by
    rw [htarget]
    decide
  have hname : Text.trimmed (r.targetName?.getD "") = r.targetName?.getD "" := by
    rw [htarget]
    decide
  obtain ⟨text, htext, -, hread⟩ :=
    run_presetText .standard (boundRun "racer") r hopen hplain .fraction
  exact ⟨r, hrigs, hplain, text, htext, hread.mpr hname⟩

/-- The name of a player who is followed can have blank characters around it, which are not read
again, or a semicolon, because of which nothing is read. -/
theorem presetText_loses_name :
    (∃ r, ((Fleet.new .standard).run (boundRun " racer")).rigs = [r] ∧
      r.targetName? = some " racer" ∧
      ((Fleet.new .standard).run (boundRun " racer")).presetText r.id .pixels =
        .ok "smooth; racer;px;0;0;320;240" ∧
      Preset.ofText "smooth; racer;px;0;0;320;240" ≠
        .ok (r.preset .pixels ((Fleet.new .standard).run (boundRun " racer")).display)) ∧
    ∃ r, ((Fleet.new .standard).run (boundRun "a;b")).rigs = [r] ∧
      r.targetName? = some "a;b" ∧
      ((Fleet.new .standard).run (boundRun "a;b")).presetText r.id .pixels =
        .ok "smooth;a;b;px;0;0;320;240" ∧
      Preset.ofText "smooth;a;b;px;0;0;320;240" = .error (.fieldCount 8) := by
  have hpadded : ((Fleet.new .standard).run (boundRun " racer")).rigs.map
      (fun r => (r.targetName?, r.id)) = [(some " racer", ⟨"cam"⟩)] := by decide +kernel
  have hpaddedText : ((Fleet.new .standard).run (boundRun " racer")).presetText ⟨"cam"⟩ .pixels =
      .ok "smooth; racer;px;0;0;320;240" := by decide +kernel
  have hcut : ((Fleet.new .standard).run (boundRun "a;b")).rigs.map
      (fun r => (r.targetName?, r.id)) = [(some "a;b", ⟨"cam"⟩)] := by decide +kernel
  have hcutText : ((Fleet.new .standard).run (boundRun "a;b")).presetText ⟨"cam"⟩ .pixels =
      .ok "smooth;a;b;px;0;0;320;240" := by decide +kernel
  obtain ⟨r, hr, hstate⟩ := List.map_eq_singleton_iff.mp hpadded
  obtain ⟨r', hr', hstate'⟩ := List.map_eq_singleton_iff.mp hcut
  rw [Prod.mk.injEq] at hstate hstate'
  have hread : (Preset.ofText "smooth; racer;px;0;0;320;240").toOption.map (·.target) =
      some "racer" := by decide +kernel
  refine ⟨⟨r, hr, hstate.1, by rw [hstate.2, hpaddedText], fun hsame => ?_⟩,
    r', hr', hstate'.1, by rw [hstate'.2, hcutText], by decide⟩
  rw [hsame] at hread
  have hname : r.targetName?.getD "" = "racer" := Option.some.inj hread
  rw [hstate.1] at hname
  exact absurd hname (by decide)

end Fleet

end Skycam

import Skycam.Proofs.Fleet.Lifecycle

/-!
# What an update removes and tells

An update takes away just the rigs that have waited in vain. Of each rig it tells what waited
before, what the step of time brought about and, if the rig has to go, its end. Since nothing else
ends a rig by a timeout, such an end is told exactly once, in the update that removes the rig.
-/

namespace Skycam

namespace Ledger

/-- No event waits that tells of a rig that has waited in vain, and none waits in an open rig that
tells of its end. -/
structure NoEndWaits (l : Ledger) : Prop where
  /-- Among the events of closed rigs. -/
  pending : ∀ e ∈ l.pending, e.change ≠ .destroyed .recoveryTimeout
  /-- In the open rigs. -/
  rigs : ∀ r ∈ l.rigs, ∀ reason, .destroyed reason ∉ r.events

variable {l l' : Ledger}

theorem noEnd_of_inner {changes : List RigChange}
    (h : ∀ change ∈ changes, change.isBoundary = false) (reason : DestroyReason) :
    .destroyed reason ∉ changes := fun hmem => by cases h _ hmem

/-- Each step keeps ends from waiting, one case for each kind of step. -/
theorem Step.noEndWaits (h : Step l l') (hl : l.NoEndWaits) : l'.NoEndWaits := by
  cases h with
  | move rigs moves =>
    refine ⟨hl.pending, fun r' hr' reason hmem => ?_⟩
    obtain ⟨r, hr, hmoves⟩ := exists_moves_of_mem moves hr'
    obtain ⟨changes, hraises⟩ := hmoves.raises
    rw [hraises.events] at hmem
    rcases List.mem_append.mp hmem with hbefore | hnow
    · exact hl.rigs r hr reason hbefore
    · exact noEnd_of_inner hraises.inner reason hnow
  | spawn id cinematic rig notBlank isNew moves =>
    obtain ⟨changes, hraises⟩ := Rig.Moves.raises moves
    refine ⟨hl.pending, fun r hr reason hmem => ?_⟩
    rcases List.mem_append.mp hr with hold | hnew
    · exact hl.rigs r hold reason hmem
    · have hevents : rig.events = .created cinematic :: changes := hraises.events
      rw [List.mem_singleton.mp hnew, hevents] at hmem
      rcases List.mem_cons.mp hmem with hcreated | hnow
      · cases hcreated
      · exact noEnd_of_inner hraises.inner reason hnow
  | close rig reason isOpen onDemand =>
    refine ⟨fun e he => ?_, fun r hr => hl.rigs r (mem_rigsBut.mp hr).1⟩
    rcases List.mem_append.mp he with hold | hnew
    · exact hl.pending e hold
    · obtain ⟨change, hchange, rfl⟩ := List.mem_map.mp hnew
      rcases List.mem_append.mp hchange with hbefore | hend
      · rintro rfl
        exact hl.rigs rig isOpen _ hbefore
      · rw [List.mem_singleton.mp hend]
        simpa using onDemand
  | expire rig isOpen noneWaits =>
    exact ⟨hl.pending, fun r hr => hl.rigs r (mem_rigsBut.mp hr).1⟩
  | deliver =>
    refine ⟨by simp [Ledger.deliver], fun r' hr' reason hmem => ?_⟩
    obtain ⟨r, -, rfl⟩ := List.mem_map.mp hr'
    cases hmem

end Ledger

namespace Fleet

variable {f : Fleet} {r : Rig} {dt : Float32} {roster : Roster Float32}

/-- What an update tells of a rig: what waited under its name, what has happened up to the end of
the step, and then its end if it has waited in vain. -/
theorem changesOf_update (hn : f.ids.Nodup) (hr : r ∈ f.rigs) (dt : Float32)
    (roster : Roster Float32) :
    changesOf r.id (f.update dt roster).value.events =
      changesOf r.id f.pending ++ (r.aged f.config dt roster).events ++
        if r.expires f.config dt roster then [.destroyed .recoveryTimeout] else [] := by
  have haged : changesOf r.id (f.rigs.flatMap fun r => (r.aged f.config dt roster).deliveries) =
      (r.aged f.config dt roster).events := by
    have hids : (f.rigs.map (·.aged f.config dt roster)).map (·.id) = f.ids := by
      simp [ids]
    have hmem : r.aged f.config dt roster ∈ f.rigs.map (·.aged f.config dt roster) :=
      List.mem_map_of_mem hr
    have hevents := changesOf_flatMap_of_mem (by rwa [hids]) hmem
    rwa [Rig.aged_id, List.flatMap_map] at hevents
  have hended : changesOf r.id ((f.expired dt roster).flatMap
      fun r => (r.ended .recoveryTimeout).deliveries) =
        if r.expires f.config dt roster then [.destroyed .recoveryTimeout] else [] := by
    have hids : ((f.expired dt roster).map (·.ended .recoveryTimeout)).map (·.id) =
        (f.expired dt roster).map (·.id) := by
      simp [Rig.ended, Rig.emit]
    have hflat : ((f.expired dt roster).map (·.ended .recoveryTimeout)).flatMap (·.deliveries) =
        (f.expired dt roster).flatMap fun r => (r.ended .recoveryTimeout).deliveries :=
      List.flatMap_map ..
    rw [← hflat]
    split
    · next hexpires =>
      have hmem : (r.aged f.config dt roster).delivered.ended .recoveryTimeout ∈
          (f.expired dt roster).map (·.ended .recoveryTimeout) :=
        List.mem_map_of_mem (List.mem_map_of_mem (List.mem_filter.mpr ⟨hr, hexpires⟩))
      have hid : ((r.aged f.config dt roster).delivered.ended .recoveryTimeout).id = r.id :=
        Rig.aged_id
      have hevents := changesOf_flatMap_of_mem (hids ▸ expired_ids_nodup hn) hmem
      rwa [hid] at hevents
    · next hstays =>
      apply changesOf_flatMap_of_notMem
      rw [hids, expired_ids, id_mem_filter_iff hn hr]
      exact hstays
  rw [update_events, changesOf_append, changesOf_append, haged, hended]

theorem start_noEndWaits (config : Config) :
    (Chronicle.start config).ledger.NoEndWaits where
  pending := fun _ he => absurd he List.not_mem_nil
  rigs := fun _ hr => absurd hr List.not_mem_nil

/-- An event is told as often as its change is told under its name. -/
theorem count_changesOf (id : RigId) (change : RigChange) (events : List Event) :
    (changesOf id events).count change = events.count ⟨id, change⟩ := by
  induction events with
  | nil => rfl
  | cons e rest ih =>
    obtain ⟨rig, other⟩ := e
    by_cases hrig : rig = id
    · have hone : changesOf id (⟨rig, other⟩ :: rest) = other :: changesOf id rest := by
        simp [changesOf, hrig]
      rw [hone, List.count_cons, List.count_cons, ih]
      simp [hrig]
    · have hnone : changesOf id (⟨rig, other⟩ :: rest) = changesOf id rest := by
        simp [changesOf, hrig]
      rw [hnone, List.count_cons, ih]
      simp [hrig]

/-- After every run, the rigs that are missing after an update are those that have waited in vain.
Of such a rig the update tells what waited before and then its end, of which it tells once. The
other rigs keep their order, and there is one frame for each of them, in that order. -/
theorem run_update (config : Config) (ops : List (Operation × Roster Float32)) (dt : Float32)
    (roster : Roster Float32) :
    let f := (Fleet.new config).run ops
    let f' := (f.update dt roster).value
    (∀ r ∈ f.rigs, r.id ∉ f'.ids ↔ r.WaitsInVain dt roster) ∧
      (∀ r ∈ f.rigs, r.WaitsInVain dt roster →
        changesOf r.id f'.events =
            changesOf r.id f.pending ++ r.events ++ [.destroyed .recoveryTimeout] ∧
          f'.events.count ⟨r.id, .destroyed .recoveryTimeout⟩ = 1) ∧
      f'.ids.Sublist f.ids ∧ f'.frames = f'.rigs.map (·.frame) := by
  intro f f'
  have hn : f.ids.Nodup := run_nodup config ops
  obtain ⟨told, endings, hnoEnd⟩ :=
    run_keeps config ops (fun _ _ => Ledger.Step.noEndWaits) (start_noEndWaits config)
  refine ⟨fun r hr => ?_, fun r hr hvain => ?_, ?_, rfl⟩
  · rw [mem_update_ids_iff hn dt roster hr, Bool.not_eq_false, Rig.expires_iff]
  · have hchanges : changesOf r.id f'.events =
        changesOf r.id f.pending ++ r.events ++ [.destroyed .recoveryTimeout] := by
      rw [changesOf_update hn hr, Rig.aged_events_of_waitsInVain hvain,
        if_pos (Rig.expires_iff.mpr hvain)]
    refine ⟨hchanges, ?_⟩
    have hbefore : (changesOf r.id f.pending).count (.destroyed .recoveryTimeout) = 0 := by
      rw [count_changesOf, List.count_eq_zero]
      exact fun hmem => hnoEnd.pending _ hmem rfl
    have hwaiting : r.events.count (.destroyed .recoveryTimeout) = 0 :=
      List.count_eq_zero.mpr (hnoEnd.rigs r hr _)
    rw [← count_changesOf, hchanges, List.count_append, List.count_append, hbefore, hwaiting]
    rfl
  · have hids : f'.ids = (f.rigs.filter fun r => !r.expires f.config dt roster).map (·.id) :=
      update_ids
    rw [hids]
    exact List.filter_sublist.map _

/-- After a minute in vain the rig is gone, and its end is told once. -/
theorem run_update_lostRun :
    ∃ r, ((Fleet.new .standard).run (lostRun "racer")).rigs = [r] ∧ r.WaitsInVain 60.0 .empty ∧
      r.id ∉ (((Fleet.new .standard).run (lostRun "racer")).update 60.0 .empty).value.ids ∧
      (((Fleet.new .standard).run (lostRun "racer")).update 60.0 .empty).value.events.count
        ⟨r.id, .destroyed .recoveryTimeout⟩ = 1 := by
  have hlength : ((Fleet.new .standard).run (lostRun "racer")).rigs.length = 1 := by decide +kernel
  have hexpires : ((Fleet.new .standard).run (lostRun "racer")).rigs.all
      (·.expires .standard 60.0 .empty) = true := by decide +kernel
  obtain ⟨hmissing, htold, -⟩ := run_update .standard (lostRun "racer") 60.0 .empty
  -- from here on the fleet must not be computed any more
  generalize (Fleet.new .standard).run (lostRun "racer") = f at hlength hexpires hmissing htold ⊢
  obtain ⟨r, hr⟩ := List.length_eq_one_iff.mp hlength
  have hmem : r ∈ f.rigs := by simp [hr]
  have hvain : r.WaitsInVain 60.0 .empty :=
    Rig.expires_iff.mp (List.all_eq_true.mp hexpires r hmem)
  exact ⟨r, hr, hvain, (hmissing r hmem).mpr hvain, (htold r hmem hvain).2⟩

end Fleet

end Skycam

import Skycam.Proofs.Fleet.Update

/-!
# A lost target that comes back

A rig that waits for its target looks for it by name, without regard to case, and takes the first
player of that name. So it comes back to the player it has lost, unless one comes before whose name
differs in case only, and it never goes to a player of another name.
-/

namespace Skycam

namespace Roster

/-- The entry is the first one whose name is the given one, without regard to case. -/
def FirstNamed (roster : Roster Float32) (name : String) (e : Entry) : Prop :=
  Text.lowercase e.username = Text.lowercase name ∧
    ∃ before after, roster.entries = before ++ e :: after ∧
      ∀ other ∈ before, Text.lowercase other.username ≠ Text.lowercase name

/-- A roster in which a player comes after one whose name differs in case only. -/
def namesakes : Roster Float32 :=
  ⟨[⟨"RACER", false, some ⟨2⟩⟩, ⟨"racer", false, some ⟨1⟩⟩],
    [(⟨⟨2⟩, .body⟩, Pose.identity), (⟨⟨1⟩, .body⟩, Pose.identity)]⟩

/-- A name without blank characters around it is looked up as it is. -/
theorem find?_eq_some_iff_firstNamed {roster : Roster Float32} {name : String} {e : Entry}
    (unpadded : Text.trimmed name = name) :
    roster.find? name = some e ↔ roster.FirstNamed name e := by
  simp [find?, FirstNamed, unpadded, List.find?_eq_some_iff_append]

end Roster

namespace Rig

variable {config : Config} {r : Rig} {username : String} {timer : RecoveryTimer Float32}
  {dt : Float32} {roster : Roster Float32}

/-- A look that is due and finds the target binds to it. -/
theorem pollRecovery_value_of_sighted (waits : r.target = .recovering username timer)
    (isDue : (timer.advance dt).1 ≠ .wait) {e : Entry} {handle : Handle} {pose : Pose Float32}
    (sighted : roster.sighted? username = some (e, handle, pose)) :
    (r.pollRecovery config dt roster).value =
      (r.rebound config username timer dt e handle pose, none) := by
  rw [pollRecovery_value_of_recovering waits, sighted]
  cases hdue : (timer.advance dt).1 with
  | wait => exact absurd hdue isDue
  | poll => rfl
  | final => rfl

/-- Only a player of the name that is waited for is bound. -/
theorem lowercase_eq_of_pollRecovery_bound (waits : r.target = .recovering username timer)
    (unpadded : Text.trimmed username = username) {name : String} {handle : Handle}
    {isLocal : Bool}
    (bound : (r.pollRecovery config dt roster).value.1.target = .bound name handle isLocal) :
    Text.lowercase name = Text.lowercase username := by
  rw [pollRecovery_value_of_recovering waits] at bound
  cases hsighted : roster.sighted? username with
  | none =>
    rw [hsighted] at bound
    cases hdue : (timer.advance dt).1 <;> simp [hdue, waited] at bound
  | some found =>
    obtain ⟨e, h, pose⟩ := found
    rw [hsighted] at bound
    have hname : e.username = name := by
      cases hdue : (timer.advance dt).1 <;>
        simp [hdue, waited, rebound, attached, emit] at bound <;> exact bound.1
    have hfound := (Roster.sighted?_eq_some_iff.mp hsighted).1
    rw [← hname]
    exact ((Roster.find?_eq_some_iff_firstNamed unpadded).mp hfound).1

/-- After its target was bound again, a rig goes on and tells of it first. -/
theorem aged_raises_of_rebound {e : Entry} {handle : Handle} {pose : Pose Float32}
    (hpoll : (r.pollRecovery config dt roster).value =
      (r.rebound config username timer dt e handle pose, none)) :
    ∃ later, (r.aged config dt roster).events = r.events ++
        [.targetBound e.username, .recovered username (timer.advance dt).2.clock] ++ later ∧
      ∀ change ∈ later, change.isBoundary = false := by
  obtain ⟨later, hraises⟩ :=
    (afterPoll_moves config dt roster (r.rebound config username timer dt e handle pose)).raises
  refine ⟨later, ?_, hraises.inner⟩
  have hbound : (r.rebound config username timer dt e handle pose).events = r.events ++
      [.targetBound e.username, .recovered username (timer.advance dt).2.clock] := by
    simp [rebound, waited, attached, emit]
  have haged : r.aged config dt roster = _ := congrArg Prod.fst (tick_value_of_poll_none hpoll)
  rw [haged, ← hbound]
  exact hraises.events

end Rig

namespace Fleet

/-- After every run, let a rig wait for a target whose name has no blank characters around it. When
a look is due and the first player of that name, without regard to case, can be followed, the look
binds the rig to that player, the update tells so before anything else that it brings about, and the
rig stays. No look binds the rig to a player whose name differs in more than case. -/
theorem run_recovery (config : Config) (ops : List (Operation × Roster Float32)) (r : Rig)
    (isOpen : r ∈ ((Fleet.new config).run ops).rigs) (username : String)
    (timer : RecoveryTimer Float32) (waits : r.target = .recovering username timer)
    (unpadded : Text.trimmed username = username) (dt : Float32) (roster : Roster Float32) :
    let f := (Fleet.new config).run ops
    let f' := (f.update dt roster).value
    let poll := (r.pollRecovery config dt roster).value
    (∀ e handle pose, (timer.advance dt).1 ≠ .wait → roster.FirstNamed username e →
        e.followHandle? = some handle → roster.pose? handle = some pose → pose.isFinite = true →
      poll.1.target = .bound e.username handle e.isLocal ∧ poll.2 = none ∧ r.id ∈ f'.ids ∧
        ∃ later, changesOf r.id f'.events = changesOf r.id f.pending ++ (r.events ++
            [.targetBound e.username, .recovered username (timer.advance dt).2.clock] ++ later) ∧
          ∀ reason, .destroyed reason ∉ later) ∧
      ∀ name handle isLocal, poll.1.target = .bound name handle isLocal →
        Text.lowercase name = Text.lowercase username := by
  intro f f' poll
  have hn : f.ids.Nodup := run_nodup config ops
  have hconfig : f.config = config := run_config config ops
  refine ⟨fun e handle pose isDue first hhandle hpose hfinite => ?_, fun _ _ _ bound =>
    Rig.lowercase_eq_of_pollRecovery_bound waits unpadded bound⟩
  have hfind : roster.find? username = some e :=
    (Roster.find?_eq_some_iff_firstNamed unpadded).mpr first
  have hsighted : roster.sighted? username = some (e, handle, pose) :=
    Roster.sighted?_eq_some_iff.mpr
      ⟨hfind, Roster.bindable?_eq_some_iff.mpr ⟨hhandle, hpose, hfinite⟩⟩
  have hpoll : poll = (r.rebound config username timer dt e handle pose, none) :=
    Rig.pollRecovery_value_of_sighted waits isDue hsighted
  have hstays : r.expires f.config dt roster = false := by
    rw [hconfig, Rig.expires, Rig.tick_value_of_poll_none hpoll]
    rfl
  obtain ⟨later, hevents, hinner⟩ := Rig.aged_raises_of_rebound hpoll
  refine ⟨by rw [hpoll]; rfl, by rw [hpoll], (mem_update_ids_iff hn dt roster isOpen).mpr hstays,
    later, ?_, Ledger.noEnd_of_inner hinner⟩
  rw [changesOf_update hn isOpen, hstays, hconfig, hevents]
  simp

/-- The lost target is found at the next look, and the rig stays. -/
theorem run_recovery_lone :
    ∃ r, ((Fleet.new .standard).run (lostRun "racer")).rigs = [r] ∧
      r.target = .recovering "racer" (.new 0.25 3.0) ∧
      (r.pollRecovery .standard 0.25 (.lone "racer")).value.1.target =
        .bound "racer" ⟨⟨1⟩, .body⟩ false ∧
      r.id ∈ (((Fleet.new .standard).run (lostRun "racer")).update 0.25
        (.lone "racer")).value.ids := by
  have htargets : ((Fleet.new .standard).run (lostRun "racer")).rigs.map (·.target) =
      [.recovering "racer" (.new 0.25 3.0)] := by decide +kernel
  obtain ⟨r, hrigs, hwaits⟩ := List.map_eq_singleton_iff.mp htargets
  have hopen : r ∈ ((Fleet.new .standard).run (lostRun "racer")).rigs := by
    rw [hrigs]
    exact List.mem_singleton_self r
  have hfirst : (Roster.lone "racer").FirstNamed "racer" ⟨"racer", false, some ⟨1⟩⟩ :=
    ⟨rfl, [], [], rfl, by simp⟩
  have hfollows := (run_recovery .standard (lostRun "racer") r hopen "racer" (.new 0.25 3.0) hwaits
    (by decide) 0.25 (.lone "racer")).1 ⟨"racer", false, some ⟨1⟩⟩ ⟨⟨1⟩, .body⟩ Pose.identity
    (by decide) hfirst rfl (by decide) (by decide)
  exact ⟨r, hrigs, hwaits, hfollows.1, hfollows.2.2.1⟩

/-- A player can fail to be found again. One whose name differs in case only may come first, and a
name that is listed with blank characters around it is looked up without them. -/
theorem pollRecovery_misses :
    (∃ r, ((Fleet.new .standard).run (lostRun "racer")).rigs = [r] ∧
      r.target = .recovering "racer" (.new 0.25 3.0) ∧
      ⟨"racer", false, some ⟨1⟩⟩ ∈ Roster.namesakes.entries ∧
      Roster.namesakes.bindable? ⟨"racer", false, some ⟨1⟩⟩ =
        some (⟨⟨1⟩, .body⟩, Pose.identity) ∧
      (r.pollRecovery .standard 0.25 .namesakes).value.1.target =
        .bound "RACER" ⟨⟨2⟩, .body⟩ false) ∧
    ∃ r, ((Fleet.new .standard).run (lostRun " racer")).rigs = [r] ∧
      r.target = .recovering " racer" (.new 0.25 3.0) ∧
      ⟨" racer", false, some ⟨1⟩⟩ ∈ (Roster.lone " racer").entries ∧
      (Roster.lone " racer").bindable? ⟨" racer", false, some ⟨1⟩⟩ =
        some (⟨⟨1⟩, .body⟩, Pose.identity) ∧
      (r.pollRecovery .standard 3.0 (.lone " racer")).value.2 = some .recoveryTimeout := by
  have hnamesake : ((Fleet.new .standard).run (lostRun "racer")).rigs.map
      (fun r => (r.target, (r.pollRecovery .standard 0.25 .namesakes).value.1.target)) =
      [(.recovering "racer" (.new 0.25 3.0), .bound "RACER" ⟨⟨2⟩, .body⟩ false)] := by
    decide +kernel
  have hpadded : ((Fleet.new .standard).run (lostRun " racer")).rigs.map
      (fun r => (r.target, (r.pollRecovery .standard 3.0 (.lone " racer")).value.2)) =
      [(.recovering " racer" (.new 0.25 3.0), some .recoveryTimeout)] := by
    decide +kernel
  obtain ⟨r, hr, hpoll⟩ := List.map_eq_singleton_iff.mp hnamesake
  obtain ⟨r', hr', hpoll'⟩ := List.map_eq_singleton_iff.mp hpadded
  rw [Prod.mk.injEq] at hpoll hpoll'
  exact ⟨⟨r, hr, hpoll.1, by decide, by decide, hpoll.2⟩,
    r', hr', hpoll'.1, by decide, by decide, hpoll'.2⟩

end Fleet

end Skycam

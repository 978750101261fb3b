import Skycam.Proofs.Fleet.Run

/-!
# Requests that are refused

A request that is refused leaves the fleet as it was, with all that waits in it, and one that
creates a rig does nothing else (`Fleet.perform_all_or_nothing`). So a refused request could as well
not have been made (`Chronicle.run_refused`).
-/

namespace Skycam

/-- A roster with one player, a remote one of the given name who is not there. -/
def Roster.ghost (username : String) : Roster Float32 := ⟨[⟨username, false, none⟩], []⟩

namespace Fleet

variable {f : Fleet} {op : Operation} {roster : Roster Float32}

theorem perform_refused {e : FleetError} (h : (f.perform op roster).value.2 = .refused e) :
    (f.perform op roster).value.1 = f := by
  cases op using Operation.byKind f.config f.display roster with
  | edit op id change hedit => exact (perform_edit hedit).unchanged h
  | spawn op id start hspawn => exact (perform_spawn hspawn).unchanged h
  | applyGroup | close | shutdownAll | setUiVisible | setDisplay | update => cases h

/-- An operation that answers that it made a rig has put that rig last and done nothing else. -/
theorem perform_created {id : RigId} (h : (f.perform op roster).value.2 = .created id) :
    ∃ start rig, op.spawn? = some (id, start) ∧ f.made? id start roster = some rig ∧
      (f.perform op roster).value.1 = f.add rig := by
  obtain ⟨start, hspawn⟩ := spawn?_of_created h
  have houtcome : f.Outcome ((f.made? id start roster).map f.add) (f.perform op roster).value :=
    perform_spawn hspawn
  cases hmade : f.made? id start roster with
  | none =>
    rw [hmade] at houtcome
    obtain ⟨e, hrefused⟩ := houtcome.refused_iff.mpr rfl
    rw [hrefused] at h
    cases h
  | some rig =>
    have hfleet := houtcome.fleet
    rw [hmade] at hfleet
    exact ⟨start, rig, hspawn, hmade, hfleet⟩

/-- An operation that is refused changes nothing. One that has created a rig has put it last, under
the name that it was asked for and that no rig had, and has changed nothing else. A request for a
new rig is refused just if no rig can be made, and a request to an open rig just if the rig is not
there or cannot be changed; else that rig takes the place of the one before, and nothing else
changes. -/
theorem perform_all_or_nothing (f : Fleet) (op : Operation) (roster : Roster Float32) :
    let after := (f.perform op roster).value
    (∀ e, after.2 = .refused e → after.1 = f) ∧
      (∀ id, after.2 = .created id → op.addressee? = some id ∧ f.contains id = false ∧
        ∃ rig, rig.id = id ∧ after.1 = { f with rigs := f.rigs ++ [rig] }) ∧
      (∀ id start, op.spawn? = some (id, start) →
        ((∃ e, after.2 = .refused e) ↔ f.made? id start roster = none)) ∧
      ∀ id change, op.edit? f.config f.display roster = some (id, change) →
        ((∃ e, after.2 = .refused e) ↔ (f.rig? id).bind change = none) ∧
          ∀ r, (f.rig? id).bind change = some r → after.1 = f.replace r := by
  intro after
  refine ⟨fun _ => perform_refused, fun id hcreated => ?_, fun id start hspawn => ?_,
    fun id change hedit => ⟨?_, fun r hr => ?_⟩⟩
  · obtain ⟨start, rig, hspawn, hmade, hfleet⟩ := perform_created hcreated
    obtain ⟨-, hnew, cinematic, hmoves⟩ := moves_of_made? hmade
    exact ⟨Operation.addressee?_of_spawn? hspawn, hnew, rig, hmoves.id_eq, hfleet⟩
  · rw [(perform_spawn hspawn).refused_iff, Option.map_eq_none_iff]
  · rw [(perform_edit hedit).refused_iff, edited?, Option.map_eq_none_iff]
  · have hfleet := (perform_edit hedit).fleet
    rw [edited?, hr] at hfleet
    exact hfleet

/-- A player without a live entity cannot be a target, but lets a cinematic rig be created. -/
theorem perform_all_or_nothing_ghost :
    let f := (Fleet.new .standard).run [(.create ⟨"cam"⟩ .cinematic, .ghost "racer")]
    let turned := (f.perform (.setTarget ⟨"cam"⟩ "racer") (.ghost "racer")).value
    let grown := (f.perform (.create ⟨"eye"⟩ .cinematic) (.ghost "racer")).value
    let locked := (f.perform (.setLocked ⟨"cam"⟩ true) (.ghost "racer")).value
    (turned.2 = .refused (.noValidTarget ⟨"cam"⟩) ∧ turned.1 = f) ∧
      (grown.2 = .created ⟨"eye"⟩ ∧ f.contains ⟨"eye"⟩ = false ∧
        ∃ rig, rig.id = ⟨"eye"⟩ ∧ grown.1 = { f with rigs := f.rigs ++ [rig] }) ∧
      ∃ r, f.rig? ⟨"cam"⟩ = some r ∧ locked.1 = f.replace (r.setLocked true) := by
  intro f turned grown locked
  have hrefused : turned.2 = .refused (.noValidTarget ⟨"cam"⟩) := rfl
  have hcreated : grown.2 = .created ⟨"eye"⟩ := rfl
  have hturned := (perform_all_or_nothing f (.setTarget ⟨"cam"⟩ "racer") (.ghost "racer")).1
  have hgrown := (perform_all_or_nothing f (.create ⟨"eye"⟩ .cinematic) (.ghost "racer")).2.1
  have hlocked := (perform_all_or_nothing f (.setLocked ⟨"cam"⟩ true) (.ghost "racer")).2.2.2
  exact ⟨⟨hrefused, hturned _ hrefused⟩, ⟨hcreated, (hgrown _ hcreated).2⟩,
    _, rfl, (hlocked _ _ rfl).2 _ rfl⟩

end Fleet

namespace Chronicle

variable {c : Chronicle} {op : Operation} {roster : Roster Float32} {e : FleetError}

/-- What is refused leaves no trace in the chronicle. -/
theorem perform_refused (h : (c.fleet.perform op roster).value.2 = .refused e) :
    c.perform op roster = c := by
  have hfleet : (c.fleet.perform op roster).value.1 = c.fleet := Fleet.perform_refused h
  have hsilent : (∀ f', op.tells f' = []) ∧ ∀ f f', op.ends f f' = [] := by
    cases op using Operation.byKind c.fleet.config c.fleet.display roster with
    | edit op id change hedit => exact Operation.silent_of_edit? hedit
    | spawn op id start hspawn => exact Operation.silent_of_spawn? hspawn
    | applyGroup | close | shutdownAll | setUiVisible | setDisplay | update => cases h
  obtain ⟨htells, hends⟩ := hsilent
  unfold perform
  dsimp only
  rw [hfleet, htells, hends, List.append_nil, List.append_nil]

/-- A request that is refused could as well not have been made: whatever was asked before and
whatever is asked later, the fleet, what is told and which rigs end are the same without it. -/
theorem run_refused (before after : List (Operation × Roster Float32))
    (h : ((c.run before).fleet.perform op roster).value.2 = .refused e) :
    c.run (before ++ (op, roster) :: after) = c.run (before ++ after) := by
  have hsplit : c.run (before ++ (op, roster) :: after) =
      ((c.run before).perform op roster).run after := by
    simp [run]
  rw [hsplit, perform_refused h]
  simp [run]

end Chronicle

end Skycam

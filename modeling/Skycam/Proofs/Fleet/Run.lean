import Skycam.Proofs.Fleet.Perform

/-!
# Runs

A run is a list of operations, each performed with the roster of its moment. Its chronicle keeps,
besides the fleet, what the updates have told and which rigs have ended. The ledger of a chronicle
moves by steps, so what holds of the empty ledger and is kept by each step holds after every run
(`Chronicle.run_keeps`).
-/

namespace Skycam

/-- The fleet after a run. -/
def Fleet.run (f : Fleet) (ops : List (Operation × Roster Float32)) : Fleet :=
  ops.foldl (fun f (op, roster) => (f.perform op roster).value.1) f

/-- A fleet and the record of the run that led to it. -/
structure Chronicle where
  /-- The fleet. -/
  fleet : Fleet
  /-- The events that the updates have told, oldest first. -/
  told : List Event
  /-- The rigs that are gone, in the order of their ends. -/
  endings : List Ending

namespace Chronicle

/-- The chronicle of a fleet to which nothing has happened. -/
def start (config : Config) : Chronicle := ⟨Fleet.new config, [], []⟩

/-- The chronicle after one more operation. -/
def perform (c : Chronicle) (op : Operation) (roster : Roster Float32) : Chronicle :=
  let after := (c.fleet.perform op roster).value.1
  ⟨after, c.told ++ op.tells after, c.endings ++ op.ends c.fleet after⟩

/-- The chronicle after a run. -/
def run (c : Chronicle) (ops : List (Operation × Roster Float32)) : Chronicle :=
  ops.foldl (fun c (op, roster) => c.perform op roster) c

/-- The ledger of a chronicle. -/
def ledger (c : Chronicle) : Ledger := c.fleet.ledger c.told c.endings

variable {c : Chronicle}

theorem run_concat (ops : List (Operation × Roster Float32)) (op : Operation)
    (roster : Roster Float32) : c.run (ops ++ [(op, roster)]) = (c.run ops).perform op roster := by
  simp [run]

/-- The fleet of a chronicle does not depend on what was recorded. -/
theorem run_fleet (ops : List (Operation × Roster Float32)) :
    (c.run ops).fleet = c.fleet.run ops := by
  induction ops generalizing c with
  | nil => rfl
  | cons step rest ih =>
    obtain ⟨op, roster⟩ := step
    exact ih

theorem perform_steps (hn : c.ledger.ids.Nodup) (op : Operation) (roster : Roster Float32) :
    Ledger.Steps c.ledger (c.perform op roster).ledger :=
  Fleet.perform_leads hn op roster c.told c.endings

/-- By induction on the run, a run is a sequence of steps of the ledger. -/
theorem run_steps (hn : c.ledger.ids.Nodup) (ops : List (Operation × Roster Float32)) :
    Ledger.Steps c.ledger (c.run ops).ledger := by
  induction ops generalizing c with
  | nil => exact .refl
  | cons step rest ih =>
    obtain ⟨op, roster⟩ := step
    have hstep := perform_steps hn op roster
    exact hstep.trans (ih (hstep.nodup hn))

theorem start_nodup (config : Config) : (start config).ledger.ids.Nodup := List.nodup_nil

/-- What holds at the start and is kept by each step holds after every run. -/
theorem run_keeps {Kept : Ledger → Prop} (step : ∀ l l', Ledger.Step l l' → Kept l → Kept l')
    {config : Config} (hstart : Kept (start config).ledger)
    (ops : List (Operation × Roster Float32)) : Kept ((start config).run ops).ledger :=
  (run_steps (start_nodup config) ops).keep step hstart

theorem run_config (config : Config) (ops : List (Operation × Roster Float32)) :
    ((start config).run ops).fleet.config = config :=
  (run_steps (start_nodup config) ops).config_eq

end Chronicle

namespace Fleet

variable (config : Config) (ops : List (Operation × Roster Float32))

/-- What holds at the start and is kept by each step holds of the rigs and the waiting events of the
fleet after every run. -/
theorem run_keeps {Kept : Ledger → Prop} (step : ∀ l l', Ledger.Step l l' → Kept l → Kept l')
    (hstart : Kept (Chronicle.start config).ledger) :
    ∃ told endings, Kept (((Fleet.new config).run ops).ledger told endings) := by
  have hkept := Chronicle.run_keeps step hstart ops
  unfold Chronicle.ledger at hkept
  rw [Chronicle.run_fleet] at hkept
  exact ⟨_, _, hkept⟩

/-- After every run no two rigs have the same name. -/
theorem run_nodup : ((Fleet.new config).run ops).ids.Nodup := by
  obtain ⟨told, endings, hn⟩ :=
    run_keeps config ops (fun _ _ => Ledger.Step.nodup) (Chronicle.start_nodup config)
  exact hn

theorem run_config : ((Fleet.new config).run ops).config = config := by
  have hconfig := Chronicle.run_config config ops
  rwa [Chronicle.run_fleet] at hconfig

end Fleet

/-- A roster with one player, a remote one of the given name who can be followed. -/
def Roster.lone (username : String) : Roster Float32 :=
  ⟨[⟨username, false, some ⟨1⟩⟩], [(⟨⟨1⟩, .body⟩, Pose.identity)]⟩

/-- A run after which a rig waits for a player of the given name. -/
def Fleet.lostRun (username : String) : List (Operation × Roster Float32) :=
  [(.create ⟨"cam"⟩ .follow, .lone username), (.update 0.5, .empty)]

end Skycam

import Skycam.Proofs.Fleet.Update

/-!
# The order in which events are told

Between two updates the events of an open rig wait in the rig and those of a closed one in the list
of its fleet. What waits under one name only grows at its end, so each name is told of in the order
in which things happened. Across names that is not so: an update tells of the closed rigs first, in
the order in which they were closed, then of the open ones in the order of their creation, and then
which of these have waited in vain (`Fleet.run_tellsInTurn`).
-/

namespace Skycam

/-! ## What waits -/

/-- The events that wait to be told. -/
def Fleet.waiting (f : Fleet) : List Event := f.pending ++ f.rigs.flatMap (·.deliveries)

namespace Ledger

/-- The events that wait to be told. -/
def waiting (l : Ledger) : List Event := l.pending ++ l.rigs.flatMap (·.deliveries)

/-- More events may wait, under each name behind those before, and those of closed rigs behind the
earlier ones. -/
structure Grows (l l' : Ledger) : Prop where
  byName : ∀ id, changesOf id l.waiting <+: changesOf id l'.waiting
  closed : l.pending <+: l'.pending

variable {l l' : Ledger}

theorem Grows.refl (l : Ledger) : l.Grows l := ⟨fun _ => List.prefix_rfl, List.prefix_rfl⟩

theorem Grows.trans {l'' : Ledger} (h : l.Grows l') (h' : l'.Grows l'') : l.Grows l'' :=
  ⟨fun id => (h.byName id).trans (h'.byName id), h.closed.trans h'.closed⟩

/-- Under the name of an open rig its events wait behind those of the closed rigs of that name. -/
theorem changesOf_waiting_of_mem (hn : l.ids.Nodup) {r : Rig} (hr : r ∈ l.rigs) :
    changesOf r.id l.waiting = changesOf r.id l.pending ++ r.events := by
  rw [waiting, changesOf_append, changesOf_flatMap_of_mem hn hr]

theorem changesOf_waiting_of_notMem {id : RigId} (hid : id ∉ l.ids) :
    changesOf id l.waiting = changesOf id l.pending := by
  rw [waiting, changesOf_append, changesOf_flatMap_of_notMem hid, List.append_nil]

/-- Moves add events behind those that wait in the rigs. -/
theorem grows_move (hn : l.ids.Nodup) {rigs : List Rig}
    (moves : List.Forall₂ (Rig.Moves l.config) l.rigs rigs) : l.Grows { l with rigs } := by
  have hids : rigs.map (·.id) = l.ids := map_id_eq_of_moves moves
  have hn' : ids { l with rigs } = l.ids := hids
  refine ⟨fun id => ?_, List.prefix_rfl⟩
  by_cases hid : id ∈ l.ids
  · obtain ⟨r', hr', rfl⟩ := List.mem_map.mp (hids ▸ hid)
    obtain ⟨r, hr, hmoves⟩ := exists_moves_of_mem moves hr'
    obtain ⟨changes, hraises⟩ := hmoves.raises
    have hbefore := changesOf_waiting_of_mem hn hr
    rw [← hraises.id] at hbefore
    have hafter : changesOf r'.id (waiting { l with rigs }) = _ :=
      changesOf_waiting_of_mem (by rwa [hn']) hr'
    rw [hbefore, hafter, hraises.events, ← List.append_assoc]
    exact List.prefix_append _ _
  · have hafter : changesOf id (waiting { l with rigs }) = changesOf id l.pending :=
      changesOf_waiting_of_notMem (by rwa [hn'])
    have hsame := hafter.trans (changesOf_waiting_of_notMem hid).symm
    exact hsame ▸ List.prefix_rfl

/-- The events of a rig that is closed wait on, with its end behind them. -/
theorem grows_close (hn : l.ids.Nodup) {rig : Rig} (hrig : rig ∈ l.rigs) (reason : DestroyReason) :
    l.Grows (l.close rig reason) := by
  refine ⟨fun id => ?_, List.prefix_append _ _⟩
  by_cases hid : rig.id = id
  · subst hid
    have hgone : rig.id ∉ (l.close rig reason).ids := by simp [ids, Ledger.close, rigsBut]
    have hended : changesOf rig.id (rig.ended reason).deliveries =
        rig.events ++ [.destroyed reason] := changesOf_deliveries_self (rig.ended reason)
    have hpending : (l.close rig reason).pending = l.pending ++ (rig.ended reason).deliveries := rfl
    rw [changesOf_waiting_of_mem hn hrig, changesOf_waiting_of_notMem hgone, hpending,
      changesOf_append, hended, ← List.append_assoc]
    exact List.prefix_append _ _
  · have hended : changesOf id (rig.ended reason).deliveries = [] := changesOf_deliveries_ne hid
    have hrest : changesOf id ((l.rigsBut [rig.id]).flatMap (·.deliveries)) =
        changesOf id (l.rigs.flatMap (·.deliveries)) := changesOf_flatMap_but hid
    have hafter : changesOf id (l.close rig reason).waiting = changesOf id l.waiting := by
      show changesOf id ((l.pending ++ (rig.ended reason).deliveries) ++
        (l.rigsBut [rig.id]).flatMap (·.deliveries)) = _
      rw [changesOf_append, changesOf_append, hended, hrest, List.append_nil, waiting,
        changesOf_append]
    exact hafter ▸ List.prefix_rfl

/-- As long as nothing is told, what waits only grows. -/
theorem Step.grows (h : Step l l') (hn : l.ids.Nodup) (htold : l'.told = l.told) : l.Grows l' := by
  cases h with
  | move rigs moves => exact grows_move hn moves
  | spawn id cinematic rig notBlank isNew moves =>
    have hwaiting : waiting { l with rigs := l.rigs ++ [rig] } = l.waiting ++ rig.deliveries := by
      simp [waiting]
    refine ⟨fun id => ?_, List.prefix_rfl⟩
    rw [hwaiting, changesOf_append]
    exact List.prefix_append _ _
  | close rig reason isOpen onDemand => exact grows_close hn isOpen reason
  | expire rig isOpen noneWaits =>
    have hnone : (rig.ended .recoveryTimeout).deliveries = [] := List.append_right_eq_self.mp htold
    simp [Rig.deliveries, Rig.ended, Rig.emit] at hnone
  | deliver =>
    have hnone : l.pending ++ l.rigs.flatMap (·.deliveries) = [] := by
      have hall : l.told ++ (l.pending ++ l.rigs.flatMap (·.deliveries)) = l.told := by
        rw [← List.append_assoc]
        exact htold
      exact List.append_right_eq_self.mp hall
    have hwaiting : l.waiting = [] := hnone
    have hpending : l.pending = [] := (List.append_eq_nil_iff.mp hnone).1
    refine ⟨fun id => ?_, ?_⟩
    · rw [hwaiting]
      exact List.nil_prefix
    · rw [hpending]
      exact List.nil_prefix

/-- What was told stays told. -/
theorem Step.told_prefix (h : Step l l') : l.told <+: l'.told := by
  cases h with
  | move | spawn | close => exact List.prefix_rfl
  | expire => exact List.prefix_append _ _
  | deliver =>
    show l.told <+: l.told ++ l.pending ++ l.rigs.flatMap (·.deliveries)
    rw [List.append_assoc]
    exact List.prefix_append _ _

/-- As long as nothing is told, events only come behind those that wait. -/
theorem Steps.grows (h : Steps l l') (hn : l.ids.Nodup) (htold : l'.told = l.told) :
    l.Grows l' := by
  -- what was told only grows, so if it is the same at the end it was the same all the way
  have hkept : l'.ids.Nodup ∧ l.told <+: l'.told ∧ (l'.told = l.told → l.Grows l') := by
    clear htold
    induction h with
    | refl => exact ⟨hn, List.prefix_rfl, fun _ => .refl l⟩
    | @tail m m' _ hstep ih =>
      obtain ⟨hnodup, htold, hgrows⟩ := ih
      refine ⟨hstep.nodup hnodup, htold.trans hstep.told_prefix, fun hsame => ?_⟩
      have hmiddle : m.told = l.told := by
        have hle : m.told.length ≤ l.told.length := by
          rw [← hsame]
          exact hstep.told_prefix.length_le
        exact (htold.eq_of_length_le hle).symm
      exact (hgrows hmiddle).trans (hstep.grows hnodup (hsame.trans hmiddle.symm))
  exact hkept.2.2 htold

end Ledger

namespace Fleet

variable {f : Fleet} {dt : Float32} {roster : Roster Float32}

/-- There is no update among the operations of a run. -/
def Silent (ops : List (Operation × Roster Float32)) : Prop :=
  ∀ step ∈ ops, ∀ dt, step.1 ≠ .update dt

instance (ops : List (Operation × Roster Float32)) : Decidable (Silent ops) :=
  decidable_of_iff (∀ step ∈ ops, (match step.1 with | .update _ => false | _ => true) = true) <| by
    refine forall₂_congr fun step _ => ?_
    cases step.1 <;> simp

/-- None of the operations between two updates tells anything. -/
theorem Silent.tells {ops : List (Operation × Roster Float32)} (h : Silent ops)
    {step : Operation × Roster Float32} (hstep : step ∈ ops) (f : Fleet) :
    step.1.tells f = [] := by
  have hne := h step hstep
  cases hop : step.1 with
  | update dt => exact absurd hop (hne dt)
  | _ => rfl

/-- By induction on the run, events only come behind those that wait until the next update. -/
theorem run_grows {later : List (Operation × Roster Float32)} (hn : f.ids.Nodup)
    (h : Silent later) : (f.ledger [] []).Grows ((f.run later).ledger [] []) := by
  induction later generalizing f with
  | nil => exact .refl _
  | cons step rest ih =>
    let f' := (f.perform step.1 step.2).value.1
    have hsteps := perform_leads hn step.1 step.2 [] []
    rw [h.tells List.mem_cons_self, List.append_nil] at hsteps
    obtain ⟨hbyName, hclosed⟩ := hsteps.grows hn rfl
    have hfirst : (f.ledger [] []).Grows (f'.ledger [] []) := ⟨hbyName, hclosed⟩
    have hrest : Silent rest := fun other hother => h other (List.mem_cons_of_mem _ hother)
    exact hfirst.trans (ih (hsteps.nodup hn) hrest)

/-- What an update tells, in order: what waits of closed rigs, what waits of each open rig and what
the step of time brings about there, and the ends of the rigs that have waited in vain. -/
theorem update_events_eq (f : Fleet) (dt : Float32) (roster : Roster Float32) :
    ∃ now : Rig → List RigChange, (∀ r, ∀ change ∈ now r, change.isBoundary = false) ∧
      (f.update dt roster).value.events =
        f.pending ++ (f.rigs.flatMap fun r => r.deliveries ++ (now r).map (⟨r.id, ·⟩)) ++
          (f.rigs.filter (·.expires f.config dt roster)).map
            fun r => ⟨r.id, .destroyed .recoveryTimeout⟩ := by
  have hraises : ∀ r : Rig, ∃ now : List RigChange,
      (∀ change ∈ now, change.isBoundary = false) ∧
        (r.aged f.config dt roster).deliveries = r.deliveries ++ now.map (⟨r.id, ·⟩) := by
    intro r
    obtain ⟨now, hnow⟩ := (Rig.aged_moves f.config dt roster r).raises
    refine ⟨now, hnow.inner, ?_⟩
    rw [Rig.deliveries, Rig.deliveries, hnow.id, hnow.events, List.map_append]
  choose now hinner hdeliveries using hraises
  have hended : ∀ r : Rig,
      ((r.aged f.config dt roster).delivered.ended .recoveryTimeout).deliveries =
        [⟨r.id, .destroyed .recoveryTimeout⟩] := by
    intro r
    simp [Rig.deliveries, Rig.ended, Rig.emit, Rig.delivered]
  refine ⟨now, hinner, ?_⟩
  rw [update_events, expired, List.flatMap_map]
  simp only [hdeliveries, hended]
  rw [List.map_eq_flatMap]

/-- An update tells, under each name, first what has waited. -/
theorem waiting_prefix_update (hn : f.ids.Nodup) (dt : Float32) (roster : Roster Float32)
    (id : RigId) : changesOf id f.waiting <+: changesOf id (f.update dt roster).value.events := by
  by_cases hid : id ∈ f.ids
  · obtain ⟨r, hr, rfl⟩ := List.mem_map.mp hid
    obtain ⟨now, hnow⟩ := (Rig.aged_moves f.config dt roster r).raises
    have hwaiting : changesOf r.id f.waiting = changesOf r.id f.pending ++ r.events :=
      Ledger.changesOf_waiting_of_mem (l := f.ledger [] []) hn hr
    rw [hwaiting, changesOf_update hn hr, hnow.events, ← List.append_assoc, List.append_assoc]
    exact List.prefix_append _ _
  · have hwaiting : changesOf id f.waiting = changesOf id f.pending :=
      Ledger.changesOf_waiting_of_notMem (l := f.ledger [] []) hid
    rw [hwaiting, update_events, List.append_assoc, changesOf_append]
    exact List.prefix_append _ _

/-- If there is no update among the operations `later`, the update after them tells under each name
of what waited before them and behind it of what they raise, in the order in which they raise it.
Across names it tells of the closed rigs first, in the order in which they were closed, then of the
open ones in the order of their creation, each with what the step of time brings about there, and
then of the ends of those that have waited in vain. -/
theorem run_tellsInTurn (config : Config) (ops later : List (Operation × Roster Float32))
    (hlater : Silent later) (dt : Float32) (roster : Roster Float32) :
    let f := (new config).run ops
    let g := f.run later
    let told := (g.update dt roster).value.events
    (∀ id, changesOf id f.waiting <+: changesOf id g.waiting ∧
      changesOf id g.waiting <+: changesOf id told) ∧
    f.pending <+: g.pending ∧
    ∃ now : Rig → List RigChange, (∀ r, ∀ change ∈ now r, change.isBoundary = false) ∧
      told = g.pending ++ (g.rigs.flatMap fun r => r.deliveries ++ (now r).map (⟨r.id, ·⟩)) ++
        (g.rigs.filter (·.expires g.config dt roster)).map
          fun r => ⟨r.id, .destroyed .recoveryTimeout⟩ := by
  intro f g told
  have hn : f.ids.Nodup := run_nodup config ops
  have hgrows : (f.ledger [] []).Grows (g.ledger [] []) := run_grows hn hlater
  have hn' : g.ids.Nodup := by
    have happend : g = (new config).run (ops ++ later) := (List.foldl_append ..).symm
    rw [happend]
    exact run_nodup config _
  refine ⟨fun id => ⟨hgrows.byName id, waiting_prefix_update hn' dt roster id⟩, hgrows.closed, ?_⟩
  exact g.update_events_eq dt roster

/-- Two rigs, the creation of which was told. -/
def twoRigs : List (Operation × Roster Float32) :=
  [(.create ⟨"a"⟩ .cinematic, .lone "racer"), (.create ⟨"b"⟩ .cinematic, .lone "racer"),
    (.update 0.0, .lone "racer")]

/-- The follow mode of a rig is changed. -/
def turnStrict (id : RigId) : Operation × Roster Float32 := (.setFollowMode id "strict", .empty)

/-- Each of two rigs is given another follow mode between two updates, the second one first. -/
theorem run_tellsInTurn_twoRigs :
    Silent [turnStrict ⟨"b"⟩, turnStrict ⟨"a"⟩] ∧
    let f := (new .standard).run twoRigs
    let g := f.run [turnStrict ⟨"b"⟩, turnStrict ⟨"a"⟩]
    let told := (g.update 0.0 .empty).value.events
    (∀ id, changesOf id f.waiting <+: changesOf id g.waiting ∧
      changesOf id g.waiting <+: changesOf id told) ∧
    f.pending <+: g.pending ∧
    ∃ now : Rig → List RigChange, (∀ r, ∀ change ∈ now r, change.isBoundary = false) ∧
      told = g.pending ++ (g.rigs.flatMap fun r => r.deliveries ++ (now r).map (⟨r.id, ·⟩)) ++
        (g.rigs.filter (·.expires g.config 0.0 .empty)).map
          fun r => ⟨r.id, .destroyed .recoveryTimeout⟩ := by
  have hlater : Silent [turnStrict ⟨"b"⟩, turnStrict ⟨"a"⟩] := by decide
  exact ⟨hlater, run_tellsInTurn .standard twoRigs _ hlater 0.0 .empty⟩

/-- Of two open rigs, what happened to the one that was created first is told first, even if it
happened last. -/
theorem run_tellsOutOfTurn :
    let f := (new .standard).run twoRigs
    f.waiting = [] ∧
      (f.run [turnStrict ⟨"b"⟩]).waiting = [⟨⟨"b"⟩, .followModeChanged .strict⟩] ∧
      ((f.run [turnStrict ⟨"b"⟩, turnStrict ⟨"a"⟩]).update 0.0 .empty).value.events =
        [⟨⟨"a"⟩, .followModeChanged .strict⟩, ⟨⟨"b"⟩, .followModeChanged .strict⟩] := by
  decide +kernel

end Fleet

end Skycam

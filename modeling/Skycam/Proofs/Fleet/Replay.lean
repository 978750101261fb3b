import Skycam.Proofs.Fleet.Lifecycle

/-!
# A host that sees the events knows the fleet

A host that takes note of each event that an update tells, in turn, knows all open rigs in the order
of their creation, each with its target, its follow mode and the size of its surface. While events
wait, the host is behind: of the rigs whose creation it was told it has an earlier sighting, which
the waiting events bring up to date, and it knows nothing of the rigs that come after them. Every
step keeps this (`Ledger.Step.mirrored`), and after an update nothing waits.
-/

namespace Skycam

/-- What a host knows after one more event. -/
def observe (config : Config) (seen : List Sighting) (e : Event) : List Sighting :=
  match e.change with
  | .created _ => seen ++ [.fresh config e.rig]
  | .destroyed _ => seen.filter (·.rig ≠ e.rig)
  | change => seen.map fun s => if s.rig = e.rig then s.note change else s

/-- What a host knows after some events. -/
def replay (config : Config) (events : List Event) : List Sighting :=
  events.foldl (observe config) []

/-- The events that wait in a rig bring a sighting of it up to date. -/
structure Sighting.Awaits (s : Sighting) (r : Rig) : Prop where
  /-- It is a sighting of that rig. -/
  rig : s.rig = r.id
  /-- The rig was created before, and is still there. -/
  inner : ∀ change ∈ r.events, change.isBoundary = false
  /-- The events tell all that has changed since. -/
  sighting : r.sighting = r.events.foldl Sighting.note s

/-- The creation of the rig was not told yet, and the events after it bring what a new rig shows up
to date. -/
def Rig.Unannounced (config : Config) (r : Rig) : Prop :=
  ∃ cinematic changes, r.events = .created cinematic :: changes ∧
    (∀ change ∈ changes, change.isBoundary = false) ∧
    r.sighting = changes.foldl Sighting.note (.fresh config r.id)

/-- A host that has these sightings is behind these rigs only by the events that wait in them. -/
inductive Mirrors (config : Config) : List Sighting → List Rig → Prop where
  /-- Of the last rigs the host knows nothing, since their creation was not told yet. -/
  | unannounced (rigs : List Rig) (isNew : ∀ r ∈ rigs, r.Unannounced config) :
      Mirrors config [] rigs
  /-- Of a rig before them the host has an earlier sighting. -/
  | known {seen : List Sighting} {rigs : List Rig} (s : Sighting) (r : Rig) (awaits : s.Awaits r)
      (rest : Mirrors config seen rigs) : Mirrors config (s :: seen) (r :: rigs)

variable {config : Config} {seen : List Sighting} {rigs rigs' : List Rig} {r r' : Rig}

/-! ## One rig -/

/-- Each move adds the events that bring what was seen of the rig up to date. -/
theorem Sighting.Awaits.moves {s : Sighting} (h : s.Awaits r) (hmoves : Rig.Moves config r r') :
    s.Awaits r' := by
  obtain ⟨changes, hraises⟩ := hmoves.raises
  refine ⟨h.rig.trans hraises.id.symm, ?_, ?_⟩
  · intro change hchange
    rw [hraises.events] at hchange
    rcases List.mem_append.mp hchange with hbefore | hnow
    · exact h.inner change hbefore
    · exact hraises.inner change hnow
  · rw [hraises.sighting, hraises.events, List.foldl_append, h.sighting]

/-- A rig that was not told yet can move before it is. -/
theorem Rig.Unannounced.moves (h : r.Unannounced config) (hmoves : Rig.Moves config r r') :
    r'.Unannounced config := by
  obtain ⟨cinematic, changes, hevents, hinner, hsighting⟩ := h
  obtain ⟨more, hraises⟩ := hmoves.raises
  refine ⟨cinematic, changes ++ more, ?_, ?_, ?_⟩
  · rw [hraises.events, hevents, List.cons_append]
  · intro change hchange
    rcases List.mem_append.mp hchange with hbefore | hnow
    · exact hinner change hbefore
    · exact hraises.inner change hnow
  · rw [hraises.sighting, hsighting, hraises.id, List.foldl_append]

theorem Rig.new_unannounced (config : Config) (id : RigId) (cinematic : Bool) :
    (Rig.new config id cinematic).Unannounced config :=
  ⟨cinematic, [], rfl, by simp, new_sighting id cinematic⟩

theorem observe_inner {change : RigChange} (h : change.isBoundary = false) (id : RigId) :
    observe config seen ⟨id, change⟩ =
      seen.map fun s => if s.rig = id then s.note change else s := by
  cases change <;> first | rfl | cases h

/-- Several events in the life of a rig change what was seen of that rig only, one after the
other. -/
theorem foldl_observe_inner {changes : List RigChange}
    (h : ∀ change ∈ changes, change.isBoundary = false) (id : RigId) :
    (changes.map (⟨id, ·⟩)).foldl (observe config) seen =
      seen.map fun s => if s.rig = id then changes.foldl Sighting.note s else s := by
  induction changes generalizing seen with
  | nil => simp
  | cons change rest ih =>
    have hrest : ∀ other ∈ rest, other.isBoundary = false :=
      fun other hother => h other (List.mem_cons_of_mem _ hother)
    rw [List.map_cons, List.foldl_cons, observe_inner (h change List.mem_cons_self), ih hrest,
      List.map_map]
    refine List.map_congr_left fun s _ => ?_
    by_cases hs : s.rig = id <;> simp [hs]

/-- Whatever is told of one rig, the host knows the same about the others. -/
theorem filter_observe (config : Config) (seen : List Sighting) (e : Event) :
    (observe config seen e).filter (·.rig ≠ e.rig) = seen.filter (·.rig ≠ e.rig) := by
  obtain ⟨id, change⟩ := e
  cases change
  case created cinematic => simp [observe, Sighting.fresh]
  case destroyed reason => simp [observe]
  all_goals
    rw [observe_inner rfl]
    induction seen with
    | nil => rfl
    | cons s rest ih =>
      by_cases hs : s.rig = id
      · simpa [hs] using ih
      · simpa [hs] using ih

/-- The events of one rig leave what was seen of the others. -/
theorem filter_foldl_observe (changes : List RigChange) (id : RigId) :
    ((changes.map (⟨id, ·⟩)).foldl (observe config) seen).filter (·.rig ≠ id) =
      seen.filter (·.rig ≠ id) := by
  induction changes generalizing seen with
  | nil => rfl
  | cons change rest ih =>
    rw [List.map_cons, List.foldl_cons, ih]
    exact filter_observe config seen ⟨id, change⟩

/-- Once the end of a rig is told, the host knows of the other rigs only. -/
theorem foldl_observe_ended (reason : DestroyReason) :
    (r.ended reason).deliveries.foldl (observe config) seen = seen.filter (·.rig ≠ r.id) := by
  have hdeliveries : (r.ended reason).deliveries =
      r.events.map (⟨r.id, ·⟩) ++ [⟨r.id, .destroyed reason⟩] := by
    simp [Rig.deliveries, Rig.ended, Rig.emit]
  rw [hdeliveries, List.foldl_append]
  exact filter_foldl_observe r.events r.id

/-! ## All rigs -/

/-- The host stays behind only by the events that wait when rigs move. -/
theorem Mirrors.moves (h : Mirrors config seen rigs)
    (hmoves : List.Forall₂ (Rig.Moves config) rigs rigs') : Mirrors config seen rigs' := by
  induction h generalizing rigs' with
  | unannounced rigs isNew =>
    refine .unannounced rigs' fun r' hr' => ?_
    obtain ⟨r, hr, hrig⟩ := Ledger.exists_moves_of_mem hmoves hr'
    exact (isNew r hr).moves hrig
  | known s r awaits rest ih =>
    cases hmoves with
    | cons hrig hrest => exact .known s _ (awaits.moves hrig) (ih hrest)

/-- A new rig waits to be told at the end of the fleet. -/
theorem Mirrors.spawn (h : Mirrors config seen rigs) (hr : r.Unannounced config) :
    Mirrors config seen (rigs ++ [r]) := by
  induction h with
  | unannounced rigs isNew =>
    refine .unannounced _ fun other hother => ?_
    rcases List.mem_append.mp hother with hold | hnew
    · exact isNew other hold
    · rwa [List.mem_singleton.mp hnew]
  | known s first awaits rest ih => exact .known s first awaits ih

/-- To take the sighting and the rig of a name away leaves the others in step. -/
theorem Mirrors.remove (h : Mirrors config seen rigs) (id : RigId) :
    Mirrors config (seen.filter (·.rig ≠ id)) (rigs.filter (·.id ∉ [id])) := by
  induction h with
  | unannounced rigs isNew =>
    exact .unannounced _ fun other hother => isNew other (List.mem_filter.mp hother).1
  | known s r awaits rest ih =>
    by_cases hr : r.id = id
    · simpa [awaits.rig, hr] using ih
    · simpa [awaits.rig, hr] using Mirrors.known s r awaits (by simpa using ih)

/-- The host sees no rig that is not open. -/
theorem Mirrors.rig_mem (h : Mirrors config seen rigs) :
    ∀ s ∈ seen, s.rig ∈ rigs.map (·.id) := by
  induction h with
  | unannounced rigs isNew => simp
  | known s r awaits rest ih =>
    intro t ht
    rcases List.mem_cons.mp ht with rfl | ht
    · exact List.mem_cons.mpr (Or.inl awaits.rig)
    · exact List.mem_cons_of_mem _ (ih t ht)

theorem map_note_eq_self {changes : List RigChange} {id : RigId}
    (h : ∀ s ∈ seen, s.rig ≠ id) :
    (seen.map fun s => if s.rig = id then changes.foldl Sighting.note s else s) = seen := by
  refine (List.map_congr_left fun s hs => ?_).trans (List.map_id seen)
  simp [h s hs]

/-- The rigs that were not told yet appear in the order of the fleet, as they are by now. -/
theorem foldl_observe_unannounced (hn : (rigs.map (·.id)).Nodup)
    (hisNew : ∀ r ∈ rigs, r.Unannounced config) (hseen : ∀ s ∈ seen, s.rig ∉ rigs.map (·.id)) :
    (rigs.flatMap (·.deliveries)).foldl (observe config) seen = seen ++ rigs.map (·.sighting) := by
  induction rigs generalizing seen with
  | nil => simp
  | cons r rest ih =>
    obtain ⟨hr, hrest⟩ := List.nodup_cons.mp hn
    obtain ⟨cinematic, changes, hevents, hinner, hsighting⟩ := hisNew r List.mem_cons_self
    have hdeliveries : r.deliveries = ⟨r.id, .created cinematic⟩ :: changes.map (⟨r.id, ·⟩) := by
      simp [Rig.deliveries, hevents]
    have hothers : ∀ s ∈ seen, s.rig ≠ r.id := fun s hs hsame =>
      hseen s hs (by simp [hsame])
    have hone : r.deliveries.foldl (observe config) seen = seen ++ [r.sighting] := by
      rw [hdeliveries, List.foldl_cons, foldl_observe_inner hinner]
      simp [observe, map_note_eq_self hothers, hsighting, Sighting.fresh]
    rw [List.flatMap_cons, List.foldl_append, hone, ih hrest]
    · simp
    · exact fun other hother => hisNew other (List.mem_cons_of_mem _ hother)
    · intro s hs
      rcases List.mem_append.mp hs with hold | hnew
      · exact fun hmem => hseen s hold (List.mem_cons_of_mem _ hmem)
      · rwa [List.mem_singleton.mp hnew]

/-- The events that wait in the rigs make the host know all of them as they are now. -/
theorem Mirrors.foldl_observe (h : Mirrors config seen rigs) (hn : (rigs.map (·.id)).Nodup)
    (front : List Sighting) (hfront : ∀ s ∈ front, s.rig ∉ rigs.map (·.id)) :
    (rigs.flatMap (·.deliveries)).foldl (observe config) (front ++ seen) =
      front ++ rigs.map (·.sighting) := by
  -- the front holds the rigs whose events were told already, so it must not name those to come
  induction h generalizing front with
  | unannounced rigs isNew =>
    rw [List.append_nil]
    exact foldl_observe_unannounced hn isNew hfront
  | @known seen rigs s r awaits rest ih =>
    obtain ⟨hr, hrest⟩ := List.nodup_cons.mp hn
    have hbefore : ∀ t ∈ front, t.rig ≠ r.id := fun t ht hsame =>
      hfront t ht (by simp [hsame])
    have hafter : ∀ t ∈ seen, t.rig ≠ r.id := by
      intro t ht hsame
      have hmem := rest.rig_mem t ht
      rw [hsame] at hmem
      exact hr hmem
    have hone : r.deliveries.foldl (observe config) (front ++ s :: seen) =
        front ++ [r.sighting] ++ seen := by
      unfold Rig.deliveries
      rw [foldl_observe_inner awaits.inner, List.map_append, List.map_cons,
        map_note_eq_self hbefore, map_note_eq_self hafter, if_pos awaits.rig, ← awaits.sighting]
      simp
    rw [List.flatMap_cons, List.foldl_append, hone, ih hrest]
    · simp
    · intro t ht
      rcases List.mem_append.mp ht with hold | hnew
      · exact fun hmem => hfront t hold (List.mem_cons_of_mem _ hmem)
      · rwa [List.mem_singleton.mp hnew]

theorem Mirrors.delivered (rigs : List Rig) :
    Mirrors config (rigs.map (·.sighting)) (rigs.map (·.delivered)) := by
  induction rigs with
  | nil => exact .unannounced [] (by simp)
  | cons r rest ih => exact .known _ _ ⟨rfl, by simp [Rig.delivered], rfl⟩ ih

/-- A host that has all events sees the rigs as they are, in their order. -/
theorem Mirrors.eq_of_delivered (h : Mirrors config seen rigs)
    (hdelivered : ∀ r ∈ rigs, r.events = []) : seen = rigs.map (·.sighting) := by
  induction h with
  | unannounced rigs isNew =>
    cases rigs with
    | nil => rfl
    | cons r rest =>
      obtain ⟨cinematic, changes, hevents, -⟩ := isNew r List.mem_cons_self
      rw [hdelivered r List.mem_cons_self] at hevents
      cases hevents
  | known s r awaits rest ih =>
    have hs := awaits.sighting
    rw [hdelivered r List.mem_cons_self] at hs
    have hrest := ih fun other hother => hdelivered other (List.mem_cons_of_mem _ hother)
    rw [List.map_cons, hs, ← hrest]
    rfl

namespace Ledger

/-- A host that was told all but the events that wait in the rigs is behind only by these. -/
def Mirrored (l : Ledger) : Prop := Mirrors l.config (replay l.config (l.told ++ l.pending)) l.rigs

variable {l l' : Ledger}

theorem replay_append (first second : List Event) :
    replay config (first ++ second) = second.foldl (observe config) (replay config first) :=
  List.foldl_append

/-- Each step keeps the host in step with the rigs, one case for each kind of step. -/
theorem Step.mirrored (h : Step l l') (hn : l.ids.Nodup) (hl : l.Mirrored) : l'.Mirrored := by
  cases h with
  | move rigs moves => exact hl.moves moves
  | spawn id cinematic rig notBlank isNew moves =>
    exact hl.spawn ((Rig.new_unannounced l.config id cinematic).moves moves)
  | close rig reason isOpen onDemand =>
    have hlog : (l.close rig reason).told ++ (l.close rig reason).pending =
        (l.told ++ l.pending) ++ (rig.ended reason).deliveries := (List.append_assoc _ _ _).symm
    unfold Mirrored
    rw [hlog, replay_append, foldl_observe_ended]
    exact hl.remove rig.id
  | expire rig isOpen noneWaits =>
    have hlog : (l.expire rig).told ++ (l.expire rig).pending =
        (l.told ++ l.pending) ++ (rig.ended .recoveryTimeout).deliveries := by
      simp [Ledger.expire, noneWaits]
    unfold Mirrored
    rw [hlog, replay_append, foldl_observe_ended]
    exact hl.remove rig.id
  | deliver =>
    have hlog : l.deliver.told ++ l.deliver.pending =
        (l.told ++ l.pending) ++ l.rigs.flatMap (·.deliveries) := by simp [Ledger.deliver]
    have hall : (l.rigs.flatMap (·.deliveries)).foldl (observe l.config)
        (replay l.config (l.told ++ l.pending)) = l.rigs.map (·.sighting) :=
      hl.foldl_observe hn [] (by simp)
    unfold Mirrored
    rw [hlog, replay_append]
    exact hall ▸ Mirrors.delivered l.rigs

end Ledger

namespace Chronicle

/-- After an update nothing waits to be told. -/
theorem told_all_of_update (c : Chronicle) (dt : Float32) (roster : Roster Float32) :
    (c.perform (.update dt) roster).fleet.pending = [] ∧
      ∀ r ∈ (c.perform (.update dt) roster).fleet.rigs, r.events = [] := by
  refine ⟨rfl, fun r hr => ?_⟩
  have hrigs : r ∈ (c.fleet.update dt roster).value.rigs := hr
  rw [Fleet.update_rigs] at hrigs
  obtain ⟨before, -, rfl⟩ := List.mem_map.mp hrigs
  rfl

/-- Whenever an update has been made, what the updates have told under each name is a sequence of
lives. They have ended, one after the other, for the reasons recorded, and the last one still goes
on just if there is a rig of that name. A host that has taken note of all that was told knows the
rigs in the order of their creation, each with its target, its follow mode and the size of its
surface. -/
theorem told_replays (config : Config) (ops : List (Operation × Roster Float32)) (dt : Float32)
    (roster : Roster Float32) :
    let c := (start config).run (ops ++ [(.update dt, roster)])
    (∀ id, Lifecycles (changesOf id c.told) (reasonsOf id c.endings) (c.fleet.contains id)) ∧
      replay config c.told = c.fleet.rigs.map (·.sighting) := by
  intro c
  have hstep : ∀ l l', Ledger.Step l l' → l.ids.Nodup ∧ l.Orderly ∧ l.Mirrored →
      l'.ids.Nodup ∧ l'.Orderly ∧ l'.Mirrored := fun l l' h ⟨hn, horderly, hmirrored⟩ =>
    ⟨h.nodup hn, h.orderly hn horderly, h.mirrored hn hmirrored⟩
  have hstart : (start config).ledger.ids.Nodup ∧ (start config).ledger.Orderly ∧
      (start config).ledger.Mirrored :=
    ⟨start_nodup config, fun _ => .none, .unannounced [] (by simp)⟩
  have hkept : c.ledger.ids.Nodup ∧ c.ledger.Orderly ∧ c.ledger.Mirrored :=
    run_keeps hstep hstart _
  obtain ⟨-, horderly, hmirrored⟩ := hkept
  have hconfig : c.ledger.config = config := run_config config _
  have hupdate : c = ((start config).run ops).perform (.update dt) roster := run_concat ops _ _
  obtain ⟨hpending, hevents⟩ := told_all_of_update ((start config).run ops) dt roster
  rw [← hupdate] at hpending hevents
  have hwaiting : c.ledger.pending = [] := hpending
  constructor
  · intro id
    have hrigs : c.ledger.rigs.flatMap (·.deliveries) = [] := by
      refine List.flatMap_eq_nil_iff.mpr fun r hr => ?_
      rw [Rig.deliveries, hevents r hr, List.map_nil]
    have hstory : c.ledger.story = c.told := by
      rw [Ledger.story, hwaiting, hrigs, List.append_nil, List.append_nil]
      rfl
    have hcontains : c.fleet.contains id = decide (id ∈ c.ledger.ids) :=
      Bool.eq_iff_iff.mpr (Fleet.contains_iff.trans decide_eq_true_iff.symm)
    rw [hcontains, ← hstory]
    exact horderly id
  · have hknown := hmirrored.eq_of_delivered hevents
    rw [hwaiting, List.append_nil, hconfig] at hknown
    exact hknown

end Chronicle

end Skycam

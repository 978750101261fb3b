import Skycam.Proofs.Fleet.Run

/-!
# The events of one name

What is told under one name is a sequence of lives, each of which begins with the creation of a rig
and goes on to its end or to the present. The story of a ledger is all that was told, all that waits
to be told and all that waits in its open rigs. Telling moves events within the story and changes
nothing in it, so the shape of the story is kept from step to step (`Ledger.Step.orderly`).
-/

namespace Skycam

/-- What happened to the rigs of one name, among some events. -/
def changesOf (id : RigId) (events : List Event) : List RigChange :=
  (events.filter (·.rig = id)).map (·.change)

/-- Why the rigs of one name have ended, one after the other. -/
def reasonsOf (id : RigId) (endings : List Ending) : List DestroyReason :=
  (endings.filter (·.rig = id)).map (·.reason)

/-- The changes are a sequence of lives. Each life begins with a creation and goes on with what is
neither a creation nor an end; it ends for the next of the reasons, and only the last one may still
go on, which the flag says. -/
inductive Lifecycles : List RigChange → List DestroyReason → Bool → Prop where
  /-- Nothing has happened. -/
  | none : Lifecycles [] [] false
  /-- A life begins. -/
  | created {changes : List RigChange} {reasons : List DestroyReason} (cinematic : Bool)
      (before : Lifecycles changes reasons false) :
      Lifecycles (changes ++ [.created cinematic]) reasons true
  /-- A life goes on. -/
  | inner {changes : List RigChange} {reasons : List DestroyReason} (change : RigChange)
      (isInner : change.isBoundary = false) (before : Lifecycles changes reasons true) :
      Lifecycles (changes ++ [change]) reasons true
  /-- A life ends. -/
  | destroyed {changes : List RigChange} {reasons : List DestroyReason} (reason : DestroyReason)
      (before : Lifecycles changes reasons true) :
      Lifecycles (changes ++ [.destroyed reason]) (reasons ++ [reason]) false

/-- A life goes on with what is neither a beginning nor an end. -/
theorem Lifecycles.append_inner {changes more : List RigChange} {reasons : List DestroyReason}
    (h : Lifecycles changes reasons true) (hinner : ∀ change ∈ more, change.isBoundary = false) :
    Lifecycles (changes ++ more) reasons true := by
  induction more generalizing changes with
  | nil => simpa using h
  | cons change rest ih =>
    have hnext := h.inner change (hinner change List.mem_cons_self)
    have hrest := ih hnext fun other hother => hinner other (List.mem_cons_of_mem _ hother)
    simpa using hrest

section ChangesOf

variable {id : RigId} {rig : Rig} {rigs : List Rig}

@[simp] theorem changesOf_append (first second : List Event) :
    changesOf id (first ++ second) = changesOf id first ++ changesOf id second := by
  simp [changesOf]

theorem changesOf_deliveries_self (rig : Rig) : changesOf rig.id rig.deliveries = rig.events := by
  simp [changesOf, Rig.deliveries, List.filter_map, Function.comp_def]

theorem changesOf_deliveries_ne (h : rig.id ≠ id) : changesOf id rig.deliveries = [] := by
  simp [changesOf, Rig.deliveries, List.filter_map, Function.comp_def, h]

/-- Nothing is told of a name that no rig has. -/
theorem changesOf_flatMap_of_notMem (h : id ∉ rigs.map (·.id)) :
    changesOf id (rigs.flatMap (·.deliveries)) = [] := by
  induction rigs with
  | nil => rfl
  | cons first rest ih =>
    rw [List.map_cons, List.mem_cons, not_or] at h
    rw [List.flatMap_cons, changesOf_append, changesOf_deliveries_ne (Ne.symm h.1), ih h.2]
    rfl

/-- Where names are different, all that is delivered under one are the events of its rig. -/
theorem changesOf_flatMap_of_mem (hn : (rigs.map (·.id)).Nodup) (hr : rig ∈ rigs) :
    changesOf rig.id (rigs.flatMap (·.deliveries)) = rig.events := by
  induction rigs with
  | nil => cases hr
  | cons first rest ih =>
    obtain ⟨hfirst, hrest⟩ := List.nodup_cons.mp hn
    rw [List.flatMap_cons, changesOf_append]
    rcases List.mem_cons.mp hr with rfl | hr
    · rw [changesOf_deliveries_self, changesOf_flatMap_of_notMem hfirst, List.append_nil]
    · have hne : first.id ≠ rig.id := by
        intro hsame
        have hmem : rig.id ∈ rest.map (·.id) := List.mem_map_of_mem hr
        rw [← hsame] at hmem
        exact hfirst hmem
      rw [changesOf_deliveries_ne hne, ih hrest hr, List.nil_append]

/-- To take a rig away does not change what is told of another one. -/
theorem changesOf_flatMap_but {gone : RigId} (h : gone ≠ id) :
    changesOf id ((rigs.filter (·.id ∉ [gone])).flatMap (·.deliveries)) =
      changesOf id (rigs.flatMap (·.deliveries)) := by
  induction rigs with
  | nil => rfl
  | cons first rest ih =>
    by_cases hfirst : first.id = gone
    · have hne : first.id ≠ id := by rwa [hfirst]
      rw [List.flatMap_cons, changesOf_append, changesOf_deliveries_ne hne, List.nil_append, ← ih]
      simp [hfirst]
    · rw [List.flatMap_cons, changesOf_append, ← ih]
      simp [hfirst]

end ChangesOf

namespace Ledger

/-- All events up to now: those that were told, those that wait, and those that wait in a rig. -/
def story (l : Ledger) : List Event := l.told ++ l.pending ++ l.rigs.flatMap (·.deliveries)

/-- The story of each name is a sequence of lives, which end as they are recorded to; the last one
still goes on just if there is an open rig of that name. -/
def Orderly (l : Ledger) : Prop :=
  ∀ id, Lifecycles (changesOf id l.story) (reasonsOf id l.endings) (decide (id ∈ l.ids))

variable {l l' : Ledger}

/-- The end of a rig ends the last of the lives under its name and touches no other name. -/
theorem Orderly.remove (h : l.Orderly) (hn : l.ids.Nodup) {rig : Rig} {reason : DestroyReason}
    (hrig : rig ∈ l.rigs) (hrigs : l'.rigs = l.rigsBut [rig.id])
    (hlog : l'.told ++ l'.pending = l.told ++ l.pending ++ (rig.ended reason).deliveries)
    (hendings : l'.endings = l.endings ++ [⟨rig.id, reason⟩]) : l'.Orderly := by
  intro id
  have hbefore := h id
  unfold story at hbefore ⊢
  rw [hlog, hendings]
  by_cases hid : rig.id = id
  · subst hid
    -- under its name the events of the rig come last, so its end comes right after them
    have hopen : rig.id ∈ l.ids := List.mem_map_of_mem hrig
    have hgone : rig.id ∉ l'.ids := by simp [ids, hrigs, rigsBut]
    have hended : changesOf rig.id (rig.ended reason).deliveries =
        rig.events ++ [.destroyed reason] := changesOf_deliveries_self (rig.ended reason)
    have hreasons : reasonsOf rig.id (l.endings ++ [⟨rig.id, reason⟩]) =
        reasonsOf rig.id l.endings ++ [reason] := by simp [reasonsOf]
    rw [changesOf_append, changesOf_flatMap_of_mem hn hrig, decide_eq_true hopen] at hbefore
    rw [changesOf_append, changesOf_append, hended, changesOf_flatMap_of_notMem hgone, hreasons,
      decide_eq_false hgone, List.append_nil, ← List.append_assoc]
    exact hbefore.destroyed reason
  · have hids : id ∈ l'.ids ↔ id ∈ l.ids := by
      simp only [ids, hrigs, List.mem_map, mem_rigsBut, List.mem_singleton]
      constructor
      · rintro ⟨other, ⟨hother, -⟩, hname⟩
        exact ⟨other, hother, hname⟩
      · rintro ⟨other, hother, hname⟩
        exact ⟨other, ⟨hother, fun hsame => hid (hsame.symm.trans hname)⟩, hname⟩
    have hended : changesOf id (rig.ended reason).deliveries = [] := changesOf_deliveries_ne hid
    have hreasons : reasonsOf id (l.endings ++ [⟨rig.id, reason⟩]) = reasonsOf id l.endings := by
      simp [reasonsOf, hid]
    have hrest : changesOf id (l'.rigs.flatMap (·.deliveries)) =
        changesOf id (l.rigs.flatMap (·.deliveries)) := by
      rw [hrigs]
      exact changesOf_flatMap_but hid
    rw [changesOf_append] at hbefore
    rw [changesOf_append, changesOf_append, hended, hrest, hreasons, List.append_nil]
    simpa only [hids] using hbefore

/-- A rig that moves goes on with its life. -/
theorem Orderly.move (h : l.Orderly) (hn : l.ids.Nodup) {rigs : List Rig}
    (moves : List.Forall₂ (Rig.Moves l.config) l.rigs rigs) : Orderly { l with rigs } := by
  intro id
  have hbefore := h id
  have hids : rigs.map (·.id) = l.ids := map_id_eq_of_moves moves
  have hn' : (rigs.map (·.id)).Nodup := by rwa [hids]
  have hgoal : ids { l with rigs } = l.ids := hids
  unfold story at hbefore ⊢
  rw [hgoal]
  rw [changesOf_append] at hbefore ⊢
  by_cases hid : id ∈ l.ids
  · rw [decide_eq_true hid] at hbefore ⊢
    obtain ⟨r', hr', rfl⟩ := List.mem_map.mp (hids ▸ hid)
    obtain ⟨r, hr, hmoves⟩ := exists_moves_of_mem moves hr'
    obtain ⟨changes, hraises⟩ := hmoves.raises
    rw [hraises.id, changesOf_flatMap_of_mem hn hr] at hbefore
    rw [changesOf_flatMap_of_mem hn' hr', hraises.id, hraises.events, ← List.append_assoc]
    exact hbefore.append_inner hraises.inner
  · rw [changesOf_flatMap_of_notMem hid] at hbefore
    rw [changesOf_flatMap_of_notMem (hids ▸ hid)]
    exact hbefore

/-- A new rig begins a life under a name under which none goes on. -/
theorem Orderly.spawn (h : l.Orderly) {id : RigId} {cinematic : Bool} {rig : Rig}
    (isNew : id ∉ l.ids) (moves : Rig.Moves l.config (Rig.new l.config id cinematic) rig) :
    Orderly { l with rigs := l.rigs ++ [rig] } := by
  obtain ⟨changes, hraises⟩ := moves.raises
  have hid : rig.id = id := hraises.id
  have hevents : rig.events = .created cinematic :: changes := hraises.events
  have hids : ids { l with rigs := l.rigs ++ [rig] } = l.ids ++ [id] := by simp [ids, hid]
  have hstory : story { l with rigs := l.rigs ++ [rig] } = l.story ++ rig.deliveries := by
    simp [story]
  intro name
  have hbefore := h name
  rw [hids, hstory, changesOf_append]
  by_cases hname : rig.id = name
  · have hnew : name ∉ l.ids := by rwa [← hname, hid]
    have hopen : name ∈ l.ids ++ [id] := by simp [← hname, hid]
    rw [decide_eq_false hnew] at hbefore
    rw [decide_eq_true hopen, ← hname, changesOf_deliveries_self, hevents, hname]
    simpa using (hbefore.created cinematic).append_inner hraises.inner
  · have hopen : name ∈ l.ids ++ [id] ↔ name ∈ l.ids := by
      simp [← hid, Ne.symm hname]
    rw [changesOf_deliveries_ne hname, List.append_nil]
    simpa only [hopen] using hbefore

/-- Telling an event does not move it within the story. -/
theorem story_deliver (l : Ledger) : l.deliver.story = l.story := by
  have hnone : (l.rigs.map (·.delivered)).flatMap (·.deliveries) = [] := by
    simp [List.flatMap_map, Rig.delivered, Rig.deliveries]
  simp [story, deliver, hnone]

/-- Each step keeps the story of every rig in order, one case for each kind of step. -/
theorem Step.orderly (h : Step l l') (hn : l.ids.Nodup) (hl : l.Orderly) : l'.Orderly := by
  cases h with
  | move rigs moves => exact hl.move hn moves
  | spawn id cinematic rig notBlank isNew moves => exact hl.spawn isNew moves
  | close rig reason isOpen onDemand =>
    exact hl.remove hn isOpen rfl (List.append_assoc _ _ _).symm rfl
  | expire rig isOpen noneWaits =>
    refine hl.remove hn isOpen rfl ?_ rfl
    simp [Ledger.expire, noneWaits]
  | deliver =>
    intro id
    have hids : l.deliver.ids = l.ids := by simp [ids, Ledger.deliver, Rig.delivered]
    rw [story_deliver, hids]
    exact hl id

end Ledger

end Skycam

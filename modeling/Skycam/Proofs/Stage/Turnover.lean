import Skycam.Proofs.Fleet.Replay
import Skycam.Proofs.Stage.Turn

/-!
# Which nodes a frame removes

The scene never hears of the end of a rig. It compares the names in its index with those of the
frames, so a rig that ends and is created anew under its name before the next update keeps the node
of its predecessor. A node goes just if, of the beginnings and ends that the update tells under the
name, the last is an end (`Stage.run_turnover`).
-/

namespace Skycam

/-! ## The last beginning or end -/

/-- The last beginning or end of a rig of that name, among some events. -/
def lastBoundary? (id : RigId) (events : List Event) : Option RigChange :=
  ((changesOf id events).filter (·.isBoundary)).getLast?

theorem lastBoundary?_append (id : RigId) (before now : List Event) :
    lastBoundary? id (before ++ now) = (lastBoundary? id now).or (lastBoundary? id before) := by
  unfold lastBoundary?
  rw [changesOf_append, List.filter_append, List.getLast?_append]

theorem lastBoundary?_cases {id : RigId} {events : List Event} {change : RigChange}
    (h : lastBoundary? id events = some change) :
    (∃ cinematic, change = .created cinematic) ∨ ∃ reason, change = .destroyed reason := by
  have hboundary : change.isBoundary = true :=
    (List.mem_filter.mp (List.mem_of_getLast? h)).2
  cases change with
  | created cinematic => exact Or.inl ⟨cinematic, rfl⟩
  | destroyed reason => exact Or.inr ⟨reason, rfl⟩
  | targetBound | targetLost | recovered | followModeChanged | keyframeStarted |
      playbackFinished | surfaceResized => cases hboundary

/-- A life goes on just if its beginning is the last beginning or end. -/
theorem Lifecycles.live_iff {changes : List RigChange} {reasons : List DestroyReason} {live : Bool}
    (h : Lifecycles changes reasons live) :
    live = true ↔
      ∃ cinematic, (changes.filter (·.isBoundary)).getLast? = some (.created cinematic) := by
  have hlast : ∀ (before : List RigChange) (change : RigChange), change.isBoundary = true →
      ((before ++ [change]).filter (·.isBoundary)).getLast? = some change := by
    intro before change hboundary
    rw [List.filter_append, List.filter_cons_of_pos hboundary, List.filter_nil,
      List.getLast?_concat]
  induction h with
  | none => simp
  | @created before _ cinematic _ _ =>
    rw [hlast before _ rfl]
    exact ⟨fun _ => ⟨cinematic, rfl⟩, fun _ => rfl⟩
  | inner change isInner _ ih =>
    have hdropped : [change].filter (·.isBoundary) = [] :=
      List.filter_cons_of_neg (by rw [isInner]; exact Bool.false_ne_true)
    rw [List.filter_append, hdropped, List.append_nil]
    exact ih
  | @destroyed before _ reason _ _ =>
    rw [hlast before _ rfl]
    constructor
    · intro hlive
      cases hlive
    · rintro ⟨cinematic, hcreated⟩
      cases hcreated

namespace Chronicle

variable {config : Config} {c : Chronicle}

/-- Nothing waits to be told. -/
def Spoken (c : Chronicle) : Prop :=
  c.fleet.pending = [] ∧ ∀ r ∈ c.fleet.rigs, r.events = []

/-- If nothing waits, what was told is the whole story. -/
theorem Spoken.story_eq (h : c.Spoken) : c.ledger.story = c.told := by
  obtain ⟨hpending, hevents⟩ := h
  have hwaiting : c.ledger.pending = [] := hpending
  have hrigs : c.ledger.rigs.flatMap (·.deliveries) = [] := by
    refine List.flatMap_eq_nil_iff.mpr fun r hr => ?_
    rw [Rig.deliveries, hevents r hr, List.map_nil]
  rw [Ledger.story, hwaiting, hrigs, List.append_nil, List.append_nil]
  rfl

/-- If nothing waits, there is an open rig of a name just if its creation is the last beginning or
end that was told of under that name. -/
theorem Spoken.mem_ids_iff (h : c.Spoken) (horderly : c.ledger.Orderly) (id : RigId) :
    id ∈ c.fleet.ids ↔ ∃ cinematic, lastBoundary? id c.told = some (.created cinematic) := by
  have hlives := horderly id
  rw [h.story_eq] at hlives
  have hlive := hlives.live_iff
  rw [decide_eq_true_iff] at hlive
  exact hlive

/-- Under every name the story of a run is a sequence of lives. -/
theorem run_orderly (config : Config) (ops : List (Operation × Roster Float32)) :
    ((start config).run ops).ledger.Orderly := by
  have hkept : ((start config).run ops).ledger.ids.Nodup ∧
      ((start config).run ops).ledger.Orderly := by
    have hstep : ∀ l l', Ledger.Step l l' → l.ids.Nodup ∧ l.Orderly → l'.ids.Nodup ∧ l'.Orderly :=
      fun l l' h ⟨hn, horderly⟩ => ⟨h.nodup hn, h.orderly hn horderly⟩
    have hstart : (start config).ledger.ids.Nodup ∧ (start config).ledger.Orderly :=
      ⟨start_nodup config, fun _ => .none⟩
    exact run_keeps hstep hstart ops
  exact hkept.2

/-- Operations that tell nothing leave what was told as it is. -/
theorem run_told_of_silent {ops : List (Operation × Roster Float32)}
    (h : ∀ step ∈ ops, ∀ f, step.1.tells f = []) : (c.run ops).told = c.told := by
  induction ops generalizing c with
  | nil => rfl
  | cons step rest ih =>
    obtain ⟨op, roster⟩ := step
    have hrest : (c.run ((op, roster) :: rest)).told = (c.perform op roster).told :=
      ih fun step hstep => h step (List.mem_cons_of_mem _ hstep)
    have hfirst : (c.perform op roster).told = c.told := by
      have hsilent : op.tells (c.fleet.perform op roster).value.1 = [] :=
        h (op, roster) List.mem_cons_self _
      show c.told ++ op.tells (c.fleet.perform op roster).value.1 = c.told
      rw [hsilent, List.append_nil]
    exact hrest.trans hfirst

theorem tells_request (r : Request) (f : Fleet) : r.operation.tells f = [] := by
  cases r <;> rfl

/-- What a frame tells is what its update tells, and then nothing waits. -/
theorem run_operations (c : Chronicle) (t : Turn) :
    ((c.run t.operations).fleet, (c.run t.operations).told) = t.direct (c.fleet, c.told) ∧
      (c.run t.operations).Spoken := by
  let asked : List (Operation × Roster Float32) :=
    (.setDisplay t.display :: t.requests.map Request.operation).map fun op => (op, t.roster)
  have hoperations : t.operations = asked ++ [(.update t.dt, t.roster)] := by
    simp [Turn.operations, asked]
  have hsilent : ∀ step ∈ asked, ∀ f, step.1.tells f = [] := by
    intro step hstep f
    obtain ⟨op, hop, rfl⟩ := List.mem_map.mp hstep
    rcases List.mem_cons.mp hop with rfl | hop
    · rfl
    · obtain ⟨r, -, rfl⟩ := List.mem_map.mp hop
      exact tells_request r f
  have hfleet : (c.run t.operations).fleet = (t.direct (c.fleet, c.told)).1 := by
    rw [run_fleet, Turn.direct_fleet]
  have htold : (c.run t.operations).told = c.told ++ (c.run t.operations).fleet.events := by
    rw [hoperations, run_concat]
    show ((c.run asked).told ++ _) = _
    rw [run_told_of_silent hsilent]
    rfl
  refine ⟨?_, ?_⟩
  · rw [htold, hfleet]
    rfl
  · rw [hoperations, run_concat]
    exact told_all_of_update _ t.dt t.roster

end Chronicle

namespace Stage

variable {config : Config} {s : Stage}

/-- The stage has done what a chronicle records, of which nothing waits to be told. -/
def Recorded (config : Config) (s : Stage) : Prop :=
  ∃ ops, ((Chronicle.start config).run ops).fleet = s.fleet ∧
    ((Chronicle.start config).run ops).told = s.notices ∧
    ((Chronicle.start config).run ops).Spoken

theorem new_recorded (config : Config) (hasImages : Bool) :
    (new config hasImages).Recorded config :=
  ⟨[], rfl, rfl, rfl, fun _ hr => absurd hr List.not_mem_nil⟩

/-- A frame is recorded as its operations. -/
theorem Recorded.take (h : s.Recorded config) (hs : s.Settled config) (t : Turn) :
    (s.take t).Recorded config := by
  obtain ⟨ops, hfleet, htold, -⟩ := h
  obtain ⟨hrun, hspoken⟩ := ((Chronicle.start config).run ops).run_operations t
  rw [hfleet, htold, ← (hs.take t).2] at hrun
  have happend : (Chronicle.start config).run (ops ++ t.operations) =
      ((Chronicle.start config).run ops).run t.operations := List.foldl_append ..
  refine ⟨ops ++ t.operations, ?_, ?_, ?_⟩
  · rw [happend]
    exact congrArg Prod.fst hrun
  · rw [happend]
    exact congrArg Prod.snd hrun
  · rw [happend]
    exact hspoken

theorem Recorded.run (h : s.Recorded config) (hs : s.Settled config) (turns : List Turn) :
    (s.run turns).Recorded config := by
  induction turns generalizing s with
  | nil => exact h
  | cons t turns ih => exact ih (h.take hs t) (hs.take t).1

theorem Recorded.mem_ids_iff (h : s.Recorded config) (id : RigId) :
    id ∈ s.fleet.ids ↔ ∃ cinematic, lastBoundary? id s.notices = some (.created cinematic) := by
  obtain ⟨ops, hfleet, htold, hspoken⟩ := h
  have hids := hspoken.mem_ids_iff (Chronicle.run_orderly config ops) id
  rwa [hfleet, htold] at hids

/-- A frame sends out the events of its update. -/
theorem Settled.take_notices (hs : s.Settled config) (t : Turn) :
    (s.take t).notices = s.notices ++ (s.take t).fleet.events := by
  obtain ⟨-, hdirect⟩ := hs.take t
  have htold := congrArg Prod.snd hdirect
  have hfleet := congrArg Prod.fst hdirect
  dsimp only at htold hfleet
  rw [htold, hfleet]
  rfl

/-- Which rigs are open after a frame, according to those that were open before and what the frame
has told. -/
theorem mem_ids_take_iff (h : s.Recorded config) (hs : s.Settled config) (t : Turn) (id : RigId) :
    id ∈ (s.take t).fleet.ids ↔
      (∃ cinematic, lastBoundary? id (s.take t).fleet.events = some (.created cinematic)) ∨
        lastBoundary? id (s.take t).fleet.events = none ∧ id ∈ s.fleet.ids := by
  rw [(h.take hs t).mem_ids_iff, h.mem_ids_iff, hs.take_notices, lastBoundary?_append]
  cases lastBoundary? id (s.take t).fleet.events with
  | none => simp
  | some change => simp

end Stage

/-! ## The nodes of a scene -/

namespace Scene

variable {s t : Scene} {xs : List Fixture} {frame : Frame}

/-- The nodes, each with its rig. -/
def roots (s : Scene) : List (Nat × RigId) := s.nodes.map fun n => (n.id, n.rig)

theorem mem_roots {root : Nat × RigId} :
    root ∈ s.roots ↔ ∃ n ∈ s.nodes, n.id = root.1 ∧ n.rig = root.2 := by
  simp only [roots, List.mem_map, Prod.ext_iff]

theorem Holds.roots_eq (h : s.Holds xs) : s.roots = xs.map fun x => (x.node.id, x.rig) := by
  unfold roots
  rw [h.nodes, List.map_map]
  rfl

theorem Holds.mem_rigs_iff (h : s.Holds xs) (rig : RigId) :
    rig ∈ xs.map Fixture.rig ↔ rig ∈ s.roots.map (·.2) := by
  rw [h.roots_eq, List.map_map]
  exact Iff.rfl

theorem editCameras_nodes (s : Scene) (ids : List Nat) (change : StageCamera → StageCamera) :
    (s.editCameras ids change).nodes = s.nodes ∧
      (s.editCameras ids change).nextEntity = s.nextEntity := by
  unfold editCameras
  induction ids generalizing s with
  | nil => exact ⟨rfl, rfl⟩
  | cons id ids ih => exact ih (s.editCamera id change)

theorem addImage_nodes (s : Scene) (frame : Frame) :
    (s.addImage frame).1.nodes = s.nodes ∧ (s.addImage frame).1.nextEntity = s.nextEntity := by
  unfold addImage
  cases s.images <;> exact ⟨rfl, rfl⟩

/-- Bringing a fixture up to date neither adds a node nor removes one. -/
theorem refresh_nodes (s : Scene) (frame : Frame) (e : Entities) :
    (s.refresh frame e).nodes = s.nodes ∧ (s.refresh frame e).nextEntity = s.nextEntity := by
  unfold refresh
  split
  · exact ⟨rfl, rfl⟩
  · unfold renew
    split
    · exact ⟨rfl, rfl⟩
    · next stored image hadded =>
      have hstored := addImage_nodes
        ((s.editEntities frame.rig (Entities.note frame.generation)).dropImage e.image) frame
      rw [hadded] at hstored
      have hcameras := editCameras_nodes stored e.cameras (StageCamera.redirect image)
      exact ⟨hcameras.1.trans hstored.1, hcameras.2.trans hstored.2⟩

/-- A rig that is installed gets one node, with a new number. -/
theorem install_roots (s : Scene) (frame : Frame) :
    (s.install frame).roots = s.roots ++ [(s.nextEntity + 2, frame.rig)] ∧
      (s.install frame).nextEntity = s.nextEntity + 3 := by
  obtain ⟨hnodes, hnext⟩ := s.addImage_nodes frame
  unfold install
  generalize s.addImage frame = added at hnodes hnext
  obtain ⟨stored, image⟩ := added
  dsimp only at hnodes hnext
  refine ⟨?_, ?_⟩
  · simp [roots, addCamera, addNode, hnodes, hnext, Node.new]
  · simp [addCamera, addNode, hnext]

/-- A frame that is shown neither adds a node nor removes one. -/
theorem present_roots (s : Scene) (frame : Frame) : (s.present frame).roots = s.roots := by
  unfold present
  split
  · next e _ =>
    have hnodes := (editCameras_nodes (s.editNode e.root (Node.follow frame)) e.cameras
      (StageCamera.aim frame)).1
    unfold roots
    rw [hnodes]
    unfold editNode
    rw [List.map_map]
    refine List.map_congr_left fun n _ => ?_
    show (Node.id (if _ then _ else _), Node.rig (if _ then _ else _)) = _
    split <;> rfl
  · rfl

theorem apply_roots (s : Scene) (frames : List Frame) : (s.apply frames).roots = s.roots := by
  unfold apply
  induction frames generalizing s with
  | nil => rfl
  | cons frame frames ih =>
    rw [List.foldl_cons, ih]
    exact s.present_roots frame

/-- From `s` to `t` no node goes, and those that come have new numbers and belong to rigs that had
none. -/
structure Gains (s t : Scene) : Prop where
  kept : ∀ root ∈ s.roots, root ∈ t.roots
  fresh : ∀ root ∈ t.roots, root ∈ s.roots ∨
    s.nextEntity ≤ root.1 ∧ root.2 ∉ s.roots.map (·.2)
  numbers : s.nextEntity ≤ t.nextEntity

theorem Gains.refl (s : Scene) : s.Gains s :=
  ⟨fun _ h => h, fun _ h => Or.inl h, Nat.le_refl _⟩

theorem Gains.trans {u : Scene} (h : s.Gains t) (h' : t.Gains u) : s.Gains u where
  kept root hroot := h'.kept root (h.kept root hroot)
  fresh := by
    intro root hroot
    rcases h'.fresh root hroot with hold | ⟨hnumber, hrig⟩
    · exact h.fresh root hold
    · refine Or.inr ⟨Nat.le_trans h.numbers hnumber, fun hmem => hrig ?_⟩
      obtain ⟨other, hother, heq⟩ := List.mem_map.mp hmem
      rw [← heq]
      exact List.mem_map_of_mem (h.kept other hother)
  numbers := Nat.le_trans h.numbers h'.numbers

/-- To enroll a rig removes no node, and adds one if the rig had none. -/
theorem Holds.enroll_gains (h : s.Holds xs) (frame : Frame) : s.Gains (s.enroll frame) := by
  unfold Scene.enroll
  by_cases hrig : frame.rig ∈ xs.map Fixture.rig
  · obtain ⟨x, hx, hframe⟩ := List.mem_map.mp hrig
    have hentities : s.entities? frame.rig = some x.entities := hframe ▸ h.entities?_of_mem hx
    rw [hentities]
    obtain ⟨hnodes, hnext⟩ := s.refresh_nodes frame x.entities
    have hroots : (s.refresh frame x.entities).roots = s.roots := by rw [roots, hnodes, roots]
    refine ⟨fun root hroot => ?_, fun root hroot => ?_, Nat.le_of_eq hnext.symm⟩
    · rwa [hroots]
    · rw [hroots] at hroot
      exact Or.inl hroot
  · rw [h.entities?_of_notMem hrig]
    obtain ⟨hroots, hnext⟩ := s.install_roots frame
    refine ⟨fun root hroot => ?_, fun root hroot => ?_, ?_⟩
    · rw [hroots]
      exact List.mem_append_left _ hroot
    · rw [hroots] at hroot
      rcases List.mem_append.mp hroot with hold | hnew
      · exact Or.inl hold
      · rw [List.mem_singleton.mp hnew]
        rw [h.mem_rigs_iff] at hrig
        exact Or.inr ⟨Nat.le_add_right _ _, hrig⟩
    · rw [hnext]
      exact Nat.le_add_right _ _

theorem Holds.enrollAll_gains (h : s.Holds xs) (frames : List Frame) :
    s.Gains (frames.foldl Scene.enroll s) := by
  induction frames generalizing s xs with
  | nil => exact .refl s
  | cons frame frames ih =>
    obtain ⟨ys, hys, -⟩ := h.enroll frame
    exact (h.enroll_gains frame).trans (ih hys)

/-- Once the scene is in line with frames and shows them, it has a node of each rig of which there
is a frame: the one that it had, or a new one if it had none. -/
theorem Holds.sync_apply_roots (h : s.Holds xs) {frames : List Frame}
    (hn : (frames.map (·.rig)).Nodup) (root : Nat × RigId) :
    (root ∈ ((s.sync frames).apply frames).roots → root.2 ∈ frames.map (·.rig) ∧
      (root ∈ s.roots ∨ s.nextEntity ≤ root.1 ∧ root.2 ∉ s.roots.map (·.2))) ∧
    (root ∈ s.roots → root.2 ∈ frames.map (·.rig) →
      root ∈ ((s.sync frames).apply frames).roots) := by
  -- First the nodes that are missing come, then those go of which there is no frame.
  obtain ⟨ys, hys, -⟩ := h.enrollAll hn
  have hgains := h.enrollAll_gains frames
  let gone := ((frames.foldl Scene.enroll s).index.map (·.1)).filter
    fun rig => !frames.any (·.rig == rig)
  have hroots : ((s.sync frames).apply frames).roots =
      (frames.foldl Scene.enroll s).roots.filter fun root => root.2 ∉ gone := by
    rw [apply_roots, hys.roots_eq, List.filter_map]
    exact (hys.dismissAll gone).roots_eq
  have hgone : root ∈ (frames.foldl Scene.enroll s).roots →
      (root.2 ∉ gone ↔ root.2 ∈ frames.map (·.rig)) := by
    intro hroot
    have hkey : root.2 ∈ (frames.foldl Scene.enroll s).index.map (·.1) := by
      rw [hys.roots_eq] at hroot
      obtain ⟨y, hy, rfl⟩ := List.mem_map.mp hroot
      rw [hys.index, List.map_map]
      exact List.mem_map_of_mem hy
    simp [gone, hkey]
  rw [hroots]
  constructor
  · intro hmem
    obtain ⟨hroot, hstays⟩ := List.mem_filter.mp hmem
    exact ⟨(hgone hroot).mp (of_decide_eq_true hstays), hgains.fresh root hroot⟩
  · intro hold hframe
    have hroot := hgains.kept root hold
    exact List.mem_filter.mpr ⟨hroot, decide_eq_true ((hgone hroot).mpr hframe)⟩

end Scene

namespace Stage

variable {config : Config} {s : Stage}

/-- The nodes of a stage, before and after a frame. -/
theorem Settled.take_roots (hs : s.Settled config) (t : Turn) (root : Nat × RigId) :
    (root ∈ (s.take t).scene.roots → root.2 ∈ (s.take t).fleet.ids ∧
      (root ∈ s.scene.roots ∨
        s.scene.nextEntity ≤ root.1 ∧ root.2 ∉ s.scene.roots.map (·.2))) ∧
    (root ∈ s.scene.roots → root.2 ∈ (s.take t).fleet.ids → root ∈ (s.take t).scene.roots) := by
  obtain ⟨xs, hxs⟩ := hs.holds
  obtain ⟨ops, hops⟩ := (hs.take t).1.reached
  have hnext : (s.take t).fleet = (t.direct (s.fleet, s.notices)).1 :=
    congrArg Prod.fst (hs.take t).2
  have hframes : (s.take t).fleet.frames.map (·.rig) = (s.take t).fleet.ids := by
    rw [hnext]
    exact List.map_map ..
  have hscene : (s.take t).scene =
      (s.scene.sync (s.take t).fleet.frames).apply (s.take t).fleet.frames := by
    rw [hnext, take_value hs.requests]
  have hn : (s.take t).fleet.ids.Nodup := by
    rw [hops]
    exact Fleet.run_nodup config ops
  rw [hscene, ← hframes]
  exact hxs.sync_apply_roots (by rwa [hframes]) root

theorem Settled.mem_rigs_iff (hs : s.Settled config) (rig : RigId) :
    rig ∈ s.scene.roots.map (·.2) ↔ rig ∈ s.fleet.ids := by
  have hrigs : s.scene.roots.map (·.2) = s.scene.nodes.map (·.rig) := List.map_map ..
  rw [hrigs]
  exact hs.mirrors.nodes.mem_iff

/-- No two nodes have the same number. -/
theorem Settled.root_eq (hs : s.Settled config) {root other : Nat × RigId}
    (hroot : root ∈ s.scene.roots) (hother : other ∈ s.scene.roots) (hid : root.1 = other.1) :
    root = other := by
  obtain ⟨xs, hxs⟩ := hs.holds
  rw [hxs.roots_eq] at hroot hother
  obtain ⟨x, hx, rfl⟩ := List.mem_map.mp hroot
  obtain ⟨y, hy, rfl⟩ := List.mem_map.mp hother
  exact Prod.ext hid ((hxs.node_id_eq_iff hy hx).mp hid)

theorem Settled.root_lt (hs : s.Settled config) {root : Nat × RigId}
    (hroot : root ∈ s.scene.roots) : root.1 < s.scene.nextEntity := by
  obtain ⟨xs, hxs⟩ := hs.holds
  rw [hxs.roots_eq] at hroot
  obtain ⟨x, hx, rfl⟩ := List.mem_map.mp hroot
  exact hxs.fresh x hx x.node.id List.mem_cons_self

/-- A node stays just if there is a rig of its name after the frame. -/
theorem Settled.stays_iff (hs : s.Settled config) (t : Turn) {root : Nat × RigId}
    (hroot : root ∈ s.scene.roots) :
    (∃ other ∈ (s.take t).scene.roots, other.1 = root.1) ↔ root.2 ∈ (s.take t).fleet.ids := by
  constructor
  · rintro ⟨other, hother, hid⟩
    obtain ⟨hopen, hold | ⟨hfresh, -⟩⟩ := (hs.take_roots t other).1 hother
    · rwa [hs.root_eq hold hroot hid] at hopen
    · -- A number is handed out once, so a node that comes is none of those that were there.
      have hlt := hs.root_lt hroot
      omega
  · intro hopen
    exact ⟨root, (hs.take_roots t root).2 hroot hopen, rfl⟩

/-- With each frame, a node goes just if, of the beginnings and ends that the frame tells under the
name of its rig, the last is an end. A node that comes belongs to a rig that had none, and the last
beginning or end told under its name is a beginning. -/
theorem run_turnover (config : Config) (hasImages : Bool) (turns : List Turn) (t : Turn) :
    let s := (new config hasImages).run turns
    let s' := s.take t
    s'.notices = s.notices ++ s'.fleet.events ∧
    (∀ n ∈ s.scene.nodes, (∃ n' ∈ s'.scene.nodes, n'.id = n.id) ↔
      ∀ reason, lastBoundary? n.rig s'.fleet.events ≠ some (.destroyed reason)) ∧
    ∀ n' ∈ s'.scene.nodes, n'.rig ∈ s'.fleet.ids ∧
      ((∃ n ∈ s.scene.nodes, n.id = n'.id ∧ n.rig = n'.rig) ∨
        (∀ n ∈ s.scene.nodes, n.id ≠ n'.id ∧ n.rig ≠ n'.rig) ∧
          ∃ cinematic, lastBoundary? n'.rig s'.fleet.events = some (.created cinematic)) := by
  intro s s'
  have hs : s.Settled config := ((new_settled config hasImages).run turns).1
  have hrecorded : s.Recorded config :=
    (new_recorded config hasImages).run (new_settled config hasImages) turns
  have hids := mem_ids_take_iff hrecorded hs t
  refine ⟨hs.take_notices t, fun n hn => ?_, fun n' hn' => ?_⟩
  · have hroot : (n.id, n.rig) ∈ s.scene.roots := Scene.mem_roots.mpr ⟨n, hn, rfl, rfl⟩
    have hopen : n.rig ∈ s.fleet.ids :=
      (hs.mem_rigs_iff n.rig).mp (List.mem_map_of_mem hroot)
    have hstays : (∃ n' ∈ s'.scene.nodes, n'.id = n.id) ↔ n.rig ∈ s'.fleet.ids := by
      rw [← hs.stays_iff t hroot]
      constructor
      · rintro ⟨n', hn', hid⟩
        exact ⟨(n'.id, n'.rig), Scene.mem_roots.mpr ⟨n', hn', rfl, rfl⟩, hid⟩
      · rintro ⟨other, hother, hid⟩
        obtain ⟨n', hn', hid', -⟩ := Scene.mem_roots.mp hother
        exact ⟨n', hn', hid'.trans hid⟩
    rw [hstays, hids n.rig]
    constructor
    · rintro (⟨cinematic, hlast⟩ | ⟨hlast, -⟩) reason hend
      · rw [hlast] at hend
        cases hend
      · rw [hlast] at hend
        cases hend
    · intro hnoEnd
      cases hlast : lastBoundary? n.rig (s.take t).fleet.events with
      | none => exact Or.inr ⟨rfl, hopen⟩
      | some change =>
        rcases lastBoundary?_cases hlast with ⟨cinematic, rfl⟩ | ⟨reason, rfl⟩
        · exact Or.inl ⟨cinematic, rfl⟩
        · exact absurd hlast (hnoEnd reason)
  · have hroot : (n'.id, n'.rig) ∈ s'.scene.roots := Scene.mem_roots.mpr ⟨n', hn', rfl, rfl⟩
    obtain ⟨hopen, horigin⟩ := (hs.take_roots t _).1 hroot
    refine ⟨hopen, ?_⟩
    rcases horigin with hold | ⟨hfresh, hnew⟩
    · exact Or.inl (Scene.mem_roots.mp hold)
    · have hclosed : n'.rig ∉ s.fleet.ids := by rwa [hs.mem_rigs_iff] at hnew
      refine Or.inr ⟨fun n hn => ?_, ?_⟩
      · have hmem : (n.id, n.rig) ∈ s.scene.roots := Scene.mem_roots.mpr ⟨n, hn, rfl, rfl⟩
        have hlt := hs.root_lt hmem
        have hrig : n.rig ∈ s.scene.roots.map (·.2) := List.mem_map_of_mem hmem
        refine ⟨Nat.ne_of_lt (Nat.lt_of_lt_of_le hlt hfresh), fun hsame => hnew ?_⟩
        rwa [hsame] at hrig
      · rcases (hids n'.rig).mp hopen with hcreated | ⟨-, hwasOpen⟩
        · exact hcreated
        · exact absurd hwasOpen hclosed

/-- A frame that opens a rig in a window of the given size, and closes the one before it. -/
def reopening (width height : Nat) : Turn where
  display := .standard
  requests :=
    [.close ⟨"cam"⟩,
      .create ⟨"cam"⟩ s!"smooth;racer;px;0;0;{width};{height}"]
  roster := .lone "racer"
  dt := 0.0

/-- A rig that is closed and created anew under its name with one frame keeps the node, although its
end is told, and even an image of the size that the closed one had. -/
theorem run_keepsNode :
    let s := (new .standard true).run [reopening 640 480]
    let s' := s.take (reopening 800 600)
    s.scene.nodes.map (·.id) = [2] ∧ s'.scene.nodes.map (·.id) = [2] ∧
      s'.fleet.events.map (·.change) =
        [.destroyed .closed, .created false, .targetBound "racer", .surfaceResized 800 600] ∧
      s'.scene.images = some [⟨0, 640, 480⟩] := by
  decide +kernel

end Stage

end Skycam

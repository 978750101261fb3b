import Mathlib.Data.List.Nodup
import Skycam.Scene

/-!
# Rigs in a scene

A scene keeps its index, its nodes and its cameras apart from each other. What holds them together
is a list of fixtures: each of them is a node with its two cameras and what the index says of them,
and the scene holds nothing else (`Scene.Holds`). Every change that the scene makes is a change to
the fixtures of one rig.
-/

namespace Skycam

/-- A node with its cameras and what the index says of them. -/
structure Fixture where
  node : Node
  background : StageCamera
  primary : StageCamera
  generation : UInt32
  image : Option Nat
  children : node.children = [background.id, primary.id]
  drawsBackground : background.layer = .background
  drawsScene : primary.layer = .primary
  distinct : [node.id, background.id, primary.id].Nodup

namespace Fixture

/-- The rig of a fixture. -/
def rig (x : Fixture) : RigId := x.node.rig

/-- The cameras of a fixture in the order of drawing. -/
def cameras (x : Fixture) : List StageCamera := [x.background, x.primary]

/-- The numbers that a fixture takes up. -/
def ids (x : Fixture) : List Nat := [x.node.id, x.background.id, x.primary.id]

/-- What the index says of a fixture. -/
def entities (x : Fixture) : Entities :=
  ⟨x.node.id, x.background.id, x.primary.id, x.generation, x.image⟩

/-- The entry of a fixture in the index. -/
def entry (x : Fixture) : RigId × Entities := (x.rig, x.entities)

/-- The fixture with another generation noted. -/
def noted (generation : UInt32) (x : Fixture) : Fixture := { x with generation }

/-- The fixture with another image. -/
def redirected (image : Nat) (x : Fixture) : Fixture :=
  { x with
    image := some image
    background := x.background.redirect image
    primary := x.primary.redirect image }

/-- The fixture once it shows a frame. -/
def shown (frame : Frame) (x : Fixture) : Fixture :=
  { x with
    node := x.node.follow frame
    background := x.background.aim frame
    primary := x.primary.aim frame }

/-- Changes the fixtures of a rig. -/
def editFor (rig : RigId) (change : Fixture → Fixture) (x : Fixture) : Fixture :=
  if x.rig = rig then change x else x

/-- A part of a fixture is edited with the fixture. -/
theorem apply_editFor {α : Type} (part : Fixture → α) (rig : RigId) (change : Fixture → Fixture)
    (x : Fixture) : part (x.editFor rig change) = if x.rig = rig then part (change x) else part x :=
  apply_ite part _ _ _

theorem rig_editFor {rig : RigId} {change : Fixture → Fixture}
    (hrig : ∀ x, (change x).rig = x.rig) (x : Fixture) : (x.editFor rig change).rig = x.rig := by
  unfold editFor
  split
  · exact hrig x
  · rfl

theorem ids_editFor {rig : RigId} {change : Fixture → Fixture}
    (hids : ∀ x, (change x).ids = x.ids) (x : Fixture) : (x.editFor rig change).ids = x.ids := by
  unfold editFor
  split
  · exact hids x
  · rfl

/-- A fixture takes up the numbers of its cameras. -/
theorem camera_id_mem_ids {x : Fixture} {c : StageCamera} (hc : c ∈ x.cameras) : c.id ∈ x.ids := by
  unfold cameras at hc
  unfold ids
  rcases List.mem_cons.mp hc with rfl | hc
  · simp
  · rw [List.mem_singleton.mp hc]
    simp

/-- Under its rig a fixture is found in the index. -/
theorem lookup_entry {xs : List Fixture} (hn : (xs.map rig).Nodup) {x : Fixture} (hx : x ∈ xs) :
    (xs.map entry).lookup x.rig = some x.entities := by
  induction xs with
  | nil => cases hx
  | cons y xs ih =>
    rw [List.map_cons, List.nodup_cons] at hn
    have hcons : entry y :: xs.map entry = (y.rig, y.entities) :: xs.map entry := rfl
    rw [List.map_cons, hcons]
    rcases List.mem_cons.mp hx with rfl | hrest
    · exact List.lookup_cons_self
    · have hne : (x.rig == y.rig) = false :=
        beq_false_of_ne fun heq => hn.1 (heq ▸ List.mem_map_of_mem hrest)
      rw [List.lookup_cons, hne]
      exact ih hn.2 hrest

end Fixture

/-- The scene consists of the fixtures. -/
structure Scene.Holds (s : Scene) (xs : List Fixture) : Prop where
  index : s.index = xs.map Fixture.entry
  nodes : s.nodes = xs.map Fixture.node
  cameras : s.cameras = xs.flatMap Fixture.cameras
  rigs : (xs.map Fixture.rig).Nodup
  apart : ∀ x ∈ xs, ∀ y ∈ xs, ∀ id ∈ x.ids, id ∈ y.ids → x.rig = y.rig
  fresh : ∀ x ∈ xs, ∀ id ∈ x.ids, id < s.nextEntity

namespace Scene

variable {s t : Scene} {xs : List Fixture} {x : Fixture} {frame : Frame}

/-- A new scene has no fixtures. -/
theorem new_holds (hasImages : Bool) : (new hasImages).Holds [] where
  index := rfl
  nodes := rfl
  cameras := rfl
  rigs := List.nodup_nil
  apart := by simp
  fresh := by simp

theorem Holds.eq_of_rig (h : s.Holds xs) {y : Fixture} (hx : x ∈ xs) (hy : y ∈ xs)
    (hrig : x.rig = y.rig) : x = y := List.inj_on_of_nodup_map h.rigs hx hy hrig

theorem Holds.entities?_of_mem (h : s.Holds xs) (hx : x ∈ xs) :
    s.entities? x.rig = some x.entities := by
  unfold entities?
  rw [h.index]
  exact Fixture.lookup_entry h.rigs hx

/-- A scene knows no entities of a rig without a fixture. -/
theorem Holds.entities?_of_notMem (h : s.Holds xs) {rig : RigId} (hrig : rig ∉ xs.map Fixture.rig) :
    s.entities? rig = none := by
  unfold entities?
  rw [h.index, List.lookup_eq_none_iff]
  intro entry hentry
  obtain ⟨x, hx, rfl⟩ := List.mem_map.mp hentry
  exact bne_iff_ne.mpr fun heq => hrig (heq ▸ List.mem_map_of_mem hx)

/-- Images do not matter to which fixtures there are. -/
theorem Holds.of_eq (h : s.Holds xs) (hindex : t.index = s.index) (hnodes : t.nodes = s.nodes)
    (hcameras : t.cameras = s.cameras) (hnext : t.nextEntity = s.nextEntity) : t.Holds xs where
  index := hindex.trans h.index
  nodes := hnodes.trans h.nodes
  cameras := hcameras.trans h.cameras
  rigs := h.rigs
  apart := h.apart
  fresh := by
    rw [hnext]
    exact h.fresh

theorem Holds.dropImage (h : s.Holds xs) (image : Option Nat) : (s.dropImage image).Holds xs :=
  h.of_eq rfl rfl rfl rfl

theorem addImage_of_images {images : List StageImage} (h : s.images = some images)
    (frame : Frame) : s.addImage frame =
      ({ s with
          images := some (images ++ [⟨s.nextImage, frame.width, frame.height⟩])
          nextImage := s.nextImage + 1 }, some s.nextImage) := by
  unfold addImage
  rw [h]

theorem Holds.addImage (h : s.Holds xs) (frame : Frame) : (s.addImage frame).1.Holds xs := by
  unfold Scene.addImage
  cases s.images <;> exact h.of_eq rfl rfl rfl rfl

/-- The fixtures may change as long as they keep their rigs and their numbers. -/
theorem Holds.map (h : s.Holds xs) {change : Fixture → Fixture} (hrig : ∀ x, (change x).rig = x.rig)
    (hids : ∀ x, (change x).ids = x.ids)
    (hindex : t.index = xs.map fun x => (change x).entry)
    (hnodes : t.nodes = xs.map fun x => (change x).node)
    (hcameras : t.cameras = xs.flatMap fun x => (change x).cameras)
    (hnext : t.nextEntity = s.nextEntity) : t.Holds (xs.map change) where
  index := by rw [hindex, List.map_map]; rfl
  nodes := by rw [hnodes, List.map_map]; rfl
  cameras := by rw [hcameras, List.flatMap_map]
  rigs := by
    have hrigs : (xs.map change).map Fixture.rig = xs.map Fixture.rig := by
      rw [List.map_map]
      exact List.map_congr_left fun x _ => hrig x
    rw [hrigs]
    exact h.rigs
  apart := by
    intro x' hx' y' hy' id
    obtain ⟨x, hx, rfl⟩ := List.mem_map.mp hx'
    obtain ⟨y, hy, rfl⟩ := List.mem_map.mp hy'
    rw [hids, hids, hrig, hrig]
    exact h.apart x hx y hy id
  fresh := by
    intro x' hx' id
    obtain ⟨x, hx, rfl⟩ := List.mem_map.mp hx'
    rw [hids, hnext]
    exact h.fresh x hx id

/-- The same for a change to the fixtures of one rig. -/
theorem Holds.edit (h : s.Holds xs) {rig : RigId} {change : Fixture → Fixture}
    (hrig : ∀ x, (change x).rig = x.rig) (hids : ∀ x, (change x).ids = x.ids)
    (hindex : t.index =
      xs.map fun x => (x.rig, if x.rig = rig then (change x).entities else x.entities))
    (hnodes : t.nodes = xs.map fun x => if x.rig = rig then (change x).node else x.node)
    (hcameras : t.cameras =
      xs.flatMap fun x => if x.rig = rig then (change x).cameras else x.cameras)
    (hnext : t.nextEntity = s.nextEntity) :
    t.Holds (xs.map (Fixture.editFor rig change)) := by
  refine h.map (Fixture.rig_editFor hrig) (Fixture.ids_editFor hids) ?_ ?_ ?_ hnext
  · refine hindex.trans (List.map_congr_left fun x _ => ?_)
    rw [Fixture.entry, Fixture.rig_editFor hrig, Fixture.apply_editFor Fixture.entities]
  · exact hnodes.trans (List.map_congr_left fun x _ => (Fixture.apply_editFor _ _ _ x).symm)
  · exact hcameras.trans (List.flatMap_congr fun x _ => (Fixture.apply_editFor _ _ _ x).symm)

/-! ## Changes to what is there -/

/-- Cameras that are edited by their numbers are edited where they are. -/
theorem editCameras_eq (s : Scene) {ids : List Nat} (hn : ids.Nodup)
    {change : StageCamera → StageCamera} (hid : ∀ c, (change c).id = c.id) :
    s.editCameras ids change =
      { s with cameras := s.cameras.map fun c => if c.id ∈ ids then change c else c } := by
  induction ids generalizing s with
  | nil => simp [editCameras]
  | cons id ids ih =>
    rw [List.nodup_cons] at hn
    have hstep : s.editCameras (id :: ids) change =
        (s.editCamera id change).editCameras ids change := rfl
    rw [hstep, ih _ hn.2]
    unfold editCamera
    dsimp only
    rw [List.map_map]
    congr 1
    refine List.map_congr_left fun c _ => ?_
    by_cases hc : c.id = id
    · have hout : id ∉ ids := hn.1
      simp [hc, hid, hout]
    · simp [hc]

/-- The node of a fixture is that of its rig only. -/
theorem Holds.node_id_eq_iff (h : s.Holds xs) (hx : x ∈ xs) {y : Fixture} (hy : y ∈ xs) :
    y.node.id = x.node.id ↔ y.rig = x.rig := by
  constructor
  · intro hid
    have hmem : y.node.id ∈ x.ids := by simp [Fixture.ids, hid]
    exact h.apart y hy x hx _ List.mem_cons_self hmem
  · intro hrig
    rw [h.eq_of_rig hy hx hrig]

/-- The cameras of a fixture are those of its rig only. -/
theorem Holds.camera_id_mem_iff (h : s.Holds xs) (hx : x ∈ xs) {y : Fixture} (hy : y ∈ xs)
    {c : StageCamera} (hc : c ∈ y.cameras) : c.id ∈ x.entities.cameras ↔ y.rig = x.rig := by
  constructor
  · intro hid
    have hmem : c.id ∈ x.ids := List.mem_cons_of_mem _ hid
    exact h.apart y hy x hx _ (Fixture.camera_id_mem_ids hc) hmem
  · intro hrig
    rw [← h.eq_of_rig hy hx hrig]
    exact List.mem_map_of_mem (f := StageCamera.id) hc

/-- The node of a fixture is that of its rig. -/
theorem Holds.editNode_nodes (h : s.Holds xs) (hx : x ∈ xs) (change : Node → Node) :
    (s.editNode x.node.id change).nodes =
      xs.map fun y => if y.rig = x.rig then change y.node else y.node := by
  unfold editNode
  dsimp only
  rw [h.nodes, List.map_map]
  refine List.map_congr_left fun y hy => ?_
  have hnode := h.node_id_eq_iff hx hy
  by_cases hrig : y.rig = x.rig
  · simp [hrig, hnode.mpr hrig]
  · have hid : y.node.id ≠ x.node.id := fun hid => hrig (hnode.mp hid)
    simp [hrig, hid]

/-- The cameras of a fixture are those of its rig. -/
theorem Holds.editCameras (h : s.Holds xs) (hx : x ∈ xs) {change : StageCamera → StageCamera}
    (hid : ∀ c, (change c).id = c.id) (ht : t.cameras = s.cameras) :
    t.editCameras x.entities.cameras change =
      { t with
        cameras := xs.flatMap fun y =>
          if y.rig = x.rig then y.cameras.map change else y.cameras } := by
  have hn : x.entities.cameras.Nodup := (List.nodup_cons.mp x.distinct).2
  rw [editCameras_eq t hn hid, ht, h.cameras, List.map_flatMap]
  congr 1
  refine List.flatMap_congr fun y hy => ?_
  by_cases hrig : y.rig = x.rig
  · rw [if_pos hrig]
    refine List.map_congr_left fun c hc => ?_
    rw [if_pos ((h.camera_id_mem_iff hx hy hc).mpr hrig)]
  · rw [if_neg hrig, List.map_congr_left, List.map_id]
    intro c hc
    rw [if_neg fun hmem => hrig ((h.camera_id_mem_iff hx hy hc).mp hmem)]
    rfl

/-- The entry of a fixture is that of its rig. -/
theorem Holds.editEntities_index (h : s.Holds xs) (rig : RigId) (change : Entities → Entities) :
    (s.editEntities rig change).index =
      xs.map fun y => (y.rig, if y.rig = rig then change y.entities else y.entities) := by
  unfold editEntities
  dsimp only
  rw [h.index, List.map_map]
  refine List.map_congr_left fun y _ => ?_
  by_cases hrig : y.rig = rig <;> simp [Fixture.entry, hrig]

/-- Presenting a frame changes the fixture of its rig. -/
theorem Holds.present (h : s.Holds xs) (hx : x ∈ xs) (hrig : x.rig = frame.rig) :
    (s.present frame).Holds (xs.map (Fixture.editFor frame.rig (Fixture.shown frame))) := by
  have hentities : s.entities? frame.rig = some x.entities := by
    rw [← hrig]
    exact h.entities?_of_mem hx
  have hnodes : (s.editNode x.entities.root (Node.follow frame)).nodes =
      xs.map fun y => if y.rig = x.rig then y.node.follow frame else y.node :=
    h.editNode_nodes hx _
  have hcameras : (s.editNode x.entities.root (Node.follow frame)).editCameras x.entities.cameras
      (StageCamera.aim frame) = _ := h.editCameras hx (fun _ => rfl) rfl
  unfold Scene.present
  rw [hentities]
  dsimp only
  rw [hcameras]
  rw [hrig] at hnodes ⊢
  refine h.edit (fun _ => rfl) (fun _ => rfl) ?_ hnodes rfl rfl
  exact h.index.trans (List.map_congr_left fun y _ => Prod.ext rfl (ite_self _).symm)

/-- The generation of a frame is noted of the fixture of its rig. -/
theorem Holds.note (h : s.Holds xs) (frame : Frame) :
    (s.editEntities frame.rig (Entities.note frame.generation)).Holds
      (xs.map (Fixture.editFor frame.rig (Fixture.noted frame.generation))) := by
  refine h.edit (fun _ => rfl) (fun _ => rfl) ?_ ?_ ?_ rfl
  · exact h.editEntities_index frame.rig (Entities.note frame.generation)
  · exact h.nodes.trans (List.map_congr_left fun y _ => (ite_self _).symm)
  · exact h.cameras.trans (List.flatMap_congr fun y _ => (ite_self _).symm)

/-- Another image changes nothing but where the fixture of its rig draws. -/
theorem Holds.renew (h : s.Holds xs) (hx : x ∈ xs) (hrig : x.rig = frame.rig) :
    ∃ change : Fixture → Fixture, (∀ y, (change y).rig = y.rig) ∧
      (∀ y, (change y).generation = y.generation) ∧ (∀ y, y.rig ≠ frame.rig → change y = y) ∧
      (s.renew frame x.entities).Holds (xs.map change) := by
  cases himages : s.images with
  | none =>
    have hrenew : s.renew frame x.entities = s := by
      simp [Scene.renew, Scene.addImage, Scene.dropImage, himages]
    refine ⟨id, fun _ => rfl, fun _ => rfl, fun _ _ => rfl, ?_⟩
    rw [hrenew, List.map_id]
    exact h
  | some images =>
    have hfiltered : (s.dropImage x.entities.image).images =
        some (images.filter fun i => some i.id != x.entities.image) := by
      simp [Scene.dropImage, himages]
    obtain ⟨stored, hstored, hindex, hnodes, hcameras, hnext⟩ : ∃ stored : Scene,
        (s.dropImage x.entities.image).addImage frame = (stored, some s.nextImage) ∧
          stored.index = s.index ∧ stored.nodes = s.nodes ∧ stored.cameras = s.cameras ∧
          stored.nextEntity = s.nextEntity :=
      ⟨_, addImage_of_images hfiltered frame, rfl, rfl, rfl, rfl⟩
    have hedited : stored.editCameras x.entities.cameras (StageCamera.redirect s.nextImage) = _ :=
      h.editCameras hx (fun _ => rfl) hcameras
    unfold Scene.renew
    rw [hstored]
    dsimp only
    rw [hedited]
    refine ⟨Fixture.editFor frame.rig (Fixture.redirected s.nextImage),
      Fixture.rig_editFor fun _ => rfl, fun y => ?_, fun y hother => if_neg hother,
      h.edit (fun _ => rfl) (fun _ => rfl) ?_ ?_ ?_ hnext⟩
    · exact (Fixture.apply_editFor Fixture.generation _ _ y).trans (ite_self _)
    · refine Eq.trans ?_ (h.editEntities_index frame.rig (Entities.redirect s.nextImage))
      unfold editEntities
      rw [← hindex]
    · exact hnodes.trans
        (h.nodes.trans (List.map_congr_left fun y _ => (ite_self _).symm))
    · rw [hrig]
      rfl

/-! ## Fixtures that come and go -/

/-- A rig that has no fixture gets one. -/
theorem Holds.install (h : s.Holds xs) (hrig : frame.rig ∉ xs.map Fixture.rig) :
    ∃ x : Fixture, x.rig = frame.rig ∧ x.generation = frame.generation ∧
      (s.install frame).Holds (xs ++ [x]) := by
  have hadded := h.addImage frame
  unfold Scene.install
  generalize s.addImage frame = added at hadded ⊢
  obtain ⟨t, image⟩ := added
  dsimp only at hadded
  let x : Fixture :=
    { node := Node.new (t.nextEntity + 2) frame.rig [t.nextEntity, t.nextEntity + 1]
      background := StageCamera.new t.nextEntity .background image
      primary := StageCamera.new (t.nextEntity + 1) .primary image
      generation := frame.generation
      image
      children := rfl
      drawsBackground := rfl
      drawsScene := rfl
      distinct := by simp [Node.new, StageCamera.new] }
  have hids : ∀ id ∈ x.ids, t.nextEntity ≤ id ∧ id < t.nextEntity + 3 := by
    intro id hid
    simp only [x, Fixture.ids, Node.new, StageCamera.new, List.mem_cons, List.not_mem_nil,
      or_false] at hid
    omega
  refine ⟨x, rfl, rfl, ?_, ?_, ?_, ?_, ?_, ?_⟩
  · simp [addCamera, addNode, hadded.index, x, Fixture.entry, Fixture.entities, Fixture.rig,
      Node.new, StageCamera.new]
  · simp [addCamera, addNode, hadded.nodes, x]
  · simp [addCamera, addNode, hadded.cameras, x, Fixture.cameras]
  · rw [List.map_append]
    refine hadded.rigs.append (List.nodup_singleton _) fun rig hold hnew => ?_
    have heq : rig = frame.rig := List.mem_singleton.mp hnew
    exact hrig (heq ▸ hold)
  · intro y hy z hz id hidy hidz
    have hfresh : ∀ w ∈ xs, id ∈ w.ids → id ∉ x.ids := by
      intro w hw hold hnew
      have hlt := hadded.fresh w hw id hold
      have hge := (hids id hnew).1
      omega
    rcases List.mem_append.mp hy with hy | hy
    · rcases List.mem_append.mp hz with hz | hz
      · exact hadded.apart y hy z hz id hidy hidz
      · rw [List.mem_singleton.mp hz] at hidz
        exact absurd hidz (hfresh y hy hidy)
    · rw [List.mem_singleton.mp hy] at hidy ⊢
      rcases List.mem_append.mp hz with hz | hz
      · exact absurd hidy (hfresh z hz hidz)
      · rw [List.mem_singleton.mp hz]
  · intro y hy id hid
    show id < t.nextEntity + 1 + 1 + 1
    rcases List.mem_append.mp hy with hy | hy
    · have hlt := hadded.fresh y hy id hid
      omega
    · rw [List.mem_singleton.mp hy] at hid
      have hlt := (hids id hid).2
      omega

theorem filter_flatMap_of_forall {α β : Type} {f : α → List β} {p : β → Bool} {q : α → Bool}
    {l : List α} (h : ∀ a ∈ l, ∀ b ∈ f a, p b = q a) :
    (l.flatMap f).filter p = (l.filter q).flatMap f := by
  induction l with
  | nil => rfl
  | cons a l ih =>
    obtain ⟨ha, hl⟩ := List.forall_mem_cons.mp h
    rw [List.flatMap_cons, List.filter_append, ih hl]
    cases hq : q a with
    | true =>
      have hall : (f a).filter p = f a := List.filter_eq_self.mpr fun b hb => (ha b hb).trans hq
      rw [hall, List.filter_cons_of_pos hq, List.flatMap_cons]
    | false =>
      have hnone : (f a).filter p = [] :=
        List.filter_eq_nil_iff.mpr fun b hb => by simp [ha b hb, hq]
      rw [hnone, List.filter_cons_of_neg (by simp [hq]), List.nil_append]

/-- The node of a fixture is found by its number. -/
theorem Holds.node?_of_mem (h : s.Holds xs) (hx : x ∈ xs) : s.node? x.node.id = some x.node := by
  have hmem : x.node ∈ s.nodes := by
    rw [h.nodes]
    exact List.mem_map_of_mem hx
  cases hfound : s.node? x.node.id with
  | none => simpa using List.find?_eq_none.mp hfound x.node hmem
  | some n =>
    have hn : n ∈ s.nodes := List.mem_of_find?_eq_some hfound
    have hid : n.id = x.node.id := by simpa using List.find?_some hfound
    rw [h.nodes] at hn
    obtain ⟨y, hy, rfl⟩ := List.mem_map.mp hn
    rw [h.eq_of_rig hy hx ((h.node_id_eq_iff hx hy).mp hid)]

/-- A rig that is dismissed takes its fixture away and no other. -/
theorem Holds.dismiss_of_mem (h : s.Holds xs) (hx : x ∈ xs) :
    (s.dismiss x.rig).Holds (xs.filter fun y => y.rig != x.rig) := by
  have hsub : ∀ y ∈ xs.filter fun y => y.rig != x.rig, y ∈ xs :=
    fun y hy => List.mem_of_mem_filter hy
  have hchildren : ((s.node? x.entities.root).elim [] (·.children)) = x.entities.cameras := by
    have hnode : s.node? x.entities.root = some x.node := h.node?_of_mem hx
    rw [hnode]
    exact x.children
  unfold Scene.dismiss
  rw [h.entities?_of_mem hx]
  refine Holds.dropImage ⟨?_, ?_, ?_, ?_, ?_, ?_⟩ _
  · show s.index.filter _ = _
    rw [h.index, List.filter_map]
    rfl
  · show s.nodes.filter _ = _
    rw [h.nodes, List.filter_map]
    congr 1
    refine List.filter_congr fun y hy => ?_
    have hid := h.node_id_eq_iff hx hy
    show (y.node.id != x.node.id) = (y.rig != x.rig)
    rw [Bool.eq_iff_iff, bne_iff_ne, bne_iff_ne, ne_eq, ne_eq, hid]
  · show s.cameras.filter _ = _
    rw [h.cameras]
    refine filter_flatMap_of_forall fun y hy c hc => ?_
    have hmem := h.camera_id_mem_iff hx hy hc
    show (!((s.node? x.entities.root).elim [] (·.children)).contains c.id) = (y.rig != x.rig)
    rw [hchildren, Bool.eq_iff_iff, Bool.not_eq_true', bne_iff_ne, ne_eq, ← hmem,
      List.contains_eq_mem, decide_eq_false_iff_not]
  · exact h.rigs.sublist (List.filter_sublist.map _)
  · exact fun y hy z hz => h.apart y (hsub y hy) z (hsub z hz)
  · exact fun y hy => h.fresh y (hsub y hy)

/-- Dismissing a rig takes its fixture away, if there is one. -/
theorem Holds.dismiss (h : s.Holds xs) (rig : RigId) :
    (s.dismiss rig).Holds (xs.filter fun y => y.rig != rig) := by
  by_cases hrig : rig ∈ xs.map Fixture.rig
  · obtain ⟨x, hx, rfl⟩ := List.mem_map.mp hrig
    exact h.dismiss_of_mem hx
  · have hall : (xs.filter fun y => y.rig != rig) = xs :=
      List.filter_eq_self.mpr fun y hy =>
        bne_iff_ne.mpr fun heq => hrig (heq ▸ List.mem_map_of_mem hy)
    unfold Scene.dismiss
    rw [h.entities?_of_notMem hrig, hall]
    exact h

end Scene

end Skycam

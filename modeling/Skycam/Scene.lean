import Skycam.Camera
import Skycam.Geometry.Rotation
import Skycam.Rig.Event

/-!
# Scenes

The scene holds what is to be seen of a fleet: for each open rig a node with two cameras, which
draw into an image of the size of its surface. Nodes, cameras and images are kept apart from each
other, under numbers, and an index says which of them belong to which rig. With each update the
scene is brought in line with the frames of the rigs: nodes that are missing are added, images of
the wrong generation are made anew, nodes without a frame go, and then each frame is shown.
-/

namespace Skycam

/-- How a camera of the scene projects; an angle is in radians. -/
inductive Lens where
  /-- A field of view. -/
  | perspective (angle : Float32)
  /-- No field of view. -/
  | orthographic
  deriving DecidableEq, Repr

/-- Whether a lens has no field of view. -/
def Lens.isOrthographic : Lens → Bool
  | perspective _ => false
  | orthographic => true

/-- A camera of the scene. -/
structure StageCamera where
  /-- The number of the camera. -/
  id : Nat
  /-- What it draws. -/
  layer : CameraLayer
  /-- Whether it draws at all. -/
  active : Bool
  /-- How it projects. -/
  lens : Lens
  /-- The image into which it draws. -/
  image : Option Nat
  deriving DecidableEq, Repr

namespace StageCamera

/-- A new camera. -/
def new (id : Nat) (layer : CameraLayer) (image : Option Nat) : StageCamera :=
  ⟨id, layer, true, .perspective (Quat.radians 45.0), image⟩

/-- Whether a camera clears what was drawn before. The scene is drawn over the background. -/
def clears (c : StageCamera) : Bool := c.layer == .background

/-- Takes over who draws and how from a frame. -/
def aim (frame : Frame) (c : StageCamera) : StageCamera :=
  { c with
    active := frame.camerasEnabled
    lens :=
      if frame.orthographic then .orthographic else .perspective (Quat.radians frame.fov) }

/-- Draws into another image. -/
def redirect (image : Nat) (c : StageCamera) : StageCamera := { c with image := some image }

end StageCamera

/-- An image of a scene. -/
structure StageImage where
  /-- The number of the image. -/
  id : Nat
  /-- The width in pixels. -/
  width : UInt32
  /-- The height in pixels. -/
  height : UInt32
  deriving DecidableEq, Repr

/-- The size of an image in bytes: four for each pixel. -/
def StageImage.bytes (i : StageImage) : Nat := i.width.toNat * i.height.toNat * 4

/-- The node of a rig. -/
structure Node where
  /-- The number of the node. -/
  id : Nat
  /-- The rig. -/
  rig : RigId
  /-- Where the node is. -/
  translation : Vec3 Float32
  /-- How the node is turned. -/
  rotation : Quat Float32
  /-- The numbers of what goes with the node. -/
  children : List Nat
  deriving DecidableEq, Repr

namespace Node

/-- The name of a node. -/
def name (n : Node) : String := s!"PhotoDrone {n.rig.text}"

/-- A new node at the origin. -/
def new (id : Nat) (rig : RigId) (children : List Nat) : Node :=
  ⟨id, rig, Vec3.zero, Quat.identity, children⟩

/-- Goes where a frame shows the rig. Nodes look backwards along their third axis. -/
def follow (frame : Frame) (n : Node) : Node :=
  { n with translation := frame.position, rotation := frame.rotation * Quat.halfTurn }

end Node

/-- What belongs to a rig in the scene. -/
structure Entities where
  /-- The node. -/
  root : Nat
  /-- The camera that draws first. -/
  background : Nat
  /-- The camera that draws second. -/
  primary : Nat
  /-- The generation of the surface for which the image was made. -/
  generation : UInt32
  /-- The image. -/
  image : Option Nat
  deriving DecidableEq, Repr

namespace Entities

/-- The cameras in the order of drawing. -/
def cameras (e : Entities) : List Nat := [e.background, e.primary]

/-- Notes another generation of the surface. -/
def note (generation : UInt32) (e : Entities) : Entities := { e with generation }

/-- Notes another image. -/
def redirect (image : Nat) (e : Entities) : Entities := { e with image := some image }

end Entities

/-- What is to be seen of a fleet. -/
structure Scene where
  /-- What belongs to each rig. -/
  index : List (RigId × Entities)
  /-- The nodes. -/
  nodes : List Node
  /-- The cameras. -/
  cameras : List StageCamera
  /-- The images, unless the scene has no store for them. -/
  images : Option (List StageImage)
  /-- The number of the next node or camera; no two of them ever have the same. -/
  nextEntity : Nat
  /-- The number of the next image. -/
  nextImage : Nat
  deriving DecidableEq, Repr

namespace Scene

/-- The scene without nodes. -/
def new (hasImages : Bool) : Scene := ⟨[], [], [], if hasImages then some [] else none, 0, 0⟩

/-- What belongs to a rig. -/
def entities? (s : Scene) (rig : RigId) : Option Entities := s.index.lookup rig

/-- The node of a number. -/
def node? (s : Scene) (id : Nat) : Option Node := s.nodes.find? (·.id == id)

/-- The camera of a number. -/
def camera? (s : Scene) (id : Nat) : Option StageCamera := s.cameras.find? (·.id == id)

/-- The image of a number. -/
def image? (s : Scene) (id : Nat) : Option StageImage :=
  s.images.bind fun images => images.find? (·.id == id)

/-- Changes the node of a number, if it is there. -/
def editNode (s : Scene) (id : Nat) (change : Node → Node) : Scene :=
  { s with nodes := s.nodes.map fun n => if n.id = id then change n else n }

/-- Changes the camera of a number, if it is there. -/
def editCamera (s : Scene) (id : Nat) (change : StageCamera → StageCamera) : Scene :=
  { s with cameras := s.cameras.map fun c => if c.id = id then change c else c }

/-- Changes the cameras of some numbers. -/
def editCameras (s : Scene) (ids : List Nat) (change : StageCamera → StageCamera) : Scene :=
  ids.foldl (fun s id => s.editCamera id change) s

/-- Changes what the index says of a rig. -/
def editEntities (s : Scene) (rig : RigId) (change : Entities → Entities) : Scene :=
  { s with index := s.index.map fun (id, e) => if id = rig then (id, change e) else (id, e) }

/-- Adds a camera. -/
def addCamera (s : Scene) (layer : CameraLayer) (image : Option Nat) : Scene × Nat :=
  let camera := StageCamera.new s.nextEntity layer image
  ({ s with cameras := s.cameras ++ [camera], nextEntity := s.nextEntity + 1 }, s.nextEntity)

/-- Adds a node with what goes with it. -/
def addNode (s : Scene) (rig : RigId) (children : List Nat) : Scene × Nat :=
  let node := Node.new s.nextEntity rig children
  ({ s with nodes := s.nodes ++ [node], nextEntity := s.nextEntity + 1 }, s.nextEntity)

/-- Makes an image of the size that a frame gives, if there is a store for it. -/
def addImage (s : Scene) (frame : Frame) : Scene × Option Nat :=
  match s.images with
  | none => (s, none)
  | some images =>
    let image : StageImage := ⟨s.nextImage, frame.width, frame.height⟩
    ({ s with images := some (images ++ [image]), nextImage := s.nextImage + 1 },
      some s.nextImage)

/-- Removes an image, if there is one. -/
def dropImage (s : Scene) (image : Option Nat) : Scene :=
  { s with images := s.images.map fun images => images.filter fun i => some i.id != image }

/-- Removes a node and the cameras that go with it. -/
def dropNode (s : Scene) (id : Nat) : Scene :=
  let children := (s.node? id).elim [] (·.children)
  { s with
    nodes := s.nodes.filter fun n => n.id != id
    cameras := s.cameras.filter fun c => !children.contains c.id }

/-- Adds a node with two cameras for the rig of a frame. -/
def install (s : Scene) (frame : Frame) : Scene :=
  let (s, image) := s.addImage frame
  let (s, background) := s.addCamera .background image
  let (s, primary) := s.addCamera .primary image
  let (s, root) := s.addNode frame.rig [background, primary]
  let entities : Entities := ⟨root, background, primary, frame.generation, image⟩
  { s with index := s.index ++ [(frame.rig, entities)] }

/-- Replaces the image of a rig and lets its cameras draw into the new one, if there is a store for
images. -/
def renew (s : Scene) (frame : Frame) (e : Entities) : Scene :=
  match (s.dropImage e.image).addImage frame with
  | (_, none) => s
  | (stored, some image) =>
    (stored.editCameras e.cameras (StageCamera.redirect image)).editEntities frame.rig
      (Entities.redirect image)

/-- Notes the generation of the surface of a rig, and makes a new image if it is another one. -/
def refresh (s : Scene) (frame : Frame) (e : Entities) : Scene :=
  if e.generation = frame.generation then s
  else (s.editEntities frame.rig (Entities.note frame.generation)).renew frame e

/-- Makes sure that there is a node for the rig of a frame, with an image of the right size. -/
def enroll (s : Scene) (frame : Frame) : Scene :=
  match s.entities? frame.rig with
  | some e => s.refresh frame e
  | none => s.install frame

/-- Removes what belongs to a rig. -/
def dismiss (s : Scene) (rig : RigId) : Scene :=
  match s.entities? rig with
  | some e =>
    ({ s with index := s.index.filter (·.1 != rig) }.dropNode e.root).dropImage e.image
  | none => s

/-- Brings the nodes in line with the frames of an update. -/
def sync (s : Scene) (frames : List Frame) : Scene :=
  let enrolled := frames.foldl enroll s
  let gone := (enrolled.index.map (·.1)).filter fun rig => !frames.any (·.rig == rig)
  gone.foldl dismiss enrolled

/-- Lets the node and the cameras of a rig take over what a frame shows. -/
def present (s : Scene) (frame : Frame) : Scene :=
  match s.entities? frame.rig with
  | some e =>
    (s.editNode e.root (Node.follow frame)).editCameras e.cameras (StageCamera.aim frame)
  | none => s

/-- Shows the frames of an update. -/
def apply (s : Scene) (frames : List Frame) : Scene := frames.foldl present s

end Scene

end Skycam

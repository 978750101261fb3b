import Skycam.Camera
import Skycam.Json.Decode

/-!
# Camera layers as JSON
-/

namespace Skycam.CameraLayer

open Json

/-- Reads the name of a layer. -/
def ofJson? (v : Value) : Option CameraLayer :=
  v.oneOf? (both.map fun layer => (layer.label, layer))

/-- The name of a layer. -/
def toJson (layer : CameraLayer) : Value := .text layer.label

end Skycam.CameraLayer

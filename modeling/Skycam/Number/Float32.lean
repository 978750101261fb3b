import Skycam.Number.Layout
import Skycam.Number.Scalar

/-!
# Single precision as scalars

The scalars of run time. Arithmetic and comparisons are those of the machine; conversions and the
rounding to integers are those of `Single`, which go through the exact value.
-/

namespace Skycam

instance : Scalar Float32 where
  decLt := inferInstance
  decLe := inferInstance
  isFinite := Float32.isFinite
  isNaN := Float32.isNaN
  ofUInt32 n := Single.ofNat n.toNat
  ofInt32 n := Single.ofInt n.toInt
  round := Single.round
  toUInt32 := Single.toUInt32
  toInt32 := Single.toInt32
  spell := Single.plain

end Skycam

import Collocation.Decimal.Shortest
import Collocation.Scalar

/-!
Doubles as the numbers of the library: their arithmetic is the machine's, and their exact values and
texts are read off their bits.
-/

namespace Collocation.Decimal

/-- Machine arithmetic, with the shortest text that reads back. -/
instance : Scalar Float where
  decLt := inferInstance
  decLe := inferInstance
  infinity := 1.0 / 0.0
  nan := 0.0 / 0.0
  exact x := (Reading.ofBits x.toBits).exact
  isNegative x := (Reading.ofBits x.toBits).isNegative
  text x := (Reading.ofBits x.toBits).text
  maxEntries := 0x200000000

end Collocation.Decimal

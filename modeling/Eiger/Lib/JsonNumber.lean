import Eiger.Lib.Binary64
import Eiger.Lib.Json

/-!
# Numbers of JSON as doubles

A number is read as the double nearest to it, and a double is written as a number if it is finite.
-/

namespace Json

namespace Number

/-- A number as a double, by its bits. -/
def toF64 : Number → UInt64
  | .posInt n => Binary64.ofNat n
  | .negInt i => Binary64.ofInt i
  | .float bits => bits

/-- The exact value of a number. -/
def value : Number → ℚ
  | .posInt n => n
  | .negInt i => i
  | .float bits => Binary64.value bits

/-- A number as JSON texts have it: its integer is one of 64 bits, and its double finite. -/
def InRange : Number → Prop
  | .posInt n => n < 2 ^ 64
  | .negInt i => -2 ^ 63 ≤ i ∧ i < 0
  | .float bits => Binary64.isFinite bits = true

end Number

namespace Value

/-- The double nearest to a number. -/
def asF64 : Value → Option UInt64
  | .number n => some n.toF64
  | _ => none

/-- A double as a value. -/
def ofF64 (bits : UInt64) : Value :=
  if Binary64.isFinite bits then .number (.float bits) else .null

end Value

end Json

import Mathlib.Order.Defs.LinearOrder
import Mathlib.Algebra.Order.Group.Int

/-! Wall-clock values as `time.time()` returns them. They are compared, and whole
seconds are added to them. Nothing is assumed of the addition, so results
about a `Clock` cover the rounding of floats; whole seconds are an instance. -/

namespace SentinelGRC.Python

class Clock (T : Type) extends LinearOrder T where
  /-- The instant `0`. -/
  epoch : T
  /-- `now + seconds`. -/
  after : T → ℤ → T

instance : Clock ℤ where
  epoch := 0
  after := (· + ·)

theorem Clock.after_int (t seconds : ℤ) : Clock.after t seconds = t + seconds := rfl

end SentinelGRC.Python

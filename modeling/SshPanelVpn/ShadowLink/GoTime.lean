import Mathlib.Algebra.Ring.Int.Defs
import Mathlib.Data.Int.Order.Basic

/-! Go's `time.Time` without a monotonic reading, as far as the handshake uses it. -/
namespace SshPanelVpn.ShadowLink

/-- `sec` counts the seconds since year 1 in 64-bit arithmetic, as Go stores them. -/
structure Time where
  sec : Int64
  nsec : Nat
  nsec_lt : nsec < 1000000000

namespace Time

/-- The seconds from year 1 to 1970. -/
def unixToInternal : Int64 := 62135596800

/-- `time.Unix(sec, 0)`. -/
def ofUnix (sec : Int64) : Time := ⟨sec + unixToInternal, 0, by decide⟩

/-- `t.Unix()`. -/
def unix (t : Time) : Int64 := t.sec - unixToInternal

/-- The exact number of nanoseconds since year 1. -/
def nanos (t : Time) : Int := t.sec.toInt * 1000000000 + t.nsec

/-- `t.Sub(u)` as a `time.Duration`: an `int64` of nanoseconds, saturating. -/
def sub (t u : Time) : Int := max (-2 ^ 63) (min (2 ^ 63 - 1) (t.nanos - u.nanos))

def second : Int := 1000000000

@[simp] theorem unix_ofUnix (sec : Int64) : (ofUnix sec).unix = sec := by
  simp [ofUnix, unix]

/-- Saturation does not matter to a bound that a duration can hold. -/
theorem sub_le_iff (t u : Time) {d : Int} (h0 : 0 ≤ d) (h1 : d < 2 ^ 63 - 1) :
    t.sub u ≤ d ↔ t.nanos - u.nanos ≤ d := by
  unfold sub
  omega

end Time

end SshPanelVpn.ShadowLink

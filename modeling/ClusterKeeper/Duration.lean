/-
# Durations

A length of time as a whole number of nanoseconds, up to `2 ^ 64` seconds. It is shown in
the largest of four units in which it is at least one, with no more digits behind the
point than it needs.
-/

namespace ClusterKeeper

/-- The nanoseconds of a second. -/
def nanosPerSecond : Nat := 1000000000

/-- The nanoseconds of a millisecond. -/
def nanosPerMilli : Nat := 1000000

/-- The nanoseconds of a microsecond. -/
def nanosPerMicro : Nat := 1000

/-- The number of durations: a duration is shorter than this many nanoseconds. -/
def Duration.bound : Nat := UInt64.size * nanosPerSecond

/-- A length of time in nanoseconds. -/
structure Duration where
  nanos : Nat
  nanos_lt : nanos < Duration.bound
  deriving DecidableEq

namespace Duration

@[ext] theorem ext {d e : Duration} (h : d.nanos = e.nanos) : d = e := by
  cases d; cases e; cases h; rfl

/-- No time at all. -/
def zero : Duration := ⟨0, by decide⟩

/-- The longest duration. -/
def max : Duration := ⟨bound - 1, by decide⟩

instance : Inhabited Duration := ⟨zero⟩

/-- A number of nanoseconds, or the longest duration if it is too large. -/
def ofNanos (n : Nat) : Duration := if h : n < bound then ⟨n, h⟩ else max

/-- A number of milliseconds. -/
def ofMillis (n : UInt64) : Duration :=
  ⟨n.toNat * nanosPerMilli, by
    have := n.toNat_lt
    simp only [bound, nanosPerMilli, nanosPerSecond, UInt64.size]
    omega⟩

/-- A number of seconds. -/
def ofSecs (n : UInt64) : Duration :=
  ⟨n.toNat * nanosPerSecond, by
    have := n.toNat_lt
    simp only [bound, nanosPerSecond, UInt64.size]
    omega⟩

/-- The shorter of two durations. -/
def min (d e : Duration) : Duration := if e.nanos < d.nanos then e else d

/-- A multiple, or the longest duration if that is too long. -/
def mul (d : Duration) (factor : Nat) : Duration := ofNanos (d.nanos * factor)

/-- The whole seconds. -/
def secs (d : Duration) : Nat := d.nanos / nanosPerSecond

/-- The nanoseconds beyond the whole seconds. -/
def subsecNanos (d : Duration) : Nat := d.nanos % nanosPerSecond

/-- The least whole number of milliseconds that is as long. -/
def millisCeil (d : Duration) : Nat := (d.nanos + (nanosPerMilli - 1)) / nanosPerMilli

/-- A quotient by a power of ten, without needless zeros behind the point. -/
def decimalText (n : Nat) (places : Nat) : String :=
  let unit := Nat.pow 10 places
  let digits := Nat.toDigits 10 (n % unit)
  let fraction := List.replicate (places - digits.length) '0' ++ digits
  let kept := (fraction.reverse.dropWhile (· == '0')).reverse
  let kept := if places = 0 then [] else kept
  toString (n / unit) ++ (if kept.isEmpty then "" else "." ++ String.ofList kept)

/-- The duration in its largest unit. -/
def text (d : Duration) : String :=
  if nanosPerSecond ≤ d.nanos then decimalText d.nanos 9 ++ "s"
  else if nanosPerMilli ≤ d.nanos then decimalText d.nanos 6 ++ "ms"
  else if nanosPerMicro ≤ d.nanos then decimalText d.nanos 3 ++ "µs"
  else decimalText d.nanos 0 ++ "ns"

/-- A number of seconds that no clock reaches. -/
def outOfReach : Nat := 0x7FFFFFFF00000000

/-- How many milliseconds a wait of this length takes. A clock of milliseconds ends a wait
at its first tick that is not too early; a wait that no clock can reach takes thirty years
instead. -/
def waitMillis (d : Duration) : Nat :=
  if d.secs < outOfReach then d.millisCeil else 86400 * 365 * 30 * 1000

end Duration

end ClusterKeeper

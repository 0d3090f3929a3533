/-! Times and lengths of time, counted in nanoseconds. -/

namespace MailProof

/-- A time, counted from the epoch; earlier times are negative. Leap seconds, which a clock never
shows, have no count and are not represented. -/
structure Instant where
  nanos : Int
  deriving DecidableEq, Repr

/-- A length of time. -/
structure Duration where
  nanos : Nat
  deriving DecidableEq, Repr

def nanosPerSecond : Nat := 1000000000

def Duration.ofSeconds (seconds : Nat) (nanos : Nat := 0) : Duration :=
  ⟨seconds * nanosPerSecond + nanos⟩

/-- Whole seconds of a length of time. -/
def Duration.seconds (duration : Duration) : Nat := duration.nanos / nanosPerSecond

/-- The longest length that can be added to a time: `2 ^ 63 - 1` milliseconds. -/
def Duration.longest : Duration := .ofSeconds 9223372036854775 807000000

namespace Instant

def ofSeconds (seconds : Int) (nanos : Nat := 0) : Instant :=
  ⟨seconds * nanosPerSecond + nanos⟩

/-- Whole seconds since the epoch, rounded down. -/
def seconds (instant : Instant) : Int := instant.nanos.fdiv nanosPerSecond

/-- Nanoseconds past the whole second. -/
def subsecond (instant : Instant) : Nat := (instant.nanos.fmod nanosPerSecond).toNat

/-- The last representable time, at the end of the year 262142. -/
def last : Instant := .ofSeconds 8210266876799 999999999

/-- The time `duration` later, or the last time when that lies beyond it. -/
def later (instant : Instant) (duration : Duration) : Instant :=
  ⟨min (instant.nanos + duration.nanos) last.nanos⟩

end Instant

end MailProof

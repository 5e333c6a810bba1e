import StartupLatency.Duration
/-!
Retry delays of failing keys: doubled with every failure in a row, up to a bound.
-/

namespace StartupLatency

structure Backoff where
  base : Duration
  max : Duration
deriving DecidableEq

namespace Backoff

def default : Backoff := ⟨.ofMillis 100, .ofSeconds 60⟩

def doublings (failures : Nat) : Nat := min (failures - 1) 31

/-- The delay after so many failures in a row; a delay past all durations is past the bound. -/
def delay (backoff : Backoff) (failures : Nat) : Duration :=
  ((backoff.base.times? (Nat.pow 2 (doublings failures))).getD backoff.max).shorter backoff.max

end Backoff
end StartupLatency

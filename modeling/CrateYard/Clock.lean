/-! Sleeping on a clock of milliseconds. -/

namespace CrateYard.Clock

/-- The longest sleep: thirty years of 365 days. -/
def longestSleep : Nat := 30 * 365 * 24 * 60 * 60 * 1000

/-- How long a sleep lasts that is to last `ms`. -/
def sleep (ms : Nat) : Nat :=
  min ms longestSleep

theorem sleep_le (ms : Nat) : sleep ms ≤ ms :=
  Nat.min_le_left _ _

theorem sleep_of_le {ms : Nat} (h : ms ≤ longestSleep) : sleep ms = ms :=
  Nat.min_eq_left h

end CrateYard.Clock

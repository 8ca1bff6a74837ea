import CrateYard.Path.Basic

/-! Delays of a debouncer. A file that changes again and again is waited for longer, in steps, and never longer than a
limit. Repetitions are counted in a 32-bit word and delays are 64-bit words; what does not fit one has no result. -/

namespace CrateYard.Debounce

inductive Signal where
  | changed (path : Path)
  | requested
deriving DecidableEq, Repr

/-- The longest delay after a change, in milliseconds. -/
def longestDelay : Nat := 15000

/-- By how much a delay grows with the number of repetitions. -/
def factor (repeats : Nat) : Nat :=
  if repeats ≤ 5 then 1
  else if repeats ≤ 10 then 2
  else if repeats ≤ 15 then 3
  else if repeats ≤ 20 then 4
  else 5

/-- The delay after a change that repeats the one before it for the given number of times. -/
def delay? (base repeats : Nat) : Option Nat :=
  if base * factor repeats < Nat.pow 2 64 then some (min (base * factor repeats) longestDelay) else none

/-- The file that changed last, and how often in a row it did so after the first time. -/
structure Backoff where
  last : Option Path
  repeats : Nat
deriving DecidableEq, Repr

namespace Backoff

def fresh : Backoff := ⟨none, 0⟩

def change? (b : Backoff) (path : Path) : Option Backoff :=
  if b.last.any path.same then
    if b.repeats + 1 < Nat.pow 2 32 then some ⟨b.last, b.repeats + 1⟩ else none
  else some ⟨some path, 0⟩

/-- What is remembered after a signal, and how long to wait. -/
def receive? (b : Backoff) (base : Nat) : Signal → Option (Backoff × Nat)
  | .requested => some (fresh, base)
  | .changed path => do
    let b ← b.change? path
    let ms ← delay? base b.repeats
    return (b, ms)

end Backoff
end CrateYard.Debounce

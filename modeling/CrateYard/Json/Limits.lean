import CrateYard.Json.Value

/-! What a reader that builds every value it reads can hold: containers nested at most 127 deep, strings that
have a text, and numbers that a double of 64 bits can approach. -/

namespace CrateYard.Json

/-- The nearest number with at most 53 binary digits before zeros; a tie goes to the even one. -/
def round53 (n : Nat) : Nat :=
  let shift := n.log2 + 1 - 53
  let unit := Nat.pow 2 shift
  let low := n / unit
  let rest := n % unit
  if 2 * rest > unit || (2 * rest = unit && low % 2 = 1) then (low + 1) * unit else low * unit

namespace Number

def wholeDigits (n : Number) : List Nat :=
  (Nat.toDigits 10 n.whole).map fun c => c.toNat - 48

/-- The leading digits as a number of 64 bits, and how many digits came too late for it. -/
def significand : List Nat → Nat → Nat × Nat
  | [], acc => (acc, 0)
  | d :: rest, acc =>
    if 10 * acc + d < Nat.pow 2 64 then significand rest (10 * acc + d) else (acc, rest.length + 1)

/-- The significand and the power of ten that a double is made from. -/
def scaled (n : Number) : Nat × Int :=
  let (whole, late) := significand n.wholeDigits 0
  let (all, skipped) := significand (n.fraction.map (·.val)) whole
  (all, n.exponent.getD 0 + late - (n.fraction.length - skipped : Nat))

/-- A double can approach the number: it does not round to infinity. An integer that fits 64 bits is kept as
it is. -/
def isFinite (n : Number) : Bool :=
  let (significand, exponent) := n.scaled
  significand = 0 || exponent < 0 ||
    (exponent ≤ 308 && round53 (round53 significand * round53 (Nat.pow 10 exponent.toNat)) < Nat.pow 2 1024)

end Number

/-- The value can be built with containers nested at most `depth` deep. -/
def Value.fits : Nat → Value → Bool
  | _, .null | _, .bool _ => true
  | _, .number n => n.isFinite
  | _, .string s => s.isSome
  | 0, .array _ | 0, .object _ => false
  | depth + 1, .array items => items.all (Value.fits depth)
  | depth + 1, .object members => members.all fun m => m.1.isSome && m.2.fits depth

def Value.isBuildable (v : Value) : Bool :=
  v.fits 127

end CrateYard.Json
